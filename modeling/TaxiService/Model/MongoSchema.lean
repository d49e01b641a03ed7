import TaxiService.Lib.Bson
import TaxiService.Model.StdString

/-!
# The validator of the users collection

`validation.js` installs a `$jsonSchema` on `users`, with level `strict` and
action `error`: a document that it does not accept is not inserted.
-/

namespace TaxiService.Model

open TaxiService.Lib

/-- A pattern of the script, character by character. -/
def patternText (s : String) : List Nat := s.toList.map Char.toNat

def loginSchema : FieldSchema where
  bsonType := some .string
  minLength := 3
  maxLength := some 50
  pattern := patternText "^[a-z0-9._-]+$"

def passwordSchema : FieldSchema where
  bsonType := some .string
  minLength := 6

/-- `first_name` and `last_name`. -/
def nameSchema : FieldSchema where
  bsonType := some .string
  minLength := 1
  maxLength := some 100

def statusSchema : FieldSchema where
  enum := some [bytes "active", bytes "blocked"]

def emailSchema : FieldSchema where
  bsonType := some .string
  pattern := patternText "^[^@\\s]+@[^@\\s]+\\.[^@\\s]+$"

def phoneSchema : FieldSchema where
  bsonType := some .string
  pattern := patternText "^\\+?[0-9]\x7b10,15\x7d$"

def usersSchema : BsonSchema :=
  .object
    [bytes "login", bytes "password", bytes "first_name", bytes "last_name",
      bytes "created_at", bytes "status", bytes "profile"]
    false
    [(bytes "_id", .field { bsonType := some .objectId }),
      (bytes "login", .field loginSchema),
      (bytes "password", .field passwordSchema),
      (bytes "first_name", .field nameSchema),
      (bytes "last_name", .field nameSchema),
      (bytes "created_at", .field { bsonType := some .date }),
      (bytes "status", .field statusSchema),
      (bytes "profile",
        .object [bytes "email", bytes "phone"] false
          [(bytes "email", .field emailSchema),
            (bytes "phone", .field phoneSchema)])]

end TaxiService.Model
