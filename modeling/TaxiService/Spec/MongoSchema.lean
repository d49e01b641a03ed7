import TaxiService.Model.MongoDocuments
import TaxiService.Model.MongoSchema

/-!
# What a create request may hold for MongoDB

`MongoUsersCreate` checks its fields and hands them to `InsertOne`, and the
validator of the collection checks the document again. `ValidationAgrees` is
that the two checks go together, `FitsSchema` when they do, told of the members
of the body.
-/

namespace TaxiService.Spec

open TaxiService.Lib TaxiService.Model
open TaxiService.Model.Documents (CollectionServer checkUser serveMongo text)

variable (json : MongoJson)

/-- The body passes all the checks of the handler, with these fields. -/
def Passes (requestBody : StdString) (fields : UserFields) : Prop :=
  ∃ body, json.fromString requestBody = .ok body ∧
    checkUser json body = .ok (.inr fields)

/-- If the body passes the checks, the validator takes its document, and the
request does not end in 500 where the validator is installed. -/
def ValidationAgrees (requestBody : StdString) : Prop :=
  ∀ fields, Passes json requestBody fields →
    (∀ now, usersSchema.accepts (makeDoc fields now) = true) ∧
    ∀ (server : CollectionServer) docs now choice,
      server.validator = usersSchema.accepts →
        (serveMongo json server docs ⟨.create requestBody, now, choice⟩).1.status ≠
          .internalServerError

/-- No `@` and no blank. -/
def EmailPart (part : List Nat) : Prop :=
  part ≠ [] ∧ ∀ c ∈ part, c ≠ 64 ∧ c ≠ 32 ∧ ¬(9 ≤ c ∧ c ≤ 13)

/-- `name@host.zone`. A newline may follow. -/
def EmailText (s : StdString) : Prop :=
  ∃ name host zone newline,
    decodeUtf8 s = some (name ++ 64 :: (host ++ 46 :: (zone ++ newline))) ∧
    EmailPart name ∧ EmailPart host ∧ EmailPart zone ∧
    (newline = [] ∨ newline = [10])

/-- Ten to fifteen digits, with or without `+`. A newline may follow. -/
def PhoneText (s : StdString) : Prop :=
  ∃ plus digits newline, decodeUtf8 s = some (plus ++ (digits ++ newline)) ∧
    (plus = [] ∨ plus = [43]) ∧ 10 ≤ digits.length ∧ digits.length ≤ 15 ∧
    (∀ c ∈ digits, 48 ≤ c ∧ c ≤ 57) ∧ (newline = [] ∨ newline = [10])

/-- A text of so many characters. -/
def TextLength (p : Nat → Prop) (s : StdString) : Prop :=
  ∃ chars, decodeUtf8 s = some chars ∧ p chars.length

/-- The login is of 3 to 50 characters, the password of six at least, the names
of 100 at most, and an email and a phone that are given look like one. -/
structure FitsSchema (body : json.Value) : Prop where
  login : ∀ s, text json body "login" = .ok s → 3 ≤ s.length ∧ s.length ≤ 50
  password : ∀ s, text json body "password" = .ok s → TextLength (6 ≤ ·) s
  firstName : ∀ s, text json body "first_name" = .ok s → TextLength (· ≤ 100) s
  lastName : ∀ s, text json body "last_name" = .ok s → TextLength (· ≤ 100) s
  email : json.hasMember body (bytes "email") = .ok true →
    ∀ s, text json body "email" = .ok s → EmailText s
  phone : json.hasMember body (bytes "phone") = .ok true →
    ∀ s, text json body "phone" = .ok s → PhoneText s

end TaxiService.Spec
