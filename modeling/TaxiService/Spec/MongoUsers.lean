import TaxiService.Model.MongoUsers

/-!
# One document for a login

What a create request is supposed to keep: the collection has no two documents
with one login, and no login is created twice. The handler looks the login up
and inserts by two calls, so this is a question of who comes between them.
`Undisturbed` is the answer: an insert that goes through must be made before
anybody else's insert of that login since the look-up.
-/

namespace TaxiService.Spec

open TaxiService.Lib TaxiService.Model

variable (json : MongoJson) (requests : Nat → MongoRequest)

/-- The login a create request asks for. -/
def requestLogin : MongoRequest → Option StdString
  | .create body => do
      let value ← (json.fromString body).toOption
      let member ← (json.member value (bytes "login")).toOption
      (json.asString member).toOption
  | .get _ _ => none

def UniqueLogins (users : List MongoUser) : Prop :=
  (users.map fun u => u.login).Nodup

instance (users : List MongoUser) : Decidable (UniqueLogins users) :=
  inferInstanceAs (Decidable (List.Nodup _))

/-- Request `i` asked for the login and has answered 201. -/
def CreatedFor (s : MongoService) (login : StdString) (i : Nat) : Prop :=
  requestLogin json (requests i) = some login ∧
    ∃ response, s.rest i = .pure response ∧ response.status = .created

/-- No two documents with one login, and at most one 201 for a login. -/
def LoginsKept (s : MongoService) : Prop :=
  UniqueLogins s.users ∧ ∀ login i j, CreatedFor json requests s login i →
    CreatedFor json requests s login j → i = j

/-- The insert a request makes next. -/
def nextInsert : MongoProg Empty MongoResponse → Option UserFields
  | .op (.insertOne fields) _ => some fields
  | _ => none

/-- If the call is an insert that goes through, nobody has inserted its login
since the request looked it up. -/
def Undisturbed (server : MongoServer) (s : MongoService)
    (step : Nat × Timestamp) : Prop :=
  ∀ fields ∈ nextInsert (s.rest step.1),
    server.validator ⟨fields, step.2⟩ = true →
      ∀ u ∈ s.users.drop (s.lookedAt step.1), u.login ≠ fields.login

instance (server : MongoServer) (s : MongoService) (step : Nat × Timestamp) :
    Decidable (Undisturbed server s step) :=
  inferInstanceAs (Decidable (∀ fields ∈ nextInsert (s.rest step.1), _))

end TaxiService.Spec
