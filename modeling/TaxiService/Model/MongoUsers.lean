import Mathlib.Logic.Function.Basic
import TaxiService.Lib.Run
import TaxiService.Model.Handlers

/-!
# The MongoDB users

The two handlers of `/mongo/users` as programs over their calls to the
`users` collection, and any number of their requests in any order of calls.
A call is atomic, and between two calls of one request the others may make
theirs. No code of the repository creates an index on the collection, so an
insert is refused by the document validator alone, if one is installed.

The driver, the collection's validator and its regular expressions are not in
the repository: a validator is any test of a document, and a pattern any test
of a text, or an error.
-/

namespace TaxiService.Model

open TaxiService.Lib

/-! ## Documents -/

structure Profile where
  email : StdString
  phone : StdString
  deriving DecidableEq, Repr

/-- The fields a create request determines. -/
structure UserFields where
  login : StdString
  password : StdString
  firstName : StdString
  lastName : StdString
  status : StdString
  profile : Profile
  deriving DecidableEq, Repr

/-- A document of the `users` collection. -/
structure MongoUser extends UserFields where
  createdAt : Timestamp
  deriving DecidableEq, Repr

/-! ## Calls -/

/-- What the first `catch` and the second one can get. -/
inductive MongoExn where
  | json (what : StdString)
  | writeError
  | invalidRegex
  deriving DecidableEq, Repr

inductive MongoEffect where
  | findOne (login : StdString)
  | insertOne (fields : UserFields)
  | findByName (nameMask : StdString)
  deriving DecidableEq, Repr

abbrev MongoEffect.Result : MongoEffect → Type
  | .findOne _ => Option MongoUser
  | .insertOne _ => Except MongoExn Unit
  | .findByName _ => Except MongoExn (List MongoUser)

/-- A program over the collection that throws `ε`. -/
abbrev MongoProg (ε α : Type) := Prog MongoEffect MongoEffect.Result ε α

def mongoCall {ε : Type} (e : MongoEffect) : MongoProg ε e.Result := .perform e

def orThrowMongo {α : Type} : Except MongoExn α → MongoProg MongoExn α
  | .ok a => .pure a
  | .error x => .throw x

/-- The statuses the two handlers set. -/
inductive MongoStatus where
  | ok
  | created
  | badRequest
  | notFound
  | conflict
  | internalServerError
  deriving DecidableEq, Repr

structure MongoResponse where
  status : MongoStatus
  headers : List (StdString × StdString)
  body : StdString
  deriving DecidableEq, Repr

/-- A response with a literal body that tells an error. -/
def mongoError (status : MongoStatus) (text : String) : MongoResponse :=
  ⟨status, [contentType], bytes ("\x7b\"error\":\"" ++ text ++ "\"\x7d")⟩

/-- The calls on `userver::formats::json`, `HasMember` among them. -/
structure MongoJson extends UserverJson where
  hasMember : Value → StdString → Except StdString Bool

variable (json : MongoJson)

def mongoJson {α : Type} (x : Except StdString α) : MongoProg MongoExn α :=
  orThrowMongo (x.mapError .json)

/-! ## `MongoUsersCreate` -/

def isLoginChar (b : UInt8) : Bool :=
  (97 ≤ b && b ≤ 122) || (48 ≤ b && b ≤ 57) || b == 46 || b == 95 || b == 45

/-- `regex_match` with `^[a-z0-9._-]+$`. -/
def isValidLogin (login : StdString) : Bool :=
  !login.isEmpty && login.all isLoginChar

def hasMember (body : json.Value) (name : String) : MongoProg MongoExn Bool :=
  mongoJson (json.hasMember body (bytes name))

def getText (body : json.Value) (name : String) :
    MongoProg MongoExn StdString := do
  mongoJson (json.asString (← mongoJson (json.member body (bytes name))))

/-- `!body.HasMember(..) || ..`, from left to right. -/
def lacksMember (body : json.Value) : List String → MongoProg MongoExn Bool
  | [] => .pure false
  | name :: names => do
      if ← hasMember json body name then lacksMember body names
      else return true

/-- A member that may be left out. -/
def textOr (body : json.Value) (name : String) (default : StdString) :
    MongoProg MongoExn StdString := do
  if ← hasMember json body name then getText json body name
  else return default

def createdJson (fields : UserFields) : BuiltJson :=
  .object [(bytes "login", .str fields.login),
    (bytes "first_name", .str fields.firstName),
    (bytes "last_name", .str fields.lastName),
    (bytes "status", .str fields.status),
    (bytes "profile", .object [(bytes "email", .str fields.profile.email),
      (bytes "phone", .str fields.profile.phone)]),
    (bytes "source", .str (bytes "mongo"))]

/-- The look-up and the insert. -/
def insertUnlessFound (fields : UserFields) :
    MongoProg MongoExn MongoResponse := do
  match ← mongoCall (.findOne fields.login) with
  | some _ => return mongoError .conflict "mongo user already exists"
  | none =>
      orThrowMongo (← mongoCall (.insertOne fields))
      return ⟨.created, [contentType], json.toString (createdJson fields)⟩

/-- The second `try` block. -/
def createMongoUser (body : json.Value) : MongoProg MongoExn MongoResponse := do
  if ← lacksMember json body ["login", "password", "first_name", "last_name"] then
    return mongoError .badRequest
      "login, password, first_name and last_name are required"
  let login ← getText json body "login"
  let password ← getText json body "password"
  let firstName ← getText json body "first_name"
  let lastName ← getText json body "last_name"
  if login.isEmpty || password.isEmpty || firstName.isEmpty ||
      lastName.isEmpty then
    return mongoError .badRequest "fields must not be empty"
  if !isValidLogin login then
    return mongoError .badRequest "login must contain only a-z, 0-9, ., _, -"
  if password.length < 6 then
    return mongoError .badRequest "password must be at least 6 characters"
  let status ← textOr json body "status" (bytes "active")
  if status != bytes "active" && status != bytes "blocked" then
    return mongoError .badRequest "status must be active or blocked"
  let email ← textOr json body "email" (login ++ bytes "@example.com")
  let phone ← textOr json body "phone" (bytes "+79990000000")
  insertUnlessFound json
    ⟨login, password, firstName, lastName, status, ⟨email, phone⟩⟩

/-- `HandleRequestThrow`, which throws nothing. -/
def mongoUsersCreate (requestBody : StdString) : MongoProg Empty MongoResponse :=
  match json.fromString requestBody with
  | .error _ => .pure (mongoError .badRequest "invalid json")
  | .ok body => (createMongoUser json body).tryCatch fun _ =>
      .pure (mongoError .internalServerError "failed to create mongo user")

/-! ## `MongoUsersGet` -/

/-- `MakeUserJson`, of a document with all its fields. -/
def makeUserJson (user : MongoUser) : BuiltJson := createdJson user.toUserFields

def findMongoUsers (login nameMask : StdString) :
    MongoProg MongoExn MongoResponse := do
  if !login.isEmpty then
    match ← mongoCall (.findOne login) with
    | none => return mongoError .notFound "mongo user not found"
    | some user =>
        return ⟨.ok, [contentType], json.toString (makeUserJson user)⟩
  else
    let users ← orThrowMongo (← mongoCall (.findByName nameMask))
    return ⟨.ok, [contentType], json.toString (.array (users.map makeUserJson))⟩

def mongoUsersGet (login nameMask : StdString) :
    MongoProg Empty MongoResponse :=
  if login.isEmpty == nameMask.isEmpty then
    .pure (mongoError .badRequest
      "use exactly one query parameter: login or name_mask")
  else (findMongoUsers json login nameMask).tryCatch fun _ =>
    .pure (mongoError .internalServerError "failed to read mongo users")

/-! ## Requests in any order of calls -/

inductive MongoRequest where
  | create (body : StdString)
  | get (login nameMask : StdString)
  deriving DecidableEq, Repr

def handleMongo : MongoRequest → MongoProg Empty MongoResponse
  | .create body => mongoUsersCreate json body
  | .get login nameMask => mongoUsersGet json login nameMask

/-- What the server is configured with. -/
structure MongoServer where
  validator : MongoUser → Bool
  regex : StdString → Option (StdString → Bool)

/-- A call on the collection. `created_at` reads the clock. -/
def callMongo (server : MongoServer) (now : Timestamp) :
    (e : MongoEffect) → List MongoUser → e.Result × List MongoUser
  | .findOne login, users => (users.find? fun u => u.login == login, users)
  | .insertOne fields, users =>
      if server.validator ⟨fields, now⟩ then (.ok (), users ++ [⟨fields, now⟩])
      else (.error .writeError, users)
  | .findByName nameMask, users =>
      match server.regex nameMask with
      | none => (.error .invalidRegex, users)
      | some test =>
          (.ok (users.filter fun u => test u.firstName || test u.lastName),
            users)

/-- The collection and what is left of every request. For the results to speak
about, a request also carries how many documents there were when it looked its
login up, and the place of the document it inserted. -/
structure MongoService where
  users : List MongoUser
  rest : Nat → MongoProg Empty MongoResponse
  lookedAt : Nat → Nat
  insertedAt : Nat → Option Nat

namespace MongoService

/-- No request has made a call. -/
def start (users : List MongoUser) (requests : Nat → MongoRequest) :
    MongoService :=
  ⟨users, fun i => handleMongo json (requests i), fun _ => 0, fun _ => none⟩

/-- What request `i` writes down of its call. -/
def record (s : MongoService) (i : Nat) :
    (e : MongoEffect) → e.Result → MongoService
  | .findOne _, _ =>
      { s with lookedAt := Function.update s.lookedAt i s.users.length }
  | .insertOne _, .ok () =>
      { s with
        insertedAt := Function.update s.insertedAt i (some s.users.length) }
  | _, _ => s

end MongoService

/-- The next call of request `i`. -/
def mongoStep (server : MongoServer) (s : MongoService) :
    Nat × Timestamp → MongoService
  | (i, now) =>
      match s.rest i with
      | .op e k =>
          let (r, users) := callMongo server now e s.users
          { s.record i e r with users, rest := Function.update s.rest i (k r) }
      | _ => s

/-- The service after a schedule. -/
def mongoService (server : MongoServer) (users : List MongoUser)
    (requests : Nat → MongoRequest) (schedule : List (Nat × Timestamp)) :
    MongoService :=
  run (mongoStep server) (.start json users requests) schedule

end TaxiService.Model
