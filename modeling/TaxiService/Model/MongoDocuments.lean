import TaxiService.Lib.Bson
import TaxiService.Model.MongoUsers

/-!
# The MongoDB users as documents

`MongoUsers` tells the two handlers of `/mongo/users` over users with fields,
which is enough for what their requests do to each other. Here they are told
over the documents that they really exchange with the collection: what
`MakeDoc` builds, the filters of the look-ups, and `MakeUserJson`, which asks a
document for every member before it reads it. `documentOf` is the document of
such a user, and `Documents.serveMongo` one request from its beginning to its end.

The `_id` that the driver adds to a document is left out: no handler reads it.
-/

namespace TaxiService.Model

open TaxiService.Lib

/-- The argument of `InsertOne`. -/
def makeDoc (fields : UserFields) (now : Timestamp) : Bson :=
  .doc [(bytes "login", .str fields.login),
    (bytes "password", .str fields.password),
    (bytes "first_name", .str fields.firstName),
    (bytes "last_name", .str fields.lastName),
    (bytes "created_at", .date now),
    (bytes "status", .str fields.status),
    (bytes "profile", .doc [(bytes "email", .str fields.profile.email),
      (bytes "phone", .str fields.profile.phone)])]

def documentOf (user : MongoUser) : Bson :=
  makeDoc user.toUserFields user.createdAt

namespace Documents

/-! ## Reading a document -/

/-- What the calls on documents and on JSON throw. -/
inductive Exn where
  | json (what : StdString)
  | typeMismatch
  | writeError
  | invalidRegex
  deriving DecidableEq, Repr

/-- `HasMember` and `operator[]`, which ask for an object. -/
def member? (doc : Bson) (name : String) : Except Exn (Option Bson) :=
  match doc with
  | .doc members => .ok (Assoc.get? members (bytes name))
  | _ => .error .typeMismatch

/-- `As<std::string>()`. -/
def asString : Bson → Except Exn StdString
  | .str s => .ok s
  | _ => .error .typeMismatch

/-- The members of a `ValueBuilder` that is an object. -/
abbrev Builder := Assoc StdString BuiltJson

/-- `builder[outer][name] = value`. -/
def Builder.setIn (builder : Builder) (outer name : String) (value : BuiltJson) :
    Builder :=
  let inner := match Assoc.get? builder (bytes outer) with
    | some (.object fields) => fields
    | _ => []
  Assoc.set builder (bytes outer) (.object (Assoc.set inner (bytes name) value))

/-- `if (doc.HasMember(name)) builder[name] = doc[name].As<std::string>();`,
where `assign` says which member of the builder is meant. -/
def copyText (doc : Bson) (name : String)
    (assign : Builder → BuiltJson → Builder) (builder : Builder) :
    Except Exn Builder := do
  match ← member? doc name with
  | some value => return assign builder (.str (← asString value))
  | none => return builder

def copyTop (doc : Bson) (name : String) (builder : Builder) :
    Except Exn Builder :=
  copyText doc name (fun b v => Assoc.set b (bytes name) v) builder

def copyProfile (profile : Bson) (name : String) (builder : Builder) :
    Except Exn Builder :=
  copyText profile name (fun b v => b.setIn "profile" name v) builder

def makeUserJson (doc : Bson) : Except Exn BuiltJson := do
  let builder ← copyTop doc "login" []
  let builder ← copyTop doc "first_name" builder
  let builder ← copyTop doc "last_name" builder
  let builder ← copyTop doc "status" builder
  let builder ← match ← member? doc "profile" with
    | some profile => do
        let builder ← copyProfile profile "email" builder
        copyProfile profile "phone" builder
    | none => .ok builder
  return .object (Assoc.set builder (bytes "source") (.str (bytes "mongo")))

/-! ## Calls -/

/-- The filters of the look-ups: `{name: value}`, `{name: {$regex: pattern,
$options: "i"}}` and `{$or: [f, g]}`. -/
inductive Filter where
  | eq (name : String) (value : StdString)
  | regex (name : String) (pattern : StdString)
  | or (f g : Filter)

/-- What the server is configured with: its validator, and what a pattern with
the option `i` takes, if it is one. -/
structure CollectionServer where
  validator : Bson → Bool
  regex : StdString → Option (StdString → Bool)

/-- Does a test hold of a string member of the document? -/
def hasText (test : StdString → Bool) (name : String) (doc : Bson) : Bool :=
  match member? doc name with
  | .ok (some (.str s)) => test s
  | _ => false

/-- The documents a filter is for. -/
def Filter.compile (server : CollectionServer) :
    Filter → Except Exn (Bson → Bool)
  | .eq name value => .ok (hasText (· == value) name)
  | .regex name pattern =>
      match server.regex pattern with
      | some test => .ok (hasText test name)
      | none => .error .invalidRegex
  | .or f g => do
      let f ← f.compile server
      let g ← g.compile server
      return fun doc => f doc || g doc

inductive Call where
  | findOne (filter : Filter)
  | insertOne (document : Timestamp → Bson)
  | find (filter : Filter)

abbrev Call.Result : Call → Type
  | .findOne _ => Except Exn (Option Bson)
  | .insertOne _ => Except Exn Unit
  | .find _ => Except Exn (List Bson)

/-- A program over the collection that throws `ε`. -/
abbrev DocProg (ε α : Type) := Prog Call Call.Result ε α

def orThrow {α : Type} : Except Exn α → DocProg Exn α := Prog.ofExcept

/-- A call, whose failure is thrown. -/
def findOne (filter : Filter) : DocProg Exn (Option Bson) := do
  orThrow (← .perform (.findOne filter))

def insertOne (document : Timestamp → Bson) : DocProg Exn Unit := do
  orThrow (← .perform (.insertOne document))

def find (filter : Filter) : DocProg Exn (List Bson) := do
  orThrow (← .perform (.find filter))

variable (json : MongoJson)

/-! ## `MongoUsersCreate` -/

def text (body : json.Value) (name : String) : Except StdString StdString := do
  json.asString (← json.member body (bytes name))

/-- `!body.HasMember(..) || ..`, from left to right. -/
def lacks (body : json.Value) : List String → Except StdString Bool
  | [] => .ok false
  | name :: names => do
      if ← json.hasMember body (bytes name) then lacks body names
      else return true

/-- A member that may be left out. -/
def textOr (body : json.Value) (name : String) (default : StdString) :
    Except StdString StdString := do
  if ← json.hasMember body (bytes name) then text json body name
  else return default

/-- The second `try` block, up to the look-up: a response, or the fields of the
new user. -/
def checkUser (body : json.Value) :
    Except StdString (MongoResponse ⊕ UserFields) := do
  if ← lacks json body ["login", "password", "first_name", "last_name"] then
    return .inl (mongoError .badRequest
      "login, password, first_name and last_name are required")
  let login ← text json body "login"
  let password ← text json body "password"
  let firstName ← text json body "first_name"
  let lastName ← text json body "last_name"
  if login.isEmpty || password.isEmpty || firstName.isEmpty ||
      lastName.isEmpty then
    return .inl (mongoError .badRequest "fields must not be empty")
  if !isValidLogin login then
    return .inl (mongoError .badRequest
      "login must contain only a-z, 0-9, ., _, -")
  if password.length < 6 then
    return .inl (mongoError .badRequest
      "password must be at least 6 characters")
  let status ← textOr json body "status" (bytes "active")
  if status != bytes "active" && status != bytes "blocked" then
    return .inl (mongoError .badRequest "status must be active or blocked")
  let email ← textOr json body "email" (login ++ bytes "@example.com")
  let phone ← textOr json body "phone" (bytes "+79990000000")
  return .inr ⟨login, password, firstName, lastName, status, ⟨email, phone⟩⟩

/-- The rest of it. -/
def insertUser (fields : UserFields) : DocProg Exn MongoResponse := do
  match ← findOne (.eq "login" fields.login) with
  | some _ => return mongoError .conflict "mongo user already exists"
  | none =>
      insertOne (makeDoc fields)
      return ⟨.created, [contentType], json.toString (createdJson fields)⟩

def createUser (body : json.Value) : DocProg Exn MongoResponse := do
  match ← orThrow ((checkUser json body).mapError .json) with
  | .inl response => return response
  | .inr fields => insertUser json fields

def mongoUsersCreate (requestBody : StdString) : DocProg Empty MongoResponse :=
  match json.fromString requestBody with
  | .error _ => .pure (mongoError .badRequest "invalid json")
  | .ok body => (createUser json body).tryCatch fun _ =>
      .pure (mongoError .internalServerError "failed to create mongo user")

/-! ## `MongoUsersGet` -/

def nameFilter (nameMask : StdString) : Filter :=
  .or (.regex "first_name" nameMask) (.regex "last_name" nameMask)

def findUsers (login nameMask : StdString) : DocProg Exn MongoResponse := do
  if !login.isEmpty then
    match ← findOne (.eq "login" login) with
    | none => return mongoError .notFound "mongo user not found"
    | some user =>
        let body ← orThrow (makeUserJson user)
        return ⟨.ok, [contentType], json.toString body⟩
  else
    let docs ← find (nameFilter nameMask)
    let items ← orThrow (docs.mapM makeUserJson)
    return ⟨.ok, [contentType], json.toString (.array items)⟩

def mongoUsersGet (login nameMask : StdString) : DocProg Empty MongoResponse :=
  if login.isEmpty == nameMask.isEmpty then
    .pure (mongoError .badRequest
      "use exactly one query parameter: login or name_mask")
  else (findUsers json login nameMask).tryCatch fun _ =>
    .pure (mongoError .internalServerError "failed to read mongo users")

/-! ## One request -/

/-- One of the documents, whichever the server comes across. -/
def pick (choice : Nat) (docs : List Bson) : Option Bson :=
  docs[choice % docs.length]?

/-- A call on the collection. `FindOne` gets some document its filter is for. -/
def callCollection (server : CollectionServer) (now : Timestamp)
    (choice : Nat) : (c : Call) → List Bson → c.Result × List Bson
  | .findOne filter, docs =>
      ((filter.compile server).map fun test => pick choice (docs.filter test),
        docs)
  | .insertOne document, docs =>
      if server.validator (document now) then (.ok (), docs ++ [document now])
      else (.error .writeError, docs)
  | .find filter, docs => ((filter.compile server).map docs.filter, docs)

/-- A request with the time and the choice it meets. -/
structure Arrival where
  request : MongoRequest
  now : Timestamp
  choice : Nat

def handle : MongoRequest → DocProg Empty MongoResponse
  | .create body => mongoUsersCreate json body
  | .get login nameMask => mongoUsersGet json login nameMask

/-- What a program that throws nothing returned. -/
def returned {α : Type} : Except Empty α → α
  | .ok a => a
  | .error x => x.elim

/-- The request from its beginning to its end. -/
def serveMongo (server : CollectionServer) (docs : List Bson) (a : Arrival) :
    MongoResponse × List Bson :=
  let (result, docs) := (handle json a.request).run
    (callCollection server a.now a.choice) docs
  (returned result, docs)

end Documents

end TaxiService.Model
