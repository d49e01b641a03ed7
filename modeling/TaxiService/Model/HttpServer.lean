import TaxiService.Lib.Threads
import TaxiService.Lib.Topics
import TaxiService.Model.Auth
import TaxiService.Model.MongoUsers
import TaxiService.Model.Serving

/-!
# The HTTP server

The ten routes of `static_config.yaml` that the repository has a handler for,
with `AuthMiddleware` in front of each, and any number of their requests side
by side. A request is one the server has found a route for, and the route is
part of it. `/ping` and `/tests/` are the framework's own.

A call is atomic and between two calls of one request the others may make
theirs. `Login` is two calls: it reads the user from the database, and then
makes the token in the locked section. Reads go to a replica
(`ClusterHostType::kSlave`), and what it shows is the database of any moment
so far; writes go to the master.
-/

namespace TaxiService.Model

open TaxiService.Lib

/-! ## Routes -/

inductive HttpMethod where
  | get
  | post
  | patch
  deriving DecidableEq, Repr

inductive Route where
  | usersCreate
  | usersGet
  | authLogin
  | driversCreate
  | ridesCreate
  | ridesGet
  | ridesAccept
  | ridesComplete
  | mongoUsersCreate
  | mongoUsersGet
  deriving DecidableEq, Repr

def Route.method : Route → HttpMethod
  | .usersCreate => .post
  | .usersGet => .get
  | .authLogin => .post
  | .driversCreate => .post
  | .ridesCreate => .post
  | .ridesGet => .get
  | .ridesAccept => .patch
  | .ridesComplete => .patch
  | .mongoUsersCreate => .post
  | .mongoUsersGet => .get

def Route.path : Route → StdString
  | .usersCreate => bytes "/users"
  | .usersGet => bytes "/users"
  | .authLogin => bytes "/auth/login"
  | .driversCreate => bytes "/drivers"
  | .ridesCreate => bytes "/rides"
  | .ridesGet => bytes "/rides"
  | .ridesAccept => bytes "/rides/\x7bid\x7d/accept"
  | .ridesComplete => bytes "/rides/\x7bid\x7d/complete"
  | .mongoUsersCreate => bytes "/mongo/users"
  | .mongoUsersGet => bytes "/mongo/users"

/-- A segment in braces stands for any one. -/
def pathSegment (segment : StdString) : TopicWord StdString :=
  if segment.head? = some 123 then .one else .word segment

/-- Does the path match the one of the configuration, segment by segment? By
default a slash at the end of the path does not matter. -/
def takesPath (template path : StdString) : Bool :=
  let segments := (template.splitOn 47).map pathSegment
  takesWords segments (path.splitOn 47) ||
    (path.getLast? == some 47 && takesWords segments (path.dropLast.splitOn 47))

def Route.takes (route : Route) (method : HttpMethod) (path : StdString) :
    Bool := route.method == method && takesPath route.path path

/-- A request that has a route, with the parts that some handler reads. What
is not there is empty. -/
structure HttpRequest where
  method : HttpMethod
  path : StdString
  authHeader : StdString
  body : StdString
  login : StdString
  nameMask : StdString
  userId : StdString
  status : StdString
  id : StdString
  route : Route
  routed : route.takes method path = true
  deriving DecidableEq, Repr

def HttpStatus.code : HttpStatus → Nat
  | .ok => 200
  | .created => 201
  | .badRequest => 400
  | .notFound => 404
  | .conflict => 409
  | .tooManyRequests => 429

def MongoStatus.code : MongoStatus → Nat
  | .ok => 200
  | .created => 201
  | .badRequest => 400
  | .notFound => 404
  | .conflict => 409
  | .internalServerError => 500

structure HttpResponse where
  code : Nat
  headers : List (StdString × StdString)
  body : StdString
  deriving DecidableEq, Repr

def Response.toHttp (response : Response) : HttpResponse :=
  ⟨response.status.code, response.headers, response.body⟩

def MongoResponse.toHttp (response : MongoResponse) : HttpResponse :=
  ⟨response.status.code, response.headers, response.body⟩

/-! ## Calls -/

inductive ServerEffect where
  | app (e : Effect)
  | mongo (e : MongoEffect)
  | isTokenValid (token : StdString)
  | issueToken (userId : Int)
  deriving DecidableEq, Repr

abbrev ServerEffect.Result : ServerEffect → Type
  | .app e => e.Result
  | .mongo e => e.Result
  | .isTokenValid _ => Bool
  | .issueToken _ => StdString

abbrev HttpProg (α : Type) := Prog ServerEffect ServerEffect.Result Exn α

def serverCall (e : ServerEffect) : HttpProg e.Result := .perform e

/-- A handler's body among the calls of the server. -/
def onApp {α : Type} (p : Handler α) : HttpProg α :=
  p.embed .app fun _ r => r

def fromHandler (p : Handler Response) : HttpProg HttpResponse := do
  return (← onApp p).toHttp

/-- The same for the two handlers that throw nothing. -/
def fromMongo (p : MongoProg Empty MongoResponse) : HttpProg HttpResponse := do
  let response ← (p.embed .mongo fun _ r => r).tryCatch Empty.elim
  return response.toHttp

/-! ## `AuthLogin` -/

/-- `TaxiStorage::Login`. -/
def storageLogin (login password : StdString) :
    HttpProg (Option StdString) := do
  match ← onApp (call (.getUserByLogin login) >>= orThrow) with
  | none => return none
  | some user =>
      if user.password != password then return none
      else return some (← serverCall (.issueToken user.id))

variable (json : MongoJson)

def authLogin (requestBody : StdString) : HttpProg HttpResponse := do
  let value ← onApp (orJson (json.fromString requestBody))
  let login ← onApp (getString json.toUserverJson value "login")
  let password ← onApp (getString json.toUserverJson value "password")
  if login.isEmpty || password.isEmpty then
    return ⟨400, [contentType],
      json.toString (errorJson "login and password are required")⟩
  match ← storageLogin login password with
  | none => return ⟨401, [contentType],
      json.toString (errorJson "invalid credentials")⟩
  | some token => return ⟨200, [contentType],
      json.toString (.object [(bytes "token", .str token)])⟩

/-! ## Requests -/

/-- What the request is to the handler of its route. -/
def handler (request : HttpRequest) : HttpProg HttpResponse :=
  match request.route with
  | .usersCreate =>
      fromHandler (handle json.toUserverJson (.usersCreate request.body))
  | .usersGet => fromHandler
      (handle json.toUserverJson (.usersGet request.login request.nameMask))
  | .authLogin => authLogin json request.body
  | .driversCreate =>
      fromHandler (handle json.toUserverJson (.driversCreate request.body))
  | .ridesCreate =>
      fromHandler (handle json.toUserverJson (.ridesCreate request.body))
  | .ridesGet => fromHandler
      (handle json.toUserverJson (.ridesGet request.userId request.status))
  | .ridesAccept => fromHandler
      (handle json.toUserverJson (.ridesAccept request.body request.id))
  | .ridesComplete =>
      fromHandler (handle json.toUserverJson (.ridesComplete request.id))
  | .mongoUsersCreate => fromMongo (handleMongo json (.create request.body))
  | .mongoUsersGet =>
      fromMongo (handleMongo json (.get request.login request.nameMask))

/-- A response of the middleware itself. -/
def unauthorized (data : String) : HttpResponse :=
  ⟨401, [contentType], bytes data⟩

/-- `AuthMiddleware::HandleRequest`, with what `Next` goes on to. -/
def authMiddleware (request : HttpRequest) (next : HttpProg HttpResponse) :
    HttpProg HttpResponse :=
  if isPublicRequest request.path then next
  else if request.authHeader.length ≤ kBearerPrefix.length ||
      request.authHeader.take kBearerPrefix.length != kBearerPrefix then
    return unauthorized
      "\x7b\"error\":\"missing or invalid Authorization header\"\x7d"
  else do
    let token := request.authHeader.drop kBearerPrefix.length
    if !(← serverCall (.isTokenValid token)) then
      return unauthorized "\x7b\"error\":\"invalid token\"\x7d"
    else next

def serveRequest (request : HttpRequest) : HttpProg HttpResponse :=
  authMiddleware request (handler json request)

/-! ## What the calls do -/

/-- Everything the requests share. `earlier` holds the databases of the moments
before, the last one first. -/
structure World where
  app : App
  earlier : List Db
  tokens : Tokens
  mongoUsers : List MongoUser

/-- What comes in with a call: the clock readings, and how many moments the
replica is behind. -/
structure CallInput where
  clocks : Readings
  mongoNow : Timestamp
  lag : Nat

/-- The database a replica shows. -/
def World.replica (lag : Nat) (w : World) : Db :=
  (w.app.backend.db :: w.earlier).getD lag w.app.backend.db

/-- The locked section of `Login`. -/
def Tokens.issue (userId : Int) (s : Tokens) : StdString × Tokens :=
  let token := makeToken userId s.nextTokenId
  (token,
    { nextTokenId := nextInt s.nextTokenId
      tokens := s.tokens.set token userId })

variable (lower : StdString → StdString) (server : MongoServer)

def callServer (input : CallInput) :
    (e : ServerEffect) → World → e.Result × World
  | .app e, w =>
      if reads e then
        ((callBackend lower input.clocks e
          ⟨w.replica input.lag, w.app.backend.limiter⟩).1, w)
      else
        let (result, app) := callApp lower input.clocks e w.app
        (result, { w with app, earlier := w.app.backend.db :: w.earlier })
  | .mongo e, w =>
      let (result, mongoUsers) :=
        callMongo server input.mongoNow e w.mongoUsers
      (result, { w with mongoUsers })
  | .isTokenValid token, w => (w.tokens.isTokenValid token, w)
  | .issueToken userId, w =>
      let (token, tokens) := w.tokens.issue userId
      (token, { w with tokens })

abbrev ServerEvent := ThreadEvent HttpRequest CallInput

abbrev ServerRun := Threads HttpRequest CallInput World ServerEffect
  ServerEffect.Result Exn HttpResponse

/-- The server after some events, from what it starts with. -/
def httpServer (w : World) (events : List ServerEvent) : ServerRun :=
  Threads.after (serveRequest json) (callServer lower server) w events

/-- The server when it has started over the tables of `schema.sql`. -/
def World.start (mongoUsers : List MongoUser) : World :=
  ⟨⟨⟨.empty, .empty⟩, .empty⟩, [], .start, mongoUsers⟩

end TaxiService.Model
