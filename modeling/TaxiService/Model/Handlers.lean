import TaxiService.Lib.Prog
import TaxiService.Model.Performance
import TaxiService.Model.Storage

/-!
# The HTTP handlers

`HandleRequestThrow` of the seven handlers that work on users, drivers and
rides, as programs over the calls they make: to the rate limiter, to the
response cache and to `TaxiStorage`. A handler returns the response it has
filled in, or throws; what the server makes of an exception is not in this
repository.

The JSON library is a parameter (`UserverJson`). Values that a handler builds
are plain data (`BuiltJson`) and `ToString` renders them; values that it reads
are opaque, and every access may throw.
-/

namespace TaxiService.Model

open TaxiService.Lib

/-! ## JSON -/

/-- What a `ValueBuilder` holds. -/
inductive BuiltJson where
  | int (n : Int)
  | str (s : StdString)
  | object (fields : List (StdString × BuiltJson))
  | array (items : List BuiltJson)

/-- The calls on `userver::formats::json` the handlers make. -/
structure UserverJson where
  Value : Type
  fromString : StdString → Except StdString Value
  member : Value → StdString → Except StdString Value
  asString : Value → Except StdString StdString
  asInt : Value → Except StdString Int
  toString : BuiltJson → StdString

/-- What a handler can throw. -/
inductive Exn where
  | json (what : StdString)
  | stoi (e : StoiError)
  | pg (e : PgError)
  deriving DecidableEq, Repr

/-! ## Calls -/

inductive Effect where
  | check (key : StdString) (limit window : Int)
  | cacheGet (key : StdString)
  | cacheSet (key value : StdString) (ttl : Int)
  | invalidatePrefix (pre : StdString)
  | createUser (login password fullName : StdString)
  | createDriver (userId : Int) (carModel carNumber licenseNumber : StdString)
  | createRide (passengerId : Int) (pickupAddress destinationAddress : StdString)
  | acceptRide (rideId driverId : Int)
  | completeRide (rideId : Int)
  | getUserByLogin (login : StdString)
  | findUsersByNameMask (nameMask : StdString)
  | getRidesByUserId (userId : Int)
  | getActiveRides
  deriving DecidableEq, Repr

abbrev Effect.Result : Effect → Type
  | .check .. => RateLimitResult
  | .cacheGet _ => Option StdString
  | .cacheSet .. => Unit
  | .invalidatePrefix _ => Unit
  | .createUser .. => Except PgError (Option User)
  | .createDriver .. => Except PgError (Option Driver)
  | .createRide .. => Except PgError (Option Ride)
  | .acceptRide .. => Option Ride
  | .completeRide _ => Option Ride
  | .getUserByLogin _ => Except PgError (Option User)
  | .findUsersByNameMask _ => Except PgError (List User)
  | .getRidesByUserId _ => List Ride
  | .getActiveRides => List Ride

/-- The body of a handler. -/
abbrev Handler (α : Type) := Prog Effect Effect.Result Exn α

def call (e : Effect) : Handler e.Result := .perform e

/-- A storage call that may end in a server error. -/
def orThrow {α : Type} : Except PgError α → Handler α
  | .ok a => .pure a
  | .error e => .throw (.pg e)

def orJson {α : Type} : Except StdString α → Handler α
  | .ok a => .pure a
  | .error what => .throw (.json what)

/-- `std::stoi`. -/
def orStoi : Except StoiError Int → Handler Int
  | .ok n => .pure n
  | .error e => .throw (.stoi e)

/-! ## Responses -/

inductive HttpStatus where
  | ok
  | created
  | badRequest
  | notFound
  | conflict
  | tooManyRequests
  deriving DecidableEq, Repr

structure Response where
  status : HttpStatus
  headers : List (StdString × StdString)
  body : StdString
  deriving DecidableEq, Repr

/-- `SetContentType("application/json")`. -/
def contentType : StdString × StdString :=
  (bytes "Content-Type", bytes "application/json")

/-- A response with only the content type set. -/
def respond (status : HttpStatus) (body : StdString) : Response :=
  ⟨status, [contentType], body⟩

/-- `{"error": text}`. -/
def errorJson (text : String) : BuiltJson :=
  .object [(bytes "error", .str (bytes text))]

def userJson (user : User) : BuiltJson :=
  .object [(bytes "id", .int user.id), (bytes "login", .str user.login),
    (bytes "full_name", .str user.fullName)]

def driverJson (driver : Driver) : BuiltJson :=
  .object [(bytes "id", .int driver.id), (bytes "user_id", .int driver.userId),
    (bytes "car_model", .str driver.carModel),
    (bytes "car_number", .str driver.carNumber),
    (bytes "license_number", .str driver.licenseNumber),
    (bytes "status", .str driver.status.text)]

/-- `MakeRideJson`. -/
def makeRideJson (ride : Ride) : BuiltJson :=
  .object [(bytes "id", .int ride.id),
    (bytes "passenger_id", .int ride.passengerId),
    (bytes "driver_id", .int ride.driverId),
    (bytes "pickup_address", .str ride.pickupAddress),
    (bytes "destination_address", .str ride.destinationAddress),
    (bytes "status", .str ride.status.text)]

variable (json : UserverJson)

/-- `json[name].As<std::string>()`. -/
def getString (value : json.Value) (name : String) : Handler StdString := do
  orJson (json.asString (← orJson (json.member value (bytes name))))

/-- `json[name].As<int>()`. -/
def getInt (value : json.Value) (name : String) : Handler Int := do
  orJson (json.asInt (← orJson (json.member value (bytes name))))

/-! ## Users -/

def usersCreate (requestBody : StdString) : Handler Response := do
  let value ← orJson (json.fromString requestBody)
  let login ← getString json value "login"
  let password ← getString json value "password"
  let fullName ← getString json value "full_name"
  if login.isEmpty || password.isEmpty || fullName.isEmpty then
    return respond .badRequest
      (json.toString (errorJson "login, password and full_name are required"))
  match ← orThrow (← call (.createUser login password fullName)) with
  | none =>
      return respond .conflict (json.toString (errorJson "user already exists"))
  | some user =>
      call (.invalidatePrefix (bytes "users:"))
      return respond .created (json.toString (userJson user))

def xCache (value : String) : StdString × StdString :=
  (bytes "X-Cache", bytes value)

def usersGet (login nameMask : StdString) : Handler Response := do
  let hasLogin := !login.isEmpty
  let hasNameMask := !nameMask.isEmpty
  if hasLogin == hasNameMask then
    return respond .badRequest (json.toString
      (errorJson "use exactly one query parameter: login or name_mask"))
  let cacheKey := if hasLogin then bytes "users:login:" ++ login
    else bytes "users:name_mask:" ++ nameMask
  match ← call (.cacheGet cacheKey) with
  | some cached => return ⟨.ok, [contentType, xCache "HIT"], cached⟩
  | none =>
      if hasLogin then
        match ← orThrow (← call (.getUserByLogin login)) with
        | none =>
            return ⟨.notFound, [contentType, xCache "MISS"],
              json.toString (errorJson "user not found")⟩
        | some user =>
            let body := json.toString (userJson user)
            call (.cacheSet cacheKey body 60)
            return ⟨.ok, [contentType, xCache "MISS"], body⟩
      else
        let users ← orThrow (← call (.findUsersByNameMask nameMask))
        let body := json.toString (.array (users.map userJson))
        call (.cacheSet cacheKey body 60)
        return ⟨.ok, [contentType, xCache "MISS"], body⟩

/-! ## Drivers -/

def driversCreate (requestBody : StdString) : Handler Response := do
  let value ← orJson (json.fromString requestBody)
  let userId ← getInt json value "user_id"
  let carModel ← getString json value "car_model"
  let carNumber ← getString json value "car_number"
  let licenseNumber ← getString json value "license_number"
  if userId ≤ 0 || carModel.isEmpty || carNumber.isEmpty ||
      licenseNumber.isEmpty then
    return respond .badRequest (json.toString (errorJson
      "user_id, car_model, car_number and license_number are required"))
  match ← orThrow
      (← call (.createDriver userId carModel carNumber licenseNumber)) with
  | none =>
      return respond .conflict
        (json.toString (errorJson "driver cannot be created"))
  | some driver =>
      call (.invalidatePrefix (bytes "drivers:"))
      return respond .created (json.toString (driverJson driver))

/-! ## Rides -/

def ridesCreate (requestBody : StdString) : Handler Response := do
  let value ← orJson (json.fromString requestBody)
  let passengerId ← getInt json value "passenger_id"
  let pickupAddress ← getString json value "pickup_address"
  let destinationAddress ← getString json value "destination_address"
  if passengerId ≤ 0 || pickupAddress.isEmpty || destinationAddress.isEmpty then
    return respond .badRequest (json.toString (errorJson
      "passenger_id, pickup_address and destination_address are required"))
  match ← orThrow
      (← call (.createRide passengerId pickupAddress destinationAddress)) with
  | none =>
      return respond .conflict
        (json.toString (errorJson "ride cannot be created"))
  | some ride =>
      call (.invalidatePrefix (bytes "rides:"))
      return respond .created (json.toString (makeRideJson ride))

def kActiveRidesLimitPerMinute : Int := 100

/-- `SetRateLimitHeaders`. -/
def rateLimitHeaders (result : RateLimitResult) : List (StdString × StdString) :=
  [(bytes "X-RateLimit-Limit", toDecimal result.limit),
    (bytes "X-RateLimit-Remaining", toDecimal result.remaining),
    (bytes "X-RateLimit-Reset", toDecimal result.resetEpochSeconds)]

/-- The lookup of `ridesGet`, with the headers set so far. -/
def ridesLookup (isHistoryQuery : Bool) (userIdArg : StdString)
    (headers : List (StdString × StdString)) : Handler Response := do
  let cacheKey := if isHistoryQuery then bytes "rides:history:" ++ userIdArg
    else bytes "rides:active"
  match ← call (.cacheGet cacheKey) with
  | some cached => return ⟨.ok, headers ++ [xCache "HIT"], cached⟩
  | none =>
      if isHistoryQuery then
        let userId ← orStoi (stoi userIdArg)
        let rides ← call (.getRidesByUserId userId)
        let body := json.toString (.array (rides.map makeRideJson))
        call (.cacheSet cacheKey body 60)
        return ⟨.ok, headers ++ [xCache "MISS"], body⟩
      else
        let rides ← call .getActiveRides
        let body := json.toString (.array (rides.map makeRideJson))
        call (.cacheSet cacheKey body 15)
        return ⟨.ok, headers ++ [xCache "MISS"], body⟩

def ridesGet (userIdArg status : StdString) : Handler Response := do
  let isHistoryQuery := !userIdArg.isEmpty
  let isActiveQuery := userIdArg.isEmpty && status == bytes "active"
  if !isHistoryQuery && !isActiveQuery then
    return respond .badRequest (json.toString
      (errorJson "user_id or status=active query parameter is required"))
  if isActiveQuery then
    let limitResult ← call (.check (bytes "GET:/rides?status=active")
      kActiveRidesLimitPerMinute 60)
    let headers := contentType :: rateLimitHeaders limitResult
    if !limitResult.allowed then
      return ⟨.tooManyRequests, headers ++ [(bytes "Retry-After", bytes "60")],
        json.toString (errorJson "too many requests")⟩
    ridesLookup json isHistoryQuery userIdArg headers
  else ridesLookup json isHistoryQuery userIdArg [contentType]

def ridesAccept (requestBody rideIdArg : StdString) : Handler Response := do
  let value ← orJson (json.fromString requestBody)
  let driverId ← getInt json value "driver_id"
  if rideIdArg.isEmpty then
    return respond .badRequest
      (json.toString (errorJson "ride id is required in path"))
  let rideId ← orStoi (stoi rideIdArg)
  if driverId ≤ 0 then
    return respond .badRequest (json.toString (errorJson "driver_id is required"))
  match ← call (.acceptRide rideId driverId) with
  | none =>
      return respond .conflict
        (json.toString (errorJson "ride cannot be accepted"))
  | some ride =>
      call (.invalidatePrefix (bytes "rides:"))
      return respond .ok (json.toString (makeRideJson ride))

def ridesComplete (rideIdArg : StdString) : Handler Response := do
  if rideIdArg.isEmpty then
    return respond .badRequest
      (json.toString (errorJson "ride id is required in path"))
  let rideId ← orStoi (stoi rideIdArg)
  match ← call (.completeRide rideId) with
  | none =>
      return respond .conflict
        (json.toString (errorJson "ride cannot be completed"))
  | some ride =>
      call (.invalidatePrefix (bytes "rides:"))
      return respond .ok (json.toString (makeRideJson ride))

/-! ## Requests -/

/-- A request to one of the handlers, with the parts its handler reads. -/
inductive Request where
  | usersCreate (body : StdString)
  | usersGet (login nameMask : StdString)
  | driversCreate (body : StdString)
  | ridesCreate (body : StdString)
  | ridesGet (userId status : StdString)
  | ridesAccept (body id : StdString)
  | ridesComplete (id : StdString)
  deriving DecidableEq, Repr

def handle : Request → Handler Response
  | .usersCreate body => Model.usersCreate json body
  | .usersGet login nameMask => Model.usersGet json login nameMask
  | .driversCreate body => Model.driversCreate json body
  | .ridesCreate body => Model.ridesCreate json body
  | .ridesGet userId status => Model.ridesGet json userId status
  | .ridesAccept body id => Model.ridesAccept json body id
  | .ridesComplete id => Model.ridesComplete json id

/-! ## Kinds of requests and calls

The names of the tables and of the cache prefixes come in families, and a
request reads or changes one of them.
-/

inductive Family where
  | users
  | drivers
  | rides
  deriving DecidableEq, Repr

/-- What a mutation of the family passes to `InvalidatePrefix`. -/
def Family.pre : Family → StdString
  | .users => bytes "users:"
  | .drivers => bytes "drivers:"
  | .rides => bytes "rides:"

def isGet : Request → Bool
  | .usersGet .. => true
  | .ridesGet .. => true
  | _ => false

/-- The family a request reads or changes. -/
def familyOf : Request → Family
  | .usersCreate _ => .users
  | .usersGet .. => .users
  | .driversCreate _ => .drivers
  | _ => .rides

/-- The family a call changes, when it is a mutation. -/
def writes : Effect → Option Family
  | .createUser .. => some .users
  | .createDriver .. => some .drivers
  | .createRide .. => some .rides
  | .acceptRide .. => some .rides
  | .completeRide _ => some .rides
  | _ => none

/-- The reads of storage. -/
def reads : Effect → Bool
  | .getUserByLogin _ => true
  | .findUsersByNameMask _ => true
  | .getRidesByUserId _ => true
  | .getActiveRides => true
  | _ => false

/-- The answer of a mutation that changed the tables. -/
def commits : (e : Effect) → e.Result → Bool
  | .createUser .., .ok (some _) => true
  | .createDriver .., .ok (some _) => true
  | .createRide .., .ok (some _) => true
  | .acceptRide .., some _ => true
  | .completeRide _, some _ => true
  | _, _ => false

/-- `200` and `201`. -/
def success : HttpStatus → Bool
  | .ok => true
  | .created => true
  | _ => false

end TaxiService.Model
