import TaxiService.Lib.AssignmentHistory
import TaxiService.Model.HttpServer
import TaxiService.Spec.Dispatch

/-!
# What the server promises its clients

All of it is read off the trace. A call about drivers or rides goes back, call
by call, to a registration (`LoggedIn`). A mutation is acknowledged once, by
the response that tells what it did (`acknowledgement`), and a request that is
not acknowledged has done nothing. The rides that were acknowledged make a
board (`boardOf`), and what is answered to a later request is what that board
says (`decide?`): nobody needs the database to understand the answers.
-/

namespace TaxiService.Spec

open TaxiService.Lib TaxiService.Model

abbrev ServerPast := Past ServerEffect ServerEffect.Result

abbrev ServerCall := Traced CallInput ServerEffect ServerEffect.Result

/-! ## Who may make a call -/

/-- The call reads or changes what belongs to the family. -/
def About (family : Family) : Effect → Prop
  | .check .. => family = .rides
  | .cacheGet key => startsWith key family.pre = true
  | .cacheSet key _ _ => startsWith key family.pre = true
  | .invalidatePrefix pre => pre = family.pre
  | .getUserByLogin _ => family = .users
  | .findUsersByNameMask _ => family = .users
  | .getRidesByUserId _ => family = .rides
  | .getActiveRides => family = .rides
  | e => writes e = some family

/-- The calls about drivers and rides. -/
def Guarded : ServerEffect → Prop
  | .app e => ¬ About .users e
  | _ => False

/-- The token a call asked about, and whether it is valid. -/
def checkedToken? : (e : ServerEffect) → e.Result → Option (StdString × Bool)
  | .isTokenValid token, valid => some (token, valid)
  | _, _ => none

def issuedToken? : (e : ServerEffect) → e.Result → Option StdString
  | .issueToken _, token => some token
  | _, _ => none

def foundUser? : (e : ServerEffect) → e.Result → Option User
  | .app (.getUserByLogin _), .ok user => user
  | _, _ => none

def createdUser? : (e : ServerEffect) → e.Result → Option User
  | .app (.createUser ..), .ok user => user
  | _, _ => none

variable (json : MongoJson)

/-- The login and the password of a body. -/
def Credentials (body login password : StdString) : Prop :=
  ∃ value, json.fromString body = .ok value ∧
    (json.member value (bytes "login") >>= json.asString) = .ok login ∧
    (json.member value (bytes "password") >>= json.asString) = .ok password

/-- Where a token comes from: a user who was registered, was looked up by a
login request that had the user's login and password, and was given the token
by that request. -/
structure LoggedIn (requests : List HttpRequest) (token : StdString)
    (registration lookup issue : ServerCall) (user : User) : Prop where
  registered : createdUser? registration.effect registration.answer = some user
  registrar : ∃ request, requests[registration.thread]? = some request ∧
    request.route = .usersCreate
  found : foundUser? lookup.effect lookup.answer = some user
  same : lookup.thread = issue.thread
  login : ∃ request, requests[issue.thread]? = some request ∧
    request.route = .authLogin ∧
    Credentials json request.body user.login user.password
  issued : issuedToken? issue.effect issue.answer = some token

/-! ## Acknowledgements -/

/-- The response that tells what a call has changed. -/
def acknowledgement : (e : ServerEffect) → e.Result → Option HttpResponse
  | .app (.createUser ..), .ok (some user) =>
      some ⟨201, [contentType], json.toString (userJson user)⟩
  | .app (.createDriver ..), .ok (some driver) =>
      some ⟨201, [contentType], json.toString (driverJson driver)⟩
  | .app (.createRide ..), .ok (some ride) =>
      some ⟨201, [contentType], json.toString (makeRideJson ride)⟩
  | .app (.acceptRide ..), some ride =>
      some ⟨200, [contentType], json.toString (makeRideJson ride)⟩
  | .app (.completeRide _), some ride =>
      some ⟨200, [contentType], json.toString (makeRideJson ride)⟩
  | _, _ => none

def acknowledgements (past : ServerPast) : List HttpResponse :=
  past.filterMap fun x => acknowledgement json x.1 x.2

/-- The routes that change the tables of `schema.sql`. -/
def mutates : Route → Bool
  | .usersCreate => true
  | .driversCreate => true
  | .ridesCreate => true
  | .ridesAccept => true
  | .ridesComplete => true
  | _ => false

/-- What a request to such a route was told that it has changed. -/
def told (route : Route) : Except Exn HttpResponse → List HttpResponse
  | .ok response =>
      if mutates route && (response.code == 200 || response.code == 201) then
        [response]
      else []
  | .error _ => []

/-- The storage call, when it is a mutation. -/
def storageOp? (x : ServerCall) : Option StorageOp :=
  match x.effect with
  | .app (.createUser login password fullName) =>
      some (.createUser login password fullName)
  | .app (.createDriver userId carModel carNumber licenseNumber) =>
      some (.createDriver userId carModel carNumber licenseNumber)
  | .app (.createRide passengerId pickupAddress destinationAddress) =>
      some (.createRide passengerId pickupAddress destinationAddress
        x.input.clocks.now)
  | .app (.acceptRide rideId driverId) => some (.acceptRide rideId driverId)
  | .app (.completeRide rideId) =>
      some (.completeRide rideId x.input.clocks.now)
  | _ => none

/-- What the mutations of a trace make of the tables of `schema.sql`. -/
def tablesOf (trace : List ServerCall) : Db :=
  reach (trace.filterMap storageOp?)

/-! ## The board of the acknowledged calls -/

/-- The ride a call has answered. -/
def answeredRide? : (e : ServerEffect) → e.Result → Option Ride
  | .app (.createRide ..), .ok ride => ride
  | .app (.acceptRide ..), ride => ride
  | .app (.completeRide _), ride => ride
  | _, _ => none

/-- What a ride that is answered says has happened to it. -/
def rideEntry (ride : Ride) : Option (Entry Int Int) :=
  match ride.status with
  | .searching => some (.moved ride.id .posted)
  | .accepted => some (.moved ride.id (.assigned ride.driverId))
  | .completed => some (.moved ride.id (.closed ride.driverId))
  | .cancelled => none

/-- The driver a call has answered. -/
def answeredDriver? : (e : ServerEffect) → e.Result → Option Driver
  | .app (.createDriver ..), .ok driver => driver
  | _, _ => none

/-- What an answer says has happened. -/
def logged? (e : ServerEffect) (r : e.Result) : Option (Entry Int Int) :=
  match answeredDriver? e r with
  | some driver => some (.hired driver.id)
  | none => (answeredRide? e r).bind rideEntry

def entriesOf (trace : List ServerCall) : List (Entry Int Int) :=
  trace.filterMap fun x => logged? x.effect x.answer

/-- The board as the answers of the trace tell it. -/
def boardOf (trace : List ServerCall) : Board Int Int :=
  .ofEntries (entriesOf trace)

open Classical in
/-- What a board says to the requests that assign and close rides. -/
noncomputable def decide? (b : Board Int Int) :
    ServerEffect → Option (Entry Int Int)
  | .app (.acceptRide k w) =>
      if b.stage k = some .posted ∧ w ∈ b.workers ∧ b.Free w then
        some (.moved k (.assigned w))
      else none
  | .app (.completeRide k) =>
      match b.stage k with
      | some (.assigned w) => some (.moved k (.closed w))
      | _ => none
  | _ => none

/-- The calls that do. -/
def dispatches : ServerEffect → Bool
  | .app (.acceptRide ..) => true
  | .app (.completeRide _) => true
  | _ => false

/-! ## Runs -/

/-- Calls about drivers and rides go back to a registration. A token is
accepted exactly when it was issued before, and a request whose token is refused
does nothing else. -/
structure Authorized (s : ServerRun) : Prop where
  guarded : ∀ before x after, s.trace = before ++ x :: after →
    Guarded x.effect →
    ∃ request token registration lookup issue check user,
      s.requests[x.thread]? = some request ∧
      request.authHeader = bytes "Bearer " ++ token ∧
      LoggedIn json s.requests token registration lookup issue user ∧
      check.thread = x.thread ∧
      checkedToken? check.effect check.answer = some (token, true) ∧
      List.Sublist [registration, lookup, issue, check] before
  valid : ∀ before x after token valid, s.trace = before ++ x :: after →
    checkedToken? x.effect x.answer = some (token, valid) →
    (valid = true ↔ ∃ issue ∈ before,
      issuedToken? issue.effect issue.answer = some token)
  refused : ∀ x ∈ s.trace, ∀ token,
    checkedToken? x.effect x.answer = some (token, false) →
    Threads.pastOf x.thread s.trace = [⟨x.effect, x.answer⟩]

/-- The answers are a history of the board that the tables stand for: every
ride is posted, assigned and closed in this order and once, by one driver, and
a driver closes a ride before the next. And whether a ride is assigned or
closed is decided by the answers before. -/
structure DispatchedByAnswers (s : ServerRun) : Prop where
  recorded : ∀ before after, s.trace = before ++ after →
    Board.Recorded (entriesOf before) (view (tablesOf before))
  decided : ∀ before x after, s.trace = before ++ x :: after →
    dispatches x.effect = true →
    logged? x.effect x.answer = decide? (boardOf before) x.effect

end TaxiService.Spec
