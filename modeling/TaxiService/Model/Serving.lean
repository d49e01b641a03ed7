import TaxiService.Lib.Serial
import TaxiService.Model.Handlers

/-!
# The service

What the calls of a handler do. The database and the rate limiter are the
`Backend`; the `App` has the response cache in front of it. `callBackend` is
the service with the cache removed: a lookup is a miss, and writing or
invalidating does nothing.

A request comes with the clock readings taken while it is handled, one for
each clock call a handler can make. Nothing is assumed of them here.
-/

namespace TaxiService.Model

open TaxiService.Lib

structure Backend where
  db : Db
  limiter : FixedWindowRateLimiter
  deriving DecidableEq

structure App where
  backend : Backend
  cache : ResponseCache
  deriving DecidableEq

/-- The clock readings of `Check`, of `Get`, of `Set` and of `NOW()`. -/
structure Readings where
  check : Ticks
  get : Ticks
  set : Ticks
  now : Timestamp
  deriving DecidableEq, Repr

variable (lower : StdString → StdString)

/-- The calls with the response cache removed. -/
def callBackend (clocks : Readings) : (e : Effect) → Backend → e.Result × Backend
  | .check key limit window, b =>
      let (result, limiter) := b.limiter.check key limit window clocks.check
      (result, { b with limiter })
  | .cacheGet _, b => (none, b)
  | .cacheSet .., b => ((), b)
  | .invalidatePrefix _, b => ((), b)
  | .createUser login password fullName, b =>
      let (user, db) := createUser login password fullName b.db
      (user, { b with db })
  | .createDriver userId carModel carNumber licenseNumber, b =>
      let (driver, db) :=
        createDriver userId carModel carNumber licenseNumber b.db
      (driver, { b with db })
  | .createRide passengerId pickupAddress destinationAddress, b =>
      let (ride, db) :=
        createRide passengerId pickupAddress destinationAddress clocks.now b.db
      (ride, { b with db })
  | .acceptRide rideId driverId, b =>
      let (ride, db) := acceptRide rideId driverId b.db
      (ride, { b with db })
  | .completeRide rideId, b =>
      let (ride, db) := completeRide rideId clocks.now b.db
      (ride, { b with db })
  | .getUserByLogin login, b => (getUserByLogin login b.db, b)
  | .findUsersByNameMask nameMask, b =>
      (findUsersByNameMask lower nameMask b.db, b)
  | .getRidesByUserId userId, b => (getRidesByUserId userId b.db, b)
  | .getActiveRides, b => (getActiveRides b.db, b)

/-- The calls of the deployed service. -/
def callApp (clocks : Readings) : (e : Effect) → App → e.Result × App
  | .cacheGet key, a =>
      let (value, cache) := a.cache.get key clocks.get
      (value, { a with cache })
  | .cacheSet key value ttl, a =>
      ((), { a with cache := a.cache.set key value ttl clocks.set })
  | .invalidatePrefix pre, a =>
      ((), { a with cache := a.cache.invalidatePrefix pre })
  | e, a =>
      let (result, backend) := callBackend lower clocks e a.backend
      (result, { a with backend })

/-- What a request ends in: a response, or an exception that leaves the
handler. -/
abbrev Outcome := Except Exn Response

/-- The status code and the body, or the exception the server makes them
from. -/
def Outcome.answer (out : Outcome) : Except Exn (HttpStatus × StdString) :=
  out.map fun response => (response.status, response.body)

variable (json : UserverJson)

def serve (a : App) (arrival : Request × Readings) : Outcome × App :=
  (handle json arrival.1).run (callApp lower arrival.2) a

/-- `serve` with the response cache removed. -/
def serveUncached (b : Backend) (arrival : Request × Readings) :
    Outcome × Backend :=
  (handle json arrival.1).run (callBackend lower arrival.2) b

end TaxiService.Model
