import TaxiService.Model.StorageReads

/-!
# The tables as their callers know them

What the writes have answered, call by call, is all that the reads can tell. A
user is as they were when they were created. A driver has the status of the
last answer that names them, be it a ride's or their own. A ride is as it was
last answered. `Shown` compares every look-up of the public interface with this
reading of the answers, without the tables.
-/

namespace TaxiService.Spec

open TaxiService.Lib TaxiService.Model

/-! ## Answers -/

/-- What a call of the public interface answers, when it has done something. -/
inductive Answer where
  | user (user : User)
  | driver (driver : Driver)
  | ride (ride : Ride)
  | status (driver : Driver)
  deriving DecidableEq, Repr

/-- The entity of an answer, if there is one. -/
def entity? {α : Type} : Except PgError (Option α) → Option α
  | .ok a => a
  | .error _ => none

def answer? (db : Db) : Mutation → Option Answer
  | .call (.createUser login password fullName) =>
      (entity? (createUser login password fullName db).1).map .user
  | .call (.createDriver userId carModel carNumber licenseNumber) =>
      (entity? (createDriver userId carModel carNumber licenseNumber db).1).map
        .driver
  | .call (.createRide passengerId pickupAddress destinationAddress now) =>
      (entity? (createRide passengerId pickupAddress destinationAddress now
        db).1).map .ride
  | .call (.acceptRide rideId driverId) =>
      (acceptRide rideId driverId db).1.map .ride
  | .call (.completeRide rideId now) => (completeRide rideId now db).1.map .ride
  | .updateDriverStatus driverId status =>
      (entity? (updateDriverStatus driverId status db).1).map .status

/-- The answers of a run, in their order. -/
def answersOf (db : Db) : List Mutation → List Answer
  | [] => []
  | m :: calls => (answer? db m).toList ++ answersOf (m.apply db) calls

/-! ## What they tell -/

def user? : Answer → Option User
  | .user user => some user
  | _ => none

def driver? : Answer → Option Driver
  | .driver driver => some driver
  | _ => none

def ride? : Answer → Option Ride
  | .ride ride => some ride
  | _ => none

/-- The status an answer gives a driver. A ride that is accepted makes its
driver busy, and one that is completed makes them online. -/
def status? (driverId : Int) : Answer → Option DriverStatus
  | .status driver => if driver.id = driverId then some driver.status else none
  | .ride ride =>
      if ride.driverId = driverId then
        match ride.status with
        | .accepted => some .busy
        | .completed => some .online
        | _ => none
      else none
  | _ => none

def usersTold (answers : List Answer) : List User := answers.filterMap user?

/-- The drivers after one more answer. -/
def tellDrivers (drivers : List Driver) (answer : Answer) : List Driver :=
  (drivers.map fun d => { d with
    status := (status? d.id answer).getD d.status }) ++ (driver? answer).toList

def driversTold (answers : List Answer) : List Driver :=
  answers.foldl tellDrivers []

/-- What was answered of one ride. -/
def rideTold (rideId : Int) (answers : List Answer) : List Ride :=
  (answers.filterMap ride?).filter fun ride => decide (ride.id = rideId)

/-- The look-ups show what the answers tell. -/
structure Shown (answers : List Answer) (db : Db) : Prop where
  userById : ∀ userId, getUserById userId db =
    (usersTold answers).find? fun u => decide (u.id = userId)
  userByLogin : ∀ login, bindText login = .ok () → getUserByLogin login db =
    .ok ((usersTold answers).find? fun u => u.login == login)
  driverById : ∀ driverId, getDriverById driverId db =
    (driversTold answers).find? fun d => decide (d.id = driverId)
  driverByUserId : ∀ userId, getDriverByUserId userId db =
    (driversTold answers).find? fun d => decide (d.userId = userId)
  activeDrivers : getActiveDrivers db =
    (driversTold answers).filter fun d => d.status == .online
  rideById : ∀ rideId, getRideById rideId db =
    (rideTold rideId answers).getLast?
  users : ((usersTold answers).map User.id).Nodup ∧
    ((usersTold answers).map User.login).Nodup
  drivers : ((driversTold answers).map Driver.id).Pairwise (· < ·) ∧
    ((driversTold answers).map Driver.userId).Nodup

end TaxiService.Spec
