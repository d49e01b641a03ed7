import TaxiService.Lib.Run
import TaxiService.Model.Storage

/-!
# Runs of storage calls

The mutating calls an HTTP handler can make, as data, so that a run is a
list of them. A call reads `NOW()` when it needs it, and that reading is
part of the call: no result here depends on how the readings of different
calls compare.
-/

namespace TaxiService.Model

open TaxiService.Lib

/-- The mutating storage calls the HTTP handlers can reach. -/
inductive StorageOp where
  | createUser (login password fullName : StdString)
  | createDriver (userId : Int) (carModel carNumber licenseNumber : StdString)
  | createRide (passengerId : Int)
      (pickupAddress destinationAddress : StdString) (now : Timestamp)
  | acceptRide (rideId driverId : Int)
  | completeRide (rideId : Int) (now : Timestamp)
  deriving DecidableEq, Repr

/-- The ride a call answers with, when it answers with one. -/
def rideOf : Except PgError (Option Ride) → Option Ride
  | .ok ride => ride
  | .error _ => none

/-- A call: the ride it returns, if any, and the database after it. -/
def StorageOp.exec (db : Db) : StorageOp → Option Ride × Db
  | .createUser login password fullName =>
      (none, (Model.createUser login password fullName db).2)
  | .createDriver userId carModel carNumber licenseNumber =>
      (none,
        (Model.createDriver userId carModel carNumber licenseNumber db).2)
  | .createRide passengerId pickup destination now =>
      let res := Model.createRide passengerId pickup destination now db
      (rideOf res.1, res.2)
  | .acceptRide rideId driverId => Model.acceptRide rideId driverId db
  | .completeRide rideId now => Model.completeRide rideId now db

def StorageOp.apply (db : Db) (op : StorageOp) : Db := (op.exec db).2

/-- The state after a list of calls on the empty tables of `schema.sql`. -/
def reach (ops : List StorageOp) : Db := run StorageOp.apply Db.empty ops

end TaxiService.Model
