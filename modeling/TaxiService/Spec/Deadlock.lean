import TaxiService.Lib.Waiting
import TaxiService.Model.RowLocks

/-!
# Who waits for whom

`kAcceptRide` locks a driver and then a ride, `kCompleteRide` a ride and then
a driver. A transaction waits for another one when the lock it wants next is
the other's. Nothing is said about the drivers and the rides themselves:
which of the two statements can meet at which row is what the proofs are for.
-/

namespace TaxiService.Spec

open TaxiService.Lib TaxiService.Model

/-- A row that can be locked. -/
inductive RowLock where
  | driver (id : Int)
  | ride (id : Int)
  deriving DecidableEq, Repr

/-- The transaction that holds the lock of a row. -/
def holder (s : Server) : RowLock → Option TxId
  | .driver id => s.driverLocks id
  | .ride id => s.rideLocks id

/-- The lock a transaction wants next. -/
def wants : Call → TxState → Option RowLock
  | .accept _ driverId, .acceptDriver _ => some (.driver driverId)
  | .accept rideId _, .acceptRide _ => some (.ride rideId)
  | .complete rideId _, .completeRide _ => some (.ride rideId)
  | .complete _ _, .completeDriver ride =>
      some (.driver (ride.driverId.getD 0))
  | _, _ => none

/-- Transaction `i` waits for a row that transaction `j` has locked. -/
def WaitsFor (calls : TxId → Call) (s : Server) (i j : TxId) : Prop :=
  ∃ row, wants (calls i) (s.tx i) = some row ∧ holder s row = some j

end TaxiService.Spec
