import Mathlib.Logic.Function.Basic
import TaxiService.Model.StorageOps

/-!
# `AcceptRide` and `CompleteRide` under READ COMMITTED

The two transactional methods, run concurrently, at the granularity of row
locks. What the server does is documented behaviour of PostgreSQL, not code
of this repository:

* a statement looks for its rows in a snapshot, the committed tables as they
  were when the statement started, and both updates of a `WITH` share it;
* an update of a row first takes the row's lock, waiting while another open
  transaction holds it, and then tests its `WHERE` again on the newest
  committed version of the row;
* locks are kept until the transaction ends, also when that second test
  fails, and new versions become visible to others at `Commit`.

What the methods do with it is theirs: `kAcceptRide` updates the driver
first, and touches the ride only when that update returned a row;
`kCompleteRide` updates the ride first and then the driver the new version of
the ride names; an empty result is rolled back.

A schedule is a list of transaction numbers. A transaction that is scheduled
while the lock it wants is taken waits: the step changes nothing.
-/

namespace TaxiService.Model

open TaxiService.Lib

abbrev TxId := Nat

/-- A call of one of the two methods. `now` is what `NOW()` reads in its
transaction. -/
inductive Call where
  | accept (rideId driverId : Int)
  | complete (rideId : Int) (now : Timestamp)
  deriving DecidableEq, Repr

/-- The call as a storage call of its own. -/
def Call.op : Call → StorageOp
  | .accept rideId driverId => .acceptRide rideId driverId
  | .complete rideId now => .completeRide rideId now

/-- How far a transaction has got. -/
inductive TxState where
  /-- Not begun. -/
  | idle
  /-- `kAcceptRide`, the driver row found in the snapshot, its lock wanted. -/
  | acceptDriver (snapshot : Db)
  /-- `kAcceptRide`, the driver row updated, the ride row found in the
  snapshot, its lock wanted. -/
  | acceptRide (driver : DriverRow)
  /-- `kCompleteRide`, the ride row found in the snapshot, its lock wanted. -/
  | completeRide (snapshot : Db)
  /-- `kCompleteRide`, the ride row updated, the driver row found in the
  snapshot, its lock wanted. -/
  | completeDriver (ride : RideRow)
  /-- The statement returned a row; the new versions are not committed. -/
  | oneRow (driver : Option DriverRow) (ride : RideRow)
  /-- The statement returned no row. -/
  | noRows
  /-- The method has returned. -/
  | returned (res : Option Ride)
  deriving DecidableEq

/-- The committed tables, the row locks and the transactions. -/
structure Server where
  db : Db
  driverLocks : Int → Option TxId
  rideLocks : Int → Option TxId
  tx : TxId → TxState

namespace Server

/-- No transaction has begun. -/
def start (db : Db) : Server :=
  ⟨db, fun _ => none, fun _ => none, fun _ => .idle⟩

def goto (s : Server) (i : TxId) (st : TxState) : Server :=
  { s with tx := Function.update s.tx i st }

def takeDriver (s : Server) (i : TxId) (id : Int) : Server :=
  { s with driverLocks := Function.update s.driverLocks id (some i) }

def takeRide (s : Server) (i : TxId) (id : Int) : Server :=
  { s with rideLocks := Function.update s.rideLocks id (some i) }

/-- Takes the lock of a driver row and goes on, or waits. -/
def lockDriver (s : Server) (i : TxId) (id : Int) (next : Server → Server) :
    Server :=
  if s.driverLocks id = none then next (s.takeDriver i id) else s

/-- Takes the lock of a ride row and goes on, or waits. -/
def lockRide (s : Server) (i : TxId) (id : Int) (next : Server → Server) :
    Server :=
  if s.rideLocks id = none then next (s.takeRide i id) else s

/-- The end of a transaction: its locks are released. -/
def release (s : Server) (i : TxId) (res : Option Ride) : Server where
  db := s.db
  driverLocks k := if s.driverLocks k = some i then none else s.driverLocks k
  rideLocks k := if s.rideLocks k = some i then none else s.rideLocks k
  tx := Function.update s.tx i (.returned res)

/-- The new versions of the rows become the committed ones. -/
def install (s : Server) (driver : Option DriverRow) (ride : RideRow) : Server :=
  { s with
    db := { s.db with
      drivers := match driver with
        | some drv => s.db.drivers.replace drv
        | none => s.db.drivers
      rides := s.db.rides.replace ride } }

end Server

/-- The row a `WHERE id = k AND status = ...` finds. -/
def onlineDriver (db : Db) (k : Int) : Option DriverRow :=
  (db.drivers.find? k).filter fun d => d.status == .online

def rideWith (status : RideStatus) (db : Db) (k : Int) : Option RideRow :=
  (db.rides.find? k).filter fun r => r.status == status

/-- The next step of transaction `i`. -/
def txStep (calls : TxId → Call) (s : Server) (i : TxId) : Server :=
  match calls i, s.tx i with
  | .accept _ driverId, .idle =>
      match onlineDriver s.db driverId with
      | some _ => s.goto i (.acceptDriver s.db)
      | none => s.goto i .noRows
  | .accept rideId driverId, .acceptDriver snapshot =>
      s.lockDriver i driverId fun s =>
        match onlineDriver s.db driverId with
        | some drv =>
            match rideWith .searching snapshot rideId with
            | some _ => s.goto i (.acceptRide drv.setBusy)
            | none => s.goto i .noRows
        | none => s.goto i .noRows
  | .accept rideId driverId, .acceptRide drv =>
      s.lockRide i rideId fun s =>
        match rideWith .searching s.db rideId with
        | some ride => s.goto i (.oneRow (some drv) (ride.setAccepted driverId))
        | none => s.goto i .noRows
  | .complete rideId _, .idle =>
      match rideWith .accepted s.db rideId with
      | some _ => s.goto i (.completeRide s.db)
      | none => s.goto i .noRows
  | .complete rideId now, .completeRide snapshot =>
      s.lockRide i rideId fun s =>
        match rideWith .accepted s.db rideId with
        | some ride =>
            match snapshot.drivers.find? (ride.driverId.getD 0) with
            | some _ => s.goto i (.completeDriver (ride.setCompleted now))
            | none => s.goto i (.oneRow none (ride.setCompleted now))
        | none => s.goto i .noRows
  | .complete _ _, .completeDriver ride =>
      s.lockDriver i (ride.driverId.getD 0) fun s =>
        match s.db.drivers.find? (ride.driverId.getD 0) with
        | some drv => s.goto i (.oneRow (some drv.setOnline) ride)
        | none => s.goto i (.oneRow none ride)
  | _, .oneRow drv ride =>
      (s.install drv ride).release i (some (parseRide ride))
  | _, .noRows => s.release i none
  | _, _ => s

/-- The server after a schedule, from committed tables `db` and with no
transaction open. -/
def concurrent (calls : TxId → Call) (db : Db) (schedule : List TxId) :
    Server := run (txStep calls) (Server.start db) schedule

end TaxiService.Model
