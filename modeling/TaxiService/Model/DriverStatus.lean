import TaxiService.Model.StorageOps

/-!
# `UpdateDriverStatus`

The one mutating method of `TaxiStorage` that no handler calls. Its statement
writes whatever text it is given, so the column's type and its `CHECK` decide
what can be stored. `Mutation` is the whole public interface, a call of it or
one of the calls the handlers make.
-/

namespace TaxiService.Model

open TaxiService.Lib

/-- `CHECK (status IN ('online', 'busy', 'offline'))`. -/
def checkDriverStatus (s : StdString) : Except PgError DriverStatus :=
  if s == bytes "online" then .ok .online
  else if s == bytes "busy" then .ok .busy
  else if s == bytes "offline" then .ok .offline
  else .error .checkViolation

/-- The assignment of `kUpdateDriverStatus`. -/
def DriverRow.setStatus (status : DriverStatus) (row : DriverRow) : DriverRow :=
  { row with status }

@[simp] theorem DriverRow.setStatus_id (status : DriverStatus)
    (row : DriverRow) : (row.setStatus status).id = row.id := rfl

/-- The text is converted and checked for the row it is written to, so a call
for an id that is not there goes through with any text. -/
def kUpdateDriverStatus (driverId : Int) (status : StdString) (db : Db) :
    Except PgError (List DriverRow × Db) := do
  bindText status
  let driverMatches : DriverRow → Bool := fun d => decide (d.id = driverId)
  let updated := db.drivers.select driverMatches
  if updated.isEmpty then return ([], db)
  let status ← checkDriverStatus (← varchar 20 status)
  return (updated.map (DriverRow.setStatus status),
    { db with
      drivers := db.drivers.update driverMatches (DriverRow.setStatus status)
        (DriverRow.setStatus_id status) })

def updateDriverStatus (driverId : Int) (status : StdString) (db : Db) :
    Except PgError (Option Driver) × Db :=
  match kUpdateDriverStatus driverId status db with
  | .error e => (.error e, db)
  | .ok ([], db') => (.ok none, db')
  | .ok (row :: _, db') => (.ok (some (parseDriver row)), db')

/-- The mutating calls of the public interface. -/
inductive Mutation where
  | call (op : StorageOp)
  | updateDriverStatus (driverId : Int) (status : StdString)
  deriving DecidableEq, Repr

def Mutation.apply (db : Db) : Mutation → Db
  | .call op => op.apply db
  | .updateDriverStatus driverId status =>
      (Model.updateDriverStatus driverId status db).2

end TaxiService.Model
