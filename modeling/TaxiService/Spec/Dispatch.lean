import TaxiService.Lib.Assignment
import TaxiService.Model.StorageOps

/-!
# What the ride tables are for

The service assigns rides to drivers, and the board of `Lib.Assignment` is
that purpose with nothing else: a ride is posted, taken by a free driver and
closed. `view` reads the board off the two tables. It reads `rides` alone
for the stages; `drivers.status` does not occur in it, because on the board
a driver is free exactly when no ride is assigned to it.

`Dispatched` is what ties the tables to the board. Its first clauses say that
a ride row is one of the three shapes a stage has, with `driver_id` and
`completed_at` set when they should be, and its middle ones that
`drivers.status`, the redundant record of who is free, agrees with the board.
-/

namespace TaxiService.Spec

open TaxiService.Lib TaxiService.Model

/-- The stage a ride row stands for. The other combinations of the three
columns stand for none. -/
def stage (row : RideRow) : Option (Stage Int) :=
  match row.status, row.driverId, row.completedAt with
  | .searching, none, none => some .posted
  | .accepted, some d, none => some (.assigned d)
  | .completed, some d, some _ => some (.closed d)
  | _, _, _ => none

/-- The board the tables stand for. -/
def view (db : Db) : Board Int Int where
  stage k := (db.rides.find? k).bind stage
  workers := {k | (db.drivers.find? k).isSome}

/-- The tables record the board. -/
structure Dispatched (db : Db) : Prop where
  shaped : ∀ {k row}, db.rides.find? k = some row → (stage row).isSome
  known : ∀ {k drv}, db.drivers.find? k = some drv →
    drv.status = .busy ∨ drv.status = .online
  busy : ∀ {k drv}, db.drivers.find? k = some drv →
    (drv.status = .busy ↔ ¬ (view db).Free k)
  positive : ∀ {k drv}, db.drivers.find? k = some drv → 0 < k
  exclusive : (view db).Exclusive
  staffed : (view db).Staffed

end TaxiService.Spec
