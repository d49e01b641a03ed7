import TaxiService.Model.DriverStatus

/-!
# The reads of the public interface

The look-ups of `TaxiStorage` that no handler makes, each a statement and the
method that parses its rows.
-/

namespace TaxiService.Model

def kSelectUserById (userId : Int) (db : Db) : List UserRow :=
  db.users.select fun u => decide (u.id = userId)

def kSelectDriverById (driverId : Int) (db : Db) : List DriverRow :=
  db.drivers.select fun d => decide (d.id = driverId)

def kSelectDriverByUserId (userId : Int) (db : Db) : List DriverRow :=
  db.drivers.select fun d => decide (d.userId = userId)

def kSelectActiveDrivers (db : Db) : List DriverRow :=
  (db.drivers.select fun d => d.status == .online)
    |>.insertionSort fun a b => a.id ≤ b.id

/-- A method that parses the first row, if there is one. -/
def firstRow {ρ α : Type} (parse : ρ → α) (rows : List ρ) : Option α :=
  match rows with
  | [] => none
  | row :: _ => some (parse row)

def getUserById (userId : Int) (db : Db) : Option User :=
  firstRow parseUser (kSelectUserById userId db)

def getDriverById (driverId : Int) (db : Db) : Option Driver :=
  firstRow parseDriver (kSelectDriverById driverId db)

def getDriverByUserId (userId : Int) (db : Db) : Option Driver :=
  firstRow parseDriver (kSelectDriverByUserId userId db)

def getActiveDrivers (db : Db) : List Driver :=
  (kSelectActiveDrivers db).map parseDriver

end TaxiService.Model
