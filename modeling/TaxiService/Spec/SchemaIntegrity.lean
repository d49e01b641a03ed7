import TaxiService.Lib.Constraints
import TaxiService.Model.DriverStatus

/-!
# What `schema.sql` says of the tables

Every constraint of the schema as a property of the whole database. The model
checks them where a row is inserted; a rewritten row is not checked again, and
the rows an `UPDATE` writes have to be right by themselves.

The `CHECK` on the two `status` columns is in their types.
-/

namespace TaxiService.Spec

open TaxiService.Lib TaxiService.Model

/-- A value of a column `VARCHAR(n) NOT NULL` that may not be blank. -/
structure ColumnText (n : Nat) (s : StdString) : Prop where
  text : bindText s = .ok ()
  length : charLength s ≤ n
  notBlank : checkNotBlank s = .ok ()

/-- The largest value of an `INTEGER`. -/
def maxInteger : Nat := 2147483647

structure SchemaHolds (db : Db) : Prop where
  usersId : db.users.Identity db.usersSeq maxInteger
  usersLogin : db.users.Unique UserRow.login
  usersText : db.users.Each fun u => ColumnText 100 u.login ∧
    ColumnText 255 u.password ∧ ColumnText 255 u.fullName
  driversId : db.drivers.Identity db.driversSeq maxInteger
  driversUserId : db.drivers.Unique DriverRow.userId
  driversCarNumber : db.drivers.Unique DriverRow.carNumber
  driversLicenseNumber : db.drivers.Unique DriverRow.licenseNumber
  driversText : db.drivers.Each fun d => ColumnText 100 d.carModel ∧
    ColumnText 30 d.carNumber ∧ ColumnText 50 d.licenseNumber
  fkDriversUser : db.drivers.References (fun d => some d.userId) db.users
  ridesId : db.rides.Identity db.ridesSeq maxInteger
  ridesText : db.rides.Each fun r => ColumnText 255 r.pickupAddress ∧
    ColumnText 255 r.destinationAddress
  fkRidesPassenger : db.rides.References (fun r => some r.passengerId) db.users
  fkRidesDriver : db.rides.References RideRow.driverId db.drivers

end TaxiService.Spec
