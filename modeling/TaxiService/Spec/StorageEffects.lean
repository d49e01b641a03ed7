import TaxiService.Model.Storage

/-!
# What the two transactions may do

The effect of `AcceptRide` and of `CompleteRide` in full: when a ride comes
back, which rows are different then and how, and that otherwise nothing is.
The rows are compared table by table, so the frame is part of each equation.
-/

namespace TaxiService.Spec

open TaxiService.Lib TaxiService.Model

/-- The identity columns start at one. -/
structure PositiveIds (db : Db) : Prop where
  users : ∀ row ∈ db.users.rows, 1 ≤ row.id
  drivers : ∀ row ∈ db.drivers.rows, 1 ≤ row.id
  rides : ∀ row ∈ db.rides.rows, 1 ≤ row.id

/-- Nothing but the rows of rides and of drivers is different, and these are so
as the two functions say. -/
structure Rewrites (db db' : Db) (ride : RideRow → RideRow)
    (driver : DriverRow → DriverRow) : Prop where
  rest : db' = { db with rides := db'.rides, drivers := db'.drivers }
  rides : db'.rides.rows = db.rides.rows.map ride
  drivers : db'.drivers.rows = db.drivers.rows.map driver

/-- `AcceptRide(ride_id, driver_id)`. -/
structure AcceptEffect (db : Db) (rideId driverId : Int) : Prop where
  returns : (acceptRide rideId driverId db).1.isSome = true ↔
    (∃ ride ∈ db.rides.rows, ride.id = rideId ∧ ride.status = .searching) ∧
    ∃ driver ∈ db.drivers.rows, driver.id = driverId ∧ driver.status = .online
  changes : ∀ ride, (acceptRide rideId driverId db).1 = some ride →
    Rewrites db (acceptRide rideId driverId db).2
      (fun row => if row.id = rideId then
        { row with driverId := some driverId, status := .accepted } else row)
      (fun row => if row.id = driverId then { row with status := .busy }
        else row) ∧
    ∃ row ∈ (acceptRide rideId driverId db).2.rides.rows,
      row.id = rideId ∧ ride = parseRide row
  otherwise : (acceptRide rideId driverId db).1 = none →
    (acceptRide rideId driverId db).2 = db

/-- `CompleteRide(ride_id)`, at a reading of `NOW()`. -/
structure CompleteEffect (db : Db) (rideId : Int) (now : Timestamp) :
    Prop where
  returns : (completeRide rideId now db).1.isSome = true ↔
    ∃ ride ∈ db.rides.rows, ride.id = rideId ∧ ride.status = .accepted
  changes : ∀ ride, (completeRide rideId now db).1 = some ride →
    ∃ before ∈ db.rides.rows, before.id = rideId ∧
    Rewrites db (completeRide rideId now db).2
      (fun row => if row.id = rideId then
        { row with status := .completed, completedAt := some now } else row)
      (fun row => if before.driverId = some row.id then
        { row with status := .online } else row) ∧
    ∃ row ∈ (completeRide rideId now db).2.rides.rows,
      row.id = rideId ∧ ride = parseRide row
  otherwise : (completeRide rideId now db).1 = none →
    (completeRide rideId now db).2 = db

end TaxiService.Spec
