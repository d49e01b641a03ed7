import TaxiService.Model.StorageOps

/-!
# The deployed tables

`docker-compose.yaml` has the database run `schema.sql` and then `data.sql`.
The second file is one transaction with an `INSERT` for each table, whose rows
name their status themselves, where the service's own inserts have it fixed,
and look up the ids of other rows by a unique column. A row that fails ends the
script, and so the value is `none`.
-/

namespace TaxiService.Model

open TaxiService.Lib

/-! ## The rows of `data.sql` -/

structure SeedUser where
  login : String
  password : String
  fullName : String

structure SeedDriver where
  login : String
  carModel : String
  carNumber : String
  licenseNumber : String
  status : DriverStatus

structure SeedRide where
  passenger : String
  car : Option String
  pickupAddress : String
  destinationAddress : String
  status : RideStatus
  /-- `completed_at` is `NOW()`, and not `NULL`. -/
  completed : Bool

def seedUsers : List SeedUser :=
  [⟨"passenger1", "pass123", "Ivan Petrov"⟩,
    ⟨"passenger2", "pass123", "Anna Smirnova"⟩,
    ⟨"passenger3", "pass123", "Elena Ivanova"⟩,
    ⟨"passenger4", "pass123", "Dmitry Sokolov"⟩,
    ⟨"passenger5", "pass123", "Maria Kuznetsova"⟩,
    ⟨"driveruser1", "pass123", "Pavel Popov"⟩,
    ⟨"driveruser2", "pass123", "Olga Lebedeva"⟩,
    ⟨"driveruser3", "pass123", "Sergey Kozlov"⟩,
    ⟨"driveruser4", "pass123", "Natalia Novikova"⟩,
    ⟨"driveruser5", "pass123", "Alexey Morozov"⟩]

def seedDrivers : List SeedDriver :=
  [⟨"driveruser1", "Hyundai Solaris", "A111AA77", "LIC-0001", .online⟩,
    ⟨"driveruser2", "Kia Rio", "B222BB77", "LIC-0002", .online⟩,
    ⟨"driveruser3", "Skoda Octavia", "C333CC77", "LIC-0003", .busy⟩,
    ⟨"driveruser4", "Toyota Camry", "D444DD77", "LIC-0004", .online⟩,
    ⟨"driveruser5", "Volkswagen Polo", "E555EE77", "LIC-0005", .offline⟩,
    ⟨"passenger1", "Lada Vesta", "F666FF77", "LIC-0006", .online⟩,
    ⟨"passenger2", "Renault Logan", "G777GG77", "LIC-0007", .busy⟩,
    ⟨"passenger3", "Ford Focus", "H888HH77", "LIC-0008", .online⟩,
    ⟨"passenger4", "Nissan Almera", "I999II77", "LIC-0009", .online⟩,
    ⟨"passenger5", "Chevrolet Aveo", "J101JJ77", "LIC-0010", .offline⟩]

def seedRides : List SeedRide :=
  [⟨"passenger1", none, "Lenina 10", "Tverskaya 5", .searching, false⟩,
    ⟨"passenger2", some "A111AA77", "Arbat 15", "Mira 20", .accepted, false⟩,
    ⟨"passenger3", some "C333CC77", "Nevsky 1", "Ligovsky 8", .completed,
      true⟩,
    ⟨"passenger4", none, "Pushkina 3", "Sadovaya 17", .searching, false⟩,
    ⟨"passenger5", some "D444DD77", "Prospekt 12", "Center Mall", .accepted,
      false⟩,
    ⟨"passenger1", some "G777GG77", "Airport", "Hotel", .completed, true⟩,
    ⟨"passenger2", none, "Station", "University", .searching, false⟩,
    ⟨"passenger3", some "H888HH77", "Park", "Office", .completed, true⟩,
    ⟨"passenger4", none, "Home", "Cinema", .searching, false⟩,
    ⟨"passenger5", some "I999II77", "Market", "Airport", .completed, true⟩]

/-! ## The statements -/

/-- What an `INSERT` that goes through leaves. -/
def inserted {α : Type} : Except PgError α × Db → Option Db
  | (.ok _, db) => some db
  | (.error _, _) => none

/-- `(SELECT id FROM users WHERE login = ...)`. -/
def userIdOf (db : Db) (login : String) : Option Int :=
  (db.users.rows.find? fun u => u.login == bytes login).map UserRow.id

/-- `(SELECT id FROM drivers WHERE car_number = ...)`. -/
def driverIdOf (db : Db) (carNumber : String) : Option Int :=
  (db.drivers.rows.find? fun d => d.carNumber == bytes carNumber).map
    DriverRow.id

def insertUser (db : Db) (u : SeedUser) : Option Db :=
  inserted (kInsertUser (bytes u.login) (bytes u.password) (bytes u.fullName) db)

def insertDriver (db : Db) (d : SeedDriver) : Option Db := do
  let userId ← userIdOf db d.login
  inserted (insertReturning [] db.driversSeq
    (fun id db => { db with driversSeq := id })
    (fun id db => do
      let carModel ← varchar 100 (bytes d.carModel)
      let carNumber ← varchar 30 (bytes d.carNumber)
      let licenseNumber ← varchar 50 (bytes d.licenseNumber)
      checkNotBlank carModel
      checkNotBlank carNumber
      checkNotBlank licenseNumber
      checkThat (db.drivers.rows.all fun e => e.userId != userId &&
        e.carNumber != carNumber && e.licenseNumber != licenseNumber)
        .uniqueViolation
      let row : DriverRow :=
        ⟨id, userId, carModel, carNumber, licenseNumber, d.status⟩
      let drivers ← insertRow db.drivers row
      checkThat (db.users.find? userId).isSome .foreignKeyViolation
      pure (row, { db with drivers })) db)

/-- A sub-select that finds nothing yields `NULL`, which `driver_id` may be and
`passenger_id` may not. -/
def insertRide (now : Timestamp) (db : Db) (r : SeedRide) : Option Db := do
  let passengerId ← userIdOf db r.passenger
  let driverId := r.car.bind (driverIdOf db)
  inserted (insertReturning [] db.ridesSeq
    (fun id db => { db with ridesSeq := id })
    (fun id db => do
      let pickupAddress ← varchar 255 (bytes r.pickupAddress)
      let destinationAddress ← varchar 255 (bytes r.destinationAddress)
      checkNotBlank pickupAddress
      checkNotBlank destinationAddress
      let row : RideRow := ⟨id, passengerId, driverId, pickupAddress,
        destinationAddress, r.status, now,
        if r.completed then some now else none⟩
      let rides ← insertRow db.rides row
      checkThat (db.users.find? passengerId).isSome .foreignKeyViolation
      checkThat (driverId.all fun k => (db.drivers.find? k).isSome)
        .foreignKeyViolation
      pure (row, { db with rides })) db)

/-- The transaction of `data.sql`, which begins at this reading of `NOW()`. -/
def dataSql (now : Timestamp) (db : Db) : Option Db := do
  let db ← seedUsers.foldlM insertUser db
  let db ← seedDrivers.foldlM insertDriver db
  seedRides.foldlM (insertRide now) db

/-- The tables the deployment starts with. -/
def deployed (now : Timestamp) : Option Db := dataSql now .empty

end TaxiService.Model
