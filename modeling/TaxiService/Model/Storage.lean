import Mathlib.Data.List.Sort
import TaxiService.Model.Schema

/-!
# `TaxiStorage`

The SQL statements of `taxi_storage.cpp` and the methods that run them. A
statement takes the database to the rows it returns and the database it
leaves; a method catches what its source catches and commits or rolls back
where its source does.

The statement of `kAcceptRide` and of `kCompleteRide` is one `WITH` with two
updates. Both see the tables as they were when the statement started, and the
second one also sees the rows the first one returned. That the tables it
leaves are thrown away by `Rollback` when no row came back is the method's
business, not the statement's.

`lower(...)` depends on the collation of the deployed database, so it is a
parameter of the one read that uses it.
-/

namespace TaxiService.Model

open TaxiService.Lib

/-! ## The model structs and the row parsers -/

structure User where
  id : Int
  login : StdString
  password : StdString
  fullName : StdString
  deriving DecidableEq, Repr

structure Driver where
  id : Int
  userId : Int
  carModel : StdString
  carNumber : StdString
  licenseNumber : StdString
  status : DriverStatus
  deriving DecidableEq, Repr

structure Ride where
  id : Int
  passengerId : Int
  driverId : Int
  pickupAddress : StdString
  destinationAddress : StdString
  status : RideStatus
  deriving DecidableEq, Repr

def parseUser (row : UserRow) : User :=
  ⟨row.id, row.login, row.password, row.fullName⟩

def parseDriver (row : DriverRow) : Driver :=
  ⟨row.id, row.userId, row.carModel, row.carNumber, row.licenseNumber,
    row.status⟩

/-- Every ride query returns `COALESCE(driver_id, 0) AS driver_id`. -/
def parseRide (row : RideRow) : Ride :=
  ⟨row.id, row.passengerId, row.driverId.getD 0, row.pickupAddress,
    row.destinationAddress, row.status⟩

/-! ## Inserts -/

/-- `INSERT ... RETURNING`: the parameters are read, the identity column
takes its next value, and then the row is built and checked. A failed check
leaves the tables alone but keeps the sequence value. -/
def insertReturning {ρ : Type} (texts : List StdString) (seq : Nat)
    (bump : Nat → Db → Db) (build : Int → Db → Except PgError (ρ × Db))
    (db : Db) : Except PgError (List ρ) × Db :=
  match bindTexts texts with
  | .error e => (.error e, db)
  | .ok () =>
      match nextval seq with
      | .error e => (.error e, db)
      | .ok id =>
          match build id (bump id db) with
          | .error e => (.error e, bump id db)
          | .ok (row, db') => (.ok [row], db')

def kInsertUser (login password fullName : StdString) (db : Db) :
    Except PgError (List UserRow) × Db :=
  insertReturning [login, password, fullName] db.usersSeq
    (fun id db => { db with usersSeq := id })
    (fun id db => do
      let login ← varchar 100 login
      let password ← varchar 255 password
      let fullName ← varchar 255 fullName
      checkNotBlank login
      checkNotBlank password
      checkNotBlank fullName
      checkThat (db.users.rows.all fun u => u.login != login) .uniqueViolation
      let row : UserRow := ⟨id, login, password, fullName⟩
      let users ← insertRow db.users row
      pure (row, { db with users })) db

def kInsertDriver (userId : Int) (carModel carNumber licenseNumber : StdString)
    (db : Db) : Except PgError (List DriverRow) × Db :=
  insertReturning [carModel, carNumber, licenseNumber] db.driversSeq
    (fun id db => { db with driversSeq := id })
    (fun id db => do
      let carModel ← varchar 100 carModel
      let carNumber ← varchar 30 carNumber
      let licenseNumber ← varchar 50 licenseNumber
      checkNotBlank carModel
      checkNotBlank carNumber
      checkNotBlank licenseNumber
      checkThat (db.drivers.rows.all fun d => d.userId != userId &&
        d.carNumber != carNumber && d.licenseNumber != licenseNumber)
        .uniqueViolation
      let row : DriverRow :=
        ⟨id, userId, carModel, carNumber, licenseNumber, .online⟩
      let drivers ← insertRow db.drivers row
      checkThat (db.users.find? userId).isSome .foreignKeyViolation
      pure (row, { db with drivers })) db

def kInsertRide (passengerId : Int)
    (pickupAddress destinationAddress : StdString) (now : Timestamp) (db : Db) :
    Except PgError (List RideRow) × Db :=
  insertReturning [pickupAddress, destinationAddress] db.ridesSeq
    (fun id db => { db with ridesSeq := id })
    (fun id db => do
      let pickupAddress ← varchar 255 pickupAddress
      let destinationAddress ← varchar 255 destinationAddress
      checkNotBlank pickupAddress
      checkNotBlank destinationAddress
      let row : RideRow := ⟨id, passengerId, none, pickupAddress,
        destinationAddress, .searching, now, none⟩
      let rides ← insertRow db.rides row
      checkThat (db.users.find? passengerId).isSome .foreignKeyViolation
      pure (row, { db with rides })) db

/-! ## Updates -/

/-- The assignment of the `updated_driver` part of `kAcceptRide`. -/
def DriverRow.setBusy (row : DriverRow) : DriverRow :=
  { row with status := .busy }

/-- The assignment of the `updated_driver` part of `kCompleteRide`. -/
def DriverRow.setOnline (row : DriverRow) : DriverRow :=
  { row with status := .online }

/-- The assignment of the `updated_ride` part of `kAcceptRide`. -/
def RideRow.setAccepted (driverId : Int) (row : RideRow) : RideRow :=
  { row with driverId := some driverId, status := .accepted }

/-- The assignment of the `updated_ride` part of `kCompleteRide`. -/
def RideRow.setCompleted (now : Timestamp) (row : RideRow) : RideRow :=
  { row with status := .completed, completedAt := some now }

@[simp] theorem DriverRow.setBusy_id (row : DriverRow) :
    row.setBusy.id = row.id := rfl

@[simp] theorem DriverRow.setOnline_id (row : DriverRow) :
    row.setOnline.id = row.id := rfl

@[simp] theorem RideRow.setAccepted_id (driverId : Int) (row : RideRow) :
    (row.setAccepted driverId).id = row.id := rfl

@[simp] theorem RideRow.setCompleted_id (now : Timestamp) (row : RideRow) :
    (row.setCompleted now).id = row.id := rfl

def kAcceptRide (rideId driverId : Int) (db : Db) : List RideRow × Db :=
  let driverMatches : DriverRow → Bool := fun d =>
    decide (d.id = driverId) && d.status == .online
  let updatedDriver := db.drivers.select driverMatches
  let rideMatches : RideRow → Bool := fun r =>
    decide (r.id = rideId) && (r.status == .searching &&
      !updatedDriver.isEmpty)
  let updatedRide :=
    (db.rides.select rideMatches).map (RideRow.setAccepted driverId)
  (updatedRide,
    { db with
      drivers := db.drivers.update driverMatches DriverRow.setBusy
        DriverRow.setBusy_id
      rides := db.rides.update rideMatches (RideRow.setAccepted driverId)
        (RideRow.setAccepted_id driverId) })

/-- `WHERE id = (SELECT driver_id FROM updated_ride)` compares with the one
row's `COALESCE(driver_id, 0)`, and with `NULL` when there is no row. -/
def kCompleteRide (rideId : Int) (now : Timestamp) (db : Db) :
    List RideRow × Db :=
  let rideMatches : RideRow → Bool := fun r =>
    decide (r.id = rideId) && r.status == .accepted
  let updatedRide :=
    (db.rides.select rideMatches).map (RideRow.setCompleted now)
  let driverMatches : DriverRow → Bool := fun d =>
    match updatedRide with
    | [] => false
    | r :: _ => decide (d.id = r.driverId.getD 0)
  (updatedRide,
    { db with
      rides := db.rides.update rideMatches (RideRow.setCompleted now)
        (RideRow.setCompleted_id now)
      drivers := db.drivers.update driverMatches DriverRow.setOnline
        DriverRow.setOnline_id })

/-! ## Reads -/

def kSelectUserByLogin (login : StdString) (db : Db) :
    Except PgError (List UserRow) := do
  bindText login
  pure (db.users.select fun u => u.login == login)

/-- `LIKE` over code points, with its wildcards `%` and `_` and the escape
character `\`. -/
def like : List Nat → List Nat → Except PgError Bool
  | [], t => .ok t.isEmpty
  | 37 :: p, t => t.tails.foldr
      (fun s rest => do if ← like p s then pure true else rest) (.ok false)
  | 95 :: p, t => match t with
      | [] => .ok false
      | _ :: t => like p t
  | [92], t => if t.isEmpty then .ok false else .error .invalidLikePattern
  | 92 :: c :: p, t => match t with
      | [] => .ok false
      | x :: t => if x = c then like p t else .ok false
  | c :: p, t => match t with
      | [] => .ok false
      | x :: t => if x = c then like p t else .ok false

def kFindUsersByMask (lower : StdString → StdString) (nameMask : StdString)
    (db : Db) : Except PgError (List UserRow) := do
  bindText nameMask
  let pattern := bytes "%" ++ lower nameMask ++ bytes "%"
  let matching ← db.users.rows.filterM fun u =>
    like ((decodeUtf8 pattern).getD [])
      ((decodeUtf8 (lower u.fullName)).getD [])
  pure (matching.insertionSort fun a b => a.id ≤ b.id)

def kSelectRideById (rideId : Int) (db : Db) : List RideRow :=
  db.rides.select fun r => decide (r.id = rideId)

/-- `ORDER BY created_at DESC, id DESC`. -/
def newerFirst (a b : RideRow) : Prop :=
  b.createdAt < a.createdAt ∨ (a.createdAt = b.createdAt ∧ b.id ≤ a.id)

instance : DecidableRel newerFirst := fun _ _ =>
  inferInstanceAs (Decidable (_ ∨ _))

def kSelectRidesByUserId (userId : Int) (db : Db) : List RideRow :=
  (db.rides.select fun r => decide (r.passengerId = userId)).insertionSort
    newerFirst

def kSelectActiveRides (db : Db) : List RideRow :=
  (db.rides.select fun r => r.status == .searching || r.status == .accepted)
    |>.insertionSort fun a b => a.id ≤ b.id

/-! ## The methods -/

/-- A method that inserts one row and turns the violations it catches into
`std::nullopt`. -/
def insertMethod {ρ α : Type} (caught : List PgError) (parse : ρ → α) :
    Except PgError (List ρ) × Db → Except PgError (Option α) × Db
  | (.ok [], db) => (.ok none, db)
  | (.ok (row :: _), db) => (.ok (some (parse row)), db)
  | (.error e, db) => (if caught.contains e then .ok none else .error e, db)

def createUser (login password fullName : StdString) (db : Db) :
    Except PgError (Option User) × Db :=
  insertMethod [.uniqueViolation] parseUser
    (kInsertUser login password fullName db)

def createDriver (userId : Int) (carModel carNumber licenseNumber : StdString)
    (db : Db) : Except PgError (Option Driver) × Db :=
  insertMethod [.uniqueViolation, .foreignKeyViolation] parseDriver
    (kInsertDriver userId carModel carNumber licenseNumber db)

def createRide (passengerId : Int)
    (pickupAddress destinationAddress : StdString) (now : Timestamp) (db : Db) :
    Except PgError (Option Ride) × Db :=
  insertMethod [.foreignKeyViolation] parseRide
    (kInsertRide passengerId pickupAddress destinationAddress now db)

/-- The end of both transactional methods: no row is a rollback to the tables
the transaction began with, a row is parsed and committed. -/
def finish (before : Db) : List RideRow × Db → Option Ride × Db
  | ([], _) => (none, before)
  | (row :: _, after) => (some (parseRide row), after)

def acceptRide (rideId driverId : Int) (db : Db) : Option Ride × Db :=
  finish db (kAcceptRide rideId driverId db)

def completeRide (rideId : Int) (now : Timestamp) (db : Db) :
    Option Ride × Db :=
  finish db (kCompleteRide rideId now db)

def getUserByLogin (login : StdString) (db : Db) :
    Except PgError (Option User) := do
  match ← kSelectUserByLogin login db with
  | [] => pure none
  | row :: _ => pure (some (parseUser row))

def findUsersByNameMask (lower : StdString → StdString) (nameMask : StdString)
    (db : Db) : Except PgError (List User) := do
  pure ((← kFindUsersByMask lower nameMask db).map parseUser)

def getRideById (rideId : Int) (db : Db) : Option Ride :=
  match kSelectRideById rideId db with
  | [] => none
  | row :: _ => some (parseRide row)

def getRidesByUserId (userId : Int) (db : Db) : List Ride :=
  (kSelectRidesByUserId userId db).map parseRide

def getActiveRides (db : Db) : List Ride :=
  (kSelectActiveRides db).map parseRide

end TaxiService.Model
