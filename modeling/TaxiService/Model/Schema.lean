import TaxiService.Lib.Table
import TaxiService.Lib.Utf8
import TaxiService.Model.StdString

/-!
# The PostgreSQL schema

The three tables of `schema.sql` with their identity columns, and what an
`INSERT` checks on its way in: the text parameters are UTF-8 without a zero
byte, the identity sequence still has a value, every `VARCHAR(n)` fits, no
`CHECK` fails, no `UNIQUE` column repeats and every foreign key has its row.
The primary keys are part of the `Table` type.

The `status` columns are enumerations here, the values their `CHECK`
constraints admit. `users.created_at` is left out: nothing reads it.
-/

namespace TaxiService.Model

open TaxiService.Lib

/-- A reading of `NOW()`. -/
abbrev Timestamp := Int

inductive DriverStatus where
  | online
  | busy
  | offline
  deriving DecidableEq, Repr

inductive RideStatus where
  | searching
  | accepted
  | completed
  | cancelled
  deriving DecidableEq, Repr

def DriverStatus.text : DriverStatus → StdString
  | .online => bytes "online"
  | .busy => bytes "busy"
  | .offline => bytes "offline"

def RideStatus.text : RideStatus → StdString
  | .searching => bytes "searching"
  | .accepted => bytes "accepted"
  | .completed => bytes "completed"
  | .cancelled => bytes "cancelled"

structure UserRow where
  id : Int
  login : StdString
  password : StdString
  fullName : StdString
  deriving DecidableEq, Repr

structure DriverRow where
  id : Int
  userId : Int
  carModel : StdString
  carNumber : StdString
  licenseNumber : StdString
  status : DriverStatus
  deriving DecidableEq, Repr

structure RideRow where
  id : Int
  passengerId : Int
  driverId : Option Int
  pickupAddress : StdString
  destinationAddress : StdString
  status : RideStatus
  createdAt : Timestamp
  completedAt : Option Timestamp
  deriving DecidableEq, Repr

/-- The database: the tables, and the last value each identity sequence has
handed out. -/
structure Db where
  users : Table Int UserRow UserRow.id
  drivers : Table Int DriverRow DriverRow.id
  rides : Table Int RideRow RideRow.id
  usersSeq : Nat
  driversSeq : Nat
  ridesSeq : Nat
  deriving DecidableEq

/-- What `schema.sql` creates. -/
def Db.empty : Db := ⟨Table.empty, Table.empty, Table.empty, 0, 0, 0⟩

/-- The server errors a statement of the service can end in. -/
inductive PgError where
  | uniqueViolation
  | foreignKeyViolation
  | checkViolation
  | stringTooLong
  | invalidText
  | sequenceExhausted
  | invalidLikePattern
  deriving DecidableEq, Repr

/-- A text parameter: UTF-8 without a zero byte. -/
def bindText (s : StdString) : Except PgError Unit :=
  if (decodeUtf8 s).isSome && !s.contains 0 then .ok ()
  else .error .invalidText

/-- Several text parameters. -/
def bindTexts : List StdString → Except PgError Unit
  | [] => .ok ()
  | s :: rest => do bindText s; bindTexts rest

/-- The next value of an identity column of type `INTEGER`. -/
def nextval (seq : Nat) : Except PgError Nat :=
  if seq < 2147483647 then .ok (seq + 1) else .error .sequenceExhausted

/-- Length in characters. -/
def charLength (s : StdString) : Nat := ((decodeUtf8 s).getD []).length

/-- Assignment to a `VARCHAR(n)` column: too long a text is an error unless
what is over are spaces, which are cut off. -/
def varchar (n : Nat) (s : StdString) : Except PgError StdString :=
  let trimmed := (s.reverse.dropWhile (· == 32)).reverse
  if charLength s ≤ n then .ok s
  else if charLength trimmed ≤ n then
    .ok (s.take (s.length - (charLength s - n)))
  else .error .stringTooLong

/-- `CHECK (btrim(s) <> '')`. -/
def checkNotBlank (s : StdString) : Except PgError Unit :=
  if s.all (· == 32) then .error .checkViolation else .ok ()

/-- A constraint that is a test on the row. -/
def checkThat (b : Bool) (e : PgError) : Except PgError Unit :=
  if b then .ok () else .error e

/-- A primary-key insert. -/
def insertRow {ρ : Type} {key : ρ → Int} (t : Table Int ρ key) (r : ρ) :
    Except PgError (Table Int ρ key) :=
  match t.insert? r with
  | none => .error .uniqueViolation
  | some t' => .ok t'

end TaxiService.Model
