import Mathlib.Data.List.DropRight
import TaxiService.Model.Serving

/-!
# What a create request may hold

The three create handlers check their fields and pass them to an `INSERT`, and
the schema checks them again. `SchemaAgrees` is that the two checks go together: a
request whose fields pass the handler's own is answered 201 or 409. `Fits` is
when they do, told of the fields and of the tables before.
-/

namespace TaxiService.Spec

open TaxiService.Lib TaxiService.Model

/-- The fields of a create request. -/
inductive NewRow where
  | user (login password fullName : StdString)
  | driver (userId : Int) (carModel carNumber licenseNumber : StdString)
  | ride (passengerId : Int) (pickupAddress destinationAddress : StdString)

/-- The handler's own checks: positive ids and non-empty strings. -/
def NewRow.Checked : NewRow → Prop
  | .user login password fullName => login ≠ [] ∧ password ≠ [] ∧ fullName ≠ []
  | .driver userId carModel carNumber licenseNumber =>
      0 < userId ∧ carModel ≠ [] ∧ carNumber ≠ [] ∧ licenseNumber ≠ []
  | .ride passengerId pickupAddress destinationAddress =>
      0 < passengerId ∧ pickupAddress ≠ [] ∧ destinationAddress ≠ []

/-- A text that a `VARCHAR(n)` column with `CHECK (btrim(..) <> '')` takes:
Unicode without a zero character, not all spaces, and at most `n` characters
without the spaces at its end. -/
def Storable (n : Nat) (s : StdString) : Prop :=
  ∃ text, Encodable text ∧ s = encodeUtf8 text ∧ 0 ∉ text ∧
    (∃ c ∈ text, c ≠ 32) ∧ (text.rdropWhile (· == 32)).length ≤ n

/-- Every string fits its column and the identity column has a value left. The
id of a ride must be free as well, for `CreateRide` does not catch a unique
violation. -/
def NewRow.Fits (db : Db) : NewRow → Prop
  | .user login password fullName => db.usersSeq < 2147483647 ∧
      Storable 100 login ∧ Storable 255 password ∧ Storable 255 fullName
  | .driver _ carModel carNumber licenseNumber =>
      db.driversSeq < 2147483647 ∧ Storable 100 carModel ∧
      Storable 30 carNumber ∧ Storable 50 licenseNumber
  | .ride _ pickupAddress destinationAddress =>
      db.ridesSeq < 2147483647 ∧ db.rides.find? (db.ridesSeq + 1 : Nat) = none ∧
      Storable 255 pickupAddress ∧ Storable 255 destinationAddress

variable (json : UserverJson)

def stringField (body : StdString) (name : String) :
    Except StdString StdString := do
  json.asString (← json.member (← json.fromString body) (bytes name))

def intField (body : StdString) (name : String) : Except StdString Int := do
  json.asInt (← json.member (← json.fromString body) (bytes name))

/-- The request has these fields. -/
def Reads : Request → NewRow → Prop
  | .usersCreate body, .user login password fullName =>
      stringField json body "login" = .ok login ∧
      stringField json body "password" = .ok password ∧
      stringField json body "full_name" = .ok fullName
  | .driversCreate body, .driver userId carModel carNumber licenseNumber =>
      intField json body "user_id" = .ok userId ∧
      stringField json body "car_model" = .ok carModel ∧
      stringField json body "car_number" = .ok carNumber ∧
      stringField json body "license_number" = .ok licenseNumber
  | .ridesCreate body, .ride passengerId pickupAddress destinationAddress =>
      intField json body "passenger_id" = .ok passengerId ∧
      stringField json body "pickup_address" = .ok pickupAddress ∧
      stringField json body "destination_address" = .ok destinationAddress
  | _, _ => False

/-- Ended in 201 or 409. -/
def Settled (out : Outcome) : Prop :=
  ∃ response, out = .ok response ∧
    (response.status = .created ∨ response.status = .conflict)

/-- A create request whose fields pass the handler's own checks ends in 201 or
409. -/
def SchemaAgrees (lower : StdString → StdString) (a : App)
    (arrival : Request × Readings) : Prop :=
  ∀ row, Reads json arrival.1 row → row.Checked →
    Settled (serve lower json a arrival).1

end TaxiService.Spec
