import TaxiService.Model.StorageOps

/-!
# The rides as the callers know them

A caller sees what the calls return. `transcript` is the calls of a run with
their answers, and everything below is read off it, without the tables: the
rides that were created, in that order and each with what came after
(`creations`), and what the answers since say a ride is now (`current`). The
two lists the storage shows are specified from that.
-/

namespace TaxiService.Spec

open TaxiService.Lib TaxiService.Model

/-- A call and the ride it answered with, if any. -/
abbrev AnsweredCall := StorageOp × Option Ride

/-- The calls of a run with their answers. -/
def transcript (db : Db) : List StorageOp → List AnsweredCall
  | [] => []
  | op :: ops => (op, (op.exec db).1) :: transcript (op.apply db) ops

/-- The ride a call created. -/
def createdRide? : AnsweredCall → Option Ride
  | (.createRide .., ride) => ride
  | _ => none

/-- The driver a call of `AcceptRide` gave the ride. -/
def acceptedDriver? (rideId : Int) : AnsweredCall → Option Int
  | (.acceptRide k driverId, some _) => if k = rideId then some driverId else none
  | _ => none

/-- A call of `CompleteRide` that ended the ride. -/
def completes (rideId : Int) : AnsweredCall → Bool
  | (.completeRide k _, some _) => decide (k = rideId)
  | _ => false

/-- The rides created, each with the calls after it. -/
def creations : List AnsweredCall → List (Ride × List AnsweredCall)
  | [] => []
  | a :: rest => match createdRide? a with
      | some ride => (ride, rest) :: creations rest
      | none => creations rest

/-- The ride was accepted since, and this is its driver. -/
def driverSince (after : List AnsweredCall) (rideId : Int) : Option Int :=
  after.findSome? (acceptedDriver? rideId)

/-- The ride was completed since. -/
def completedSince (after : List AnsweredCall) (rideId : Int) : Bool :=
  after.any (completes rideId)

/-- What has become of a ride since it was created. -/
def current (c : Ride × List AnsweredCall) : Ride :=
  { c.1 with
    driverId := (driverSince c.2 c.1.id).getD 0
    status := if completedSince c.2 c.1.id then .completed
      else if (driverSince c.2 c.1.id).isSome then .accepted
      else .searching }

/-- The reading of `NOW()` a call takes. -/
def now? : StorageOp → Option Timestamp
  | .createRide _ _ _ now => some now
  | .completeRide _ now => some now
  | _ => none

/-- No reading of `NOW()` is earlier than one before it. -/
def ClockSteady (ops : List StorageOp) : Prop :=
  (ops.filterMap now?).Pairwise (· ≤ ·)

/-- The storage shows the rides that were created, once each and as they are
now: to a passenger their own, the newest first, and as active those that were
not completed since, the oldest first. -/
structure RidesShown (calls : List AnsweredCall) (db : Db) : Prop where
  distinct : ((creations calls).map fun c => c.1.id).Nodup
  history : ∀ userId, getRidesByUserId userId db =
    (((creations calls).filter fun c =>
      decide (c.1.passengerId = userId)).map current).reverse
  active : getActiveRides db =
    ((creations calls).filter fun c => !completedSince c.2 c.1.id).map current

end TaxiService.Spec
