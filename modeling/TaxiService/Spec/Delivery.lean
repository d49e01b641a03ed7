import TaxiService.Spec.ReadModel

/-!
# Deliveries of ride events

At-least-once delivery hands the consumer every event, and some of them again.
`Redelivered` is what can become of a list of events then, and `Absorbed` of
`Lib.Pipeline` says which repetitions leave no trace in the slots of a ride.

`InTurn` is the order the sections rely on: each event of a ride is the next of
its lifecycle, or of the same type as the one before it.
-/

namespace TaxiService.Spec

open TaxiService.Lib TaxiService.Model

variable {F : Type}

/-- The list with further copies of events, each behind one of its kind. -/
inductive Redelivered {α : Type} (events : List α) : List α → Prop where
  | same : Redelivered events events
  | again {l r : List α} {e : α} (h : Redelivered events (l ++ r))
      (he : e ∈ l) : Redelivered events (l ++ e :: r)

variable (python : Python F)

/-- The moves of one ride. -/
def slotsOf (events : List (RideEvent python)) (rideId : PyStr) : List Slot :=
  (events.filter fun e => e.rideId = rideId).map (·.slot)

/-- Each ride's events are in lifecycle order and without repetition. -/
def Lifecycle (events : List (RideEvent python)) : Prop :=
  ∀ rideId, InOrderOnce (slotsOf python events rideId)

/-- The fields of the event that moves the ride to a slot. -/
def payloadOf (events : List (RideEvent python)) (rideId : PyStr) (slot : Slot) :
    Fields PyStr (PyJson F) :=
  match events.find? fun e => e.rideId = rideId ∧ e.slot = slot with
  | some e => e.payload.get?
  | none => .empty

/-- The move is the one before it once more, or the next. -/
def MovesOn (before slot : Slot) : Prop :=
  slot = before ∨ sourceOf slot = some before

/-- Each ride's events continue one another, whatever comes first. -/
def InTurn (events : List (RideEvent python)) : Prop :=
  ∀ rideId, (slotsOf python events rideId).IsChain MovesOn

/-- After every event no ride is in two sections, and a ride once completed is
in no other section any more. -/
structure Separate (events : List (RideEvent python)) : Prop where
  exclusive : ∀ n m, loaded python (processed python (events.take n)) = .ok m →
    Exclusive m
  final : ∀ n n' m m' rideId, n ≤ n' →
    loaded python (processed python (events.take n)) = .ok m →
    loaded python (processed python (events.take n')) = .ok m' →
    (recordAt m .closed rideId).isSome → ∀ slot, slot ≠ .closed →
    recordAt m' slot rideId = none

end TaxiService.Spec
