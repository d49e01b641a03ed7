import TaxiService.Model.Consumer

/-!
# The identity of an event

`event_catalog.md` calls `event_id` the unique identifier of an event. A run
of the producers is the list of their calls of `make_event` in the order in
which these read the clock; which process makes a call is part of the call and
of nothing else. `EventIdentity` says that the calls can be told apart by the
id, and that a consumer can therefore drop the ids it has seen (`keepNew`) and
still handle every event it is handed.

`SameStamp` is the one way in which two calls can agree in their ids, in terms
of their arguments and of the clock.
-/

namespace TaxiService.Spec

open TaxiService.Lib TaxiService.Model

variable {F : Type}

/-- A call of `make_event`, with the readings of the two clocks. -/
structure EventCall (F : Type) where
  producer : Nat
  eventType : PyStr
  payload : PyJson F
  millis : Int
  utcNow : PyStr

def EventCall.event (c : EventCall F) : Assoc PyStr (PyJson F) :=
  makeEvent c.eventType c.payload c.millis c.utcNow

/-- The string under `"event_id"`. -/
def EventCall.eventId (c : EventCall F) : Option PyStr :=
  match c.event.get? (py "event_id") with
  | some (.str id) => some id
  | _ => none

/-- No reading is earlier than one before it. -/
def ClockForward (calls : List (EventCall F)) : Prop :=
  calls.Pairwise fun c d => c.millis ≤ d.millis

/-- A consumer that drops what carries a key it has seen before. -/
def keepNew {ι κ : Type} [DecidableEq κ] (key : ι → κ) :
    List κ → List ι → List ι
  | _, [] => []
  | seen, i :: is =>
      if key i ∈ seen then keepNew key seen is
      else i :: keepNew key (key i :: seen) is

/-- No two calls share an id, and in any sequence of deliveries of the events
published, repeated or not, the first delivery of each is kept. -/
structure EventIdentity (calls : List (EventCall F)) : Prop where
  unique : calls.Pairwise fun c d => c.eventId ≠ d.eventId
  kept : ∀ deliveries : List (Fin calls.length), ∀ i ∈ deliveries,
    i ∈ keepNew (fun i => (calls.get i).eventId) [] deliveries

/-- The calls have the same event type and read the same millisecond. Where
the clock stands before 1970 the separator in front of the reading can also be
taken for the end of the type. -/
def SameStamp (c d : EventCall F) : Prop :=
  (c.eventType = d.eventType ∧ c.millis = d.millis) ∨
  (c.millis < 0 ∧ d.millis = -c.millis ∧ d.eventType = c.eventType ++ py "-") ∨
  (d.millis < 0 ∧ c.millis = -d.millis ∧ c.eventType = d.eventType ++ py "-")

end TaxiService.Spec
