import TaxiService.Spec.Delivery

/-!
# What a stream of events comes to

On a clean stream every ride goes from section to section by the events that
are about it and by no other: it is in the section of its last event, with
their payloads merged (`Projected`). A ride may stop anywhere on its way, but it
is completed only after it was accepted (`Orderly`), since a completion takes
the ride out of the accepted ones.
-/

namespace TaxiService.Spec

open TaxiService.Lib TaxiService.Model

variable {F : Type}

/-- What the model has for a ride in a section. -/
def entryAt (model : PyJson F) (slot : Slot) (rideId : PyStr) :
    Option (PyJson F) :=
  (ridesOf model slot).get? rideId

/-- What the event leaves in `last_events`. -/
def RideEvent.entry {python : Python F} (e : RideEvent python) : PyJson F :=
  entryOf (.str (eventTypeOf e.slot)) e.eventId e.occurredAt

variable (python : Python F)

def eventsOf (events : List (RideEvent python)) (rideId : PyStr) :
    List (RideEvent python) :=
  events.filter fun e => e.rideId = rideId

/-- The payloads of a ride's events, merged from left to right. -/
def mergedPayload (events : List (RideEvent python)) (rideId : PyStr) :
    Assoc PyStr (PyJson F) :=
  (eventsOf python events rideId).foldl
    (fun record e => record.update e.payload) []

/-- Each ride's events begin with its creation and go on in order, without
repetition and without a gap. -/
def Orderly (events : List (RideEvent python)) : Prop :=
  ∀ rideId, slotsOf python events rideId <+: [.opened, .taken, .closed]

/-- A ride that occurs is in the section of its last event, and nowhere else,
with its payloads merged; the last twenty events are logged. -/
structure Projected (events : List (RideEvent python)) (model : PyJson F) :
    Prop where
  rides : ∀ rideId slot, entryAt model slot rideId =
    if (slotsOf python events rideId).getLast? = some slot then
      some (.dict (mergedPayload python events rideId))
    else none
  lastEvents : Py.getItem model (py "last_events") =
    .ok (.list (Py.lastItems 20 (events.map RideEvent.entry)))

/-- Processing the events one by one, each with the file the others left,
never raises and ends in the model they project to. -/
structure Processes (events : List (RideEvent python)) : Prop where
  returns : ∀ before e after, events = before ++ e :: after →
    ((updateReadModel python e.json).run callHost
      ⟨processed python before, none, []⟩).1 = .ok ()
  model : ∃ model, loaded python (processed python events) = .ok model ∧
    Projected python events model

end TaxiService.Spec
