import TaxiService.Model.AuditQueue
import TaxiService.Spec.ConsumerFailures

/-!
# Emptying the queue

A queue drains when the delivery loop gets to its end, whatever places the
broker gives to what comes back, and the file has then taken up every ride
event there was. `Processable` is what this needs of a message: that the
consumer can do with it what it does with a message of its kind.
-/

namespace TaxiService.Spec

open TaxiService.Lib TaxiService.Model

variable {F : Type} (python : Python F)

/-! ## Draining -/

/-- The event of a message that is for the read model. -/
def rideEvent? (body : List UInt8) : Option (PyJson F) :=
  match received python body with
  | .ok (event, true) => some event
  | _ => none

def rideEvents (bodies : List (List UInt8)) : List (PyJson F) :=
  bodies.filterMap (rideEvent? python)

/-- A ride event that every model can take up: its type, its id and its time can
be saved, and an event that moves a ride has a payload that can, with a ride id
that can be made a string. -/
def Foldable (event : PyJson F) : Prop :=
  ∃ t payload eventId occurredAt,
    Py.getItem event (py "event_type") = .ok (.str t) ∧ Encodable t ∧
    Py.getItem event (py "payload") = .ok payload ∧
    Py.getItem event (py "event_id") = .ok eventId ∧
    Saved python 3 eventId ∧
    Py.getItem event (py "occurred_at") = .ok occurredAt ∧
    Saved python 3 occurredAt ∧
    ((∃ slot, t = eventTypeOf slot) → Saved python 2 payload ∧
      ∃ ride, Py.getItem payload (py "ride_id") = .ok ride ∧
        ride.strDepth ≤ python.limits.rideId)

/-- The message gets through `handle_message`: it can be parsed and its line
made and printed, its event type is a string, and a ride event can be folded
in. -/
def Processable (body : List UInt8) : Prop :=
  ∃ event ride, received python body = .ok (event, ride) ∧
    (ride = true → Foldable python event)

end TaxiService.Spec
