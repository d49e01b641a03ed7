import TaxiService.Spec.Messaging
import TaxiService.Spec.PoisonMessages

/-!
# From the producer to the file

What the whole chain is for: an event that was published is in the read model
some time later (`UpToDate`). It needs a payload that is a value of Python, for
which the consumer can make its line, and of an event that moves a ride one
that the interpreter's limits let it save and that says which ride it is about
(`Acceptable`). The payloads of `producer.py` are such.
-/

namespace TaxiService.Spec

open TaxiService.Lib TaxiService.Model

variable {F : Type}

variable (python : Python F)

/-- A payload the read model can take. -/
def Acceptable (eventType : PyStr) (payload : PyJson F) : Prop :=
  payload.Keyed ∧ payload.nesting ≤ python.limits.dumps ∧
    ((∃ slot, eventType = eventTypeOf slot) →
      2 + payload.frames ≤ python.limits.save ∧
      ∃ ride, Py.getItem payload (py "ride_id") = .ok ride ∧
        ride.strDepth ≤ python.limits.rideId)

def AcceptableRequest : MessagingRequest F → Prop
  | .publish eventType payload => Acceptable python eventType payload
  | _ => True

variable {B : Type}

/-- The messages that were acknowledged. -/
def acknowledged (s : MessagingRun B F) : List (List UInt8) :=
  ackedOf (delivered s.trace) s.shared.host.verdicts

/-- The consumer acknowledges every message, in the order of arrival and once.
While it has none at hand, its file has the ride events among them and nothing
else. -/
structure UpToDate (rabbit : Rabbit B) (s : MessagingRun B F) : Prop where
  verdicts : s.shared.host.verdicts =
    (List.range s.shared.host.verdicts.length).map fun tag => (tag, .ack)
  inOrder : publishedTo auditQueue s.trace = acknowledged s ++
    inFlight s.shared ++ (rabbit.view s.shared.broker).messages auditQueue
  file : s.shared.callback = none → ∃ model,
    loaded python s.shared.host.disk = .ok model ∧
    (rideEvents python (acknowledged s)).foldlM (applyEvent python)
      emptyModel = .ok model

/-- A step of the consumer: it is started, or one of its rounds, or one of them
makes its next call. -/
def OfConsumer (requests : List (MessagingRequest F)) :
    MessagingEvent F → Prop
  | .start request => request = .consumer ∨ request = .round
  | .step i _ => requests[i]? = some .consumer ∨ requests[i]? = some .round

/-- The consumer has nothing left to do. It has acknowledged these messages, and
its file has the ride events among them. -/
structure CaughtUp (rabbit : Rabbit B) (published : List (List UInt8))
    (s : MessagingRun B F) : Prop where
  idle : s.shared.callback = none
  empty : (rabbit.view s.shared.broker).messages auditQueue = []
  acknowledged : acknowledged s = published
  file : ∃ model, loaded python s.shared.host.disk = .ok model ∧
    (rideEvents python published).foldlM (applyEvent python) emptyModel =
      .ok model

/-- The consumer reads a message as the event that was published. -/
def ReadBack (s : MessagingRun B F) : Prop :=
  ∀ before x later, s.trace = before ++ x :: later →
    ∀ exchange key body properties,
      x.effect = .pika (.basicPublish exchange key body properties) →
      ∃ payload millis utcNow,
        clocks millis utcNow <+: Threads.pastOf x.thread before ∧
        (s.requests[x.thread]? = some (.publish key payload) ∨
          ∃ args entries, s.requests[x.thread]? = some (.produce args) ∧
            args.eventType = key ∧ eventPayload args = .ok entries ∧
            payload = .dict entries) ∧
        (payload.Keyed → parseBody python body =
          .ok (.dict (makeEvent key payload millis utcNow)))

end TaxiService.Spec
