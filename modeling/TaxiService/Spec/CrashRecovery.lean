import TaxiService.Model.Deployment
import TaxiService.Spec.ConsumerFailures

/-!
# What a crash may cost

Whatever is redelivered and whenever the process is killed, the file can be
loaded again and has every ride event that was acknowledged (`Recovered`). To
have an event means two things here: the model is what some list of events
makes of the empty one, and the event is in the list; and its ride is in the
section the event put it in, or in a later one.

Rewriting a file in place cannot give that. `Safely` is where it does: the
process is not killed while the file is open, except with the whole document
written (`Torn`), and what is written can be.
-/

namespace TaxiService.Spec

open TaxiService.Lib TaxiService.Model

variable {F : Type} (python : Python F)

/-! ## What is to survive -/

/-- The sections a ride can be in once an event has put it in this one. -/
def reached : Slot → List Slot
  | .opened => [.opened, .taken, .closed]
  | .taken => [.taken, .closed]
  | .closed => [.closed]

/-- The ride of the event is as far as the event moved it, or further. -/
def Reflects (model event : PyJson F) : Prop :=
  ∀ slot payload rideId,
    Py.getItem event (py "event_type") = .ok (.str (eventTypeOf slot)) →
    Py.getItem event (py "payload") = .ok payload →
    rideIdOf python payload = .ok rideId →
    ∃ slot' ∈ reached slot, ((ridesOf model slot').get? rideId).isSome

/-- The message is about a ride. -/
def IsRideEvent (body : List UInt8) (event : PyJson F) : Prop :=
  parseBody python body = .ok event ∧ ∃ t,
    Py.getItem event (py "event_type") = .ok (.str t) ∧ py "ride." <+: t

/-- The model is made of events, and has those of all these messages. -/
def Recorded (model : PyJson F) (bodies : List (List UInt8)) : Prop :=
  ∃ events : List (PyJson F),
    events.foldlM (applyEvent python) emptyModel = .ok model ∧
    ∀ body ∈ bodies, ∀ event, IsRideEvent python body event →
      event ∈ events ∧ Reflects python model event

/-- While no message is handled, after a restart above all, the file can be
loaded and has every ride event that was acknowledged. -/
def Recovered (s : Deployment F) : Prop :=
  s.current = none → ∃ model, loaded python s.host.disk = .ok model ∧
    Recorded python model s.acked

/-! ## Where it does -/

/-- A kill before this call leaves a part of the file: unless the file is only
left to be closed and has been flushed to its end. -/
def Torn (e : ConsumerEffect) (host : Host) (flushed : Nat) : Prop :=
  ∃ w, host.writer = some w ∧ (e = .close → flushed < w.length)

/-- If the call opens the file for writing, what is about to be written can
be. -/
def MayOpen (body : List UInt8) (e : ConsumerEffect) (host : Host) : Prop :=
  e = .openWrite → Savable python host.disk body

/-- The condition on an event. -/
def Safely (s : Deployment F) : DeploymentEvent → Prop
  | .step => ∀ d, s.current = some d → ∀ e k, d.rest = .op e k →
      MayOpen python d.body e s.host
  | .kill flushed => ∀ d, s.current = some d → ∀ e k, d.rest = .op e k →
      ¬ Torn e s.host flushed
  | _ => True

end TaxiService.Spec
