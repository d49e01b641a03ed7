import TaxiService.Spec.ReadModel

/-!
# Failing without a trace

What handling one message should come to (`Atomic`): one call to the broker,
an untouched file behind a nack, and behind an ack a file that is untouched or
holds the updated model.

What can go wrong is the save: a string without an encoding, a value that is
nested too deep, an integer with too many digits. `Savable` is that none is in
what the event puts into the model and what it leaves of the old one
(`Leaves`).
-/

namespace TaxiService.Spec

open TaxiService.Lib TaxiService.Model

variable {F : Type} (python : Python F)

/-- The file can be loaded and has the four sections. -/
def WellFormed (disk : Option (List UInt8)) : Prop :=
  ∃ m : ReadModel F, loaded python disk = .ok m.json

/-- The host after a message has been handled, and whether that returned. -/
def handled (disk : Option (List UInt8)) (tag : Nat) (body : List UInt8) :
    Except (PyExc F) Unit × Host :=
  (handleMessage python tag body).run callHost ⟨disk, none, []⟩

/-- What the code makes of a message before it opens the file: the event, and
whether it is one for the read model. -/
def received (body : List UInt8) : Except (PyExc F) (PyJson F × Bool) := do
  let event ← parseBody python body
  let text ← receivedText python event
  if python.Prints text then
    let eventType ← Py.getItem event (py "event_type")
    return (event, ← Py.startsWith eventType (py "ride."))
  else .error (.unicodeEncode text)

/-- One verdict, an untouched file behind a nack, and behind an ack an
untouched file for an event that is none of a ride's, or the updated model. -/
structure Atomic (disk : Option (List UInt8)) (tag : Nat) (body : List UInt8) :
    Prop where
  returns : (handled python disk tag body).1 = .ok ()
  one : ∃ verdict, (handled python disk tag body).2.verdicts = [(tag, verdict)]
  nack : (handled python disk tag body).2.verdicts = [(tag, .nack)] →
    (handled python disk tag body).2.disk = disk
  ack : (handled python disk tag body).2.verdicts = [(tag, .ack)] →
    ∃ event t, parseBody python body = .ok event ∧
      Py.getItem event (py "event_type") = .ok (.str t) ∧
      (¬ py "ride." <+: t ∧ (handled python disk tag body).2.disk = disk ∨
      ∃ model model', loaded python disk = .ok model ∧
        applyEvent python model event = .ok model' ∧
        (handled python disk tag body).2.disk = some (fileOf python model') ∧
        loaded python (handled python disk tag body).2.disk = .ok model')

/-! ## What is saved -/

/-- What an event leaves of the sections: the model without the record it
replaces and, of the record it moves, without the fields it has itself. -/
inductive Leaves (m : ReadModel F) (t : PyStr) (payload : PyJson F) :
    ReadModel F → Prop where
  | other (h : ∀ slot, t ≠ eventTypeOf slot) : Leaves m t payload m
  | opened {rideId : PyStr} (ht : t = eventTypeOf .opened)
      (hid : rideIdOf python payload = .ok rideId) :
      Leaves m t payload (m.drop .opened rideId)
  | moved {slot source : Slot} {rideId : PyStr}
      {record p : Assoc PyStr (PyJson F)} (hs : sourceOf slot = some source)
      (ht : t = eventTypeOf slot) (hp : payload = .dict p)
      (hid : rideIdOf python payload = .ok rideId)
      (hr : ((m.rides source).get? rideId).getD (.dict []) = .dict record)
      (hk : (.dict (record.eraseWhere fun k => (p.get? k).isSome) :
        PyJson F).Keyed) :
      Leaves m t payload ((m.put source rideId
        (.dict (record.eraseWhere fun k => (p.get? k).isSome)) hk).drop
          slot rideId)

/-- The model can be saved but for its last events. -/
def SectionsSaved (m : ReadModel F) : Prop :=
  Entries (Saved python 1) m.others ∧
    ∀ slot, Entries (Saved python 2) (m.rides slot)

/-- What the event adds to the sections can be saved. -/
def PayloadSaved (t : PyStr) (payload : PyJson F) : Prop :=
  (∃ slot, t = eventTypeOf slot) → Saved python 2 payload

/-- If the message gets as far as saving, everything that is saved can be: what
the event leaves of the sections and the nineteen events that stay in
`last_events`, its payload if it moves a ride, its type, its id and its time. -/
def Savable (disk : Option (List UInt8)) (body : List UInt8) : Prop :=
  ∀ event t payload eventId occurredAt, ∀ m left : ReadModel F,
    received python body = .ok (event, true) →
    Py.getItem event (py "event_type") = .ok (.str t) →
    Py.getItem event (py "payload") = .ok payload →
    Py.getItem event (py "event_id") = .ok eventId →
    Py.getItem event (py "occurred_at") = .ok occurredAt →
    loaded python disk = .ok m.json → Leaves python m t payload left →
    SectionsSaved python left ∧
      (∀ v ∈ Py.lastItems 19 m.lastEvents, Saved python 2 v) ∧
      PayloadSaved python t payload ∧
      Encodable t ∧ Saved python 3 eventId ∧ Saved python 3 occurredAt

end TaxiService.Spec
