import TaxiService.Lib.Pipeline
import TaxiService.Lib.Run
import TaxiService.Model.Consumer

/-!
# What the read model is for

The three sections of rides are the three slots of `Lib.Pipeline`, one ride an
item: `ride.created` opens it, `ride.accepted` takes it and `ride.completed`
closes it. `ReadModel` is a model with the four sections in place, which is
what the code expects to find in its file, and `RideEvent` an event it can
fold into one: with the fields it reads, and within the limits of the
interpreter (`Saved`).

The maps of two models are the same when they have the same rides with the
same fields (`SameMaps`). The order of a record's fields is no part of that.
-/

namespace TaxiService.Spec

open TaxiService.Lib TaxiService.Model

variable {F : Type}

def eventTypeOf : Slot → PyStr
  | .opened => py "ride.created"
  | .taken => py "ride.accepted"
  | .closed => py "ride.completed"

def sectionOf : Slot → PyStr
  | .opened => py "active_rides"
  | .taken => py "accepted_rides"
  | .closed => py "completed_rides"

/-- The slot an event takes the ride out of. -/
def sourceOf : Slot → Option Slot
  | .opened => none
  | .taken => some .opened
  | .closed => some .taken

/-! ## Well-formed models -/

/-- A model with its four sections. -/
structure ReadModel (F : Type) where
  entries : Assoc PyStr (PyJson F)
  rides : Slot → Assoc PyStr (PyJson F)
  lastEvents : List (PyJson F)
  keyed : (.dict entries : PyJson F).Keyed
  rides_eq : ∀ slot, entries.get? (sectionOf slot) = some (.dict (rides slot))
  lastEvents_eq : entries.get? (py "last_events") = some (.list lastEvents)

namespace ReadModel

def json (m : ReadModel F) : PyJson F := .dict m.entries

theorem section_injective {slot slot' : Slot}
    (h : sectionOf slot = sectionOf slot') : slot = slot' := by
  revert h
  cases slot <;> cases slot' <;> decide

theorem section_ne_lastEvents (slot : Slot) :
    sectionOf slot ≠ py "last_events" := by
  cases slot <;> decide

def empty : ReadModel F where
  entries := [(py "active_rides", .dict []), (py "accepted_rides", .dict []),
    (py "completed_rides", .dict []), (py "last_events", .list [])]
  rides _ := []
  lastEvents := []
  keyed := by
    refine ⟨?_, by simp [KeyedEntries, KeyedEntry, KeyedItems, PyJson.Keyed,
      Assoc.Keyed]⟩
    show List.Nodup [py "active_rides", py "accepted_rides",
      py "completed_rides", py "last_events"]
    decide
  rides_eq slot := by cases slot <;> rfl
  lastEvents_eq := rfl

/-- The model with other rides in a section. -/
def setRides (m : ReadModel F) (slot : Slot) (rs : Assoc PyStr (PyJson F))
    (h : (.dict rs : PyJson F).Keyed) : ReadModel F where
  entries := m.entries.set (sectionOf slot) (.dict rs)
  rides := Function.update m.rides slot rs
  lastEvents := m.lastEvents
  keyed := keyed_dict_set m.keyed h
  rides_eq slot' := by
    rw [Assoc.get?_set]
    by_cases hs : slot = slot'
    · rw [hs, if_pos rfl, Function.update_self]
    · rw [if_neg fun h => hs (section_injective h), m.rides_eq,
        Function.update_of_ne (Ne.symm hs)]
  lastEvents_eq := by
    rw [Assoc.get?_set, if_neg (section_ne_lastEvents slot), m.lastEvents_eq]

/-- The model with other last events. -/
def setLastEvents (m : ReadModel F) (items : List (PyJson F))
    (h : (.list items : PyJson F).Keyed) : ReadModel F where
  entries := m.entries.set (py "last_events") (.list items)
  rides := m.rides
  lastEvents := items
  keyed := keyed_dict_set m.keyed h
  rides_eq slot := by
    rw [Assoc.get?_set, if_neg (Ne.symm (section_ne_lastEvents slot)),
      m.rides_eq]
  lastEvents_eq := by rw [Assoc.get?_set, if_pos rfl]

theorem keyed_rides (m : ReadModel F) (slot : Slot) :
    (.dict (m.rides slot) : PyJson F).Keyed :=
  keyed_get? m.keyed (m.rides_eq slot)

theorem keyed_lastEvents (m : ReadModel F) :
    (.list m.lastEvents : PyJson F).Keyed :=
  keyed_get? m.keyed m.lastEvents_eq

/-- The model with a ride put in a section. -/
def put (m : ReadModel F) (slot : Slot) (rideId : PyStr) (ride : PyJson F)
    (h : ride.Keyed) : ReadModel F :=
  m.setRides slot ((m.rides slot).set rideId ride)
    (keyed_dict_set (m.keyed_rides slot) h)

/-- The model with a ride taken out of a section. -/
def drop (m : ReadModel F) (slot : Slot) (rideId : PyStr) : ReadModel F :=
  m.setRides slot ((m.rides slot).erase rideId)
    (keyed_dict_erase (m.keyed_rides slot) rideId)

theorem keyed_lastItems {items : List (PyJson F)}
    (h : (.list items : PyJson F).Keyed) (n : Nat) :
    (.list (Py.lastItems n items) : PyJson F).Keyed :=
  (keyedItems_iff _).mpr fun v hv =>
    (keyedItems_iff _).mp h v (List.mem_of_mem_drop hv)

/-- The model with an event logged. -/
def log (m : ReadModel F) (entry : PyJson F) (h : entry.Keyed) : ReadModel F :=
  m.setLastEvents (Py.lastItems 20 (m.lastEvents ++ [entry]))
    (keyed_lastItems (keyed_list_append m.keyed_lastEvents h) 20)

def sectionKeys : List PyStr :=
  [sectionOf .opened, sectionOf .taken, sectionOf .closed, py "last_events"]

/-- The entries that are none of the four sections. -/
def others (m : ReadModel F) : Assoc PyStr (PyJson F) :=
  m.entries.eraseWhere fun k => sectionKeys.contains k

end ReadModel

/-- What an event leaves in `last_events`. -/
def entryOf (eventType eventId occurredAt : PyJson F) : PyJson F :=
  .dict [(py "event_type", eventType), (py "event_id", eventId),
    (py "occurred_at", occurredAt)]

/-! ## Reading the maps of a model -/

/-- The rides of a section of a JSON value, none if that has no such
section. -/
def ridesOf (model : PyJson F) (slot : Slot) : Assoc PyStr (PyJson F) :=
  match model with
  | .dict m =>
      match Assoc.get? m (sectionOf slot) with
      | some (.dict rides) => rides
      | _ => []
  | _ => []

def fieldsOf (record : PyJson F) : Fields PyStr (PyJson F) :=
  match record with
  | .dict r => Assoc.get? r
  | _ => .empty

def recordAt (model : PyJson F) (slot : Slot) (rideId : PyStr) :
    Option (Fields PyStr (PyJson F)) :=
  ((ridesOf model slot).get? rideId).map fieldsOf

/-- A ride in the three sections. -/
def slotsAt (model : PyJson F) (rideId : PyStr) : Slots PyStr (PyJson F) where
  opened := recordAt model .opened rideId
  taken := recordAt model .taken rideId
  closed := recordAt model .closed rideId

/-- The same rides with the same fields in every section. -/
def SameMaps (model model' : PyJson F) : Prop :=
  ∀ rideId, slotsAt model rideId = slotsAt model' rideId

/-- No ride is in two sections. -/
def Exclusive (model : PyJson F) : Prop :=
  ∀ rideId slot slot', (recordAt model slot rideId).isSome →
    (recordAt model slot' rideId).isSome → slot = slot'

/-! ## Events and what processing them leaves -/

variable (python : Python F)

/-- The value can be written to the file inside `level` containers: its strings
have an encoding, and the interpreter's limits allow it. -/
def Saved (level : Nat) (v : PyJson F) : Prop :=
  v.Saves python.limits.save python.limits.digits level

instance (level : Nat) (v : PyJson F) : Decidable (Saved python level v) :=
  inferInstanceAs (Decidable (v.Saves _ _ _))

/-- An event about a ride, with what `update_read_model` reads of it. What goes
into the file can be written there, and the ride's id can be made a string. -/
structure RideEvent where
  entries : Assoc PyStr (PyJson F)
  slot : Slot
  payload : Assoc PyStr (PyJson F)
  ride : PyJson F
  eventId : PyJson F
  occurredAt : PyJson F
  eventType_eq : entries.get? (py "event_type") = some (.str (eventTypeOf slot))
  payload_eq : entries.get? (py "payload") = some (.dict payload)
  ride_eq : payload.get? (py "ride_id") = some ride
  eventId_eq : entries.get? (py "event_id") = some eventId
  occurredAt_eq : entries.get? (py "occurred_at") = some occurredAt
  keyed : (.dict entries : PyJson F).Keyed
  payload_saved : Saved python 2 (.dict payload)
  ride_depth : ride.strDepth ≤ python.limits.rideId
  eventId_saved : Saved python 3 eventId
  occurredAt_saved : Saved python 3 occurredAt

variable {python}

def RideEvent.json (e : RideEvent python) : PyJson F := .dict e.entries

theorem encodable_eventTypeOf (slot : Slot) : Encodable (eventTypeOf slot) := by
  cases slot <;> decide

/-- What a producer makes of a payload. -/
def RideEvent.make (slot : Slot) (payload : Assoc PyStr (PyJson F))
    (ride : PyJson F) (hride : payload.get? (py "ride_id") = some ride)
    (hk : (.dict payload : PyJson F).Keyed)
    (hs : Saved python 2 (.dict payload))
    (hd : ride.strDepth ≤ python.limits.rideId) (millis : Int) (utcNow : PyStr)
    (hnow : Encodable utcNow) : RideEvent python where
  entries := makeEvent (eventTypeOf slot) (.dict payload) millis utcNow
  slot := slot
  payload := payload
  ride := ride
  eventId := .str (eventTypeOf slot ++ py "-" ++ intText millis)
  occurredAt := .str utcNow
  eventType_eq := rfl
  payload_eq := rfl
  ride_eq := hride
  eventId_eq := rfl
  occurredAt_eq := rfl
  keyed := by
    refine ⟨?_, trivial, trivial, trivial, trivial, hk, trivial⟩
    show List.Nodup [py "event_id", py "event_type", py "occurred_at",
      py "source", py "payload"]
    decide
  payload_saved := hs
  ride_depth := hd
  eventId_saved := saves_str.mpr ⟨python.limits.three_le_save,
    encodable_append (encodable_append (encodable_eventTypeOf slot)
      (by decide)) (encodable_plain (plain_intText millis))⟩
  occurredAt_saved := saves_str.mpr ⟨python.limits.three_le_save, hnow⟩

/-- The ride's id, as a key. -/
def RideEvent.rideId (e : RideEvent python) : PyStr :=
  pyStr python.float python.printable e.ride

variable (python)

/-- `load_read_model` with this file. -/
def loaded (disk : Option (List UInt8)) : Except (PyExc F) (PyJson F) :=
  ((loadReadModel python).run callHost ⟨disk, none, []⟩).1

/-- The bytes of the file that holds a value. -/
def fileOf (v : PyJson F) : List UInt8 :=
  encodeUtf8 (texts (iterencode python.float 0 v)).flatten

/-- The file after `update_read_model`. -/
def afterUpdate (disk : Option (List UInt8)) (e : RideEvent python) :
    Option (List UInt8) :=
  ((updateReadModel python e.json).run callHost ⟨disk, none, []⟩).2.disk

/-- The file after an update for each event, starting without a file. -/
def processed (events : List (RideEvent python)) : Option (List UInt8) :=
  run (afterUpdate python) none events

end TaxiService.Spec
