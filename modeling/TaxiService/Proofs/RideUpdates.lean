import TaxiService.Proofs.ModelSaving

/-!
# One event, one ride

Each ride is a machine of its own: an event moves its ride through the three
slots and leaves every other ride where it is (`Holds.step`). `Holds` is what
the file is then known to hold, a model that can be loaded and saved and whose
rides are all dicts.
-/

namespace TaxiService.Proofs

open TaxiService.Lib TaxiService.Model TaxiService.Spec

variable {F : Type} (python : Python F)

/-! ## The rides of a section -/

theorem get?_put (m : ReadModel F) (slot slot' : Slot) (rideId rideId' : PyStr)
    {ride : PyJson F} (h : ride.Keyed) :
    ((m.put slot rideId ride h).rides slot').get? rideId' =
      if slot = slot' ∧ rideId = rideId' then some ride
      else (m.rides slot').get? rideId' := by
  by_cases hs : slot = slot'
  · subst hs
    have hrides : (m.put slot rideId ride h).rides slot =
        (m.rides slot).set rideId ride := Function.update_self ..
    rw [hrides, Assoc.get?_set]
    simp only [true_and]
  · have hrides : (m.put slot rideId ride h).rides slot' = m.rides slot' :=
      Function.update_of_ne (Ne.symm hs) ..
    rw [hrides, if_neg fun h => hs h.1]

theorem get?_drop (m : ReadModel F) (slot slot' : Slot)
    (rideId rideId' : PyStr) :
    ((m.drop slot rideId).rides slot').get? rideId' =
      if slot = slot' ∧ rideId = rideId' then none
      else (m.rides slot').get? rideId' := by
  by_cases hs : slot = slot'
  · subst hs
    have hrides : (m.drop slot rideId).rides slot =
        (m.rides slot).erase rideId := Function.update_self ..
    rw [hrides, Assoc.get?_erase]
    simp only [true_and]
  · have hrides : (m.drop slot rideId).rides slot' = m.rides slot' :=
      Function.update_of_ne (Ne.symm hs) ..
    rw [hrides, if_neg fun h => hs h.1]

/-- Every ride of the model is a dict. -/
def DictRides (m : ReadModel F) : Prop :=
  ∀ slot rideId ride, (m.rides slot).get? rideId = some ride →
    ∃ r, ride = .dict r

/-- The file holds this model, made from events about rides. -/
structure Holds (disk : Option (List UInt8)) (m : ReadModel F) : Prop where
  loads : loaded python disk = .ok m.json
  saved : Saved python 0 m.json
  dicts : DictRides m

theorem Holds.init : Holds python none (.empty : ReadModel F) where
  loads := rfl
  saved := (saved_iff _).mpr ⟨⟨nofun, fun _ => nofun⟩, nofun⟩
  dicts _ _ _ h := by cases h

theorem DictRides.put {m : ReadModel F} (hm : DictRides m) (slot : Slot)
    (rideId : PyStr) {r : Assoc PyStr (PyJson F)}
    (h : (.dict r : PyJson F).Keyed) :
    DictRides (m.put slot rideId (.dict r) h) := by
  intro slot' rideId' ride hride
  rw [get?_put] at hride
  split at hride
  · exact ⟨r, (Option.some.inj hride).symm⟩
  · exact hm _ _ _ hride

theorem DictRides.drop {m : ReadModel F} (hm : DictRides m) (slot : Slot)
    (rideId : PyStr) : DictRides (m.drop slot rideId) := by
  intro slot' rideId' ride hride
  rw [get?_drop] at hride
  split at hride
  · cases hride
  · exact hm _ _ _ hride

/-- What is found in the slot before is a dict, the empty one if there is
nothing. -/
theorem DictRides.source {m : ReadModel F} (hm : DictRides m)
    (hs : SectionsSaved python m) (slot : Slot) (rideId : PyStr) : ∃ record,
    ((m.rides slot).get? rideId).getD (.dict []) = .dict record ∧
      (.dict record : PyJson F).Keyed ∧ Entries (Saved python 3) record := by
  cases hg : (m.rides slot).get? rideId with
  | none => exact ⟨[], rfl, ⟨List.nodup_nil, trivial⟩, nofun⟩
  | some ride =>
      obtain ⟨r, rfl⟩ := hm _ _ _ hg
      exact ⟨r, rfl, keyed_get? (m.keyed_rides slot) hg,
        saved_record.mp (hs.2 slot _ (Assoc.mem_of_get? hg)).2⟩

/-! ## The fields of an event -/

theorem writable_get? {entries : Assoc PyStr (PyJson F)}
    (h : (.dict entries : PyJson F).Writable) {k : PyStr} {v : PyJson F}
    (hv : entries.get? k = some v) : v.Writable :=
  ((writable_entries _).mp h _ (Assoc.mem_of_get? hv)).2

variable {python} (e : RideEvent python)

theorem payload_keyed : (.dict e.payload : PyJson F).Keyed :=
  keyed_get? e.keyed e.payload_eq

theorem ride_saved : Saved python 3 e.ride :=
  (saved_record.mp e.payload_saved _ (Assoc.mem_of_get? e.ride_eq)).2

theorem rideId_encodable : Encodable e.rideId :=
  encodable_pyStr _ _ (ride_saved e).2.2

theorem rideIdOf_payload :
    rideIdOf python (.dict e.payload) = .ok e.rideId := by
  rw [rideIdOf, getItem_entries e.ride_eq]
  exact if_pos ⟨e.ride_depth, (ride_saved e).2.1⟩

/-! ## The slots of a model -/

theorem ridesOf_json (m : ReadModel F) (slot : Slot) :
    ridesOf m.json slot = m.rides slot := by
  simp only [ridesOf, ReadModel.json, m.rides_eq]

theorem recordAt_json (m : ReadModel F) (slot : Slot) (rideId : PyStr) :
    recordAt m.json slot rideId =
      ((m.rides slot).get? rideId).map fieldsOf := by
  rw [recordAt, ridesOf_json]

/-! ## Moving a ride -/

/-- The fields an event finds in an entry. -/
def recordOf (entry : Option (PyJson F)) : Assoc PyStr (PyJson F) :=
  match entry with
  | some (.dict r) => r
  | _ => []

/-- What an event makes of the entries of its ride. -/
def movedEntries (slot : Slot) (payload : Assoc PyStr (PyJson F))
    (entries : Slot → Option (PyJson F)) (slot' : Slot) : Option (PyJson F) :=
  if slot = slot' then
    match sourceOf slot with
    | none => some (.dict payload)
    | some source => some (.dict ((recordOf (entries source)).update payload))
  else if sourceOf slot = some slot' then none
  else entries slot'

theorem recordOf_eq {entry : Option (PyJson F)}
    {record : Assoc PyStr (PyJson F)}
    (h : entry.getD (.dict []) = .dict record) : recordOf entry = record := by
  cases entry with
  | none => cases h; rfl
  | some v => cases h; rfl

theorem fieldsOf_recordOf (entry : Option (PyJson F)) :
    (entry.map fieldsOf).getD .empty = (recordOf entry).get? := by
  cases entry with
  | none => rfl
  | some v => cases v <;> rfl

theorem fields_update {record payload : Assoc PyStr (PyJson F)}
    (h : payload.Keyed) : fieldsOf (.dict (record.update payload)) =
      Fields.over payload.get? record.get? := by
  funext k
  exact Assoc.get?_update h k

/-- The slots follow the entries. -/
theorem slotsAt_moved {m m' : ReadModel F} {slot : Slot} {rideId : PyStr}
    {payload : Assoc PyStr (PyJson F)} (hp : payload.Keyed)
    (h : ∀ slot', (m'.rides slot').get? rideId = movedEntries slot payload
      (fun slot => (m.rides slot).get? rideId) slot') :
    slotsAt m'.json rideId = (slotsAt m.json rideId).move slot payload.get? := by
  have hf := fun source : Slot =>
    fieldsOf_recordOf ((m.rides source).get? rideId)
  cases slot <;> refine Slots.ext ?_ ?_ ?_ <;>
    simp [slotsAt, recordAt_json, h, movedEntries, sourceOf, Slots.move, hf,
      fields_update hp]
  rfl

/-! ## One event -/

variable {e}

theorem applyRide_event {m : ReadModel F} (hm : DictRides m)
    (hs : SectionsSaved python m) : ∃ m' : ReadModel F,
    applyRide python m.json (.str (eventTypeOf e.slot)) (.dict e.payload) =
      .ok m'.json ∧ SectionsSaved python m' ∧ DictRides m' ∧
      m'.lastEvents = m.lastEvents ∧ ∀ rideId slot,
        (m'.rides slot).get? rideId = if e.rideId = rideId then
          movedEntries e.slot e.payload
            (fun slot => (m.rides slot).get? rideId) slot
        else (m.rides slot).get? rideId := by
  have hpk := payload_keyed e
  have hid := rideId_encodable e
  rw [applyRide_slot, rideIdOf_payload]
  cases hsource : sourceOf e.slot with
  | none =>
      refine ⟨m.put e.slot _ _ hpk, putRide_json m _ _ hpk,
        (sectionsSaved_put ..).mpr ⟨⟨hid, e.payload_saved⟩,
          sectionsSaved_drop hs ..⟩,
        hm.put _ _ hpk, rfl, fun rideId slot => ?_⟩
      rw [get?_put, movedEntries, hsource]
      by_cases hi : e.rideId = rideId <;> simp [hi]
  | some source =>
      obtain ⟨record, hr, hrk, hrs⟩ := hm.source python hs source e.rideId
      have hk := keyed_dict_update hrk hpk
      have hsaved : Saved python 2 (.dict (Assoc.update record e.payload)) :=
        saved_record.mpr ((entries_update hrk.1 hpk.1).mpr
          ⟨saved_record.mp e.payload_saved, entries_filter hrs _⟩)
      refine ⟨_, moveRide_json m source e.slot hr hk,
        (sectionsSaved_put ..).mpr ⟨⟨hid, hsaved⟩,
          sectionsSaved_drop (sectionsSaved_drop hs ..) ..⟩,
        (hm.drop _ _).put _ _ hk, rfl, fun rideId slot => ?_⟩
      rw [get?_put, get?_drop, movedEntries, hsource]
      by_cases hi : e.rideId = rideId
      · subst hi
        simp [recordOf_eq hr]
      · simp [hi]

/-- Logging an event whose entry can be saved leaves a model that can. -/
theorem applyEvent_logged {m m₁ : ReadModel F} {t : PyStr}
    {event payload eventId occurredAt : PyJson F}
    (ht : Py.getItem event (py "event_type") = .ok (.str t))
    (hp : Py.getItem event (py "payload") = .ok payload)
    (hid : Py.getItem event (py "event_id") = .ok eventId)
    (hat : Py.getItem event (py "occurred_at") = .ok occurredAt)
    (happly : applyRide python m.json (.str t) payload = .ok m₁.json)
    (hs : SectionsSaved python m₁) (hlast : ∀ v ∈ m₁.lastEvents, Saved python 2 v)
    (hentryk : (entryOf (.str t) eventId occurredAt).Keyed)
    (hentrys : Saved python 2 (entryOf (.str t) eventId occurredAt)) :
    applyEvent python m.json event = .ok (m₁.log _ hentryk).json ∧
      Saved python 0 (m₁.log _ hentryk).json := by
  constructor
  · rw [applyEvent_eq python m.json ht hp, happly]
    exact logEvent_json m₁ hid hat hentryk
  · exact (saved_log m₁ hentryk).mpr
      ⟨hs, fun v hv => hlast v (List.mem_of_mem_drop hv), hentrys⟩

/-- An event is folded in: it is logged, and it moves its ride and no other. -/
theorem Holds.update {disk : Option (List UInt8)} {m : ReadModel F}
    (h : Holds python disk m) (e : RideEvent python) : ∃ m' : ReadModel F,
    (updateReadModel python e.json).run callHost ⟨disk, none, []⟩ =
      (.ok (), ⟨afterUpdate python disk e, none, []⟩) ∧
    Holds python (afterUpdate python disk e) m' ∧
    m'.lastEvents = Py.lastItems 20 (m.lastEvents ++
      [entryOf (.str (eventTypeOf e.slot)) e.eventId e.occurredAt]) ∧
    ∀ rideId slot, (m'.rides slot).get? rideId =
      if e.rideId = rideId then
        movedEntries e.slot e.payload
          (fun slot => (m.rides slot).get? rideId) slot
      else (m.rides slot).get? rideId := by
  obtain ⟨hsections, hlast⟩ := (saved_iff m).mp h.saved
  obtain ⟨m₁, happly, hs₁, hd₁, hl₁, hentries⟩ :=
    applyRide_event (e := e) h.dicts hsections
  have hentryk := keyed_entryOf
    (show (.str (eventTypeOf e.slot) : PyJson F).Keyed from trivial)
    (keyed_get? e.keyed e.eventId_eq) (keyed_get? e.keyed e.occurredAt_eq)
  have hentrys := (saved_entryOf (eventTypeOf e.slot) e.eventId
    e.occurredAt).mpr ⟨encodable_eventTypeOf e.slot, e.eventId_saved,
      e.occurredAt_saved⟩
  obtain ⟨hevent, hsaved⟩ := applyEvent_logged
    (show Py.getItem e.json _ = _ from getItem_entries e.eventType_eq)
    (getItem_entries e.payload_eq) (getItem_entries e.eventId_eq)
    (getItem_entries e.occurredAt_eq) happly hs₁ (hl₁ ▸ hlast) hentryk hentrys
  have hrun := run_update_ok python e.json ⟨disk, none, []⟩
    (by rw [h.loads]; exact hevent) hsaved
  have hafter : afterUpdate python disk e =
      some (fileOf python (m₁.log _ hentryk).json) := by
    rw [afterUpdate, hrun]
  refine ⟨m₁.log _ hentryk, by rw [hrun, hafter], ⟨?_, hsaved, hd₁⟩,
    by rw [← hl₁]; rfl, hentries⟩
  rw [hafter]
  exact loaded_fileOf (m₁.log _ hentryk).keyed hsaved

/-- An event moves its ride and no other. -/
theorem Holds.step {disk : Option (List UInt8)} {m : ReadModel F}
    (h : Holds python disk m) (e : RideEvent python) : ∃ m' : ReadModel F,
    Holds python (afterUpdate python disk e) m' ∧ ∀ rideId,
      slotsAt m'.json rideId = if e.rideId = rideId then
        (slotsAt m.json rideId).move e.slot e.payload.get?
      else slotsAt m.json rideId := by
  obtain ⟨m', -, hm', -, hentries⟩ := h.update e
  refine ⟨m', hm', fun rideId => ?_⟩
  split
  · next hi =>
      exact slotsAt_moved (payload_keyed e).1 fun slot =>
        (hentries rideId slot).trans (if_pos hi)
  · next hi =>
      simp only [slotsAt, recordAt_json, hentries, if_neg hi]

end TaxiService.Proofs
