import TaxiService.Proofs.ConsumerSpec
import TaxiService.Spec.ConsumerFailures

/-!
# Saving a read model

A model can be saved when everything in it can be: the rides of the sections,
the last events, and whatever else the file had, which no operation touches
(`saved_iff`). So each operation is looked at in the section it changes.
-/

namespace TaxiService.Proofs

open TaxiService.Lib TaxiService.Model TaxiService.Spec

variable {F : Type} {python : Python F}

/-! ## Values -/

theorem saved_str {level : Nat} {s : PyStr} :
    Saved python level (.str s) ↔ level ≤ python.limits.save ∧ Encodable s :=
  saves_str

theorem saved_dict {level : Nat} {entries : Assoc PyStr (PyJson F)} :
    Saved python level (.dict entries) ↔ level < python.limits.save ∧
      Entries (Saved python (level + 1)) entries := saves_dict

theorem saved_list {level : Nat} {items : List (PyJson F)} :
    Saved python level (.list items) ↔ level < python.limits.save ∧
      ∀ v ∈ items, Saved python (level + 1) v := saves_list

/-- A record inside a section. -/
theorem saved_record {entries : Assoc PyStr (PyJson F)} :
    Saved python 2 (.dict entries) ↔ Entries (Saved python 3) entries :=
  saved_dict.trans (and_iff_right python.limits.three_le_save)

theorem entries_filter {P : PyJson F → Prop} {m : Assoc PyStr (PyJson F)}
    (h : Entries P m) (p : PyStr × PyJson F → Bool) :
    Entries P (m.filter p) := fun e he => h e (List.mem_of_mem_filter he)

/-! ## Models -/

theorem others_set {m : Assoc PyStr (PyJson F)} (p : PyStr → Bool) {k : PyStr}
    (hk : p k = true) (v : PyJson F) :
    (m.set k v).eraseWhere p = m.eraseWhere p := by
  induction m with
  | nil => simp [Assoc.set, Assoc.eraseWhere, hk]
  | cons e m ih =>
      obtain ⟨k', v'⟩ := e
      rw [Assoc.set]
      split
      · next h =>
          subst h
          simp [Assoc.eraseWhere, hk]
      · rw [Assoc.eraseWhere, Assoc.eraseWhere] at ih ⊢
        rw [List.filter_cons, List.filter_cons, ih]

@[simp] theorem others_setRides (m : ReadModel F) (slot : Slot)
    (rs : Assoc PyStr (PyJson F)) (h : (.dict rs : PyJson F).Keyed) :
    (m.setRides slot rs h).others = m.others :=
  others_set _ (by cases slot <;> decide) _

@[simp] theorem others_setLastEvents (m : ReadModel F)
    (items : List (PyJson F)) (h : (.list items : PyJson F).Keyed) :
    (m.setLastEvents items h).others = m.others :=
  others_set _ (by decide) _

theorem saved_iff (m : ReadModel F) : Saved python 0 m.json ↔
    SectionsSaved python m ∧ ∀ v ∈ m.lastEvents, Saved python 2 v := by
  have hlimit := python.limits.three_le_save
  have hrides : ∀ slot, Saved python 1 (.dict (m.rides slot)) ↔
      Entries (Saved python 2) (m.rides slot) := fun slot =>
    saved_dict.trans (and_iff_right (by omega))
  have hlast : Saved python 1 (.list m.lastEvents) ↔
      ∀ v ∈ m.lastEvents, Saved python 2 v :=
    saved_list.trans (and_iff_right (by omega))
  rw [ReadModel.json, saved_dict, and_iff_right (by omega),
    entries_iff m.keyed.1, SectionsSaved, ReadModel.others,
    entries_iff (m.keyed.1.eraseWhere _)]
  simp only [Assoc.get?_eraseWhere]
  constructor
  · intro h
    refine ⟨⟨fun k v hv => ?_, fun slot => ?_⟩, ?_⟩
    · split at hv
      · cases hv
      · exact h k v hv
    · exact (hrides slot).mp (h _ _ (m.rides_eq slot)).2
    · exact hlast.mp (h _ _ m.lastEvents_eq).2
  · rintro ⟨⟨ho, hr⟩, hl⟩ k v hv
    by_cases hk : ReadModel.sectionKeys.contains k = true
    · have hsection : ∀ slot, k = sectionOf slot →
          Encodable k ∧ Saved python 1 v := by
        rintro slot rfl
        rw [m.rides_eq] at hv
        cases hv
        refine ⟨?_, (hrides slot).mpr (hr slot)⟩
        cases slot <;> decide
      simp only [ReadModel.sectionKeys, List.contains_iff_mem, List.mem_cons,
        List.not_mem_nil, or_false] at hk
      rcases hk with hk | hk | hk | rfl
      · exact hsection _ hk
      · exact hsection _ hk
      · exact hsection _ hk
      · rw [m.lastEvents_eq] at hv
        cases hv
        exact ⟨by decide, hlast.mpr hl⟩
    · exact ho k v (by rw [if_neg hk, hv])

/-! ## The operations -/

theorem sectionsSaved_setRides (m : ReadModel F) (slot : Slot)
    (rs : Assoc PyStr (PyJson F)) (h : (.dict rs : PyJson F).Keyed) :
    SectionsSaved python (m.setRides slot rs h) ↔
      Entries (Saved python 1) m.others ∧ Entries (Saved python 2) rs ∧
        ∀ slot' ≠ slot, Entries (Saved python 2) (m.rides slot') := by
  rw [SectionsSaved, others_setRides]
  exact and_congr_right fun _ =>
    Function.forall_update_iff m.rides fun _ rs => Entries (Saved python 2) rs

/-- A ride that is put in a section replaces the one of its id there. -/
theorem sectionsSaved_put (m : ReadModel F) (slot : Slot) {rideId : PyStr}
    {ride : PyJson F} (h : ride.Keyed) :
    SectionsSaved python (m.put slot rideId ride h) ↔
      (Encodable rideId ∧ Saved python 2 ride) ∧
        SectionsSaved python (m.drop slot rideId) := by
  rw [ReadModel.put, ReadModel.drop, sectionsSaved_setRides,
    sectionsSaved_setRides, entries_set (m.keyed_rides slot).1]
  tauto

/-- A ride that is put in one section while another loses it. -/
theorem sectionsSaved_put_drop (m : ReadModel F) {slot slot' : Slot}
    (hne : slot ≠ slot') {rideId : PyStr} {ride : PyJson F} (h : ride.Keyed) :
    SectionsSaved python ((m.put slot rideId ride h).drop slot' rideId) ↔
      (Encodable rideId ∧ Saved python 2 ride) ∧
        SectionsSaved python ((m.drop slot rideId).drop slot' rideId) := by
  have hput : (m.put slot rideId ride h).rides =
      Function.update m.rides slot ((m.rides slot).set rideId ride) := rfl
  have hdrop : (m.drop slot rideId).rides =
      Function.update m.rides slot ((m.rides slot).erase rideId) := rfl
  have hothers : (m.put slot rideId ride h).others =
      (m.drop slot rideId).others := by
    rw [ReadModel.put, ReadModel.drop, others_setRides, others_setRides]
  have hset := entries_set (P := Saved python 2) (m.keyed_rides slot).1 rideId
    ride
  -- The two models differ in `slot`, and there in the one ride.
  have hsplit : ∀ (rs : Assoc PyStr (PyJson F)),
      (∀ s ≠ slot', Entries (Saved python 2) (Function.update m.rides slot rs s)) ↔
        Entries (Saved python 2) rs ∧
          ∀ s ≠ slot', s ≠ slot → Entries (Saved python 2) (m.rides s) := by
    intro rs
    constructor
    · intro hall
      refine ⟨by simpa using hall slot hne, fun s hs hs' => ?_⟩
      have := hall s hs
      rwa [Function.update_of_ne hs'] at this
    · rintro ⟨hrs, hall⟩ s hs
      by_cases hs' : s = slot
      · rw [hs', Function.update_self]
        exact hrs
      · rw [Function.update_of_ne hs']
        exact hall s hs hs'
  rw [ReadModel.drop, ReadModel.drop, sectionsSaved_setRides,
    sectionsSaved_setRides, hothers, hput, hdrop, hsplit, hsplit, hset,
    Function.update_of_ne (Ne.symm hne), Function.update_of_ne (Ne.symm hne)]
  tauto

theorem sectionsSaved_drop {m : ReadModel F} (h : SectionsSaved python m)
    (slot : Slot) (rideId : PyStr) : SectionsSaved python (m.drop slot rideId) :=
  (sectionsSaved_setRides ..).mpr
    ⟨h.1, entries_filter (h.2 slot) _, fun slot' _ => h.2 slot'⟩

theorem saved_entryOf (t : PyStr) (eventId occurredAt : PyJson F) :
    Saved python 2 (entryOf (.str t) eventId occurredAt) ↔
      Encodable t ∧ Saved python 3 eventId ∧ Saved python 3 occurredAt := by
  have htype : Saved python 3 (.str t) ↔ Encodable t :=
    saved_str.trans (and_iff_right python.limits.three_le_save)
  rw [entryOf, saved_record]
  simp only [Entries, List.forall_mem_cons, htype]
  have h1 : Encodable (py "event_type") := by decide
  have h2 : Encodable (py "event_id") := by decide
  have h3 : Encodable (py "occurred_at") := by decide
  simp [h1, h2, h3]

/-- Logging drops the oldest of twenty events. -/
theorem lastItems_concat {α : Type} (items : List α) (a : α) :
    Py.lastItems 20 (items ++ [a]) = Py.lastItems 19 items ++ [a] := by
  rw [Py.lastItems, Py.lastItems, List.length_append, List.length_singleton,
    List.drop_append_of_le_length (by omega)]
  congr 2

theorem saved_log (m : ReadModel F) {entry : PyJson F} (h : entry.Keyed) :
    Saved python 0 (m.log entry h).json ↔ SectionsSaved python m ∧
      (∀ v ∈ Py.lastItems 19 m.lastEvents, Saved python 2 v) ∧
      Saved python 2 entry := by
  rw [saved_iff, SectionsSaved, ReadModel.log, others_setLastEvents]
  show (SectionsSaved python m ∧ ∀ v ∈ Py.lastItems 20 (m.lastEvents ++ [entry]),
    Saved python 2 v) ↔ _
  rw [lastItems_concat, List.forall_mem_append, List.forall_mem_singleton]

end TaxiService.Proofs
