import Mathlib.Data.List.Chain
import TaxiService.Proofs.Redelivery

/-!
# One section for each ride

An event puts its ride in one section and takes it out of at most one other.
Where every event continues the one before it, that one is where the ride was,
so a ride is in the section of its last event and in no other
(`Holds.record_iff`). An event that does not leaves the ride where it was and
puts it in a second section.
-/

namespace TaxiService.Proofs

open TaxiService.Lib TaxiService.Model TaxiService.Spec

variable {F : Type} (python : Python F)

theorem recordAt_slotsAt (model : PyJson F) (slot : Slot) (rideId : PyStr) :
    recordAt model slot rideId = match slot with
      | .opened => (slotsAt model rideId).opened
      | .taken => (slotsAt model rideId).taken
      | .closed => (slotsAt model rideId).closed := by
  cases slot <;> rfl

/-- Where the rides are after an event. -/
theorem Holds.step_isSome {disk : Option (List UInt8)} {m : ReadModel F}
    (h : Holds python disk m) (e : RideEvent python) : ∃ m' : ReadModel F,
    Holds python (afterUpdate python disk e) m' ∧ ∀ slot rideId,
      (recordAt m'.json slot rideId).isSome =
        if e.rideId = rideId then
          if slot = e.slot then true
          else if some slot = sourceOf e.slot then false
          else (recordAt m.json slot rideId).isSome
        else (recordAt m.json slot rideId).isSome := by
  obtain ⟨m', hm', hslots⟩ := h.step e
  refine ⟨m', hm', fun slot rideId => ?_⟩
  rw [recordAt_slotsAt, recordAt_slotsAt, hslots]
  by_cases hi : e.rideId = rideId
  · simp only [if_pos hi]
    cases e.slot <;> cases slot <;> rfl
  · simp only [if_neg hi]

/-- A completed ride stays completed. -/
theorem Holds.closed_stays {disk : Option (List UInt8)} {m : ReadModel F}
    (h : Holds python disk m) {rideId : PyStr}
    (hc : (recordAt m.json .closed rideId).isSome) (es : List (RideEvent python)) :
    ∃ m' : ReadModel F, Holds python (run (afterUpdate python) disk es) m' ∧
      (recordAt m'.json .closed rideId).isSome := by
  induction es generalizing disk m with
  | nil => exact ⟨m, h, hc⟩
  | cons e es ih =>
      obtain ⟨m₁, hm₁, hrecord⟩ := h.step_isSome python e
      refine ih hm₁ ?_
      rw [hrecord, hc]
      cases e.slot <;> simp [sourceOf]

theorem inTurn_concat {events : List (RideEvent python)}
    {e : RideEvent python} : InTurn python (events ++ [e]) ↔
      InTurn python events ∧ ∀ slot,
        (slotsOf python events e.rideId).getLast? = some slot →
          MovesOn slot e.slot := by
  constructor
  · intro h
    refine ⟨fun rideId => ?_, ?_⟩
    · have hchain := h rideId
      rw [slotsOf_concat] at hchain
      exact (List.isChain_append.mp hchain).1
    · have hchain := h e.rideId
      rw [slotsOf_concat, if_pos rfl] at hchain
      intro slot hslot
      exact (List.isChain_append.mp hchain).2.2 slot hslot e.slot rfl
  · rintro ⟨hevents, hlast⟩ rideId
    rw [slotsOf_concat]
    split
    · next hi =>
        subst hi
        refine List.isChain_append.mpr
          ⟨hevents _, List.isChain_singleton _, fun slot hslot slot' h => ?_⟩
        cases h
        exact hlast slot hslot
    · rw [List.append_nil]
      exact hevents rideId

/-- A ride is in the section of its last event, and in no other. -/
theorem Holds.record_iff {events : List (RideEvent python)}
    (h : InTurn python events) {m : ReadModel F}
    (hm : Holds python (processed python events) m) (slot : Slot)
    (rideId : PyStr) : (recordAt m.json slot rideId).isSome = true ↔
      (slotsOf python events rideId).getLast? = some slot := by
  induction events using List.reverseRecOn generalizing m slot rideId with
  | nil =>
      have hempty : m.json = ReadModel.empty.json :=
        Except.ok.inj (hm.loads.symm.trans (Holds.init python).loads)
      rw [hempty]
      constructor
      · intro hs
        cases slot <;> cases hs
      · intro hs
        cases hs
  | append_singleton events e ih =>
      obtain ⟨hevents, hlast⟩ := (inTurn_concat python).mp h
      obtain ⟨m₀, hm₀, -⟩ := processed_slots python events
      obtain ⟨m', hm', hrecord⟩ := hm₀.step_isSome python e
      rw [processed, run_concat] at hm
      rw [Except.ok.inj (hm.loads.symm.trans hm'.loads), hrecord,
        slotsOf_concat]
      by_cases hi : e.rideId = rideId
      · subst hi
        simp only [if_pos, List.getLast?_concat, Option.some.injEq]
        by_cases hslot : slot = e.slot
        · simp [hslot]
        · rw [if_neg hslot]
          split
          · simp [Ne.symm hslot]
          · next hsource =>
              refine ⟨fun hs => ?_, fun hs => absurd hs.symm hslot⟩
              -- The ride was in this section, so the event continues it.
              rcases hlast slot ((ih hevents hm₀ slot _).mp hs) with hc | hc
              · exact hc
              · exact absurd hc.symm hsource
      · rw [if_neg hi, if_neg hi, List.append_nil]
        exact ih hevents hm₀ slot rideId

theorem exclusive_of_inTurn {events : List (RideEvent python)}
    (h : InTurn python events) : ∃ m : ReadModel F,
      Holds python (processed python events) m ∧ Exclusive m.json := by
  obtain ⟨m, hm, -⟩ := processed_slots python events
  refine ⟨m, hm, fun rideId slot slot' hs hs' => ?_⟩
  have hlast := (hm.record_iff python h slot rideId).mp hs
  have hlast' := (hm.record_iff python h slot' rideId).mp hs'
  exact Option.some.inj (hlast.symm.trans hlast')

theorem InTurn.take {events : List (RideEvent python)}
    (h : InTurn python events) (n : Nat) : InTurn python (events.take n) := by
  intro rideId
  have hchain := h rideId
  rw [← List.take_append_drop n events, slotsOf, List.filter_append,
    List.map_append] at hchain
  exact (List.isChain_append.mp hchain).1

/-- If no ride is ever in two sections, every event continues the one
before. -/
theorem inTurn_of_exclusive {events : List (RideEvent python)}
    (h : ∀ n m, loaded python (processed python (events.take n)) = .ok m →
      Exclusive m) : InTurn python events := by
  induction events using List.reverseRecOn with
  | nil => exact fun rideId => List.isChain_nil
  | append_singleton events e ih =>
      have hevents : InTurn python events := by
        refine ih fun n m hm => h (min n events.length) m ?_
        rw [List.take_append_of_le_length (Nat.min_le_right _ _),
          ← List.take_eq_take_min]
        exact hm
      refine (inTurn_concat python).mpr ⟨hevents, fun slot hslot => ?_⟩
      obtain ⟨m, hm, -⟩ := processed_slots python events
      obtain ⟨m', hm', hrecord⟩ := hm.step_isSome python e
      have hx := h (events ++ [e]).length m'.json (by
        rw [List.take_length, processed, run_concat]
        exact hm'.loads)
      have hwas := (hm.record_iff python hevents slot e.rideId).mpr hslot
      -- Otherwise the ride stays there, and is where the event puts it too.
      by_contra hno
      rw [MovesOn, not_or] at hno
      refine hno.1 (hx e.rideId e.slot slot ?_ ?_)
      · rw [hrecord, if_pos rfl, if_pos rfl]
      · rw [hrecord, if_pos rfl, if_neg (Ne.symm hno.1),
          if_neg (Ne.symm hno.2), hwas]

/-- The sections are kept apart in every run of events in turn, and in no
other. -/
theorem separate_iff_inTurn (events : List (RideEvent python)) :
    Separate python events ↔ InTurn python events := by
  constructor
  · intro h
    exact inTurn_of_exclusive python h.exclusive
  · intro h
    have hprefix : ∀ n, ∃ m : ReadModel F,
        Holds python (processed python (events.take n)) m ∧
          Exclusive m.json := fun n =>
      exclusive_of_inTurn python (InTurn.take python h n)
    constructor
    case exclusive =>
        intro n m hm
        obtain ⟨m₀, hm₀, hx⟩ := hprefix n
        rw [Except.ok.inj (hm.symm.trans hm₀.loads)]
        exact hx
    case final =>
        intro n n' m m' rideId hn hm hm' hc slot hslot
        obtain ⟨m₀, hm₀, -⟩ := hprefix n
        obtain ⟨m₁, hm₁, hx⟩ := hprefix n'
        rw [Except.ok.inj (hm.symm.trans hm₀.loads)] at hc
        rw [Except.ok.inj (hm'.symm.trans hm₁.loads)]
        have hsplit : events.take n' =
            events.take n ++ (events.take n').drop n := by
          have := (List.take_append_drop n (events.take n')).symm
          rwa [List.take_take, Nat.min_eq_left hn] at this
        obtain ⟨m₂, hm₂, hc₂⟩ :=
          hm₀.closed_stays python hc ((events.take n').drop n)
        rw [processed, ← run_append, ← hsplit] at hm₂
        rw [Except.ok.inj (hm₂.loads.symm.trans hm₁.loads)] at hc₂
        by_contra hsome
        exact hslot (hx rideId slot .closed
          (Option.isSome_iff_ne_none.mpr hsome) hc₂)

/-- A creation that is delivered again after the acceptance. -/
theorem created_again_not_separate :
    ¬ Separate Python.ascii [created, accepted, created] := by
  intro h
  obtain ⟨m, hm, hslots⟩ :=
    processed_slots Python.ascii [created, accepted, created]
  have hx := h.exclusive 3 m.json hm.loads (py "100") .opened .taken
  rw [recordAt_slotsAt, recordAt_slotsAt, hslots] at hx
  cases hx rfl rfl

end TaxiService.Proofs
