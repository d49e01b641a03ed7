import TaxiService.Proofs.RideUpdates
import TaxiService.Spec.Delivery

/-!
# Reprocessing an event

A ride's three slots depend on the ride's own events alone, so a list of events
is, for each ride, a word of the pipeline (`processed_slots`), and redelivery
changes the words without changing which moves occur in them. Which of them
end in the same slots is then `run_eq_iff`.
-/

namespace TaxiService.Proofs

open TaxiService.Lib TaxiService.Model TaxiService.Spec

variable {F : Type} (python : Python F)

/-- The events of one ride, moved one after the other. -/
def movesOf (events : List (RideEvent python)) (rideId : PyStr) :
    Slots PyStr (PyJson F) :=
  (events.filter fun e => e.rideId = rideId).foldl
    (fun s e => s.move e.slot e.payload.get?) .empty

theorem processed_slots (events : List (RideEvent python)) : ∃ m : ReadModel F,
    Holds python (processed python events) m ∧
      ∀ rideId, slotsAt m.json rideId = movesOf python events rideId := by
  induction events using List.reverseRecOn with
  | nil => exact ⟨.empty, .init python, fun rideId => rfl⟩
  | append_singleton events e ih =>
      obtain ⟨m, hm, hslots⟩ := ih
      obtain ⟨m', hm', hstep⟩ := hm.step e
      refine ⟨m', ?_, fun rideId => ?_⟩
      · rw [processed, run_concat]
        exact hm'
      · rw [hstep, hslots, movesOf, movesOf, List.filter_append,
          List.foldl_append]
        by_cases hi : e.rideId = rideId <;> simp [hi]

theorem slotsOf_concat (events : List (RideEvent python)) (e : RideEvent python)
    (rideId : PyStr) : slotsOf python (events ++ [e]) rideId =
      slotsOf python events rideId ++
        if e.rideId = rideId then [e.slot] else [] := by
  rw [slotsOf, slotsOf, List.filter_append, List.map_append]
  by_cases hi : e.rideId = rideId
  · simp [hi]
  · simp [hi]

/-! ## Copies -/

theorem mem_redelivered {α : Type} {events again : List α}
    (h : Redelivered events again) (e : α) : e ∈ again ↔ e ∈ events := by
  induction h with
  | same => exact Iff.rfl
  | again h he ih =>
      rw [← ih]
      simp only [List.mem_append, List.mem_cons]
      constructor
      · rintro (h | rfl | h)
        · exact .inl h
        · exact .inl he
        · exact .inr h
      · exact Or.imp_right .inr

theorem nodup_inOrderOnce {w : List Slot} (h : InOrderOnce w) : w.Nodup := by
  simp only [InOrderOnce, List.mem_cons, List.not_mem_nil, or_false] at h
  rcases h with rfl | rfl | rfl | rfl | rfl <;> decide

/-- There is one event for each ride and slot. -/
theorem payloadOf_lifecycle {clean : List (RideEvent python)}
    (hc : Lifecycle python clean) {e : RideEvent python} (he : e ∈ clean) :
    payloadOf python clean (e.rideId) e.slot = e.payload.get? := by
  rw [payloadOf]
  split
  · next e' hfind =>
      have hmem := List.mem_of_find?_eq_some hfind
      have hsame := List.find?_some hfind
      rw [decide_eq_true_eq] at hsame
      have hinj :=
        List.inj_on_of_nodup_map (nodup_inOrderOnce (hc (e.rideId)))
      rw [hinj (List.mem_filter.mpr ⟨hmem, by simpa using hsame.1⟩)
        (List.mem_filter.mpr ⟨he, by simp⟩) hsame.2]
  · next hfind =>
      have := List.find?_eq_none.mp hfind e he
      simp at this

/-- With one payload for each slot, the moves are a word. -/
theorem movesOf_eq_run {clean again : List (RideEvent python)}
    (hc : Lifecycle python clean) (hmem : ∀ e ∈ again, e ∈ clean)
    (rideId : PyStr) : movesOf python again rideId =
      Slots.run (payloadOf python clean rideId)
        (slotsOf python again rideId) := by
  rw [movesOf, Slots.run, slotsOf, List.foldl_map]
  refine List.foldl_ext _ _ _ fun s e he => ?_
  rw [List.mem_filter, decide_eq_true_eq] at he
  rw [← he.2, payloadOf_lifecycle python hc (hmem e he.1)]

/-- Processing a redelivered list leaves the maps of the list it was made from
exactly when every ride's repetitions are absorbed. -/
theorem sameMaps_iff_absorbed {clean again : List (RideEvent python)}
    (hc : Lifecycle python clean) (hr : Redelivered clean again) : ∃ m m',
    loaded python (processed python clean) = .ok m ∧
    loaded python (processed python again) = .ok m' ∧
    (SameMaps m m' ↔ ∀ rideId, Absorbed (payloadOf python clean rideId)
      (slotsOf python again rideId)) := by
  obtain ⟨m, hm, hslots⟩ := processed_slots python clean
  obtain ⟨m', hm', hslots'⟩ := processed_slots python again
  refine ⟨m.json, m'.json, hm.loads, hm'.loads, ?_⟩
  refine forall_congr' fun rideId => ?_
  have hmem : ∀ slot, slot ∈ slotsOf python again rideId ↔
      slot ∈ slotsOf python clean rideId := fun slot => by
    simp only [slotsOf, List.mem_map, List.mem_filter, mem_redelivered hr]
  rw [hslots, hslots', movesOf_eq_run python hc (fun _ h => h),
    movesOf_eq_run python hc (fun e => (mem_redelivered hr e).mp), eq_comm]
  exact run_eq_iff (hc rideId) hmem

/-! ## A redelivered acceptance -/

/-- The ride of `test_events.py` is created. -/
def created : RideEvent Python.ascii :=
  .make .opened [(py "ride_id", .int 100), (py "user_id", .int 1),
    (py "from_address", .str (py "MAI")),
    (py "to_address", .str (py "Sokol metro station")),
    (py "status", .str (py "active"))] (.int 100) rfl
    ⟨show List.Nodup [py "ride_id", py "user_id", py "from_address",
      py "to_address", py "status"] by decide, trivial, trivial, trivial,
      trivial, trivial, trivial⟩ (by decide) (by decide) 1710000000000
    (py "2026-05-25T10:00:00+00:00") (by decide)

/-- It is accepted. -/
def accepted : RideEvent Python.ascii :=
  .make .taken [(py "ride_id", .int 100), (py "driver_id", .int 10),
    (py "status", .str (py "accepted"))] (.int 100) rfl
    ⟨show List.Nodup [py "ride_id", py "driver_id", py "status"] by decide,
      trivial, trivial, trivial, trivial⟩ (by decide) (by decide) 1710000060000
    (py "2026-05-25T10:01:00+00:00") (by decide)

theorem lifecycle_accepted : Lifecycle Python.ascii [created, accepted] := by
  intro rideId
  have hc : created.rideId = py "100" := by decide
  have ha : accepted.rideId = py "100" := by decide
  by_cases hi : py "100" = rideId
  · simp [slotsOf, hc, ha, hi]
    decide
  · simp [slotsOf, hc, ha, hi]
    decide

theorem sameMaps_iff_absorbed_created : ∃ m m',
    loaded Python.ascii (processed Python.ascii [created, accepted]) = .ok m ∧
    loaded Python.ascii (processed Python.ascii [created, created, accepted]) =
      .ok m' ∧
    (SameMaps m m' ↔ ∀ rideId,
      Absorbed (payloadOf Python.ascii [created, accepted] rideId)
        (slotsOf Python.ascii [created, created, accepted] rideId)) :=
  sameMaps_iff_absorbed Python.ascii lifecycle_accepted
    (.again (l := [created]) .same List.mem_cons_self)

/-- The second copy finds no active ride, and the passenger and the addresses
are gone. -/
theorem accepted_twice_loses_fields :
    Lifecycle Python.ascii [created, accepted] ∧
    Redelivered [created, accepted] [created, accepted, accepted] ∧ ∃ m m',
    loaded Python.ascii (processed Python.ascii [created, accepted]) = .ok m ∧
    loaded Python.ascii
      (processed Python.ascii [created, accepted, accepted]) = .ok m' ∧
    ¬ SameMaps m m' := by
  have hagain : Redelivered [created, accepted] [created, accepted, accepted] :=
    .again (l := [created, accepted]) .same (by simp)
  obtain ⟨m, hm, hslots⟩ :=
    processed_slots Python.ascii [created, accepted]
  obtain ⟨m', hm', hslots'⟩ :=
    processed_slots Python.ascii [created, accepted, accepted]
  refine ⟨lifecycle_accepted, hagain, m.json, m'.json, hm.loads, hm'.loads,
    fun h => ?_⟩
  have hsame := h (py "100")
  rw [hslots, hslots'] at hsame
  have huser := congrArg (fun s : Slots PyStr (PyJson _) =>
    s.taken.bind fun record => record (py "user_id")) hsame
  have hlost : some (.int 1 : PyJson {t : FloatText // t.Canonical}) = none :=
    huser
  cases hlost

end TaxiService.Proofs
