import TaxiService.Lib.Cells
import TaxiService.Proofs.Redelivery
import TaxiService.Spec.Streams

/-!
# Streams of ride events

The entries of a ride are a cell of their own: an event moves the entries of
its ride by what they are and leaves all others (`entries_independent`). Which
other rides there are, and in what order their events come between, makes no
difference then.

On a clean stream an event finds its ride in the section it takes it out of and
in no other, so the entries stay where the last event put them.
-/

namespace TaxiService.Proofs

open TaxiService.Lib TaxiService.Model TaxiService.Spec

variable {F : Type} (python : Python F)

theorem entryAt_json (m : ReadModel F) (slot : Slot) (rideId : PyStr) :
    entryAt m.json slot rideId = (m.rides slot).get? rideId := by
  rw [entryAt, ridesOf_json]

/-! ## Rides do not interfere -/

/-- The entries of a ride in the loaded model. -/
def entriesIn (disk : Option (List UInt8)) (rideId : PyStr) (slot : Slot) :
    Option (PyJson F) :=
  match loaded python disk with
  | .ok model => entryAt model slot rideId
  | .error _ => none

theorem entriesIn_holds {disk : Option (List UInt8)} {m : ReadModel F}
    (h : Holds python disk m) (rideId : PyStr) :
    entriesIn python disk rideId = fun slot => (m.rides slot).get? rideId := by
  funext slot
  rw [entriesIn, h.loads]
  exact entryAt_json m slot rideId

theorem entries_independent : Independent (afterUpdate python)
    (fun disk => ∃ m, Holds python disk m) (entriesIn python)
    (fun e rideId => decide (e.rideId = rideId))
    (fun _ entries e => movedEntries e.slot e.payload entries) where
  keeps disk e h := by
    obtain ⟨m, hm⟩ := h
    obtain ⟨m', hm', -⟩ := hm.step e
    exact ⟨m', hm'⟩
  moves disk e rideId h := by
    obtain ⟨m, hm⟩ := h
    obtain ⟨m', -, hm', -, hentries⟩ := hm.update e
    rw [entriesIn_holds python hm, entriesIn_holds python hm']
    simp only [hentries, decide_eq_true_eq]
    split <;> rfl

theorem processed_holds (events : List (RideEvent python)) :
    ∃ m : ReadModel F, Holds python (processed python events) m := by
  obtain ⟨m, hm, -⟩ := processed_slots python events
  exact ⟨m, hm⟩

/-- Two lists with the same events for a ride leave the same entries of it. -/
theorem sameEntries {events events' : List (RideEvent python)} {rideId : PyStr}
    (h : eventsOf python events rideId = eventsOf python events' rideId)
    {m m' : ReadModel F} (hm : Holds python (processed python events) m)
    (hm' : Holds python (processed python events') m') (slot : Slot) :
    entryAt m.json slot rideId = entryAt m'.json slot rideId := by
  have hcell := (entries_independent python).cell_congr h
    ⟨.empty, Holds.init python⟩
  have hm := entriesIn_holds python hm rideId
  have hm' := entriesIn_holds python hm' rideId
  rw [entryAt_json, entryAt_json]
  exact congrFun (hm.symm.trans (hcell.trans hm')) slot

/-- What the sections have for a ride depends on the events of that ride alone,
and so the order of events of different rides makes no difference. -/
theorem rides_do_not_interfere (events : List (RideEvent python)) :
    (∀ rideId, ∃ m m', loaded python (processed python events) = .ok m ∧
      loaded python (processed python (eventsOf python events rideId)) = .ok m' ∧
      ∀ slot, entryAt m slot rideId = entryAt m' slot rideId) ∧
    ∀ events', (∀ rideId,
        eventsOf python events' rideId = eventsOf python events rideId) →
      ∃ m m', loaded python (processed python events) = .ok m ∧
        loaded python (processed python events') = .ok m' ∧
        ∀ slot rideId, entryAt m slot rideId = entryAt m' slot rideId := by
  obtain ⟨m, hm⟩ := processed_holds python events
  constructor
  · intro rideId
    obtain ⟨m', hm'⟩ := processed_holds python (eventsOf python events rideId)
    have hsame : eventsOf python (eventsOf python events rideId) rideId =
        eventsOf python events rideId := by simp [eventsOf]
    exact ⟨m.json, m'.json, hm.loads, hm'.loads,
      sameEntries python hsame.symm hm hm'⟩
  · intro events' h
    obtain ⟨m', hm'⟩ := processed_holds python events'
    exact ⟨m.json, m'.json, hm.loads, hm'.loads, fun slot rideId =>
      sameEntries python (h rideId).symm hm hm' slot⟩

/-! ## Clean streams -/

theorem lastItems_lastItems {α : Type} (n : Nat) (items : List α) (a : α) :
    Py.lastItems n (Py.lastItems n items ++ [a]) =
      Py.lastItems n (items ++ [a]) := by
  simp only [Py.lastItems, List.length_append, List.length_drop,
    List.length_singleton]
  by_cases hn : items.length ≤ n
  · rw [Nat.sub_eq_zero_of_le hn, List.drop_zero, Nat.sub_zero]
  · rw [← List.drop_append_of_le_length (by omega), List.drop_drop]
    congr 1
    omega

theorem mergedPayload_concat (events : List (RideEvent python))
    (e : RideEvent python) (rideId : PyStr) : mergedPayload python (events ++ [e]) rideId =
      if e.rideId = rideId then
        (mergedPayload python events rideId).update e.payload
      else mergedPayload python events rideId := by
  rw [mergedPayload, mergedPayload, eventsOf, List.filter_append,
    List.foldl_append]
  by_cases hi : e.rideId = rideId <;> simp [hi, eventsOf]

/-- An event that goes on in order finds its ride where the one before it put
it. -/
theorem getLast_of_orderly {w : List Slot} {slot : Slot}
    (h : w ++ [slot] <+: [.opened, .taken, .closed]) :
    w.getLast? = sourceOf slot := by
  have hlen := h.length_le
  rw [List.prefix_iff_eq_take] at h
  match w, hlen with
  | [], _ => cases h; rfl
  | [_], _ => cases h; rfl
  | [_, _], _ => cases h; rfl
  | _ :: _ :: _ :: w, hlen =>
      simp only [List.length_append, List.length_cons, List.length_nil] at hlen
      omega

theorem mergedPayload_nil {events : List (RideEvent python)} {rideId : PyStr}
    (h : (slotsOf python events rideId).getLast? = none) :
    mergedPayload python events rideId = [] := by
  rw [List.getLast?_eq_none_iff, slotsOf, List.map_eq_nil_iff] at h
  rw [mergedPayload, eventsOf, h]
  rfl

/-- The entries of a ride on its way, after its next event. -/
theorem movedEntries_orderly {slot : Slot}
    {record payload : Assoc PyStr (PyJson F)} (hp : payload.Keyed)
    (hnil : sourceOf slot = none → record = []) (slot' : Slot) :
    movedEntries slot payload (fun slot' =>
      if sourceOf slot = some slot' then some (.dict record) else none) slot' =
      if slot = slot' then some (.dict (record.update payload)) else none := by
  rw [movedEntries]
  split
  · cases hs : sourceOf slot with
    | none => rw [hnil hs, Assoc.update_nil hp]
    | some source => simp [recordOf]
  · split <;> rfl

theorem orderly_before {before after : List (RideEvent python)}
    (h : Orderly python (before ++ after)) : Orderly python before := by
  intro rideId
  refine List.IsPrefix.trans ?_ (h rideId)
  rw [slotsOf, slotsOf, List.filter_append, List.map_append]
  exact List.prefix_append _ _

/-- On a clean stream the rides are where their last events put them. -/
theorem holds_orderly {events : List (RideEvent python)}
    (h : Orderly python events) : ∃ m : ReadModel F,
    Holds python (processed python events) m ∧
    m.lastEvents = Py.lastItems 20 (events.map RideEvent.entry) ∧
    ∀ rideId slot, (m.rides slot).get? rideId =
      if (slotsOf python events rideId).getLast? = some slot then
        some (.dict (mergedPayload python events rideId))
      else none := by
  induction events using List.reverseRecOn with
  | nil => exact ⟨.empty, .init python, rfl, fun _ _ => rfl⟩
  | append_singleton events e ih =>
      obtain ⟨m, hm, hlast, hrides⟩ := ih (orderly_before python h)
      obtain ⟨m', -, hm', hlast', hrides'⟩ := hm.update e
      refine ⟨m', ?_, ?_, fun rideId slot => ?_⟩
      · rw [processed, run_concat]
        exact hm'
      · rw [hlast', hlast, lastItems_lastItems, List.map_append]
        rfl
      · have hride := h rideId
        rw [slotsOf_concat] at hride
        rw [hrides', slotsOf_concat, mergedPayload_concat]
        split
        · next hi =>
            rw [if_pos hi] at hride
            have hsource := getLast_of_orderly hride
            simp only [hrides, hsource, List.getLast?_concat,
              Option.some.injEq]
            exact movedEntries_orderly (payload_keyed e).1 (fun hs =>
              mergedPayload_nil python (hsource.trans hs)) slot
        · rw [hrides, List.append_nil]

/-- A clean stream is processed without an exception, and the model is what the
events of each ride come to. -/
theorem processes_orderly (events : List (RideEvent python))
    (h : Orderly python events) : Processes python events where
  returns before e after heq := by
    obtain ⟨m, hm⟩ := processed_holds python before
    obtain ⟨m', hrun, -⟩ := hm.update e
    rw [hrun]
  model := by
    obtain ⟨m, hm, hlast, hrides⟩ := holds_orderly python h
    refine ⟨m.json, hm.loads, fun rideId slot => ?_, ?_⟩
    · rw [entryAt_json]
      exact hrides rideId slot
    · rw [← hlast]
      exact getItem_entries m.lastEvents_eq

theorem processes_orderly_accepted :
    Processes Python.ascii [created, accepted] := by
  refine processes_orderly Python.ascii [created, accepted] fun rideId => ?_
  have hc : created.rideId = py "100" := by decide
  have ha : accepted.rideId = py "100" := by decide
  by_cases hi : py "100" = rideId
  · simp [slotsOf, hc, ha, hi]
    decide
  · simp [slotsOf, hc, ha, hi]

/-- The ride of `test_events.py` is completed. -/
def completed : RideEvent Python.ascii :=
  .make .closed [(py "ride_id", .int 100), (py "driver_id", .int 10),
    (py "user_id", .int 1), (py "status", .str (py "completed"))]
    (.int 100) rfl
    ⟨show List.Nodup [py "ride_id", py "driver_id", py "user_id",
      py "status"] by decide, trivial, trivial, trivial, trivial, trivial⟩
    (by decide) Python.ascii.limits.rideId_pos 1710000120000
    (py "2026-05-25T10:02:00+00:00") (by decide)

/-- A completion without an acceptance leaves the ride among the active ones,
and its record has nothing of the creation. -/
theorem completed_unaccepted_not_projected :
    Lifecycle Python.ascii [created, completed] ∧
    ¬ Processes Python.ascii [created, completed] := by
  have hc : created.rideId = py "100" := by decide
  have ha : completed.rideId = py "100" := by decide
  refine ⟨fun rideId => ?_, fun h => ?_⟩
  · by_cases hi : py "100" = rideId
    · simp [slotsOf, hc, ha, hi]
      decide
    · simp [slotsOf, hc, ha, hi]
      decide
  · obtain ⟨model, hload, hmodel⟩ := h.model
    obtain ⟨m, hm, hslots⟩ :=
      processed_slots Python.ascii [created, completed]
    cases hload.symm.trans hm.loads
    have hnone := hmodel.rides (py "100") .opened
    rw [if_neg (by decide)] at hnone
    have hsome := congrArg Slots.opened (hslots (py "100"))
    change (entryAt m.json .opened (py "100")).map fieldsOf = some _ at hsome
    rw [hnone] at hsome
    cases hsome

end TaxiService.Proofs
