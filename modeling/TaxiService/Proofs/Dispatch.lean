import TaxiService.Proofs.StorageSpec
import TaxiService.Spec.Dispatch

/-!
# The storage calls move the board

Every call is one step of the board, and it keeps the tables in agreement
with it. The argument is a case split over `Change`. The one case with
something in it is the end of a ride: the driver is set online without
looking at `rides`, and that is right only because no other ride can be
assigned to the same driver.
-/

namespace TaxiService.Spec

open TaxiService.Lib TaxiService.Model

/-! ## Reading a stage -/

theorem stage_posted_iff {row : RideRow} : stage row = some .posted ↔
    row.status = .searching ∧ row.driverId = none ∧ row.completedAt = none := by
  rcases row with ⟨i, p, d, pa, da, st, cr, co⟩
  cases st <;> cases d <;> cases co <;> simp [stage]

theorem stage_assigned_iff {row : RideRow} {w : Int} :
    stage row = some (.assigned w) ↔ row.status = .accepted ∧
      row.driverId = some w ∧ row.completedAt = none := by
  rcases row with ⟨i, p, d, pa, da, st, cr, co⟩
  cases st <;> cases d <;> cases co <;> simp [stage]

theorem stage_closed_iff {row : RideRow} {w : Int} :
    stage row = some (.closed w) ↔ row.status = .completed ∧
      row.driverId = some w ∧ row.completedAt.isSome := by
  rcases row with ⟨i, p, d, pa, da, st, cr, co⟩
  cases st <;> cases d <;> cases co <;> simp [stage]

theorem view_stage {db : Db} {k : Int} {row : RideRow}
    (h : db.rides.find? k = some row) : (view db).stage k = stage row := by
  simp [view, h]

theorem view_stage_some {db : Db} {k : Int} {s : Stage Int}
    (h : (view db).stage k = some s) :
    ∃ row, db.rides.find? k = some row ∧ stage row = some s :=
  Option.bind_eq_some_iff.mp h

theorem stage_setAccepted (row : RideRow) (d : Int)
    (h : row.completedAt = none) :
    stage (row.setAccepted d) = some (.assigned d) :=
  stage_assigned_iff.mpr ⟨rfl, rfl, h⟩

theorem stage_setCompleted {row : RideRow} {d : Int} (now : Timestamp)
    (h : row.driverId = some d) :
    stage (row.setCompleted now) = some (.closed d) :=
  stage_closed_iff.mpr ⟨rfl, h, rfl⟩

/-- A shaped row whose status is known has the stage of that status. -/
theorem stage_of_searching {row : RideRow} (h : (stage row).isSome)
    (hs : row.status = .searching) : stage row = some .posted := by
  rcases row with ⟨i, p, d, pa, da, st, cr, co⟩
  cases hs
  cases d <;> cases co <;> simp [stage] at h ⊢

theorem stage_of_accepted {row : RideRow} (h : (stage row).isSome)
    (hs : row.status = .accepted) :
    ∃ d, stage row = some (.assigned d) ∧ row.driverId = some d := by
  rcases row with ⟨i, p, d, pa, da, st, cr, co⟩
  cases hs
  cases d <;> cases co <;> simp [stage] at h ⊢

/-! ## The board after each kind of change -/

theorem view_congr {db db' : Db} (hd : db'.drivers = db.drivers)
    (hr : db'.rides = db.rides) : view db' = view db := by
  rw [view, view, hd, hr]

theorem view_driver {db db' : Db} {row : DriverRow}
    (hins : db.drivers.insert? row = some db'.drivers)
    (hr : db'.rides = db.rides) :
    view db' = { view db with workers := insert row.id (view db).workers } := by
  refine Board.ext ?_ ?_
  · rw [view, view, hr]
  · ext k
    simp only [view, Table.find?_insert hins, Set.mem_ofPred_eq,
      Set.mem_insert_iff]
    by_cases hk : row.id = k
    · simp [hk]
    · rw [if_neg hk]
      exact ⟨Or.inr, fun h => h.resolve_left (fun e => hk e.symm)⟩

theorem view_ride {db db' : Db} {row : RideRow} {s : Stage Int}
    (hs : stage row = some s) (hins : db.rides.insert? row = some db'.rides)
    (hd : db'.drivers = db.drivers) :
    view db' = (view db).put row.id s := by
  refine Board.ext ?_ ?_
  · funext k
    rw [Board.put_stage]
    simp only [view, Table.find?_insert hins, eq_comm (a := row.id)]
    split
    · exact hs
    · rfl
  · simp only [view, Board.put, hd]

/-- Replacing a ride row moves that ride to the stage of the new version, as
long as no driver comes or goes. -/
theorem view_replace {db db' : Db} {old : RideRow} (row : RideRow)
    {s : Stage Int}
    (hold : db.rides.find? row.id = some old) (hs : stage row = some s)
    (hr : db'.rides = db.rides.replace row)
    (hd : ∀ k, (db'.drivers.find? k).isSome = (db.drivers.find? k).isSome) :
    view db' = (view db).put row.id s := by
  refine Board.ext ?_ ?_
  · funext k
    rw [Board.put_stage]
    simp only [view, hr, Table.find?_replace, eq_comm (a := row.id)]
    split
    · next hk => rw [hk, hold, Option.map_some, Option.bind_some, hs]
    · rfl
  · simp only [view, Board.put, hd]

/-! ## The step lemma -/

theorem view_empty : view Db.empty = Board.empty := by
  refine Board.ext rfl ?_
  ext k
  simp [view, Db.empty, Board.empty]

theorem Dispatched.empty : Dispatched Db.empty where
  shaped h := by cases h
  known h := by cases h
  busy h := by cases h
  positive h := by cases h
  exclusive := by rw [view_empty]; exact Board.exclusive_empty
  staffed := by rw [view_empty]; exact Board.staffed_empty

theorem Dispatched.congr {db db' : Db} (h : Dispatched db)
    (hd : db'.drivers = db.drivers) (hr : db'.rides = db.rides) :
    Dispatched db' where
  shaped hk := h.shaped (hr ▸ hk)
  known hk := h.known (hd ▸ hk)
  busy hk := by
    rw [view_congr hd hr]
    exact h.busy (hd ▸ hk)
  positive hk := h.positive (hd ▸ hk)
  exclusive := by rw [view_congr hd hr]; exact h.exclusive
  staffed := by rw [view_congr hd hr]; exact h.staffed

/-- The ride rows keep a shape when the new ones have one. -/
theorem Dispatched.shaped_replace {db db' : Db} (h : Dispatched db)
    {row : RideRow} {s : Stage Int} (hs : stage row = some s)
    (hr : db'.rides = db.rides.replace row) {k : Int} {r : RideRow}
    (hk : db'.rides.find? k = some r) : (stage r).isSome := by
  rw [hr, Table.find?_replace] at hk
  split at hk
  · obtain ⟨_, _, rfl⟩ := Option.map_eq_some_iff.mp hk
    rw [hs]; rfl
  · exact h.shaped hk

/-- A driver who is new is free, for nobody can have assigned a ride to a
driver that was not there. -/
theorem Dispatched.hire {db db' : Db} (h : Dispatched db) {row : DriverRow}
    (hon : row.status = .online) (hpos : 0 < row.id)
    (hins : db.drivers.insert? row = some db'.drivers)
    (hr : db'.rides = db.rides) :
    Dispatched db' ∧ Board.Step (view db) (view db') := by
  have hview := view_driver hins hr
  have hstep : Board.Step (view db) (view db') := by
    rw [hview]; exact .hire row.id
  have hfree : (view db).Free row.id := by
    intro j hj
    have hmem := h.staffed j _ _ hj rfl
    simp [view, Table.insert?_fresh hins] at hmem
  refine ⟨⟨fun hk => h.shaped (hr ▸ hk), ?_, ?_, ?_,
    hstep.exclusive h.exclusive, hstep.staffed h.staffed⟩, hstep⟩
  · intro k drv hk
    rw [Table.find?_insert hins] at hk
    split at hk
    · cases hk; exact .inr hon
    · exact h.known hk
  · intro k drv hk
    rw [Table.find?_insert hins] at hk
    simp only [hview]
    split at hk
    · next he =>
        cases hk
        subst he
        simp [hon, Board.Free] at hfree ⊢
        exact hfree
    · exact h.busy hk
  · intro k drv hk
    rw [Table.find?_insert hins] at hk
    split at hk
    · next he => rw [← he]; exact hpos
    · exact h.positive hk

theorem Dispatched.post {db db' : Db} (h : Dispatched db) {row : RideRow}
    (hst : stage row = some .posted)
    (hins : db.rides.insert? row = some db'.rides)
    (hd : db'.drivers = db.drivers) :
    Dispatched db' ∧ Board.Step (view db) (view db') := by
  have hview := view_ride hst hins hd
  have hfresh : (view db).stage row.id = none := by
    simp [view, Table.insert?_fresh hins]
  have hstep : Board.Step (view db) (view db') := by
    rw [hview]; exact .post hfresh
  refine ⟨⟨?_, fun hk => h.known (hd ▸ hk), ?_,
    fun hk => h.positive (hd ▸ hk), hstep.exclusive h.exclusive,
    hstep.staffed h.staffed⟩, hstep⟩
  · intro k r hk
    rw [Table.find?_insert hins] at hk
    split at hk
    · cases hk; rw [hst]; rfl
    · exact h.shaped hk
  · intro k drv hk
    rw [h.busy (hd ▸ hk), hview, not_iff_not]
    exact (Board.free_put (by simp [hfresh]) (by simp)).symm

/-- The two transactions replace a ride and a driver. What is to be checked is
the driver's new status; the ride has been and will be assigned to no other. -/
theorem Dispatched.replaced {db db' : Db} (h : Dispatched db)
    {drv : DriverRow} (drv' : DriverRow) {ride : RideRow} (row : RideRow)
    {s : Stage Int} (hdrv : db.drivers.find? drv'.id = some drv)
    (hd : db'.drivers = db.drivers.replace drv')
    (hride : db.rides.find? row.id = some ride) (hst : stage row = some s)
    (hr : db'.rides = db.rides.replace row)
    (hstep : Board.Step (view db) ((view db).put row.id s))
    (hknown : drv'.status = .busy ∨ drv'.status = .online)
    (hbusy : drv'.status = .busy ↔ ¬ ((view db).put row.id s).Free drv'.id)
    (hothers : ∀ w, drv'.id ≠ w →
      (view db).stage row.id ≠ some (.assigned w) ∧ s ≠ .assigned w) :
    Dispatched db' ∧ Board.Step (view db) (view db') := by
  have hfind : ∀ k, db'.drivers.find? k =
      if drv'.id = k then some drv' else db.drivers.find? k := by
    intro k
    rw [hd, Table.find?_replace_some hdrv]
  have hview : view db' = (view db).put row.id s := by
    refine view_replace row hride hst hr fun k => ?_
    rw [hfind]
    split
    · next he => rw [← he, hdrv]; rfl
    · rfl
  rw [hview]
  refine ⟨⟨h.shaped_replace hst hr, ?_, ?_, ?_,
    hview ▸ hstep.exclusive h.exclusive, hview ▸ hstep.staffed h.staffed⟩, hstep⟩
  · intro k d hk
    rw [hfind] at hk
    split at hk
    · cases hk; exact hknown
    · exact h.known hk
  · intro k d hk
    rw [hfind] at hk
    rw [hview]
    split at hk
    · next he =>
        cases hk
        subst he
        exact hbusy
    · next he =>
        obtain ⟨hold, hnew⟩ := hothers k he
        rw [h.busy hk, Board.free_put hold hnew]
  · intro k d hk
    rw [hfind] at hk
    split at hk
    · next he => rw [← he]; exact h.positive hdrv
    · exact h.positive hk

/-- A driver who is online is free, and so may take the ride. -/
theorem Dispatched.accept {db db' : Db} (h : Dispatched db) {drv : DriverRow}
    {ride : RideRow} (hdrv : db.drivers.find? drv.id = some drv)
    (hon : drv.status = .online)
    (hride : db.rides.find? ride.id = some ride) (hs : ride.status = .searching)
    (hd : db'.drivers = db.drivers.replace drv.setBusy)
    (hr : db'.rides = db.rides.replace (ride.setAccepted drv.id)) :
    Dispatched db' ∧ Board.Step (view db) (view db') := by
  have hpost := stage_of_searching (h.shaped hride) hs
  have hold := (view_stage hride).trans hpost
  have hfree : (view db).Free drv.id := by
    by_contra hbusy
    rw [(h.busy hdrv).mpr hbusy] at hon
    cases hon
  refine h.replaced drv.setBusy (ride.setAccepted drv.id) hdrv hd hride
    (stage_setAccepted ride drv.id (stage_posted_iff.mp hpost).2.2) hr
    (.take hold (by simp [view, hdrv]) hfree) (.inl rfl) ?_ fun w hw => ?_
  · refine iff_of_true rfl fun hf => hf ride.id ?_
    exact (Board.put_stage ..).trans (if_pos rfl)
  · constructor
    · intro hj
      cases hold.symm.trans hj
    · intro hj
      cases hj
      exact hw rfl

/-- The ride that ends was the only one its driver had. -/
theorem Dispatched.complete {db db' : Db} (h : Dispatched db) {ride : RideRow}
    (now : Timestamp) (hride : db.rides.find? ride.id = some ride)
    (hs : ride.status = .accepted)
    (hd : db'.drivers = match db.drivers.find? (ride.driverId.getD 0) with
      | some drv => db.drivers.replace drv.setOnline
      | none => db.drivers)
    (hr : db'.rides = db.rides.replace (ride.setCompleted now)) :
    Dispatched db' ∧ Board.Step (view db) (view db') := by
  obtain ⟨w, hassigned, hdrvId⟩ := stage_of_accepted (h.shaped hride) hs
  have hold : (view db).stage ride.id = some (.assigned w) :=
    (view_stage hride).trans hassigned
  obtain ⟨drv, hdrv⟩ : ∃ drv, db.drivers.find? w = some drv :=
    Option.isSome_iff_exists.mp (h.staffed _ _ _ hold rfl)
  obtain rfl : drv.id = w := Table.find?_key hdrv
  rw [hdrvId, Option.getD_some, hdrv] at hd
  refine h.replaced drv.setOnline (ride.setCompleted now) hdrv hd hride
    (stage_setCompleted now hdrvId) hr (.close hold) (.inr rfl) ?_
    fun w hw => ?_
  · refine iff_of_false (by simp [DriverRow.setOnline]) ?_
    rw [not_not]
    intro j hj
    rw [Board.put_stage] at hj
    split at hj
    · cases hj
    · next hne => exact hne (h.exclusive _ _ _ hj hold)
  · refine ⟨fun hj => ?_, by simp⟩
    cases hold.symm.trans hj
    exact hw rfl

/-- A call keeps the tables in agreement with the board and is one step of
it. -/
theorem Dispatched.change {db : Db} (h : Dispatched db) {res : Option Ride × Db}
    (hc : Change db res) :
    Dispatched res.2 ∧ Board.Step (view db) (view res.2) := by
  cases hc with
  | none hsame =>
      obtain ⟨_, hd, hr⟩ := hsame
      rw [view_congr hd hr]
      exact ⟨h.congr hd hr, .stay⟩
  | user hd hr =>
      rw [view_congr hd hr]
      exact ⟨h.congr hd hr, .stay⟩
  | driver hon hpos hins hr => exact h.hire hon hpos hins hr
  | ride hs hn hc hins hd =>
      exact h.post (stage_posted_iff.mpr ⟨hs, hn, hc⟩) hins hd
  | accept hdrv hon hride hs hd hr => exact h.accept hdrv hon hride hs hd hr
  | complete now hride hs hd hr => exact h.complete now hride hs hd hr

theorem Dispatched.apply {db : Db} (h : Dispatched db) (op : StorageOp) :
    Dispatched (op.apply db) := (h.change (exec_change db op)).1

theorem Dispatched.step {db : Db} (h : Dispatched db) (op : StorageOp) :
    Board.Step (view db) (view (op.apply db)) :=
  (h.change (exec_change db op)).2

/-- Every reachable database records its board. -/
theorem dispatched_reach (ops : List StorageOp) : Dispatched (reach ops) :=
  run_induction (fun _ op h => h.apply op) .empty

end TaxiService.Spec
