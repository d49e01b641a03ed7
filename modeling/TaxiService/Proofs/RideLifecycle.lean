import TaxiService.Proofs.Dispatch

/-!
# Drivers and rides over whole runs

What the board gives the two tables. `drivers.status` is the free-or-not of
the board, so it says whether the driver has an accepted ride, and no driver
has two. A ride row moves the way its stage does: forward, one place at a
time, with its driver named once and for all. The columns the board does not
see (the passenger, the addresses, the creation time) are followed here, row
by row, through `Change`.
-/

namespace TaxiService.Proofs

open TaxiService.Lib TaxiService.Model TaxiService.Spec

/-! ## Drivers -/

/-- The ride is accepted and this is its driver. -/
def Serves (driverId : Int) (row : RideRow) : Prop :=
  row.status = .accepted ∧ row.driverId = some driverId

theorem serves_iff {db : Db} (h : Dispatched db) {k w : Int} {row : RideRow}
    (hk : db.rides.find? k = some row) :
    Serves w row ↔ (view db).stage k = some (.assigned w) := by
  rw [view_stage hk, stage_assigned_iff]
  constructor
  · rintro ⟨hs, hd⟩
    obtain ⟨w', hst, _⟩ := stage_of_accepted (h.shaped hk) hs
    exact ⟨hs, hd, (stage_assigned_iff.mp hst).2.2⟩
  · rintro ⟨hs, hd, _⟩
    exact ⟨hs, hd⟩

theorem serves_unique {db : Db} (h : Dispatched db) {w : Int}
    {r r' : RideRow} (hr : r ∈ db.rides.rows) (hr' : r' ∈ db.rides.rows)
    (hs : Serves w r) (hs' : Serves w r') : r = r' := by
  have hk := Table.find?_mem hr
  have hk' := Table.find?_mem hr'
  have hid := h.exclusive _ _ w ((serves_iff h hk).mp hs)
    ((serves_iff h hk').mp hs')
  rw [hid, hk'] at hk
  exact (Option.some.inj hk).symm

theorem not_free_iff {db : Db} (h : Dispatched db) {w : Int} :
    ¬ (view db).Free w ↔ ∃ r ∈ db.rides.rows, Serves w r := by
  simp only [Board.Free, not_forall, not_not]
  constructor
  · rintro ⟨k, hk⟩
    obtain ⟨row, hrow, _⟩ := view_stage_some hk
    exact ⟨row, (Table.find?_some_iff.mp hrow).1, (serves_iff h hrow).mpr hk⟩
  · rintro ⟨r, hr, hs⟩
    exact ⟨r.id, (serves_iff h (Table.find?_mem hr)).mp hs⟩

/-- In every reachable database a driver is busy exactly when one accepted
ride is theirs, online exactly when none is, and no two accepted rides have
the same driver. -/
theorem driver_busy_iff_serves (ops : List StorageOp) :
    (∀ drv ∈ (reach ops).drivers.rows,
      (drv.status = .busy ↔
        ∃! r, r ∈ (reach ops).rides.rows ∧ Serves drv.id r) ∧
      (drv.status = .online ↔
        ¬ ∃ r, r ∈ (reach ops).rides.rows ∧ Serves drv.id r)) ∧
    ∀ w, ∀ r ∈ (reach ops).rides.rows, ∀ r' ∈ (reach ops).rides.rows,
      Serves w r → Serves w r' → r = r' := by
  have h := dispatched_reach ops
  refine ⟨fun drv hdrv => ?_, fun w r hr r' hr' => serves_unique h hr hr'⟩
  have hk := Table.find?_mem hdrv
  have hbusy : drv.status = .busy ↔
      ∃ r, r ∈ (reach ops).rides.rows ∧ Serves drv.id r := by
    rw [h.busy hk, not_free_iff h]
  refine ⟨?_, ?_⟩
  · rw [hbusy]
    constructor
    · rintro ⟨r, hr, hs⟩
      exact ⟨r, ⟨hr, hs⟩, fun r' h' => serves_unique h h'.1 hr h'.2 hs⟩
    · rintro ⟨r, hr, _⟩
      exact ⟨r, hr⟩
  · rw [← hbusy]
    rcases h.known hk with hst | hst <;> simp [hst]

/-! ## Rides -/

/-- The columns no statement assigns. -/
def SameRequest (r r' : RideRow) : Prop :=
  r'.id = r.id ∧ r'.passengerId = r.passengerId ∧
    r'.pickupAddress = r.pickupAddress ∧
    r'.destinationAddress = r.destinationAddress ∧ r'.createdAt = r.createdAt

theorem SameRequest.refl (r : RideRow) : SameRequest r r :=
  ⟨rfl, rfl, rfl, rfl, rfl⟩

theorem SameRequest.trans {r r' r'' : RideRow} (h : SameRequest r r')
    (h' : SameRequest r' r'') : SameRequest r r'' :=
  ⟨h'.1.trans h.1, h'.2.1.trans h.2.1, h'.2.2.1.trans h.2.2.1,
    h'.2.2.2.1.trans h.2.2.2.1, h'.2.2.2.2.trans h.2.2.2.2⟩

/-- The lifecycle of `rides.status`. -/
inductive StatusStep : RideStatus → RideStatus → Prop where
  | same (s : RideStatus) : StatusStep s s
  | accept : StatusStep .searching .accepted
  | complete : StatusStep .accepted .completed

/-- The status a stage is recorded with. -/
def statusOf : Stage Int → RideStatus
  | .posted => .searching
  | .assigned _ => .accepted
  | .closed _ => .completed

theorem stage_some {row : RideRow} {s : Stage Int} (h : stage row = some s) :
    row.status = statusOf s ∧ row.driverId = s.worker? ∧
      (row.completedAt.isSome ↔ row.status = .completed) := by
  cases s with
  | posted =>
      obtain ⟨hs, hd, hc⟩ := stage_posted_iff.mp h
      exact ⟨hs, hd, by simp [hs, hc]⟩
  | assigned w =>
      obtain ⟨hs, hd, hc⟩ := stage_assigned_iff.mp h
      exact ⟨hs, hd, by simp [hs, hc]⟩
  | closed w =>
      obtain ⟨hs, hd, hc⟩ := stage_closed_iff.mp h
      exact ⟨hs, hd, by simp [hs, hc]⟩

theorem statusStep_of_advance {s s' : Stage Int} (h : s.Advance s') :
    StatusStep (statusOf s) (statusOf s') := by
  cases h with
  | same _ => exact .same _
  | take w => exact .accept
  | close w => exact .complete

theorem replace_sameRequest {t : Table Int RideRow RideRow.id} {row r : RideRow}
    {k : Int} (new : RideRow) (hrow : t.find? row.id = some row)
    (hnew : SameRequest row new) (hk : t.find? k = some r) :
    ∃ r', (t.replace new).find? k = some r' ∧ SameRequest r r' := by
  rw [Table.find?_replace, hnew.1]
  split
  · next e =>
      subst e
      rw [hrow] at hk ⊢
      cases hk
      exact ⟨new, rfl, hnew⟩
  · exact ⟨r, hk, .refl r⟩

/-- No call removes a ride or rewrites what was asked for. -/
theorem change_sameRequest {db : Db} {res : Option Ride × Db}
    (hc : Change db res) {k : Int} {r : RideRow}
    (hk : db.rides.find? k = some r) :
    ∃ r', res.2.rides.find? k = some r' ∧ SameRequest r r' := by
  cases hc with
  | none hsame => rw [hsame.2.2]; exact ⟨r, hk, .refl r⟩
  | user hd hr => rw [hr]; exact ⟨r, hk, .refl r⟩
  | driver hon hpos hins hr => rw [hr]; exact ⟨r, hk, .refl r⟩
  | @ride db' row hs hn hcomp hins hd =>
      refine ⟨r, ?_, .refl r⟩
      rw [Table.find?_insert hins, if_neg, hk]
      intro e
      rw [← e, Table.insert?_fresh hins] at hk
      cases hk
  | @accept db' drv ride hdrv hon hride hs hd hr =>
      rw [hr]
      exact replace_sameRequest (ride.setAccepted drv.id) hride
        ⟨rfl, rfl, rfl, rfl, rfl⟩ hk
  | @complete db' ride now hride hs hd hr =>
      rw [hr]
      exact replace_sameRequest (ride.setCompleted now) hride
        ⟨rfl, rfl, rfl, rfl, rfl⟩ hk

/-- The step lemma for one ride. -/
theorem ride_step {db : Db} (h : Dispatched db) (op : StorageOp) {k : Int}
    {r : RideRow} (hk : db.rides.find? k = some r) :
    ∃ r', (op.apply db).rides.find? k = some r' ∧ SameRequest r r' ∧
      StatusStep r.status r'.status ∧
      ∀ d, r.driverId = some d → r'.driverId = some d := by
  obtain ⟨r', hk', hsame⟩ :
      ∃ r', (op.apply db).rides.find? k = some r' ∧ SameRequest r r' :=
    change_sameRequest (exec_change db op) hk
  obtain ⟨s, hs⟩ := Option.isSome_iff_exists.mp (h.shaped hk)
  obtain ⟨s', hs', hadv⟩ := (h.step op).advance ((view_stage hk).trans hs)
  rw [view_stage hk'] at hs'
  obtain ⟨hstatus, hdriver, _⟩ := stage_some hs
  obtain ⟨hstatus', hdriver', _⟩ := stage_some hs'
  refine ⟨r', hk', hsame, ?_, ?_⟩
  · rw [hstatus, hstatus']
    exact statusStep_of_advance hadv
  · rw [hdriver, hdriver']
    exact fun d hd => hadv.worker hd

theorem reach_concat (ops : List StorageOp) (op : StorageOp) :
    reach (ops ++ [op]) = op.apply (reach ops) := run_concat _ _ _ _

/-- The run lemma: a ride stays, with what was asked for and with its driver
once it has one. -/
theorem ride_kept {db : Db} (h : Dispatched db) {k : Int} {r : RideRow}
    (hk : db.rides.find? k = some r) (more : List StorageOp) :
    ∃ r', (run StorageOp.apply db more).rides.find? k = some r' ∧
      SameRequest r r' ∧ ∀ d, r.driverId = some d → r'.driverId = some d := by
  induction more generalizing db r with
  | nil => exact ⟨r, hk, .refl r, fun _ hd => hd⟩
  | cons op more ih =>
      obtain ⟨r₁, hk₁, hsame₁, _, hd₁⟩ := ride_step h op hk
      obtain ⟨r₂, hk₂, hsame₂, hd₂⟩ := ih (h.apply op) hk₁
      exact ⟨r₂, hk₂, hsame₁.trans hsame₂, fun d hd => hd₂ d (hd₁ d hd)⟩

/-- What holds of each ride row of one database. -/
def RowSound (db : Db) (r : RideRow) : Prop :=
  (r.status = .searching ↔ r.driverId = none) ∧
  (r.completedAt.isSome ↔ r.status = .completed) ∧
  ∀ d, r.driverId = some d → ∃ drv ∈ db.drivers.rows, drv.id = d

theorem rowSound {db : Db} (h : Dispatched db) {k : Int} {r : RideRow}
    (hk : db.rides.find? k = some r) : RowSound db r := by
  obtain ⟨s, hs⟩ := Option.isSome_iff_exists.mp (h.shaped hk)
  obtain ⟨hstatus, hdriver, hcompleted⟩ := stage_some hs
  refine ⟨?_, hcompleted, ?_⟩
  · rw [hstatus, hdriver]
    cases s <;> simp [statusOf, Stage.worker?]
  · intro d hd
    have hmem := h.staffed k s d ((view_stage hk).trans hs) (hdriver ▸ hd)
    obtain ⟨drv, hdrv⟩ := Option.isSome_iff_exists.mp hmem
    obtain ⟨hrow, hid⟩ := Table.find?_some_iff.mp hdrv
    exact ⟨drv, hrow, hid⟩

/-- The driver id a ride is answered with is zero exactly for the rides that
have no driver yet: the ids of drivers are positive. -/
theorem parseRide_driverId {db : Db} (h : Dispatched db) {k : Int}
    {r : RideRow} (hk : db.rides.find? k = some r) :
    (parseRide r).driverId = 0 ↔ (parseRide r).status = .searching := by
  obtain ⟨hsearch, _, hdriver⟩ := rowSound h hk
  simp only [parseRide]
  rw [hsearch]
  cases hd : r.driverId with
  | none => simp
  | some d =>
      obtain ⟨drv, hdrv, hid⟩ := hdriver d hd
      have hpos := h.positive (Table.find?_mem hdrv)
      simp only [Option.getD_some, reduceCtorEq, iff_false]
      omega

/-- The ride a call answers is a row of the database it leaves. -/
theorem exec_ride {db : Db} {op : StorageOp} {ride : Ride} {db' : Db}
    (h : op.exec db = (some ride, db')) :
    ∃ k row, db'.rides.find? k = some row ∧ ride = parseRide row := by
  have hc := exec_change db op
  rw [h] at hc
  cases hc with
  | @ride _ row hs hn hcomp hins hd =>
      exact ⟨row.id, row, by rw [Table.find?_insert hins, if_pos rfl], rfl⟩
  | @accept _ drv r hdrv hon hride hs hd hr =>
      refine ⟨r.id, r.setAccepted drv.id, ?_, rfl⟩
      rw [hr, Table.find?_replace, RideRow.setAccepted_id, if_pos rfl, hride,
        Option.map_some]
  | @complete _ r now hride hs hd hr =>
      refine ⟨r.id, r.setCompleted now, ?_, rfl⟩
      rw [hr, Table.find?_replace, RideRow.setCompleted_id, if_pos rfl, hride,
        Option.map_some]

/-- The rides the reads of the storage answer with. -/
def ReadAnswer (db : Db) (ride : Ride) : Prop :=
  (∃ rideId, getRideById rideId db = some ride) ∨
  (∃ userId, ride ∈ getRidesByUserId userId db) ∨ ride ∈ getActiveRides db

theorem readAnswer_row {db : Db} {ride : Ride} (h : ReadAnswer db ride) :
    ∃ row ∈ db.rides.rows, ride = parseRide row := by
  rcases h with ⟨rideId, h⟩ | ⟨userId, h⟩ | h
  · simp only [getRideById] at h
    split at h
    · cases h
    · next row rows hsel =>
        have hmem : row ∈ kSelectRideById rideId db := by rw [hsel]; simp
        exact ⟨row, (List.mem_filter.mp hmem).1, (Option.some.inj h).symm⟩
  · obtain ⟨row, hrow, rfl⟩ := List.mem_map.mp h
    rw [kSelectRidesByUserId, List.mem_insertionSort] at hrow
    exact ⟨row, (List.mem_filter.mp hrow).1, rfl⟩
  · obtain ⟨row, hrow, rfl⟩ := List.mem_map.mp h
    rw [kSelectActiveRides, List.mem_insertionSort] at hrow
    exact ⟨row, (List.mem_filter.mp hrow).1, rfl⟩

/-- The life of a ride. From one state to the next its status stays or moves
one place forward; over any further run the ride stays, with its passenger,
addresses, creation time and, once set, its driver. In every state it has a
driver (an existing one) exactly when it is no longer searching, and a
completion time exactly when it is completed. Every ride the storage answers,
from a write or a read, has driver id zero exactly when it is searching. -/
theorem ride_lifecycle (ops : List StorageOp) :
    (∀ op, ∀ r ∈ (reach ops).rides.rows,
      ∃ r' ∈ (reach (ops ++ [op])).rides.rows,
        SameRequest r r' ∧ StatusStep r.status r'.status) ∧
    (∀ more, ∀ r ∈ (reach ops).rides.rows,
      ∃ r' ∈ (reach (ops ++ more)).rides.rows,
        SameRequest r r' ∧ ∀ d, r.driverId = some d → r'.driverId = some d) ∧
    (∀ r ∈ (reach ops).rides.rows, RowSound (reach ops) r) ∧
    (∀ op ride, (StorageOp.exec (reach ops) op).1 = some ride →
      (ride.driverId = 0 ↔ ride.status = .searching)) ∧
    ∀ ride, ReadAnswer (reach ops) ride →
      (ride.driverId = 0 ↔ ride.status = .searching) := by
  have h := dispatched_reach ops
  refine ⟨fun op r hr => ?_, fun more r hr => ?_, fun r hr => ?_,
    fun op ride hres => ?_, fun ride hread => ?_⟩
  · obtain ⟨r', hk', hsame, hstatus, _⟩ := ride_step h op (Table.find?_mem hr)
    rw [reach_concat]
    exact ⟨r', (Table.find?_some_iff.mp hk').1, hsame, hstatus⟩
  · obtain ⟨r', hk', hsame, hd⟩ := ride_kept h (Table.find?_mem hr) more
    rw [reach, run_append]
    exact ⟨r', (Table.find?_some_iff.mp hk').1, hsame, hd⟩
  · exact rowSound h (Table.find?_mem hr)
  · obtain ⟨k, row, hrow, rfl⟩ := exec_ride (Prod.ext hres rfl)
    exact parseRide_driverId (h.apply op) hrow
  · obtain ⟨row, hrow, rfl⟩ := readAnswer_row hread
    exact parseRide_driverId h (Table.find?_mem hrow)

end TaxiService.Proofs
