import TaxiService.Model.SeedData
import TaxiService.Proofs.DriverStatus

/-!
# The deployed tables are out of step

`data.sql` writes `drivers.status` and `rides` by hand. Two of its drivers are
busy without a ride, and that no call can mend: a busy driver is given no
ride, and only the end of a ride makes a driver free (`Stranded`). Two others
are online although a ride of theirs is accepted, and may accept another.
-/

namespace TaxiService.Proofs

open TaxiService.Lib TaxiService.Model TaxiService.Spec

/-- No driver has two accepted rides, and every busy driver has one whose
completion makes them online again. -/
structure InStep (db : Db) : Prop where
  oneRide : OneRideEach db
  released : ∀ drv ∈ db.drivers.rows, drv.status = .busy →
    ∃ r ∈ db.rides.rows, Serves drv.id r ∧
      ∀ now, ∃ drv' ∈ (completeRide r.id now db).2.drivers.rows,
        drv'.id = drv.id ∧ drv'.status = .online

/-- The driver is busy, and with nothing. -/
structure Stranded (w : Int) (db : Db) : Prop where
  positive : 0 < w
  busy : ∃ drv, db.drivers.find? w = some drv ∧ drv.status = .busy
  idle : ∀ {k r}, db.rides.find? k = some r → ¬Serves w r

theorem Stranded.not_inStep {w : Int} {db : Db} (h : Stranded w db) :
    ¬InStep db := by
  intro ho
  obtain ⟨drv, hdrv, hbusy⟩ := h.busy
  obtain ⟨hmem, rfl⟩ := Table.find?_some_iff.mp hdrv
  obtain ⟨r, hr, hserves, -⟩ := ho.released drv hmem hbusy
  exact h.idle (Table.find?_mem hr) hserves

/-- A new version of another driver's row leaves the driver as they are. -/
theorem Stranded.busy_replace {w : Int} {db : Db} (h : Stranded w db)
    {row old : DriverRow} (hold : db.drivers.find? row.id = some old)
    (hne : row.id ≠ w) :
    ∃ drv, (db.drivers.replace row).find? w = some drv ∧
      drv.status = .busy := by
  rw [Table.find?_replace_some hold, if_neg hne]
  exact h.busy

theorem Stranded.idle_replace {w : Int} {db : Db} (h : Stranded w db)
    {row old : RideRow} (hold : db.rides.find? row.id = some old)
    (hrow : ¬Serves w row) {k : Int} {r : RideRow}
    (hk : (db.rides.replace row).find? k = some r) : ¬Serves w r := by
  rw [Table.find?_replace_some hold] at hk
  split at hk
  · cases hk
    exact hrow
  · exact h.idle hk

/-- The step lemma: no call comes to the driver's help. -/
theorem Stranded.change {w : Int} {db : Db} (h : Stranded w db)
    {res : Option Ride × Db} (hc : Change db res) : Stranded w res.2 := by
  obtain ⟨drv, hdrv, hbusy⟩ := h.busy
  cases hc with
  | none hsame =>
      obtain ⟨-, hd, hr⟩ := hsame
      exact ⟨h.positive, hd ▸ h.busy, fun hk => h.idle (hr ▸ hk)⟩
  | user hd hr => exact ⟨h.positive, hd ▸ h.busy, fun hk => h.idle (hr ▸ hk)⟩
  | @driver db' row hon hpos hins hr =>
      refine ⟨h.positive, ⟨drv, ?_, hbusy⟩, fun hk => h.idle (hr ▸ hk)⟩
      rw [Table.find?_insert hins, if_neg, hdrv]
      intro he
      rw [← he, Table.insert?_fresh hins] at hdrv
      cases hdrv
  | @ride db' row hs hn hcomp hins hd =>
      refine ⟨h.positive, hd ▸ h.busy, fun {k r} hk => ?_⟩
      rw [Table.find?_insert hins] at hk
      split at hk
      · cases hk
        intro hserves
        cases hs.symm.trans hserves.1
      · exact h.idle hk
  | @accept db' d ride hd hon hride hs hdrivers hrides =>
      have hne : d.id ≠ w := by
        rintro rfl
        rw [hd] at hdrv
        cases hdrv
        rw [hon] at hbusy
        cases hbusy
      have hold : db.drivers.find? d.setBusy.id = some d := hd
      have hold' : db.rides.find? (ride.setAccepted d.id).id = some ride := hride
      refine ⟨h.positive, ?_, fun {k r} hk => ?_⟩
      · rw [hdrivers]
        exact h.busy_replace hold hne
      · rw [hrides] at hk
        exact h.idle_replace hold' (fun hs => hne (Option.some.inj hs.2)) hk
  | @complete db' ride now hride hs hdrivers hrides =>
      have hold : db.rides.find? (ride.setCompleted now).id = some ride := hride
      refine ⟨h.positive, ?_, fun {k r} hk => ?_⟩
      · rw [hdrivers]
        cases hd : db.drivers.find? (ride.driverId.getD 0) with
        | none => exact h.busy
        | some d =>
            have hkey : d.id = ride.driverId.getD 0 := Table.find?_key hd
            have hold' : db.drivers.find? d.setOnline.id = some d := by
              rw [DriverRow.setOnline_id, hkey, hd]
            refine h.busy_replace hold' ?_
            · rw [DriverRow.setOnline_id, hkey]
              intro he
              cases hdriver : ride.driverId with
              | none =>
                  have := h.positive
                  rw [hdriver, Option.getD_none] at he
                  omega
              | some v =>
                  rw [hdriver, Option.getD_some] at he
                  exact h.idle hride ⟨hs, by rw [hdriver, he]⟩
      · rw [hrides] at hk
        refine h.idle_replace hold (fun hs => ?_) hk
        cases hs.1

theorem Stranded.run {w : Int} {db : Db} (h : Stranded w db)
    (ops : List StorageOp) : Stranded w (run StorageOp.apply db ops) :=
  run_induction (fun _ op h => h.change (exec_change _ op)) h

/-! ## `data.sql` -/

/-- What the script says of who is driving. -/
theorem deployed_rows (now : Timestamp) : (deployed now).map (fun db =>
      (db.drivers.rows.map fun d => (d.id, d.status),
        db.rides.rows.map fun r => (r.id, r.status, r.driverId))) =
    some ([(1, .online), (2, .online), (3, .busy), (4, .online), (5, .offline),
        (6, .online), (7, .busy), (8, .online), (9, .online), (10, .offline)],
      [(1, .searching, none), (2, .accepted, some 1),
        (3, .completed, some 3), (4, .searching, none),
        (5, .accepted, some 4), (6, .completed, some 7),
        (7, .searching, none), (8, .completed, some 8),
        (9, .searching, none), (10, .completed, some 9)]) := rfl

/-- Driver 3 is busy, and the one ride of theirs is completed. -/
theorem deployed_stranded (now : Timestamp) :
    ∃ db, deployed now = some db ∧ Stranded 3 db := by
  obtain ⟨db, hdb, hrows⟩ := Option.map_eq_some_iff.mp (deployed_rows now)
  obtain ⟨hdrivers, hrides⟩ := Prod.mk.inj hrows
  refine ⟨db, hdb, by decide, ?_, fun {k r} hk hs => ?_⟩
  · have hmem : ((3, .busy) : Int × DriverStatus) ∈
        db.drivers.rows.map fun d => (d.id, d.status) := by
      rw [hdrivers]
      decide
    obtain ⟨drv, hdrv, heq⟩ := List.mem_map.mp hmem
    obtain ⟨hid, hstatus⟩ := Prod.mk.inj heq
    exact ⟨drv, Table.find?_some_iff.mpr ⟨hdrv, hid⟩, hstatus⟩
  · have hmem := List.mem_map_of_mem
      (f := fun r : RideRow => (r.id, r.status, r.driverId))
      (Table.find?_some_iff.mp hk).1
    rw [hrides, hs.1, hs.2] at hmem
    simp at hmem

/-- In no run of the calls from the deployed tables is there a state in which
every busy driver has a ride to complete. -/
theorem deployed_never_inStep (now : Timestamp) :
    ∃ db, deployed now = some db ∧
      ∀ ops, ¬InStep (run StorageOp.apply db ops) := by
  obtain ⟨db, hdb, hstranded⟩ := deployed_stranded now
  exact ⟨db, hdb, fun ops => (hstranded.run ops).not_inStep⟩

/-- The start itself is out of order; and the first driver, online with a ride
accepted, can accept the ride that waits. -/
theorem deployed_two_rides : ∃ db, deployed 0 = some db ∧ ¬InStep db ∧
    ¬OneRideEach (run StorageOp.apply db [.acceptRide 1 1]) := by
  obtain ⟨db, hdb, hstranded⟩ := deployed_stranded 0
  refine ⟨db, hdb, hstranded.not_inStep, fun h => ?_⟩
  have hrun : (deployed 0).map (fun db =>
      (run StorageOp.apply db [.acceptRide 1 1]).rides.rows.take 2) =
      some [⟨1, 1, some 1, bytes "Lenina 10", bytes "Tverskaya 5", .accepted, 0,
          none⟩,
        ⟨2, 2, some 1, bytes "Arbat 15", bytes "Mira 20", .accepted, 0,
          none⟩] := by decide +kernel
  rw [hdb, Option.map_some, Option.some.injEq] at hrun
  have hmem : ∀ r ∈ (run StorageOp.apply db [.acceptRide 1 1]).rides.rows.take 2,
      r ∈ (run StorageOp.apply db [.acceptRide 1 1]).rides.rows :=
    fun r hr => List.mem_of_mem_take hr
  rw [hrun] at hmem
  have hsame := h 1 _ (hmem _ List.mem_cons_self) _
    (hmem _ (List.mem_cons_of_mem _ List.mem_cons_self)) (by decide) (by decide)
  exact absurd hsame (by decide)

end TaxiService.Proofs
