import TaxiService.Proofs.StorageSpec
import TaxiService.Spec.StorageEffects

/-!
# The exact effect of the two transactions

Each method has one outcome with both guards and one without
(`Proofs.StorageSpec`). What is left is to see the replaced rows as the rows
the specification names. The driver a completed ride never had is row 0 of
`COALESCE(driver_id, 0)`, and there is no such row.
-/

namespace TaxiService.Proofs

open TaxiService.Lib TaxiService.Model TaxiService.Spec

theorem exists_find? {ρ : Type} {key : ρ → Int} {t : Table Int ρ key} {k : Int}
    {p : ρ → Prop} : (∃ r, t.find? k = some r ∧ p r) ↔
      ∃ r ∈ t.rows, key r = k ∧ p r := by
  simp only [Table.find?_some_iff, and_assoc]

/-! ## Accepting -/

theorem acceptEffect (db : Db) (rideId driverId : Int) :
    AcceptEffect db rideId driverId := by
  by_cases hd : ∃ drv, db.drivers.find? driverId = some drv ∧
      drv.status = .online
  · by_cases hr : ∃ ride, db.rides.find? rideId = some ride ∧
        ride.status = .searching
    · have hguards := And.intro (exists_find?.mp hr) (exists_find?.mp hd)
      obtain ⟨drv, hdrv, hon⟩ := hd
      obtain ⟨ride, hride, hs⟩ := hr
      have hid : ride.id = rideId := Table.find?_key hride
      have hrides := Table.replace_rows hride (RideRow.setAccepted_id driverId)
      have hrun := acceptRide_ok hdrv hon hride hs
      refine ⟨iff_of_true (by rw [hrun]; rfl) hguards, fun ride' h => ?_,
        fun h => by rw [hrun] at h; cases h⟩
      rw [hrun] at h ⊢
      cases h
      refine ⟨⟨rfl, hrides, Table.replace_rows hdrv DriverRow.setBusy_id⟩,
        ride.setAccepted driverId, ?_, hid, rfl⟩
      rw [hrides]
      refine List.mem_map.mpr ⟨ride, (Table.find?_some_iff.mp hride).1, ?_⟩
      rw [if_pos hid]
    · have hrun : acceptRide rideId driverId db = (none, db) :=
        acceptRide_refused (.inr fun ride hride hs => hr ⟨ride, hride, hs⟩)
      refine ⟨iff_of_false (by rw [hrun]; nofun) fun h =>
        hr (exists_find?.mpr h.1), fun ride h => ?_, fun _ => by rw [hrun]⟩
      rw [hrun] at h
      cases h
  · have hrun : acceptRide rideId driverId db = (none, db) :=
      acceptRide_refused (.inl fun drv hdrv hon => hd ⟨drv, hdrv, hon⟩)
    refine ⟨iff_of_false (by rw [hrun]; nofun) fun h =>
      hd (exists_find?.mpr h.2), fun ride h => ?_, fun _ => by rw [hrun]⟩
    rw [hrun] at h
    cases h

/-! ## Completing -/

/-- The driver that is set online is the driver of the ride. -/
theorem replaced_driver {db : Db} (hids : PositiveIds db) (k : Option Int) :
    (match db.drivers.find? (k.getD 0) with
      | some drv => db.drivers.replace drv.setOnline
      | none => db.drivers).rows =
      db.drivers.rows.map fun row =>
        if k = some row.id then { row with status := .online } else row := by
  cases hd : db.drivers.find? (k.getD 0) with
  | some drv =>
      have hmem := (Table.find?_some_iff.mp hd).1
      cases k with
      | none =>
          -- A ride without a driver would set row 0 online.
          have hpos := hids.drivers drv hmem
          have hzero : drv.id = 0 := Table.find?_key hd
          omega
      | some k =>
          refine (Table.replace_rows hd DriverRow.setOnline_id).trans ?_
          simp only [Option.getD_some, Option.some.injEq, eq_comm (a := k)]
          rfl
  | none =>
      rw [Table.find?_none_iff] at hd
      refine ((List.map_congr_left fun row hrow => ?_).trans
        (List.map_id _)).symm
      rw [if_neg]
      · rfl
      · rintro rfl
        exact hd row hrow rfl

theorem completeEffect {db : Db} (hids : PositiveIds db) (rideId : Int)
    (now : Timestamp) : CompleteEffect db rideId now := by
  by_cases hr : ∃ ride, db.rides.find? rideId = some ride ∧
      ride.status = .accepted
  · have hguard := exists_find?.mp hr
    obtain ⟨ride, hride, hs⟩ := hr
    obtain ⟨hmem, hid⟩ := Table.find?_some_iff.mp hride
    have hrides := Table.replace_rows hride (RideRow.setCompleted_id now)
    have hrun : completeRide rideId now db = _ := completeRide_ok hride hs
    refine ⟨iff_of_true (by rw [hrun]; rfl) hguard, fun ride' h => ?_,
      fun h => by rw [hrun] at h; cases h⟩
    rw [hrun] at h ⊢
    cases h
    refine ⟨ride, hmem, hid, ⟨rfl, hrides,
      replaced_driver hids ride.driverId⟩, ride.setCompleted now, ?_, hid, rfl⟩
    rw [hrides]
    refine List.mem_map.mpr ⟨ride, hmem, ?_⟩
    rw [if_pos hid]
  · have hrun : completeRide rideId now db = (none, db) :=
      completeRide_refused fun ride hride hs => hr ⟨ride, hride, hs⟩
    refine ⟨iff_of_false (by rw [hrun]; nofun) fun h =>
      hr (exists_find?.mpr h), fun ride h => ?_, fun _ => by rw [hrun]⟩
    rw [hrun] at h
    cases h

/-- With positive ids, both transactions do exactly what they are for. -/
theorem transactions_exact (db : Db) (hids : PositiveIds db) :
    (∀ rideId driverId, AcceptEffect db rideId driverId) ∧
    ∀ rideId now, CompleteEffect db rideId now :=
  ⟨acceptEffect db, completeEffect hids⟩

/-- A user who drives, another one, and a ride that waits for a driver. -/
def oneWaiting : Db where
  users := ⟨[⟨1, bytes "anna", bytes "a", bytes "Anna"⟩,
    ⟨2, bytes "ivan", bytes "i", bytes "Ivan"⟩], by decide⟩
  drivers := ⟨[⟨1, 2, bytes "Kia Rio", bytes "B777AA", bytes "77AB", .online⟩],
    by decide⟩
  rides := ⟨[⟨1, 1, none, bytes "MAI", bytes "Sokol", .searching, 0, none⟩],
    by decide⟩
  usersSeq := 2
  driversSeq := 1
  ridesSeq := 1

theorem transactions_exact_oneWaiting :
    (∀ rideId driverId, AcceptEffect oneWaiting rideId driverId) ∧
    ∀ rideId now, CompleteEffect oneWaiting rideId now :=
  transactions_exact oneWaiting ⟨by decide, by decide, by decide⟩

end TaxiService.Proofs
