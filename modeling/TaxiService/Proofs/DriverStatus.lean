import TaxiService.Model.DriverStatus
import TaxiService.Proofs.RideLifecycle

/-!
# One ride a driver, over the whole interface

`AcceptRide` looks at `drivers.status` and never at `rides`, so a driver has
one accepted ride at most only as long as `online` is said of nobody who has
one (`Booked`). The five calls the handlers make keep that. `UpdateDriverStatus`
keeps it when it is not told to put a driver online in the middle of a ride
(`Permitted`), and nothing in it prevents that.
-/

namespace TaxiService.Proofs

open TaxiService.Lib TaxiService.Model TaxiService.Spec

/-- No two accepted rides have the same driver. -/
def OneRideEach (db : Db) : Prop :=
  ∀ w, ∀ r ∈ db.rides.rows, ∀ r' ∈ db.rides.rows,
    Serves w r → Serves w r' → r = r'

/-- A driver is not put online while a ride of theirs is accepted. -/
def Permitted (db : Db) : Mutation → Prop
  | .call _ => True
  | .updateDriverStatus driverId status =>
      status = bytes "online" → ∀ r ∈ db.rides.rows, ¬Serves driverId r

instance (driverId : Int) (row : RideRow) : Decidable (Serves driverId row) :=
  inferInstanceAs (Decidable (_ ∧ _))

instance (db : Db) : (m : Mutation) → Decidable (Permitted db m)
  | .call _ => .isTrue trivial
  | .updateDriverStatus driverId status =>
      inferInstanceAs (Decidable
        (status = bytes "online" → ∀ r ∈ db.rides.rows, ¬Serves driverId r))

/-! ## The invariant -/

structure Booked (db : Db) : Prop where
  exclusive : ∀ {w k k' r r'}, db.rides.find? k = some r →
    db.rides.find? k' = some r' → Serves w r → Serves w r' → k = k'
  idle : ∀ {w drv}, db.drivers.find? w = some drv → drv.status = .online →
    ∀ {k r}, db.rides.find? k = some r → ¬Serves w r
  staffed : ∀ {k r}, db.rides.find? k = some r → r.status = .accepted →
    ∃ w, r.driverId = some w ∧ (db.drivers.find? w).isSome

theorem Booked.empty : Booked Db.empty where
  exclusive h := by cases h
  idle h := by cases h
  staffed h := by cases h

theorem Booked.oneRideEach {db : Db} (h : Booked db) : OneRideEach db := by
  intro w r hr r' hr' hs hs'
  have hk := Table.find?_mem hr
  have hk' := Table.find?_mem hr'
  rw [h.exclusive hk hk' hs hs', hk'] at hk
  exact (Option.some.inj hk).symm

theorem Booked.congr {db db' : Db} (h : Booked db)
    (hd : db'.drivers = db.drivers) (hr : db'.rides = db.rides) :
    Booked db' where
  exclusive hk hk' := h.exclusive (hr ▸ hk) (hr ▸ hk')
  idle hw hon := fun hk => h.idle (hd ▸ hw) hon (hr ▸ hk)
  staffed hk hs := by
    rw [hd]
    exact h.staffed (hr ▸ hk) hs

/-- A driver nobody knew has no ride. -/
theorem Booked.hire {db db' : Db} (h : Booked db) {row : DriverRow}
    (hins : db.drivers.insert? row = some db'.drivers)
    (hr : db'.rides = db.rides) : Booked db' where
  exclusive hk hk' := h.exclusive (hr ▸ hk) (hr ▸ hk')
  idle := by
    intro w drv hw hon k r hk hs
    rw [hr] at hk
    rw [Table.find?_insert hins] at hw
    split at hw
    · next he =>
        subst he
        obtain ⟨w, hw, hsome⟩ := h.staffed hk hs.1
        rw [hs.2] at hw
        cases hw
        rw [Table.insert?_fresh hins] at hsome
        cases hsome
    · exact h.idle hw hon hk hs
  staffed := by
    intro k r hk hs
    rw [hr] at hk
    obtain ⟨w, hw, hsome⟩ := h.staffed hk hs
    refine ⟨w, hw, ?_⟩
    rw [Table.find?_insert hins]
    split
    · rfl
    · exact hsome

/-- A ride that is searching is nobody's. -/
theorem Booked.post {db db' : Db} (h : Booked db) {row : RideRow}
    (hs : row.status = .searching)
    (hins : db.rides.insert? row = some db'.rides)
    (hd : db'.drivers = db.drivers) : Booked db' := by
  have hold : ∀ {k r}, db'.rides.find? k = some r → r.status = .accepted →
      db.rides.find? k = some r := by
    intro k r hk hacc
    rw [Table.find?_insert hins] at hk
    split at hk
    · cases hk
      rw [hs] at hacc
      cases hacc
    · exact hk
  refine ⟨fun hk hk' hs hs' => ?_, fun hw hon k r hk hs => ?_, fun hk hs => ?_⟩
  · exact h.exclusive (hold hk hs.1) (hold hk' hs'.1) hs hs'
  · exact h.idle (hd ▸ hw) hon (hold hk hs.1) hs
  · rw [hd]
    exact h.staffed (hold hk hs) hs

theorem isSome_replace {ρ : Type} {key : ρ → Int} (t : Table Int ρ key)
    (row : ρ) (k : Int) :
    ((t.replace row).find? k).isSome = (t.find? k).isSome := by
  rw [Table.find?_replace]
  split
  · rw [Option.isSome_map]
  · rfl

/-- An online driver has no ride, and so may be given one. -/
theorem Booked.accept {db db' : Db} (h : Booked db) {drv : DriverRow}
    {ride : RideRow} (hdrv : db.drivers.find? drv.id = some drv)
    (hon : drv.status = .online)
    (hride : db.rides.find? ride.id = some ride)
    (hd : db'.drivers = db.drivers.replace drv.setBusy)
    (hr : db'.rides = db.rides.replace (ride.setAccepted drv.id)) :
    Booked db' := by
  have hrides : ∀ k, db'.rides.find? k = if ride.id = k then
      some (ride.setAccepted drv.id) else db.rides.find? k := by
    intro k
    rw [hr]
    have hold : db.rides.find? (ride.setAccepted drv.id).id = some ride := hride
    exact Table.find?_replace_some hold k
  have hdrivers : ∀ k, db'.drivers.find? k = if drv.id = k then
      some drv.setBusy else db.drivers.find? k := by
    intro k
    rw [hd]
    have hold : db.drivers.find? drv.setBusy.id = some drv := hdrv
    exact Table.find?_replace_some hold k
  -- The new ride serves its driver, whom no other ride serves.
  have hserves : ∀ {w k r}, db'.rides.find? k = some r → Serves w r →
      (k = ride.id ∧ w = drv.id) ∨
      (w ≠ drv.id ∧ db.rides.find? k = some r) := by
    intro w k r hk hs
    rw [hrides] at hk
    split at hk
    · next he =>
        cases hk
        exact .inl ⟨he.symm, (Option.some.inj hs.2).symm⟩
    · refine .inr ⟨?_, hk⟩
      rintro rfl
      exact h.idle hdrv hon hk hs
  refine ⟨fun hk hk' hs hs' => ?_, fun hw hst k r hk hs => ?_, fun hk hs => ?_⟩
  · rcases hserves hk hs with ⟨he, hw⟩ | ⟨hw, hk⟩
    · rcases hserves hk' hs' with ⟨he', -⟩ | ⟨hw', -⟩
      · rw [he, he']
      · exact absurd hw hw'
    · rcases hserves hk' hs' with ⟨-, hw'⟩ | ⟨-, hk'⟩
      · exact absurd hw' hw
      · exact h.exclusive hk hk' hs hs'
  · rw [hdrivers] at hw
    split at hw
    · cases hw
      cases hst
    · next hne =>
        rcases hserves hk hs with ⟨-, he⟩ | ⟨-, hk⟩
        · exact hne he.symm
        · exact h.idle hw hst hk hs
  · rw [hd]
    simp only [isSome_replace]
    rw [hrides] at hk
    split at hk
    · cases hk
      exact ⟨drv.id, rfl, by rw [hdrv]; rfl⟩
    · exact h.staffed hk hs

/-- The ride that ends was its driver's only one. -/
theorem Booked.complete {db db' : Db} (h : Booked db) {ride : RideRow}
    (now : Timestamp) (hride : db.rides.find? ride.id = some ride)
    (hs : ride.status = .accepted)
    (hd : db'.drivers = match db.drivers.find? (ride.driverId.getD 0) with
      | some drv => db.drivers.replace drv.setOnline
      | none => db.drivers)
    (hr : db'.rides = db.rides.replace (ride.setCompleted now)) :
    Booked db' := by
  obtain ⟨w, hdriver, hsome⟩ := h.staffed hride hs
  obtain ⟨drv, hdrv⟩ := Option.isSome_iff_exists.mp hsome
  obtain rfl : drv.id = w := Table.find?_key hdrv
  rw [hdriver, Option.getD_some, hdrv] at hd
  have hserves : ∀ {k r}, db'.rides.find? k = some r → r.status = .accepted →
      k ≠ ride.id ∧ db.rides.find? k = some r := by
    intro k r hk hacc
    have hold : db.rides.find? (ride.setCompleted now).id = some ride := hride
    rw [hr, Table.find?_replace_some hold] at hk
    split at hk
    · cases hk
      cases hacc
    · next hne => exact ⟨fun he => hne he.symm, hk⟩
  refine ⟨fun hk hk' hs hs' => ?_, fun hw hst k r hk hs' => ?_,
    fun hk hs => ?_⟩
  · exact h.exclusive (hserves hk hs.1).2 (hserves hk' hs'.1).2 hs hs'
  · obtain ⟨hne, hk⟩ := hserves hk hs'.1
    have hold : db.drivers.find? drv.setOnline.id = some drv := hdrv
    rw [hd, Table.find?_replace_some hold] at hw
    split at hw
    · next he =>
        subst he
        exact hne (h.exclusive hk hride hs' ⟨hs, hdriver⟩)
    · exact h.idle hw hst hk hs'
  · rw [hd]
    simp only [isSome_replace]
    exact h.staffed (hserves hk hs).2 hs

theorem Booked.change {db : Db} (h : Booked db) {res : Option Ride × Db}
    (hc : Change db res) : Booked res.2 := by
  cases hc with
  | none hsame => exact h.congr hsame.2.1 hsame.2.2
  | user hd hr => exact h.congr hd hr
  | driver hon hpos hins hr => exact h.hire hins hr
  | ride hs hn hc hins hd => exact h.post hs hins hd
  | accept hdrv hon hride hs hd hr => exact h.accept hdrv hon hride hd hr
  | complete now hride hs hd hr => exact h.complete now hride hs hd hr

/-! ## `UpdateDriverStatus` -/

theorem charLength_le_length (s : StdString) : charLength s ≤ s.length := by
  rw [charLength]
  cases hs : decodeUtf8 s with
  | none => exact Nat.zero_le _
  | some text =>
      have hlen := length_le_encodeUtf8 text
      rwa [(decodeUtf8_sound hs).2] at hlen

/-- A text that is cut keeps `n` characters, and so `n` bytes at least. -/
theorem varchar_ok {n : Nat} {s s' : StdString} (h : varchar n s = .ok s') :
    s' = s ∨ n ≤ s'.length := by
  have hlen := charLength_le_length s
  simp only [varchar] at h
  split at h
  · cases h
    exact .inl rfl
  · split at h
    · cases h
      right
      rw [List.length_take]
      omega
    · cases h

theorem checkDriverStatus_online {s : StdString}
    (h : checkDriverStatus s = .ok .online) : s = bytes "online" := by
  rw [checkDriverStatus] at h
  split at h
  · next he => exact beq_iff_eq.mp he
  · split at h
    · cases h
    · split at h
      · cases h
      · cases h

/-- The one thing the method can do: write a status, and `online` only when
that is what it was given. -/
theorem updateDriverStatus_cases (driverId : Int) (status : StdString)
    (db : Db) : (updateDriverStatus driverId status db).2 = db ∨
    ∃ drv st, db.drivers.find? driverId = some drv ∧
      (st = .online → status = bytes "online") ∧
      (updateDriverStatus driverId status db).2 =
        { db with drivers := db.drivers.replace (drv.setStatus st) } := by
  have hpin : (fun d : DriverRow => decide (d.id = driverId)) =
      fun d => decide (d.id = driverId) && (fun _ => true) d := by
    funext d
    rw [Bool.and_true]
  cases hk : kUpdateDriverStatus driverId status db with
  | error e => exact .inl (by simp only [updateDriverStatus, hk])
  | ok res =>
      obtain ⟨-, -, hk'⟩ := bind_ok hk
      simp only [] at hk'
      split at hk'
      · cases hk'
        exact .inl (by simp only [updateDriverStatus, hk])
      · next hsome =>
          obtain ⟨s', hs', hk'⟩ := bind_ok hk'
          obtain ⟨st, hst, hk'⟩ := bind_ok hk'
          cases hd : db.drivers.find? driverId with
          | none =>
              refine absurd ?_ hsome
              rw [List.isEmpty_iff, hpin]
              exact Table.select_none fun r hr => by rw [hd] at hr; cases hr
          | some drv =>
              refine .inr ⟨drv, st, rfl, ?_, ?_⟩
              · rintro rfl
                have hs'' := checkDriverStatus_online hst
                rcases varchar_ok hs' with rfl | hlong
                · exact hs''
                · rw [hs''] at hlong
                  exact absurd hlong (by decide)
              · have hsel := Table.select_some hd (q := fun _ => true) rfl
                have hupd := Table.update_some (DriverRow.setStatus_id st) hd
                  (q := fun _ => true) rfl
                rw [hpin, hsel, hupd] at hk'
                cases hk'
                rw [updateDriverStatus, hk]
                rfl

/-- Nothing is said of rides, so what has to be right is who is online. -/
theorem Booked.setStatus {db : Db} (h : Booked db) {drv : DriverRow}
    {st : DriverStatus} (hdrv : db.drivers.find? drv.id = some drv)
    (hfree : st = .online → ∀ r ∈ db.rides.rows, ¬Serves drv.id r) :
    Booked { db with drivers := db.drivers.replace (drv.setStatus st) } where
  exclusive hk hk' := h.exclusive hk hk'
  idle := by
    intro w d hw hon k r hk
    have hold : db.drivers.find? (drv.setStatus st).id = some drv := hdrv
    rw [Table.find?_replace_some hold] at hw
    split at hw
    · next he =>
        subst he
        cases hw
        exact hfree hon r (Table.find?_some_iff.mp hk).1
    · exact h.idle hw hon hk
  staffed hk hs := by
    simp only [isSome_replace]
    exact h.staffed hk hs

/-! ## Runs -/

theorem Booked.apply {db : Db} (h : Booked db) {m : Mutation}
    (hm : Permitted db m) : Booked (m.apply db) := by
  cases m with
  | call op => exact h.change (exec_change db op)
  | updateDriverStatus driverId status =>
      rw [Mutation.apply]
      rcases updateDriverStatus_cases driverId status db with
        hsame | ⟨drv, st, hdrv, honline, hset⟩
      · rw [hsame]
        exact h
      · rw [hset]
        obtain rfl : drv.id = driverId := Table.find?_key hdrv
        exact h.setStatus hdrv fun hst => hm (honline hst)

/-- In every run of the mutating methods that puts no driver online in the
middle of a ride, no state has two accepted rides with one driver. -/
theorem oneRideEach_of_permitted (calls : List Mutation)
    (h : AllSteps Mutation.apply Permitted Db.empty calls) :
    ∀ before after, calls = before ++ after →
      OneRideEach (run Mutation.apply Db.empty before) := by
  rintro before after rfl
  have hbooked : Booked (run Mutation.apply Db.empty before) :=
    run_induction_of (fun db m hm hdb => hdb.apply hm)
      (allSteps_append.mp h).1 .empty
  exact hbooked.oneRideEach

/-- A driver goes offline during a ride and online after it. -/
def awayAndBack : List Mutation :=
  [.call (.createUser (bytes "anna") (bytes "a") (bytes "Anna")),
    .call (.createDriver 1 (bytes "Kia Rio") (bytes "B777AA") (bytes "77AB")),
    .call (.createRide 1 (bytes "MAI") (bytes "Sokol") 0),
    .call (.acceptRide 1 1),
    .updateDriverStatus 1 (bytes "offline"),
    .call (.completeRide 1 2),
    .updateDriverStatus 1 (bytes "online")]

theorem oneRideEach_awayAndBack :
    OneRideEach (run Mutation.apply Db.empty awayAndBack) :=
  oneRideEach_of_permitted awayAndBack (by decide +kernel) awayAndBack []
    (List.append_nil _).symm

/-- A driver is set online between accepting one ride and another. -/
def onlineAgain : List Mutation :=
  [.call (.createUser (bytes "anna") (bytes "a") (bytes "Anna")),
    .call (.createDriver 1 (bytes "Kia Rio") (bytes "B777AA") (bytes "77AB")),
    .call (.createRide 1 (bytes "MAI") (bytes "Sokol") 0),
    .call (.createRide 1 (bytes "Sokol") (bytes "MAI") 1),
    .call (.acceptRide 1 1),
    .updateDriverStatus 1 (bytes "online"),
    .call (.acceptRide 2 1)]

/-- Both rides are accepted then, and both are the driver's. -/
theorem onlineAgain_two_rides :
    ¬OneRideEach (run Mutation.apply Db.empty onlineAgain) := by
  intro h
  have hsame := h 1
    ⟨1, 1, some 1, bytes "MAI", bytes "Sokol", .accepted, 0, none⟩
    (by decide +kernel)
    ⟨2, 1, some 1, bytes "Sokol", bytes "MAI", .accepted, 1, none⟩
    (by decide +kernel) (by decide) (by decide)
  exact absurd hsame (by decide)

end TaxiService.Proofs
