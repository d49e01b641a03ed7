import TaxiService.Proofs.CreateRequests
import TaxiService.Proofs.RideHistory
import TaxiService.Proofs.SeedData
import TaxiService.Spec.SchemaIntegrity

/-!
# The schema holds in every state

Whatever is called, and from the empty tables as well as from those of
`data.sql`, no constraint of `schema.sql` is ever broken. An insert has its row
checked. What an `UPDATE` writes keeps every column that is unique or has a
text, and the one reference it sets, `driver_id`, is to the driver that the same
statement has found.
-/

namespace TaxiService.Spec

open TaxiService.Lib TaxiService.Model TaxiService.Proofs

/-! ## The columns -/

/-- What is left of a text that fits a column is a text of that column. -/
theorem columnText_of_varchar {n : Nat} {s t : StdString}
    (hbind : bindText s = .ok ()) (hvarchar : varchar n s = .ok t)
    (hblank : checkNotBlank t = .ok ()) : ColumnText n t := by
  obtain ⟨text, henc, rfl, h0⟩ := (bindText_ok_iff s).mp hbind
  rw [varchar_encodeUtf8 n henc] at hvarchar
  split at hvarchar
  · cases hvarchar
    have htake : Encodable (text.take n) :=
      fun c hc => henc c (List.mem_of_mem_take hc)
    refine ⟨(bindText_ok_iff _).mpr ⟨text.take n, htake, rfl, fun h =>
      h0 (List.mem_of_mem_take h)⟩, ?_, hblank⟩
    rw [charLength_encodeUtf8 htake]
    exact List.length_take_le n text
  · cases hvarchar

theorem bindTexts_mem {texts : List StdString} (h : bindTexts texts = .ok ())
    {s : StdString} (hs : s ∈ texts) : bindText s = .ok () := by
  induction texts with
  | nil => cases hs
  | cons t texts ih =>
      obtain ⟨⟨⟩, ht, hrest⟩ := bind_ok h
      rcases List.mem_cons.mp hs with rfl | hs
      · exact ht
      · exact ih hrest hs

theorem checkThat_ok {b : Bool} {e : PgError} {u : Unit}
    (h : checkThat b e = .ok u) : b = true := by
  rw [checkThat] at h
  split at h
  · assumption
  · cases h

/-! ## Inserts -/

/-- An insert leaves the tables, or takes a sequence value, or adds a row that
has passed its checks. -/
theorem insertReturning_checked {ρ : Type} (texts : List StdString) (seq : Nat)
    (bump : Nat → Db → Db) (build : Int → Db → Except PgError (ρ × Db))
    (db : Db) :
    (insertReturning texts seq bump build db).2 = db ∨
    (seq < maxInteger ∧
      (insertReturning texts seq bump build db).2 = bump (seq + 1) db) ∨
    (seq < maxInteger ∧ bindTexts texts = .ok () ∧ ∃ row,
      build (seq + 1 : Nat) (bump (seq + 1) db) =
        .ok (row, (insertReturning texts seq bump build db).2)) := by
  simp only [insertReturning, nextval]
  split
  · exact .inl rfl
  · next htexts =>
      split
      · exact .inl rfl
      · next id hid =>
          split at hid
          · next hlt =>
              cases hid
              split
              · exact .inr (.inl ⟨hlt, rfl⟩)
              · next row db' hb => exact .inr (.inr ⟨hlt, htexts, row, hb⟩)
          · cases hid

section

variable {db : Db}

theorem SchemaHolds.empty : SchemaHolds .empty where
  usersId := Table.identity_empty _
  usersLogin := Table.unique_empty _
  usersText := Table.each_empty _
  driversId := Table.identity_empty _
  driversUserId := Table.unique_empty _
  driversCarNumber := Table.unique_empty _
  driversLicenseNumber := Table.unique_empty _
  driversText := Table.each_empty _
  fkDriversUser := Table.each_empty _
  ridesId := Table.identity_empty _
  ridesText := Table.each_empty _
  fkRidesPassenger := Table.each_empty _
  fkRidesDriver := Table.each_empty _

theorem SchemaHolds.user {users : Table Int UserRow UserRow.id} {row : UserRow}
    (h : SchemaHolds db) (hins : db.users.insert? row = some users)
    (hid : 1 ≤ row.id ∧ row.id ≤ db.usersSeq)
    (hlogin : db.users.Each fun u => u.login ≠ row.login)
    (htext : ColumnText 100 row.login ∧ ColumnText 255 row.password ∧
      ColumnText 255 row.fullName) : SchemaHolds { db with users } :=
  { h with
    usersId := h.usersId.insert hins hid
    usersLogin := h.usersLogin.insert hins hlogin
    usersText := h.usersText.insert hins htext
    fkDriversUser := h.fkDriversUser.insert hins
    fkRidesPassenger := h.fkRidesPassenger.insert hins }

theorem SchemaHolds.driver {drivers : Table Int DriverRow DriverRow.id}
    {row : DriverRow} (h : SchemaHolds db)
    (hins : db.drivers.insert? row = some drivers)
    (hid : 1 ≤ row.id ∧ row.id ≤ db.driversSeq)
    (hnew : db.drivers.Each fun d => d.userId ≠ row.userId ∧
      d.carNumber ≠ row.carNumber ∧ d.licenseNumber ≠ row.licenseNumber)
    (htext : ColumnText 100 row.carModel ∧ ColumnText 30 row.carNumber ∧
      ColumnText 50 row.licenseNumber)
    (huser : (db.users.find? row.userId).isSome) :
    SchemaHolds { db with drivers } :=
  { h with
    driversId := h.driversId.insert hins hid
    driversUserId := h.driversUserId.insert hins fun d hd => (hnew d hd).1
    driversCarNumber := h.driversCarNumber.insert hins
      fun d hd => (hnew d hd).2.1
    driversLicenseNumber := h.driversLicenseNumber.insert hins
      fun d hd => (hnew d hd).2.2
    driversText := h.driversText.insert hins htext
    fkDriversUser := Table.Each.insert h.fkDriversUser hins fun k hk => by
      cases hk
      exact huser
    fkRidesDriver := h.fkRidesDriver.insert hins }

theorem SchemaHolds.ride {rides : Table Int RideRow RideRow.id} {row : RideRow}
    (h : SchemaHolds db) (hins : db.rides.insert? row = some rides)
    (hid : 1 ≤ row.id ∧ row.id ≤ db.ridesSeq)
    (htext : ColumnText 255 row.pickupAddress ∧
      ColumnText 255 row.destinationAddress)
    (hpassenger : (db.users.find? row.passengerId).isSome)
    (hdriver : ∀ k, row.driverId = some k → (db.drivers.find? k).isSome) :
    SchemaHolds { db with rides } :=
  { h with
    ridesId := h.ridesId.insert hins hid
    ridesText := h.ridesText.insert hins htext
    fkRidesPassenger := Table.Each.insert h.fkRidesPassenger hins
      fun k hk => by
        cases hk
        exact hpassenger
    fkRidesDriver := Table.Each.insert h.fkRidesDriver hins hdriver }

theorem seq_range (seq : Nat) : 1 ≤ ((seq + 1 : Nat) : Int) ∧
    ((seq + 1 : Nat) : Int) ≤ (seq + 1 : Nat) := by omega

theorem SchemaHolds.kInsertUser (h : SchemaHolds db)
    (login password fullName : StdString) :
    SchemaHolds (kInsertUser login password fullName db).2 := by
  rcases insertReturning_checked [login, password, fullName] db.usersSeq
    (fun id db => { db with usersSeq := id }) _ db with
    heq | ⟨hlt, heq⟩ | ⟨hlt, htexts, row, hb⟩
  · exact heq.symm ▸ h
  · exact heq.symm ▸ { h with usersId := h.usersId.next hlt }
  · have hnext : SchemaHolds { db with usersSeq := db.usersSeq + 1 } :=
      { h with usersId := h.usersId.next hlt }
    obtain ⟨login', hlogin, hb⟩ := bind_ok hb
    obtain ⟨password', hpassword, hb⟩ := bind_ok hb
    obtain ⟨fullName', hfullName, hb⟩ := bind_ok hb
    obtain ⟨⟨⟩, hblank, hb⟩ := bind_ok hb
    obtain ⟨⟨⟩, hblank', hb⟩ := bind_ok hb
    obtain ⟨⟨⟩, hblank'', hb⟩ := bind_ok hb
    obtain ⟨⟨⟩, hunique, hb⟩ := bind_ok hb
    obtain ⟨users, hins, hb⟩ := bind_ok hb
    obtain ⟨-, hdb⟩ := Prod.mk.inj (Except.ok.inj hb)
    rw [Model.kInsertUser, ← hdb]
    refine hnext.user (insertRow_ok hins) (seq_range _) ?_
      ⟨columnText_of_varchar (bindTexts_mem htexts (by simp)) hlogin hblank,
        columnText_of_varchar (bindTexts_mem htexts (by simp)) hpassword hblank',
        columnText_of_varchar (bindTexts_mem htexts (by simp)) hfullName
          hblank''⟩
    simpa [Table.Each] using checkThat_ok hunique

theorem SchemaHolds.kInsertDriver (h : SchemaHolds db) (userId : Int)
    (carModel carNumber licenseNumber : StdString) :
    SchemaHolds (kInsertDriver userId carModel carNumber licenseNumber db).2 := by
  rcases insertReturning_checked [carModel, carNumber, licenseNumber]
    db.driversSeq (fun id db => { db with driversSeq := id }) _ db with
    heq | ⟨hlt, heq⟩ | ⟨hlt, htexts, row, hb⟩
  · exact heq.symm ▸ h
  · exact heq.symm ▸ { h with driversId := h.driversId.next hlt }
  · have hnext : SchemaHolds { db with driversSeq := db.driversSeq + 1 } :=
      { h with driversId := h.driversId.next hlt }
    obtain ⟨carModel', hmodel, hb⟩ := bind_ok hb
    obtain ⟨carNumber', hnumber, hb⟩ := bind_ok hb
    obtain ⟨licenseNumber', hlicense, hb⟩ := bind_ok hb
    obtain ⟨⟨⟩, hblank, hb⟩ := bind_ok hb
    obtain ⟨⟨⟩, hblank', hb⟩ := bind_ok hb
    obtain ⟨⟨⟩, hblank'', hb⟩ := bind_ok hb
    obtain ⟨⟨⟩, hunique, hb⟩ := bind_ok hb
    obtain ⟨drivers, hins, hb⟩ := bind_ok hb
    obtain ⟨⟨⟩, huser, hb⟩ := bind_ok hb
    obtain ⟨-, hdb⟩ := Prod.mk.inj (Except.ok.inj hb)
    rw [Model.kInsertDriver, ← hdb]
    refine hnext.driver (insertRow_ok hins) (seq_range _) ?_
      ⟨columnText_of_varchar (bindTexts_mem htexts (by simp)) hmodel hblank,
        columnText_of_varchar (bindTexts_mem htexts (by simp)) hnumber hblank',
        columnText_of_varchar (bindTexts_mem htexts (by simp)) hlicense
          hblank''⟩ (checkThat_ok huser)
    simpa [Table.Each, and_assoc] using checkThat_ok hunique

theorem SchemaHolds.kInsertRide (h : SchemaHolds db) (passengerId : Int)
    (pickup destination : StdString) (now : Timestamp) :
    SchemaHolds (kInsertRide passengerId pickup destination now db).2 := by
  rcases insertReturning_checked [pickup, destination] db.ridesSeq
    (fun id db => { db with ridesSeq := id }) _ db with
    heq | ⟨hlt, heq⟩ | ⟨hlt, htexts, row, hb⟩
  · exact heq.symm ▸ h
  · exact heq.symm ▸ { h with ridesId := h.ridesId.next hlt }
  · have hnext : SchemaHolds { db with ridesSeq := db.ridesSeq + 1 } :=
      { h with ridesId := h.ridesId.next hlt }
    obtain ⟨pickup', hpickup, hb⟩ := bind_ok hb
    obtain ⟨destination', hdestination, hb⟩ := bind_ok hb
    obtain ⟨⟨⟩, hblank, hb⟩ := bind_ok hb
    obtain ⟨⟨⟩, hblank', hb⟩ := bind_ok hb
    obtain ⟨rides, hins, hb⟩ := bind_ok hb
    obtain ⟨⟨⟩, hpassenger, hb⟩ := bind_ok hb
    obtain ⟨-, hdb⟩ := Prod.mk.inj (Except.ok.inj hb)
    rw [Model.kInsertRide, ← hdb]
    exact hnext.ride (insertRow_ok hins) (seq_range _)
      ⟨columnText_of_varchar (bindTexts_mem htexts (by simp)) hpickup hblank,
        columnText_of_varchar (bindTexts_mem htexts (by simp)) hdestination
          hblank'⟩ (checkThat_ok hpassenger) (fun k hk => by cases hk)

/-! ## Updates -/

/-- A driver whose status alone is different. -/
theorem SchemaHolds.replaceDriver (h : SchemaHolds db) {old : DriverRow}
    (hold : db.drivers.find? old.id = some old) (status : DriverStatus) :
    SchemaHolds { db with drivers := db.drivers.replace (old.setStatus status) } :=
  have hfind : db.drivers.find? (old.setStatus status).id = some old := hold
  have hmem : old ∈ db.drivers.rows := (Table.find?_some_iff.mp hold).1
  { h with
    driversId := h.driversId.replace hfind
    driversUserId := h.driversUserId.replace hfind rfl
    driversCarNumber := h.driversCarNumber.replace hfind rfl
    driversLicenseNumber := h.driversLicenseNumber.replace hfind rfl
    driversText := h.driversText.replace (h.driversText old hmem)
    fkDriversUser := Table.Each.replace h.fkDriversUser
      (h.fkDriversUser old hmem)
    fkRidesDriver := h.fkRidesDriver.replace _ }

/-- A ride that keeps its passenger and its addresses, with a driver there
is. -/
theorem SchemaHolds.replaceRide (h : SchemaHolds db) {old row : RideRow}
    (hold : db.rides.find? row.id = some old)
    (hpassenger : row.passengerId = old.passengerId)
    (hpickup : row.pickupAddress = old.pickupAddress)
    (hdestination : row.destinationAddress = old.destinationAddress)
    (hdriver : ∀ k, row.driverId = some k → (db.drivers.find? k).isSome) :
    SchemaHolds { db with rides := db.rides.replace row } :=
  have hmem : old ∈ db.rides.rows := (Table.find?_some_iff.mp hold).1
  { h with
    ridesId := h.ridesId.replace hold
    ridesText := h.ridesText.replace (by
      rw [hpickup, hdestination]
      exact h.ridesText old hmem)
    fkRidesPassenger := Table.Each.replace h.fkRidesPassenger fun k hk =>
      h.fkRidesPassenger old hmem k (by simpa [hpassenger] using hk)
    fkRidesDriver := Table.Each.replace h.fkRidesDriver hdriver }

theorem SchemaHolds.acceptRide (h : SchemaHolds db) (rideId driverId : Int) :
    SchemaHolds (acceptRide rideId driverId db).2 := by
  by_cases hd : ∃ drv, db.drivers.find? driverId = some drv ∧
      drv.status = .online
  · by_cases hr : ∃ ride, db.rides.find? rideId = some ride ∧
        ride.status = .searching
    · obtain ⟨drv, hdrv, hon⟩ := hd
      obtain ⟨ride, hride, hs⟩ := hr
      rw [acceptRide_ok hdrv hon hride hs]
      cases Table.find?_key hride
      cases Table.find?_key hdrv
      have hrides : SchemaHolds { db with
          rides := db.rides.replace (ride.setAccepted drv.id) } :=
        h.replaceRide hride rfl rfl rfl fun k hk => by
          cases hk
          rw [hdrv]
          rfl
      exact hrides.replaceDriver hdrv .busy
    · rw [acceptRide_refused (.inr fun ride hride hs => hr ⟨ride, hride, hs⟩)]
      exact h
  · rw [acceptRide_refused (.inl fun drv hdrv hon => hd ⟨drv, hdrv, hon⟩)]
    exact h

theorem SchemaHolds.completeRide (h : SchemaHolds db) (rideId : Int)
    (now : Timestamp) : SchemaHolds (completeRide rideId now db).2 := by
  by_cases hr : ∃ ride, db.rides.find? rideId = some ride ∧
      ride.status = .accepted
  · obtain ⟨ride, hride, hs⟩ := hr
    rw [completeRide_ok hride hs]
    cases Table.find?_key hride
    have hrides : SchemaHolds { db with
        rides := db.rides.replace (ride.setCompleted now) } :=
      h.replaceRide hride rfl rfl rfl
        (h.fkRidesDriver ride (Table.find?_some_iff.mp hride).1)
    cases hdrv : db.drivers.find? (ride.driverId.getD 0) with
    | none => exact hrides
    | some drv => exact hrides.replaceDriver (Table.find?_mem
        (Table.find?_some_iff.mp hdrv).1) .online
  · rw [completeRide_refused fun ride hride hs => hr ⟨ride, hride, hs⟩]
    exact h

/-- The step lemma, for every public method that writes. -/
theorem SchemaHolds.apply (h : SchemaHolds db) (m : Mutation) :
    SchemaHolds (m.apply db) := by
  cases m with
  | call op =>
      cases op with
      | createUser login password fullName =>
          show SchemaHolds (createUser login password fullName db).2
          rw [createUser, insertMethod_snd]
          exact h.kInsertUser login password fullName
      | createDriver userId carModel carNumber licenseNumber =>
          show SchemaHolds
            (createDriver userId carModel carNumber licenseNumber db).2
          rw [createDriver, insertMethod_snd]
          exact h.kInsertDriver userId carModel carNumber licenseNumber
      | createRide passengerId pickup destination now =>
          show SchemaHolds (createRide passengerId pickup destination now db).2
          rw [createRide, insertMethod_snd]
          exact h.kInsertRide passengerId pickup destination now
      | acceptRide rideId driverId => exact h.acceptRide rideId driverId
      | completeRide rideId now => exact h.completeRide rideId now
  | updateDriverStatus driverId status =>
      rw [Mutation.apply]
      rcases updateDriverStatus_cases driverId status db with
        heq | ⟨drv, st, hdrv, -, heq⟩
      · exact heq.symm ▸ h
      · rw [heq]
        exact h.replaceDriver (Table.find?_mem
          (Table.find?_some_iff.mp hdrv).1) st

theorem SchemaHolds.run (h : SchemaHolds db) (calls : List Mutation) :
    SchemaHolds (run Mutation.apply db calls) :=
  run_induction (fun _ m h => h.apply m) h

/-! ## `data.sql`

The script's inserts have the same checks as those of the service. Their texts
are literals, which are not sent as parameters.
-/

/-- Every literal is a text. -/
theorem seed_texts :
    (∀ d ∈ seedDrivers, bindText (bytes d.carModel) = .ok () ∧
      bindText (bytes d.carNumber) = .ok () ∧
      bindText (bytes d.licenseNumber) = .ok ()) ∧
    ∀ r ∈ seedRides, bindText (bytes r.pickupAddress) = .ok () ∧
      bindText (bytes r.destinationAddress) = .ok () := by
  decide +kernel

theorem inserted_some {α : Type} {res : Except PgError α × Db} {db' : Db}
    (h : inserted res = some db') : res.2 = db' := by
  rcases res with ⟨e | a, db⟩
  · cases h
  · exact Option.some.inj h

theorem SchemaHolds.insertUser (h : SchemaHolds db) {u : SeedUser} {db' : Db}
    (hu : insertUser db u = some db') : SchemaHolds db' := by
  rw [← inserted_some hu]
  exact h.kInsertUser _ _ _

theorem SchemaHolds.insertDriver (h : SchemaHolds db) {d : SeedDriver}
    {db' : Db} (hmem : d ∈ seedDrivers) (hd : insertDriver db d = some db') :
    SchemaHolds db' := by
  obtain ⟨htext, htext', htext''⟩ := seed_texts.1 d hmem
  obtain ⟨userId, -, hd⟩ := Option.bind_eq_some_iff.mp hd
  rw [← inserted_some hd]
  rcases insertReturning_checked [] db.driversSeq
    (fun id db => { db with driversSeq := id }) _ db with
    heq | ⟨hlt, heq⟩ | ⟨hlt, -, row, hb⟩
  · exact heq.symm ▸ h
  · exact heq.symm ▸ { h with driversId := h.driversId.next hlt }
  · have hnext : SchemaHolds { db with driversSeq := db.driversSeq + 1 } :=
      { h with driversId := h.driversId.next hlt }
    obtain ⟨carModel', hmodel, hb⟩ := bind_ok hb
    obtain ⟨carNumber', hnumber, hb⟩ := bind_ok hb
    obtain ⟨licenseNumber', hlicense, hb⟩ := bind_ok hb
    obtain ⟨⟨⟩, hblank, hb⟩ := bind_ok hb
    obtain ⟨⟨⟩, hblank', hb⟩ := bind_ok hb
    obtain ⟨⟨⟩, hblank'', hb⟩ := bind_ok hb
    obtain ⟨⟨⟩, hunique, hb⟩ := bind_ok hb
    obtain ⟨drivers, hins, hb⟩ := bind_ok hb
    obtain ⟨⟨⟩, huser, hb⟩ := bind_ok hb
    obtain ⟨-, hdb⟩ := Prod.mk.inj (Except.ok.inj hb)
    rw [← hdb]
    refine hnext.driver (insertRow_ok hins) (seq_range _) ?_
      ⟨columnText_of_varchar htext hmodel hblank,
        columnText_of_varchar htext' hnumber hblank',
        columnText_of_varchar htext'' hlicense hblank''⟩ (checkThat_ok huser)
    simpa [Table.Each, and_assoc] using checkThat_ok hunique

theorem SchemaHolds.insertRide (h : SchemaHolds db) {now : Timestamp}
    {r : SeedRide} {db' : Db} (hmem : r ∈ seedRides)
    (hr : insertRide now db r = some db') : SchemaHolds db' := by
  obtain ⟨htext, htext'⟩ := seed_texts.2 r hmem
  obtain ⟨passengerId, -, hr⟩ := Option.bind_eq_some_iff.mp hr
  rw [← inserted_some hr]
  rcases insertReturning_checked [] db.ridesSeq
    (fun id db => { db with ridesSeq := id }) _ db with
    heq | ⟨hlt, heq⟩ | ⟨hlt, -, row, hb⟩
  · exact heq.symm ▸ h
  · exact heq.symm ▸ { h with ridesId := h.ridesId.next hlt }
  · have hnext : SchemaHolds { db with ridesSeq := db.ridesSeq + 1 } :=
      { h with ridesId := h.ridesId.next hlt }
    obtain ⟨pickup', hpickup, hb⟩ := bind_ok hb
    obtain ⟨destination', hdestination, hb⟩ := bind_ok hb
    obtain ⟨⟨⟩, hblank, hb⟩ := bind_ok hb
    obtain ⟨⟨⟩, hblank', hb⟩ := bind_ok hb
    obtain ⟨rides, hins, hb⟩ := bind_ok hb
    obtain ⟨⟨⟩, hpassenger, hb⟩ := bind_ok hb
    obtain ⟨⟨⟩, hdriver, hb⟩ := bind_ok hb
    obtain ⟨-, hdb⟩ := Prod.mk.inj (Except.ok.inj hb)
    rw [← hdb]
    refine hnext.ride (insertRow_ok hins) (seq_range _)
      ⟨columnText_of_varchar htext hpickup hblank,
        columnText_of_varchar htext' hdestination hblank'⟩
      (checkThat_ok hpassenger) fun k hk => ?_
    change r.car.bind (driverIdOf db) = some k at hk
    have hall := checkThat_ok hdriver
    rw [hk] at hall
    exact hall

end

end TaxiService.Spec

namespace TaxiService.Proofs

open TaxiService.Lib TaxiService.Model TaxiService.Spec

/-- What every step of a script keeps holds after it. -/
theorem foldlM_some {σ α : Type} {P : σ → Prop} {f : σ → α → Option σ}
    {l : List α} (hstep : ∀ s a s', a ∈ l → P s → f s a = some s' → P s')
    {s s' : σ} (hs : P s) (h : l.foldlM f s = some s') : P s' := by
  induction l generalizing s with
  | nil =>
      cases h
      exact hs
  | cons a l ih =>
      rw [List.foldlM_cons] at h
      obtain ⟨t, ht, h⟩ := Option.bind_eq_some_iff.mp h
      exact ih (fun s a s' ha => hstep s a s' (List.mem_cons_of_mem _ ha))
        (hstep s a t List.mem_cons_self hs ht) h

theorem schemaHolds_deployed {now : Timestamp} {db : Db}
    (h : deployed now = some db) : SchemaHolds db := by
  rw [deployed, dataSql] at h
  obtain ⟨db₁, h₁, h⟩ := Option.bind_eq_some_iff.mp h
  obtain ⟨db₂, h₂, h⟩ := Option.bind_eq_some_iff.mp h
  have husers : SchemaHolds db₁ :=
    foldlM_some (fun _ _ _ _ hs ha => hs.insertUser ha) .empty h₁
  have hdrivers : SchemaHolds db₂ :=
    foldlM_some (fun _ _ _ hmem hs ha => hs.insertDriver hmem ha) husers h₂
  exact foldlM_some (fun _ _ _ hmem hs ha => hs.insertRide hmem ha) hdrivers h

/-- Every constraint of the schema holds in every state that the public methods
can bring about, from the tables of `schema.sql` and from those that `data.sql`
fills. -/
theorem schema_kept :
    (∀ calls, SchemaHolds (run Mutation.apply .empty calls)) ∧
    ∀ now, ∃ db, deployed now = some db ∧
      ∀ calls, SchemaHolds (run Mutation.apply db calls) := by
  refine ⟨fun calls => SchemaHolds.empty.run calls, fun now => ?_⟩
  obtain ⟨db, hdb, -⟩ := deployed_stranded now
  exact ⟨db, hdb, fun calls => (schemaHolds_deployed hdb).run calls⟩

end TaxiService.Proofs
