import TaxiService.Proofs.SchemaIntegrity
import TaxiService.Spec.StorageReads

/-!
# The look-ups tell what the writes have answered

The rows of a table, parsed, are the entities that the answers tell (`Known`),
and every write keeps that: what it changes it answers, and what it answers it
has changed. A look-up then reads a list in which nothing it looks for is there
twice, since the schema holds.
-/

namespace TaxiService.Proofs

open TaxiService.Lib TaxiService.Model TaxiService.Spec

/-- The tables hold what the answers tell. -/
structure Known (answers : List Answer) (db : Db) : Prop where
  users : db.users.rows.map parseUser = usersTold answers
  drivers : db.drivers.rows.map parseDriver = driversTold answers
  rides : ∀ k, (db.rides.find? k).map parseRide = (rideTold k answers).getLast?
  ordered : (db.drivers.rows.map DriverRow.id).Pairwise (· < ·)

/-! ## One more answer -/

theorem usersTold_concat (answers : List Answer) (a : Answer) :
    usersTold (answers ++ [a]) = usersTold answers ++ (user? a).toList := by
  rw [usersTold, List.filterMap_append, List.filterMap_cons]
  cases user? a <;> rfl

theorem driversTold_concat (answers : List Answer) (a : Answer) :
    driversTold (answers ++ [a]) = tellDrivers (driversTold answers) a :=
  List.foldl_concat ..

theorem rideTold_ride (answers : List Answer) (ride : Ride) (k : Int) :
    rideTold k (answers ++ [.ride ride]) =
      rideTold k answers ++ if ride.id = k then [ride] else [] := by
  rw [rideTold, List.filterMap_append, List.filter_append]
  congr 1
  simp only [List.filterMap_cons, ride?, List.filterMap_nil, List.filter_cons,
    decide_eq_true_eq, List.filter_nil]

theorem rideTold_other (answers : List Answer) {a : Answer}
    (h : ride? a = none) (k : Int) :
    rideTold k (answers ++ [a]) = rideTold k answers := by
  rw [rideTold, List.filterMap_append, List.filterMap_cons, h]
  simp [rideTold]

/-- The drivers after a statement that sets one driver's status. -/
theorem setStatus_rows {t : Table Int DriverRow DriverRow.id} {drv : DriverRow}
    (hdrv : t.find? drv.id = some drv) (st : DriverStatus) :
    (t.replace (drv.setStatus st)).rows.map parseDriver =
      (t.rows.map parseDriver).map fun d =>
        if d.id = drv.id then { d with status := st } else d := by
  rw [Table.replace_rows hdrv (DriverRow.setStatus_id st), List.map_map,
    List.map_map]
  refine List.map_congr_left fun r _ => ?_
  simp only [Function.comp_apply]
  by_cases hk : r.id = drv.id
  · rw [if_pos hk, if_pos (show (parseDriver r).id = drv.id from hk)]
    rfl
  · rw [if_neg hk, if_neg (show ¬(parseDriver r).id = drv.id from hk)]

/-- One that finds no driver. -/
theorem setStatus_none {t : Table Int DriverRow DriverRow.id} {k : Int}
    (hk : t.find? k = none) (st : DriverStatus) :
    t.rows.map parseDriver = (t.rows.map parseDriver).map fun d =>
      if d.id = k then { d with status := st } else d := by
  rw [List.map_map]
  refine List.map_congr_left fun r hr => ?_
  have hne : ¬(parseDriver r).id = k := Table.find?_none_iff.mp hk r hr
  simp only [Function.comp_apply, if_neg hne]

section

variable {answers : List Answer} {db db' : Db}

theorem Known.congr (h : Known answers db) (hu : db'.users = db.users)
    (hd : db'.drivers = db.drivers) (hr : db'.rides = db.rides) :
    Known answers db' :=
  ⟨hu ▸ h.users, hd ▸ h.drivers, hr ▸ h.rides, hd ▸ h.ordered⟩

theorem Known.user (h : Known answers db) {row : UserRow}
    (hins : db.users.insert? row = some db'.users)
    (hd : db'.drivers = db.drivers) (hr : db'.rides = db.rides) :
    Known (answers ++ [.user (parseUser row)]) db' where
  users := by
    rw [usersTold_concat, ← h.users, Table.insert?_rows hins, List.map_append]
    rfl
  drivers := by
    rw [driversTold_concat, hd, h.drivers, tellDrivers]
    simp [status?, driver?]
  rides k := by
    rw [rideTold_other answers rfl, hr]
    exact h.rides k
  ordered := hd ▸ h.ordered

theorem Known.driver (h : Known answers db) {row : DriverRow}
    (hins : db.drivers.insert? row = some db'.drivers)
    (hu : db'.users = db.users) (hr : db'.rides = db.rides)
    (hlast : ∀ d ∈ db.drivers.rows, d.id < row.id) :
    Known (answers ++ [.driver (parseDriver row)]) db' where
  users := by
    rw [usersTold_concat, hu, h.users]
    exact (List.append_nil _).symm
  drivers := by
    rw [driversTold_concat, ← h.drivers, Table.insert?_rows hins,
      List.map_append, tellDrivers]
    simp [status?, driver?]
  rides k := by
    rw [rideTold_other answers rfl, hr]
    exact h.rides k
  ordered := by
    rw [Table.insert?_rows hins, List.map_append, List.pairwise_append]
    refine ⟨h.ordered, List.pairwise_singleton _ _, fun a ha b hb => ?_⟩
    obtain ⟨d, hd, rfl⟩ := List.mem_map.mp ha
    rw [List.mem_singleton.mp hb]
    exact hlast d hd

theorem Known.ride (h : Known answers db) {row : RideRow}
    (hins : db.rides.insert? row = some db'.rides)
    (hs : row.status = .searching) (hu : db'.users = db.users)
    (hd : db'.drivers = db.drivers) :
    Known (answers ++ [.ride (parseRide row)]) db' where
  users := by
    rw [usersTold_concat, hu, h.users]
    exact (List.append_nil _).symm
  drivers := by
    have hstatus : ∀ k, status? k (.ride (parseRide row)) = none := by
      intro k
      simp only [status?, parseRide, hs, ite_self]
    rw [driversTold_concat, hd, h.drivers, tellDrivers]
    simp [hstatus, driver?]
  rides k := by
    rw [Table.find?_insert hins, rideTold_ride]
    by_cases hk : row.id = k
    · rw [if_pos hk, if_pos (show (parseRide row).id = k from hk)]
      exact List.getLast?_concat.symm
    · rw [if_neg hk, if_neg (show ¬(parseRide row).id = k from hk),
        List.append_nil]
      exact h.rides k
  ordered := hd ▸ h.ordered

/-- A call that sets the status of the driver `k` and says so. -/
theorem Known.assign (h : Known answers db) {a : Answer} {k : Int}
    {st : DriverStatus}
    (hstatus : ∀ j, status? j a = if k = j then some st else none)
    (huser : user? a = none) (hdriver : driver? a = none)
    (hu : db'.users = db.users)
    (hd : db'.drivers.rows.map parseDriver = (db.drivers.rows.map parseDriver).map
      fun d => if d.id = k then { d with status := st } else d)
    (hids : db'.drivers.rows.map DriverRow.id = db.drivers.rows.map DriverRow.id)
    (hr : ∀ k, (db'.rides.find? k).map parseRide =
      (rideTold k (answers ++ [a])).getLast?) : Known (answers ++ [a]) db' where
  users := by
    rw [usersTold_concat, huser, hu, h.users]
    exact (List.append_nil _).symm
  drivers := by
    rw [driversTold_concat, ← h.drivers, hd, tellDrivers, hdriver,
      Option.toList_none, List.append_nil]
    refine List.map_congr_left fun d _ => ?_
    rw [hstatus]
    by_cases hk : d.id = k
    · rw [if_pos hk, if_pos hk.symm]
      rfl
    · rw [if_neg hk, if_neg (Ne.symm hk)]
      rfl
  rides := hr
  ordered := hids ▸ h.ordered

theorem Known.replaceRide (h : Known answers db) (row : RideRow)
    {old : RideRow} (hold : db.rides.find? row.id = some old) (k : Int) :
    ((db.rides.replace row).find? k).map parseRide =
      (rideTold k (answers ++ [.ride (parseRide row)])).getLast? := by
  rw [Table.find?_replace_some hold, rideTold_ride]
  by_cases hk : row.id = k
  · rw [if_pos hk, if_pos (show (parseRide row).id = k from hk)]
    exact List.getLast?_concat.symm
  · rw [if_neg hk, if_neg (show ¬(parseRide row).id = k from hk),
      List.append_nil]
    exact h.rides k

theorem Known.accept (h : Known answers db) (rideId driverId : Int) :
    Known (answers ++ ((acceptRide rideId driverId db).1.map .ride).toList)
      (acceptRide rideId driverId db).2 := by
  by_cases hd : ∃ drv, db.drivers.find? driverId = some drv ∧
      drv.status = .online
  · by_cases hr : ∃ ride, db.rides.find? rideId = some ride ∧
        ride.status = .searching
    · obtain ⟨drv, hdrv, hon⟩ := hd
      obtain ⟨ride, hride, hs⟩ := hr
      rw [acceptRide_ok hdrv hon hride hs]
      cases Table.find?_key hride
      cases Table.find?_key hdrv
      exact h.assign (fun j => rfl) rfl rfl rfl (setStatus_rows hdrv .busy)
        (Table.map_replace hdrv rfl)
        (h.replaceRide (ride.setAccepted drv.id) hride)
    · rw [acceptRide_refused (.inr fun ride hride hs => hr ⟨ride, hride, hs⟩),
        Option.map_none, Option.toList_none, List.append_nil]
      exact h
  · rw [acceptRide_refused (.inl fun drv hdrv hon => hd ⟨drv, hdrv, hon⟩),
      Option.map_none, Option.toList_none, List.append_nil]
    exact h

theorem Known.complete (h : Known answers db) (rideId : Int)
    (now : Timestamp) :
    Known (answers ++ ((completeRide rideId now db).1.map .ride).toList)
      (completeRide rideId now db).2 := by
  by_cases hr : ∃ ride, db.rides.find? rideId = some ride ∧
      ride.status = .accepted
  · obtain ⟨ride, hride, hs⟩ := hr
    rw [completeRide_ok hride hs]
    cases Table.find?_key hride
    have hrides := h.replaceRide (ride.setCompleted now) hride
    cases hdrv : db.drivers.find? (ride.driverId.getD 0) with
    | none =>
        exact h.assign (fun j => rfl) rfl rfl rfl (setStatus_none hdrv .online)
          rfl hrides
    | some drv =>
        have hself : db.drivers.find? drv.id = some drv :=
          Table.find?_mem (Table.find?_some_iff.mp hdrv).1
        have hrows := setStatus_rows hself .online
        rw [show drv.id = _ from Table.find?_key hdrv] at hrows
        exact h.assign (fun j => rfl) rfl rfl rfl hrows
          (Table.map_replace hself rfl) hrides
  · rw [completeRide_refused fun ride hride hs => hr ⟨ride, hride, hs⟩,
      Option.map_none, Option.toList_none, List.append_nil]
    exact h

end

/-- What `UpdateDriverStatus` answers it has written. -/
theorem updateDriverStatus_answer (driverId : Int) (status : StdString)
    (db : Db) :
    (entity? (updateDriverStatus driverId status db).1 = none ∧
      (updateDriverStatus driverId status db).2 = db) ∨
    ∃ drv st, db.drivers.find? driverId = some drv ∧
      updateDriverStatus driverId status db =
        (.ok (some (parseDriver (drv.setStatus st))),
          { db with drivers := db.drivers.replace (drv.setStatus st) }) := by
  have hpin : (fun d : DriverRow => decide (d.id = driverId)) =
      fun d => decide (d.id = driverId) && (fun _ => true) d := by
    funext d
    rw [Bool.and_true]
  cases hk : kUpdateDriverStatus driverId status db with
  | error e =>
      refine .inl ?_
      simp only [updateDriverStatus, hk, entity?, and_self]
  | ok res =>
      obtain ⟨-, -, hk'⟩ := bind_ok hk
      dsimp only at hk'
      split at hk'
      · cases hk'
        refine .inl ?_
        simp only [updateDriverStatus, hk, entity?, and_self]
      · next hsome =>
          obtain ⟨s', -, hk'⟩ := bind_ok hk'
          obtain ⟨st, -, hk'⟩ := bind_ok hk'
          cases hd : db.drivers.find? driverId with
          | none =>
              refine absurd ?_ hsome
              rw [List.isEmpty_iff, hpin]
              exact Table.select_none fun r hr => by rw [hd] at hr; cases hr
          | some drv =>
              refine .inr ⟨drv, st, rfl, ?_⟩
              have hsel := Table.select_some hd (q := fun _ => true) rfl
              have hupd := Table.update_some (DriverRow.setStatus_id st) hd
                (q := fun _ => true) rfl
              rw [hpin, hsel, hupd] at hk'
              cases hk'
              rw [updateDriverStatus, hk]
              rfl

/-! ## Runs -/

theorem kInsertDriver_last {userId : Int}
    {carModel carNumber licenseNumber : StdString} {db db' : Db} {row : DriverRow}
    (h : kInsertDriver userId carModel carNumber licenseNumber db =
      (.ok [row], db')) : row.id = (db.driversSeq + 1 : Nat) := by
  rw [kInsertDriver] at h
  rcases insertReturning_cases (ρ := DriverRow)
    [carModel, carNumber, licenseNumber] db.driversSeq
    (fun id db => { db with driversSeq := id }) _ db with
    ⟨e, db', heq, -⟩ | ⟨row', db', heq, hb⟩
  · rw [heq] at h
    cases h
  · rw [heq] at h
    cases h
    obtain ⟨carModel', -, hb⟩ := bind_ok hb
    obtain ⟨carNumber', -, hb⟩ := bind_ok hb
    obtain ⟨licenseNumber', -, hb⟩ := bind_ok hb
    obtain ⟨-, -, hb⟩ := bind_ok hb
    obtain ⟨-, -, hb⟩ := bind_ok hb
    obtain ⟨-, -, hb⟩ := bind_ok hb
    obtain ⟨-, -, hb⟩ := bind_ok hb
    obtain ⟨drivers, -, hb⟩ := bind_ok hb
    obtain ⟨-, -, hb⟩ := bind_ok hb
    cases hb
    rfl

/-- An insert that failed answers nothing, whether the failure was caught or
not. -/
theorem entity?_error {ρ α : Type} (caught : List PgError) (parse : ρ → α)
    (e : PgError) (db : Db) :
    entity? (insertMethod caught parse
      ((.error e, db) : Except PgError (List ρ) × Db)).1 = none := by
  simp only [insertMethod]
  split <;> rfl

/-- The step lemma. -/
theorem Known.apply {answers : List Answer} {db : Db} (h : Known answers db)
    (hschema : SchemaHolds db) (m : Mutation) :
    Known (answers ++ (answer? db m).toList) (m.apply db) := by
  cases m with
  | call op =>
      cases op with
      | createUser login password fullName =>
          show Known (answers ++ ((entity? (createUser login password fullName
            db).1).map .user).toList) (createUser login password fullName db).2
          rw [createUser]
          rcases kInsertUser_cases login password fullName db with
            ⟨e, db', heq, hsame⟩ | ⟨row, db', heq, hins, hd, hr⟩
          · rw [heq, entity?_error, Option.map_none, Option.toList_none,
              List.append_nil]
            exact h.congr hsame.1 hsame.2.1 hsame.2.2
          · rw [heq]
            exact h.user hins hd hr
      | createDriver userId carModel carNumber licenseNumber =>
          show Known (answers ++ ((entity? (createDriver userId carModel carNumber
            licenseNumber db).1).map .driver).toList)
            (createDriver userId carModel carNumber licenseNumber db).2
          rw [createDriver]
          rcases kInsertDriver_cases userId carModel carNumber licenseNumber db
            with ⟨e, db', heq, hsame⟩ | ⟨row, db', heq, -, -, hins, hu, hr⟩
          · rw [heq, entity?_error, Option.map_none, Option.toList_none,
              List.append_nil]
            exact h.congr hsame.1 hsame.2.1 hsame.2.2
          · have hlast := kInsertDriver_last heq
            rw [heq]
            refine h.driver hins hu hr fun d hd => ?_
            have hrange := (hschema.driversId.range d hd).2
            omega
      | createRide passengerId pickup destination now =>
          show Known (answers ++ ((entity? (createRide passengerId pickup
            destination now db).1).map .ride).toList)
            (createRide passengerId pickup destination now db).2
          rw [createRide]
          rcases kInsertRide_cases passengerId pickup destination now db with
            ⟨e, db', heq, hsame⟩ | ⟨row, db', heq, hs, -, -, hins, hu, hd⟩
          · rw [heq, entity?_error, Option.map_none, Option.toList_none,
              List.append_nil]
            exact h.congr hsame.1 hsame.2.1 hsame.2.2
          · rw [heq]
            exact h.ride hins hs hu hd
      | acceptRide rideId driverId => exact h.accept rideId driverId
      | completeRide rideId now => exact h.complete rideId now
  | updateDriverStatus driverId status =>
      show Known (answers ++ ((entity? (updateDriverStatus driverId status
        db).1).map .status).toList) (updateDriverStatus driverId status db).2
      rcases updateDriverStatus_answer driverId status db with
        ⟨hnone, hdb⟩ | ⟨drv, st, hdrv, heq⟩
      · rw [hnone, hdb, Option.map_none, Option.toList_none, List.append_nil]
        exact h
      · rw [heq]
        cases Table.find?_key hdrv
        refine h.assign (fun j => rfl) rfl rfl rfl (setStatus_rows hdrv st)
          (Table.map_replace hdrv rfl) fun k => ?_
        exact (h.rides k).trans
          (congrArg List.getLast? (rideTold_other answers rfl k).symm)

theorem answersOf_concat (db : Db) (calls : List Mutation) (m : Mutation) :
    answersOf db (calls ++ [m]) =
      answersOf db calls ++ (answer? (run Mutation.apply db calls) m).toList := by
  induction calls generalizing db with
  | nil => exact List.append_nil _
  | cons c calls ih =>
      rw [List.cons_append, answersOf, ih, answersOf, List.append_assoc]
      rfl

theorem known_run (calls : List Mutation) :
    Known (answersOf .empty calls) (run Mutation.apply .empty calls) := by
  induction calls using List.reverseRecOn with
  | nil => exact ⟨rfl, rfl, fun k => rfl, List.Pairwise.nil⟩
  | append_singleton calls m ih =>
      rw [answersOf_concat, run_concat]
      exact ih.apply (SchemaHolds.empty.run calls) m

/-! ## The look-ups -/

theorem firstRow_select {ρ α κ : Type} {key : ρ → κ} (parse : ρ → α)
    (t : Table κ ρ key) (p : ρ → Bool) (q : α → Bool)
    (h : ∀ r, p r = q (parse r)) :
    firstRow parse (t.select p) = (t.rows.map parse).find? q := by
  have hhead : firstRow parse (t.select p) = (t.select p).head?.map parse := by
    cases t.select p <;> rfl
  have hp : p = q ∘ parse := funext h
  rw [hhead, Table.select, List.head?_filter, List.find?_map, hp]

theorem getUserByLogin_firstRow {login : StdString}
    (h : bindText login = .ok ()) (db : Db) : getUserByLogin login db =
      .ok (firstRow parseUser (db.users.select fun u => u.login == login)) := by
  have hrows : kSelectUserByLogin login db =
      .ok (db.users.select fun u => u.login == login) := by
    rw [kSelectUserByLogin, h]
    rfl
  rw [getUserByLogin, hrows]
  cases db.users.select fun u => u.login == login <;> rfl

/-- In every run of the writes of the public interface, every look-up tells
what the answers to the writes have told, and there is one entity at most that
it can mean. -/
theorem lookups_tell_answers (calls : List Mutation) :
    Shown (answersOf .empty calls) (run Mutation.apply .empty calls) := by
  have hschema := SchemaHolds.empty.run calls
  have h := known_run calls
  generalize run Mutation.apply .empty calls = db at h hschema ⊢
  generalize answersOf .empty calls = answers at h ⊢
  refine ⟨fun userId => ?_, fun login hlogin => ?_, fun driverId => ?_,
    fun userId => ?_, ?_, fun rideId => ?_, ⟨?_, ?_⟩, ⟨?_, ?_⟩⟩
  · rw [← h.users]
    exact firstRow_select parseUser _ _ _ fun r => rfl
  · rw [← h.users, getUserByLogin_firstRow hlogin]
    exact congrArg _ (firstRow_select parseUser _ _ _ fun r => rfl)
  · rw [← h.drivers]
    exact firstRow_select parseDriver _ _ _ fun r => rfl
  · rw [← h.drivers]
    exact firstRow_select parseDriver _ _ _ fun r => rfl
  · have hsorted : (db.drivers.rows.filter fun d => d.status == .online).Pairwise
        fun a b => a.id ≤ b.id :=
      ((List.pairwise_map.mp h.ordered).sublist List.filter_sublist).imp le_of_lt
    rw [getActiveDrivers, kSelectActiveDrivers, Table.select,
      List.Pairwise.insertionSort_eq hsorted, ← h.drivers, List.filter_map]
    rfl
  · rw [← h.rides]
    cases hr : db.rides.find? rideId with
    | none =>
        have hnone : kSelectRideById rideId db = [] :=
          List.filter_eq_nil_iff.mpr fun r hr' => by
            simpa using Table.find?_none_iff.mp hr r hr'
        rw [getRideById, hnone]
        rfl
    | some row =>
        have hone : kSelectRideById rideId db = [row] := by
          have hsel := Table.select_some hr (q := fun _ => true) rfl
          simpa [kSelectRideById] using hsel
        rw [getRideById, hone]
        rfl
  · rw [← h.users, List.map_map]
    exact db.users.nodup
  · rw [← h.users, List.map_map]
    exact hschema.usersLogin
  · rw [← h.drivers, List.map_map]
    exact h.ordered
  · rw [← h.drivers, List.map_map]
    exact hschema.driversUserId

end TaxiService.Proofs
