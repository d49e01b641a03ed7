import TaxiService.Lib.Prog
import TaxiService.Lib.Run
import TaxiService.Model.StorageOps

/-!
# What a storage call can do

One lemma per statement, so that nothing above this file unfolds SQL. The
two transactional methods have an equation for each outcome: the rows they
replace when both guards hold, and the untouched database otherwise. The
inserts have an inversion lemma: whatever fails on the way in, the tables
are as they were, and otherwise one row with a fresh id is new.

`Change` gathers them: it lists everything a call of the service can do to
the three tables, and `apply_change` says that a call does one of these.
-/

namespace TaxiService.Model

open TaxiService.Lib

/-! ## The transactional methods -/

theorem acceptRide_ok {db : Db} {rideId driverId : Int} {drv : DriverRow}
    {ride : RideRow} (hd : db.drivers.find? driverId = some drv)
    (hon : drv.status = .online) (hr : db.rides.find? rideId = some ride)
    (hs : ride.status = .searching) :
    acceptRide rideId driverId db =
      (some (parseRide (ride.setAccepted driverId)),
        { db with
          drivers := db.drivers.replace drv.setBusy
          rides := db.rides.replace (ride.setAccepted driverId) }) := by
  have hdq : (drv.status == .online) = true := by simp [hon]
  have hrq : (ride.status == .searching && !false) = true := by simp [hs]
  simp only [acceptRide, kAcceptRide]
  rw [Table.select_some hd hdq, Table.update_some _ hd hdq]
  simp only [List.isEmpty_cons]
  rw [Table.select_some hr hrq, Table.update_some _ hr hrq]
  rfl

/-- No row comes back when a guard fails, whichever it is, and the rollback
leaves the database as it was. -/
theorem acceptRide_refused {db : Db} {rideId driverId : Int}
    (h : (∀ drv, db.drivers.find? driverId = some drv → drv.status ≠ .online) ∨
      (∀ ride, db.rides.find? rideId = some ride →
        ride.status ≠ .searching)) :
    acceptRide rideId driverId db = (none, db) := by
  have hempty : (kAcceptRide rideId driverId db).1 = [] := by
    simp only [kAcceptRide, List.map_eq_nil_iff]
    refine Table.select_none fun ride hr => ?_
    rcases h with h | h
    · rw [Table.select_none fun drv hd => by simpa using h drv hd]
      simp
    · simp [h ride hr]
  simp only [acceptRide, finish]
  split
  · rfl
  · next row rows after hk =>
      rw [hk] at hempty
      cases hempty

theorem completeRide_ok {db : Db} {rideId : Int} {now : Timestamp}
    {ride : RideRow} (hr : db.rides.find? rideId = some ride)
    (hs : ride.status = .accepted) :
    completeRide rideId now db =
      (some (parseRide (ride.setCompleted now)),
        { db with
          rides := db.rides.replace (ride.setCompleted now)
          drivers := match db.drivers.find? (ride.driverId.getD 0) with
            | some drv => db.drivers.replace drv.setOnline
            | none => db.drivers }) := by
  have hrq : (ride.status == .accepted) = true := by simp [hs]
  have hdrv : ∀ k, db.drivers.update (fun d => decide (d.id = k))
      DriverRow.setOnline DriverRow.setOnline_id =
      match db.drivers.find? k with
      | some drv => db.drivers.replace drv.setOnline
      | none => db.drivers := by
    intro k
    have hp : (fun d : DriverRow => decide (d.id = k)) =
        fun d => decide (d.id = k) && (fun _ => true) d := by
      funext d
      rw [Bool.and_true]
    rw [hp]
    cases hd : db.drivers.find? k with
    | some drv => exact Table.update_some _ hd rfl
    | none => exact Table.update_none _ (by rw [hd]; intro r h; cases h)
  simp only [completeRide, kCompleteRide]
  rw [Table.select_some hr hrq, Table.update_some _ hr hrq]
  simp only [List.map_cons, List.map_nil, finish, hdrv]
  rfl

theorem completeRide_refused {db : Db} {rideId : Int} {now : Timestamp}
    (h : ∀ ride, db.rides.find? rideId = some ride →
      ride.status ≠ .accepted) :
    completeRide rideId now db = (none, db) := by
  have hempty : (kCompleteRide rideId now db).1 = [] := by
    simp only [kCompleteRide, List.map_eq_nil_iff]
    exact Table.select_none fun ride hr => by simpa using h ride hr
  simp only [completeRide, finish]
  split
  · rfl
  · next row rows after hk =>
      rw [hk] at hempty
      cases hempty

/-! ## The inserts -/

theorem insertRow_ok {ρ : Type} {key : ρ → Int} {t t' : Table Int ρ key} {r : ρ}
    (h : insertRow t r = .ok t') : t.insert? r = some t' := by
  rw [insertRow] at h
  split at h
  · cases h
  · next hi => cases h; exact hi

/-- The two ways an insert ends: with an error and nothing but the sequence
moved, or with the one row its checks let through, under a fresh id. -/
theorem insertReturning_cases {ρ : Type} (texts : List StdString) (seq : Nat)
    (bump : Nat → Db → Db) (build : Int → Db → Except PgError (ρ × Db))
    (db : Db) :
    (∃ e db', insertReturning texts seq bump build db = (.error e, db') ∧
      (db' = db ∨ db' = bump (seq + 1) db)) ∨
    (∃ row db', insertReturning texts seq bump build db = (.ok [row], db') ∧
      build (seq + 1 : Nat) (bump (seq + 1) db) = .ok (row, db')) := by
  simp only [insertReturning, nextval]
  split
  · exact .inl ⟨_, _, rfl, .inl rfl⟩
  · split
    · exact .inl ⟨_, _, rfl, .inl rfl⟩
    · next hid =>
        split at hid
        · cases hid
          split
          · exact .inl ⟨_, _, rfl, .inr rfl⟩
          · next hb => exact .inr ⟨_, _, rfl, hb⟩
        · cases hid

/-- The rows of the three tables, without the sequences. -/
def SameTables (db db' : Db) : Prop :=
  db'.users = db.users ∧ db'.drivers = db.drivers ∧ db'.rides = db.rides

theorem SameTables.refl (db : Db) : SameTables db db := ⟨rfl, rfl, rfl⟩

theorem kInsertUser_cases (login password fullName : StdString) (db : Db) :
    (∃ e db', kInsertUser login password fullName db = (.error e, db') ∧
      SameTables db db') ∨
    (∃ row db', kInsertUser login password fullName db = (.ok [row], db') ∧
      db.users.insert? row = some db'.users ∧ db'.drivers = db.drivers ∧
      db'.rides = db.rides) := by
  rcases insertReturning_cases (ρ := UserRow) [login, password, fullName]
    db.usersSeq (fun id db => { db with usersSeq := id }) _ db with
    ⟨e, db', heq, hsame⟩ | ⟨row, db', heq, hb⟩
  · refine .inl ⟨e, db', heq, ?_⟩
    rcases hsame with rfl | rfl <;> exact .refl _
  · refine .inr ⟨row, db', heq, ?_⟩
    obtain ⟨login', -, hb⟩ := bind_ok hb
    obtain ⟨password', -, hb⟩ := bind_ok hb
    obtain ⟨fullName', -, hb⟩ := bind_ok hb
    obtain ⟨-, -, hb⟩ := bind_ok hb
    obtain ⟨-, -, hb⟩ := bind_ok hb
    obtain ⟨-, -, hb⟩ := bind_ok hb
    obtain ⟨-, -, hb⟩ := bind_ok hb
    obtain ⟨users, hins, hb⟩ := bind_ok hb
    cases hb
    exact ⟨insertRow_ok hins, rfl, rfl⟩

theorem kInsertDriver_cases (userId : Int)
    (carModel carNumber licenseNumber : StdString) (db : Db) :
    (∃ e db', kInsertDriver userId carModel carNumber licenseNumber db =
        (.error e, db') ∧ SameTables db db') ∨
    (∃ row db', kInsertDriver userId carModel carNumber licenseNumber db =
        (.ok [row], db') ∧
      row.status = .online ∧ 0 < row.id ∧
      db.drivers.insert? row = some db'.drivers ∧ db'.users = db.users ∧
      db'.rides = db.rides) := by
  rcases insertReturning_cases (ρ := DriverRow)
    [carModel, carNumber, licenseNumber] db.driversSeq
    (fun id db => { db with driversSeq := id }) _ db with
    ⟨e, db', heq, hsame⟩ | ⟨row, db', heq, hb⟩
  · refine .inl ⟨e, db', heq, ?_⟩
    rcases hsame with rfl | rfl <;> exact .refl _
  · refine .inr ⟨row, db', heq, ?_⟩
    obtain ⟨carModel', -, hb⟩ := bind_ok hb
    obtain ⟨carNumber', -, hb⟩ := bind_ok hb
    obtain ⟨licenseNumber', -, hb⟩ := bind_ok hb
    obtain ⟨-, -, hb⟩ := bind_ok hb
    obtain ⟨-, -, hb⟩ := bind_ok hb
    obtain ⟨-, -, hb⟩ := bind_ok hb
    obtain ⟨-, -, hb⟩ := bind_ok hb
    obtain ⟨drivers, hins, hb⟩ := bind_ok hb
    obtain ⟨-, -, hb⟩ := bind_ok hb
    cases hb
    exact ⟨rfl, Int.natCast_pos.mpr (Nat.succ_pos _), insertRow_ok hins, rfl,
      rfl⟩

theorem kInsertRide_cases (passengerId : Int)
    (pickup destination : StdString) (now : Timestamp) (db : Db) :
    (∃ e db', kInsertRide passengerId pickup destination now db =
        (.error e, db') ∧ SameTables db db') ∨
    (∃ row db', kInsertRide passengerId pickup destination now db =
        (.ok [row], db') ∧
      row.status = .searching ∧ row.driverId = none ∧ row.completedAt = none ∧
      db.rides.insert? row = some db'.rides ∧ db'.users = db.users ∧
      db'.drivers = db.drivers) := by
  rcases insertReturning_cases (ρ := RideRow) [pickup, destination] db.ridesSeq
    (fun id db => { db with ridesSeq := id }) _ db with
    ⟨e, db', heq, hsame⟩ | ⟨row, db', heq, hb⟩
  · refine .inl ⟨e, db', heq, ?_⟩
    rcases hsame with rfl | rfl <;> exact .refl _
  · refine .inr ⟨row, db', heq, ?_⟩
    obtain ⟨pickup', -, hb⟩ := bind_ok hb
    obtain ⟨destination', -, hb⟩ := bind_ok hb
    obtain ⟨-, -, hb⟩ := bind_ok hb
    obtain ⟨-, -, hb⟩ := bind_ok hb
    obtain ⟨rides, hins, hb⟩ := bind_ok hb
    obtain ⟨-, -, hb⟩ := bind_ok hb
    cases hb
    exact ⟨rfl, rfl, rfl, insertRow_ok hins, rfl, rfl⟩

/-! ## Everything a call can do -/

/-- What a call does to the tables, with the ride it answers. -/
inductive Change (db : Db) : Option Ride × Db → Prop where
  | none {db' : Db} (h : SameTables db db') : Change db (none, db')
  | user {db' : Db} (hd : db'.drivers = db.drivers)
      (hr : db'.rides = db.rides) : Change db (none, db')
  | driver {db' : Db} {row : DriverRow} (hon : row.status = .online)
      (hpos : 0 < row.id) (hins : db.drivers.insert? row = some db'.drivers)
      (hr : db'.rides = db.rides) : Change db (none, db')
  | ride {db' : Db} {row : RideRow} (hs : row.status = .searching)
      (hn : row.driverId = none) (hc : row.completedAt = none)
      (hins : db.rides.insert? row = some db'.rides)
      (hd : db'.drivers = db.drivers) : Change db (some (parseRide row), db')
  | accept {db' : Db} {drv : DriverRow} {ride : RideRow}
      (hdrv : db.drivers.find? drv.id = some drv) (hon : drv.status = .online)
      (hride : db.rides.find? ride.id = some ride)
      (hs : ride.status = .searching)
      (hd : db'.drivers = db.drivers.replace drv.setBusy)
      (hr : db'.rides = db.rides.replace (ride.setAccepted drv.id)) :
      Change db (some (parseRide (ride.setAccepted drv.id)), db')
  | complete {db' : Db} {ride : RideRow} (now : Timestamp)
      (hride : db.rides.find? ride.id = some ride)
      (hs : ride.status = .accepted)
      (hd : db'.drivers = match db.drivers.find? (ride.driverId.getD 0) with
        | some drv => db.drivers.replace drv.setOnline
        | none => db.drivers)
      (hr : db'.rides = db.rides.replace (ride.setCompleted now)) :
      Change db (some (parseRide (ride.setCompleted now)), db')

theorem acceptRide_change (rideId driverId : Int) (db : Db) :
    Change db (acceptRide rideId driverId db) := by
  by_cases hd : ∃ drv, db.drivers.find? driverId = some drv ∧
      drv.status = .online
  · by_cases hr : ∃ ride, db.rides.find? rideId = some ride ∧
        ride.status = .searching
    · obtain ⟨drv, hdrv, hon⟩ := hd
      obtain ⟨ride, hride, hs⟩ := hr
      rw [acceptRide_ok hdrv hon hride hs]
      cases Table.find?_key hdrv
      cases Table.find?_key hride
      exact .accept hdrv hon hride hs rfl rfl
    · rw [acceptRide_refused
        (.inr fun ride hride hs => hr ⟨ride, hride, hs⟩)]
      exact .none (.refl db)
  · rw [acceptRide_refused (.inl fun drv hdrv hon => hd ⟨drv, hdrv, hon⟩)]
    exact .none (.refl db)

theorem completeRide_change (rideId : Int) (now : Timestamp) (db : Db) :
    Change db (completeRide rideId now db) := by
  by_cases hr : ∃ ride, db.rides.find? rideId = some ride ∧
      ride.status = .accepted
  · obtain ⟨ride, hride, hs⟩ := hr
    rw [completeRide_ok hride hs]
    cases Table.find?_key hride
    exact .complete now hride hs rfl rfl
  · rw [completeRide_refused fun ride hride hs => hr ⟨ride, hride, hs⟩]
    exact .none (.refl db)

theorem exec_change (db : Db) (op : StorageOp) : Change db (op.exec db) := by
  cases op with
  | createUser login password fullName =>
      rw [StorageOp.exec, createUser]
      rcases kInsertUser_cases login password fullName db with
        ⟨e, db', heq, hsame⟩ | ⟨row, db', heq, hins, hd, hr⟩
      · rw [heq]; exact .none hsame
      · rw [heq]; exact .user hd hr
  | createDriver userId carModel carNumber licenseNumber =>
      rw [StorageOp.exec, createDriver]
      rcases kInsertDriver_cases userId carModel carNumber licenseNumber db with
        ⟨e, db', heq, hsame⟩ | ⟨row, db', heq, hon, hpos, hins, hu, hr⟩
      · rw [heq]; exact .none hsame
      · rw [heq]; exact .driver hon hpos hins hr
  | createRide passengerId pickup destination now =>
      rw [StorageOp.exec, createRide]
      rcases kInsertRide_cases passengerId pickup destination now db with
        ⟨e, db', heq, hsame⟩ | ⟨row, db', heq, hs, hn, hc, hins, hu, hd⟩
      · rw [heq]
        simp only [insertMethod]
        split <;> exact .none hsame
      · rw [heq]; exact .ride hs hn hc hins hd
  | acceptRide rideId driverId => exact acceptRide_change rideId driverId db
  | completeRide rideId now => exact completeRide_change rideId now db

end TaxiService.Model
