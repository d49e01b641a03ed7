import Mathlib.Data.List.Forall2
import Mathlib.Data.List.Induction
import TaxiService.Proofs.StorageSpec
import TaxiService.Spec.RideHistory

/-!
# No ride is lost or shown twice

The rows of `rides` stand in the order in which they were inserted, and row by
row they tell what the callers were told (`Tells`). An insert adds the last
row, with an id and a creation time that none before it exceeds, and an update
moves no row. So the rows are in the order of both columns a list is sorted by,
and sorting leaves them alone or turns them around.
-/

namespace TaxiService.Proofs

open TaxiService.Lib TaxiService.Model TaxiService.Spec

/-! ## What a call does to the rides -/

/-- The four things a call can do to `rides`, with what it answers. -/
inductive RideMove (db : Db) : StorageOp → Option Ride × Db → Prop where
  | stay {op : StorageOp} {db' : Db} (hrides : db'.rides = db.rides)
      (hseq : db.ridesSeq ≤ db'.ridesSeq) : RideMove db op (none, db')
  | create {passengerId : Int} {pickup destination : StdString}
      {now : Timestamp} {row : RideRow} {db' : Db}
      (hid : row.id = (db.ridesSeq + 1 : Nat)) (hnow : row.createdAt = now)
      (hs : row.status = .searching) (hn : row.driverId = none)
      (hrows : db'.rides.rows = db.rides.rows ++ [row])
      (hseq : db'.ridesSeq = db.ridesSeq + 1) :
      RideMove db (.createRide passengerId pickup destination now)
        (some (parseRide row), db')
  | accept {rideId driverId : Int} {row : RideRow} {db' : Db}
      (hrow : db.rides.find? rideId = some row) (hs : row.status = .searching)
      (hrows : db'.rides.rows = db.rides.rows.map fun r =>
        if r.id = rideId then r.setAccepted driverId else r)
      (hseq : db'.ridesSeq = db.ridesSeq) :
      RideMove db (.acceptRide rideId driverId)
        (some (parseRide (row.setAccepted driverId)), db')
  | complete {rideId : Int} {now : Timestamp} {row : RideRow} {db' : Db}
      (hrow : db.rides.find? rideId = some row) (hs : row.status = .accepted)
      (hrows : db'.rides.rows = db.rides.rows.map fun r =>
        if r.id = rideId then r.setCompleted now else r)
      (hseq : db'.ridesSeq = db.ridesSeq) :
      RideMove db (.completeRide rideId now)
        (some (parseRide (row.setCompleted now)), db')

/-- What neither the sequence nor the row is about stays as it was. -/
theorem insertReturning_keeps {ρ β : Type} {texts : List StdString} {seq : Nat}
    {bump : Nat → Db → Db} {build : Int → Db → Except PgError (ρ × Db)}
    (part : Db → β) (hbump : ∀ id db, part (bump id db) = part db)
    (hbuild : ∀ id db row db', build id db = .ok (row, db') →
      part db' = part db) (db : Db) :
    part (insertReturning texts seq bump build db).2 = part db := by
  rcases insertReturning_cases texts seq bump build db with
    ⟨e, db', heq, hsame⟩ | ⟨row, db', heq, hb⟩
  · rw [heq]
    rcases hsame with rfl | rfl
    · rfl
    · exact hbump _ db
  · rw [heq]
    exact (hbuild _ _ _ _ hb).trans (hbump _ _)

theorem insertMethod_snd {ρ α : Type} (caught : List PgError) (parse : ρ → α)
    (res : Except PgError (List ρ) × Db) :
    (insertMethod caught parse res).2 = res.2 := by
  obtain ⟨out, db⟩ := res
  cases out with
  | error e => rfl
  | ok rows =>
      cases rows with
      | nil => rfl
      | cons row rows => rfl

/-- The part of the database the rides are in. -/
def ridesPart (db : Db) : Table Int RideRow RideRow.id × Nat :=
  (db.rides, db.ridesSeq)

theorem createUser_ridesPart (login password fullName : StdString) (db : Db) :
    ridesPart (createUser login password fullName db).2 = ridesPart db := by
  rw [createUser, insertMethod_snd, kInsertUser]
  refine insertReturning_keeps ridesPart ?_ (fun id db row db' hb => ?_) db
  · intro id db
    rfl
  obtain ⟨login', -, hb⟩ := bind_ok hb
  obtain ⟨password', -, hb⟩ := bind_ok hb
  obtain ⟨fullName', -, hb⟩ := bind_ok hb
  obtain ⟨-, -, hb⟩ := bind_ok hb
  obtain ⟨-, -, hb⟩ := bind_ok hb
  obtain ⟨-, -, hb⟩ := bind_ok hb
  obtain ⟨-, -, hb⟩ := bind_ok hb
  obtain ⟨users, -, hb⟩ := bind_ok hb
  cases hb
  rfl

theorem createDriver_ridesPart (userId : Int)
    (carModel carNumber licenseNumber : StdString) (db : Db) :
    ridesPart (createDriver userId carModel carNumber licenseNumber db).2 =
      ridesPart db := by
  rw [createDriver, insertMethod_snd, kInsertDriver]
  refine insertReturning_keeps ridesPart ?_ (fun id db row db' hb => ?_) db
  · intro id db
    rfl
  obtain ⟨carModel', -, hb⟩ := bind_ok hb
  obtain ⟨carNumber', -, hb⟩ := bind_ok hb
  obtain ⟨licenseNumber', -, hb⟩ := bind_ok hb
  obtain ⟨-, -, hb⟩ := bind_ok hb
  obtain ⟨-, -, hb⟩ := bind_ok hb
  obtain ⟨-, -, hb⟩ := bind_ok hb
  obtain ⟨-, -, hb⟩ := bind_ok hb
  obtain ⟨drivers, -, hb⟩ := bind_ok hb
  obtain ⟨-, -, hb⟩ := bind_ok hb
  cases hb
  rfl

theorem createRide_move (passengerId : Int) (pickup destination : StdString)
    (now : Timestamp) (db : Db) :
    RideMove db (.createRide passengerId pickup destination now)
      (StorageOp.exec db (.createRide passengerId pickup destination now)) := by
  rw [StorageOp.exec, createRide, kInsertRide]
  rcases insertReturning_cases [pickup, destination] db.ridesSeq
    (fun id db => { db with ridesSeq := id }) _ db with
    ⟨e, db', heq, hsame⟩ | ⟨row, db', heq, hb⟩
  · rw [heq]
    have hanswer : rideOf (insertMethod [.foreignKeyViolation] parseRide
        ((.error e, db') : Except PgError (List RideRow) × Db)).1 = none := by
      simp only [insertMethod]
      split <;> rfl
    simp only [hanswer, insertMethod_snd]
    rcases hsame with rfl | rfl
    · exact .stay rfl (Nat.le_refl _)
    · exact .stay rfl (Nat.le_succ _)
  · rw [heq]
    obtain ⟨pickup', -, hb⟩ := bind_ok hb
    obtain ⟨destination', -, hb⟩ := bind_ok hb
    obtain ⟨-, -, hb⟩ := bind_ok hb
    obtain ⟨-, -, hb⟩ := bind_ok hb
    obtain ⟨rides, hins, hb⟩ := bind_ok hb
    obtain ⟨-, -, hb⟩ := bind_ok hb
    cases hb
    exact .create rfl rfl rfl rfl (Table.insert?_rows (insertRow_ok hins)) rfl

theorem acceptRide_move (rideId driverId : Int) (db : Db) :
    RideMove db (.acceptRide rideId driverId)
      (StorageOp.exec db (.acceptRide rideId driverId)) := by
  rw [StorageOp.exec]
  by_cases hd : ∃ drv, db.drivers.find? driverId = some drv ∧
      drv.status = .online
  · by_cases hr : ∃ ride, db.rides.find? rideId = some ride ∧
        ride.status = .searching
    · obtain ⟨drv, hdrv, hon⟩ := hd
      obtain ⟨ride, hride, hs⟩ := hr
      rw [acceptRide_ok hdrv hon hride hs]
      exact .accept hride hs
        (Table.replace_rows hride (RideRow.setAccepted_id driverId)) rfl
    · rw [acceptRide_refused (.inr fun ride hride hs => hr ⟨ride, hride, hs⟩)]
      exact .stay rfl (Nat.le_refl _)
  · rw [acceptRide_refused (.inl fun drv hdrv hon => hd ⟨drv, hdrv, hon⟩)]
    exact .stay rfl (Nat.le_refl _)

theorem completeRide_move (rideId : Int) (now : Timestamp) (db : Db) :
    RideMove db (.completeRide rideId now)
      (StorageOp.exec db (.completeRide rideId now)) := by
  rw [StorageOp.exec]
  by_cases hr : ∃ ride, db.rides.find? rideId = some ride ∧
      ride.status = .accepted
  · obtain ⟨ride, hride, hs⟩ := hr
    rw [completeRide_ok hride hs]
    exact .complete hride hs
      (Table.replace_rows hride (RideRow.setCompleted_id now)) rfl
  · rw [completeRide_refused fun ride hride hs => hr ⟨ride, hride, hs⟩]
    exact .stay rfl (Nat.le_refl _)

theorem exec_move (db : Db) (op : StorageOp) : RideMove db op (op.exec db) := by
  cases op with
  | createUser login password fullName =>
      have h := createUser_ridesPart login password fullName db
      obtain ⟨hrides, hseq⟩ := Prod.mk.inj h
      exact .stay hrides hseq.ge
  | createDriver userId carModel carNumber licenseNumber =>
      have h := createDriver_ridesPart userId carModel carNumber licenseNumber db
      obtain ⟨hrides, hseq⟩ := Prod.mk.inj h
      exact .stay hrides hseq.ge
  | createRide passengerId pickup destination now =>
      exact createRide_move passengerId pickup destination now db
  | acceptRide rideId driverId => exact acceptRide_move rideId driverId db
  | completeRide rideId now => exact completeRide_move rideId now db

/-! ## The transcript, call by call -/

theorem transcript_concat (db : Db) (ops : List StorageOp) (op : StorageOp) :
    transcript db (ops ++ [op]) = transcript db ops ++
      [(op, (op.exec (run StorageOp.apply db ops)).1)] := by
  induction ops generalizing db with
  | nil => rfl
  | cons op' ops ih =>
      rw [List.cons_append, transcript, transcript, ih, run_cons,
        List.cons_append]

/-- A further call, on the rides created before. -/
def addCall (a : AnsweredCall) (c : Ride × List AnsweredCall) :
    Ride × List AnsweredCall := (c.1, c.2 ++ [a])

theorem creations_concat (calls : List AnsweredCall) (a : AnsweredCall) :
    creations (calls ++ [a]) = (creations calls).map (addCall a) ++
      ((createdRide? a).map fun ride => (ride, [])).toList := by
  induction calls with
  | nil =>
      simp only [List.nil_append, creations]
      cases createdRide? a with
      | none => rfl
      | some ride => rfl
  | cons b calls ih =>
      rw [List.cons_append, creations, creations, ih]
      cases createdRide? b with
      | none => rfl
      | some ride => rfl

theorem driverSince_concat (after : List AnsweredCall) (a : AnsweredCall)
    (rideId : Int) : driverSince (after ++ [a]) rideId =
      (driverSince after rideId).or (acceptedDriver? rideId a) := by
  rw [driverSince, List.findSome?_append, driverSince]
  congr 1
  simp only [List.findSome?_cons, List.findSome?_nil]
  cases acceptedDriver? rideId a <;> rfl

theorem completedSince_concat (after : List AnsweredCall) (a : AnsweredCall)
    (rideId : Int) : completedSince (after ++ [a]) rideId =
      (completedSince after rideId || completes rideId a) := by
  rw [completedSince, List.any_append, List.any_cons, List.any_nil,
    Bool.or_false]
  rfl

/-- A call that neither gave the ride a driver nor ended it. -/
theorem current_addCall {a : AnsweredCall} {c : Ride × List AnsweredCall}
    (hd : acceptedDriver? c.1.id a = none) (hc : completes c.1.id a = false) :
    current (addCall a c) = current c := by
  simp only [current, addCall, driverSince_concat, completedSince_concat, hd,
    hc, Option.or_none, Bool.or_false]

theorem current_searching {c : Ride × List AnsweredCall}
    (h : (current c).status = .searching) :
    driverSince c.2 c.1.id = none ∧ completedSince c.2 c.1.id = false := by
  simp only [current] at h
  split at h
  · cases h
  · next hc =>
    split at h
    · cases h
    · next hd => exact ⟨by simpa using hd, by simpa using hc⟩

theorem current_active (c : Ride × List AnsweredCall) :
    ((current c).status == .searching || (current c).status == .accepted) =
      !completedSince c.2 c.1.id := by
  simp only [current]
  split
  · next hc => rw [hc]; rfl
  · next hc =>
    rw [Bool.eq_false_iff.mpr hc]
    split <;> rfl

/-! ## Row by row -/

/-- The row is what the answers say of the ride. -/
def Tells (row : RideRow) (c : Ride × List AnsweredCall) : Prop :=
  parseRide row = current c

theorem Tells.id {row : RideRow} {c : Ride × List AnsweredCall}
    (h : Tells row c) : row.id = c.1.id := congrArg Ride.id h

theorem Tells.accept {row : RideRow} {c : Ride × List AnsweredCall}
    (h : Tells row c) (hs : row.status = .searching) (driverId : Int)
    (ride : Ride) : Tells (row.setAccepted driverId)
      (addCall (.acceptRide row.id driverId, some ride) c) := by
  have hstatus : (current c).status = .searching := (congrArg Ride.status h) ▸ hs
  obtain ⟨hd, hc⟩ := current_searching hstatus
  have hid := h.id
  rw [Tells] at h ⊢
  simp only [current, addCall, driverSince_concat, completedSince_concat, hd,
    hc, Option.none_or, Bool.false_or, acceptedDriver?, completes, if_pos hid]
  simp only [current, parseRide, Ride.mk.injEq] at h
  simp only [parseRide, RideRow.setAccepted, Option.getD_some]
  rw [h.1, h.2.1, h.2.2.2.1, h.2.2.2.2.1]
  rfl

theorem Tells.complete {row : RideRow} {c : Ride × List AnsweredCall}
    (h : Tells row c) (now : Timestamp) (ride : Ride) :
    Tells (row.setCompleted now)
      (addCall (.completeRide row.id now, some ride) c) := by
  have hid := h.id
  rw [Tells] at h ⊢
  simp only [current, addCall, driverSince_concat, completedSince_concat,
    acceptedDriver?, completes, decide_eq_true hid, Option.or_none,
    Bool.or_true, if_true]
  simp only [current, parseRide, Ride.mk.injEq] at h
  simp only [parseRide, RideRow.setCompleted]
  rw [h.1, h.2.1, h.2.2.1, h.2.2.2.1, h.2.2.2.2.1]

/-! ## The invariant -/

/-- After these calls and readings of `NOW()`, the rows tell of the rides
created, in that order, and the two columns the lists are sorted by grow along
them. -/
structure Recorded (calls : List AnsweredCall) (times : List Timestamp)
    (db : Db) : Prop where
  told : List.Forall₂ Tells db.rides.rows (creations calls)
  ids : db.rides.rows.Pairwise fun r r' => r.id < r'.id
  created : db.rides.rows.Pairwise fun r r' => r.createdAt ≤ r'.createdAt
  handedOut : ∀ r ∈ db.rides.rows, r.id ≤ db.ridesSeq
  stamped : ∀ r ∈ db.rides.rows, r.createdAt ∈ times

theorem recorded_empty : Recorded [] [] Db.empty where
  told := .nil
  ids := .nil
  created := .nil
  handedOut _ h := absurd h List.not_mem_nil
  stamped _ h := absurd h List.not_mem_nil

section

variable {calls : List AnsweredCall} {times : List Timestamp} {db db' : Db}

/-- A call that creates no ride leaves the same rides, each with a call
more. -/
theorem Recorded.map (h : Recorded calls times db) {a : AnsweredCall}
    (ha : createdRide? a = none) {f : RideRow → RideRow}
    (hid : ∀ r, (f r).id = r.id) (hat : ∀ r, (f r).createdAt = r.createdAt)
    (hrows : db'.rides.rows = db.rides.rows.map f)
    (hseq : db.ridesSeq ≤ db'.ridesSeq)
    (hf : ∀ r ∈ db.rides.rows, ∀ c, Tells r c → Tells (f r) (addCall a c))
    (more : List Timestamp) : Recorded (calls ++ [a]) (times ++ more) db' := by
  refine ⟨?_, ?_, ?_, ?_, ?_⟩
  · rw [creations_concat, ha, hrows, Option.map_none, Option.toList_none,
      List.append_nil, List.forall₂_map_left_iff, List.forall₂_map_right_iff]
    have htold := (List.forall₂_and_left _ _).mpr ⟨fun r hr => hr, h.told⟩
    exact htold.imp fun r c hrc => hf r hrc.1 c hrc.2
  · rw [hrows, List.pairwise_map]
    simp only [hid]
    exact h.ids
  · rw [hrows, List.pairwise_map]
    simp only [hat]
    exact h.created
  · intro r hr
    rw [hrows] at hr
    obtain ⟨r', hr', rfl⟩ := List.mem_map.mp hr
    have := h.handedOut r' hr'
    rw [hid]
    omega
  · intro r hr
    rw [hrows] at hr
    obtain ⟨r', hr', rfl⟩ := List.mem_map.mp hr
    rw [hat]
    exact List.mem_append_left _ (h.stamped r' hr')

/-- An update of one row. -/
theorem Recorded.mapOne (h : Recorded calls times db) {a : AnsweredCall}
    (ha : createdRide? a = none) {rideId : Int} {g : RideRow → RideRow}
    (hid : ∀ r, (g r).id = r.id) (hat : ∀ r, (g r).createdAt = r.createdAt)
    (hrows : db'.rides.rows =
      db.rides.rows.map fun r => if r.id = rideId then g r else r)
    (hseq : db'.ridesSeq = db.ridesSeq)
    (hg : ∀ r ∈ db.rides.rows, r.id = rideId → ∀ c, Tells r c →
      Tells (g r) (addCall a c))
    (hother : ∀ k, k ≠ rideId →
      acceptedDriver? k a = none ∧ completes k a = false)
    (more : List Timestamp) : Recorded (calls ++ [a]) (times ++ more) db' := by
  refine h.map ha (fun r => ?_) (fun r => ?_) hrows hseq.ge
    (fun r hr c hc => ?_) more
  · split
    · exact hid r
    · rfl
  · split
    · exact hat r
    · rfl
  · split
    · next he => exact hg r hr he c hc
    · next hne =>
      obtain ⟨hd, hcomp⟩ := hother c.1.id (hc.id ▸ hne)
      rw [Tells, current_addCall hd hcomp]
      exact hc

theorem Recorded.stay (h : Recorded calls times db) (op : StorageOp)
    (hrides : db'.rides = db.rides) (hseq : db.ridesSeq ≤ db'.ridesSeq)
    (more : List Timestamp) :
    Recorded (calls ++ [(op, none)]) (times ++ more) db' := by
  have hquiet : createdRide? (op, none) = none ∧
      ∀ k, acceptedDriver? k (op, none) = none ∧
        completes k (op, none) = false := by
    cases op <;> exact ⟨rfl, fun k => ⟨rfl, rfl⟩⟩
  refine h.map hquiet.1 (f := fun r => r) (fun _ => rfl) (fun _ => rfl) ?_ hseq
    (fun r hr c hc => ?_) more
  · rw [hrides, List.map_id']
  · obtain ⟨hd, hcomp⟩ := hquiet.2 c.1.id
    rw [Tells, current_addCall hd hcomp]
    exact hc

/-- A new ride is told of by the last row. -/
theorem Recorded.create (h : Recorded calls times db) {a : AnsweredCall}
    {row : RideRow} (ha : createdRide? a = some (parseRide row))
    (hnotAccepted : ∀ k, acceptedDriver? k a = none)
    (hnotCompleted : ∀ k, completes k a = false)
    (hid : row.id = (db.ridesSeq + 1 : Nat)) (hs : row.status = .searching)
    (hn : row.driverId = none) (hnow : ∀ t ∈ times, t ≤ row.createdAt)
    (hrows : db'.rides.rows = db.rides.rows ++ [row])
    (hseq : db'.ridesSeq = db.ridesSeq + 1) :
    Recorded (calls ++ [a]) (times ++ [row.createdAt]) db' := by
  refine ⟨?_, ?_, ?_, ?_, ?_⟩
  · rw [creations_concat, ha, hrows]
    refine List.rel_append ?_ (.cons ?_ .nil)
    · rw [List.forall₂_map_right_iff]
      refine h.told.imp fun r c hc => ?_
      rw [Tells, current_addCall (hnotAccepted _) (hnotCompleted _)]
      exact hc
    · simp only [Tells, parseRide, current, driverSince, completedSince,
        List.findSome?_nil, List.any_nil, hs, hn]
      rfl
  · rw [hrows, List.pairwise_append]
    refine ⟨h.ids, List.pairwise_singleton _ _, fun r hr r' hr' => ?_⟩
    rw [List.mem_singleton.mp hr', hid]
    have := h.handedOut r hr
    omega
  · rw [hrows, List.pairwise_append]
    refine ⟨h.created, List.pairwise_singleton _ _, fun r hr r' hr' => ?_⟩
    rw [List.mem_singleton.mp hr']
    exact hnow _ (h.stamped r hr)
  · intro r hr
    rw [hseq]
    rw [hrows] at hr
    rcases List.mem_append.mp hr with hr | hr
    · have := h.handedOut r hr
      omega
    · rw [List.mem_singleton.mp hr, hid]
  · intro r hr
    rw [hrows] at hr
    rcases List.mem_append.mp hr with hr | hr
    · exact List.mem_append_left _ (h.stamped r hr)
    · rw [List.mem_singleton.mp hr]
      exact List.mem_append_right _ List.mem_cons_self

/-- The step lemma. -/
theorem Recorded.move (h : Recorded calls times db) {op : StorageOp}
    {res : Option Ride × Db} (hm : RideMove db op res)
    (hnow : ∀ now, now? op = some now → ∀ t ∈ times, t ≤ now) :
    Recorded (calls ++ [(op, res.1)]) (times ++ (now? op).toList) res.2 := by
  cases hm with
  | stay hrides hseq => exact h.stay op hrides hseq _
  | create hid hat hs hn hrows hseq =>
      subst hat
      exact h.create rfl (fun _ => rfl) (fun _ => rfl) hid hs hn
        (hnow _ rfl) hrows hseq
  | @accept rideId driverId row db' hrow hs hrows hseq =>
      refine h.mapOne (a := (.acceptRide rideId driverId, some _)) rfl
        (RideRow.setAccepted_id driverId) (fun _ => rfl) hrows hseq
        (fun r hr he c hc => ?_) (fun k hk => ⟨if_neg hk.symm, rfl⟩) _
      have hfind := Table.find?_mem hr
      rw [he, hrow] at hfind
      cases hfind
      subst he
      exact hc.accept hs driverId _
  | @complete rideId now row db' hrow hs hrows hseq =>
      refine h.mapOne (a := (.completeRide rideId now, some _)) rfl
        (RideRow.setCompleted_id now) (fun _ => rfl) hrows hseq
        (fun r hr he c hc => ?_)
        (fun k hk => ⟨rfl, decide_eq_false hk.symm⟩) _
      subst he
      exact hc.complete now _

end

theorem recorded_reach (ops : List StorageOp) (h : ClockSteady ops) :
    Recorded (transcript .empty ops) (ops.filterMap now?) (reach ops) := by
  induction ops using List.reverseRecOn with
  | nil => exact recorded_empty
  | append_singleton ops op ih =>
      rw [ClockSteady, List.filterMap_append, List.pairwise_append] at h
      have hlast : [op].filterMap now? = (now? op).toList := by
        cases hop : now? op with
        | none => simp only [List.filterMap_cons, hop, List.filterMap_nil]; rfl
        | some now =>
            simp only [List.filterMap_cons, hop, List.filterMap_nil]; rfl
      rw [transcript_concat, List.filterMap_append, hlast, reach, run_concat]
      refine (ih h.1).move (exec_move _ op) fun now hnow t ht => ?_
      exact h.2.2 t ht now (by rw [hlast, hnow]; exact List.mem_cons_self)

/-! ## The two lists -/

theorem newerFirst_total (a b : RideRow) : newerFirst a b ∨ newerFirst b a := by
  have h : ∀ s t i j : Int,
      (t < s ∨ s = t ∧ j ≤ i) ∨ (s < t ∨ t = s ∧ i ≤ j) := by omega
  exact h a.createdAt b.createdAt a.id b.id

theorem newerFirst_trans (a b c : RideRow) (hab : newerFirst a b)
    (hbc : newerFirst b c) : newerFirst a c := by
  have h : ∀ s t u i j k : Int, (t < s ∨ s = t ∧ j ≤ i) →
      (u < t ∨ t = u ∧ k ≤ j) → (u < s ∨ s = u ∧ k ≤ i) := by omega
  exact h _ _ _ _ _ _ hab hbc

theorem newerFirst_antisymm {a b : RideRow} (hab : newerFirst a b)
    (hba : newerFirst b a) : a.id = b.id := by
  have h : ∀ s t i j : Int, (t < s ∨ s = t ∧ j ≤ i) →
      (s < t ∨ t = s ∧ i ≤ j) → i = j := by omega
  exact h _ _ _ _ hab hba

theorem newerFirst_of_le {a b : RideRow} (hcreated : a.createdAt ≤ b.createdAt)
    (hid : a.id < b.id) : newerFirst b a := by
  have h : ∀ s t i j : Int, s ≤ t → i < j → s < t ∨ t = s ∧ i ≤ j := by omega
  exact h _ _ _ _ hcreated hid

/-- Rows in the order of both columns, sorted the other way round. -/
theorem insertionSort_newerFirst {rows : List RideRow}
    (hids : rows.Pairwise fun r r' => r.id < r'.id)
    (hcreated : rows.Pairwise fun r r' => r.createdAt ≤ r'.createdAt) :
    rows.insertionSort newerFirst = rows.reverse := by
  have hsorted : rows.reverse.Pairwise newerFirst := by
    rw [List.pairwise_reverse]
    exact (hids.and hcreated).imp fun h => newerFirst_of_le h.2 h.1
  have : Std.Total newerFirst := ⟨newerFirst_total⟩
  have : IsTrans RideRow newerFirst := ⟨newerFirst_trans⟩
  have hperm := (List.perm_insertionSort newerFirst rows).trans
    (List.reverse_perm rows).symm
  refine hperm.eq_of_pairwise ?_ (List.pairwise_insertionSort newerFirst rows)
    hsorted
  intro r r' hr hr' h h'
  rw [List.mem_insertionSort] at hr
  rw [List.mem_reverse] at hr'
  have hnodup : (rows.map RideRow.id).Nodup := by
    rw [List.Nodup, List.pairwise_map]
    exact hids.imp fun hlt => ne_of_lt hlt
  exact List.inj_on_of_nodup_map hnodup hr hr' (newerFirst_antisymm h h')

/-- What a filter on the rows keeps, when it can be told from the ride. -/
theorem told_filter {rows : List RideRow}
    {created : List (Ride × List AnsweredCall)}
    (h : List.Forall₂ Tells rows created) {p : RideRow → Bool} {q : Ride → Bool}
    (hp : ∀ r, p r = q (parseRide r)) :
    (rows.filter p).map parseRide =
      (created.filter fun c => q (current c)).map current := by
  induction h with
  | nil => rfl
  | @cons r c rows created hr _ ih =>
      have hq : p r = q (current c) := by rw [hp r, show parseRide r = _ from hr]
      rw [List.filter_cons, List.filter_cons, hq]
      split
      · rw [List.map_cons, List.map_cons, ih, show parseRide r = _ from hr]
      · exact ih

/-- In every run whose readings of `NOW()` do not go back, the storage shows
each ride that was created, once in its passenger's history and once among the
active rides until it is completed, with its driver and in the order of its
creation, and shows nothing else. -/
theorem rides_shown (ops : List StorageOp) (h : ClockSteady ops) :
    RidesShown (transcript .empty ops) (reach ops) := by
  have hrec := recorded_reach ops h
  refine ⟨?_, fun userId => ?_, ?_⟩
  · have hids : (creations (transcript .empty ops)).map (fun c => c.1.id) =
        (reach ops).rides.rows.map RideRow.id := by
      have htold := told_filter hrec.told (p := fun _ => true)
        (q := fun _ => true) fun _ => rfl
      rw [List.filter_true, List.filter_true] at htold
      have := congrArg (List.map Ride.id) htold
      rw [List.map_map, List.map_map] at this
      exact this.symm
    rw [hids]
    exact (reach ops).rides.nodup
  · have htold := told_filter hrec.told
      (p := fun r => decide (r.passengerId = userId))
      (q := fun ride => decide (ride.passengerId = userId)) fun _ => rfl
    rw [getRidesByUserId, kSelectRidesByUserId, Table.select,
      insertionSort_newerFirst (hrec.ids.sublist List.filter_sublist)
        (hrec.created.sublist List.filter_sublist), List.map_reverse, htold]
    rfl
  · have htold := told_filter hrec.told
      (p := fun r => r.status == .searching || r.status == .accepted)
      (q := fun ride => ride.status == .searching || ride.status == .accepted)
      fun _ => rfl
    simp only [current_active] at htold
    rw [getActiveRides, kSelectActiveRides, Table.select,
      List.Pairwise.insertionSort_eq
        ((hrec.ids.sublist List.filter_sublist).imp le_of_lt), htold]

/-- Three rides of two passengers, one accepted and one completed. -/
def threeRides : List StorageOp :=
  [.createUser (bytes "anna") (bytes "a") (bytes "Anna"),
    .createUser (bytes "ivan") (bytes "i") (bytes "Ivan"),
    .createDriver 2 (bytes "Kia Rio") (bytes "B777AA") (bytes "77AB"),
    .createRide 1 (bytes "MAI") (bytes "Sokol") 10,
    .createRide 1 (bytes "Sokol") (bytes "Aeroport") 10,
    .acceptRide 1 1, .completeRide 1 15,
    .createRide 2 (bytes "Sokol") (bytes "MAI") 20, .acceptRide 2 1]

theorem rides_shown_threeRides :
    RidesShown (transcript .empty threeRides) (reach threeRides) :=
  rides_shown threeRides (by rw [ClockSteady]; decide)

end TaxiService.Proofs
