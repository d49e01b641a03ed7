import TaxiService.Proofs.Serializable
import TaxiService.Spec.Deadlock

/-!
# No cycle of waiting transactions

The two statements lock in opposite orders, and what keeps them apart is the
status of the rows. Two facts are needed of a transaction that waits and
holds a lock already. An accept at its ride holds the lock of one driver, who
is online among the committed rows. A completion at its driver holds the lock
of one ride, which is accepted among the committed rows, and so its driver is
busy. So a completion never waits for an accept that is waiting itself, and
the waits have a rank.

The first part says which locks a transaction can hold (`Locked`), the second
is the rank.
-/

namespace TaxiService.Proofs

open TaxiService.Lib TaxiService.Model TaxiService.Spec

variable {calls : TxId → Call}

/-! ## The locks a transaction holds -/

/-- The locks a transaction can hold at each point. Before its first lock and
after its end it holds none. -/
def MayHold : Call → TxState → RowLock → Prop
  | .accept _ driverId, .acceptRide _, row => row = .driver driverId
  | .complete rideId _, .completeDriver _, row => row = .ride rideId
  | _, .oneRow _ _, _ => True
  | _, .noRows, _ => True
  | _, _, _ => False

def Locked (calls : TxId → Call) (s : Server) : Prop :=
  ∀ row i, holder s row = some i → MayHold (calls i) (s.tx i) row

section Steps

variable {s : Server} {i : TxId}

theorem mayHold_noRows (c : Call) (row : RowLock) : MayHold c .noRows row := by
  cases c <;> trivial

theorem mayHold_oneRow (c : Call) (drv : Option DriverRow) (ride : RideRow)
    (row : RowLock) : MayHold c (.oneRow drv ride) row := by
  cases c <;> trivial

theorem Locked.start (db : Db) : Locked calls (Server.start db) := by
  rintro (id | id) i h <;> cases h

/-- A step of `i` that takes no lock. -/
theorem Locked.goto (h : Locked calls s) (st : TxState)
    (hkeep : ∀ row, MayHold (calls i) (s.tx i) row →
      MayHold (calls i) st row) : Locked calls (s.goto i st) := by
  intro row j hj
  have hold := h row j (by cases row <;> exact hj)
  by_cases hji : j = i
  · subst hji
    rw [show (s.goto j st).tx j = st from Function.update_self ..]
    exact hkeep row hold
  · rw [show (s.goto i st).tx j = s.tx j from Function.update_of_ne hji ..]
    exact hold

/-- A step of `i` that takes the lock it wants. -/
theorem Locked.take {t : Server} {new : RowLock} (h : Locked calls s)
    (htx : t.tx = s.tx)
    (hlocks : ∀ row j, holder t row = some j →
      holder s row = some j ∨ (row = new ∧ j = i))
    (st : TxState) (hnew : MayHold (calls i) st new)
    (hkeep : ∀ row, MayHold (calls i) (s.tx i) row →
      MayHold (calls i) st row) : Locked calls (t.goto i st) := by
  intro row j hj
  rcases hlocks row j (by cases row <;> exact hj) with hold | ⟨rfl, rfl⟩
  · by_cases hji : j = i
    · subst hji
      rw [show (t.goto j st).tx j = st from Function.update_self ..]
      exact hkeep row (h row j hold)
    · rw [show (t.goto i st).tx j = s.tx j by
        rw [← htx]; exact Function.update_of_ne hji ..]
      exact h row j hold
  · rw [show (t.goto j st).tx j = st from Function.update_self ..]
    exact hnew

theorem update_some {locks : Int → Option TxId} {id k : Int} {j : TxId}
    (h : Function.update locks id (some i) k = some j) :
    locks k = some j ∨ (k = id ∧ j = i) := by
  by_cases hk : k = id
  · subst hk
    rw [Function.update_self] at h
    exact .inr ⟨rfl, (Option.some.inj h).symm⟩
  · rw [Function.update_of_ne hk] at h
    exact .inl h

theorem holder_takeDriver (id : Int) (row : RowLock) (j : TxId)
    (h : holder (s.takeDriver i id) row = some j) :
    holder s row = some j ∨ (row = .driver id ∧ j = i) := by
  cases row with
  | driver k => exact (update_some h).imp_right (.imp_left (congrArg _))
  | ride k => exact .inl h

theorem holder_takeRide (id : Int) (row : RowLock) (j : TxId)
    (h : holder (s.takeRide i id) row = some j) :
    holder s row = some j ∨ (row = .ride id ∧ j = i) := by
  cases row with
  | driver k => exact .inl h
  | ride k => exact (update_some h).imp_right (.imp_left (congrArg _))

/-- The end of a transaction releases all it holds. -/
theorem Locked.release (h : Locked calls s) (res : Option Ride) :
    Locked calls (s.release i res) := by
  have hlocks : ∀ row j, holder (s.release i res) row = some j →
      holder s row = some j ∧ j ≠ i := by
    rintro (k | k) j hj <;>
    · simp only [holder, Server.release] at hj
      split at hj
      · cases hj
      · next hne =>
          refine ⟨hj, ?_⟩
          rintro rfl
          exact hne hj
  intro row j hj
  obtain ⟨hold, hji⟩ := hlocks row j hj
  rw [show (s.release i res).tx j = s.tx j from Function.update_of_ne hji ..]
  exact h row j hold

/-- What a step of `i` does to the locks. It waits, it has nothing to do, it
begins, it takes the lock it wants and goes on to where it may keep it, or it
ends. -/
inductive Move (calls : TxId → Call) (s : Server) (i : TxId) : Server → Prop where
  | wait {row : RowLock} {j : TxId} (hw : wants (calls i) (s.tx i) = some row)
      (hj : holder s row = some j) : Move calls s i s
  | stay (hw : wants (calls i) (s.tx i) = none)
      (hst : s.tx i ≠ .idle) (hheld : ∀ row, ¬ MayHold (calls i) (s.tx i) row) :
      Move calls s i s
  | begin (hidle : s.tx i = .idle) {st : TxState} (hst : st ≠ .idle) :
      Move calls s i (s.goto i st)
  | lock {row : RowLock} {t : Server} {st : TxState}
      (hw : wants (calls i) (s.tx i) = some row) (hfree : holder s row = none)
      (htx : t.tx = s.tx)
      (hlocks : ∀ row' j, holder t row' = some j →
        holder s row' = some j ∨ (row' = row ∧ j = i))
      (hnew : MayHold (calls i) st row)
      (hkeep : ∀ row', MayHold (calls i) (s.tx i) row' →
        MayHold (calls i) st row') : Move calls s i (t.goto i st)
  | finish (hw : wants (calls i) (s.tx i) = none) {t : Server}
      (htx : t.tx = s.tx) (hlocks : holder t = holder s)
      (res : Option Ride) : Move calls s i (t.release i res)

theorem Move.lockDriver {id : Int} {next : Server → Server}
    (hw : wants (calls i) (s.tx i) = some (.driver id))
    (hnext : ∃ st, next (s.takeDriver i id) = (s.takeDriver i id).goto i st ∧
      MayHold (calls i) st (.driver id) ∧
      ∀ row, MayHold (calls i) (s.tx i) row → MayHold (calls i) st row) :
    Move calls s i (s.lockDriver i id next) := by
  obtain ⟨st, heq, hnew, hkeep⟩ := hnext
  rw [Server.lockDriver]
  split
  · next hfree =>
      rw [heq]
      exact .lock hw hfree rfl (holder_takeDriver id) hnew hkeep
  · next hheld =>
      obtain ⟨j, hj⟩ := Option.ne_none_iff_exists'.mp hheld
      exact .wait hw hj

theorem Move.lockRide {id : Int} {next : Server → Server}
    (hw : wants (calls i) (s.tx i) = some (.ride id))
    (hnext : ∃ st, next (s.takeRide i id) = (s.takeRide i id).goto i st ∧
      MayHold (calls i) st (.ride id) ∧
      ∀ row, MayHold (calls i) (s.tx i) row → MayHold (calls i) st row) :
    Move calls s i (s.lockRide i id next) := by
  obtain ⟨st, heq, hnew, hkeep⟩ := hnext
  rw [Server.lockRide]
  split
  · next hfree =>
      rw [heq]
      exact .lock hw hfree rfl (holder_takeRide id) hnew hkeep
  · next hheld =>
      obtain ⟨j, hj⟩ := Option.ne_none_iff_exists'.mp hheld
      exact .wait hw hj

theorem txStep_move (calls : TxId → Call) (s : Server) (i : TxId) :
    Move calls s i (txStep calls s i) := by
  cases hst : s.tx i with
  | idle =>
      cases hc : calls i <;> simp only [txStep, hc, hst] <;> split <;>
        exact .begin hst fun h => by cases h
  | acceptDriver snapshot =>
      cases hc : calls i with
      | accept rideId driverId =>
          simp only [txStep, hc, hst]
          refine .lockDriver (by rw [hc, hst]; rfl) ?_
          rw [hc, hst]
          split
          · split
            · exact ⟨_, rfl, rfl, fun _ => False.elim⟩
            · exact ⟨_, rfl, trivial, fun _ => False.elim⟩
          · exact ⟨_, rfl, trivial, fun _ => False.elim⟩
      | complete rideId now =>
          simp only [txStep, hc, hst]
          exact .stay (by rw [hc, hst]; rfl) (by simp [hst])
            (by rw [hc, hst]; exact fun _ => id)
  | acceptRide drv =>
      cases hc : calls i with
      | accept rideId driverId =>
          simp only [txStep, hc, hst]
          refine .lockRide (by rw [hc, hst]; rfl) ?_
          rw [hc, hst]
          split <;> exact ⟨_, rfl, trivial, fun _ _ => trivial⟩
      | complete rideId now =>
          simp only [txStep, hc, hst]
          exact .stay (by rw [hc, hst]; rfl) (by simp [hst])
            (by rw [hc, hst]; exact fun _ => id)
  | completeRide snapshot =>
      cases hc : calls i with
      | accept rideId driverId =>
          simp only [txStep, hc, hst]
          exact .stay (by rw [hc, hst]; rfl) (by simp [hst])
            (by rw [hc, hst]; exact fun _ => id)
      | complete rideId now =>
          simp only [txStep, hc, hst]
          refine .lockRide (by rw [hc, hst]; rfl) ?_
          rw [hc, hst]
          split
          · split
            · exact ⟨_, rfl, rfl, fun _ => False.elim⟩
            · exact ⟨_, rfl, trivial, fun _ => False.elim⟩
          · exact ⟨_, rfl, trivial, fun _ => False.elim⟩
  | completeDriver ride =>
      cases hc : calls i with
      | accept rideId driverId =>
          simp only [txStep, hc, hst]
          exact .stay (by rw [hc, hst]; rfl) (by simp [hst])
            (by rw [hc, hst]; exact fun _ => id)
      | complete rideId now =>
          simp only [txStep, hc, hst]
          refine .lockDriver (by rw [hc, hst]; rfl) ?_
          rw [hc, hst]
          split <;> exact ⟨_, rfl, trivial, fun _ _ => trivial⟩
  | oneRow drv ride =>
      have hwants : wants (calls i) (s.tx i) = none := by
        cases hc : calls i <;> rw [hst] <;> rfl
      have hlocks : holder (s.install drv ride) = holder s := by
        funext row
        cases row <;> rfl
      cases hc : calls i <;> simp only [txStep, hc, hst] <;>
        exact .finish (t := s.install drv ride) hwants rfl hlocks _
  | noRows =>
      have hwants : wants (calls i) (s.tx i) = none := by
        cases hc : calls i <;> rw [hst] <;> rfl
      cases hc : calls i <;> simp only [txStep, hc, hst] <;>
        exact .finish hwants rfl rfl _
  | returned res =>
      cases hc : calls i <;> simp only [txStep, hc, hst] <;>
        exact .stay (by rw [hc, hst]; rfl) (by simp [hst])
          (by rw [hc, hst]; exact fun _ => id)

theorem Locked.move {s' : Server} (h : Locked calls s)
    (hmove : Move calls s i s') : Locked calls s' := by
  cases hmove with
  | wait hw hj => exact h
  | stay hw hst hheld => exact h
  | begin hidle hst =>
      refine h.goto _ fun row hrow => ?_
      rw [hidle] at hrow
      cases hc : calls i <;> rw [hc] at hrow <;> cases hrow
  | lock hw hfree htx hlocks hnew hkeep =>
      exact h.take htx hlocks _ hnew hkeep
  | finish hw htx hlocks res =>
      refine Locked.release (fun row j hj => ?_) res
      rw [htx]
      exact h row j (by rw [← hlocks]; exact hj)

theorem Locked.step (h : Locked calls s) (i : TxId) :
    Locked calls (txStep calls s i) :=
  h.move (txStep_move calls s i)

end Steps

theorem locked_concurrent (calls : TxId → Call) (db : Db)
    (schedule : List TxId) : Locked calls (concurrent calls db schedule) :=
  run_induction (fun _ i h => h.step i) (.start db)

/-! ## The rank of a wait -/

theorem dispatched_concurrent (ops : List StorageOp) (calls : TxId → Call)
    (schedule : List TxId) :
    Dispatched (concurrent calls (reach ops) schedule).db := by
  obtain ⟨log, -, -, hser⟩ :=
    (explained_concurrent calls (reach ops) schedule).order
  have hdb : (concurrent calls (reach ops) schedule).db =
      reach (ops ++ log.map fun i => (calls i).op) := by
    rw [← serial_reach, hser]
  rw [hdb]
  exact dispatched_reach _

/-- The driver of an accepted ride is not online. -/
theorem driver_not_online {db : Db} (h : Dispatched db) {k : Int}
    {ride : RideRow} {drv : DriverRow} (hr : db.rides.find? k = some ride)
    (hs : ride.status = .accepted)
    (hd : db.drivers.find? (ride.driverId.getD 0) = some drv) :
    drv.status ≠ .online := by
  obtain ⟨w, hstage, hw⟩ := stage_of_accepted (h.shaped hr) hs
  rw [hw, Option.getD_some] at hd
  have hbusy : drv.status = .busy := by
    rw [h.busy hd]
    intro hfree
    exact hfree k ((view_stage hr).trans hstage)
  rw [hbusy]
  nofun

/-- Who holds a driver: an accept at its ride, or a transaction that waits no
more. -/
theorem mayHold_driver {c : Call} {st : TxState} {id : Int}
    (h : MayHold c st (.driver id)) :
    (∃ rideId drv, c = .accept rideId id ∧ st = .acceptRide drv) ∨
      (∃ drv ride, st = .oneRow drv ride) ∨ st = .noRows := by
  cases c <;> cases st <;> simp_all [MayHold]

/-- Who holds a ride: a completion at its driver, or a transaction that waits
no more. -/
theorem mayHold_ride {c : Call} {st : TxState} {id : Int}
    (h : MayHold c st (.ride id)) :
    (∃ now ride, c = .complete id now ∧ st = .completeDriver ride) ∨
      (∃ drv ride, st = .oneRow drv ride) ∨ st = .noRows := by
  cases c <;> cases st <;> simp_all [MayHold]

/-- How many holders can still stand in front of a transaction. -/
def rank : TxState → Nat
  | .acceptDriver _ => 3
  | .completeRide _ => 2
  | .acceptRide _ => 2
  | .completeDriver _ => 1
  | _ => 0

/-- A completion at its driver waits for no accept: the driver the accept has
found online would be the one the accepted ride keeps busy. -/
theorem completion_meets_no_accept {s : Server} (hdb : Dispatched s.db)
    (hok : ∀ i, TxOk s i (calls i) (s.tx i)) {i j : TxId} {rideId : Int}
    {now : Timestamp} {ride : RideRow} (hi : calls i = .complete rideId now)
    (hsti : s.tx i = .completeDriver ride) {rideId' : Int} {drv : DriverRow}
    (hj : calls j = .accept rideId' (ride.driverId.getD 0)) :
    s.tx j ≠ .acceptRide drv := by
  intro hstj
  have hoki := hok i
  rw [hi, hsti] at hoki
  obtain ⟨-, row, hrow, haccepted, rfl⟩ := hoki
  have hokj := hok j
  rw [hj, hstj] at hokj
  obtain ⟨-, drv₀, hdrv, honline, -⟩ := hokj
  exact driver_not_online hdb hrow haccepted hdrv honline

theorem ranked {s : Server} (hdb : Dispatched s.db)
    (hok : ∀ i, TxOk s i (calls i) (s.tx i)) (hlocked : Locked calls s) :
    Ranked (WaitsFor calls s) fun i => rank (s.tx i) := by
  rintro i j ⟨row, hwants, hholder⟩
  have hheld := hlocked row j hholder
  cases hi : calls i with
  | accept rideId driverId =>
      cases hst : s.tx i with
      | acceptDriver snapshot =>
          rw [hi, hst] at hwants
          cases hwants
          rcases mayHold_driver hheld with ⟨_, _, -, h⟩ | ⟨_, _, h⟩ | h <;>
            simp [h, hst, rank]
      | acceptRide drv =>
          rw [hi, hst] at hwants
          cases hwants
          rcases mayHold_ride hheld with ⟨_, _, -, h⟩ | ⟨_, _, h⟩ | h <;>
            simp [h, hst, rank]
      | _ => rw [hi, hst] at hwants; cases hwants
  | complete rideId now =>
      cases hst : s.tx i with
      | completeRide snapshot =>
          rw [hi, hst] at hwants
          cases hwants
          rcases mayHold_ride hheld with ⟨_, _, -, h⟩ | ⟨_, _, h⟩ | h <;>
            simp [h, hst, rank]
      | completeDriver ride =>
          rw [hi, hst] at hwants
          cases hwants
          rcases mayHold_driver hheld with ⟨_, _, hj, h⟩ | ⟨_, _, h⟩ | h
          · exact (completion_meets_no_accept hdb hok hi hst hj h).elim
          · simp [h, hst, rank]
          · simp [h, hst, rank]
      | _ => rw [hi, hst] at hwants; cases hwants

theorem Move.of_waitsFor {s s' : Server} {i j : TxId} (hmove : Move calls s i s')
    (h : WaitsFor calls s i j) : s' = s := by
  obtain ⟨row, hwants, hholder⟩ := h
  cases hmove with
  | wait hw hj => rfl
  | stay hw hst hheld => rfl
  | begin hidle hst =>
      rw [hidle] at hwants
      cases hc : calls i <;> rw [hc] at hwants <;> cases hwants
  | lock hw hfree htx hlocks hnew hkeep =>
      cases hw.symm.trans hwants
      cases hfree.symm.trans hholder
  | finish hw htx hlocks res => cases hw.symm.trans hwants

/-- A transaction that waits stays where it is. -/
theorem waitsFor_stays {s : Server} {i j : TxId} (h : WaitsFor calls s i j) :
    txStep calls s i = s :=
  (txStep_move calls s i).of_waitsFor h

/-- No transaction holds the lock it wants. -/
theorem not_mayHold_of_wants {c : Call} {st : TxState} {row : RowLock}
    (h : wants c st = some row) : ¬ MayHold c st row := by
  intro hheld
  cases c <;> cases st <;> cases h <;> cases hheld

/-- A transaction with nothing to do has returned. -/
theorem returned_of_stay {s : Server} {c : Call} {st : TxState} {i : TxId}
    (hok : TxOk s i c st) (hw : wants c st = none) (hst : st ≠ .idle)
    (hheld : ∀ row, ¬ MayHold c st row) : ∃ res, st = .returned res := by
  cases st with
  | returned res => exact ⟨res, rfl⟩
  | idle => exact (hst rfl).elim
  | oneRow drv ride => exact (hheld (.ride 0) (mayHold_oneRow ..)).elim
  | noRows => exact (hheld (.ride 0) (mayHold_noRows ..)).elim
  | _ =>
      -- It wants a lock, or is in the middle of the other statement.
      cases c <;> first | cases hw; done | exact False.elim hok

theorem Move.of_runner {s s' : Server} {i : TxId} (hmove : Move calls s i s')
    (hok : TxOk s i (calls i) (s.tx i)) (hopen : ∀ res, s.tx i ≠ .returned res)
    (hrunner : ∀ j, ¬ WaitsFor calls s i j) : s'.tx i ≠ s.tx i := by
  cases hmove with
  | wait hw hj => exact (hrunner _ ⟨_, hw, hj⟩).elim
  | stay hw hst hheld =>
      obtain ⟨res, hres⟩ := returned_of_stay hok hw hst hheld
      exact (hopen res hres).elim
  | @begin hidle st hst =>
      rw [hidle, show (s.goto i st).tx i = st from Function.update_self ..]
      exact hst
  | @lock row t st hw hfree htx hlocks hnew hkeep =>
      rw [show (t.goto i st).tx i = st from Function.update_self ..]
      rintro rfl
      exact not_mayHold_of_wants hw hnew
  | @finish hw t htx hlocks res =>
      rw [show (t.release i res).tx i = .returned res from
        Function.update_self ..]
      exact (hopen res).symm

/-- One that waits for nobody goes on, unless it has returned. -/
theorem runner_moves {s : Server} {i : TxId} (hok : TxOk s i (calls i) (s.tx i))
    (hopen : ∀ res, s.tx i ≠ .returned res)
    (hrunner : ∀ j, ¬ WaitsFor calls s i j) :
    (txStep calls s i).tx i ≠ s.tx i :=
  (txStep_move calls s i).of_runner hok hopen hrunner

theorem ranked_concurrent (ops : List StorageOp) (calls : TxId → Call)
    (schedule : List TxId) :
    let s := concurrent calls (reach ops) schedule
    Ranked (WaitsFor calls s) fun i => rank (s.tx i) :=
  ranked (dispatched_concurrent ops calls schedule)
    (explained_concurrent calls (reach ops) schedule).ok
    (locked_concurrent calls (reach ops) schedule)

/-- While a call is open, the transaction at the end of its chain of waits can
take a step. -/
theorem somebody_moves (ops : List StorageOp) (calls : TxId → Call)
    (schedule : List TxId) :
    let s := concurrent calls (reach ops) schedule
    ∀ i, (∀ res, s.tx i ≠ .returned res) →
      ∃ j, Relation.ReflTransGen (WaitsFor calls s) i j ∧
        (txStep calls s j).tx j ≠ s.tx j := by
  intro s i hopen
  obtain ⟨j, hchain, hrunner⟩ := (ranked_concurrent ops calls schedule).runner i
  have hok := (explained_concurrent calls (reach ops) schedule).ok
  refine ⟨j, hchain, runner_moves (hok j) ?_ hrunner⟩
  rcases hchain.cases_tail with rfl | ⟨k, -, row, -, hholder⟩
  · exact hopen
  · -- Who is waited for holds a lock, and has not returned.
    intro res hst
    have hheld := locked_concurrent calls (reach ops) schedule row j hholder
    rw [hst] at hheld
    cases hc : calls j <;> rw [hc] at hheld <;> cases hheld

/-- In no interleaving of any number of calls, from any database a service run
leaves, is there a cycle of transactions that wait for each other. -/
theorem calls_never_deadlock (ops : List StorageOp) (calls : TxId → Call)
    (schedule : List TxId) :
    ¬ Deadlocked (WaitsFor calls (concurrent calls (reach ops) schedule)) :=
  (ranked_concurrent ops calls schedule).not_deadlocked

end TaxiService.Proofs
