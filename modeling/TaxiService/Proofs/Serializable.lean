import TaxiService.Lib.Serial
import TaxiService.Model.RowLocks
import TaxiService.Proofs.RideLifecycle

/-!
# Concurrent calls are serializable

Any interleaving of the two methods has the effect of running its calls one
at a time, and this file builds that order as the schedule goes. A call is
*decided* at one moment of its life, and the order is the order of these
moments:

* a commit decides the call that commits;
* a test that fails on the newest version of a row decides the call that made
  it, because a call run alone at that moment would be refused too;
* a row missing from the snapshot decides the call when the snapshot is
  taken, although an accept whose ride is missing goes on to lock and test
  the driver row before it notices.

The last point is why `decided` looks into the snapshot of a waiting accept.

What makes a commit agree with a call run alone is that a locked row has the
same newest version from the test to the commit (`TxOk`): only the holder of
its lock installs a version of it. Nothing about drivers and rides is needed
here. That no driver ends up with two rides is then a fact about calls run
alone, which is where it was proved.
-/

namespace TaxiService.Proofs

open TaxiService.Lib TaxiService.Model TaxiService.Spec

variable {calls : TxId → Call}

/-- A transaction's call, run alone. -/
def execCall (calls : TxId → Call) (db : Db) (i : TxId) : Option Ride × Db :=
  (calls i).op.exec db

theorem onlineDriver_some {db : Db} {k : Int} {drv : DriverRow}
    (h : onlineDriver db k = some drv) :
    db.drivers.find? k = some drv ∧ drv.status = .online := by
  obtain ⟨hf, hs⟩ := Option.filter_eq_some_iff.mp h
  exact ⟨hf, by simpa using hs⟩

theorem onlineDriver_none {db : Db} {k : Int} (h : onlineDriver db k = none) :
    ∀ drv, db.drivers.find? k = some drv → drv.status ≠ .online := by
  intro drv hf
  simpa using Option.filter_eq_none_iff.mp h drv hf

theorem rideWith_some {status : RideStatus} {db : Db} {k : Int} {ride : RideRow}
    (h : rideWith status db k = some ride) :
    db.rides.find? k = some ride ∧ ride.status = status := by
  obtain ⟨hf, hs⟩ := Option.filter_eq_some_iff.mp h
  exact ⟨hf, by simpa using hs⟩

theorem rideWith_none {status : RideStatus} {db : Db} {k : Int}
    (h : rideWith status db k = none) :
    ∀ ride, db.rides.find? k = some ride → ride.status ≠ status := by
  intro ride hf
  simpa using Option.filter_eq_none_iff.mp h ride hf

/-! ## What a transaction relies on -/

/-- The locks a transaction holds at each point, and the newest versions of
the rows behind them. -/
def TxOk (s : Server) (i : TxId) : Call → TxState → Prop
  | .accept _ driverId, .acceptRide drv' =>
      s.driverLocks driverId = some i ∧
      ∃ drv, s.db.drivers.find? driverId = some drv ∧ drv.status = .online ∧
        drv' = drv.setBusy
  | .accept rideId driverId, .oneRow drv' ride' =>
      s.driverLocks driverId = some i ∧ s.rideLocks rideId = some i ∧
      ∃ drv ride, s.db.drivers.find? driverId = some drv ∧
        drv.status = .online ∧ drv' = some drv.setBusy ∧
        s.db.rides.find? rideId = some ride ∧ ride.status = .searching ∧
        ride' = ride.setAccepted driverId
  | .complete _ _, .completeRide snapshot =>
      ∀ k, (snapshot.drivers.find? k).isSome = (s.db.drivers.find? k).isSome
  | .complete rideId now, .completeDriver ride' =>
      s.rideLocks rideId = some i ∧
      ∃ ride, s.db.rides.find? rideId = some ride ∧ ride.status = .accepted ∧
        ride' = ride.setCompleted now
  | .complete rideId now, .oneRow drv' ride' =>
      s.rideLocks rideId = some i ∧
      ∃ ride, s.db.rides.find? rideId = some ride ∧ ride.status = .accepted ∧
        ride' = ride.setCompleted now ∧
        (∀ drv, s.db.drivers.find? (ride.driverId.getD 0) = some drv →
          s.driverLocks (ride.driverId.getD 0) = some i ∧
            drv' = some drv.setOnline) ∧
        (s.db.drivers.find? (ride.driverId.getD 0) = none → drv' = none)
  | .accept _ _, .acceptDriver _ => True
  | _, .idle => True
  | _, .noRows => True
  | _, .returned _ => True
  | _, _ => False

/-- What a step of `i` leaves alone: the other transactions, their locks and
the newest versions of the rows they have locked. Drivers neither come nor
go. -/
structure Frame (s s' : Server) (i : TxId) : Prop where
  tx : ∀ j, j ≠ i → s'.tx j = s.tx j
  driver : ∀ j k, j ≠ i → s.driverLocks k = some j →
    s'.driverLocks k = some j ∧ s'.db.drivers.find? k = s.db.drivers.find? k
  ride : ∀ j k, j ≠ i → s.rideLocks k = some j →
    s'.rideLocks k = some j ∧ s'.db.rides.find? k = s.db.rides.find? k
  present : ∀ k,
    (s'.db.drivers.find? k).isSome = (s.db.drivers.find? k).isSome

theorem Frame.refl (s : Server) (i : TxId) : Frame s s i :=
  ⟨fun _ _ => rfl, fun _ _ _ h => ⟨h, rfl⟩, fun _ _ _ h => ⟨h, rfl⟩,
    fun _ => rfl⟩

theorem Frame.trans {s s' s'' : Server} {i : TxId} (h : Frame s s' i)
    (h' : Frame s' s'' i) : Frame s s'' i where
  tx j hj := (h'.tx j hj).trans (h.tx j hj)
  driver j k hj hk := by
    obtain ⟨hl, hv⟩ := h.driver j k hj hk
    obtain ⟨hl', hv'⟩ := h'.driver j k hj hl
    exact ⟨hl', hv'.trans hv⟩
  ride j k hj hk := by
    obtain ⟨hl, hv⟩ := h.ride j k hj hk
    obtain ⟨hl', hv'⟩ := h'.ride j k hj hl
    exact ⟨hl', hv'.trans hv⟩
  present k := (h'.present k).trans (h.present k)

theorem Frame.goto (s : Server) (i : TxId) (st : TxState) :
    Frame s (s.goto i st) i where
  tx _ hj := Function.update_of_ne hj _ _
  driver _ _ _ h := ⟨h, rfl⟩
  ride _ _ _ h := ⟨h, rfl⟩
  present _ := rfl

theorem Frame.takeDriver {s : Server} {id : Int} (i : TxId)
    (h : s.driverLocks id = none) :
    Frame s (s.takeDriver i id) i where
  tx _ _ := rfl
  driver _ k _ hk := by
    refine ⟨?_, rfl⟩
    have hne : k ≠ id := by
      rintro rfl
      rw [h] at hk
      cases hk
    exact (Function.update_of_ne hne _ _).trans hk
  ride _ _ _ h := ⟨h, rfl⟩
  present _ := rfl

theorem Frame.takeRide {s : Server} {id : Int} (i : TxId)
    (h : s.rideLocks id = none) :
    Frame s (s.takeRide i id) i where
  tx _ _ := rfl
  driver _ _ _ h := ⟨h, rfl⟩
  ride _ k _ hk := by
    refine ⟨?_, rfl⟩
    have hne : k ≠ id := by
      rintro rfl
      rw [h] at hk
      cases hk
    exact (Function.update_of_ne hne _ _).trans hk
  present _ := rfl

theorem Frame.release (s : Server) (i : TxId) (res : Option Ride) :
    Frame s (s.release i res) i where
  tx j hj := Function.update_of_ne hj _ _
  driver j k hj hk := by
    refine ⟨?_, rfl⟩
    simp only [Server.release, hk, Option.some.injEq, if_neg hj]
  ride j k hj hk := by
    refine ⟨?_, rfl⟩
    simp only [Server.release, hk, Option.some.injEq, if_neg hj]
  present _ := rfl

/-- Installing versions of rows the transaction has locked touches no row
another one has locked. -/
theorem Frame.install {s : Server} {i : TxId} {drv : Option DriverRow}
    {ride : RideRow} (hd : ∀ d, drv = some d → s.driverLocks d.id = some i)
    (hr : s.rideLocks ride.id = some i) : Frame s (s.install drv ride) i where
  tx _ _ := rfl
  driver j k hj hk := by
    refine ⟨hk, ?_⟩
    simp only [Server.install]
    cases drv with
    | none => rfl
    | some d =>
        simp only [Table.find?_replace]
        rw [if_neg]
        rintro rfl
        rw [hd d rfl] at hk
        exact hj (Option.some.inj hk).symm
  ride j k hj hk := by
    refine ⟨hk, ?_⟩
    simp only [Server.install, Table.find?_replace]
    rw [if_neg]
    rintro rfl
    rw [hr] at hk
    exact hj (Option.some.inj hk).symm
  present k := by
    simp only [Server.install]
    cases drv with
    | none => rfl
    | some d =>
        simp only [Table.find?_replace]
        split
        · rw [Option.isSome_map]
        · rfl

/-- So what a transaction relies on survives the steps of the others. -/
theorem TxOk.frame {s s' : Server} {i j : TxId} (hf : Frame s s' i)
    (hj : j ≠ i) {c : Call} {st : TxState} (h : TxOk s j c st) :
    TxOk s' j c st := by
  cases c with
  | accept rideId driverId =>
      cases st with
      | acceptRide drv' =>
          obtain ⟨hl, drv, hd, hon, he⟩ := h
          obtain ⟨hl', hv⟩ := hf.driver j _ hj hl
          exact ⟨hl', drv, hv.trans hd, hon, he⟩
      | oneRow drv' ride' =>
          obtain ⟨hl, hlr, drv, ride, hd, hon, he, hr, hs, her⟩ := h
          obtain ⟨hl', hv⟩ := hf.driver j _ hj hl
          obtain ⟨hlr', hvr⟩ := hf.ride j _ hj hlr
          exact ⟨hl', hlr', drv, ride, hv.trans hd, hon, he, hvr.trans hr, hs,
            her⟩
      | idle | acceptDriver _ | noRows | returned _ => trivial
      | completeRide _ | completeDriver _ => cases h
  | complete rideId now =>
      cases st with
      | completeRide snapshot => exact fun k => (h k).trans (hf.present k).symm
      | completeDriver ride' =>
          obtain ⟨hl, ride, hr, hs, he⟩ := h
          obtain ⟨hl', hv⟩ := hf.ride j _ hj hl
          exact ⟨hl', ride, hv.trans hr, hs, he⟩
      | oneRow drv' ride' =>
          obtain ⟨hl, ride, hr, hs, he, hsome, hnone⟩ := h
          obtain ⟨hl', hv⟩ := hf.ride j _ hj hl
          refine ⟨hl', ride, hv.trans hr, hs, he, ?_, ?_⟩
          · intro drv hd
            -- The driver was there before the step too, so its lock is held.
            have hsome' : (s.db.drivers.find?
                (ride.driverId.getD 0)).isSome := by
              rw [← hf.present, hd]; rfl
            obtain ⟨drv₀, hd₀⟩ := Option.isSome_iff_exists.mp hsome'
            obtain ⟨hl₀, he₀⟩ := hsome drv₀ hd₀
            obtain ⟨hl₁, hv₁⟩ := hf.driver j _ hj hl₀
            rw [hv₁, hd₀] at hd
            cases hd
            exact ⟨hl₁, he₀⟩
          · intro hd
            apply hnone
            rw [← Option.not_isSome_iff_eq_none, ← hf.present, hd]
            simp
      | idle | noRows | returned _ => trivial
      | acceptDriver _ | acceptRide _ => cases h

/-! ## The order of the decisions -/

/-- The answer of a call from the moment it can no longer be anything else. -/
def decided : Call → TxState → Option (Option Ride)
  | .accept rideId _, .acceptDriver snapshot =>
      match rideWith .searching snapshot rideId with
      | some _ => none
      | none => some none
  | _, .noRows => some none
  | _, .returned res => some res
  | _, _ => none

/-- The decided calls, run alone in some order, explain the committed tables
and their own answers. -/
structure Explained (calls : TxId → Call) (db : Db) (s : Server) : Prop where
  ok : ∀ i, TxOk s i (calls i) (s.tx i)
  order : ∃ log : List TxId, log.Nodup ∧
    (∀ i, i ∈ log ↔ (decided (calls i) (s.tx i)).isSome) ∧
    serial (execCall calls) db log =
      (log.map fun i => (decided (calls i) (s.tx i)).getD none, s.db)

/-- A step may decide its own call. If it does, the answer and the new tables
are those of the call run alone on the old ones; if it does not, the tables
are untouched. -/
def Decides (calls : TxId → Call) (s s' : Server) (i : TxId) : Prop :=
  (decided (calls i) (s'.tx i) = decided (calls i) (s.tx i) ∧ s'.db = s.db) ∨
  (decided (calls i) (s.tx i) = none ∧
    decided (calls i) (s'.tx i) = some (execCall calls s.db i).1 ∧
    s'.db = (execCall calls s.db i).2)

theorem Explained.next {db : Db} {s s' : Server} {i : TxId}
    (h : Explained calls db s) (hf : Frame s s' i)
    (hok : TxOk s' i (calls i) (s'.tx i)) (hdec : Decides calls s s' i) :
    Explained calls db s' := by
  refine ⟨fun j => ?_, ?_⟩
  · by_cases hj : j = i
    · rw [hj]; exact hok
    · rw [hf.tx j hj]; exact (h.ok j).frame hf hj
  · obtain ⟨log, hnd, hmem, hser⟩ := h.order
    rcases hdec with ⟨hsame, hdb⟩ | ⟨hnone, hsome, hdb⟩
    · have hall : ∀ j, decided (calls j) (s'.tx j) =
          decided (calls j) (s.tx j) := by
        intro j
        by_cases hj : j = i
        · rw [hj]; exact hsame
        · rw [hf.tx j hj]
      refine ⟨log, hnd, fun j => by rw [hall, hmem], ?_⟩
      simp only [hall, hdb]
      exact hser
    · have hnot : i ∉ log := by
        rw [hmem, hnone]; simp
      refine ⟨log ++ [i], ?_, ?_, ?_⟩
      · rw [List.nodup_append]
        refine ⟨hnd, List.nodup_singleton i, fun a ha b hb => ?_⟩
        rw [List.mem_singleton] at hb
        rintro rfl
        exact hnot (hb ▸ ha)
      · intro j
        rw [List.mem_append, List.mem_singleton]
        by_cases hj : j = i
        · simp [hj, hsome]
        · rw [hf.tx j hj, hmem]
          simp [hj]
      · rw [serial_concat hser i, List.map_append, List.map_singleton, hsome,
          hdb]
        congr 2
        refine List.map_congr_left fun j hj => ?_
        rw [hf.tx j (fun e => hnot (e ▸ hj))]

/-- A step that only moves on: nothing is decided by it. -/
theorem Explained.move {db : Db} {s s' : Server} {i : TxId} {st : TxState}
    (h : Explained calls db s) (hf : Frame s s' i) (hdb : s'.db = s.db)
    (hok : TxOk s' i (calls i) st)
    (hdec : decided (calls i) st = decided (calls i) (s.tx i)) :
    Explained calls db (s'.goto i st) := by
  have htx : (s'.goto i st).tx i = st := Function.update_self ..
  refine h.next (hf.trans (.goto s' i st)) ?_ (.inl ⟨?_, hdb⟩)
  · rw [htx]; exact hok
  · rw [htx, hdec]

theorem Explained.start (db : Db) : Explained calls db (Server.start db) where
  ok i := by cases hc : calls i <;> trivial
  order := by
    refine ⟨[], List.nodup_nil, fun i => ?_, rfl⟩
    cases hc : calls i <;> simp [Server.start, decided]

/-! ## The steps -/

section Steps

variable {db : Db} {s : Server} {i : TxId}

theorem refused_accept {rideId driverId : Int}
    (hc : calls i = .accept rideId driverId)
    (h : onlineDriver s.db driverId = none ∨
      rideWith .searching s.db rideId = none) :
    execCall calls s.db i = (none, s.db) := by
  rw [execCall, hc]
  exact acceptRide_refused (h.imp onlineDriver_none rideWith_none)

theorem refused_complete {rideId : Int} {now : Timestamp}
    (hc : calls i = .complete rideId now)
    (h : rideWith .accepted s.db rideId = none) :
    execCall calls s.db i = (none, s.db) := by
  rw [execCall, hc]
  exact completeRide_refused (rideWith_none h)

/-- A call that is refused on the newest versions ends without rows. -/
theorem Explained.refuse {s' : Server} (h : Explained calls db s)
    (hf : Frame s s' i) (hdb : s'.db = s.db)
    (hnone : decided (calls i) (s.tx i) = none ∨
      decided (calls i) (s.tx i) = some none)
    (hex : decided (calls i) (s.tx i) = none →
      execCall calls s.db i = (none, s.db)) :
    Explained calls db (s'.goto i .noRows) := by
  have htx : (s'.goto i .noRows).tx i = .noRows := Function.update_self ..
  have hnew : decided (calls i) .noRows = some none := by
    cases calls i <;> rfl
  refine h.next (hf.trans (.goto s' i _)) ?_ ?_
  · rw [htx]
    cases calls i <;> trivial
  · rw [Decides, htx, hnew]
    rcases hnone with hn | hn
    · refine .inr ⟨hn, ?_, ?_⟩
      · rw [hex hn]
      · rw [hex hn]; exact hdb
    · exact .inl ⟨hn.symm, hdb⟩

theorem step_accept_idle (h : Explained calls db s) {rideId driverId : Int}
    (hc : calls i = .accept rideId driverId) (hst : s.tx i = .idle) :
    Explained calls db (txStep calls s i) := by
  have hnone : decided (calls i) (s.tx i) = none := by rw [hc, hst]; rfl
  simp only [txStep, hc, hst]
  split
  · have htx : (s.goto i (.acceptDriver s.db)).tx i = .acceptDriver s.db :=
      Function.update_self ..
    refine h.next (.goto s i _) (by rw [htx, hc]; trivial) ?_
    rw [Decides, htx, hnone, hc]
    cases hr : rideWith .searching s.db rideId with
    | some ride => exact .inl ⟨by simp only [decided, hr], rfl⟩
    | none =>
        -- The snapshot misses the ride: the call is decided here.
        have hex := refused_accept hc (.inr hr)
        exact .inr ⟨rfl, by simp only [decided, hr, hex], by rw [hex]; rfl⟩
  · next hd =>
      exact h.refuse (.refl s i) rfl (.inl hnone)
        fun _ => refused_accept hc (.inl hd)

theorem step_accept_driver (h : Explained calls db s) {rideId driverId : Int}
    {snapshot : Db} (hc : calls i = .accept rideId driverId)
    (hst : s.tx i = .acceptDriver snapshot) :
    Explained calls db (txStep calls s i) := by
  simp only [txStep, hc, hst, Server.lockDriver]
  split
  · next hfree =>
      have hf := Frame.takeDriver i hfree
      have hdec : decided (calls i) (s.tx i) =
          match rideWith .searching snapshot rideId with
          | some _ => none
          | none => some none := by rw [hc, hst]; rfl
      split
      · next drv hd =>
          split
          · next ride hr =>
              obtain ⟨hdf, hon⟩ := onlineDriver_some hd
              refine h.move hf rfl ?_ (by rw [hdec, hr, hc]; rfl)
              rw [hc]
              exact ⟨Function.update_self .., drv, hdf, hon, rfl⟩
          · next hr =>
              rw [hr] at hdec
              exact h.refuse hf rfl (.inr hdec)
                fun hn => absurd (hdec.symm.trans hn) (by simp)
      · next hd =>
          refine h.refuse hf rfl ?_ fun _ => refused_accept hc (.inl hd)
          rw [hdec]
          cases rideWith .searching snapshot rideId <;> simp
  · exact h

theorem step_accept_ride (h : Explained calls db s) {rideId driverId : Int}
    {drv : DriverRow} (hc : calls i = .accept rideId driverId)
    (hst : s.tx i = .acceptRide drv) :
    Explained calls db (txStep calls s i) := by
  have hnone : decided (calls i) (s.tx i) = none := by rw [hc, hst]; rfl
  have hok := h.ok i
  rw [hc, hst] at hok
  simp only [txStep, hc, hst, Server.lockRide]
  split
  · next hfree =>
      have hf := Frame.takeRide i hfree
      split
      · next ride hr =>
          obtain ⟨hl, drv₀, hd, hon, rfl⟩ := hok
          obtain ⟨hrf, hs⟩ := rideWith_some hr
          refine h.move hf rfl ?_ (by rw [hnone, hc]; rfl)
          rw [hc]
          exact ⟨hl, Function.update_self .., drv₀, ride, hd, hon, rfl, hrf, hs,
            rfl⟩
      · next hr =>
          exact h.refuse hf rfl (.inl hnone)
            fun _ => refused_accept hc (.inr hr)
  · exact h

theorem step_complete_idle (h : Explained calls db s) {rideId : Int}
    {now : Timestamp} (hc : calls i = .complete rideId now)
    (hst : s.tx i = .idle) : Explained calls db (txStep calls s i) := by
  have hnone : decided (calls i) (s.tx i) = none := by rw [hc, hst]; rfl
  simp only [txStep, hc, hst]
  split
  · refine h.move (.refl s i) rfl ?_ (by rw [hnone, hc]; rfl)
    rw [hc]
    exact fun k => rfl
  · next hr =>
      exact h.refuse (.refl s i) rfl (.inl hnone)
        fun _ => refused_complete hc hr

theorem step_complete_ride (h : Explained calls db s) {rideId : Int}
    {now : Timestamp} {snapshot : Db} (hc : calls i = .complete rideId now)
    (hst : s.tx i = .completeRide snapshot) :
    Explained calls db (txStep calls s i) := by
  have hnone : decided (calls i) (s.tx i) = none := by rw [hc, hst]; rfl
  have hok := h.ok i
  rw [hc, hst] at hok
  simp only [txStep, hc, hst, Server.lockRide]
  split
  · next hfree =>
      have hf := Frame.takeRide i hfree
      split
      · next ride hr =>
          obtain ⟨hrf, hs⟩ := rideWith_some hr
          split
          · refine h.move hf rfl ?_ (by rw [hnone, hc]; rfl)
            rw [hc]
            exact ⟨Function.update_self .., ride, hrf, hs, rfl⟩
          · next hd =>
              refine h.move hf rfl ?_ (by rw [hnone, hc]; rfl)
              rw [hc]
              refine ⟨Function.update_self .., ride, hrf, hs, rfl, ?_,
                fun _ => rfl⟩
              -- Not in the snapshot, so not among the committed drivers.
              intro drv (hdrv : s.db.drivers.find? _ = some drv)
              have hp := hok (ride.driverId.getD 0)
              rw [hd, hdrv] at hp
              cases hp
      · next hr =>
          exact h.refuse hf rfl (.inl hnone) fun _ => refused_complete hc hr
  · exact h

theorem step_complete_driver (h : Explained calls db s) {rideId : Int}
    {now : Timestamp} {ride' : RideRow} (hc : calls i = .complete rideId now)
    (hst : s.tx i = .completeDriver ride') :
    Explained calls db (txStep calls s i) := by
  have hnone : decided (calls i) (s.tx i) = none := by rw [hc, hst]; rfl
  have hok := h.ok i
  rw [hc, hst] at hok
  obtain ⟨hl, ride, hrf, hs, rfl⟩ := hok
  simp only [txStep, hc, hst, Server.lockDriver]
  split
  · next hfree =>
      have hf := Frame.takeDriver i hfree
      split
      · next drv hd =>
          refine h.move hf rfl ?_ (by rw [hnone, hc]; rfl)
          rw [hc]
          refine ⟨hl, ride, hrf, hs, rfl, ?_, ?_⟩
          · intro drv₀ hd₀
            rw [← Option.some.inj (hd.symm.trans hd₀)]
            exact ⟨Function.update_self .., rfl⟩
          · intro hd₀
            cases hd.symm.trans hd₀
      · next hd =>
          refine h.move hf rfl ?_ (by rw [hnone, hc]; rfl)
          rw [hc]
          refine ⟨hl, ride, hrf, hs, rfl, ?_, fun _ => rfl⟩
          intro drv₀ hd₀
          cases hd.symm.trans hd₀
  · exact h

theorem decided_returned (c : Call) (res : Option Ride) :
    decided c (.returned res) = some res := by cases c <;> rfl

theorem txOk_returned (s : Server) (i : TxId) (c : Call) (res : Option Ride) :
    TxOk s i c (.returned res) := by cases c <;> trivial

/-- A commit whose new versions are those of the call run alone. -/
theorem Explained.commit {drv : Option DriverRow} {ride : RideRow}
    (h : Explained calls db s) (hst : s.tx i = .oneRow drv ride)
    (hd : ∀ d, drv = some d → s.driverLocks d.id = some i)
    (hr : s.rideLocks ride.id = some i)
    (hex : execCall calls s.db i =
      (some (parseRide ride), (s.install drv ride).db)) :
    Explained calls db
      ((s.install drv ride).release i (some (parseRide ride))) := by
  have htx : ((s.install drv ride).release i (some (parseRide ride))).tx i =
      .returned (some (parseRide ride)) := Function.update_self ..
  refine h.next ((Frame.install hd hr).trans (.release _ i _)) ?_ (.inr ?_)
  · rw [htx]; exact txOk_returned ..
  · rw [htx, decided_returned, hex, hst]
    exact ⟨by cases calls i <;> rfl, rfl, rfl⟩

theorem step_oneRow (h : Explained calls db s) {drv : Option DriverRow}
    {ride : RideRow} (hst : s.tx i = .oneRow drv ride) :
    Explained calls db (txStep calls s i) := by
  have hok := h.ok i
  rw [hst] at hok
  cases hc : calls i with
  | accept rideId driverId =>
      rw [hc] at hok
      obtain ⟨hl, hlr, drv₀, ride₀, hd, hon, rfl, hr, hs, rfl⟩ := hok
      have hid := Table.find?_key hd
      have hrid := Table.find?_key hr
      simp only [txStep, hc, hst]
      refine h.commit hst ?_ (by rw [RideRow.setAccepted_id, hrid, hlr]) ?_
      · intro d he
        cases he
        rw [DriverRow.setBusy_id, hid, hl]
      · rw [execCall, hc]
        exact acceptRide_ok hd hon hr hs
  | complete rideId now =>
      rw [hc] at hok
      obtain ⟨hlr, ride₀, hr, hs, rfl, hsome, hnone⟩ := hok
      have hrid := Table.find?_key hr
      simp only [txStep, hc, hst]
      have hdrv : drv = (s.db.drivers.find? (ride₀.driverId.getD 0)).map
          DriverRow.setOnline := by
        cases hd : s.db.drivers.find? (ride₀.driverId.getD 0) with
        | some d => exact (hsome d hd).2
        | none => exact hnone hd
      refine h.commit hst ?_ (by rw [RideRow.setCompleted_id, hrid, hlr]) ?_
      · intro d he
        obtain ⟨d₀, hd₀, rfl⟩ := Option.map_eq_some_iff.mp (hdrv ▸ he)
        rw [DriverRow.setOnline_id, Table.find?_key hd₀]
        exact (hsome d₀ hd₀).1
      · rw [execCall, hc]
        refine (completeRide_ok hr hs).trans ?_
        rw [hdrv]
        cases s.db.drivers.find? (ride₀.driverId.getD 0) <;> rfl

theorem step_noRows (h : Explained calls db s) (hst : s.tx i = .noRows) :
    Explained calls db (txStep calls s i) := by
  have hstep : txStep calls s i = s.release i none := by
    cases hc : calls i <;> simp only [txStep, hc, hst]
  have htx : (s.release i none).tx i = .returned none :=
    Function.update_self ..
  rw [hstep]
  refine h.next (.release s i _) (by rw [htx]; exact txOk_returned ..) ?_
  rw [Decides, htx, decided_returned, hst]
  exact .inl ⟨by cases calls i <;> rfl, rfl⟩

theorem Explained.step (h : Explained calls db s) (i : TxId) :
    Explained calls db (txStep calls s i) := by
  have hok := h.ok i
  cases hst : s.tx i with
  | oneRow drv ride => exact step_oneRow h hst
  | noRows => exact step_noRows h hst
  | returned res =>
      have hstep : txStep calls s i = s := by
        cases hc : calls i <;> simp only [txStep, hc, hst]
      rw [hstep]; exact h
  | idle =>
      cases hc : calls i with
      | accept rideId driverId => exact step_accept_idle h hc hst
      | complete rideId now => exact step_complete_idle h hc hst
  | acceptDriver snapshot =>
      cases hc : calls i with
      | accept rideId driverId => exact step_accept_driver h hc hst
      | complete rideId now => rw [hc, hst] at hok; cases hok
  | acceptRide drv =>
      cases hc : calls i with
      | accept rideId driverId => exact step_accept_ride h hc hst
      | complete rideId now => rw [hc, hst] at hok; cases hok
  | completeRide snapshot =>
      cases hc : calls i with
      | accept rideId driverId => rw [hc, hst] at hok; cases hok
      | complete rideId now => exact step_complete_ride h hc hst
  | completeDriver ride =>
      cases hc : calls i with
      | accept rideId driverId => rw [hc, hst] at hok; cases hok
      | complete rideId now => exact step_complete_driver h hc hst

end Steps

/-- The run lemma. -/
theorem explained_concurrent (calls : TxId → Call) (db : Db)
    (schedule : List TxId) : Explained calls db (concurrent calls db schedule) :=
  run_induction (fun _ i h => h.step i) (.start db)

/-! ## What it means for drivers and rides -/

/-- The ride is there and no longer searching. -/
def Taken (rideId : Int) (db : Db) : Prop :=
  ∃ row, db.rides.find? rideId = some row ∧ row.status ≠ .searching

theorem Taken.apply {db : Db} (h : Dispatched db) {rideId : Int}
    (ht : Taken rideId db) (op : StorageOp) : Taken rideId (op.apply db) := by
  obtain ⟨row, hk, hs⟩ := ht
  obtain ⟨row', hk', _, hstep, _⟩ := ride_step h op hk
  refine ⟨row', hk', fun he => ?_⟩
  rw [he] at hstep
  generalize row.status = st at hstep hs
  cases hstep
  exact hs rfl

theorem acceptRide_some {db : Db} {rideId driverId : Int} {ride : Ride}
    (h : (acceptRide rideId driverId db).1 = some ride) :
    ¬ Taken rideId db ∧ Taken rideId (acceptRide rideId driverId db).2 := by
  by_cases hr : ∃ row, db.rides.find? rideId = some row ∧
      row.status = .searching
  · obtain ⟨row, hk, hs⟩ := hr
    refine ⟨fun ⟨row', hk', hs'⟩ => hs' ?_, ?_⟩
    · rw [hk] at hk'
      cases hk'
      exact hs
    · by_cases hd : ∃ drv, db.drivers.find? driverId = some drv ∧
          drv.status = .online
      · obtain ⟨drv, hdk, hon⟩ := hd
        rw [acceptRide_ok hdk hon hk hs]
        refine ⟨row.setAccepted driverId, ?_, by simp [RideRow.setAccepted]⟩
        rw [Table.find?_replace, RideRow.setAccepted_id, Table.find?_key hk,
          if_pos rfl, hk, Option.map_some]
      · rw [acceptRide_refused
          (.inl fun drv hdk hon => hd ⟨drv, hdk, hon⟩)] at h
        cases h
  · rw [acceptRide_refused (.inr fun row hk hs => hr ⟨row, hk, hs⟩)] at h
    cases h

/-- Once a ride is taken, no later accept of it succeeds. -/
theorem serial_taken {answer : TxId → Option Ride} {rideId driverId : Int}
    {j : TxId} (hj : calls j = .accept rideId driverId) :
    ∀ {log : List TxId} {db db' : Db}, Dispatched db → Taken rideId db →
      serial (execCall calls) db log = (log.map answer, db') → j ∈ log →
      answer j = none := by
  intro log
  induction log with
  | nil => intro db db' _ _ _ hmem; cases hmem
  | cons k log ih =>
      intro db db' h ht hser hmem
      simp only [serial, List.map_cons, Prod.mk.injEq, List.cons.injEq] at hser
      obtain ⟨⟨hhead, htail⟩, hend⟩ := hser
      rcases List.mem_cons.mp hmem with rfl | hmem
      · cases ha : answer j with
        | none => rfl
        | some ride =>
            rw [execCall, hj, ha] at hhead
            exact absurd ht (acceptRide_some hhead).1
      · exact ih (h.apply (calls k).op) (ht.apply h (calls k).op)
          (Prod.ext htail hend) hmem

/-- So of two accepts of one ride at most one succeeds. -/
theorem serial_accept_once {answer : TxId → Option Ride}
    {rideId d d' : Int} {i j : TxId} (hi : calls i = .accept rideId d)
    (hj : calls j = .accept rideId d') :
    ∀ {log : List TxId} {db db' : Db}, Dispatched db → log.Nodup →
      serial (execCall calls) db log = (log.map answer, db') → i ∈ log →
      j ∈ log → (answer i).isSome → (answer j).isSome → i = j := by
  intro log
  induction log with
  | nil => intro db db' _ _ _ hmem; cases hmem
  | cons k log ih =>
      intro db db' h hnd hser hmi hmj hsi hsj
      simp only [serial, List.map_cons, Prod.mk.injEq, List.cons.injEq] at hser
      obtain ⟨⟨hhead, htail⟩, hend⟩ := hser
      rw [List.nodup_cons] at hnd
      have hafter : ∀ {w : Int}, calls k = .accept rideId w →
          (answer k).isSome → Taken rideId (execCall calls db k).2 := by
        intro w hk hsome
        obtain ⟨ride, ha⟩ := Option.isSome_iff_exists.mp hsome
        rw [ha, execCall, hk] at hhead
        rw [execCall, hk]
        exact (acceptRide_some hhead).2
      have hlater : ∀ {w w' : Int} {l : TxId}, calls k = .accept rideId w →
          (answer k).isSome → calls l = .accept rideId w' → l ∈ log →
          answer l = none :=
        fun hk hsome hl hmem => serial_taken hl (h.apply (calls k).op)
          (hafter hk hsome) (Prod.ext htail hend) hmem
      rcases List.mem_cons.mp hmi with ei | hti <;>
        rcases List.mem_cons.mp hmj with ej | htj
      · rw [ei, ej]
      · subst ei
        rw [hlater hi hsi hj htj] at hsj
        cases hsj
      · subst ej
        rw [hlater hj hsj hi hti] at hsi
        cases hsi
      · exact ih (h.apply (calls k).op) hnd.2 (Prod.ext htail hend) hti htj
          hsi hsj

theorem execCall_quiet (db : Db) (i : TxId)
    (h : (execCall calls db i).1 = none) : (execCall calls db i).2 = db := by
  cases hc : calls i with
  | accept rideId driverId =>
      rw [execCall, hc] at h ⊢
      simp only [Call.op, StorageOp.exec, acceptRide, finish] at h ⊢
      split at h
      · rfl
      · cases h
  | complete rideId now =>
      rw [execCall, hc] at h ⊢
      simp only [Call.op, StorageOp.exec, completeRide, finish] at h ⊢
      split at h
      · rfl
      · cases h

/-- What a returned call has answered. -/
def answerOf (s : Server) (i : TxId) : Option Ride :=
  match s.tx i with
  | .returned res => res
  | _ => none

theorem Explained.returned {db : Db} {s : Server} (h : Explained calls db s) :
    ∃ order : List TxId, order.Nodup ∧
      (∀ i, i ∈ order ↔ ∃ res, s.tx i = .returned res) ∧
      serial (execCall calls) db order = (order.map (answerOf s), s.db) := by
  obtain ⟨log, hnd, hmem, hser⟩ := h.order
  -- A call that is decided but has not returned will be refused.
  let done : TxId → Bool := fun i => match s.tx i with
    | .returned _ => true
    | _ => false
  have hdone : ∀ i, done i = true ↔ ∃ res, s.tx i = .returned res := by
    intro i
    simp only [done]
    cases s.tx i <;> simp
  have hpending : ∀ i, done i = false →
      (decided (calls i) (s.tx i)).getD none = none := by
    intro i hi
    simp only [done] at hi
    cases hst : s.tx i with
    | returned res => rw [hst] at hi; cases hi
    | acceptDriver snapshot =>
        cases hc : calls i with
        | accept rideId driverId =>
            simp only [decided]
            cases rideWith .searching snapshot rideId <;> rfl
        | complete rideId now => rfl
    | _ => cases calls i <;> rfl
  have hfilter := serial_filter (fun res => res = none)
    (fun db i => execCall_quiet db i) done hser
    fun i _ hi => hpending i hi
  refine ⟨log.filter done, hnd.filter _, fun i => ?_, ?_⟩
  · rw [List.mem_filter, hdone, hmem]
    refine ⟨fun h => h.2, fun h => ⟨?_, h⟩⟩
    obtain ⟨res, hres⟩ := h
    rw [hres, decided_returned]
    rfl
  · rw [hfilter]
    congr 1
    refine List.map_congr_left fun i hi => ?_
    obtain ⟨res, hres⟩ := (hdone i).mp (List.mem_filter.mp hi).2
    rw [hres, decided_returned, answerOf, hres]
    rfl

theorem serial_reach (ops : List StorageOp) (order : List TxId) :
    (serial (execCall calls) (reach ops) order).2 =
      reach (ops ++ order.map fun i => (calls i).op) := by
  rw [serial_snd, reach, reach, run_append]
  simp only [run, List.foldl_map]
  rfl

/-- At any moment of any interleaving, from any database a service run
leaves: the calls that have returned, taken in some order and run one at a
time, give the same answers and the same committed tables. So no ride is ever
given to two calls, and no driver has two accepted rides. -/
theorem concurrent_calls_serializable (ops : List StorageOp)
    (calls : TxId → Call) (schedule : List TxId) :
    let s := concurrent calls (reach ops) schedule
    (∃ order : List TxId, order.Nodup ∧
      (∀ i, i ∈ order ↔ ∃ res, s.tx i = .returned res) ∧
      serial (execCall calls) (reach ops) order =
        (order.map (answerOf s), s.db)) ∧
    (∀ i j rideId d d' ride ride', calls i = .accept rideId d →
      calls j = .accept rideId d' → s.tx i = .returned (some ride) →
      s.tx j = .returned (some ride') → i = j) ∧
    ∀ w, ∀ r ∈ s.db.rides.rows, ∀ r' ∈ s.db.rides.rows,
      Serves w r → Serves w r' → r = r' := by
  intro s
  have h : Explained calls (reach ops) s := explained_concurrent calls _ _
  obtain ⟨order, hnd, hmem, hser⟩ := h.returned
  refine ⟨⟨order, hnd, hmem, hser⟩, ?_, ?_⟩
  · intro i j rideId d d' ride ride' hi hj hri hrj
    exact serial_accept_once hi hj (dispatched_reach ops) hnd hser
      ((hmem i).mpr ⟨_, hri⟩) ((hmem j).mpr ⟨_, hrj⟩)
      (by rw [answerOf, hri]; rfl) (by rw [answerOf, hrj]; rfl)
  · intro w r hr r' hr'
    have hdb : s.db = reach (ops ++ order.map fun i => (calls i).op) := by
      rw [← serial_reach, hser]
    have hd : Dispatched s.db := hdb ▸ dispatched_reach _
    exact serves_unique hd hr hr'

end TaxiService.Proofs
