import TaxiService.Proofs.Acknowledgements
import TaxiService.Proofs.DriverStatus

/-!
# The answers make the board

What the server has answered so far is a history of the board, with nothing in
it that the board does not allow and nothing missing (`Recorded`). So the
answers to the requests that assign and close rides are decided by the answers
before them: a ride is assigned exactly when it was posted and not assigned
since, to a driver who was hired and has closed every ride before.

Each storage call is one step of the board with its entry (`Moved`), which
refines what `Dispatched` says of it. The two transactions are read against
`decide?` by their guards.
-/

namespace TaxiService.Proofs

open TaxiService.Lib TaxiService.Model TaxiService.Spec

/-! ## The guards -/

section

variable {db : Db}

theorem posted_iff (h : Dispatched db) {k : Int} :
    (view db).stage k = some .posted ↔
      ∃ ride, db.rides.find? k = some ride ∧ ride.status = .searching := by
  constructor
  · intro hk
    obtain ⟨ride, hride, hstage⟩ := view_stage_some hk
    exact ⟨ride, hride, (stage_posted_iff.mp hstage).1⟩
  · rintro ⟨ride, hride, hs⟩
    rw [view_stage hride]
    exact stage_of_searching (h.shaped hride) hs

theorem available_iff (h : Dispatched db) {w : Int} :
    w ∈ (view db).workers ∧ (view db).Free w ↔
      ∃ drv, db.drivers.find? w = some drv ∧ drv.status = .online := by
  constructor
  · rintro ⟨hmem, hfree⟩
    obtain ⟨drv, hdrv⟩ := Option.isSome_iff_exists.mp hmem
    refine ⟨drv, hdrv, (h.known hdrv).resolve_left fun hbusy => ?_⟩
    exact (h.busy hdrv).mp hbusy hfree
  · rintro ⟨drv, hdrv, hon⟩
    refine ⟨Option.isSome_iff_exists.mpr ⟨drv, hdrv⟩, ?_⟩
    by_contra hfree
    rw [(h.busy hdrv).mpr hfree] at hon
    cases hon

/-! ## The storage calls -/

theorem createUser_moved (login password fullName : StdString) (db : Db) :
    Board.Moved (view db) none
      (view (createUser login password fullName db).2) := by
  rw [createUser]
  rcases kInsertUser_cases login password fullName db with
    ⟨e, db', heq, hsame⟩ | ⟨row, db', heq, -, hd, hr⟩
  · rw [heq]
    show Board.Moved (view db) none (view db')
    rw [view_congr hsame.2.1 hsame.2.2]
    exact .stay
  · rw [heq]
    show Board.Moved (view db) none (view db')
    rw [view_congr hd hr]
    exact .stay

theorem createDriver_moved (userId : Int)
    (carModel carNumber licenseNumber : StdString) (db : Db) :
    Board.Moved (view db)
      (logged? (.app (.createDriver userId carModel carNumber licenseNumber))
        (createDriver userId carModel carNumber licenseNumber db).1)
      (view (createDriver userId carModel carNumber licenseNumber db).2) := by
  rw [createDriver]
  rcases kInsertDriver_cases userId carModel carNumber licenseNumber db with
    ⟨e, db', heq, hsame⟩ | ⟨row, db', heq, -, -, hins, -, hr⟩
  · rw [heq]
    have hnone : logged? (.app (.createDriver userId carModel carNumber
        licenseNumber)) (insertMethod [.uniqueViolation, .foreignKeyViolation]
          parseDriver (.error e, db')).1 = none := by
      simp only [insertMethod]
      split <;> rfl
    rw [hnone]
    show Board.Moved (view db) none (view db')
    rw [view_congr hsame.2.1 hsame.2.2]
    exact .stay
  · rw [heq]
    show Board.Moved (view db) (some (.hired row.id)) (view db')
    rw [view_driver hins hr]
    exact .hire row.id

theorem createRide_moved (passengerId : Int) (pickup destination : StdString)
    (now : Timestamp) (db : Db) :
    Board.Moved (view db)
      (logged? (.app (.createRide passengerId pickup destination))
        (createRide passengerId pickup destination now db).1)
      (view (createRide passengerId pickup destination now db).2) := by
  rw [createRide]
  rcases kInsertRide_cases passengerId pickup destination now db with
    ⟨e, db', heq, hsame⟩ | ⟨row, db', heq, hs, hn, hc, hins, -, hd⟩
  · rw [heq]
    have hnone : logged? (.app (.createRide passengerId pickup destination))
        (insertMethod [.foreignKeyViolation] parseRide (.error e, db')).1 =
          none := by
      simp only [insertMethod]
      split <;> rfl
    rw [hnone]
    show Board.Moved (view db) none (view db')
    rw [view_congr hsame.2.1 hsame.2.2]
    exact .stay
  · rw [heq]
    have hentry : rideEntry (parseRide row) = some (.moved row.id .posted) := by
      simp only [rideEntry, parseRide, hs]
    show Board.Moved (view db) (rideEntry (parseRide row)) (view db')
    rw [hentry, view_ride (stage_posted_iff.mpr ⟨hs, hn, hc⟩) hins hd]
    exact .post (by simp [view, Table.insert?_fresh hins])

/-- Replacing a ride row moves that ride. -/
theorem moved_replace {db' : Db} {old : RideRow} (row : RideRow)
    {s : Stage Int} {entry : Option (Entry Int Int)}
    (hold : db.rides.find? row.id = some old) (hs : stage row = some s)
    (hr : db'.rides = db.rides.replace row)
    (hd : ∀ k, (db'.drivers.find? k).isSome = (db.drivers.find? k).isSome)
    (h : Board.Moved (view db) entry ((view db).put row.id s)) :
    Board.Moved (view db) entry (view db') := by
  rw [view_replace row hold hs hr hd]
  exact h

/-- The guards of `kAcceptRide` are those of the board. -/
theorem acceptRide_moved (h : Dispatched db) (rideId driverId : Int) :
    (acceptRide rideId driverId db).1.bind rideEntry =
      decide? (view db) (.app (.acceptRide rideId driverId)) ∧
    Board.Moved (view db) ((acceptRide rideId driverId db).1.bind rideEntry)
      (view (acceptRide rideId driverId db).2) := by
  by_cases hd : ∃ drv, db.drivers.find? driverId = some drv ∧
      drv.status = .online
  · by_cases hr : ∃ ride, db.rides.find? rideId = some ride ∧
        ride.status = .searching
    · have hposted := (posted_iff h).mpr hr
      have havailable := (available_iff h).mpr hd
      obtain ⟨drv, hdrv, hon⟩ := hd
      obtain ⟨ride, hride, hs⟩ := hr
      have hstage := stage_of_searching (h.shaped hride) hs
      rw [acceptRide_ok hdrv hon hride hs, decide?,
        if_pos ⟨hposted, havailable⟩]
      cases Table.find?_key hride
      cases Table.find?_key hdrv
      exact ⟨rfl, moved_replace (ride.setAccepted drv.id) hride
        (stage_setAccepted ride drv.id (stage_posted_iff.mp hstage).2.2) rfl
        (isSome_replace _ drv.setBusy)
        (.take hposted havailable.1 havailable.2)⟩
    · rw [acceptRide_refused (.inr fun ride hride hs => hr ⟨ride, hride, hs⟩),
        decide?, if_neg fun hguard => hr ((posted_iff h).mp hguard.1)]
      exact ⟨rfl, .stay⟩
  · rw [acceptRide_refused (.inl fun drv hdrv hon => hd ⟨drv, hdrv, hon⟩),
      decide?, if_neg fun hguard => hd ((available_iff h).mp hguard.2)]
    exact ⟨rfl, .stay⟩

/-- So is that of `kCompleteRide`. -/
theorem completeRide_moved (h : Dispatched db) (rideId : Int)
    (now : Timestamp) :
    (completeRide rideId now db).1.bind rideEntry =
      decide? (view db) (.app (.completeRide rideId)) ∧
    Board.Moved (view db) ((completeRide rideId now db).1.bind rideEntry)
      (view (completeRide rideId now db).2) := by
  by_cases hguard : ∃ ride, db.rides.find? rideId = some ride ∧
      ride.status = .accepted
  · obtain ⟨ride, hride, hs⟩ := hguard
    obtain ⟨w, hstage, hdriver⟩ := stage_of_accepted (h.shaped hride) hs
    have hassigned : (view db).stage rideId = some (.assigned w) :=
      (view_stage hride).trans hstage
    rw [completeRide_ok hride hs]
    cases Table.find?_key hride
    have hentry : rideEntry (parseRide (ride.setCompleted now)) =
        some (.moved ride.id (.closed w)) := by
      simp [rideEntry, parseRide, RideRow.setCompleted, hdriver]
    have hdecide : decide? (view db) (.app (.completeRide ride.id)) =
        some (.moved ride.id (.closed w)) := by
      rw [decide?, hassigned]
    rw [hdecide]
    refine ⟨hentry, ?_⟩
    rw [Option.bind_some, hentry]
    refine moved_replace (ride.setCompleted now) hride
      (stage_setCompleted now hdriver) rfl (fun k => ?_) (.close hassigned)
    dsimp only
    split
    · exact isSome_replace _ _ k
    · rfl
  · have hrefused : ∀ ride, db.rides.find? rideId = some ride →
        ride.status ≠ .accepted := fun ride hride hs => hguard ⟨ride, hride, hs⟩
    have hnone : decide? (view db) (.app (.completeRide rideId)) = none := by
      rw [decide?]
      split
      · next w hassigned =>
          obtain ⟨ride, hride, hstage⟩ := view_stage_some hassigned
          exact absurd (stage_assigned_iff.mp hstage).1 (hrefused ride hride)
      · rfl
    rw [completeRide_refused hrefused, hnone]
    exact ⟨rfl, .stay⟩

end

/-! ## The result -/

variable {json : MongoJson} {lower : StdString → StdString}
  {server : MongoServer} {mongoUsers : List MongoUser}
  {events : List ServerEvent}

/-- A call of the server is one step of the board, with the entry it answers. -/
theorem callServer_moved {w : World} (h : Dispatched w.app.backend.db)
    (input : CallInput) (e : ServerEffect) :
    Board.Moved (view w.app.backend.db)
      (logged? e (callServer lower server input e w).1)
      (view (callServer lower server input e w).2.app.backend.db) := by
  cases e with
  | app e =>
      cases e with
      | createUser login password fullName =>
          exact createUser_moved login password fullName w.app.backend.db
      | createDriver userId carModel carNumber licenseNumber =>
          exact createDriver_moved userId carModel carNumber licenseNumber
            w.app.backend.db
      | createRide passengerId pickup destination =>
          exact createRide_moved passengerId pickup destination
            input.clocks.now w.app.backend.db
      | acceptRide rideId driverId =>
          exact (acceptRide_moved h rideId driverId).2
      | completeRide rideId =>
          exact (completeRide_moved h rideId input.clocks.now).2
      | _ => exact .stay
  | _ => exact .stay

/-- The two requests that assign and close rides are answered as the board
says. -/
theorem callServer_decides {w : World} (h : Dispatched w.app.backend.db)
    (input : CallInput) {e : ServerEffect} (he : dispatches e = true) :
    logged? e (callServer lower server input e w).1 =
      decide? (view w.app.backend.db) e := by
  cases e with
  | app e =>
      cases e with
      | acceptRide rideId driverId =>
          exact (acceptRide_moved h rideId driverId).1
      | completeRide rideId =>
          exact (completeRide_moved h rideId input.clocks.now).1
      | _ => cases he
  | _ => cases he

theorem dispatched_tablesOf (trace : List ServerCall) :
    Dispatched (tablesOf trace) := dispatched_reach _

/-- After any beginning of the trace the entries make the board. -/
theorem recorded_of_trace {before after : List ServerCall}
    (heq : (httpServer json lower server (.start mongoUsers) events).trace =
      before ++ after) :
    Board.Recorded (entriesOf before) (view (tablesOf before)) := by
  rw [← db_of_trace heq]
  refine ((httpServer_replays json lower server _ events).induction
    (I := fun w trace => Dispatched w.app.backend.db ∧
      Board.Recorded (entriesOf trace) (view w.app.backend.db)) ⟨.empty, ?_⟩
    (fun w trace x hw hx => ?_) heq).2
  · exact view_empty.symm ▸ Board.recorded_empty
  · obtain ⟨hdispatched, hrecorded⟩ := hw
    refine ⟨?_, ?_⟩
    · rw [callServer_db]
      cases storageOp? x with
      | none => exact hdispatched
      | some op => exact hdispatched.apply op
    · have hentries : entriesOf (trace ++ [x]) =
          entriesOf trace ++ (logged? x.effect x.answer).toList := by
        rw [entriesOf, List.filterMap_append, List.filterMap_cons]
        cases logged? x.effect x.answer <;> rfl
      rw [hentries, hx]
      exact hrecorded.moved (callServer_moved hdispatched x.input x.effect)

variable (json lower server mongoUsers events) in
/-- In any interleaving, and however far the replica is behind. -/
theorem dispatched_by_answers :
    DispatchedByAnswers (httpServer json lower server (.start mongoUsers)
      events) := by
  refine ⟨fun before after => recorded_of_trace,
    fun before x after heq hdispatches => ?_⟩
  have hanswer := (httpServer_replays json lower server (.start mongoUsers)
    events).answers _ _ _ heq
  have hdb := db_of_trace heq
  rw [hanswer, callServer_decides (hdb ▸ dispatched_tablesOf before) _ hdispatches,
    hdb, (recorded_of_trace heq).board, boardOf]

end TaxiService.Proofs
