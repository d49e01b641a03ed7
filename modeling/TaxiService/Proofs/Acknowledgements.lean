import TaxiService.Proofs.HttpThreads

/-!
# Acknowledged exactly once

The tables are what the mutations of the trace make of them, one after the
other and however the requests come in each other's way. Which of them did
something, the clients know: a request that changes the tables does so by one
call, and is told by the response to that call. A request that was told
anything else, or was ended by an exception, has left the tables alone.
-/

namespace TaxiService.Proofs

open TaxiService.Lib TaxiService.Model TaxiService.Spec

variable {json : MongoJson} {lower : StdString → StdString}
  {server : MongoServer} {mongoUsers : List MongoUser}
  {events : List ServerEvent}

/-! ## The tables -/

theorem tablesOf_concat (trace : List ServerCall) (x : ServerCall) :
    tablesOf (trace ++ [x]) =
      ((storageOp? x).map fun op => op.apply (tablesOf trace)).getD
        (tablesOf trace) := by
  rw [tablesOf, List.filterMap_append, List.filterMap_cons, List.filterMap_nil]
  cases storageOp? x with
  | none => rw [List.append_nil]; rfl
  | some op => exact run_concat _ _ _ _

/-- What a call of the server does to the tables. -/
theorem callServer_db (x : ServerCall) (w : World) :
    (callServer lower server x.input x.effect w).2.app.backend.db =
      ((storageOp? x).map fun op => op.apply w.app.backend.db).getD
        w.app.backend.db := by
  obtain ⟨i, input, e, answer⟩ := x
  cases e with
  | app e => cases e <;> rfl
  | mongo e => rfl
  | isTokenValid token => rfl
  | issueToken userId => rfl

/-- After any beginning of the trace the database is what the trace says. -/
theorem db_of_trace {before after : List ServerCall}
    (heq : (httpServer json lower server (.start mongoUsers) events).trace =
      before ++ after) :
    (Threads.replay (callServer lower server) (.start mongoUsers)
      before).app.backend.db = tablesOf before := by
  refine (httpServer_replays json lower server _ events).induction
    (I := fun w trace => w.app.backend.db = tablesOf trace) rfl
    (fun w trace x hw _ => ?_) heq
  rw [callServer_db, tablesOf_concat, hw]

theorem shared_db : (httpServer json lower server (.start mongoUsers)
      events).shared.app.backend.db =
    tablesOf (httpServer json lower server (.start mongoUsers) events).trace := by
  rw [(httpServer_replays json lower server _ events).shared]
  exact db_of_trace (List.append_nil _).symm

/-! ## Calls that are refused -/

theorem insertMethod_sameTables {ρ α : Type} {caught : List PgError}
    {parse : ρ → α} {db : Db} {res : Except PgError (List ρ) × Db}
    {P : ρ → Db → Prop}
    (hcases : (∃ e db', res = (.error e, db') ∧ SameTables db db') ∨
      ∃ row db', res = (.ok [row], db') ∧ P row db')
    (h : ∀ a, (insertMethod caught parse res).1 ≠ .ok (some a)) :
    SameTables db (insertMethod caught parse res).2 := by
  rcases hcases with ⟨e, db', rfl, hsame⟩ | ⟨row, db', rfl, -⟩
  · exact hsame
  · exact absurd rfl (h (parse row))

theorem finish_sameTables {before : Db} {res : List RideRow × Db}
    (h : ∀ ride, (finish before res).1 ≠ some ride) :
    SameTables before (finish before res).2 := by
  obtain ⟨rows, after⟩ := res
  cases rows with
  | nil => exact .refl before
  | cons row rows => exact absurd rfl (h (parseRide row))

/-- A mutation without an acknowledgement leaves the tables alone. -/
theorem refused_sameTables (clocks : Readings) (e : Effect) (b : Backend)
    (h : acknowledgement json (.app e) (callBackend lower clocks e b).1 = none) :
    SameTables b.db (callBackend lower clocks e b).2.db := by
  have hnot : ∀ r, acknowledgement json (.app e) r ≠ none →
      (callBackend lower clocks e b).1 ≠ r := by
    rintro r hr rfl
    exact hr h
  cases e with
  | createUser login password fullName =>
      refine insertMethod_sameTables (kInsertUser_cases login password fullName
        b.db) fun user => ?_
      exact hnot (.ok (some user)) (by simp [acknowledgement])
  | createDriver userId carModel carNumber licenseNumber =>
      refine insertMethod_sameTables (kInsertDriver_cases userId carModel
        carNumber licenseNumber b.db) fun driver => ?_
      exact hnot (.ok (some driver)) (by simp [acknowledgement])
  | createRide passengerId pickup destination =>
      refine insertMethod_sameTables (kInsertRide_cases passengerId pickup
        destination clocks.now b.db) fun ride => ?_
      exact hnot (.ok (some ride)) (by simp [acknowledgement])
  | acceptRide rideId driverId =>
      exact finish_sameTables fun ride =>
        hnot (some ride) (by simp [acknowledgement])
  | completeRide rideId =>
      exact finish_sameTables fun ride =>
        hnot (some ride) (by simp [acknowledgement])
  | _ => exact .refl _

/-- The same of a call of the server. -/
theorem refused_call {x : ServerCall} {w : World}
    (hanswer : x.answer = (callServer lower server x.input x.effect w).1)
    (h : acknowledgement json x.effect x.answer = none) :
    SameTables w.app.backend.db
      (callServer lower server x.input x.effect w).2.app.backend.db := by
  obtain ⟨i, input, e, answer⟩ := x
  dsimp only at hanswer
  subst hanswer
  cases e with
  | app e =>
      by_cases hw : writes e = none
      · rw [callServer_db ⟨i, input, .app e, (callServer lower server input
          (.app e) w).1⟩ w]
        cases e <;> first | exact .refl _ | cases hw
      · obtain ⟨family, hfamily⟩ := Option.ne_none_iff_exists'.mp hw
        have hread : reads e = false := by
          cases e <;> first | rfl | cases hfamily
        simp only [callServer, hread, Bool.false_eq_true, if_false,
          callApp_write lower input.clocks hfamily] at h ⊢
        exact refused_sameTables input.clocks e w.app.backend h
  | mongo e => exact .refl _
  | isTokenValid token => exact .refl _
  | issueToken userId => exact .refl _

/-! ## The result -/

/-- A request that is done was told exactly what its calls have changed, and no
request changes the tables twice. The tables are the run of the mutations in the
order of the trace, and those without an acknowledgement leave all rows as they
are. -/
structure Acknowledged (json : MongoJson) (s : ServerRun) : Prop where
  finished : ∀ i th out, s.threads[i]? = some th → th.rest.outcome? = some out →
    acknowledgements json (Threads.pastOf i s.trace) =
      told th.request.route out
  once : ∀ i, (acknowledgements json (Threads.pastOf i s.trace)).length ≤ 1
  tables : s.shared.app.backend.db = tablesOf s.trace
  same : ∀ before x after, s.trace = before ++ x :: after →
    acknowledgement json x.effect x.answer = none →
    SameTables (tablesOf before) (tablesOf (before ++ [x]))

theorem acknowledgements_length (i : Nat) :
    (acknowledgements json (Threads.pastOf i (httpServer json lower server
      (.start mongoUsers) events).trace)).length ≤ 1 := by
  have hfollows := httpServer_follows json lower server (.start mongoUsers) events
  cases hi : (httpServer json lower server (.start mongoUsers)
      events).threads[i]? with
  | none =>
      rw [hfollows.fresh i (List.getElem?_eq_none_iff.mp hi)]
      exact Nat.zero_le 1
  | some th =>
      have hended : ∀ past out, RequestEnd json th.request past out →
          (acknowledgements json past).length ≤ 1 := by
        intro past out h
        rw [RequestEnd] at h
        rw [h]
        cases out with
        | error x => exact Nat.zero_le 1
        | ok response =>
            rw [told]
            split <;> simp
      have halong := hfollows.threads i th hi
      cases hrest : th.rest with
      | pure response =>
          rw [hrest] at halong
          exact hended _ _ halong
      | throw x =>
          rw [hrest] at halong
          exact hended _ _ halong
      | op e k =>
          rw [hrest] at halong
          exact halong.1.once

variable (json lower server mongoUsers events) in
/-- In any interleaving, and however far the replica is behind. -/
theorem acknowledged_exactly_once :
    Acknowledged json (httpServer json lower server (.start mongoUsers)
      events) := by
  refine ⟨fun i th out hi hout => (httpServer_follows json lower server _
    events).outcome hi hout, acknowledgements_length, shared_db,
    fun before x after heq hnone => ?_⟩
  have hanswer := (httpServer_replays json lower server (.start mongoUsers)
    events).answers _ _ _ heq
  have hsame := refused_call hanswer hnone
  rw [callServer_db, db_of_trace heq] at hsame
  rw [tablesOf_concat]
  exact hsame

end TaxiService.Proofs
