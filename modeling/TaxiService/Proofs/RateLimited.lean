import TaxiService.Proofs.Limits
import TaxiService.Proofs.ServedReads
import TaxiService.Spec.RateLimited

/-!
# The limiter in front of the active rides

A request asks the limiter at most once, before anything else it does for the
active rides, and goes on only if it is granted (`serveRequest_limited`). The
limiter is what the checks of the trace have made of it, and these come one at
a time, whatever the requests do in between. So what is known of calls of
`Check` that are executed one after the other is known of the server.
-/

namespace TaxiService.Proofs

open TaxiService.Lib TaxiService.Model TaxiService.Spec

/-! ## What a request asks the limiter -/

/-- The answers of the limiter. -/
def grants (past : ServerPast) : List Bool :=
  past.filterMap fun x => granted? x.1 x.2

/-- The limiter is asked once, a refusal is the end, and the list of the active
rides is behind the limiter. -/
structure LimitCall (past : ServerPast) (e : ServerEffect) : Prop where
  check : ∀ r, (granted? e r).isSome → e = activeCheck ∧ grants past = []
  going : false ∉ grants past
  active : OnActive e → true ∈ grants past

def LimitEnd (past : ServerPast) (out : Except Exn HttpResponse) : Prop :=
  false ∈ grants past → ∃ response, out = .ok response ∧ TooMany response

abbrev LimitAlong (past : ServerPast) (p : HttpProg HttpResponse) : Prop :=
  p.Along LimitCall LimitEnd past

section

variable {json : MongoJson} {request : HttpRequest} {past : ServerPast}

theorem grants_concat (past : ServerPast) (e : ServerEffect) (r : e.Result) :
    grants (past ++ [⟨e, r⟩]) = grants past ++ (granted? e r).toList := by
  rw [grants, List.filterMap_append, List.filterMap_cons, List.filterMap_nil]
  cases granted? e r <;> rfl

theorem grants_plain (h : PlainPast past) : grants past = [] := by
  refine List.filterMap_eq_nil_iff.mpr fun x hx => ?_
  obtain ⟨e, r⟩ := x
  have he : Plain e := h ⟨e, r⟩ hx
  rcases e with e | _ | _ | _
  · cases e <;> first | rfl | exact he.elim
  · rfl
  · rfl
  · rfl

theorem limitCall_plain {e : ServerEffect} (hpast : PlainPast past)
    (he : Plain e) : LimitCall past e := by
  have hgrants := grants_plain hpast
  refine ⟨fun r hr => ?_, by simp [hgrants], fun hactive => ?_⟩
  · rcases e with e | _ | _ | _
    · cases e <;> first | exact he.elim | cases hr
    · cases hr
    · cases hr
    · cases hr
  · rcases e with e | _ | _ | _
    · cases e <;> first | exact he.elim | exact hactive.elim
    · exact hactive.elim
    · exact hactive.elim
    · exact hactive.elim

theorem limitEnd_going (h : false ∉ grants past)
    (out : Except Exn HttpResponse) : LimitEnd past out :=
  fun hfalse => absurd hfalse h

/-- A call that is not one to the limiter. -/
theorem limit_op {e : ServerEffect} {k : e.Result → HttpProg HttpResponse}
    (he : ∀ r, granted? e r = none) (hgoing : false ∉ grants past)
    (hactive : OnActive e → true ∈ grants past)
    (hk : ∀ r past', grants past' = grants past → LimitAlong past' (k r)) :
    LimitAlong past (.op e k) := by
  refine ⟨⟨fun r h => ?_, hgoing, hactive⟩, fun r => hk r _ ?_⟩
  · rw [he] at h
    cases h
  · rw [grants_concat, he]
    exact List.append_nil _

/-- A look-up, of the active rides only behind the limiter. -/
theorem limit_store {k : CacheKey} (headers : List (StdString × StdString))
    (body : StdString) (ttl : Int) (hgoing : false ∉ grants past)
    (hactive : k = .active → true ∈ grants past) :
    LimitAlong past (fromHandler (store headers k body ttl)) :=
  limit_op (fun _ => rfl) hgoing (fun h => hactive (text_injective h))
    fun _ _ hnext => limitEnd_going (hnext ▸ hgoing) _

theorem limit_missPath (headers : List (StdString × StdString)) (k : CacheKey)
    (hgoing : false ∉ grants past)
    (hactive : k = .active → true ∈ grants past) :
    LimitAlong past (fromHandler (missPath json.toUserverJson headers k)) := by
  have hend : ∀ out past', grants past' = grants past → LimitEnd past' out :=
    fun out past' hpast' => limitEnd_going (hpast' ▸ hgoing) out
  have hstore : ∀ body ttl past', grants past' = grants past →
      LimitAlong past' (fromHandler (store headers k body ttl)) :=
    fun body ttl past' hpast' => limit_store headers body ttl
      (hpast' ▸ hgoing) (hpast' ▸ hactive)
  cases k with
  | login login =>
      refine limit_op (fun _ => rfl) hgoing (fun h => h.elim)
        fun r past' hpast' => ?_
      rcases r with e | (_ | user)
      · exact hend _ _ hpast'
      · exact hend _ _ hpast'
      · exact hstore _ _ _ hpast'
  | nameMask nameMask =>
      refine limit_op (fun _ => rfl) hgoing (fun h => h.elim)
        fun r past' hpast' => ?_
      cases r with
      | error e => exact hend _ _ hpast'
      | ok users => exact hstore _ _ _ hpast'
  | history userId =>
      rw [missPath]
      cases stoi userId with
      | error e => exact hend _ _ rfl
      | ok n =>
          exact limit_op (fun _ => rfl) hgoing (fun h => h.elim)
            fun r past' hpast' => hstore _ _ _ hpast'
  | active =>
      exact limit_op (fun _ => rfl) hgoing (fun _ => hactive rfl)
        fun r past' hpast' => hstore _ _ _ hpast'

theorem limit_lookup (headers : List (StdString × StdString)) (k : CacheKey)
    (hgoing : false ∉ grants past)
    (hactive : k = .active → true ∈ grants past) :
    LimitAlong past (fromHandler (lookup json.toUserverJson headers k)) := by
  refine limit_op (fun _ => rfl) hgoing (fun h => hactive (text_injective h))
    fun cached past' hpast' => ?_
  cases cached with
  | none =>
      exact limit_missPath headers k (hpast' ▸ hgoing) (hpast' ▸ hactive)
  | some body => exact limitEnd_going (hpast' ▸ hgoing) _

theorem limit_refused {response : Response} (hpast : PlainPast past) :
    LimitAlong past (fromHandler (.pure response)) :=
  limitEnd_going (by simp [grants_plain hpast]) _

theorem limit_usersGet (login nameMask : StdString) (hpast : PlainPast past) :
    LimitAlong past (fromHandler
      (usersGet json.toUserverJson login nameMask)) := by
  have hgoing : false ∉ grants past := by simp [grants_plain hpast]
  cases login with
  | nil =>
      cases nameMask with
      | nil => exact limit_refused hpast
      | cons c cs =>
          rw [usersGet_nameMask]
          exact limit_lookup _ (.nameMask (c :: cs)) hgoing fun h => by cases h
  | cons c cs =>
      cases nameMask with
      | nil =>
          rw [usersGet_login]
          exact limit_lookup _ (.login (c :: cs)) hgoing fun h => by cases h
      | cons d ds => exact limit_refused hpast

theorem limit_ridesGet (userId status : StdString) (hpast : PlainPast past) :
    LimitAlong past (fromHandler
      (ridesGet json.toUserverJson userId status)) := by
  have hnone : grants past = [] := grants_plain hpast
  have hgoing : false ∉ grants past := by simp [hnone]
  cases userId with
  | nil =>
      by_cases hs : status = bytes "active"
      · subst hs
        refine ⟨⟨fun r _ => ⟨rfl, hnone⟩, hgoing, fun h => h.elim⟩, fun r => ?_⟩
        have hnext := grants_concat past activeCheck r
        rw [hnone] at hnext
        obtain ⟨allowed, limit, remaining, reset⟩ := r
        cases allowed with
        | false =>
            intro _
            exact ⟨_, rfl, rfl, by simp [Response.toHttp]⟩
        | true =>
            show LimitAlong _ (fromHandler
              (ridesLookup json.toUserverJson false [] _))
            rw [ridesLookup_active]
            have hgranted : grants (past ++ [⟨.app (.check
                (bytes "GET:/rides?status=active") kActiveRidesLimitPerMinute
                60), ⟨true, limit, remaining, reset⟩⟩]) = [true] := hnext
            refine limit_lookup _ .active ?_ fun _ => ?_
            · rw [hgranted]
              simp
            · rw [hgranted]
              simp
      · have hb : (status == bytes "active") = false := by simp [hs]
        simp only [ridesGet, List.isEmpty_nil, hb]
        exact limit_refused hpast
  | cons c cs =>
      show LimitAlong past (fromHandler
        (ridesLookup json.toUserverJson true (c :: cs) [contentType]))
      rw [ridesLookup_history]
      exact limit_lookup _ (.history (c :: cs)) hgoing fun h => by cases h

theorem limit_handler (hpast : PlainPast past) :
    LimitAlong past (handler json request) := by
  by_cases husers : request.route = .usersGet
  · rw [handler, husers]
    exact limit_usersGet _ _ hpast
  by_cases hrides : request.route = .ridesGet
  · rw [handler, hrides]
    exact limit_ridesGet _ _ hpast
  exact (plain_handler hpast husers hrides).imp
    (fun past e h => limitCall_plain h.1 h.2)
    fun past out h => limitEnd_going (by simp [grants_plain h]) out

variable (json request) in
theorem serveRequest_limited :
    LimitAlong [] (serveRequest json request) :=
  serveRequest_along_of (fun _ hpast => limit_handler hpast.plain)
    (fun _ => limitCall_plain plainPast_nil trivial)
    fun _ _ hpast _ => limitEnd_going (by simp [grants_plain hpast.plain]) _

end

/-! ## The limiter of the server -/

/-- The result of a check. -/
def checkResult? : (e : ServerEffect) → e.Result → Option RateLimitResult
  | .app (.check ..), result => some result
  | _, _ => none

/-- The checks of a trace, with their results. -/
def checked? (x : ServerCall) : Option (CheckCall × RateLimitResult) :=
  (checkResult? x.effect x.answer).map fun result =>
    (⟨bytes "GET:/rides?status=active", x.input.clocks.check⟩, result)

theorem granted?_eq (e : ServerEffect) (r : e.Result) :
    granted? e r = (checkResult? e r).map RateLimitResult.allowed := by
  rcases e with e | _ | _ | _
  · cases e <;> rfl
  · rfl
  · rfl
  · rfl

section

variable {json : MongoJson} {lower : StdString → StdString}
  {server : MongoServer} {mongoUsers : List MongoUser}
  {events : List ServerEvent}

theorem callServer_limiter {x : ServerCall} {w : World}
    (h : checkResult? x.effect x.answer = none) :
    (callServer lower server x.input x.effect w).2.app.backend.limiter =
      w.app.backend.limiter := by
  obtain ⟨i, input, e, answer⟩ := x
  cases e with
  | app e => cases e <;> first | rfl | cases h
  | mongo e => rfl
  | isTokenValid token => rfl
  | issueToken userId => rfl

/-- The limiter is the run of the trace's checks, and they were answered as in
this run. -/
theorem limiter_of_trace {before after : List ServerCall}
    (heq : (httpServer json lower server (.start mongoUsers) events).trace =
      before ++ after)
    (hcheck : ∀ x ∈ before, (checkResult? x.effect x.answer).isSome →
      x.effect = activeCheck) :
    ⟨(Threads.replay (callServer lower server) (.start mongoUsers)
        before).app.backend.limiter, (before.filterMap checked?).reverse⟩ =
      limited perMinute ((before.filterMap checked?).map Prod.fst) := by
  refine (httpServer_replays json lower server (.start mongoUsers)
    events).induction (I := fun w trace =>
      (∀ x ∈ trace, (checkResult? x.effect x.answer).isSome →
        x.effect = activeCheck) →
      ⟨w.app.backend.limiter, (trace.filterMap checked?).reverse⟩ =
        limited perMinute ((trace.filterMap checked?).map Prod.fst))
    (fun _ => rfl) (fun w trace x hw hx hcheck => ?_) heq hcheck
  have hbefore := hw fun y hy => hcheck y (List.mem_append_left _ hy)
  rw [List.filterMap_append]
  cases hresult : checkResult? x.effect x.answer with
  | none =>
      have hnone : [x].filterMap checked? = [] := by simp [checked?, hresult]
      rw [callServer_limiter hresult, hnone, List.append_nil, hbefore]
  | some result =>
      have heffect := hcheck x (List.mem_append_right _
        (List.mem_singleton_self x)) (by rw [hresult]; rfl)
      obtain ⟨i, input, e, answer⟩ := x
      dsimp only at heffect
      subst heffect
      cases hresult
      dsimp only at hx
      subst hx
      have hone : [(⟨i, input, activeCheck, (callServer lower server input
            activeCheck w).1⟩ : ServerCall)].filterMap checked? =
          [(⟨bytes "GET:/rides?status=active", input.clocks.check⟩,
            (checkCall perMinute ⟨w.app.backend.limiter,
              (trace.filterMap checked?).reverse⟩
              ⟨bytes "GET:/rides?status=active", input.clocks.check⟩).1)] :=
        rfl
      rw [hone, List.map_append, List.reverse_append, List.map_singleton,
        limited_concat, ← hbefore]
      rfl

variable (json lower server mongoUsers events) in
theorem httpServer_limited :
    Threads.Follows (fun _ past e => LimitCall past e)
      (fun _ past out => LimitEnd past out)
      (httpServer json lower server (.start mongoUsers) events) :=
  Threads.run_along (serveRequest_limited json) _ _

/-! ## The checks of one minute -/

theorem mem_grants {i : Nat} {trace : List ServerCall} {b : Bool} :
    b ∈ grants (Threads.pastOf i trace) ↔
      ∃ x ∈ trace, x.thread = i ∧ granted? x.effect x.answer = some b := by
  rw [grants, List.mem_filterMap]
  constructor
  · intro ⟨y, hy, hb⟩
    obtain ⟨x, hx, hi, rfl⟩ := Threads.mem_pastOf.mp hy
    exact ⟨x, hx, hi, hb⟩
  · intro ⟨x, hx, hi, hb⟩
    exact ⟨_, Threads.mem_pastOf.mpr ⟨x, hx, hi, rfl⟩, hb⟩

/-- Is the call a check of this minute that was granted? -/
def grantedIn (minute : Int) (x : ServerCall) : Bool :=
  granted? x.effect x.answer == some true &&
    decide (minuteOf x.input.clocks.check = minute)

theorem checkReadings_eq (trace : List ServerCall) :
    checkReadings trace =
      ((trace.filterMap checked?).map Prod.fst).map CheckCall.now := by
  rw [checkReadings, List.map_map, List.map_filterMap]
  refine congrArg (fun f => trace.filterMap f) (funext fun x => ?_)
  rw [granted?_eq, checked?]
  cases checkResult? x.effect x.answer <;> rfl

theorem countP_grantedIn (minute : Int) (trace : List ServerCall) :
    (finishedOn (bytes "GET:/rides?status=active")
      (trace.filterMap checked?).reverse).countP (fun p =>
        p.2.allowed && decide (p.1 / (60 * ticksPerSecond) = minute)) =
      trace.countP (grantedIn minute) := by
  rw [finishedOn, List.filterMap_reverse, List.countP_reverse]
  induction trace with
  | nil => rfl
  | cons x trace ih =>
      rw [List.countP_cons, ← ih, List.filterMap_cons, checked?, grantedIn,
        granted?_eq]
      cases checkResult? x.effect x.answer with
      | none => rfl
      | some result =>
          simp only [Option.map_some, List.filterMap_cons, if_true,
            List.countP_cons, minuteOf]
          congr 2
          cases result.allowed <;> rfl

variable (json lower server mongoUsers events) in
/-- The checks of a clock that does not go back, one minute of them. -/
theorem countP_le_limit (minute : Int)
    (hclock : ChecksForward (httpServer json lower server (.start mongoUsers)
      events).trace) :
    (httpServer json lower server (.start mongoUsers) events).trace.countP
      (grantedIn minute) ≤ 100 := by
  generalize htrace : (httpServer json lower server (.start mongoUsers)
    events).trace = trace at hclock
  have hfollows := httpServer_limited json lower server mongoUsers events
  have hcheck : ∀ x ∈ trace, (checkResult? x.effect x.answer).isSome →
      x.effect = activeCheck := by
    intro x hx hsome
    obtain ⟨before, after, heq⟩ := List.append_of_mem hx
    obtain ⟨_, _, hcall⟩ := hfollows.calls before x after (htrace.trans heq)
    refine (hcall.check x.answer ?_).1
    rw [granted?_eq, Option.isSome_map]
    exact hsome
  have hrun := congrArg LimiterRun.finished (limiter_of_trace
    (htrace.trans (List.append_nil trace).symm) hcheck)
  obtain ⟨hnow, hforward⟩ := hclock
  rw [checkReadings_eq] at hnow hforward
  have hnow' : ∀ call ∈ (trace.filterMap checked?).map Prod.fst,
      0 ≤ call.now := fun call hcall => hnow _ (List.mem_map_of_mem hcall)
  have hlimit : ∀ key, 0 ≤ perMinute.limit key :=
    fun _ => show (0 : Int) ≤ 100 by decide
  have hwindow : ∀ key, 1 ≤ perMinute.window key :=
    fun _ => show (1 : Int) ≤ 60 by decide
  have hbound := allowed_in_window
    (tracks_of_clock hlimit hwindow hnow' (List.pairwise_map.mp hforward))
    hwindow hnow' (bytes "GET:/rides?status=active") minute
  rw [← hrun] at hbound
  have hcount := countP_grantedIn minute trace
  have hle : ((trace.countP (grantedIn minute) : Nat) : Int) ≤ 100 := by
    rw [← hcount]
    exact hbound
  omega

theorem length_le_of_served {trace : List ServerCall} {minute : Int}
    {ids : List Nat} (hnodup : ids.Nodup)
    (hserved : ∀ i ∈ ids, ServedIn trace minute i) :
    ids.length ≤ trace.countP (grantedIn minute) := by
  have hsub : ids ⊆ (trace.filter (grantedIn minute)).map Traced.thread := by
    intro i hi
    obtain ⟨check, x, hsub, rfl, -, hgranted, hminute, -⟩ := hserved i hi
    have hmem : check ∈ trace := List.Sublist.mem (List.mem_cons_self) hsub
    refine List.mem_map_of_mem (List.mem_filter.mpr ⟨hmem, ?_⟩)
    simp [grantedIn, hgranted, hminute]
  have hle := (List.subperm_of_subset hnodup hsub).length_le
  rw [List.length_map, ← List.countP_eq_length_filter] at hle
  exact hle

/-! ## The result -/

variable (json lower server mongoUsers events) in
/-- In any interleaving of any requests. -/
theorem rate_limited : RateLimited (httpServer json lower server
    (.start mongoUsers) events) := by
  have hfollows := httpServer_limited json lower server mongoUsers events
  constructor
  case check =>
    intro before x after heq hsome
    obtain ⟨_, _, hcall⟩ := hfollows.calls before x after heq
    obtain ⟨heffect, hnone⟩ := hcall.check x.answer hsome
    refine ⟨heffect, fun y hy hthread => ?_⟩
    cases hgranted : granted? y.effect y.answer with
    | none => rfl
    | some b =>
        have hmem := mem_grants.mpr ⟨y, hy, hthread, hgranted⟩
        rw [hnone] at hmem
        cases hmem
  case served =>
    intro before x after heq hactive
    obtain ⟨_, _, hcall⟩ := hfollows.calls before x after heq
    exact mem_grants.mp (hcall.active hactive)
  case refused =>
    intro before x after heq hrefused
    refine ⟨fun y hy hthread => ?_, fun th out hi hout => ?_⟩
    · obtain ⟨l, l', rfl⟩ := List.append_of_mem hy
      have heq' := heq.trans (List.append_assoc before (x :: l) (y :: l')).symm
      obtain ⟨_, _, hcall⟩ := hfollows.calls _ y l' heq'
      exact hcall.going (mem_grants.mpr ⟨x, by simp, hthread.symm, hrefused⟩)
    · refine hfollows.outcome hi hout (mem_grants.mpr ⟨x, ?_, rfl, hrefused⟩)
      rw [heq]
      exact List.mem_append_right _ List.mem_cons_self
  case perMinute =>
    intro hclock minute ids hnodup hserved
    exact Nat.le_trans (length_le_of_served hnodup hserved)
      (countP_le_limit json lower server mongoUsers events minute hclock)

end

end TaxiService.Proofs
