import TaxiService.Proofs.Acknowledgements
import TaxiService.Proofs.CacheHistory
import TaxiService.Spec.ServedReads

/-!
# Every answer has its source

A request caches nothing but what it has read, under the key of its own query
(`serveRequest_reads`). The cache is what the calls of the trace have made of
it, and an entry that is held is the last one that was set (`live`). So behind a
hit there is the call that set the entry, and behind that the read of the same
request.

What the replica shows is one of the databases so far, and each of them is what
a beginning of the trace has made of the tables.
-/

namespace TaxiService.Proofs

open TaxiService.Lib TaxiService.Model TaxiService.Spec

/-! ## What a request caches -/

section

variable (json : MongoJson) (request : HttpRequest)

/-- Nothing was put into the cache. -/
def Uncached (past : ServerPast) : Prop :=
  ∀ x ∈ past, ∀ key body ttl, x.1 ≠ .app (.cacheSet key body ttl)

/-- What is cached was read before, for the query of the request, and a request
looks before it caches anything. -/
def CachesRead (past : ServerPast) (e : ServerEffect) : Prop :=
  (∀ key body ttl, e = .app (.cacheSet key body ttl) → ∃ k,
    query? request = some k ∧ key = k.text ∧ ttl = lifetime k ∧
    ∃ x ∈ past, readBody? json k x.1 x.2 = some body) ∧
  ∀ key, e = .app (.cacheGet key) → Uncached past

/-- The answer was read, or it was in the cache. -/
def AnswersRead (past : ServerPast) (out : Except Exn HttpResponse) : Prop :=
  ∀ response k, out = .ok response → query? request = some k →
    response.code = 200 →
    (xCache "MISS" ∈ response.headers ∧
      ∃ x ∈ past, readBody? json k x.1 x.2 = some response.body) ∨
    (xCache "HIT" ∈ response.headers ∧
      ⟨.app (.cacheGet k.text), some response.body⟩ ∈ past)

abbrev ReadAlong (past : ServerPast) (p : HttpProg HttpResponse) : Prop :=
  p.Along (CachesRead json request) (AnswersRead json request) past

end

section

variable {json : MongoJson} {request : HttpRequest} {past : ServerPast}

theorem answersRead_error (x : Exn) :
    AnswersRead json request past (.error x) := by
  intro response k h
  cases h

theorem answersRead_code {response : HttpResponse} (h : response.code ≠ 200) :
    AnswersRead json request past (.ok response) := by
  rintro response' k ⟨⟩ hk hcode
  exact absurd hcode h

theorem answersRead_none {out : Except Exn HttpResponse}
    (h : query? request = none) : AnswersRead json request past out := by
  intro response k hout hk
  rw [h] at hk
  cases hk

theorem code_ok {status : HttpStatus} (h : status ≠ .ok) : status.code ≠ 200 := by
  cases status with
  | ok => exact absurd rfl h
  | _ => simp [HttpStatus.code]

/-! ### Reads -/

/-- The read of the query, and what is stored of it. -/
theorem reads_store {headers : List (StdString × StdString)} {k : CacheKey}
    {e : Effect} {r : e.Result} {body : StdString}
    (hquery : query? request = some k)
    (hread : readBody? json k (.app e) r = some body) :
    ReadAlong json request (past ++ [⟨.app e, r⟩])
      (fromHandler (store headers k body (lifetime k))) := by
  have hmem : ∀ more : ServerPast, ∃ x ∈ (past ++ [⟨.app e, r⟩]) ++ more,
      readBody? json k x.1 x.2 = some body :=
    fun more => ⟨⟨.app e, r⟩, by simp, hread⟩
  refine ⟨⟨?_, fun key he => by cases he⟩, fun _ => ?_⟩
  · rintro key body' ttl ⟨⟩
    obtain ⟨x, hx, hbody⟩ := hmem []
    exact ⟨k, hquery, rfl, rfl, x, by simpa using hx, hbody⟩
  · rintro response k' ⟨⟩ hk' -
    cases hquery.symm.trans hk'
    exact .inl ⟨List.mem_append_right _ (List.mem_singleton_self _), hmem _⟩

theorem reads_missPath (headers : List (StdString × StdString)) {k : CacheKey}
    (hquery : query? request = some k) :
    ReadAlong json request past
      (fromHandler (missPath json.toUserverJson headers k)) := by
  have hother : ∀ e, (∀ key body ttl, e ≠ .cacheSet key body ttl) →
      (∀ key, e ≠ .cacheGet key) → CachesRead json request past (.app e) := by
    intro e hset hget
    constructor
    · rintro key body ttl ⟨⟩
      exact absurd rfl (hset key body ttl)
    · rintro key ⟨⟩
      exact absurd rfl (hget key)
  cases k with
  | login login =>
      refine ⟨hother _ (by simp) (by simp), fun r => ?_⟩
      rcases r with e | (_ | user)
      · exact answersRead_error _
      · exact answersRead_code (by simp [Response.toHttp, HttpStatus.code])
      · exact reads_store hquery (if_pos rfl)
  | nameMask nameMask =>
      refine ⟨hother _ (by simp) (by simp), fun r => ?_⟩
      cases r with
      | error e => exact answersRead_error _
      | ok users => exact reads_store hquery (if_pos rfl)
  | history userId =>
      rw [missPath]
      cases hstoi : stoi userId with
      | error e => exact answersRead_error _
      | ok n =>
          exact ⟨hother _ (by simp) (by simp), fun rides =>
            reads_store hquery (if_pos hstoi)⟩
  | active =>
      exact ⟨hother _ (by simp) (by simp), fun rides => reads_store hquery rfl⟩

theorem reads_lookup (headers : List (StdString × StdString)) {k : CacheKey}
    (hpast : Uncached past) (hquery : query? request = some k) :
    ReadAlong json request past
      (fromHandler (lookup json.toUserverJson headers k)) := by
  refine ⟨⟨?_, fun _ _ => hpast⟩, fun cached => ?_⟩
  · rintro key body ttl ⟨⟩
  · cases cached with
    | none => exact reads_missPath headers hquery
    | some body =>
        rintro response k' ⟨⟩ hk' -
        cases hquery.symm.trans hk'
        exact .inr ⟨List.mem_append_right _ (List.mem_singleton_self _),
          List.mem_append_right _ (List.mem_singleton_self _)⟩

theorem reads_get {key? : Option CacheKey} {p : Handler Response}
    (hp : GetShape json.toUserverJson key? p) (hpast : Uncached past)
    (hquery : query? request = key?) :
    ReadAlong json request past (fromHandler p) := by
  cases hp with
  | refused response _ => exact answersRead_none hquery
  | lookup headers k => exact reads_lookup headers hpast hquery
  | limited k key limit window rest hrest =>
      refine ⟨⟨?_, fun key he => by cases he⟩, fun r => ?_⟩
      · rintro key' body ttl ⟨⟩
      · have hafter : Uncached (past ++ [⟨.app (.check key limit window), r⟩]) := by
          intro x hx
          rcases List.mem_append.mp hx with hx | hx
          · exact hpast x hx
          · rw [List.mem_singleton.mp hx]
            simp
        show ReadAlong json request _ (fromHandler (rest r))
        rcases hrest r with ⟨response, hstatus, hr⟩ | ⟨headers, hr⟩
        · rw [hr]
          exact answersRead_code (code_ok hstatus)
        · rw [hr]
          exact reads_lookup headers hafter hquery

/-! ### Other requests -/

end

/-- A call that is not made for a read of users or rides. -/
def Plain : ServerEffect → Prop
  | .app (.check ..) => False
  | .app (.cacheGet _) => False
  | .app (.cacheSet ..) => False
  | .app .getActiveRides => False
  | _ => True

/-- So are all the calls that were made. -/
def PlainPast (past : ServerPast) : Prop := ∀ x ∈ past, Plain x.1

/-- The middleware has asked about a token, if anything was asked at all. -/
def Admitted (past : ServerPast) : Prop :=
  ∀ x ∈ past, ∃ token, x.1 = .isTokenValid token

theorem Admitted.plain {past : ServerPast} (h : Admitted past) :
    PlainPast past := by
  intro x hx
  obtain ⟨token, hx⟩ := h x hx
  rw [hx]
  trivial

abbrev PlainAlong (past : ServerPast) (p : HttpProg HttpResponse) : Prop :=
  p.Along (fun past e => PlainPast past ∧ Plain e) (fun past _ => PlainPast past)
    past

section

variable {json : MongoJson} {request : HttpRequest} {past : ServerPast}

theorem plainPast_nil : PlainPast [] := fun _ hx => absurd hx List.not_mem_nil

theorem plain_op {e : ServerEffect} {k : e.Result → HttpProg HttpResponse}
    (hpast : PlainPast past) (he : Plain e)
    (hk : ∀ r past, PlainPast past → PlainAlong past (k r)) :
    PlainAlong past (.op e k) := by
  refine ⟨⟨hpast, he⟩, fun r => hk r _ fun x hx => ?_⟩
  rcases List.mem_append.mp hx with hx | hx
  · exact hpast x hx
  · rw [List.mem_singleton.mp hx]
    exact he

theorem plain_of_writes {e : Effect} {family : Family}
    (h : writes e = some family) : Plain (.app e) := by
  cases e <;> trivial

theorem plain_mutation {family : Family} {p : Handler Response}
    (hp : MutationShape family p) (hpast : PlainPast past) :
    PlainAlong past (fromHandler p) := by
  cases hp with
  | refused _ _ => exact hpast
  | threw _ => exact hpast
  | write e he rest hrest =>
      refine plain_op hpast (plain_of_writes he) fun r past hpast => ?_
      show PlainAlong past (fromHandler (rest r))
      have hafter := hrest r
      generalize commits e r = changed at hafter
      generalize rest r = p at hafter
      cases hafter with
      | done response _ =>
          exact plain_op hpast trivial fun _ past hpast => hpast
      | refused _ _ => exact hpast
      | threw _ => exact hpast

theorem plain_fromMongo (p : MongoProg Empty MongoResponse)
    (hpast : PlainPast past) : PlainAlong past (fromMongo p) := by
  rw [fromMongo]
  induction p generalizing past with
  | pure response => exact hpast
  | throw x => exact x.elim
  | op e k ih => exact plain_op hpast trivial fun r _ hpast => ih r hpast

theorem plain_authLogin (body : StdString) (hpast : PlainPast past) :
    PlainAlong past (authLogin json body) := by
  rw [authLogin]
  cases json.fromString body with
  | error what => exact hpast
  | ok value =>
      show PlainAlong past
        (onApp (getString json.toUserverJson value "login") >>= _)
      rcases getString_cases json value "login" with
        ⟨what, hthrow⟩ | ⟨login, hget, -⟩
      · rw [hthrow]
        exact hpast
      · rw [hget]
        show PlainAlong past
          (onApp (getString json.toUserverJson value "password") >>= _)
        rcases getString_cases json value "password" with
          ⟨what, hthrow⟩ | ⟨password, hget, -⟩
        · rw [hthrow]
          exact hpast
        · rw [hget]
          show PlainAlong past
            (if login.isEmpty || password.isEmpty then _ else _)
          split
          · exact hpast
          · refine plain_op hpast trivial fun r past hpast => ?_
            rcases r with e | (_ | user)
            · exact hpast
            · exact hpast
            · show PlainAlong past
                ((if user.password != password then _ else _) >>= _)
              split
              · exact hpast
              · exact plain_op hpast trivial fun _ past hpast => hpast

/-- The handlers of all routes but the two reads. -/
theorem plain_handler (hpast : PlainPast past)
    (husers : request.route ≠ .usersGet) (hrides : request.route ≠ .ridesGet) :
    PlainAlong past (handler json request) := by
  have hmutation : ∀ r, isGet r = false →
      PlainAlong past (fromHandler (handle json.toUserverJson r)) :=
    fun r h => plain_mutation (handle_mutation json.toUserverJson h) hpast
  rw [handler]
  cases hroute : request.route with
  | usersGet => exact absurd hroute husers
  | ridesGet => exact absurd hroute hrides
  | authLogin => exact plain_authLogin _ hpast
  | mongoUsersCreate => exact plain_fromMongo _ hpast
  | mongoUsersGet => exact plain_fromMongo _ hpast
  | _ => exact hmutation _ rfl

/-! ### The server -/

theorem cachesRead_plain {e : ServerEffect} (h : Plain e) :
    CachesRead json request past e := by
  constructor
  · rintro key body ttl rfl
    exact h.elim
  · rintro key rfl
    exact h.elim

theorem PlainPast.uncached (h : PlainPast past) : Uncached past := by
  intro x hx key body ttl hset
  have hplain := h x hx
  rw [hset] at hplain
  exact hplain

theorem reads_handler (hpast : PlainPast past) :
    ReadAlong json request past (handler json request) := by
  by_cases husers : request.route = .usersGet
  · rw [handler, husers]
    exact reads_get (handle_get json.toUserverJson rfl) hpast.uncached
      (by rw [query?, husers])
  by_cases hrides : request.route = .ridesGet
  · rw [handler, hrides]
    exact reads_get (handle_get json.toUserverJson rfl) hpast.uncached
      (by rw [query?, hrides])
  have hquery : query? request = none := by
    rw [query?]
    split
    · next h => exact absurd h husers
    · next h => exact absurd h hrides
    · rfl
  exact (plain_handler hpast husers hrides).imp
    (fun past e h => cachesRead_plain h.2) fun past out _ => answersRead_none hquery

/-- What holds along the handlers holds along the request, if it holds of the
middleware's own call and responses. -/
theorem serveRequest_along_of {P : ServerPast → ServerEffect → Prop}
    {Q : ServerPast → Except Exn HttpResponse → Prop}
    (hhandler : ∀ past, Admitted past → (handler json request).Along P Q past)
    (htoken : ∀ token, P [] (.isTokenValid token))
    (hrefused : ∀ past response, Admitted past → response.code = 401 →
      Q past (.ok response)) : (serveRequest json request).Along P Q [] := by
  have hadmitted : ∀ token valid, Admitted [⟨.isTokenValid token, valid⟩] := by
    intro token valid x hx
    rw [List.mem_singleton.mp hx]
    exact ⟨token, rfl⟩
  have hnone : Admitted [] := fun _ hx => absurd hx List.not_mem_nil
  rw [serveRequest, authMiddleware]
  split
  · exact hhandler [] hnone
  · split
    · exact hrefused [] _ hnone rfl
    · refine ⟨htoken _, fun valid => ?_⟩
      cases valid with
      | false => exact hrefused _ _ (hadmitted _ _) rfl
      | true => exact hhandler _ (hadmitted _ _)

variable (json request) in
theorem serveRequest_reads :
    ReadAlong json request [] (serveRequest json request) := by
  refine serveRequest_along_of (fun past hpast => reads_handler hpast.plain)
    (fun token => cachesRead_plain trivial) fun past response _ hcode => ?_
  exact answersRead_code (by rw [hcode]; decide)

end

/-! ## What the cache holds -/

/-- An entry that is held was set, and is the last thing that happened to its
key. Whatever the clocks say, a lookup only erases. -/
theorem live_of_held {ops : List CacheOp} {key : StdString} {e : CacheEntry}
    (h : (cached ops).cache.entries.get? key = some e) :
    live key ops = some e := by
  induction ops using List.reverseRecOn generalizing e with
  | nil => cases h
  | append_singleton ops op ih =>
      rw [cached_concat] at h
      rw [live_concat]
      cases op with
      | set key' value ttl now =>
          simp only [cacheStep, ResponseCache.set, Assoc.get?_set] at h
          rw [liveStep]
          by_cases hkey : key' = key
          · rw [if_pos hkey] at h ⊢
            exact h
          · rw [if_neg hkey] at h ⊢
            exact ih h
      | get key' now => exact ih ((get_cases _ key' now).1 key e h)
      | invalidatePrefix pre =>
          simp only [cacheStep, ResponseCache.invalidatePrefix,
            Assoc.get?_eraseWhere] at h
          rw [liveStep]
          by_cases hpre : startsWith key pre = true
          · rw [if_pos hpre] at h
            cases h
          · rw [if_neg hpre] at h ⊢
            exact ih h

/-- The call, when the cache takes part in it. -/
def cacheOp? (x : ServerCall) : Option CacheOp :=
  match x.effect with
  | .app (.cacheGet key) => some (.get key x.input.clocks.get)
  | .app (.cacheSet key value ttl) =>
      some (.set key value ttl x.input.clocks.set)
  | .app (.invalidatePrefix pre) => some (.invalidatePrefix pre)
  | _ => none

theorem cacheOp?_set {x : ServerCall} {key value : StdString} {ttl : Int}
    {now : Ticks} (h : cacheOp? x = some (.set key value ttl now)) :
    x.effect = .app (.cacheSet key value ttl) ∧ x.input.clocks.set = now := by
  unfold cacheOp? at h
  split at h
  · cases h
  · next heffect =>
      cases h
      exact ⟨heffect, rfl⟩
  · cases h
  · cases h

section

variable {json : MongoJson} {lower : StdString → StdString}
  {server : MongoServer} {mongoUsers : List MongoUser}
  {events : List ServerEvent}

theorem callServer_cache (x : ServerCall) (w : World)
    (answers : List (Option StdString)) :
    (callServer lower server x.input x.effect w).2.app.cache =
      ((cacheOp? x).map fun op =>
        (cacheStep ⟨w.app.cache, answers⟩ op).cache).getD w.app.cache := by
  obtain ⟨i, input, e, answer⟩ := x
  cases e with
  | app e => cases e <;> rfl
  | mongo e => rfl
  | isTokenValid token => rfl
  | issueToken userId => rfl

/-- The cache is the run of the trace's calls on it. -/
theorem cache_of_trace {before after : List ServerCall}
    (heq : (httpServer json lower server (.start mongoUsers) events).trace =
      before ++ after) :
    (Threads.replay (callServer lower server) (.start mongoUsers)
      before).app.cache = (cached (before.filterMap cacheOp?)).cache := by
  refine (httpServer_replays json lower server _ events).induction
    (I := fun w trace => w.app.cache = (cached (trace.filterMap cacheOp?)).cache)
    rfl (fun w trace x hw _ => ?_) heq
  rw [callServer_cache x w (cached (trace.filterMap cacheOp?)).answers, hw,
    List.filterMap_append, List.filterMap_cons, List.filterMap_nil]
  cases cacheOp? x with
  | none => simp
  | some op => exact congrArg CacheRun.cache (cached_concat _ op).symm

/-- Behind a hit there is the call that set the entry. -/
theorem set_of_hit {before after : List ServerCall} {get : ServerCall}
    {key body : StdString}
    (heq : (httpServer json lower server (.start mongoUsers) events).trace =
      before ++ get :: after)
    (hget : (⟨get.effect, get.answer⟩ : (e : ServerEffect) × e.Result) =
      ⟨.app (.cacheGet key), some body⟩) :
    ∃ first set since ttl, before = first ++ set :: since ∧
      set.effect = .app (.cacheSet key body ttl) ∧
      (∀ x ∈ since, ∀ op, cacheOp? x = some op → op.concerns key = false) ∧
      get.input.clocks.get < set.input.clocks.set + ttl * ticksPerSecond := by
  have hanswer := (httpServer_replays json lower server _ events).answers
    _ _ _ heq
  have hcache := cache_of_trace heq
  obtain ⟨i, input, e, answer⟩ := get
  cases hget
  have hhit : (((Threads.replay (callServer lower server) (.start mongoUsers)
      before).app.cache).get key input.clocks.get).1 = some body := hanswer.symm
  rw [hcache, get_visible] at hhit
  obtain ⟨entry, hentry, rfl⟩ := Option.map_eq_some_iff.mp hhit
  obtain ⟨hheld, hnow⟩ := Option.filter_eq_some_iff.mp hentry
  obtain ⟨ttl, now, ⟨ops, later, hops, hlater⟩, hexpires⟩ :=
    live_eq_some.mp (live_of_held hheld)
  obtain ⟨first, rest, rfl, -, hrest⟩ := List.filterMap_eq_append_iff.mp hops
  obtain ⟨skipped, set, since, rfl, -, hset, rfl⟩ :=
    List.filterMap_eq_cons_iff.mp hrest
  obtain ⟨heffect, hnow'⟩ := cacheOp?_set hset
  refine ⟨first ++ skipped, set, since, ttl, (List.append_assoc ..).symm,
    heffect, fun x hx op hop => hlater op (List.mem_filterMap.mpr ⟨x, hx, hop⟩),
    ?_⟩
  rw [decide_eq_true_eq, hexpires] at hnow
  rw [hnow']
  exact Int.lt_of_lt_of_le hnow (expiresAt_le ttl now)

variable (json lower server) in
theorem httpServer_reads (w : World) (events : List ServerEvent) :
    Threads.Follows (CachesRead json) (AnswersRead json)
      (httpServer json lower server w events) :=
  Threads.run_along (serveRequest_reads json) _ _

/-- And behind that, the read of the same request. -/
theorem found_of_hit {before after : List ServerCall} {get : ServerCall}
    {i : Nat} {k : CacheKey} {body : StdString}
    (heq : (httpServer json lower server (.start mongoUsers) events).trace =
      before ++ get :: after) (hthread : get.thread = i)
    (hget : (⟨get.effect, get.answer⟩ : (e : ServerEffect) × e.Result) =
      ⟨.app (.cacheGet k.text), some body⟩) :
    FoundIn json (httpServer json lower server (.start mongoUsers) events).trace
      i k body := by
  obtain ⟨first, set, since, ttl, rfl, hset, hsince, hnow⟩ :=
    set_of_hit heq hget
  have heq' := heq
  rw [List.append_assoc, List.cons_append] at heq'
  obtain ⟨request, -, hcaches⟩ := (httpServer_reads json lower server
    (.start mongoUsers) events).calls _ _ _ heq'
  obtain ⟨request', -, hlooks⟩ := (httpServer_reads json lower server
    (.start mongoUsers) events).calls _ _ _ heq
  have hother : set.thread ≠ i := by
    rintro rfl
    have huncached := hlooks.2 k.text (congrArg Sigma.fst hget)
    rw [hthread] at huncached
    refine huncached ⟨set.effect, set.answer⟩
      (Threads.mem_pastOf.mpr ⟨set, ?_, rfl, rfl⟩) _ _ _ hset
    exact List.mem_append_right _ List.mem_cons_self
  obtain ⟨k', -, hkey, rfl, y, hy, hbody⟩ := hcaches.1 _ _ _ hset
  cases text_injective hkey
  obtain ⟨read, hread, hsame, rfl⟩ := Threads.mem_pastOf.mp hy
  obtain ⟨before, between, rfl⟩ := List.append_of_mem hread
  refine ⟨before, read, between, set, since, get, after, heq, hbody, hsame,
    hsame ▸ hother, hset, fun x hx heffect => ?_, hthread, hget, hnow⟩
  have hconcerns := hsince x hx (.invalidatePrefix k.family.pre)
    (by simp [cacheOp?, heffect])
  simp only [CacheOp.concerns, text_startsWith, decide_true] at hconcerns
  cases hconcerns

/-! ## What storage shows -/

/-- The databases a replica can show are those of the moments so far. -/
theorem earlier_of_trace {before after : List ServerCall}
    (heq : (httpServer json lower server (.start mongoUsers) events).trace =
      before ++ after) {db : Db}
    (hdb : db ∈ (Threads.replay (callServer lower server) (.start mongoUsers)
      before).earlier) : ∃ moment, moment <+: before ∧ db = tablesOf moment := by
  refine ((httpServer_replays json lower server (.start mongoUsers)
    events).induction
    (I := fun w trace => w.app.backend.db = tablesOf trace ∧
      ∀ db ∈ w.earlier, ∃ moment, moment <+: trace ∧ db = tablesOf moment)
    ⟨rfl, fun db h => by cases h⟩ (fun w trace x hw _ => ?_) heq).2 db hdb
  obtain ⟨hnow, hearlier⟩ := hw
  have hold : ∀ db ∈ w.earlier, ∃ moment,
      moment <+: trace ++ [x] ∧ db = tablesOf moment := by
    intro db h
    obtain ⟨moment, hprefix, hmoment⟩ := hearlier db h
    exact ⟨moment, List.IsPrefix.trans hprefix (List.prefix_append _ _), hmoment⟩
  refine ⟨by rw [callServer_db, tablesOf_concat, hnow], ?_⟩
  obtain ⟨i, input, e, answer⟩ := x
  cases e with
  | app e =>
      simp only [callServer]
      split
      · exact hold
      · intro db h
        rcases List.mem_cons.mp h with rfl | h
        · exact ⟨trace, List.prefix_append _ _, hnow⟩
        · exact hold db h
  | mongo e => exact hold
  | isTokenValid token => exact hold
  | issueToken userId => exact hold

theorem replica_of_trace {before after : List ServerCall}
    (heq : (httpServer json lower server (.start mongoUsers) events).trace =
      before ++ after) (lag : Nat) :
    ∃ moment, moment <+: before ∧ (lag = 0 → moment = before) ∧
      (Threads.replay (callServer lower server) (.start mongoUsers)
        before).replica lag = tablesOf moment := by
  have hnow := db_of_trace heq
  rw [World.replica, List.getD_eq_getElem?_getD]
  cases lag with
  | zero => exact ⟨before, List.prefix_refl _, fun _ => rfl, hnow⟩
  | succ lag =>
      rw [List.getElem?_cons_succ]
      cases hdb : (Threads.replay (callServer lower server) (.start mongoUsers)
          before).earlier[lag]? with
      | none => exact ⟨before, List.prefix_refl _, fun _ => rfl, hnow⟩
      | some db =>
          obtain ⟨moment, hprefix, hmoment⟩ :=
            earlier_of_trace heq (List.mem_of_getElem? hdb)
          refine ⟨moment, hprefix, fun h => ?_, hmoment⟩
          cases h

/-- A read answers its query from the database that the replica shows. -/
theorem answer_of_read {w : World} {input : CallInput} {k : CacheKey}
    {e : ServerEffect} {body : StdString}
    (h : readBody? json k e (callServer lower server input e w).1 = some body) :
    storageAnswer lower json.toUserverJson (w.replica input.lag) k =
      some body := by
  generalize hr : (callServer lower server input e w).1 = r at h
  unfold readBody? at h
  split at h
  · next login login' user =>
      split at h
      · next hlogin =>
          subst hlogin
          have hfound : getUserByLogin login' (w.replica input.lag) =
            .ok (some user) := hr
          rw [storageAnswer, hfound]
          exact h
      · cases h
  · next nameMask nameMask' users =>
      split at h
      · next hmask =>
          subst hmask
          have hfound : findUsersByNameMask lower nameMask'
            (w.replica input.lag) = .ok users := hr
          rw [storageAnswer, hfound]
          exact h
      · cases h
  · next userId n rides =>
      split at h
      · next hstoi =>
          subst hr
          rw [storageAnswer, hstoi]
          exact h
      · cases h
  · subst hr
    exact h
  · cases h

/-! ## The result -/

variable (json lower server mongoUsers events) in
/-- In any interleaving, and however far the replica is behind. -/
theorem reads_sourced : Sourced lower json (httpServer json lower server
    (.start mongoUsers) events) := by
  have hreplays := httpServer_replays json lower server (.start mongoUsers) events
  have hfollows := httpServer_reads json lower server (.start mongoUsers) events
  refine ⟨fun before x after k body heq hbody => ?_,
    fun i th response k hi hout hk hcode => ?_⟩
  · rw [hreplays.answers _ _ _ heq] at hbody
    obtain ⟨moment, hprefix, hlag, hmoment⟩ :=
      replica_of_trace heq x.input.lag
    refine ⟨moment, hprefix, hlag, ?_⟩
    rw [← hmoment]
    exact answer_of_read hbody
  · rcases hfollows.outcome hi hout response k rfl hk hcode with
      ⟨hmiss, y, hy, hbody⟩ | ⟨hhit, hget⟩
    · obtain ⟨read, hread, hthread, rfl⟩ := Threads.mem_pastOf.mp hy
      exact .inl ⟨hmiss, read, hread, hthread, hbody⟩
    · obtain ⟨get, hmem, hthread, hget⟩ := Threads.mem_pastOf.mp hget
      obtain ⟨before, after, heq⟩ := List.append_of_mem hmem
      exact .inr ⟨hhit, found_of_hit heq hthread hget⟩

end

end TaxiService.Proofs
