import TaxiService.Proofs.CacheSound
import TaxiService.Spec.Freshness

/-!
# When a read can miss an update

The invariant of the interleaved service (`Fresh`) dates every cache entry:
it is what storage answered at some moment, and no change of its family that
has been invalidated is later. The steps that keep it are all but the late
writes to the cache. A hit is then an answer from the entry's moment, and it is
also one from any later moment up to the first change of the family, which has
to be a change that still waits for its invalidation.
-/

namespace TaxiService.Proofs

open TaxiService.Lib TaxiService.Model TaxiService.Spec

variable (lower : StdString → StdString) (json : UserverJson)

/-! ## What a read answers -/

/-- Handled without a cache, the request ends in the miss of this query. -/
def LeadsTo (request : Request) (headers : List (StdString × StdString))
    (k : CacheKey) : Prop :=
  ∃ limiter limiter' clocks, ∀ db,
    (handle json request).run (callBackend lower clocks) ⟨db, limiter⟩ =
      (missPath json headers k).run (callBackend lower clocks) ⟨db, limiter'⟩

variable {lower json} {headers : List (StdString × StdString)} {k : CacheKey}

theorem missPath_run_some (clocks : Readings) {b : Backend} {body : StdString}
    (h : storageAnswer lower json b.db k = some body) :
    (missPath json headers k).run (callBackend lower clocks) b =
      (.ok ⟨.ok, headers ++ [xCache "MISS"], body⟩, b) := by
  rcases missPath_cases lower json clocks headers k ⟨b, .empty⟩ with
    ⟨body', ttl, hans, -, hrun⟩ | ⟨out, hans, -⟩
  · rw [h] at hans
    cases hans
    exact hrun
  · rw [h] at hans
    cases hans

/-- A miss makes one read of storage, and goes on to cache what storage
answers or is finished. -/
theorem missPath_call {e : Effect} {rest : e.Result → Handler Response}
    (h : missPath json headers k = .op e rest) (clocks : Readings) (a : App) :
    reads e = true ∧ (callApp lower clocks e a).2 = a ∧
    ((∃ body ttl, storageAnswer lower json a.backend.db k = some body ∧
        rest (callApp lower clocks e a).1 = store headers k body ttl) ∨
      ∃ out, (rest (callApp lower clocks e a).1).outcome? = some out ∧
        ∀ clocks' limiter, ((missPath json headers k).run
          (callBackend lower clocks') ⟨a.backend.db, limiter⟩).1 = out) := by
  cases k with
  | login login =>
      cases h
      refine ⟨rfl, rfl, ?_⟩
      simp only [storageAnswer, callApp, callBackend, missPath, Prog.run_op]
      rcases getUserByLogin login a.backend.db with x | (_ | user)
      · exact .inr ⟨_, rfl, fun _ _ => rfl⟩
      · exact .inr ⟨_, rfl, fun _ _ => rfl⟩
      · exact .inl ⟨_, _, rfl, rfl⟩
  | nameMask nameMask =>
      cases h
      refine ⟨rfl, rfl, ?_⟩
      simp only [storageAnswer, callApp, callBackend, missPath, Prog.run_op]
      cases findUsersByNameMask lower nameMask a.backend.db with
      | error x => exact .inr ⟨_, rfl, fun _ _ => rfl⟩
      | ok users => exact .inl ⟨_, _, rfl, rfl⟩
  | history userId =>
      rw [missPath] at h
      simp only [storageAnswer]
      split at h
      · cases h
      · next n hn =>
          cases h
          exact ⟨rfl, rfl, .inl ⟨_, _, by rw [hn]; rfl, rfl⟩⟩
  | active =>
      cases h
      exact ⟨rfl, rfl, .inl ⟨_, _, rfl, rfl⟩⟩

theorem LeadsTo.produces_some {request : Request}
    (h : LeadsTo lower json request headers k) {db : Db} {body : StdString}
    (hans : storageAnswer lower json db k = some body) (hit : String) :
    Produces lower json db request
      (.ok ⟨.ok, headers ++ [xCache hit], body⟩) := by
  obtain ⟨limiter, limiter', clocks, hrun⟩ := h
  refine ⟨limiter, clocks, ?_⟩
  rw [hrun, missPath_run_some clocks hans]
  rfl

theorem LeadsTo.produces {request : Request}
    (h : LeadsTo lower json request headers k) {db : Db} {out : Outcome}
    (hout : ∀ clocks limiter, ((missPath json headers k).run
      (callBackend lower clocks) ⟨db, limiter⟩).1 = out) :
    Produces lower json db request out := by
  obtain ⟨limiter, limiter', clocks, hrun⟩ := h
  refine ⟨limiter, clocks, ?_⟩
  rw [hrun, hout]

theorem leadsTo_lookup {request : Request}
    (h : handle json request = lookup json headers k) :
    LeadsTo lower json request headers k := by
  refine ⟨.empty, .empty, ⟨0, 0, 0, 0⟩, fun db => ?_⟩
  rw [h]
  rfl

/-! ## The invariant -/

variable (lower json)

/-- The answer is one from before `bound`, with every change that was confirmed
when the read started. -/
def Answered (s : Service) (bound startedAt : Nat) (request : Request)
    (out : Outcome) : Prop :=
  ∀ m ∈ s.finished, confirmed m = true → m.returnedAt < startedAt →
    ∃ c n db, m.committedAt = some c ∧ c ≤ n ∧ n < bound ∧
      s.history[n]? = some db ∧ Produces lower json db request out

/-- Where a read is, by what is left of its program. -/
inductive GetStage (s : Service) (f : Flight) : Handler Response → Prop where
  | start : GetStage s f (handle json f.request)
  | lookup {headers : List (StdString × StdString)} {k : CacheKey}
      (hk : cacheKey? f.request = some k)
      (hl : LeadsTo lower json f.request headers k) :
      GetStage s f (lookup json headers k)
  | missed {headers : List (StdString × StdString)} {k : CacheKey}
      (hk : cacheKey? f.request = some k)
      (hl : LeadsTo lower json f.request headers k) :
      GetStage s f (missPath json headers k)
  | read {headers : List (StdString × StdString)} {k : CacheKey} {v : Nat}
      {db : Db} {body : StdString} {ttl : Int}
      (hk : cacheKey? f.request = some k)
      (hl : LeadsTo lower json f.request headers k)
      (hv : f.readAt = some v) (hlate : f.startedAt ≤ v)
      (hdb : s.history[v]? = some db)
      (hans : storageAnswer lower json db k = some body) :
      GetStage s f (store headers k body ttl)
  | done {p : Handler Response} {out : Outcome} (hout : p.outcome? = some out)
      (h : Answered lower json s s.moment f.startedAt f.request out) :
      GetStage s f p

/-- Where a mutation is. -/
inductive MutationStage (s : Service) (f : Flight) :
    Handler Response → Prop where
  | start (hc : f.committedAt = none) (hi : f.invalidated = false) :
      MutationStage s f (handle json f.request)
  | pending {response : Response} {c : Nat}
      (hs : success response.status = true) (hc : f.committedAt = some c)
      (hlt : c < s.moment) :
      MutationStage s f (.op (.invalidatePrefix (familyOf f.request).pre)
        fun _ => .pure response)
  | done {p : Handler Response} {out : Outcome} (hout : p.outcome? = some out)
      (hs : ∀ response, out = .ok response → success response.status = true →
        ∃ c, f.committedAt = some c)
      (hc : ∀ c, f.committedAt = some c →
        c < s.moment ∧ (familyOf f.request, c) ∈ s.invalidations) :
      MutationStage s f p

structure FlightOk (s : Service) (f : Flight) : Prop where
  started : f.startedAt < s.moment
  get : isGet f.request = true →
    f.committedAt = none ∧ GetStage lower json s f f.rest
  mutation : isGet f.request = false → MutationStage json s f f.rest

structure FinishedOk (s : Service) (m : Finished) : Prop where
  started : m.startedAt ≤ m.returnedAt
  returned : m.returnedAt < s.moment
  committed : confirmed m = true → ∃ c, m.committedAt = some c
  before : ∀ c, m.committedAt = some c →
    c < m.returnedAt ∧ (familyOf m.request, c) ∈ s.invalidations
  answered : isGet m.request = true →
    Answered lower json s (m.returnedAt + 1) m.startedAt m.request m.outcome

/-- The value under a key is dated, and not before a change of its family that
has been invalidated. -/
def EntryOk (s : Service) (k : CacheKey) (value : StdString) : Prop :=
  ∃ v db, s.entryRead.get? k.text = some v ∧ s.history[v]? = some db ∧
    storageAnswer lower json db k = some value ∧
    ∀ p ∈ s.invalidations, p.1 = k.family → p.2 ≤ v

/-- A change of the family was committed at this moment, and is invalidated or
waits for it. -/
def Changed (s : Service) (family : Family) (c : Nat) : Prop :=
  (family, c) ∈ s.invalidations ∨ ∃ id f, s.inFlight.get? id = some f ∧
    familyOf f.request = family ∧ f.committedAt = some c ∧ f.invalidated = false

structure Fresh (s : Service) : Prop where
  now : ∃ past, s.history = past ++ [s.app.backend.db]
  entries : ∀ (k : CacheKey) e, s.app.cache.entries.get? k.text = some e →
    EntryOk lower json s k e.value
  changes : ∀ n db db', s.history[n]? = some db → s.history[n + 1]? = some db' →
    ∀ k, storageAnswer lower json db' k ≠ storageAnswer lower json db k →
      Changed s k.family (n + 1)
  flights : ∀ id f, s.inFlight.get? id = some f → FlightOk lower json s f
  finished : ∀ m ∈ s.finished, FinishedOk lower json s m

variable {lower json}

/-! ## The passing of time -/

/-- One event later. -/
structure Extends (s s' : Service) : Prop where
  history : ∃ db, s'.history = s.history ++ [db]
  finished : ∀ m ∈ s'.finished, m ∈ s.finished ∨ m.returnedAt = s.moment
  invalidations : ∀ p ∈ s.invalidations, p ∈ s'.invalidations

theorem Extends.moment {s s' : Service} (h : Extends s s') :
    s'.moment = s.moment + 1 := by
  obtain ⟨db, hh⟩ := h.history
  rw [Service.moment, hh, List.length_append]
  rfl

theorem Extends.past {s s' : Service} (h : Extends s s') {n : Nat} {db : Db}
    (hn : s.history[n]? = some db) : s'.history[n]? = some db := by
  obtain ⟨db', hh⟩ := h.history
  rw [hh, List.getElem?_append_left (List.getElem?_eq_some_iff.mp hn).1, hn]

theorem Answered.mono {s s' : Service} (hx : Extends s s')
    {bound bound' startedAt : Nat} {request : Request} {out : Outcome}
    (h : Answered lower json s bound startedAt request out)
    (hstart : startedAt ≤ s.moment) (hle : bound ≤ bound') :
    Answered lower json s' bound' startedAt request out := by
  intro m hm hconf hlt
  rcases hx.finished m hm with hm | hm
  · obtain ⟨c, n, db, hc, hcn, hn, hdb, hp⟩ := h m hm hconf hlt
    exact ⟨c, n, db, hc, hcn, by omega, hx.past hdb, hp⟩
  · omega

theorem GetStage.mono {s s' : Service} (hx : Extends s s') {f : Flight}
    {p : Handler Response} (hstart : f.startedAt < s.moment)
    (h : GetStage lower json s f p) : GetStage lower json s' f p := by
  have hmoment := hx.moment
  cases h with
  | start => exact .start
  | lookup hk hl => exact .lookup hk hl
  | missed hk hl => exact .missed hk hl
  | read hk hl hv hlate hdb hans =>
      exact .read hk hl hv hlate (hx.past hdb) hans
  | done hout h => exact .done hout (h.mono hx (by omega) (by omega))

theorem MutationStage.mono {s s' : Service} (hx : Extends s s') {f : Flight}
    {p : Handler Response} (h : MutationStage json s f p) :
    MutationStage json s' f p := by
  have hmoment := hx.moment
  cases h with
  | start hc hi => exact .start hc hi
  | pending hs hc hlt => exact .pending hs hc (by omega)
  | done hout hs hc =>
      exact .done hout hs fun c h =>
        ⟨by have := (hc c h).1; omega, hx.invalidations _ (hc c h).2⟩

theorem FlightOk.mono {s s' : Service} (hx : Extends s s') {f : Flight}
    (h : FlightOk lower json s f) : FlightOk lower json s' f where
  started := by have := h.started; have := hx.moment; omega
  get hg := ⟨(h.get hg).1, (h.get hg).2.mono hx h.started⟩
  mutation hg := (h.mutation hg).mono hx

theorem FinishedOk.mono {s s' : Service} (hx : Extends s s') {m : Finished}
    (h : FinishedOk lower json s m) : FinishedOk lower json s' m where
  started := h.started
  returned := by have := h.returned; have := hx.moment; omega
  committed := h.committed
  before c hc := ⟨(h.before c hc).1, hx.invalidations _ (h.before c hc).2⟩
  answered hg := (h.answered hg).mono hx
    (by have := h.started; have := h.returned; omega) (Nat.le_refl _)

theorem EntryOk.mono {s s' : Service} (hx : Extends s s')
    (hread : s'.entryRead = s.entryRead)
    (hinv : s'.invalidations = s.invalidations) {k : CacheKey}
    {value : StdString} (h : EntryOk lower json s k value) :
    EntryOk lower json s' k value := by
  obtain ⟨v, db, hv, hdb, hans, hdate⟩ := h
  exact ⟨v, db, by rw [hread, hv], hx.past hdb, hans, by rw [hinv]; exact hdate⟩

/-! ## A hit -/

theorem familyOf_cacheKey {request : Request} {k : CacheKey}
    (h : cacheKey? request = some k) : familyOf request = k.family := by
  cases request with
  | usersGet login nameMask =>
      simp only [cacheKey?] at h
      split at h
      · cases h
      · split at h <;> (cases h; rfl)
  | ridesGet userId status =>
      simp only [cacheKey?] at h
      split at h
      · split at h
        · cases h; rfl
        · cases h
      · cases h; rfl
  | _ => cases h

/-- From the moment of the entry on, storage gives the same answer as long as
no change of the family is in between that still waits for its
invalidation. -/
theorem Fresh.answer_kept {s : Service} (h : Fresh lower json s) {k : CacheKey}
    {value : StdString} {v c : Nat} {db : Db} (hdb : s.history[v]? = some db)
    (hans : storageAnswer lower json db k = some value)
    (hdate : ∀ p ∈ s.invalidations, p.1 = k.family → p.2 ≤ v)
    (hpending : ∀ id f c', s.inFlight.get? id = some f →
      familyOf f.request = k.family → f.committedAt = some c' →
      f.invalidated = false → v < c' → c < c') (hlt : c < s.moment) :
    ∀ n, v ≤ n → n ≤ c → ∃ db', s.history[n]? = some db' ∧
      storageAnswer lower json db' k = some value := by
  intro n
  induction n with
  | zero =>
      intro hv _
      obtain rfl : v = 0 := by omega
      exact ⟨db, hdb, hans⟩
  | succ n ih =>
      intro hv hc
      rcases Nat.eq_or_lt_of_le hv with rfl | hv
      · exact ⟨db, hdb, hans⟩
      · obtain ⟨db₀, hdb₀, hans₀⟩ := ih (by omega) (by omega)
        have hn : n + 1 < s.history.length := by
          have : c < s.history.length := hlt
          omega
        refine ⟨_, List.getElem?_eq_getElem hn, ?_⟩
        by_contra hne
        rw [← hans₀] at hne
        rcases h.changes n _ _ hdb₀ (List.getElem?_eq_getElem hn) k hne with
          hinv | ⟨id, f, hf, hfam, hcom, hni⟩
        · have := hdate _ hinv rfl
          omega
        · have := hpending id f (n + 1) hf hfam hcom hni hv
          omega

/-- A hit that is in time answers like storage at or after every change that
was confirmed when the read started. -/
theorem Fresh.hit {s : Service} (h : Fresh lower json s) {f : Flight}
    {k : CacheKey} (hk : cacheKey? f.request = some k) {value : StdString}
    (he : EntryOk lower json s k value) (hok : HitInTime s f k.text)
    {m : Finished} (hm : m ∈ s.finished) (hconf : confirmed m = true)
    (hlt : m.returnedAt < f.startedAt) :
    ∃ c n db, m.committedAt = some c ∧ c ≤ n ∧ n < s.moment ∧
      s.history[n]? = some db ∧ storageAnswer lower json db k = some value := by
  obtain ⟨v, db, hv, hdb, hans, hdate⟩ := he
  have hm' := h.finished m hm
  obtain ⟨c, hc⟩ := hm'.committed hconf
  have hcm := (hm'.before c hc).1
  have hret := hm'.returned
  have hvm : v < s.moment := (List.getElem?_eq_some_iff.mp hdb).1
  rcases Nat.lt_or_ge v c with hvc | hcv
  · obtain ⟨db', hdb', hans'⟩ := h.answer_kept hdb hans hdate
      (fun id f' c' hf' hfam hcom hni hlt' =>
        hok v hv (id, f') (Assoc.mem_of_get? hf') c' hcom
          (hfam.trans (familyOf_cacheKey hk).symm) hni hlt' m hm c hc hlt)
      (by omega) c hvc.le (Nat.le_refl c)
    exact ⟨c, c, db', hc, Nat.le_refl c, by omega, hdb', hans'⟩
  · exact ⟨c, v, db, hc, hcv, hvm, hdb, hans⟩

/-! ## Steps -/

theorem Fresh.lastMoment {s : Service} (h : Fresh lower json s) :
    s.history[s.moment - 1]? = some s.app.backend.db ∧ 0 < s.moment := by
  obtain ⟨past, hp⟩ := h.now
  have hm : s.moment = past.length + 1 := by
    rw [Service.moment, hp, List.length_append]
    rfl
  rw [hm]
  refine ⟨?_, by omega⟩
  rw [hp, Nat.add_sub_cancel, List.getElem?_append_right (Nat.le_refl _),
    Nat.sub_self]
  rfl

/-- An answer that the database of now would give has every change. -/
theorem Fresh.answered_now {s : Service} (h : Fresh lower json s)
    {startedAt : Nat} {request : Request} {out : Outcome}
    (hp : Produces lower json s.app.backend.db request out) :
    Answered lower json s s.moment startedAt request out := by
  intro m hm hconf _
  have hm' := h.finished m hm
  obtain ⟨c, hc⟩ := hm'.committed hconf
  have hcm := (hm'.before c hc).1
  have hret := hm'.returned
  obtain ⟨hnow, hpos⟩ := h.lastMoment
  exact ⟨c, s.moment - 1, _, hc, by omega, by omega, hnow, hp⟩

/-- The changes up to the last moment, one event later. -/
theorem Fresh.changes_next {s s' : Service} (h : Fresh lower json s)
    {db : Db} (hh : s'.history = s.history ++ [db])
    (hkeep : ∀ family c, Changed s family c → Changed s' family c)
    (hnew : ∀ k, storageAnswer lower json db k ≠
      storageAnswer lower json s.app.backend.db k →
        Changed s' k.family s.moment) :
    ∀ n db₀ db₁, s'.history[n]? = some db₀ → s'.history[n + 1]? = some db₁ →
      ∀ k, storageAnswer lower json db₁ k ≠ storageAnswer lower json db₀ k →
        Changed s' k.family (n + 1) := by
  intro n db₀ db₁ h₀ h₁ k hne
  obtain ⟨hnow, hpos⟩ := h.lastMoment
  rw [hh] at h₀ h₁
  have hlen := (List.getElem?_eq_some_iff.mp h₁).1
  rw [List.length_append, List.length_singleton] at hlen
  rcases Nat.lt_or_ge (n + 1) s.history.length with hlt | hge
  · rw [List.getElem?_append_left (by omega)] at h₀ h₁
    exact hkeep _ _ (h.changes n db₀ db₁ h₀ h₁ k hne)
  · have hn : n + 1 = s.moment := by
      show n + 1 = s.history.length
      omega
    rw [List.getElem?_append_left (by omega)] at h₀
    rw [List.getElem?_append_right hge] at h₁
    have h₁' : db₁ = db := by
      rw [show n + 1 - s.history.length = 0 by omega] at h₁
      exact (Option.some.inj h₁).symm
    have h₀' : db₀ = s.app.backend.db := by
      rw [← hn, Nat.add_sub_cancel, h₀] at hnow
      exact Option.some.inj hnow
    rw [hn]
    exact hnew k (h₁' ▸ h₀' ▸ hne)

/-- A read that has finished was refused before it asked, failed before it
asked, or carries its answer. -/
theorem Fresh.answered_finished {s : Service} (h : Fresh lower json s)
    {f : Flight} {out : Outcome} (hstage : GetStage lower json s f f.rest)
    (hout : f.rest.outcome? = some out) :
    Answered lower json s s.moment f.startedAt f.request out := by
  generalize hrest : f.rest = p at hstage hout
  cases hstage with
  | start =>
      exact h.answered_now ⟨.empty, ⟨0, 0, 0, 0⟩,
        by rw [Prog.run_of_outcome hout]⟩
  | lookup hk hl => cases hout
  | missed hk hl =>
      exact h.answered_now (hl.produces fun clocks limiter => by
        rw [Prog.run_of_outcome hout])
  | read hk hl hv hlate hdb hans => cases hout
  | done hout' hans =>
      rw [hout] at hout'
      cases hout'
      exact hans

theorem finishedOk_mutation {s : Service} {f : Flight} {out : Outcome}
    (hg : isGet f.request = false) (hstage : MutationStage json s f f.rest)
    (hout : f.rest.outcome? = some out) :
    (∀ response, out = .ok response → success response.status = true →
      ∃ c, f.committedAt = some c) ∧
    ∀ c, f.committedAt = some c →
      c < s.moment ∧ (familyOf f.request, c) ∈ s.invalidations := by
  generalize hrest : f.rest = p at hstage hout
  cases hstage with
  | start hc hi =>
      have hshape := handle_mutation json hg
      generalize handle json f.request = p at hout hshape
      refine ⟨fun response hok hs => ?_, fun c h => by rw [hc] at h; cases h⟩
      cases hshape with
      | refused response' hs' =>
          cases hout
          cases hok
          rw [hs] at hs'
          cases hs'
      | threw x =>
          cases hout
          cases hok
      | write e he rest hafter => cases hout
  | pending hs hc hlt => cases hout
  | done hout' hs hc =>
      rw [hout] at hout'
      cases hout'
      exact ⟨hs, hc⟩

theorem finish_extends (s : Service) (id : Nat) (f : Flight) (out : Outcome) :
    Extends s (s.finish id f out) where
  history := ⟨_, rfl⟩
  finished m hm := by
    rcases List.mem_cons.mp hm with rfl | hm
    · exact .inr rfl
    · exact .inl hm
  invalidations _ hp := hp

theorem Fresh.finish {s : Service} (h : Fresh lower json s) {id : Nat}
    {f : Flight} {out : Outcome} (hf : s.inFlight.get? id = some f)
    (hout : f.rest.outcome? = some out) :
    Fresh lower json (s.finish id f out) := by
  have hx := finish_extends s id f out
  have hok := h.flights id f hf
  have hcommitted : ∀ c, f.committedAt = some c →
      c < s.moment ∧ (familyOf f.request, c) ∈ s.invalidations := by
    intro c hc
    cases hg : isGet f.request with
    | true =>
        rw [(hok.get hg).1] at hc
        cases hc
    | false => exact (finishedOk_mutation hg (hok.mutation hg) hout).2 c hc
  constructor
  case now => exact ⟨s.history, rfl⟩
  case entries => exact fun k e he => (h.entries k e he).mono hx rfl rfl
  case changes =>
    refine h.changes_next rfl (fun family c hc => ?_)
      (fun k hne => absurd rfl hne)
    rcases hc with hc | ⟨id', f', hf', hfam, hcom, hni⟩
    · exact .inl hc
    · by_cases hid : id = id'
      · -- A request does not return between its commit and its invalidation.
        subst hid
        rw [hf] at hf'
        cases hf'
        exact .inl (hfam ▸ (hcommitted c hcom).2)
      · refine .inr ⟨id', f', ?_, hfam, hcom, hni⟩
        rw [Service.finish, Assoc.get?_erase, if_neg hid, hf']
  case flights =>
    intro id' f' hf'
    rw [Service.finish, Assoc.get?_erase] at hf'
    split at hf'
    · cases hf'
    · exact (h.flights id' f' hf').mono hx
  case finished =>
    intro m hm
    rcases List.mem_cons.mp hm with rfl | hm
    · constructor
      case started => exact hok.started.le
      case returned =>
        rw [hx.moment]
        exact Nat.lt_succ_self _
      case committed =>
        intro hconf
        cases hg : isGet f.request with
        | true => simp [confirmed, hg] at hconf
        | false =>
            cases out with
            | error x => simp [confirmed] at hconf
            | ok response =>
                have hs : success response.status = true := by
                  simpa [confirmed, hg] using hconf
                exact (finishedOk_mutation hg (hok.mutation hg) hout).1
                  response rfl hs
      case before => exact hcommitted
      case answered =>
        intro hg
        exact (h.answered_finished (hok.get hg).2 hout).mono hx
          hok.started.le (Nat.le_succ _)
    · exact (h.finished m hm).mono hx

theorem arrive_extends (s : Service) (id : Nat) (request : Request)
    (p : Handler Response) : Extends s (s.arrive id request p) where
  history := ⟨_, rfl⟩
  finished _ hm := .inl hm
  invalidations _ hp := hp

theorem Fresh.arrive {s : Service} (h : Fresh lower json s) {id : Nat}
    (request : Request) (hf : s.inFlight.get? id = none) :
    Fresh lower json (s.arrive id request (handle json request)) := by
  have hx := arrive_extends s id request (handle json request)
  constructor
  case now => exact ⟨s.history, rfl⟩
  case entries => exact fun k e he => (h.entries k e he).mono hx rfl rfl
  case changes =>
    refine h.changes_next rfl (fun family c hc => ?_)
      (fun k hne => absurd rfl hne)
    rcases hc with hc | ⟨id', f', hf', hfam, hcom, hni⟩
    · exact .inl hc
    · refine .inr ⟨id', f', ?_, hfam, hcom, hni⟩
      have hid : id ≠ id' := by
        rintro rfl
        rw [hf] at hf'
        cases hf'
      rw [Service.arrive, Assoc.get?_set, if_neg hid, hf']
  case flights =>
    intro id' f' hf'
    rw [Service.arrive, Assoc.get?_set] at hf'
    split at hf'
    · cases hf'
      exact ⟨by rw [hx.moment]; exact Nat.lt_succ_self _,
        fun _ => ⟨rfl, .start⟩, fun _ => .start rfl rfl⟩
    · exact (h.flights id' f' hf').mono hx
  case finished => exact fun m hm => (h.finished m hm).mono hx

theorem call_extends (s : Service) (id : Nat) (f : Flight) (e : Effect)
    (r : e.Result) (app : App) (rest : Handler Response) :
    Extends s (s.call id f e r app rest) where
  history := ⟨_, rfl⟩
  finished _ hm := .inl hm
  invalidations p hp := by
    simp only [Service.call]
    split
    · exact List.mem_cons_of_mem _ hp
    · exact hp

theorem call_history (s : Service) (id : Nat) (f : Flight) (e : Effect)
    (r : e.Result) (app : App) (rest : Handler Response) :
    (s.call id f e r app rest).history[s.moment]? = some app.backend.db := by
  show (s.history ++ [app.backend.db])[s.history.length]? = _
  rw [List.getElem?_append_right (Nat.le_refl _), Nat.sub_self]
  rfl

/-- What a call has to keep: the stage of its own request, the dates of the
entries, and the record of the changes. -/
theorem Fresh.call {s : Service} (h : Fresh lower json s) {id : Nat}
    {f : Flight} (hf : s.inFlight.get? id = some f) {e : Effect} {r : e.Result}
    {app : App} {rest : Handler Response}
    (hown : FlightOk lower json (s.call id f e r app rest)
      { s.record f e r with rest })
    (hentries : ∀ (k : CacheKey) entry,
      app.cache.entries.get? k.text = some entry →
        EntryOk lower json (s.call id f e r app rest) k entry.value)
    (hchange : ∀ k, storageAnswer lower json app.backend.db k ≠
      storageAnswer lower json s.app.backend.db k →
        k.family = familyOf f.request ∧ commits e r = true ∧
          f.invalidated = false)
    (hkeep : ∀ c, f.committedAt = some c → f.invalidated = false →
      (commits e r = false ∧ (s.record f e r).invalidated = false) ∨
        (familyOf f.request, c) ∈ (s.call id f e r app rest).invalidations) :
    Fresh lower json (s.call id f e r app rest) := by
  have hx := call_extends s id f e r app rest
  have hget : ∀ id', (s.call id f e r app rest).inFlight.get? id' =
      if id = id' then some { s.record f e r with rest }
      else s.inFlight.get? id' := fun id' => Assoc.get?_set _ _ _ _
  constructor
  case now => exact ⟨s.history, rfl⟩
  case entries => exact hentries
  case changes =>
    refine h.changes_next rfl (fun family c hc => ?_) fun k hne => ?_
    · rcases hc with hc | ⟨id', f', hf', hfam, hcom, hni⟩
      · exact .inl (hx.invalidations _ hc)
      · by_cases hid : id = id'
        · subst hid
          rw [hf] at hf'
          cases hf'
          rcases hkeep c hcom hni with ⟨hc, hi⟩ | hinv
          · refine .inr ⟨id, _, (hget id).trans (if_pos rfl), hfam, ?_, hi⟩
            simp only [Service.record, hc]
            exact hcom
          · exact .inl (hfam ▸ hinv)
        · exact .inr ⟨id', f', by rw [hget, if_neg hid, hf'], hfam, hcom, hni⟩
    · obtain ⟨hfam, hc, hi⟩ := hchange k hne
      refine .inr ⟨id, _, (hget id).trans (if_pos rfl), hfam.symm, ?_, ?_⟩
      · simp only [Service.record, hc, if_true]
      · cases e <;> first | exact hi | cases hc
  case flights =>
    intro id' f' hf'
    rw [hget] at hf'
    split at hf'
    · cases hf'
      exact hown
    · exact (h.flights id' f' hf').mono hx
  case finished => exact fun m hm => (h.finished m hm).mono hx

/-! ## The calls of a read -/

theorem FlightOk.get_record {s s' : Service} (hx : Extends s s') {f : Flight}
    (h : FlightOk lower json s f) (hg : isGet f.request = true) {e : Effect}
    {r : e.Result} (hc : commits e r = false) {rest : Handler Response}
    (hstage : GetStage lower json s' { s.record f e r with rest } rest) :
    FlightOk lower json s' { s.record f e r with rest } where
  started := by
    have := h.started
    have := hx.moment
    show f.startedAt < s'.moment
    omega
  get _ := ⟨by simp only [Service.record, hc]; exact (h.get hg).1, hstage⟩
  mutation hg' := by
    rw [show isGet f.request = false from hg'] at hg
    cases hg

/-- A call of a read that leaves the database and writes nothing to the
cache. -/
theorem Fresh.call_get {s : Service} (h : Fresh lower json s) {id : Nat}
    {f : Flight} (hf : s.inFlight.get? id = some f)
    (hg : isGet f.request = true) {e : Effect} {r : e.Result} {app : App}
    {rest : Handler Response} (hc : commits e r = false)
    (hdb : app.backend.db = s.app.backend.db)
    (hentries : ∀ key entry, app.cache.entries.get? key = some entry →
      s.app.cache.entries.get? key = some entry)
    (hread : (s.call id f e r app rest).entryRead = s.entryRead)
    (hinv : (s.call id f e r app rest).invalidations = s.invalidations)
    (hstage : GetStage lower json (s.call id f e r app rest)
      { s.record f e r with rest } rest) :
    Fresh lower json (s.call id f e r app rest) := by
  have hx := call_extends s id f e r app rest
  have hok := h.flights id f hf
  refine h.call hf (hok.get_record hx hg hc hstage) (fun k entry he => ?_)
    (fun k hne => ?_) (fun c hcom _ => ?_)
  · exact (h.entries k entry (hentries _ _ he)).mono hx hread hinv
  · rw [hdb] at hne
    exact absurd rfl hne
  · rw [(hok.get hg).1] at hcom
    cases hcom

/-- The answer of now is an answer of the next moment's past. -/
theorem Fresh.answered_call {s : Service} (h : Fresh lower json s) {id : Nat}
    {f : Flight} {e : Effect} {r : e.Result} {app : App}
    {rest : Handler Response} {startedAt : Nat} (hstart : startedAt ≤ s.moment)
    {request : Request} {out : Outcome}
    (hp : Produces lower json s.app.backend.db request out) :
    Answered lower json (s.call id f e r app rest)
      (s.call id f e r app rest).moment startedAt request out := by
  have hx := call_extends s id f e r app rest
  have := hx.moment
  exact (h.answered_now hp).mono hx hstart (by omega)

theorem Fresh.step_lookup {s : Service} (h : Fresh lower json s) {id : Nat}
    {f : Flight} (hf : s.inFlight.get? id = some f)
    (hg : isGet f.request = true) {headers : List (StdString × StdString)}
    {k : CacheKey} (hk : cacheKey? f.request = some k)
    (hl : LeadsTo lower json f.request headers k) (clocks : Readings)
    (hok : CallInTime s clocks f (.cacheGet k.text)) :
    Fresh lower json (s.call id f (.cacheGet k.text)
      (s.app.cache.get k.text clocks.get).1
      { s.app with cache := (s.app.cache.get k.text clocks.get).2 }
      (afterGet json headers k (s.app.cache.get k.text clocks.get).1)) := by
  obtain ⟨hkept, hhit⟩ := get_cases s.app.cache k.text clocks.get
  refine h.call_get hf hg rfl rfl hkept rfl rfl ?_
  cases hget : (s.app.cache.get k.text clocks.get).1 with
  | none => exact .missed hk hl
  | some body =>
      obtain ⟨entry, he, rfl⟩ := hhit body hget
      have hin : HitInTime s f k.text := hok (by rw [hget]; rfl)
      have hx := call_extends s id f (.cacheGet k.text) (some entry.value)
        { s.app with cache := (s.app.cache.get k.text clocks.get).2 }
        (afterGet json headers k (some entry.value))
      have hmoment := hx.moment
      refine .done rfl fun m hm hconf hlt => ?_
      obtain ⟨c, n, db, hc, hcn, hn, hdb, hans⟩ :=
        h.hit hk (h.entries k entry he) hin hm hconf hlt
      exact ⟨c, n, db, hc, hcn, by omega, hx.past hdb,
        hl.produces_some hans "HIT"⟩

theorem Fresh.step_check {s : Service} (h : Fresh lower json s) {id : Nat}
    {f : Flight} (hf : s.inFlight.get? id = some f)
    (hg : isGet f.request = true) {key : StdString} {limit window : Int}
    {rest : RateLimitResult → Handler Response} {k : CacheKey}
    (hk : cacheKey? f.request = some k)
    (hhandle : handle json f.request = .op (.check key limit window) rest)
    (hrest : ∀ r, (∃ response : Response, response.status ≠ .ok ∧
        rest r = .pure response) ∨
      ∃ headers, rest r = lookup json headers k) (clocks : Readings) :
    let r := s.app.backend.limiter.check key limit window clocks.check
    Fresh lower json (s.call id f (.check key limit window) r.1
      { s.app with backend := { s.app.backend with limiter := r.2 } }
      (rest r.1)) := by
  intro r
  have hstart := (h.flights id f hf).started
  have hrun : ∀ db, (handle json f.request).run (callBackend lower clocks)
      ⟨db, s.app.backend.limiter⟩ =
      (rest r.1).run (callBackend lower clocks) ⟨db, r.2⟩ := by
    intro db
    rw [hhandle]
    rfl
  refine h.call_get hf hg rfl rfl (fun _ _ he => he) rfl rfl ?_
  rcases hrest r.1 with ⟨response, -, hr⟩ | ⟨headers, hr⟩
  · have hp : Produces lower json s.app.backend.db f.request (.ok response) :=
      ⟨s.app.backend.limiter, clocks, by rw [hrun, hr]; rfl⟩
    rw [hr]
    exact .done rfl (h.answered_call hstart.le hp)
  · have hl : LeadsTo lower json f.request headers k :=
      ⟨s.app.backend.limiter, r.2, clocks, fun db => by rw [hrun, hr]; rfl⟩
    rw [hr]
    exact .lookup hk hl

theorem Fresh.step_missed {s : Service} (h : Fresh lower json s) {id : Nat}
    {f : Flight} (hf : s.inFlight.get? id = some f)
    (hg : isGet f.request = true) {headers : List (StdString × StdString)}
    {k : CacheKey} (hk : cacheKey? f.request = some k)
    (hl : LeadsTo lower json f.request headers k) {e : Effect}
    {rest : e.Result → Handler Response}
    (hmiss : missPath json headers k = .op e rest) (clocks : Readings) :
    Fresh lower json (s.call id f e (callApp lower clocks e s.app).1
      (callApp lower clocks e s.app).2
      (rest (callApp lower clocks e s.app).1)) := by
  obtain ⟨hreads, happ, hnext⟩ := missPath_call hmiss clocks s.app
  have hstart := (h.flights id f hf).started
  have hx := call_extends s id f e (callApp lower clocks e s.app).1
    (callApp lower clocks e s.app).2 (rest (callApp lower clocks e s.app).1)
  have hquiet : commits e (callApp lower clocks e s.app).1 = false := by
    cases e <;> first | rfl | cases hreads
  refine h.call_get hf hg hquiet (by rw [happ])
    (by rw [happ]; exact fun _ _ h => h) ?_ ?_ ?_
  · cases e <;> first | rfl | cases hreads
  · cases e <;> first | rfl | cases hreads
  · rcases hnext with ⟨body, ttl, hans, hr⟩ | ⟨out, hout, hrun⟩
    · have hdb := call_history s id f e (callApp lower clocks e s.app).1
        (callApp lower clocks e s.app).2
        (rest (callApp lower clocks e s.app).1)
      rw [happ] at hdb
      rw [hr] at hdb ⊢
      rw [happ]
      refine .read hk hl ?_ hstart.le hdb hans
      simp only [Service.record, hreads, if_true]
    · exact .done hout (h.answered_call hstart.le
        (hl.produces fun clocks' limiter => hrun clocks' limiter))

theorem Fresh.step_store {s : Service} (h : Fresh lower json s) {id : Nat}
    {f : Flight} (hf : s.inFlight.get? id = some f)
    (hg : isGet f.request = true) {headers : List (StdString × StdString)}
    {k : CacheKey} {v : Nat} {db : Db} {body : StdString} {ttl : Int}
    (hk : cacheKey? f.request = some k)
    (hl : LeadsTo lower json f.request headers k) (hv : f.readAt = some v)
    (hlate : f.startedAt ≤ v) (hdb : s.history[v]? = some db)
    (hans : storageAnswer lower json db k = some body) (clocks : Readings)
    (hok : SetInTime s f) :
    Fresh lower json (s.call id f (.cacheSet k.text body ttl) ()
      { s.app with cache := s.app.cache.set k.text body ttl clocks.set }
      (.pure ⟨.ok, headers ++ [xCache "MISS"], body⟩)) := by
  have hx := call_extends s id f (.cacheSet k.text body ttl) ()
    { s.app with cache := s.app.cache.set k.text body ttl clocks.set }
    (.pure ⟨.ok, headers ++ [xCache "MISS"], body⟩)
  have hread : (s.call id f (.cacheSet k.text body ttl) ()
      { s.app with cache := s.app.cache.set k.text body ttl clocks.set }
      (.pure ⟨.ok, headers ++ [xCache "MISS"], body⟩)).entryRead =
      s.entryRead.set k.text v := by
    simp only [Service.call, hv]
  have hmoment := hx.moment
  have hflight := h.flights id f hf
  refine h.call hf (hflight.get_record hx hg rfl (.done rfl ?_))
    (fun k' entry he => ?_) (fun k' hne => absurd rfl hne) (fun c hcom _ => ?_)
  · intro m hm hconf hlt
    have hm' := h.finished m hm
    obtain ⟨c, hc⟩ := hm'.committed hconf
    have := (hm'.before c hc).1
    have := (List.getElem?_eq_some_iff.mp hdb).1
    change m.returnedAt < f.startedAt at hlt
    change v < s.moment at this
    exact ⟨c, v, db, hc, by omega, by omega, hx.past hdb,
      hl.produces_some hans "MISS"⟩
  · rw [ResponseCache.set, Assoc.get?_set] at he
    split at he
    · next heq =>
        -- The new entry has the date of the read.
        cases he
        obtain rfl := text_injective heq
        refine ⟨v, db, by rw [hread, Assoc.get?_set, if_pos rfl],
          hx.past hdb, hans, fun p hp hfam => ?_⟩
        exact hok v hv p hp (hfam.trans (familyOf_cacheKey hk).symm)
    · next hne =>
        obtain ⟨v', db', hv', hdb', hans', hdate⟩ := h.entries k' entry he
        exact ⟨v', db', by rw [hread, Assoc.get?_set, if_neg hne, hv'],
          hx.past hdb', hans', hdate⟩
  · rw [(hflight.get hg).1] at hcom
    cases hcom

/-! ## The calls of a mutation -/

theorem AfterWrite.cases {family : Family} {changed : Bool}
    {p : Handler Response} (h : AfterWrite family changed p) :
    (changed = true ∧ ∃ response : Response, success response.status = true ∧
      p = .op (.invalidatePrefix family.pre) fun _ => .pure response) ∨
    (changed = false ∧ ∃ out : Outcome, p.outcome? = some out ∧
      ∀ response, out = .ok response → success response.status = false) := by
  cases h with
  | done response hs => exact .inl ⟨rfl, response, hs, rfl⟩
  | refused response hs =>
      exact .inr ⟨rfl, _, rfl, fun _ h => by cases h; exact hs⟩
  | threw x => exact .inr ⟨rfl, _, rfl, nofun⟩

theorem Fresh.step_write {s : Service} (h : Fresh lower json s) {id : Nat}
    {f : Flight} (hf : s.inFlight.get? id = some f)
    (hg : isGet f.request = false) (hcom : f.committedAt = none)
    (hinv : f.invalidated = false) {e : Effect}
    (he : writes e = some (familyOf f.request))
    {rest : e.Result → Handler Response}
    (hafter : ∀ r, AfterWrite (familyOf f.request) (commits e r) (rest r))
    (clocks : Readings) :
    Fresh lower json (s.call id f e (callApp lower clocks e s.app).1
      (callApp lower clocks e s.app).2
      (rest (callApp lower clocks e s.app).1)) := by
  have hframe := callBackend_frame lower clocks he s.app.backend
  rw [callApp_write lower clocks he s.app]
  have hstart := (h.flights id f hf).started
  generalize callBackend lower clocks e s.app.backend = res at hframe ⊢
  obtain ⟨r, b⟩ := res
  dsimp only at hframe ⊢
  have hx := call_extends s id f e r { s.app with backend := b } (rest r)
  have hmoment := hx.moment
  have hquiet : (s.call id f e r { s.app with backend := b }
      (rest r)).entryRead = s.entryRead := by
    cases e <;> first | rfl | cases he
  have hsame : (s.call id f e r { s.app with backend := b }
      (rest r)).invalidations = s.invalidations := by
    cases e <;> first | rfl | cases he
  refine h.call hf ⟨?_, ?_, fun _ => ?_⟩ (fun k entry hk => ?_)
    (fun k hne => ?_) (fun c hc _ => ?_)
  · exact (Nat.lt_succ_of_lt hstart).trans_eq hmoment.symm
  · intro hg'
    rw [show isGet f.request = true from hg'] at hg
    cases hg
  · rcases (hafter r).cases with ⟨hc, response, hs, hr⟩ | ⟨hc, out, hout, hs⟩
    · rw [hr]
      refine .pending hs (c := s.moment) ?_ ?_
      · simp only [Service.record, hc, if_true]
      · exact (Nat.lt_succ_self _).trans_eq (hr ▸ hmoment).symm
    · refine .done hout (fun response hok hsucc => ?_) (fun c hcom' => ?_)
      · rw [hs response hok] at hsucc
        cases hsucc
      · simp only [Service.record, hc, hcom] at hcom'
        cases hcom'
  · exact (h.entries k entry hk).mono hx hquiet hsame
  · have hne' : ¬(k.family ≠ familyOf f.request ∨ commits e r = false) :=
      fun hk => hne (hframe.answer k hk)
    rw [not_or, not_not, Bool.not_eq_false] at hne'
    exact ⟨hne'.1, hne'.2, hinv⟩
  · rw [hcom] at hc
    cases hc

theorem Fresh.step_invalidate {s : Service} (h : Fresh lower json s) {id : Nat}
    {f : Flight} (hf : s.inFlight.get? id = some f)
    (hg : isGet f.request = false) {response : Response} {c : Nat}
    (hcom : f.committedAt = some c) (hlt : c < s.moment) :
    Fresh lower json (s.call id f
      (.invalidatePrefix (familyOf f.request).pre) ()
      { s.app with
        cache := s.app.cache.invalidatePrefix (familyOf f.request).pre }
      (.pure response)) := by
  have hx := call_extends s id f (.invalidatePrefix (familyOf f.request).pre) ()
    { s.app with
      cache := s.app.cache.invalidatePrefix (familyOf f.request).pre }
    (.pure response)
  have hstart := (h.flights id f hf).started
  have hmoment := hx.moment
  have hinv : (s.call id f (.invalidatePrefix (familyOf f.request).pre) ()
      { s.app with
        cache := s.app.cache.invalidatePrefix (familyOf f.request).pre }
      (.pure response)).invalidations =
      (familyOf f.request, c) :: s.invalidations := by
    simp only [Service.call, hcom]
  refine h.call hf ⟨?_, ?_, fun _ => ?_⟩ (fun k entry he => ?_)
    (fun k hne => absurd rfl hne) (fun c' hc' _ => .inr ?_)
  · exact (Nat.lt_succ_of_lt hstart).trans_eq hmoment.symm
  · intro hg'
    rw [show isGet f.request = true from hg'] at hg
    cases hg
  · refine .done rfl (fun _ _ _ => ⟨c, hcom⟩) (fun c' hc' => ?_)
    obtain rfl : c = c' := Option.some.inj (hcom.symm.trans hc')
    refine ⟨by omega, ?_⟩
    rw [hinv]
    exact List.mem_cons_self
  · -- What is left under this prefix was of another family.
    rw [ResponseCache.invalidatePrefix, Assoc.get?_eraseWhere,
      text_startsWith] at he
    split at he
    · cases he
    · next hne =>
        obtain ⟨v, db, hv, hdb, hans, hdate⟩ := h.entries k entry he
        refine ⟨v, db, hv, hx.past hdb, hans, fun p hp hfam => ?_⟩
        rw [hinv] at hp
        rcases List.mem_cons.mp hp with rfl | hp
        · simp [← hfam] at hne
        · exact hdate p hp hfam
  · obtain rfl : c = c' := Option.some.inj (hcom.symm.trans hc')
    rw [hinv]
    exact List.mem_cons_self

/-! ## Runs -/

theorem Fresh.start (b : Backend) : Fresh lower json (.start b) where
  now := ⟨[], rfl⟩
  entries _ _ h := by cases h
  changes n _ _ _ h := by cases h
  flights _ _ h := by cases h
  finished _ h := by cases h

theorem Fresh.step_get {s : Service} (h : Fresh lower json s) {id : Nat}
    {f : Flight} (hf : s.inFlight.get? id = some f)
    (hg : isGet f.request = true) {e : Effect}
    {rest : e.Result → Handler Response} (hrest : f.rest = .op e rest)
    (clocks : Readings) (hin : CallInTime s clocks f e) :
    Fresh lower json (s.call id f e (callApp lower clocks e s.app).1
      (callApp lower clocks e s.app).2
      (rest (callApp lower clocks e s.app).1)) := by
  have hstage := ((h.flights id f hf).get hg).2
  rw [hrest] at hstage
  generalize hp : Prog.op e rest = p at hstage
  cases hstage with
  | start =>
      have hshape := handle_get json hg
      generalize hk : cacheKey? f.request = key? at hshape
      generalize hq : handle json f.request = q at hshape hp
      cases hshape with
      | refused response hs => cases hp
      | lookup headers k =>
          cases hp
          exact h.step_lookup hf hg hk (leadsTo_lookup hq) clocks hin
      | limited k key limit window rest' hrest' =>
          cases hp
          exact h.step_check hf hg hk hq hrest' clocks
  | lookup hk hl =>
      cases hp
      exact h.step_lookup hf hg hk hl clocks hin
  | missed hk hl => exact h.step_missed hf hg hk hl hp.symm clocks
  | read hk hl hv hlate hdb hans =>
      cases hp
      exact h.step_store hf hg hk hl hv hlate hdb hans clocks hin
  | done hout _ =>
      cases hp
      cases hout

theorem Fresh.step_mutation {s : Service} (h : Fresh lower json s) {id : Nat}
    {f : Flight} (hf : s.inFlight.get? id = some f)
    (hg : isGet f.request = false) {e : Effect}
    {rest : e.Result → Handler Response} (hrest : f.rest = .op e rest)
    (clocks : Readings) :
    Fresh lower json (s.call id f e (callApp lower clocks e s.app).1
      (callApp lower clocks e s.app).2
      (rest (callApp lower clocks e s.app).1)) := by
  have hstage := (h.flights id f hf).mutation hg
  rw [hrest] at hstage
  generalize hp : Prog.op e rest = p at hstage
  cases hstage with
  | start hc hi =>
      have hshape := handle_mutation json hg
      generalize handle json f.request = q at hshape hp
      cases hshape with
      | refused response hs => cases hp
      | threw x => cases hp
      | write e' he rest' hafter =>
          cases hp
          exact h.step_write hf hg hc hi he hafter clocks
  | pending hs hc hlt =>
      cases hp
      exact h.step_invalidate hf hg hc hlt
  | done hout _ _ =>
      cases hp
      cases hout

theorem Fresh.step (s : Service) (event : ServiceEvent) (hok : InTime s event)
    (h : Fresh lower json s) :
    Fresh lower json (serviceStep lower json s event) := by
  cases event with
  | start id request =>
      simp only [serviceStep]
      split
      · exact h
      · next hf => exact h.arrive request hf
  | step id clocks =>
      simp only [serviceStep]
      split
      · exact h
      · next f hf =>
          have hin := hok f hf
          have hflight := h.flights id f hf
          split
          · next response hrest => exact h.finish hf (by rw [hrest]; rfl)
          · next x hrest => exact h.finish hf (by rw [hrest]; rfl)
          · next e k hrest =>
              rw [hrest] at hin
              cases hg : isGet f.request with
              | true => exact h.step_get hf hg hrest clocks hin
              | false => exact h.step_mutation hf hg hrest clocks

/-- A run whose calls are all in time misses no update. -/
theorem noMissedUpdate_of_inTime (lower : StdString → StdString)
    (json : UserverJson) (b : Backend) (events : List ServiceEvent)
    (hok : AllSteps (serviceStep lower json) InTime (.start b) events) :
    NoMissedUpdate lower json (service lower json b events) := by
  have h : Fresh lower json (service lower json b events) :=
    run_induction_of Fresh.step hok (Fresh.start b)
  intro g hg m hm hget hconf hlt
  obtain ⟨c, n, db, hc, hcn, hn, hdb, hp⟩ :=
    (h.finished g hg).answered hget m hm hconf hlt
  exact ⟨c, n, db, hc, hcn, Nat.le_of_lt_succ hn, hdb, hp⟩

/-! ## A run that is in time, and one that is not

`compactJson` prints what the handlers build; the requests here have no body,
so its reading half is never used.
-/

def escaped (c : UInt8) : StdString :=
  if c == 34 then bytes "\\\"" else if c == 92 then bytes "\\\\" else [c]

mutual

def compact : BuiltJson → StdString
  | .int n => toDecimal n
  | .str s => bytes "\"" ++ s.flatMap escaped ++ bytes "\""
  | .object fields => bytes "\x7b" ++ compactFields fields ++ bytes "\x7d"
  | .array items => bytes "[" ++ compactItems items ++ bytes "]"

def compactFields : List (StdString × BuiltJson) → StdString
  | [] => []
  | [field] => compactField field
  | field :: fields => compactField field ++ bytes "," ++ compactFields fields

def compactField : StdString × BuiltJson → StdString
  | (name, value) => bytes "\"" ++ name ++ bytes "\":" ++ compact value

def compactItems : List BuiltJson → StdString
  | [] => []
  | [item] => compact item
  | item :: items => compact item ++ bytes "," ++ compactItems items

end

def compactJson : UserverJson where
  Value := Unit
  fromString _ := .error (bytes "no document")
  member _ _ := .error (bytes "no member")
  asString _ := .error (bytes "no string")
  asInt _ := .error (bytes "no integer")
  toString := compact

/-- A driver on a ride. -/
def oneRide : Backend :=
  ⟨reach [.createUser (bytes "ann") (bytes "pw") (bytes "Ann"),
    .createUser (bytes "bob") (bytes "pw") (bytes "Bob"),
    .createDriver 2 (bytes "Kia") (bytes "A1") (bytes "L1"),
    .createRide 1 (bytes "here") (bytes "there") 0, .acceptRide 1 1], .empty⟩

def noon : Readings := ⟨0, 0, 0, 0⟩

/-- Read, complete, read again, one after the other. -/
theorem noMissedUpdate_in_turn :
    NoMissedUpdate id compactJson (service id compactJson oneRide
      [.start 0 (.ridesGet (bytes "1") []), .step 0 noon, .step 0 noon,
        .step 0 noon, .step 0 noon, .start 1 (.ridesComplete (bytes "1")),
        .step 1 noon, .step 1 noon, .step 1 noon,
        .start 2 (.ridesGet (bytes "1") []), .step 2 noon, .step 2 noon,
        .step 2 noon, .step 2 noon]) :=
  noMissedUpdate_of_inTime _ _ _ _ (by decide +kernel)

/-- The first read is held up between its storage read and its write to the
cache, and the ride is completed meanwhile. -/
def lateWrite : List ServiceEvent :=
  [.start 0 (.ridesGet (bytes "1") []), .step 0 noon, .step 0 noon,
    .start 1 (.ridesComplete (bytes "1")), .step 1 noon, .step 1 noon,
    .step 1 noon, .step 0 noon, .start 2 (.ridesGet (bytes "1") []),
    .step 2 noon, .step 2 noon]

/-- The history with the ride not completed yet. -/
def staleBody : StdString :=
  compact (.array ((getRidesByUserId 1 oneRide.db).map makeRideJson))

/-- A read that answers `200` answers what storage does. -/
theorem produces_ok {request : Request}
    (hl : handle json request = lookup json headers k) {db : Db}
    {out : Outcome} {body : StdString}
    (hout : Outcome.answer out = .ok (.ok, body))
    (h : Produces lower json db request out) :
    storageAnswer lower json db k = some body := by
  obtain ⟨limiter, clocks, h⟩ := h
  have hrun : (handle json request).run (callBackend lower clocks)
      ⟨db, limiter⟩ = (missPath json headers k).run (callBackend lower clocks)
        ⟨db, limiter⟩ := by
    rw [hl]
    rfl
  rw [hrun, hout] at h
  rcases missPath_cases lower json clocks headers k ⟨⟨db, limiter⟩, .empty⟩ with
    ⟨body', ttl, hans, -, hmiss⟩ | ⟨out', -, hne, -, hmiss⟩
  · rw [hmiss] at h
    cases h
    exact hans
  · rw [hmiss] at h
    exact absurd h (hne body)

/-- The read that starts after the confirmation is answered from the cache
with the ride still accepted. -/
theorem lateWrite_misses_update :
    ¬ ∀ (lower : StdString → StdString) (json : UserverJson) (b : Backend)
      (events : List ServiceEvent),
      NoMissedUpdate lower json (service lower json b events) := by
  intro h
  have hg : ∃ g ∈ (service id compactJson oneRide lateWrite).finished,
      g.request = .ridesGet (bytes "1") [] ∧ g.startedAt = 9 ∧
        Outcome.answer g.outcome = .ok (.ok, staleBody) := by decide +kernel
  have hm : ∃ m ∈ (service id compactJson oneRide lateWrite).finished,
      confirmed m = true ∧ m.returnedAt < 9 ∧ m.committedAt = some 5 := by
    decide +kernel
  have hlate :
      ∀ db ∈ (service id compactJson oneRide lateWrite).history.drop 5,
      storageAnswer id compactJson db (.history (bytes "1")) ≠ some staleBody := by
    decide +kernel
  obtain ⟨g, hg, hreq, hstart, hout⟩ := hg
  obtain ⟨m, hm, hconf, hret, hcom⟩ := hm
  obtain ⟨c, n, db, hc, hcn, -, hdb, hp⟩ :=
    h id compactJson oneRide lateWrite g hg m hm (by rw [hreq]; rfl) hconf
      (by omega)
  rw [hcom] at hc
  cases hc
  rw [hreq] at hp
  have hhandle : handle compactJson (.ridesGet (bytes "1") []) =
      lookup compactJson [contentType] (.history (bytes "1")) :=
    ridesLookup_history compactJson 49 [] [contentType]
  refine hlate db ?_ (produces_ok hhandle hout hp)
  rw [show n = 5 + (n - 5) by omega, ← List.getElem?_drop] at hdb
  exact List.mem_of_getElem? hdb

end TaxiService.Proofs
