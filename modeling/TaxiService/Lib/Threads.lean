import Mathlib.Data.List.Basic
import Mathlib.Data.List.Induction
import TaxiService.Lib.Prog
import TaxiService.Lib.Run

/-!
# Programs that run side by side

A server handles many requests at the same time: each is the rest of its
program, and a step makes one call of one of them on the state they share. Any
order of steps is an order (`ThreadEvent`), and `trace` writes down which call
was made, by whom and with which answer.

What one thread does is a matter of its program alone, whatever answers it
gets. `Along` says it: a property of every call the program can come to, given
the calls it has made, and one of what it ends in. It has the rules of a
program logic. `run_along` takes it to any interleaving.

What the threads do to each other goes through the shared state, and that is
what the calls of the trace have made of it (`run_replay`).
-/

namespace TaxiService.Lib

variable {ι κ σ E E' : Type} {R : E → Type} {R' : E' → Type} {ε ε' α β : Type}

/-- The calls of a program so far, with their answers. -/
abbrev Past (E : Type) (R : E → Type) := List ((e : E) × R e)

namespace Prog

/-! ## What a program can come to -/

/-- Every call the program can come to is one that `P` allows after the calls
before it, and `Q` holds of what it ends in. -/
def Along (P : Past E R → E → Prop) (Q : Past E R → Except ε α → Prop) :
    Past E R → Prog E R ε α → Prop
  | past, .pure a => Q past (.ok a)
  | past, .throw x => Q past (.error x)
  | past, .op e k => P past e ∧ ∀ r, Along P Q (past ++ [⟨e, r⟩]) (k r)

variable {P P' : Past E R → E → Prop} {past : Past E R}

theorem Along.imp {p : Prog E R ε α} {Q Q' : Past E R → Except ε α → Prop}
    (h : p.Along P Q past) (hP : ∀ past e, P past e → P' past e)
    (hQ : ∀ past out, Q past out → Q' past out) : p.Along P' Q' past := by
  induction p generalizing past with
  | pure a => exact hQ _ _ h
  | throw x => exact hQ _ _ h
  | op e k ih => exact ⟨hP _ _ h.1, fun r => ih r (h.2 r)⟩

theorem along_bind {p : Prog E R ε α} {f : α → Prog E R ε β}
    {Q : Past E R → Except ε α → Prop} {Q' : Past E R → Except ε β → Prop}
    (h : p.Along P Q past)
    (hok : ∀ past a, Q past (.ok a) → (f a).Along P Q' past)
    (herror : ∀ past x, Q past (.error x) → Q' past (.error x)) :
    (p >>= f).Along P Q' past := by
  induction p generalizing past with
  | pure a => exact hok _ a h
  | throw x => exact herror _ x h
  | op e k ih => exact ⟨h.1, fun r => ih r (h.2 r)⟩

theorem along_tryCatch {p : Prog E R ε α} {f : ε → Prog E R ε' α}
    {Q : Past E R → Except ε α → Prop} {Q' : Past E R → Except ε' α → Prop}
    (h : p.Along P Q past)
    (hok : ∀ past a, Q past (.ok a) → Q' past (.ok a))
    (herror : ∀ past x, Q past (.error x) → (f x).Along P Q' past) :
    (p.tryCatch f).Along P Q' past := by
  induction p generalizing past with
  | pure a => exact hok _ a h
  | throw x => exact herror _ x h
  | op e k ih => exact ⟨h.1, fun r => ih r (h.2 r)⟩

theorem along_ofExcept {x : Except ε α} {Q : Past E R → Except ε α → Prop}
    (h : Q past x) : (ofExcept x : Prog E R ε α).Along P Q past := by
  cases x <;> exact h

/-! ## A program among more calls -/

/-- The program with its calls as some of the calls there are. -/
def embed (f : E → E') (g : ∀ e, R' (f e) → R e) :
    Prog E R ε α → Prog E' R' ε α
  | .pure a => .pure a
  | .throw x => .throw x
  | .op e k => .op (f e) fun r => (k (g e r)).embed f g

variable {f : E → E'} {g : ∀ e, R' (f e) → R e}

/-- What holds along the program holds along it among more calls, of the calls
that correspond. -/
theorem Along.embed {p : Prog E R ε α} {P : Past E R → E → Prop}
    {Q : Past E R → Except ε α → Prop} {P' : Past E' R' → E' → Prop}
    {Q' : Past E' R' → Except ε α → Prop} {past : Past E R} {past' : Past E' R'}
    {rel : Past E R → Past E' R' → Prop} (h : p.Along P Q past)
    (hrel : rel past past')
    (hnext : ∀ past past' e r, rel past past' →
      rel (past ++ [⟨e, g e r⟩]) (past' ++ [⟨f e, r⟩]))
    (hP : ∀ past past' e, rel past past' → P past e → P' past' (f e))
    (hQ : ∀ past past' out, rel past past' → Q past out → Q' past' out) :
    (p.embed f g).Along P' Q' past' := by
  induction p generalizing past past' with
  | pure a => exact hQ _ _ _ hrel h
  | throw x => exact hQ _ _ _ hrel h
  | op e k ih =>
      exact ⟨hP _ _ _ hrel h.1, fun r => ih _ (h.2 _) (hnext _ _ _ _ hrel)⟩

end Prog

/-! ## Threads -/

/-- A request that is being handled. -/
structure Thread (ι E : Type) (R : E → Type) (ε α : Type) where
  request : ι
  rest : Prog E R ε α

/-- One call: who made it, what came in with it, and the answer. -/
structure Traced (κ E : Type) (R : E → Type) where
  thread : Nat
  input : κ
  effect : E
  answer : R effect

structure Threads (ι κ σ E : Type) (R : E → Type) (ε α : Type) where
  shared : σ
  threads : List (Thread ι E R ε α)
  trace : List (Traced κ E R)

/-- A request comes in, or a thread makes its next call. -/
inductive ThreadEvent (ι κ : Type) where
  | start (request : ι)
  | step (thread : Nat) (input : κ)

namespace Threads

def start (s : σ) : Threads ι κ σ E R ε α := ⟨s, [], []⟩

variable (body : ι → Prog E R ε α) (interp : κ → (e : E) → σ → R e × σ)

/-- A thread that is done, or is not there, makes no step. -/
def step (s : Threads ι κ σ E R ε α) :
    ThreadEvent ι κ → Threads ι κ σ E R ε α
  | .start request =>
      { s with threads := s.threads ++ [⟨request, body request⟩] }
  | .step i input =>
      match s.threads[i]? with
      | some ⟨request, .op e k⟩ =>
          { shared := (interp input e s.shared).2
            threads := s.threads.set i
              ⟨request, k (interp input e s.shared).1⟩
            trace := s.trace ++
              [⟨i, input, e, (interp input e s.shared).1⟩] }
      | _ => s

/-- The threads after some events, beginning with none. -/
def after (s : σ) (events : List (ThreadEvent ι κ)) :
    Threads ι κ σ E R ε α := run (step body interp) (start s) events

/-- The requests that came in, in their order. -/
def requests (s : Threads ι κ σ E R ε α) : List ι :=
  s.threads.map Thread.request

/-- The calls of one thread. -/
def pastOf (i : Nat) (trace : List (Traced κ E R)) : Past E R :=
  trace.filterMap fun x => if x.thread = i then some ⟨x.effect, x.answer⟩
    else none

/-- What the calls of a trace make of the state. -/
def replay (s : σ) (trace : List (Traced κ E R)) : σ :=
  trace.foldl (fun s x => (interp x.input x.effect s).2) s

variable {body interp}

@[simp] theorem pastOf_nil (i : Nat) :
    pastOf i ([] : List (Traced κ E R)) = [] := rfl

theorem pastOf_append (i : Nat) (trace more : List (Traced κ E R)) :
    pastOf i (trace ++ more) = pastOf i trace ++ pastOf i more :=
  List.filterMap_append

theorem pastOf_own (x : Traced κ E R) :
    pastOf x.thread [x] = [⟨x.effect, x.answer⟩] := by simp [pastOf]

theorem pastOf_other {i : Nat} {x : Traced κ E R} (h : x.thread ≠ i) :
    pastOf i [x] = [] := by simp [pastOf, h]

theorem mem_pastOf {i : Nat} {trace : List (Traced κ E R)}
    {y : (e : E) × R e} : y ∈ pastOf i trace ↔
      ∃ x ∈ trace, x.thread = i ∧ ⟨x.effect, x.answer⟩ = y := by
  simp only [pastOf, List.mem_filterMap]
  refine exists_congr fun x => and_congr_right fun _ => ?_
  split
  · next h => simp [h]
  · next h => simp [h]

theorem replay_concat (s : σ) (trace : List (Traced κ E R))
    (x : Traced κ E R) : replay interp s (trace ++ [x]) =
      (interp x.input x.effect (replay interp s trace)).2 := by
  rw [replay, List.foldl_append]
  rfl

theorem after_concat (s : σ) (events : List (ThreadEvent ι κ))
    (event : ThreadEvent ι κ) : after body interp s (events ++ [event]) =
      step body interp (after body interp s events) event :=
  run_concat _ _ _ _

theorem requests_start (s : Threads ι κ σ E R ε α) (request : ι) :
    (step body interp s (.start request)).requests = s.requests ++ [request] :=
  List.map_append

theorem requests_set {threads : List (Thread ι E R ε α)} {i : Nat}
    {request : ι} {p : Prog E R ε α} (h : threads[i]? = some ⟨request, p⟩)
    (q : Prog E R ε α) : (threads.set i ⟨request, q⟩).map Thread.request =
      threads.map Thread.request := by
  obtain ⟨hlt, hth⟩ := List.getElem?_eq_some_iff.mp h
  rw [List.map_set]
  have hlen : i < (threads.map Thread.request).length := by simpa using hlt
  have hreq : (threads.map Thread.request)[i] = request := by
    rw [List.getElem_map, hth]
  conv_lhs => rw [← hreq]
  exact List.set_getElem_self _

variable (body interp) in
/-- A step that does something is a call of a thread that is there. -/
theorem step_cases (s : Threads ι κ σ E R ε α) (i : Nat) (input : κ) :
    step body interp s (.step i input) = s ∨
    ∃ request e k, s.threads[i]? = some ⟨request, .op e k⟩ ∧
      step body interp s (.step i input) =
        { shared := (interp input e s.shared).2
          threads := s.threads.set i
            ⟨request, k (interp input e s.shared).1⟩
          trace := s.trace ++
            [⟨i, input, e, (interp input e s.shared).1⟩] } := by
  rw [step]
  split
  · next request e k hi => exact .inr ⟨request, e, k, hi, rfl⟩
  · exact .inl rfl

/-! ## What holds in every interleaving -/

/-- `C` holds of every entry of a list and of those before it. -/
def Stepwise {τ : Type} (C : List τ → τ → Prop) (l : List τ) : Prop :=
  ∀ before x later, l = before ++ x :: later → C before x

theorem stepwise_nil {τ : Type} (C : List τ → τ → Prop) : Stepwise C [] := by
  intro before x later h
  simp at h

theorem Stepwise.concat {τ : Type} {C : List τ → τ → Prop} {l : List τ} {a : τ}
    (h : Stepwise C l) (ha : C l a) : Stepwise C (l ++ [a]) := by
  intro before x later heq
  rcases later.eq_nil_or_concat with rfl | ⟨later, b, rfl⟩
  · obtain ⟨rfl, hx⟩ := List.append_inj' heq rfl
    cases hx
    exact ha
  · rw [List.concat_eq_append, ← List.cons_append, ← List.append_assoc] at heq
    exact h before x later (List.append_inj' heq rfl).1

/-- Every thread is on its way through a body that does as `Along` says, and so
is every call of the trace. -/
structure Follows (P : ι → Past E R → E → Prop)
    (Q : ι → Past E R → Except ε α → Prop) (s : Threads ι κ σ E R ε α) :
    Prop where
  threads : ∀ (i : Nat) (th : Thread ι E R ε α), s.threads[i]? = some th →
    th.rest.Along (P th.request) (Q th.request) (pastOf i s.trace)
  fresh : ∀ i : Nat, s.threads.length ≤ i → pastOf i s.trace = []
  calls : Stepwise (fun before x => ∃ request,
    s.requests[x.thread]? = some request ∧
      P request (pastOf x.thread before) x.effect) s.trace

variable {P : ι → Past E R → E → Prop} {Q : ι → Past E R → Except ε α → Prop}

theorem follows_start (s : σ) :
    Follows P Q (start s : Threads ι κ σ E R ε α) where
  threads i th h := by cases h
  fresh i _ := rfl
  calls := stepwise_nil _

theorem Follows.start {s : Threads ι κ σ E R ε α} (h : Follows P Q s)
    (request : ι) (hbody : (body request).Along (P request) (Q request) []) :
    Follows P Q (step body interp s (.start request)) where
  threads i th hi := by
    change (s.threads ++ [⟨request, body request⟩])[i]? = some th at hi
    rw [List.getElem?_append] at hi
    split at hi
    · exact h.threads i th hi
    · next hlen =>
        have hpast : pastOf i s.trace = [] := h.fresh i (Nat.le_of_not_lt hlen)
        rw [List.getElem?_singleton] at hi
        split at hi
        · cases hi
          exact hpast.symm ▸ hbody
        · cases hi
  fresh i hi := by
    simp only [step, List.length_append] at hi
    exact h.fresh i (by omega)
  calls before x later heq := by
    obtain ⟨request', hreq, hP⟩ := h.calls before x later heq
    refine ⟨request', ?_, hP⟩
    rw [requests_start, List.getElem?_append_left
      (List.getElem?_eq_some_iff.mp hreq).1, hreq]

theorem Follows.call {s : Threads ι κ σ E R ε α} (h : Follows P Q s) {j : Nat}
    {request : ι} {e : E} {k : R e → Prog E R ε α}
    (hj : s.threads[j]? = some ⟨request, .op e k⟩) (input : κ) (r : R e)
    (shared : σ) : Follows P Q (⟨shared, s.threads.set j ⟨request, k r⟩,
      s.trace ++ [⟨j, input, e, r⟩]⟩ : Threads ι κ σ E R ε α) := by
  have halong := h.threads j _ hj
  have hlt : j < s.threads.length := (List.getElem?_eq_some_iff.mp hj).1
  have hreq : (s.threads.set j ⟨request, k r⟩).map Thread.request =
      s.requests := requests_set hj _
  refine ⟨fun i th hi => ?_, fun i hi => ?_, Stepwise.concat
    (fun before x later heq => ?_) ⟨request, ?_, halong.1⟩⟩
  · change (s.threads.set j ⟨request, k r⟩)[i]? = some th at hi
    rw [pastOf_append]
    rw [List.getElem?_set] at hi
    split at hi
    · next hij =>
        subst hij
        cases hi
        rw [pastOf_own ⟨j, input, e, r⟩]
        exact halong.2 r
    · next hij =>
        rw [pastOf_other (x := ⟨j, input, e, r⟩) hij, List.append_nil]
        exact h.threads i th hi
  · change (s.threads.set j ⟨request, k r⟩).length ≤ i at hi
    rw [List.length_set] at hi
    have hij : j ≠ i := by omega
    rw [pastOf_append, h.fresh i hi,
      pastOf_other (x := ⟨j, input, e, r⟩) hij]
    rfl
  · obtain ⟨request', hx, hP⟩ := h.calls before x later heq
    refine ⟨request', ?_, hP⟩
    rw [requests, hreq, hx]
  · rw [requests, hreq, requests, List.getElem?_map, hj]
    rfl

theorem Follows.step {s : Threads ι κ σ E R ε α} (h : Follows P Q s)
    (hbody : ∀ request, (body request).Along (P request) (Q request) [])
    (event : ThreadEvent ι κ) :
    Follows P Q (step body interp s event) := by
  cases event with
  | start request => exact h.start request (hbody request)
  | step j input =>
      rcases step_cases body interp s j input with hs | ⟨request, e, k, hj, hs⟩
      · rw [hs]
        exact h
      · rw [hs]
        exact h.call hj input _ _

/-- What holds along every body holds of every thread and of every call, in
any interleaving. -/
theorem run_along
    (hbody : ∀ request, (body request).Along (P request) (Q request) [])
    (s : σ) (events : List (ThreadEvent ι κ)) :
    Follows P Q (after body interp s events) :=
  run_induction (fun _ event h => h.step hbody event) (follows_start s)

/-- A thread that is done ended in what `Along` says. -/
theorem Follows.outcome {s : Threads ι κ σ E R ε α} (h : Follows P Q s)
    {i : Nat} {th : Thread ι E R ε α} {out : Except ε α}
    (hi : s.threads[i]? = some th) (hout : th.rest.outcome? = some out) :
    Q th.request (pastOf i s.trace) out := by
  have halong := h.threads i th hi
  cases hrest : th.rest with
  | pure a =>
      rw [hrest] at halong hout
      cases hout
      exact halong
  | throw x =>
      rw [hrest] at halong hout
      cases hout
      exact halong
  | op e k =>
      rw [hrest] at hout
      cases hout

/-- A thread that has made no call has all of its body before it. -/
theorem run_fresh (s : σ) (events : List (ThreadEvent ι κ)) (i : Nat)
    (th : Thread ι E R ε α)
    (hi : (after body interp s events).threads[i]? = some th)
    (hpast : pastOf i (after body interp s events).trace = []) :
    th.rest = body th.request := by
  induction events using List.reverseRecOn generalizing th with
  | nil => cases hi
  | append_singleton events event ih =>
      rw [after_concat] at hi hpast
      cases event with
      | start request =>
          change (_ ++ [_])[i]? = some th at hi
          rw [List.getElem?_append] at hi
          split at hi
          · exact ih th hi hpast
          · rw [List.getElem?_singleton] at hi
            split at hi
            · cases hi
              rfl
            · cases hi
      | step j input =>
          rcases step_cases body interp (after body interp s events) j input with
            hs |
            ⟨request, e, k, hj, hs⟩
          · rw [hs] at hi hpast
            exact ih th hi hpast
          · rw [hs] at hi hpast
            dsimp only at hi hpast
            rw [pastOf_append, List.append_eq_nil_iff] at hpast
            have hij : j ≠ i := by
              rintro rfl
              have hnil := hpast.2
              rw [pastOf_own ⟨j, input, e, _⟩] at hnil
              cases hnil
            rw [List.getElem?_set_ne hij] at hi
            exact ih th hi hpast.1

/-! ## The shared state -/

/-- The shared state is what the calls of the trace made of it, and every
answer was given in the state the calls before it had left. -/
structure Replays (interp : κ → (e : E) → σ → R e × σ) (s₀ : σ)
    (s : Threads ι κ σ E R ε α) : Prop where
  shared : s.shared = replay interp s₀ s.trace
  answers : Stepwise (fun before x => x.answer =
    (interp x.input x.effect (replay interp s₀ before)).1) s.trace

theorem Replays.step {s₀ : σ} {s : Threads ι κ σ E R ε α}
    (h : Replays interp s₀ s) (event : ThreadEvent ι κ) :
    Replays interp s₀ (step body interp s event) := by
  cases event with
  | start request => exact ⟨h.shared, h.answers⟩
  | step j input =>
      rcases step_cases body interp s j input with hs | ⟨request, e, k, hj, hs⟩
      · rw [hs]
        exact h
      · rw [hs]
        refine ⟨?_, h.answers.concat ?_⟩
        · rw [replay_concat, ← h.shared]
        · rw [← h.shared]

theorem run_replay (s : σ) (events : List (ThreadEvent ι κ)) :
    Replays interp s (after body interp s events) :=
  run_induction (fun _ event h => h.step event) ⟨rfl, stepwise_nil _⟩

/-- What every call keeps, given its answer, holds after every beginning of the
trace. -/
theorem Replays.induction {s₀ : σ} {s : Threads ι κ σ E R ε α}
    (h : Replays interp s₀ s) {I : σ → List (Traced κ E R) → Prop}
    (hstart : I s₀ []) (hcall : ∀ t trace x, I t trace →
      x.answer = (interp x.input x.effect t).1 →
      I (interp x.input x.effect t).2 (trace ++ [x]))
    {before after : List (Traced κ E R)} (heq : s.trace = before ++ after) :
    I (replay interp s₀ before) before := by
  induction before using List.reverseRecOn generalizing after with
  | nil => exact hstart
  | append_singleton before x ih =>
      rw [List.append_assoc] at heq
      rw [replay_concat]
      exact hcall _ _ x (ih heq) (h.answers before x after heq)

/-! ## Going on -/

/-- The second state comes later: the threads are there with their requests,
and the trace goes on. -/
structure Later (s t : Threads ι κ σ E R ε α) : Prop where
  trace : s.trace <+: t.trace
  requests : s.requests <+: t.requests

variable (body interp) in
theorem later_step (s : Threads ι κ σ E R ε α) (event : ThreadEvent ι κ) :
    Later s (step body interp s event) := by
  cases event with
  | start request =>
      refine ⟨List.prefix_refl _, ?_⟩
      rw [requests_start]
      exact List.prefix_append _ _
  | step j input =>
      rcases step_cases body interp s j input with hs | ⟨request, e, k, hj, hs⟩
      · rw [hs]
        exact ⟨List.prefix_refl _, List.prefix_refl _⟩
      · rw [hs]
        have hsame : (step body interp s (.step j input)).requests =
            s.requests := by
          rw [hs, requests, requests_set hj, requests]
        rw [hs] at hsame
        exact ⟨List.prefix_append _ _, hsame.symm ▸ List.prefix_refl _⟩

variable (body interp) in
theorem later_run (s : σ) (events more : List (ThreadEvent ι κ)) :
    Later (after body interp s events)
      (after body interp s (events ++ more)) := by
  rw [after, after, run_append]
  refine run_induction (P := Later (run (Threads.step body interp) (start s)
    events)) (fun t event h => ?_) ⟨List.prefix_refl _, List.prefix_refl _⟩
  have hnext := later_step body interp t event
  exact ⟨h.trace.trans hnext.trace, h.requests.trans hnext.requests⟩

variable (body interp) in
/-- The requests are those that came in. -/
theorem requests_run (s : Threads ι κ σ E R ε α)
    (events : List (ThreadEvent ι κ)) {request : ι}
    (h : request ∈ (run (step body interp) s events).requests) :
    request ∈ s.requests ∨ .start request ∈ events := by
  induction events using List.reverseRecOn with
  | nil => exact .inl h
  | append_singleton events event ih =>
      rw [run_concat] at h
      cases event with
      | start request' =>
          rw [requests_start, List.mem_append, List.mem_singleton] at h
          rcases h with h | rfl
          · exact (ih h).imp_right (List.mem_append_left _)
          · exact .inr (List.mem_append_right _ (List.mem_singleton_self _))
      | step j input =>
          refine (ih ?_).imp_right (List.mem_append_left _)
          rcases step_cases body interp (run (Threads.step body interp) s events)
            j input with hs | ⟨request', e, k, hj, hs⟩
          · rw [hs] at h
            exact h
          · rw [hs, requests, requests_set hj] at h
            exact h

/-! ## One thread alone -/

theorem set_same {s : Threads ι κ σ E R ε α} {i : Nat}
    {th : Thread ι E R ε α} (hi : s.threads[i]? = some th) :
    (⟨s.shared, s.threads.set i th, s.trace ++ []⟩ : Threads ι κ σ E R ε α) =
      s := by
  obtain ⟨hlt, hth⟩ := List.getElem?_eq_some_iff.mp hi
  rw [← hth, List.set_getElem_self, List.append_nil]

variable (body interp) in
/-- A thread that is the only one to move comes to its end, and leaves what its
program leaves when nothing comes between its calls. -/
theorem run_alone {s : Threads ι κ σ E R ε α} {i : Nat} {request : ι}
    {p : Prog E R ε α} (hi : s.threads[i]? = some ⟨request, p⟩) (input : κ) :
    ∃ n more, (∀ x ∈ more, x.thread = i) ∧
      run (step body interp) s (List.replicate n (.step i input)) =
        ⟨(p.run (interp input) s.shared).2, s.threads.set i
          ⟨request, .ofExcept (p.run (interp input) s.shared).1⟩,
          s.trace ++ more⟩ := by
  induction p generalizing s with
  | pure a =>
      refine ⟨0, [], fun x hx => absurd hx List.not_mem_nil, ?_⟩
      exact (set_same hi).symm
  | throw x =>
      refine ⟨0, [], fun x hx => absurd hx List.not_mem_nil, ?_⟩
      exact (set_same hi).symm
  | op e k ih =>
      have hstep : step body interp s (.step i input) =
          ⟨(interp input e s.shared).2,
            s.threads.set i ⟨request, k (interp input e s.shared).1⟩,
            s.trace ++ [⟨i, input, e, (interp input e s.shared).1⟩]⟩ := by
        rw [step, hi]
      obtain ⟨n, more, hmore, hrun⟩ := ih (interp input e s.shared).1
        (s := step body interp s (.step i input)) (by
          rw [hstep]
          exact List.getElem?_set_self (List.getElem?_eq_some_iff.mp hi).1)
      refine ⟨n + 1, ⟨i, input, e, (interp input e s.shared).1⟩ :: more, ?_, ?_⟩
      · intro x hx
        rcases List.mem_cons.mp hx with rfl | hx
        · rfl
        · exact hmore x hx
      · rw [List.replicate_succ, run_cons, hrun, hstep]
        dsimp only
        rw [List.set_set, List.append_assoc]
        rfl

end Threads

end TaxiService.Lib
