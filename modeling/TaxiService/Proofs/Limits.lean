import Mathlib.Data.List.Induction
import TaxiService.Lib.Cells
import TaxiService.Lib.Windows
import TaxiService.Proofs.Limiter
import TaxiService.Spec.Limits

/-!
# The limiter and its history

A call by a caller that is not interrupted is a locked section that comes in
order, so what was proved of these holds of each key: its bucket counts the
calls granted in its window (`Granted`). With a clock that does not go back,
the window of the bucket is never later than that of the next call (`Behind`).

Seconds and windows of seconds are floors of readings, so two calls on a key
are in one window exactly when their `window_start` is the same.
-/

namespace TaxiService.Proofs

open TaxiService.Lib TaxiService.Model TaxiService.Spec FixedWindowRateLimiter

variable (limits : Limits)

/-! ## Windows -/

theorem windowStartOf_second {call : CheckCall} (h : 0 ≤ call.now)
    (window : Int) :
    windowStartOf window call.now = window * (call.second / window) := by
  rw [windowStartOf, nowSeconds, Int.tdiv_eq_ediv_of_nonneg h,
    Int.tdiv_eq_ediv_of_nonneg (Int.ediv_nonneg h (by decide)), Int.mul_comm]
  rfl

theorem windowStartOf_mono {window : Int} (hw : 1 ≤ window) {a b : Ticks}
    (ha : 0 ≤ a) (h : a ≤ b) :
    windowStartOf window a ≤ windowStartOf window b := by
  have hs : 0 < ticksPerSecond := by decide
  rw [windowStartOf, windowStartOf, nowSeconds, nowSeconds,
    Int.tdiv_eq_ediv_of_nonneg ha, Int.tdiv_eq_ediv_of_nonneg (ha.trans h),
    Int.tdiv_eq_ediv_of_nonneg (Int.ediv_nonneg ha hs.le),
    Int.tdiv_eq_ediv_of_nonneg (Int.ediv_nonneg (ha.trans h) hs.le)]
  exact Int.mul_le_mul_of_nonneg_right (Int.ediv_le_ediv (by omega)
    (Int.ediv_le_ediv hs h)) (by omega)

/-! ## The locked section -/

theorem checkLocked_result (key : StdString) (limit window : Int)
    (l : FixedWindowRateLimiter) (ws : Int) {n : Int}
    (hn : (if (l.bucket key).windowStart ≠ ws then 0
      else (l.bucket key).count) = n) :
    (checkLocked key limit window ws l).1 =
      if n < limit then ⟨true, limit, limit - (n + 1), ws + window⟩
      else ⟨false, limit, 0, ws + window⟩ := by
  have hb : (if (l.bucket key).windowStart ≠ ws then ⟨ws, 0⟩
      else l.bucket key : Bucket).count = n := by
    rw [← hn]
    split <;> rfl
  simp only [checkLocked, hb]
  by_cases hlt : n < limit
  · rw [if_neg (by omega), if_pos hlt]
  · rw [if_pos (by omega), if_neg hlt]

theorem bucket_checkLocked_other {key key' : StdString} (h : key ≠ key')
    (limit window ws : Int) (l : FixedWindowRateLimiter) :
    (checkLocked key limit window ws l).2.bucket key' = l.bucket key' := by
  simp only [checkLocked]
  split <;> split <;> simp [bucket, h]

/-! ## The run -/

theorem limited_concat (calls : List CheckCall) (call : CheckCall) :
    limited limits (calls ++ [call]) =
      limiterStep limits (limited limits calls) call := run_concat ..

theorem finished_calls (calls : List CheckCall) :
    (limited limits calls).finished.map Prod.fst = calls.reverse := by
  induction calls using List.reverseRecOn with
  | nil => rfl
  | append_singleton calls call ih =>
      rw [limited_concat, List.reverse_append]
      exact congrArg (call :: ·) ih

/-- The finished calls on one key, as the calls of one limiter. -/
def finishedOn (key : StdString)
    (finished : List (CheckCall × RateLimitResult)) :
    List (Ticks × RateLimitResult) :=
  finished.filterMap fun p =>
    if p.1.key = key then some (p.1.now, p.2) else none

/-- Each key with its bucket and its calls is a limiter of its own, and no
bucket is ahead of the clock. -/
structure Tracks (calls : List CheckCall) : Prop where
  granted : ∀ key, Granted key (limits.limit key) (limits.window key)
    ⟨(limited limits calls).limiter, [],
      finishedOn key (limited limits calls).finished⟩
  behind : ∀ key t, 0 ≤ t → (∀ call ∈ calls, call.now ≤ t) →
    ((limited limits calls).limiter.bucket key).windowStart ≤
      windowStartOf (limits.window key) t

/-- What is known of a bucket is known of the same bucket in another
limiter. -/
theorem Granted.of_bucket {key : StdString} {limit window : Int}
    {l l' : FixedWindowRateLimiter} {finished : List (Ticks × RateLimitResult)}
    (h : Granted key limit window ⟨l, [], finished⟩)
    (hb : l'.bucket key = l.bucket key) :
    Granted key limit window ⟨l', [], finished⟩ := by
  constructor
  case start => rw [hb]; exact h.start
  case count => rw [hb]; exact h.count
  case bound => exact h.bound
  case later => rw [hb]; exact h.later
  case first => exact h.first

variable {limits} (hl : ∀ key, 0 ≤ limits.limit key)
  (hw : ∀ key, 1 ≤ limits.window key) {calls : List CheckCall}

include hw

include hl in
theorem tracks_init : Tracks limits [] where
  granted key := Granted.init (hl key)
  behind key t ht _ := Int.mul_nonneg (Int.tdiv_nonneg
    (Int.tdiv_nonneg ht (by decide)) (by have := hw key; omega))
    (by have := hw key; omega)

theorem tracks_concat {call : CheckCall} (h : Tracks limits calls)
    (hnow : 0 ≤ call.now) (hlast : ∀ c ∈ calls, c.now ≤ call.now) :
    Tracks limits (calls ++ [call]) := by
  have hbehind := h.behind call.key call.now hnow hlast
  constructor
  case granted =>
    intro key
    rw [limited_concat]
    by_cases hk : call.key = key
    · subst hk
      have hfinished : finishedOn call.key (limiterStep limits
          (limited limits calls) call).finished =
          (call.now, (checkCall limits (limited limits calls) call).1) ::
            finishedOn call.key (limited limits calls).finished := by
        simp [finishedOn, limiterStep]
      rw [hfinished]
      exact @Granted.lock call.key _ _ _ (h.granted call.key) 0 _ hbehind
    · have hsame : finishedOn key (limiterStep limits (limited limits calls)
          call).finished = finishedOn key (limited limits calls).finished := by
        simp [finishedOn, limiterStep, hk]
      rw [hsame]
      exact (h.granted key).of_bucket (bucket_checkLocked_other hk ..)
  case behind =>
    intro key t ht hcalls
    rw [List.forall_mem_append, List.forall_mem_singleton] at hcalls
    rw [limited_concat]
    by_cases hk : call.key = key
    · subst hk
      have hbucket := (checkLocked_bucket call.key (limits.limit call.key)
        (limits.window call.key) (limited limits calls).limiter
        (windowStartOf (limits.window call.key) call.now)).2
      show ((checkLocked ..).2.bucket call.key).windowStart ≤ _
      rw [hbucket]
      exact windowStartOf_mono (hw _) hnow hcalls.2
    · have hother := bucket_checkLocked_other hk
      exact (congrArg Bucket.windowStart (hother ..)).trans_le
        (h.behind key t ht hcalls.1)

include hl in
/-- The clock readings of a run: none before the epoch, none going back. -/
theorem tracks_of_clock (hnow : ∀ call ∈ calls, 0 ≤ call.now)
    (hclock : calls.Pairwise (·.now ≤ ·.now)) : Tracks limits calls := by
  induction calls using List.reverseRecOn with
  | nil => exact tracks_init hl hw
  | append_singleton calls call ih =>
      rw [List.forall_mem_append, List.forall_mem_singleton] at hnow
      rw [List.pairwise_append] at hclock
      exact tracks_concat hw (ih hnow.1 hclock.1) hnow.2 fun c hc =>
        hclock.2.2 c hc call List.mem_cons_self

/-- The calls of a window of seconds are those with its `window_start`. -/
theorem grantedAt_eq (hnow : ∀ call ∈ calls, 0 ≤ call.now) {call : CheckCall}
    (hcall : 0 ≤ call.now) :
    grantedAt (limits.window call.key)
      (windowStartOf (limits.window call.key) call.now)
      ⟨(limited limits calls).limiter, [],
        finishedOn call.key (limited limits calls).finished⟩ =
      grantedBefore limits calls call := by
  rw [grantedAt, finishedOn, List.countP_filterMap, grantedBefore]
  refine List.countP_congr fun p hp => ?_
  have hmem : p.1 ∈ calls := by
    rw [← List.mem_reverse, ← finished_calls limits calls]
    exact List.mem_map_of_mem hp
  by_cases hk : p.1.key = call.key
  · rw [if_pos hk]
    simp only [Option.map_some, Option.getD_some, Bool.and_eq_true,
      decide_eq_true_eq, hk, true_and]
    rw [windowStartOf_second (hnow p.1 hmem), windowStartOf_second hcall,
      same_window_iff (hw _)]
    rfl
  · simp [hk]

/-! ## One call -/

theorem windowOf_le (call : CheckCall) : windowOf limits call ≤ call.second ∧
    call.second < windowOf limits call + limits.window call.key :=
  (same_window_iff (hw _) call.second call.second).mp rfl

/-- The result of a call, by how many were granted before it. -/
theorem answer_eq {call : CheckCall} (h : Tracks limits calls)
    (hnow : ∀ c ∈ calls, 0 ≤ c.now) (hcall : 0 ≤ call.now)
    (hlast : ∀ c ∈ calls, c.now ≤ call.now) :
    answer limits calls call =
      if (grantedBefore limits calls call : Int) < limits.limit call.key then
        ⟨true, limits.limit call.key,
          limits.limit call.key - (grantedBefore limits calls call + 1),
          windowOf limits call + limits.window call.key⟩
      else ⟨false, limits.limit call.key, 0,
        windowOf limits call + limits.window call.key⟩ := by
  have hfrom := (h.granted call.key).count_from
    (h.behind call.key call.now hcall hlast)
  rw [grantedAt_eq hw hnow hcall] at hfrom
  rw [answer, checkCall, check, checkLocked_result _ _ _ _ _ hfrom,
    windowStartOf_second hcall]
  rfl

omit hw in
/-- A call whose window is a later one than all those before it. -/
theorem grantedBefore_eq_zero {call : CheckCall}
    (h : ∀ c ∈ calls, c.key = call.key → c.second < windowOf limits call) :
    grantedBefore limits calls call = 0 := by
  rw [grantedBefore, List.countP_eq_zero]
  intro p hp hin
  rw [decide_eq_true_eq] at hin
  have hmem : p.1 ∈ calls := by
    rw [← List.mem_reverse, ← finished_calls limits calls]
    exact List.mem_map_of_mem hp
  have := h p.1 hmem hin.1
  omega

/-- At the reset of a refused call nothing has been granted yet. -/
theorem allowedAfterReset (h : ∀ earlier later, calls = earlier ++ later →
      Tracks limits earlier) (hnow : ∀ c ∈ calls, 0 ≤ c.now)
    (hclock : calls.Pairwise (·.now ≤ ·.now)) {call : CheckCall}
    (hcall : 0 ≤ call.now) (hlast : ∀ c ∈ calls, c.now ≤ call.now) :
    AllowedAfterReset limits calls call := by
  rintro earlier refused between rfl hkey hrefused hreset hbetween hpos
  rw [List.pairwise_append, List.pairwise_cons] at hclock
  have hearlier : ∀ c ∈ earlier, c.now ≤ refused.now := fun c hc =>
    hclock.2.2 c hc refused List.mem_cons_self
  have hrefusedAnswer := answer_eq hw (h earlier _ rfl)
    (fun c hc => hnow c (List.mem_append_left _ hc)) (hnow refused (by simp))
    hearlier
  have hat : (answer limits earlier refused).resetEpochSeconds =
      windowOf limits refused + limits.window refused.key := by
    rw [hrefusedAnswer]
    split <;> rfl
  rw [hat, hkey] at hreset hbetween
  have hwindow := windowOf_le hw refused
  have hnext : windowOf limits refused + limits.window call.key ≤
      windowOf limits call := by
    have hle := le_window (k := refused.second / limits.window call.key + 1)
      (hw call.key) (t := call.second)
    rw [Int.mul_add, Int.mul_one] at hle
    rw [windowOf, windowOf, hkey] at *
    exact hle hreset
  have hzero : grantedBefore limits (earlier ++ refused :: between) call = 0 := by
    refine grantedBefore_eq_zero fun c hc hck => ?_
    rw [List.mem_append, List.mem_cons] at hc
    rcases hc with hc | rfl | hc
    · have hsecond : c.second ≤ refused.second :=
        Int.ediv_le_ediv (by decide) (hearlier c hc)
      rw [hkey] at hwindow
      omega
    · rw [hkey] at hwindow
      omega
    · have := hbetween c hc hck
      omega
  rw [answer_eq hw (h _ [] (List.append_nil _).symm) hnow hcall hlast, hzero,
    if_pos (by simpa using hpos)]

omit hw

/-! ## One key -/

/-- The bucket of a key after a call on it. -/
def bucketAfter (limit window : Int) (now : Ticks) (b : Bucket) : Bucket :=
  let n := if b.windowStart ≠ windowStartOf window now then 0 else b.count
  ⟨windowStartOf window now, if n < limit then n + 1 else n⟩

theorem buckets_independent (limits : Limits) :
    Independent (limiterStep limits) (fun _ => True)
      (fun s key => s.limiter.bucket key)
      (fun call key => decide (call.key = key))
      (fun key b call => bucketAfter (limits.limit key) (limits.window key)
        call.now b) where
  keeps _ _ _ := trivial
  moves s call key _ := by
    simp only [decide_eq_true_eq]
    split
    · next hk =>
        subst hk
        exact (checkLocked_bucket ..).2
    · next hk => exact bucket_checkLocked_other hk ..

/-- The calls on other keys do not change the result. -/
theorem answer_filter (limits : Limits) (calls : List CheckCall)
    (call : CheckCall) : answer limits calls call =
      answer limits (calls.filter fun c => c.key = call.key) call := by
  have hbucket := (buckets_independent limits).cell_filter call.key calls
    (s := .start) trivial
  rw [answer, checkCall, check, checkLocked_result _ _ _ _ _ rfl, answer,
    checkCall, check, checkLocked_result _ _ _ _ _ rfl, limited, limited, hbucket]

/-! ## Any interval -/

theorem mem_finishedOn {key : StdString} {p : Ticks × RateLimitResult}
    (h : p ∈ finishedOn key (limited limits calls).finished) :
    ∃ call ∈ calls, call.now = p.1 := by
  obtain ⟨q, hq, h⟩ := List.mem_filterMap.mp h
  split at h
  · cases h
    refine ⟨q.1, ?_, rfl⟩
    rw [← List.mem_reverse, ← finished_calls limits calls]
    exact List.mem_map_of_mem hq
  · cases h

/-- No window of readings is granted more than the limit. -/
theorem allowed_in_window (h : Tracks limits calls)
    (hw : ∀ key, 1 ≤ limits.window key) (hnow : ∀ call ∈ calls, 0 ≤ call.now)
    (key : StdString) (k : Int) :
    ((finishedOn key (limited limits calls).finished).countP fun p =>
      p.2.allowed && decide (p.1 / (limits.window key * ticksPerSecond) = k) :
        Int) ≤ limits.limit key := by
  refine Int.le_trans (Int.ofNat_le.mpr (List.countP_mono_left
    fun p hp hcount => ?_)) ((h.granted key).bound (k * limits.window key))
  simp only [Bool.and_eq_true, decide_eq_true_eq] at hcount ⊢
  obtain ⟨call, hcall, heq⟩ := mem_finishedOn hp
  have hs : 0 < limits.window key * ticksPerSecond :=
    Int.mul_pos (hw key) (by decide)
  have hin := (Int.ediv_eq_iff_of_pos hs).mp hcount.2
  exact ⟨hcount.1, windowStartOf_nonneg (hw key) (heq ▸ hnow call hcall)
    ⟨by linarith, by linarith⟩⟩

theorem allowed_in_interval (h : Tracks limits calls)
    (hw : ∀ key, 1 ≤ limits.window key) (hnow : ∀ call ∈ calls, 0 ≤ call.now)
    (key : StdString) (lo : Ticks) :
    (allowedBetween limits calls key lo
      (lo + limits.window key * ticksPerSecond) : Int) ≤
      2 * limits.limit key := by
  have hs : 0 < limits.window key * ticksPerSecond :=
    Int.mul_pos (hw key) (by decide)
  have hle := countP_interval_le hs Prod.fst (fun p => p.2.allowed)
    (finishedOn key (limited limits calls).finished)
    (allowed_in_window h hw hnow key) lo
  rw [finishedOn, List.countP_filterMap] at hle
  refine Int.le_trans (Int.ofNat_le.mpr (List.countP_mono_left
    fun p _ hp => ?_)) hle
  rw [decide_eq_true_eq] at hp
  simp [hp]

/-! ## The limiter -/

/-- With a clock that does not go back, every call is answered by its history,
and no interval as long as the window of its key has more than twice the limit
of allowed calls. -/
theorem limiter_conforms (limits : Limits) (hl : ∀ key, 0 ≤ limits.limit key)
    (hw : ∀ key, 1 ≤ limits.window key) (calls : List CheckCall)
    (hnow : ∀ call ∈ calls, 0 ≤ call.now)
    (hclock : calls.Pairwise (·.now ≤ ·.now)) :
    (∀ before call after, calls = before ++ call :: after →
      Conforms limits before call) ∧
    ∀ key lo, (allowedBetween limits calls key lo
      (lo + limits.window key * ticksPerSecond) : Int) ≤
        2 * limits.limit key := by
  refine ⟨?_, allowed_in_interval (tracks_of_clock hl hw hnow hclock) hw hnow⟩
  rintro before call after rfl
  rw [List.forall_mem_append, List.forall_mem_cons] at hnow
  rw [List.pairwise_append] at hclock
  have hlast : ∀ c ∈ before, c.now ≤ call.now := fun c hc =>
    hclock.2.2 c hc call List.mem_cons_self
  have htracks : ∀ earlier later, before = earlier ++ later →
      Tracks limits earlier := by
    rintro earlier later rfl
    rw [List.pairwise_append] at hclock
    exact tracks_of_clock hl hw
      (fun c hc => hnow.1 c (List.mem_append_left _ hc)) hclock.1.1
  have heq := answer_eq hw (htracks before [] (List.append_nil _).symm) hnow.1
    hnow.2.1 hlast
  have hwindow := windowOf_le hw call
  have hlimit := hl call.key
  constructor
  case allowed =>
    rw [heq]
    split
    · next h => simp [h]
    · next h => simp [h]
  case remaining =>
    rw [heq]
    split <;> rfl
  case bounds =>
    rw [heq]
    split <;> dsimp only <;> omega
  case reset =>
    rw [heq]
    split <;> dsimp only <;> omega
  case retry =>
    exact allowedAfterReset hw htracks hnow.1 hclock.1 hnow.2.1 hlast
  case others =>
    exact answer_filter limits before call

/-- The limit of the active rides, used with every key. -/
def perMinute : Limits := ⟨fun _ => 100, fun _ => 60⟩

/-- Calls of the endpoint at the end of a minute and at the start of the
next. -/
def minuteCalls : List CheckCall :=
  [59, 59, 60].map fun second =>
    ⟨bytes "GET:/rides?status=active", second * ticksPerSecond⟩

theorem limiter_conforms_minute :
    (∀ before call after, minuteCalls = before ++ call :: after →
      Conforms perMinute before call) ∧
    ∀ key lo, (allowedBetween perMinute minuteCalls key lo
      (lo + perMinute.window key * ticksPerSecond) : Int) ≤
        2 * perMinute.limit key :=
  limiter_conforms perMinute (fun _ => show (0 : Int) ≤ 100 by decide)
    (fun _ => show (1 : Int) ≤ 60 by decide) minuteCalls (by decide)
    (by decide)

end TaxiService.Proofs
