import Mathlib.Algebra.Order.Ring.Int
import Mathlib.Tactic.Linarith
import TaxiService.Model.Performance

/-!
# Concurrent calls of the rate limiter

A bucket remembers one window. A call whose window is another one starts the
bucket again at zero, whether its window is later or earlier. Earlier is
possible, because the clock is read before the lock: a caller that read it at
the end of a window and was held up takes the bucket back to that window, and
the next caller starts the current one again from zero. So a window can be
granted its limit several times over.

As long as no call takes the bucket back, the count of the bucket is the
number of calls granted in its window, and no other window is granted
anything any more. That is the invariant here (`Granted`), and the step
condition is exactly that the bucket does not go back (`InOrder`).
-/

namespace TaxiService.Proofs

open TaxiService.Lib TaxiService.Model FixedWindowRateLimiter

variable {key : StdString} {limit window : Int}

/-- The call about to lock does not take its bucket back to an earlier
window. -/
def InOrder (key : StdString) (window : Int) (s : Checks) : CheckEvent → Prop
  | .read _ _ => True
  | .lock caller => ∀ now ∈ s.reading.get? caller,
      (s.limiter.bucket key).windowStart ≤ windowStartOf window now

instance (s : Checks) : ∀ e, Decidable (InOrder key window s e)
  | .read _ _ => inferInstanceAs (Decidable True)
  | .lock caller => inferInstanceAs
      (Decidable (∀ now ∈ s.reading.get? caller, _))

/-- How many calls were allowed for one value of `window_start`. -/
def grantedAt (window start : Int) (s : Checks) : Nat :=
  s.finished.countP fun p =>
    p.2.allowed && decide (windowStartOf window p.1 = start)

structure Granted (key : StdString) (limit window : Int) (s : Checks) :
    Prop where
  start : 0 ≤ (s.limiter.bucket key).windowStart
  count : grantedAt window (s.limiter.bucket key).windowStart s =
    (s.limiter.bucket key).count
  bound : ∀ start, (grantedAt window start s : Int) ≤ limit
  later : ∀ start, (s.limiter.bucket key).windowStart < start →
    grantedAt window start s = 0
  first : ∀ p ∈ s.finished, 0 ≤ windowStartOf window p.1

theorem Granted.init (hl : 0 ≤ limit) :
    Granted key limit window Checks.start where
  start := Int.le_refl 0
  count := rfl
  bound _ := hl
  later _ _ := rfl
  first _ hp := by cases hp

/-- The critical section, by cases: what it answers and the bucket it
leaves. -/
theorem checkLocked_bucket (key : StdString) (limit window : Int)
    (l : FixedWindowRateLimiter) (ws : Int) :
    let b := l.bucket key
    let n := if b.windowStart ≠ ws then 0 else b.count
    let res := checkLocked key limit window ws l
    (res.1.allowed = true ↔ n < limit) ∧
      res.2.bucket key = ⟨ws, if n < limit then n + 1 else n⟩ := by
  intro b n res
  have hb : (if b.windowStart ≠ ws then ⟨ws, 0⟩ else b : Bucket) = ⟨ws, n⟩ := by
    simp only [n]
    split
    · rfl
    · next h =>
        rw [not_not] at h
        rw [← h]
  simp only [res, checkLocked, show l.bucket key = b from rfl, hb]
  by_cases hn : n < limit
  · rw [if_neg (by omega), if_pos hn]
    exact ⟨by simp [hn], by simp [bucket]⟩
  · rw [if_pos (by omega), if_neg hn]
    exact ⟨by simp [hn], by simp [bucket]⟩

theorem grantedAt_cons (window : Int) (s : Checks) (l : FixedWindowRateLimiter)
    (reading : Assoc Nat Ticks) (now : Ticks) (res : RateLimitResult)
    (start : Int) :
    grantedAt window start ⟨l, reading, (now, res) :: s.finished⟩ =
      grantedAt window start s +
        if res.allowed = true ∧ windowStartOf window now = start then 1
        else 0 := by
  simp only [grantedAt, List.countP_cons, Bool.and_eq_true, decide_eq_true_eq]

/-- In a locked section that does not take the bucket back, the count it
starts from is the number of calls granted in its window. -/
theorem Granted.count_from {s : Checks} (h : Granted key limit window s)
    {ws : Int} (hle : (s.limiter.bucket key).windowStart ≤ ws) :
    (if (s.limiter.bucket key).windowStart ≠ ws then 0
      else (s.limiter.bucket key).count) = grantedAt window ws s := by
  by_cases heq : (s.limiter.bucket key).windowStart = ws
  · rw [if_neg (by simp [heq]), ← heq]
    exact h.count.symm
  · rw [if_pos heq, h.later ws (by omega)]
    rfl

theorem Granted.lock {s : Checks} (h : Granted key limit window s)
    {caller : Nat} {now : Ticks}
    (hle : (s.limiter.bucket key).windowStart ≤ windowStartOf window now) :
    Granted key limit window
      ⟨(checkLocked key limit window (windowStartOf window now) s.limiter).2,
        s.reading.erase caller,
        (now, (checkLocked key limit window (windowStartOf window now)
          s.limiter).1) :: s.finished⟩ := by
  obtain ⟨hallowed, hbucket⟩ := checkLocked_bucket key limit window
    s.limiter (windowStartOf window now)
  have hfrom := h.count_from hle
  have h0 := h.start
  rw [hfrom] at hallowed hbucket
  -- Only the window of this call gains a granted call.
  have hcons := fun start => grantedAt_cons window s
    (checkLocked key limit window (windowStartOf window now) s.limiter).2
    (s.reading.erase caller) now
    (checkLocked key limit window (windowStartOf window now) s.limiter).1 start
  simp only [hallowed] at hcons
  have hbound := h.bound (windowStartOf window now)
  constructor
  case start =>
    rw [hbucket]
    show 0 ≤ windowStartOf window now
    omega
  case count =>
    rw [hbucket, hcons]
    simp only [and_true]
    split <;> omega
  case bound =>
    intro start
    rw [hcons]
    have hstart := h.bound start
    by_cases heq : windowStartOf window now = start
    · subst heq
      simp only [and_true]
      split <;> omega
    · rw [if_neg (by simp [heq])]
      omega
  case later =>
    intro start hlt
    rw [hbucket] at hlt
    change windowStartOf window now < start at hlt
    rw [hcons, h.later start (by omega), if_neg (by omega)]
  case first =>
    intro p hp
    rcases List.mem_cons.1 hp with rfl | hp
    · show 0 ≤ windowStartOf window now
      omega
    · exact h.first p hp

theorem Granted.step (s : Checks) (e : CheckEvent)
    (hok : InOrder key window s e) (h : Granted key limit window s) :
    Granted key limit window (checkStep key limit window s e) := by
  cases e with
  | read caller now =>
      simp only [checkStep]
      split <;> exact ⟨h.start, h.count, h.bound, h.later, h.first⟩
  | lock caller =>
      simp only [checkStep]
      split
      · exact h
      · next now hr => exact h.lock (hok now hr)

theorem granted_checks (hl : 0 ≤ limit) {events : List CheckEvent}
    (hok : AllSteps (checkStep key limit window) (InOrder key window) .start
      events) :
    Granted key limit window (checks key limit window events) :=
  run_induction_of Granted.step hok (Granted.init hl)

/-! ## Windows of readings

The division of C++ truncates, so a reading before the epoch is put into
window zero. Such a reading never gets past a bucket that keeps its order,
and for the others a window is one value of `window_start`.
-/

theorem tdiv_nonpos {a b : Int} (ha : a ≤ 0) (hb : 0 ≤ b) : a.tdiv b ≤ 0 := by
  have h := Int.tdiv_nonneg (show 0 ≤ -a by omega) hb
  rw [Int.neg_tdiv] at h
  omega

theorem windowStartOf_nonpos {now : Ticks} (hw : 1 ≤ window) (h : now < 0) :
    windowStartOf window now ≤ 0 :=
  Int.mul_nonpos_of_nonpos_of_nonneg
    (tdiv_nonpos (tdiv_nonpos h.le (by decide)) (by omega)) (by omega)

theorem windowStartOf_nonneg {k : Int} {now : Ticks} (hw : 1 ≤ window)
    (h : 0 ≤ now) (hin : InWindow window k now) :
    windowStartOf window now = k * window := by
  have hs : 0 < ticksPerSecond * window := Int.mul_pos (by decide) (by omega)
  have hk : now / (ticksPerSecond * window) = k := by
    obtain ⟨hlo, hhi⟩ := hin
    rw [Int.ediv_eq_iff_of_pos hs]
    constructor
    · linarith
    · linarith
  rw [windowStartOf, nowSeconds, Int.tdiv_eq_ediv_of_nonneg h,
    Int.tdiv_eq_ediv_of_nonneg (Int.ediv_nonneg h (by decide)),
    Int.ediv_ediv_of_nonneg (by decide), hk]

theorem windowStartOf_eq {k : Int} {now : Ticks} (hw : 1 ≤ window)
    (h0 : 0 ≤ windowStartOf window now) (hin : InWindow window k now) :
    windowStartOf window now = max 0 k * window := by
  have hs : 0 < window * ticksPerSecond :=
    Int.mul_pos (by omega) (by decide)
  obtain ⟨hlo, hhi⟩ := hin
  rw [Int.mul_assoc] at hlo hhi
  rcases Int.lt_or_le now 0 with hneg | hpos
  · have hk : k < 0 := by
      by_contra hk
      have := Int.mul_nonneg (show 0 ≤ k by omega) hs.le
      omega
    rw [Int.max_eq_left hk.le, Int.zero_mul]
    exact Int.le_antisymm (windowStartOf_nonpos hw hneg) h0
  · have hk : 0 ≤ k := by
      by_contra hk
      have := Int.mul_nonpos_of_nonpos_of_nonneg
        (show k + 1 ≤ 0 by omega) hs.le
      linarith
    rw [Int.max_eq_right hk]
    exact windowStartOf_nonneg hw hpos
      ⟨by rwa [Int.mul_assoc], by rwa [Int.mul_assoc]⟩

/-- In a run that never takes the bucket of the key back, no window is
granted more than the limit. -/
theorem allowed_at_most_limit (hl : 0 ≤ limit) (hw : 1 ≤ window)
    (events : List CheckEvent)
    (hok : AllSteps (checkStep key limit window) (InOrder key window) .start
      events) (k : Int) :
    (allowedIn window k (checks key limit window events) : Int) ≤ limit := by
  have h := granted_checks hl hok
  have hle : allowedIn window k (checks key limit window events) ≤
      grantedAt window (max 0 k * window)
        (checks key limit window events) := by
    refine List.countP_mono_left fun p hp hcount => ?_
    simp only [Bool.and_eq_true, decide_eq_true_eq] at hcount ⊢
    exact ⟨hcount.1, windowStartOf_eq hw (h.first p hp) hcount.2⟩
  have := h.bound (max 0 k * window)
  omega

/-- A hundred calls of one caller, all with the same reading. -/
def burst (caller : Nat) (now : Ticks) : List CheckEvent :=
  (List.replicate 100 [.read caller now, .lock caller]).flatten

theorem allowed_at_most_limit_burst :
    (allowedIn 60 1 (checks (bytes "GET:/rides?status=active") 100 60
      (burst 1 (60 * ticksPerSecond) ++ burst 1 (61 * ticksPerSecond))) : Int)
      ≤ 100 :=
  allowed_at_most_limit (by decide) (by decide) _ (by decide +kernel) 1

/-- A caller reads the clock at 59 s and is held up until a hundred calls of
the next window are through. Its locked section takes the bucket back, and
that window is granted a hundred calls more. -/
theorem window_granted_twice :
    ¬ ∀ (key : StdString) (limit window : Int) (events : List CheckEvent),
      0 ≤ limit → 1 ≤ window → ClockMonotone events →
      ∀ k, (allowedIn window k (checks key limit window events) : Int) ≤
        limit := by
  intro h
  have := h (bytes "GET:/rides?status=active") 100 60
    (.read 0 (59 * ticksPerSecond) :: burst 1 (60 * ticksPerSecond) ++
      .lock 0 :: burst 1 (60 * ticksPerSecond))
    (by decide) (by decide) (by decide +kernel) 1
  revert this
  decide +kernel

end TaxiService.Proofs
