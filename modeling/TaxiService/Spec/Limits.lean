import TaxiService.Model.Performance

/-!
# What the limiter grants

Calls of `Check` that are executed one at a time, on any keys, each key with a
limit and a window of its own. A call is judged by the history alone
(`Conforms`): by how many calls on its key were allowed before in the window of
whole seconds that its own second lies in. The buckets are no part of this.
-/

namespace TaxiService.Spec

open TaxiService.Lib TaxiService.Model FixedWindowRateLimiter

structure CheckCall where
  key : StdString
  now : Ticks
  deriving DecidableEq, Repr

/-- The second a call is made in. -/
def CheckCall.second (call : CheckCall) : Int := call.now / ticksPerSecond

/-- The limit and the window, in seconds, each key is used with. -/
structure Limits where
  limit : StdString → Int
  window : StdString → Int

/-- The limiter, and the finished calls with their results, latest first. -/
structure LimiterRun where
  limiter : FixedWindowRateLimiter
  finished : List (CheckCall × RateLimitResult)

def LimiterRun.start : LimiterRun := ⟨.empty, []⟩

variable (limits : Limits)

def checkCall (s : LimiterRun) (call : CheckCall) :
    RateLimitResult × FixedWindowRateLimiter :=
  check call.key (limits.limit call.key) (limits.window call.key) call.now
    s.limiter

def limiterStep (s : LimiterRun) (call : CheckCall) : LimiterRun :=
  ⟨(checkCall limits s call).2, (call, (checkCall limits s call).1) :: s.finished⟩

/-- The run of some calls on a limiter without buckets. -/
def limited (calls : List CheckCall) : LimiterRun :=
  run (limiterStep limits) .start calls

/-- The result of a call that comes after others. -/
def answer (before : List CheckCall) (call : CheckCall) : RateLimitResult :=
  (checkCall limits (limited limits before) call).1

/-- The first second of the window of a call. -/
def windowOf (call : CheckCall) : Int :=
  limits.window call.key * (call.second / limits.window call.key)

/-- How many calls on the key of this one were allowed in its window before. -/
def grantedBefore (before : List CheckCall) (call : CheckCall) : Nat :=
  (limited limits before).finished.countP fun p => decide
    (p.1.key = call.key ∧ p.2.allowed = true ∧
      windowOf limits call ≤ p.1.second ∧
      p.1.second < windowOf limits call + limits.window call.key)

/-- If the call is the first on its key that comes at or after the reset of a
refused one, it is allowed. -/
def AllowedAfterReset (before : List CheckCall) (call : CheckCall) : Prop :=
  ∀ earlier refused between, before = earlier ++ refused :: between →
    refused.key = call.key → (answer limits earlier refused).allowed = false →
    (answer limits earlier refused).resetEpochSeconds ≤ call.second →
    (∀ other ∈ between, other.key = call.key →
      other.second < (answer limits earlier refused).resetEpochSeconds) →
    0 < limits.limit call.key → (answer limits before call).allowed = true

/-- The result of a call, by the calls before it. -/
structure Conforms (before : List CheckCall) (call : CheckCall) : Prop where
  allowed : (answer limits before call).allowed = true ↔
    (grantedBefore limits before call : Int) < limits.limit call.key
  remaining : (answer limits before call).remaining =
    if (answer limits before call).allowed then
      limits.limit call.key - (grantedBefore limits before call + 1)
    else 0
  bounds : 0 ≤ (answer limits before call).remaining ∧
    (answer limits before call).remaining ≤ limits.limit call.key
  reset : call.second < (answer limits before call).resetEpochSeconds ∧
    (answer limits before call).resetEpochSeconds ≤
      call.second + limits.window call.key
  retry : AllowedAfterReset limits before call
  others : answer limits before call =
    answer limits (before.filter fun other => other.key = call.key) call

/-- How many calls on a key were allowed from one reading of the clock to
another. -/
def allowedBetween (calls : List CheckCall) (key : StdString) (lo hi : Ticks) :
    Nat :=
  (limited limits calls).finished.countP fun p => decide
    (p.1.key = key ∧ p.2.allowed = true ∧ lo ≤ p.1.now ∧ p.1.now < hi)

end TaxiService.Spec
