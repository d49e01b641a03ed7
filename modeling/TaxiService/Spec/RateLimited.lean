import TaxiService.Spec.Limits
import TaxiService.Spec.ServedReads

/-!
# A hundred requests a minute

What the limiter is for, from the side of the server: in no minute of the
clock, more than a hundred requests for the active rides get to the cache or to
storage, however many come in and in whatever order their calls are made
(`RateLimited`). It needs a clock that does not go back from one check to the
next (`ChecksForward`); with one that does, the limiter forgets what it granted.
-/

namespace TaxiService.Spec

open TaxiService.Lib TaxiService.Model

/-- The check of `GET /rides?status=active`. -/
def activeCheck : ServerEffect :=
  .app (.check (bytes "GET:/rides?status=active") kActiveRidesLimitPerMinute 60)

/-- Is the call one to the limiter, and was it granted? -/
def granted? : (e : ServerEffect) → e.Result → Option Bool
  | .app (.check ..), result => some result.allowed
  | _, _ => none

/-- The call is about the list of the active rides. -/
def OnActive : ServerEffect → Prop
  | .app (.cacheGet key) => key = CacheKey.active.text
  | .app (.cacheSet key ..) => key = CacheKey.active.text
  | .app .getActiveRides => True
  | _ => False

/-- The readings of the limiter's clock, in the order of the checks. -/
def checkReadings (trace : List ServerCall) : List Ticks :=
  trace.filterMap fun x => (granted? x.effect x.answer).map fun _ =>
    x.input.clocks.check

/-- The limiter's clock does not go back. -/
def ChecksForward (trace : List ServerCall) : Prop :=
  (∀ now ∈ checkReadings trace, 0 ≤ now) ∧
    (checkReadings trace).Pairwise (· ≤ ·)

/-- The minute a reading lies in. -/
def minuteOf (now : Ticks) : Int := now / (60 * ticksPerSecond)

/-- The request got to the list, by a check in this minute. -/
def ServedIn (trace : List ServerCall) (minute : Int) (i : Nat) : Prop :=
  ∃ check x, List.Sublist [check, x] trace ∧ check.thread = i ∧ x.thread = i ∧
    granted? check.effect check.answer = some true ∧
    minuteOf check.input.clocks.check = minute ∧ OnActive x.effect

/-- What a refused request is told. -/
def TooMany (response : HttpResponse) : Prop :=
  response.code = 429 ∧ (bytes "Retry-After", bytes "60") ∈ response.headers

structure RateLimited (s : ServerRun) : Prop where
  check : ∀ before x after, s.trace = before ++ x :: after →
    (granted? x.effect x.answer).isSome → x.effect = activeCheck ∧
      ∀ y ∈ before, y.thread = x.thread → granted? y.effect y.answer = none
  served : ∀ before x after, s.trace = before ++ x :: after →
    OnActive x.effect → ∃ check ∈ before, check.thread = x.thread ∧
      granted? check.effect check.answer = some true
  refused : ∀ before x after, s.trace = before ++ x :: after →
    granted? x.effect x.answer = some false →
    (∀ y ∈ after, y.thread ≠ x.thread) ∧
    ∀ th out, s.threads[x.thread]? = some th →
      th.rest.outcome? = some out →
      ∃ response, out = .ok response ∧ TooMany response
  perMinute : ChecksForward s.trace → ∀ (minute : Int) (ids : List Nat),
    ids.Nodup → (∀ i ∈ ids, ServedIn s.trace minute i) → ids.length ≤ 100

end TaxiService.Spec
