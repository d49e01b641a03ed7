import Mathlib.Algebra.Group.Int.Defs
import Mathlib.Algebra.Group.Nat.Defs
import TaxiService.Lib.Assoc
import TaxiService.Lib.Run
import TaxiService.Model.StdString

/-!
# `ResponseCache` and `FixedWindowRateLimiter`

The two classes of `simple_performance.hpp`. Each method body is one critical
section under the object's mutex, so a method is a function of the object. A
clock reading is taken before the mutex and is an argument here; it counts
nanoseconds, the period of both `std::chrono` clocks, in 64 bits.

`Check` is the one method where the order of reading and locking matters.
`windowStartOf` is what it computes before the lock, `checkLocked` what it
does under it, and `CheckEvent` runs any number of concurrent calls by these
two halves.
-/

namespace TaxiService.Model

open TaxiService.Lib

/-- A clock reading, in nanoseconds. -/
abbrev Ticks := Int

def ticksPerSecond : Int := 1000000000

/-! ## The response cache -/

structure CacheEntry where
  value : StdString
  expiresAt : Ticks
  deriving DecidableEq, Repr

structure ResponseCache where
  entries : Assoc StdString CacheEntry
  hits : UInt64
  misses : UInt64
  deriving DecidableEq

namespace ResponseCache

def empty : ResponseCache := ⟨[], 0, 0⟩

/-- `Get`. An expired entry is erased when it is read. -/
def get (key : StdString) (now : Ticks) (c : ResponseCache) :
    Option StdString × ResponseCache :=
  match c.entries.get? key with
  | none => (none, { c with misses := c.misses + 1 })
  | some e =>
      if e.expiresAt ≤ now then
        (none, { c with entries := c.entries.erase key, misses := c.misses + 1 })
      else (some e.value, { c with hits := c.hits + 1 })

/-- `Clock::now() + ttl`, with the time to live in seconds. A clock reading is
not negative and a time to live neither, so the sum can only be too large. -/
def expiresAt (ttl : Int) (now : Ticks) : Ticks :=
  let sum := now + ttl * ticksPerSecond
  if sum < 2 ^ 63 then sum else sum.bmod (2 ^ 64)

/-- `Set`. -/
def set (key value : StdString) (ttl : Int) (now : Ticks) (c : ResponseCache) :
    ResponseCache :=
  { c with entries := c.entries.set key ⟨value, expiresAt ttl now⟩ }

/-- `InvalidatePrefix`. -/
def invalidatePrefix (pre : StdString) (c : ResponseCache) : ResponseCache :=
  { c with entries := c.entries.eraseWhere fun key => startsWith key pre }

structure Stats where
  hits : UInt64
  misses : UInt64
  entries : Nat

def getStats (c : ResponseCache) : Stats := ⟨c.hits, c.misses, c.entries.length⟩

end ResponseCache

/-! ## The rate limiter -/

structure RateLimitResult where
  allowed : Bool
  limit : Int
  remaining : Int
  resetEpochSeconds : Int
  deriving DecidableEq, Repr

structure Bucket where
  windowStart : Int
  count : Int
  deriving DecidableEq, Repr

/-- What `buckets_[key]` is for a key that was not there. -/
def Bucket.fresh : Bucket := ⟨0, 0⟩

structure FixedWindowRateLimiter where
  buckets : Assoc StdString Bucket
  deriving DecidableEq

namespace FixedWindowRateLimiter

def empty : FixedWindowRateLimiter := ⟨[]⟩

/-- `duration_cast<seconds>(now.time_since_epoch()).count()`. -/
def nowSeconds (now : Ticks) : Int := now.tdiv ticksPerSecond

/-- `window_start`, from the reading taken before the lock. -/
def windowStartOf (window : Int) (now : Ticks) : Int :=
  (nowSeconds now).tdiv window * window

def bucket (l : FixedWindowRateLimiter) (key : StdString) : Bucket :=
  (l.buckets.get? key).getD .fresh

/-- The critical section of `Check`. -/
def checkLocked (key : StdString) (limit window windowStart : Int)
    (l : FixedWindowRateLimiter) : RateLimitResult × FixedWindowRateLimiter :=
  let resetAt := windowStart + window
  let b := l.bucket key
  let b := if b.windowStart ≠ windowStart then ⟨windowStart, 0⟩ else b
  if limit ≤ b.count then
    (⟨false, limit, 0, resetAt⟩, ⟨l.buckets.set key b⟩)
  else
    let b := { b with count := b.count + 1 }
    (⟨true, limit, limit - b.count, resetAt⟩, ⟨l.buckets.set key b⟩)

/-- `Check`, by a caller that is not interrupted between the reading and the
lock. -/
def check (key : StdString) (limit window : Int) (now : Ticks)
    (l : FixedWindowRateLimiter) : RateLimitResult × FixedWindowRateLimiter :=
  checkLocked key limit window (windowStartOf window now) l

end FixedWindowRateLimiter

/-! ## Concurrent calls of `Check` -/

/-- A caller reads the clock, or runs the critical section of the call it has
read the clock for. -/
inductive CheckEvent where
  | read (caller : Nat) (now : Ticks)
  | lock (caller : Nat)
  deriving DecidableEq, Repr

/-- The limiter, the readings of the calls that have not locked yet, and the
finished calls with their own readings, latest first. -/
structure Checks where
  limiter : FixedWindowRateLimiter
  reading : Assoc Nat Ticks
  finished : List (Ticks × RateLimitResult)
  deriving DecidableEq

def Checks.start : Checks := ⟨.empty, [], []⟩

def checkStep (key : StdString) (limit window : Int) (s : Checks) :
    CheckEvent → Checks
  | .read caller now =>
      match s.reading.get? caller with
      | some _ => s
      | none => { s with reading := s.reading.set caller now }
  | .lock caller =>
      match s.reading.get? caller with
      | none => s
      | some now =>
          let (res, limiter) := FixedWindowRateLimiter.checkLocked key limit
            window (FixedWindowRateLimiter.windowStartOf window now) s.limiter
          ⟨limiter, s.reading.erase caller, (now, res) :: s.finished⟩

/-- The calls of a list of events on a limiter without buckets. -/
def checks (key : StdString) (limit window : Int) (events : List CheckEvent) :
    Checks := run (checkStep key limit window) .start events

/-- The clock never goes back. -/
def ClockMonotone (events : List CheckEvent) : Prop :=
  (events.filterMap fun
    | .read _ now => some now
    | .lock _ => none).Pairwise (· ≤ ·)

instance (events : List CheckEvent) : Decidable (ClockMonotone events) :=
  inferInstanceAs (Decidable (List.Pairwise _ _))

/-- The reading lies in `[k * window, (k + 1) * window)` seconds. -/
def InWindow (window k : Int) (now : Ticks) : Prop :=
  k * window * ticksPerSecond ≤ now ∧ now < (k + 1) * window * ticksPerSecond

instance (window k : Int) (now : Ticks) : Decidable (InWindow window k now) :=
  inferInstanceAs (Decidable (_ ∧ _))

/-- How many calls of a window were allowed. -/
def allowedIn (window k : Int) (s : Checks) : Nat :=
  s.finished.countP fun p => p.2.allowed && decide (InWindow window k p.1)

end TaxiService.Model
