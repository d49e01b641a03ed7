import TaxiService.Model.Performance

/-!
# What the cache answers

Calls on the cache that are executed one at a time. A lookup is judged by the
history alone: it answers what the last `Set` on its key stored, as long as
this has not run out and has not been invalidated since (`Stored`). Which
entries the map still holds is no part of this, so it makes no difference when
the expired ones are erased. The one condition is that the time at which the
entry runs out is one the clock can show (`Representable`). Without it the
entry runs out too early.
-/

namespace TaxiService.Spec

open TaxiService.Lib TaxiService.Model

inductive CacheOp where
  | set (key value : StdString) (ttl : Int) (now : Ticks)
  | get (key : StdString) (now : Ticks)
  | invalidatePrefix (pre : StdString)
  deriving DecidableEq, Repr

/-- The clock readings of the calls that take one. -/
def readings (ops : List CacheOp) : List Ticks :=
  ops.filterMap fun
    | .set _ _ _ now => some now
    | .get _ now => some now
    | .invalidatePrefix _ => none

/-- The cache, and the answers of its lookups, latest first. -/
structure CacheRun where
  cache : ResponseCache
  answers : List (Option StdString)

def cacheStep (s : CacheRun) : CacheOp → CacheRun
  | .set key value ttl now => { s with cache := s.cache.set key value ttl now }
  | .get key now =>
      ⟨(s.cache.get key now).2, (s.cache.get key now).1 :: s.answers⟩
  | .invalidatePrefix pre => { s with cache := s.cache.invalidatePrefix pre }

/-- The run of some calls on an empty cache. -/
def cached (ops : List CacheOp) : CacheRun := run cacheStep ⟨.empty, []⟩ ops

/-- What `Get` returns after these calls. -/
def lookup (ops : List CacheOp) (key : StdString) (now : Ticks) :
    Option StdString :=
  ((cached ops).cache.get key now).1

/-- The call is a `Set` on the key, or an `InvalidatePrefix` of it. -/
def CacheOp.concerns (key : StdString) : CacheOp → Bool
  | .set key' _ _ _ => key' == key
  | .get _ _ => false
  | .invalidatePrefix pre => startsWith key pre

/-- The last `Set` on the key, and no prefix of the key was invalidated
since. -/
def LastSet (ops : List CacheOp) (key value : StdString) (ttl : Int)
    (since : Ticks) : Prop :=
  ∃ before after, ops = before ++ .set key value ttl since :: after ∧
    ∀ op ∈ after, op.concerns key = false

/-- The last `Set` on the key stored the value, it has not run out, and no
prefix of the key was invalidated since. -/
def Stored (ops : List CacheOp) (key value : StdString) (now : Ticks) : Prop :=
  ∃ ttl since, LastSet ops key value ttl since ∧
    now < since + ttl * ticksPerSecond

/-- The end of the last `Set` on the key is a time 64 bits have room for. -/
def Representable (ops : List CacheOp) (key : StdString) : Prop :=
  ∀ value ttl since, LastSet ops key value ttl since →
    since + ttl * ticksPerSecond < 2 ^ 63

structure CacheConforms (ops : List CacheOp) : Prop where
  answers : ∀ key value now, (∀ reading ∈ readings ops, reading ≤ now) →
    Representable ops key →
    (lookup ops key now = some value ↔ Stored ops key value now)
  stored : ∀ key value now, (∀ reading ∈ readings ops, reading ≤ now) →
    lookup ops key now = some value → Stored ops key value now
  others : ∀ key now, (∀ reading ∈ readings ops, reading ≤ now) →
    lookup ops key now = lookup (ops.filter (CacheOp.concerns key)) key now
  removes : ∀ pre key,
    (cached (ops ++ [.invalidatePrefix pre])).cache.entries.get? key =
      if pre <+: key then none else (cached ops).cache.entries.get? key
  hits : (cached ops).cache.getStats.hits =
    .ofNat ((cached ops).answers.countP Option.isSome)
  misses : (cached ops).cache.getStats.misses =
    .ofNat ((cached ops).answers.countP Option.isNone)

end TaxiService.Spec
