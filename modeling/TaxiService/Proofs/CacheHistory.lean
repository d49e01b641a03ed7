import Mathlib.Data.List.Induction
import TaxiService.Spec.CacheHistory

/-!
# The cache and its history

What a key holds by the history (`live`) and what the map holds for it may
differ, by an entry that ran out and was erased. To a lookup, which does not
see entries that have run out, they are the same (`visible_entries`), and a
lookup is all that ever looks.
-/

namespace TaxiService.Proofs

open TaxiService.Lib TaxiService.Model TaxiService.Spec

/-! ## What a key holds by the history -/

/-- What a call does to what a key holds. -/
def liveStep (key : StdString) (held : Option CacheEntry) :
    CacheOp → Option CacheEntry
  | .set key' value ttl now =>
      if key' = key then some ⟨value, ResponseCache.expiresAt ttl now⟩ else held
  | .get _ _ => held
  | .invalidatePrefix pre => if startsWith key pre then none else held

def live (key : StdString) (ops : List CacheOp) : Option CacheEntry :=
  ops.foldl (liveStep key) none

theorem live_concat (key : StdString) (ops : List CacheOp) (op : CacheOp) :
    live key (ops ++ [op]) = liveStep key (live key ops) op :=
  List.foldl_concat ..

theorem liveStep_other {key : StdString} {op : CacheOp}
    (h : op.concerns key = false) (held : Option CacheEntry) :
    liveStep key held op = held := by
  cases op with
  | set key' value ttl now =>
      rw [CacheOp.concerns, beq_eq_false_iff_ne] at h
      rw [liveStep, if_neg h]
  | get key' now => rfl
  | invalidatePrefix pre =>
      rw [CacheOp.concerns] at h
      rw [liveStep, h]
      rfl

theorem live_filter (key : StdString) (ops : List CacheOp) :
    live key (ops.filter (CacheOp.concerns key)) = live key ops := by
  induction ops using List.reverseRecOn with
  | nil => rfl
  | append_singleton ops op ih =>
      rw [List.filter_append, live_concat]
      cases hop : op.concerns key with
      | true => rw [List.filter_cons_of_pos hop, List.filter_nil, live_concat, ih]
      | false =>
          rw [List.filter_cons_of_neg (by simp [hop]), List.filter_nil,
            List.append_nil, ih, liveStep_other hop]

theorem live_eq_some {key : StdString} {ops : List CacheOp} {e : CacheEntry} :
    live key ops = some e ↔ ∃ ttl since, LastSet ops key e.value ttl since ∧
      e.expiresAt = ResponseCache.expiresAt ttl since := by
  induction ops using List.reverseRecOn with
  | nil =>
      constructor
      · intro h
        cases h
      · rintro ⟨ttl, since, ⟨before, after, h, -⟩, -⟩
        simp at h
  | append_singleton ops op ih =>
      rw [live_concat]
      constructor
      · intro h
        cases hop : op.concerns key with
        | false =>
            rw [liveStep_other hop] at h
            obtain ⟨ttl, since, ⟨before, after, rfl, hafter⟩, he⟩ := ih.mp h
            refine ⟨ttl, since, ⟨before, after ++ [op], by simp, ?_⟩, he⟩
            rw [List.forall_mem_append, List.forall_mem_singleton]
            exact ⟨hafter, hop⟩
        | true =>
            cases op with
            | set key' value ttl now =>
                rw [CacheOp.concerns, beq_iff_eq] at hop
                rw [liveStep, if_pos hop] at h
                cases h
                refine ⟨ttl, now, ⟨ops, [], by rw [hop], ?_⟩, rfl⟩
                simp
            | get key' now => cases hop
            | invalidatePrefix pre =>
                rw [CacheOp.concerns] at hop
                rw [liveStep, hop] at h
                cases h
      · rintro ⟨ttl, since, ⟨before, after, heq, hafter⟩, he⟩
        rcases after.eq_nil_or_concat with rfl | ⟨after, op', rfl⟩
        · obtain ⟨-, hop⟩ := List.append_inj' heq rfl
          cases hop
          rw [liveStep, if_pos rfl, ← he]
        · rw [List.concat_eq_append, ← List.cons_append,
            ← List.append_assoc] at heq
          obtain ⟨rfl, hop⟩ := List.append_inj' heq rfl
          cases hop
          rw [List.concat_eq_append, List.forall_mem_append,
            List.forall_mem_singleton] at hafter
          rw [liveStep_other hafter.2]
          exact ih.mpr ⟨ttl, since, ⟨before, after, rfl, hafter.1⟩, he⟩

theorem LastSet.live {key value : StdString} {ops : List CacheOp} {ttl : Int}
    {since : Ticks} (h : LastSet ops key value ttl since) :
    live key ops = some ⟨value, ResponseCache.expiresAt ttl since⟩ :=
  live_eq_some.mpr ⟨ttl, since, h, rfl⟩

theorem expiresAt_eq {ttl now : Int} (h : now + ttl * ticksPerSecond < 2 ^ 63) :
    ResponseCache.expiresAt ttl now = now + ttl * ticksPerSecond := if_pos h

/-- An entry never outlives its time. -/
theorem expiresAt_le (ttl now : Int) :
    ResponseCache.expiresAt ttl now ≤ now + ttl * ticksPerSecond := by
  by_cases h : now + ttl * ticksPerSecond < 2 ^ 63
  · exact Int.le_of_eq (expiresAt_eq h)
  · have hlt := Int.bmod_lt (x := now + ttl * ticksPerSecond)
      (show 0 < 2 ^ 64 by decide)
    have hwrapped : ResponseCache.expiresAt ttl now =
      (now + ttl * ticksPerSecond).bmod (2 ^ 64) := if_neg h
    have hle : (now + ttl * ticksPerSecond).bmod (2 ^ 64) ≤
      now + ttl * ticksPerSecond := by omega
    exact hwrapped ▸ hle

/-! ## What a lookup sees -/

/-- An entry that has not run out. -/
def visible (now : Ticks) (held : Option CacheEntry) : Option CacheEntry :=
  held.filter fun e => now < e.expiresAt

theorem get_visible (c : ResponseCache) (key : StdString) (now : Ticks) :
    (c.get key now).1 =
      (visible now (c.entries.get? key)).map CacheEntry.value := by
  rw [ResponseCache.get]
  cases c.entries.get? key with
  | none => rfl
  | some e =>
      by_cases he : e.expiresAt ≤ now
      · simp [visible, he, Option.filter]
      · simp [visible, he, Option.filter, Int.not_le.mp he]

/-- A lookup erases what no later lookup sees. -/
theorem visible_get (c : ResponseCache) {key key' : StdString}
    {now now' : Ticks} (h : now ≤ now') :
    visible now' ((c.get key now).2.entries.get? key') =
      visible now' (c.entries.get? key') := by
  rw [ResponseCache.get]
  cases hg : c.entries.get? key with
  | none => rfl
  | some e =>
      by_cases he : e.expiresAt ≤ now
      · simp only [if_pos he, Assoc.get?_erase]
        split
        · next hk =>
            subst hk
            rw [hg]
            simp [visible, Option.filter, Int.le_trans he h]
        · rfl
      · simp only [if_neg he]

theorem cached_concat (ops : List CacheOp) (op : CacheOp) :
    cached (ops ++ [op]) = cacheStep (cached ops) op := run_concat ..

theorem readings_concat (ops : List CacheOp) (op : CacheOp) :
    readings (ops ++ [op]) = readings ops ++ readings [op] :=
  List.filterMap_append

theorem visible_entries (ops : List CacheOp) (key : StdString) {now : Ticks}
    (h : ∀ reading ∈ readings ops, reading ≤ now) :
    visible now ((cached ops).cache.entries.get? key) =
      visible now (live key ops) := by
  induction ops using List.reverseRecOn with
  | nil => rfl
  | append_singleton ops op ih =>
      rw [readings_concat, List.forall_mem_append] at h
      rw [cached_concat, live_concat]
      have ih := ih h.1
      cases op with
      | set key' value ttl now' =>
          simp only [cacheStep, ResponseCache.set, Assoc.get?_set, liveStep]
          split
          · rfl
          · exact ih
      | get key' now' =>
          rw [liveStep, ← ih]
          exact visible_get _ (h.2 now' List.mem_cons_self)
      | invalidatePrefix pre =>
          simp only [cacheStep, ResponseCache.invalidatePrefix,
            Assoc.get?_eraseWhere, liveStep]
          split
          · rfl
          · exact ih

theorem lookup_eq (ops : List CacheOp) (key : StdString) {now : Ticks}
    (h : ∀ reading ∈ readings ops, reading ≤ now) :
    lookup ops key now = (visible now (live key ops)).map CacheEntry.value := by
  rw [lookup, get_visible, visible_entries ops key h]

theorem stored_of_lookup (ops : List CacheOp) (key value : StdString)
    {now : Ticks} (h : ∀ reading ∈ readings ops, reading ≤ now)
    (hv : lookup ops key now = some value) : Stored ops key value now := by
  rw [lookup_eq ops key h] at hv
  obtain ⟨e, he, rfl⟩ := Option.map_eq_some_iff.mp hv
  obtain ⟨he, hnow⟩ := Option.filter_eq_some_iff.mp he
  obtain ⟨ttl, since, hset, hexpires⟩ := live_eq_some.mp he
  rw [decide_eq_true_eq, hexpires] at hnow
  exact ⟨ttl, since, hset, Int.lt_of_lt_of_le hnow (expiresAt_le ttl since)⟩

theorem lookup_iff (ops : List CacheOp) (key value : StdString) {now : Ticks}
    (h : ∀ reading ∈ readings ops, reading ≤ now)
    (hends : Representable ops key) :
    lookup ops key now = some value ↔ Stored ops key value now := by
  refine ⟨stored_of_lookup ops key value h, ?_⟩
  rintro ⟨ttl, since, hset, hnow⟩
  rw [← expiresAt_eq (hends _ _ _ hset)] at hnow
  rw [lookup_eq ops key h, LastSet.live hset, visible, Option.filter_some,
    if_pos (by simpa using hnow)]
  rfl

/-! ## The counters -/

theorem hits_misses (ops : List CacheOp) :
    (cached ops).cache.hits =
      .ofNat ((cached ops).answers.countP Option.isSome) ∧
    (cached ops).cache.misses =
      .ofNat ((cached ops).answers.countP Option.isNone) := by
  induction ops using List.reverseRecOn with
  | nil => exact ⟨rfl, rfl⟩
  | append_singleton ops op ih =>
      rw [cached_concat]
      cases op with
      | set key value ttl now => exact ih
      | invalidatePrefix pre => exact ih
      | get key now =>
          rw [cacheStep, ResponseCache.get]
          split
          · simp [ih]
          · split <;> simp [ih]

/-! ## The cache -/

/-- Every lookup is answered by the history, and the counters count the
answers. -/
theorem cache_conforms (ops : List CacheOp) : CacheConforms ops where
  answers key value _ h hends := lookup_iff ops key value h hends
  stored key value _ h hv := stored_of_lookup ops key value h hv
  others key now h := by
    have hfilter : ∀ reading ∈ readings (ops.filter (CacheOp.concerns key)),
        reading ≤ now := fun reading hr =>
      h reading ((List.filter_sublist.filterMap _).subset hr)
    rw [lookup_eq ops key h, lookup_eq _ key hfilter, live_filter]
  removes pre key := by
    rw [cached_concat]
    simp only [cacheStep, ResponseCache.invalidatePrefix, Assoc.get?_eraseWhere,
      startsWith, List.isPrefixOf_iff_prefix]
  hits := (hits_misses ops).1
  misses := (hits_misses ops).2

/-- An entry that is to live three hundred years is gone at once. -/
theorem cache_overflows : ¬ ∀ ops key value now,
    (∀ key value ttl since, .set key value ttl since ∈ ops → 0 ≤ ttl) →
    (∀ reading ∈ readings ops, reading ≤ now) → Stored ops key value now →
    lookup ops key now = some value := by
  intro h
  have hstored : Stored [.set (bytes "users") (bytes "ann") 10000000000 1]
      (bytes "users") (bytes "ann") 1 := by
    refine ⟨10000000000, 1, ⟨[], [], rfl, fun op hop => ?_⟩, by decide⟩
    cases hop
  have httl : ∀ key value ttl since, .set key value ttl since ∈
      [CacheOp.set (bytes "users") (bytes "ann") 10000000000 1] → 0 ≤ ttl := by
    intro key value ttl since hset
    cases List.mem_singleton.mp hset
    decide
  have hfound := h _ _ _ 1 httl (by decide) hstored
  exact absurd hfound (by decide)

end TaxiService.Proofs
