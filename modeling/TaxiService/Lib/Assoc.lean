import Mathlib.Data.List.Nodup

/-!
# Maps as association lists

A map that remembers the order its keys were first written in, which is what
a Python `dict` is and what an `unordered_map` may be. `set` rewrites a
present key in place and appends a new one, `erase` removes a key, `update`
writes another map's pairs in their order.

Two maps are the same map when they answer every `get?` alike, so that is
the form the facts below take. Only `get?_update` needs the keys of the map
written to be pairwise different, which `Keyed` says.
-/

namespace TaxiService.Lib

/-- Keys with their values, in order of insertion. -/
abbrev Assoc (κ α : Type) := List (κ × α)

namespace Assoc

variable {κ α : Type}

/-- The keys are pairwise different. -/
def Keyed (m : Assoc κ α) : Prop := (m.map Prod.fst).Nodup

theorem Keyed.not_mem_head {m m' : Assoc κ α} {k : κ} {v : α}
    (h : Keyed (m ++ (k, v) :: m')) : k ∉ m.map Prod.fst := by
  rw [Keyed, List.map_append, List.nodup_append] at h
  intro hk
  exact h.2.2 k hk k List.mem_cons_self rfl

variable [DecidableEq κ]

def get? : Assoc κ α → κ → Option α
  | [], _ => none
  | (k', v) :: m, k => if k' = k then some v else get? m k

def set : Assoc κ α → κ → α → Assoc κ α
  | [], k, v => [(k, v)]
  | (k', v') :: m, k, v => if k' = k then (k', v) :: m else (k', v') :: set m k v

def erase (m : Assoc κ α) (k : κ) : Assoc κ α := m.filter fun p => p.1 ≠ k

/-- `m.update(m')`. -/
def update (m m' : Assoc κ α) : Assoc κ α :=
  m'.foldl (fun m p => m.set p.1 p.2) m

/-- The map without the keys a test holds of. -/
def eraseWhere (m : Assoc κ α) (p : κ → Bool) : Assoc κ α :=
  m.filter fun q => !p q.1

@[simp] theorem get?_nil (k : κ) : get? ([] : Assoc κ α) k = none := rfl

@[simp] theorem get?_set (m : Assoc κ α) (k k' : κ) (v : α) :
    (m.set k v).get? k' = if k = k' then some v else m.get? k' := by
  induction m with
  | nil => rfl
  | cons p m ih =>
      obtain ⟨k₀, v₀⟩ := p
      rw [set]
      split
      · next h =>
          subst h
          simp only [get?]
          split <;> rfl
      · next h =>
          simp only [get?, ih]
          split
          · next h₀ => rw [if_neg (fun e => h (h₀.trans e.symm))]
          · rfl

theorem get?_eraseWhere (m : Assoc κ α) (p : κ → Bool) (k : κ) :
    (m.eraseWhere p).get? k = if p k then none else m.get? k := by
  induction m with
  | nil => simp [eraseWhere]
  | cons q m ih =>
      obtain ⟨k₀, v₀⟩ := q
      rw [eraseWhere] at ih ⊢
      rw [List.filter_cons]
      by_cases hp : p k₀ = true
      · rw [if_neg (by simp [hp]), ih, get?]
        by_cases hk : k₀ = k
        · rw [if_pos (hk ▸ hp), if_pos (hk ▸ hp)]
        · rw [if_neg hk]
      · rw [if_pos (by simp [hp]), get?, get?, ih]
        by_cases hk : k₀ = k
        · rw [if_pos hk, if_pos hk, if_neg (hk ▸ hp)]
        · rw [if_neg hk, if_neg hk]

@[simp] theorem get?_erase (m : Assoc κ α) (k k' : κ) :
    (m.erase k).get? k' = if k = k' then none else m.get? k' := by
  have h := get?_eraseWhere m (fun k' => decide (k' = k)) k'
  have he : m.eraseWhere (fun k' => decide (k' = k)) = m.erase k := by
    simp [eraseWhere, erase]
  rw [he] at h
  rw [h]
  simp only [decide_eq_true_eq, eq_comm (a := k)]

theorem get?_none_iff {m : Assoc κ α} {k : κ} :
    m.get? k = none ↔ k ∉ m.map Prod.fst := by
  induction m with
  | nil => simp
  | cons p m ih =>
      obtain ⟨k₀, v₀⟩ := p
      rw [get?, List.map_cons, List.mem_cons, not_or]
      split
      · next h => simp [h]
      · next h => rw [ih]; simp [Ne.symm h]

theorem mem_of_get? {m : Assoc κ α} {k : κ} {v : α} (h : m.get? k = some v) :
    (k, v) ∈ m := by
  induction m with
  | nil => cases h
  | cons p m ih =>
      obtain ⟨k₀, v₀⟩ := p
      rw [get?] at h
      split at h
      · next e => cases h; rw [e]; exact List.mem_cons_self
      · exact List.mem_cons_of_mem _ (ih h)

theorem get?_of_mem {m : Assoc κ α} (hm : m.Keyed) {k : κ} {v : α}
    (h : (k, v) ∈ m) : m.get? k = some v := by
  induction m with
  | nil => cases h
  | cons p m ih =>
      obtain ⟨k₀, v₀⟩ := p
      rw [Keyed, List.map_cons, List.nodup_cons] at hm
      rw [get?]
      rcases List.mem_cons.mp h with e | hmem
      · cases e; rw [if_pos rfl]
      · rw [if_neg, ih hm.2 hmem]
        rintro rfl
        exact hm.1 (List.mem_map.mpr ⟨_, hmem, rfl⟩)

/-- What an `update` leaves under a key: the other map's value if it has
one. -/
theorem get?_update {m m' : Assoc κ α} (hm : m'.Keyed) (k : κ) :
    (m.update m').get? k = (m'.get? k).or (m.get? k) := by
  induction m' generalizing m with
  | nil => rfl
  | cons p m' ih =>
      obtain ⟨k₀, v₀⟩ := p
      rw [Keyed, List.map_cons, List.nodup_cons] at hm
      rw [update, List.foldl_cons]
      refine (ih hm.2).trans ?_
      rw [get?_set, get?]
      by_cases hk : k₀ = k
      · subst hk
        rw [if_pos rfl, if_pos rfl, get?_none_iff.mpr hm.1]
        rfl
      · rw [if_neg hk, if_neg hk]

theorem keys_set (m : Assoc κ α) (k : κ) (v : α) :
    (m.set k v).map Prod.fst =
      if k ∈ m.map Prod.fst then m.map Prod.fst else m.map Prod.fst ++ [k] := by
  induction m with
  | nil => rfl
  | cons p m ih =>
      obtain ⟨k₀, v₀⟩ := p
      rw [set]
      by_cases hk : k₀ = k
      · rw [if_pos hk, if_pos (by simp [hk])]
        rfl
      · simp only [if_neg hk, List.map_cons, ih, List.mem_cons, Ne.symm hk,
          false_or]
        split <;> rfl

theorem Keyed.set {m : Assoc κ α} (h : m.Keyed) (k : κ) (v : α) :
    (Assoc.set m k v).Keyed := by
  rw [Keyed, keys_set]
  split
  · exact h
  · next hk =>
      rw [List.nodup_append]
      refine ⟨h, List.nodup_singleton k, fun a ha b hb => ?_⟩
      rw [List.mem_singleton] at hb
      rintro rfl
      exact hk (hb ▸ ha)

theorem Keyed.erase {m : Assoc κ α} (h : m.Keyed) (k : κ) :
    (Assoc.erase m k).Keyed :=
  (List.filter_sublist.map Prod.fst).nodup h

omit [DecidableEq κ] in
theorem Keyed.eraseWhere {m : Assoc κ α} (h : m.Keyed) (p : κ → Bool) :
    (Assoc.eraseWhere m p).Keyed :=
  (List.filter_sublist.map Prod.fst).nodup h

theorem Keyed.update {m : Assoc κ α} (h : m.Keyed) (m' : Assoc κ α) :
    (Assoc.update m m').Keyed := by
  induction m' generalizing m with
  | nil => exact h
  | cons p m' ih => exact ih (h.set p.1 p.2)

theorem mem_set {m : Assoc κ α} {k : κ} {v : α} {p : κ × α}
    (h : p ∈ m.set k v) : p = (k, v) ∨ p ∈ m := by
  induction m with
  | nil => exact .inl (List.mem_singleton.mp h)
  | cons q m ih =>
      rw [set] at h
      split at h
      · next e =>
          rcases List.mem_cons.mp h with h | h
          · exact .inl (e ▸ h)
          · exact .inr (List.mem_cons_of_mem q h)
      · rcases List.mem_cons.mp h with rfl | h
        · exact .inr List.mem_cons_self
        · exact (ih h).imp_right (List.mem_cons_of_mem q)

theorem set_new {m : Assoc κ α} {k : κ} (h : k ∉ m.map Prod.fst) (v : α) :
    m.set k v = m ++ [(k, v)] := by
  induction m with
  | nil => rfl
  | cons p m ih =>
      obtain ⟨k', v'⟩ := p
      rw [List.map_cons, List.mem_cons, not_or] at h
      rw [set, if_neg (Ne.symm h.1), ih h.2]
      rfl

theorem update_append {m m' : Assoc κ α} (h : (m ++ m').Keyed) :
    m.update m' = m ++ m' := by
  induction m' generalizing m with
  | nil => exact (List.append_nil m).symm
  | cons p m' ih =>
      rw [update, List.foldl_cons, set_new h.not_mem_head]
      refine (ih ?_).trans (List.append_assoc m [p] m')
      rwa [List.append_assoc]

/-- A map written into the empty one. -/
theorem update_nil {m : Assoc κ α} (h : m.Keyed) :
    Assoc.update ([] : Assoc κ α) m = m := update_append h

end Assoc

end TaxiService.Lib
