import Mathlib.Data.List.Nodup

/-!
# Tables with a primary key

A table is a list of rows whose keys are pairwise different; the uniqueness
is a field, so no operation can build a table that breaks it. There are the
three statements a storage layer is made of: a filtered read, an insert that
refuses a taken key, and a filtered update whose assignment leaves the key
alone.

Rows are reached by key through `find?`, and the lemmas say what each
statement does to `find?`: that is the view every proof above this file
works with.
-/

namespace TaxiService.Lib

/-- Rows with pairwise different keys. -/
structure Table (κ ρ : Type) (key : ρ → κ) where
  rows : List ρ
  nodup : (rows.map key).Nodup

namespace Table

variable {κ ρ : Type} {key : ρ → κ}

@[ext] theorem ext {t t' : Table κ ρ key} (h : t.rows = t'.rows) : t = t' := by
  cases t; cases t'; cases h; rfl

instance [DecidableEq ρ] : DecidableEq (Table κ ρ key) := fun t t' =>
  decidable_of_iff (t.rows = t'.rows) ⟨ext, fun h => by rw [h]⟩

/-- The table without rows. -/
def empty : Table κ ρ key := ⟨[], List.nodup_nil⟩

/-- `SELECT ... WHERE p`. -/
def select (t : Table κ ρ key) (p : ρ → Bool) : List ρ := t.rows.filter p

/-- `UPDATE ... SET f WHERE p`, for an assignment that keeps the key. -/
def update (t : Table κ ρ key) (p : ρ → Bool) (f : ρ → ρ)
    (hf : ∀ r, key (f r) = key r) : Table κ ρ key where
  rows := t.rows.map fun r => if p r then f r else r
  nodup := by
    rw [List.map_map]
    have hkey : key ∘ (fun r => if p r then f r else r) = key := by
      funext r
      simp only [Function.comp_apply]
      split
      · exact hf r
      · rfl
    rw [hkey]
    exact t.nodup

variable [DecidableEq κ]

/-- The table with a new version of the row of the same key. -/
def replace (t : Table κ ρ key) (row : ρ) : Table κ ρ key where
  rows := t.rows.map fun r => if key r = key row then row else r
  nodup := by
    rw [List.map_map]
    have hkey : key ∘ (fun r => if key r = key row then row else r) = key := by
      funext r
      simp only [Function.comp_apply]
      split
      · next h => exact h.symm
      · rfl
    rw [hkey]
    exact t.nodup

/-- The row with a given key. -/
def find? (t : Table κ ρ key) (k : κ) : Option ρ :=
  t.rows.find? fun r => decide (key r = k)

/-- `INSERT`, refused when the key is taken. -/
def insert? (t : Table κ ρ key) (r : ρ) : Option (Table κ ρ key) :=
  if h : key r ∈ t.rows.map key then none
  else some ⟨t.rows ++ [r], by
    rw [List.map_append, List.map_singleton, List.nodup_append]
    exact ⟨t.nodup, List.nodup_singleton _, fun a ha b hb => by
      rw [List.mem_singleton] at hb
      rintro rfl
      exact h (hb ▸ ha)⟩⟩

theorem find?_some_iff {t : Table κ ρ key} {k : κ} {r : ρ} :
    t.find? k = some r ↔ r ∈ t.rows ∧ key r = k := by
  constructor
  · intro h
    exact ⟨List.mem_of_find?_eq_some h, by simpa using List.find?_some h⟩
  · rintro ⟨hmem, rfl⟩
    cases hf : t.find? (key r) with
    | none =>
        have := List.find?_eq_none.mp hf r hmem
        simp at this
    | some r' =>
        have hkey : key r' = key r := by simpa using List.find?_some hf
        have hmem' := List.mem_of_find?_eq_some hf
        rw [List.inj_on_of_nodup_map t.nodup hmem' hmem hkey]

theorem find?_key {t : Table κ ρ key} {k : κ} {r : ρ} (h : t.find? k = some r) :
    key r = k := (find?_some_iff.mp h).2

theorem find?_mem {t : Table κ ρ key} {r : ρ} (h : r ∈ t.rows) :
    t.find? (key r) = some r := find?_some_iff.mpr ⟨h, rfl⟩

theorem find?_none_iff {t : Table κ ρ key} {k : κ} :
    t.find? k = none ↔ ∀ r ∈ t.rows, key r ≠ k := by
  rw [find?, List.find?_eq_none]
  simp

@[simp] theorem find?_empty (k : κ) :
    (empty : Table κ ρ key).find? k = none := rfl

@[simp] theorem find?_replace (t : Table κ ρ key) (row : ρ) (k : κ) :
    (t.replace row).find? k =
      if key row = k then (t.find? k).map fun _ => row else t.find? k := by
  have hkey : ∀ r, key (if key r = key row then row else r) = key r := by
    intro r
    split
    · next h => exact h.symm
    · rfl
  have hfind : (t.replace row).find? k =
      (t.find? k).map fun r => if key r = key row then row else r := by
    simp only [find?, replace, List.find?_map]
    congr 2
    funext r
    simp only [Function.comp_apply, hkey]
  rw [hfind]
  cases hf : t.find? k with
  | none => simp
  | some r =>
      simp only [Option.map_some, find?_key hf, eq_comm (a := k)]
      split <;> rfl

/-- Replacing a row that is there. -/
theorem find?_replace_some {t : Table κ ρ key} {row old : ρ}
    (h : t.find? (key row) = some old) (k : κ) :
    (t.replace row).find? k = if key row = k then some row else t.find? k := by
  rw [find?_replace]
  split
  · next hk => rw [← hk, h, Option.map_some]
  · rfl

/-- Replacing a row by a new version of it, seen as an assignment. -/
theorem replace_rows {t : Table κ ρ key} {k : κ} {r : ρ} {f : ρ → ρ}
    (hr : t.find? k = some r) (hf : ∀ r, key (f r) = key r) :
    (t.replace (f r)).rows = t.rows.map fun r => if key r = k then f r else r := by
  refine List.map_congr_left fun r' hr' => ?_
  rw [hf, find?_key hr]
  by_cases hk : key r' = k
  · have hfind := find?_mem hr'
    rw [hk, hr] at hfind
    rw [if_pos hk, if_pos hk, Option.some.inj hfind]
  · rw [if_neg hk, if_neg hk]

/-- An update whose filter pins the key replaces the row of that key... -/
theorem update_some {t : Table κ ρ key} {k : κ} {q : ρ → Bool} {f : ρ → ρ}
    (hf : ∀ r, key (f r) = key r) {r : ρ} (hr : t.find? k = some r)
    (hq : q r = true) :
    t.update (fun r => decide (key r = k) && q r) f hf = t.replace (f r) := by
  refine ext (List.map_congr_left ?_)
  intro r' hr'
  simp only [hf, find?_key hr, Bool.and_eq_true, decide_eq_true_eq]
  by_cases hk : key r' = k
  · have he : r' = r := by
      have := find?_mem hr'
      rw [hk, hr] at this
      exact (Option.some.inj this).symm
    rw [if_pos ⟨hk, he ▸ hq⟩, if_pos hk, he]
  · rw [if_neg (fun h => hk h.1), if_neg hk]

/-- ...and leaves the table alone when there is none to its liking. -/
theorem update_none {t : Table κ ρ key} {k : κ} {q : ρ → Bool} {f : ρ → ρ}
    (hf : ∀ r, key (f r) = key r)
    (h : ∀ r, t.find? k = some r → q r = false) :
    t.update (fun r => decide (key r = k) && q r) f hf = t := by
  refine ext ((List.map_congr_left (g := id) ?_).trans (List.map_id _))
  intro r hr
  rw [if_neg]
  · rfl
  · intro hp
    rw [Bool.and_eq_true, decide_eq_true_eq] at hp
    rw [h r (hp.1 ▸ find?_mem hr)] at hp
    cases hp.2

/-- A successful insert adds its row and changes no other. -/
theorem find?_insert {t t' : Table κ ρ key} {r : ρ} (h : t.insert? r = some t')
    (k : κ) : t'.find? k = if key r = k then some r else t.find? k := by
  simp only [insert?] at h
  split at h
  · cases h
  · next hnew =>
      cases h
      simp only [find?, List.find?_append, List.find?_singleton]
      by_cases hk : key r = k
      · have hnone : t.rows.find? (fun r => decide (key r = k)) = none := by
          rw [List.find?_eq_none]
          intro r' hr'
          simp only [decide_eq_true_eq]
          intro he
          exact hnew (List.mem_map.mpr ⟨r', hr', he.trans hk.symm⟩)
        rw [hnone]
        simp [hk]
      · simp [hk]

/-- The new row is the last one. -/
theorem insert?_rows {t t' : Table κ ρ key} {r : ρ} (h : t.insert? r = some t') :
    t'.rows = t.rows ++ [r] := by
  simp only [insert?] at h
  split at h
  · cases h
  · cases h
    rfl

theorem insert?_fresh {t t' : Table κ ρ key} {r : ρ} (h : t.insert? r = some t') :
    t.find? (key r) = none := by
  simp only [insert?] at h
  split at h
  · cases h
  · next hnew =>
      rw [find?_none_iff]
      exact fun r' hr' he => hnew (List.mem_map.mpr ⟨r', hr', he⟩)

theorem insert?_of_fresh {t : Table κ ρ key} {r : ρ}
    (h : t.find? (key r) = none) : ∃ t', t.insert? r = some t' := by
  have hnew : key r ∉ t.rows.map key := fun hmem => by
    obtain ⟨r', hr', he⟩ := List.mem_map.mp hmem
    exact find?_none_iff.mp h r' hr' he
  exact ⟨_, dif_neg hnew⟩

/-- A filter that pins the key reads the one row of that key... -/
theorem select_some {t : Table κ ρ key} {k : κ} {q : ρ → Bool} {r : ρ}
    (hr : t.find? k = some r) (hq : q r = true) :
    t.select (fun r => decide (key r = k) && q r) = [r] := by
  obtain ⟨rows, hnd⟩ := t
  simp only [select, find?] at hr ⊢
  induction rows with
  | nil => cases hr
  | cons r' rows ih =>
      rw [List.map_cons, List.nodup_cons] at hnd
      rw [List.find?_cons] at hr
      by_cases hk : key r' = k
      · simp only [hk, decide_true, Option.some.injEq] at hr
        subst hr
        have hrest : rows.filter (fun r => decide (key r = k) && q r) = [] := by
          rw [List.filter_eq_nil_iff]
          intro r'' hr''
          have hne : key r'' ≠ k := fun he =>
            hnd.1 (List.mem_map.mpr ⟨r'', hr'', he.trans hk.symm⟩)
          simp [hne]
        simp [hrest, hk, hq]
      · simp only [hk, decide_false] at hr
        rw [List.filter_cons_of_neg (by simp [hk])]
        exact ih hnd.2 hr

/-- ...or nothing when there is none to its liking. -/
theorem select_none {t : Table κ ρ key} {k : κ} {q : ρ → Bool}
    (h : ∀ r, t.find? k = some r → q r = false) :
    t.select (fun r => decide (key r = k) && q r) = [] := by
  rw [select, List.filter_eq_nil_iff]
  intro r hr hp
  rw [Bool.and_eq_true, decide_eq_true_eq] at hp
  rw [h r (hp.1 ▸ find?_mem hr)] at hp
  cases hp.2

end Table

end TaxiService.Lib
