import TaxiService.Lib.Table

/-!
# Constraints of tables

What a schema says of its tables besides the primary keys: a condition on each
row (`Each`), a column in which no value repeats (`Unique`), a column whose
values are keys of another table (`References`), and a primary key that was
taken from a sequence (`Identity`). A database checks them when a row is
inserted or rewritten. The lemmas are these checks: each says what is to be
known of the new row, and, of a rewritten row, which columns have to stay.
-/

namespace TaxiService.Lib.Table

variable {κ κ' ρ ρ' α : Type} {key : ρ → κ} {key' : ρ' → κ'}

/-- `CHECK`. -/
def Each (t : Table κ ρ key) (P : ρ → Prop) : Prop := ∀ r ∈ t.rows, P r

/-- `UNIQUE`. -/
def Unique (t : Table κ ρ key) (column : ρ → α) : Prop :=
  (t.rows.map column).Nodup

theorem each_empty (P : ρ → Prop) : (empty : Table κ ρ key).Each P := by
  intro r hr
  cases hr

theorem unique_empty (column : ρ → α) :
    (empty : Table κ ρ key).Unique column := List.nodup_nil

variable [DecidableEq κ]

/-- `FOREIGN KEY`, with `NULL` for no row. -/
def References (t : Table κ' ρ' key') (column : ρ' → Option κ)
    (t' : Table κ ρ key) : Prop :=
  t.Each fun r => ∀ k, column r = some k → (t'.find? k).isSome

/-! ## Inserting -/

section

variable {t t' : Table κ ρ key} {r : ρ}

theorem Each.insert {P : ρ → Prop} (h : t.Each P) (hins : t.insert? r = some t')
    (hr : P r) : t'.Each P := by
  intro r' hr'
  rw [insert?_rows hins, List.mem_append, List.mem_singleton] at hr'
  rcases hr' with hr' | rfl
  · exact h r' hr'
  · exact hr

theorem Unique.insert {column : ρ → α} (h : t.Unique column)
    (hins : t.insert? r = some t')
    (hr : t.Each fun r' => column r' ≠ column r) : t'.Unique column := by
  rw [Unique, insert?_rows hins, List.map_append, List.nodup_append]
  refine ⟨h, List.nodup_singleton _, fun a ha b hb => ?_⟩
  obtain ⟨r', hr', rfl⟩ := List.mem_map.mp ha
  rw [List.mem_singleton.mp hb]
  exact hr r' hr'

theorem isSome_insert (hins : t.insert? r = some t') {k : κ}
    (hk : (t.find? k).isSome) : (t'.find? k).isSome := by
  rw [find?_insert hins]
  split
  · rfl
  · exact hk

/-- A table that others refer to may grow. -/
theorem References.insert {t₁ : Table κ' ρ' key'} {column : ρ' → Option κ}
    (h : t₁.References column t) (hins : t.insert? r = some t') :
    t₁.References column t' :=
  fun r₁ hr₁ k hk => isSome_insert hins (h r₁ hr₁ k hk)

end

/-! ## Rewriting -/

section

variable {t : Table κ ρ key} {row old : ρ}

theorem mem_replace {r : ρ} (h : r ∈ (t.replace row).rows) :
    r = row ∨ r ∈ t.rows := by
  obtain ⟨r', hr', rfl⟩ := List.mem_map.mp h
  split
  · exact .inl rfl
  · exact .inr hr'

theorem Each.replace {P : ρ → Prop} (h : t.Each P) (hrow : P row) :
    (t.replace row).Each P := by
  intro r hr
  rcases mem_replace hr with rfl | hr
  · exact hrow
  · exact h r hr

/-- A row that keeps the column leaves its values as they are. -/
theorem map_replace {column : ρ → α} (hold : t.find? (key row) = some old)
    (hsame : column row = column old) :
    (t.replace row).rows.map column = t.rows.map column := by
  rw [Table.replace, List.map_map]
  refine List.map_congr_left fun r hr => ?_
  simp only [Function.comp_apply]
  split
  · next hkey =>
      have hfind := find?_mem hr
      rw [hkey, hold] at hfind
      rw [hsame, Option.some.inj hfind]
  · rfl

theorem Unique.replace {column : ρ → α} (h : t.Unique column)
    (hold : t.find? (key row) = some old) (hsame : column row = column old) :
    (t.replace row).Unique column := by
  rw [Unique, map_replace hold hsame]
  exact h

/-- A table that others refer to keeps its keys. -/
theorem References.replace {t₁ : Table κ' ρ' key'} {column : ρ' → Option κ}
    (h : t₁.References column t) (row : ρ) :
    t₁.References column (t.replace row) := by
  intro r₁ hr₁ k hk
  have hsome := h r₁ hr₁ k hk
  rw [find?_replace]
  split
  · rw [Option.isSome_map, hsome]
  · exact hsome

end

/-! ## Keys from a sequence -/

/-- The keys were handed out by a sequence that has come to `last`, of at most
`max`. -/
structure Identity {key : ρ → Int} (t : Table Int ρ key) (last max : Nat) :
    Prop where
  range : t.Each fun r => 1 ≤ key r ∧ key r ≤ last
  bound : last ≤ max

section

variable {key : ρ → Int} {t t' : Table Int ρ key} {last max : Nat} {r : ρ}

theorem identity_empty (max : Nat) : (empty : Table Int ρ key).Identity 0 max :=
  ⟨each_empty _, Nat.zero_le max⟩

theorem Identity.next (h : t.Identity last max) (hlast : last < max) :
    t.Identity (last + 1) max := by
  refine ⟨fun r hr => ?_, hlast⟩
  have hrange := h.range r hr
  omega

theorem Identity.insert (h : t.Identity last max)
    (hins : t.insert? r = some t') (hr : 1 ≤ key r ∧ key r ≤ last) :
    t'.Identity last max :=
  ⟨h.range.insert hins hr, h.bound⟩

theorem Identity.replace {row old : ρ} (h : t.Identity last max)
    (hold : t.find? (key row) = some old) :
    (t.replace row).Identity last max := by
  refine ⟨h.range.replace ?_, h.bound⟩
  obtain ⟨hmem, hkey⟩ := find?_some_iff.mp hold
  rw [← hkey]
  exact h.range old hmem

end

end TaxiService.Lib.Table
