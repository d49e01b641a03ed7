import Mathlib.Data.List.Basic

/-!
# Decimal numerals between separators

The decimal text of an integer, over any type of code units, and what can be
read back when a separator is put next to it. The separator is the minus sign,
which is also how the text of a negative number starts, so the two joins are
not alike: from the left the first separator that is not a sign ends the
numeral (`numeral_append_minus`), from the right the last separator starts it
or is its sign (`append_minus_numeral`).
-/

namespace TaxiService.Lib

variable {α : Type}

/-- The two encodings a numeral uses. -/
structure CodeUnits (α : Type) where
  minus : α
  digit : Char → α

/-- Different digits are written differently, and none as the sign. -/
structure CodeUnits.Distinct (u : CodeUnits α) : Prop where
  digit_inj : ∀ c d, c.isDigit = true → d.isDigit = true →
    u.digit c = u.digit d → c = d
  digit_ne_minus : ∀ c, c.isDigit = true → u.digit c ≠ u.minus

/-- The digits of a natural number. -/
def CodeUnits.digits (u : CodeUnits α) (n : Nat) : List α :=
  (Nat.toDigits 10 n).map u.digit

/-- The text of an integer. -/
def CodeUnits.numeral (u : CodeUnits α) (n : Int) : List α :=
  (if n < 0 then [u.minus] else []) ++ u.digits n.natAbs

/-! ## Splitting at a separator -/

/-- The last separator is found again. -/
theorem append_cons_inj_right {m : α} {s s' d d' : List α} (hd : m ∉ d)
    (hd' : m ∉ d') (h : s ++ m :: d = s' ++ m :: d') : s = s' ∧ d = d' := by
  rcases List.append_eq_append_iff.mp h with ⟨a, ha, hm⟩ | ⟨a, ha, hm⟩
  · cases a with
    | nil =>
        rw [List.append_nil] at ha
        rw [List.nil_append, List.cons.injEq] at hm
        exact ⟨ha.symm, hm.2⟩
    | cons x a =>
        rw [List.cons_append, List.cons.injEq] at hm
        exact absurd (hm.2 ▸ by simp) hd
  · cases a with
    | nil =>
        rw [List.append_nil] at ha
        rw [List.nil_append, List.cons.injEq] at hm
        exact ⟨ha, hm.2.symm⟩
    | cons x a =>
        rw [List.cons_append, List.cons.injEq] at hm
        exact absurd (hm.2 ▸ by simp) hd'

/-- So is the first. -/
theorem append_cons_inj_left {m : α} {s s' d d' : List α} (hd : m ∉ d)
    (hd' : m ∉ d') (h : d ++ m :: s = d' ++ m :: s') : d = d' ∧ s = s' := by
  have hr := congrArg List.reverse h
  simp only [List.reverse_append, List.reverse_cons, List.append_assoc,
    List.cons_append, List.nil_append] at hr
  obtain ⟨hs, hd⟩ := append_cons_inj_right (by rwa [List.mem_reverse])
    (by rwa [List.mem_reverse]) hr
  exact ⟨List.reverse_inj.mp hd, List.reverse_inj.mp hs⟩

/-! ## Numerals -/

section

variable {u : CodeUnits α} (hu : u.Distinct)
include hu

theorem CodeUnits.minus_notMem_digits (n : Nat) : u.minus ∉ u.digits n := by
  intro h
  obtain ⟨c, hc, he⟩ := List.mem_map.mp h
  exact hu.digit_ne_minus c
    (Nat.isDigit_of_mem_toDigits (by decide) (by decide) hc) he

theorem CodeUnits.digits_injective {n m : Nat} (h : u.digits n = u.digits m) :
    n = m := by
  have hdigit : ∀ k, ∀ c ∈ Nat.toDigits 10 k, c.isDigit = true :=
    fun k c hc => Nat.isDigit_of_mem_toDigits (by decide) (by decide) hc
  have hchars : ∀ {cs ds : List Char}, (∀ c ∈ cs, c.isDigit = true) →
      (∀ d ∈ ds, d.isDigit = true) → cs.map u.digit = ds.map u.digit →
      cs = ds := by
    intro cs
    induction cs with
    | nil => intro ds _ _ h; exact (List.map_eq_nil_iff.mp h.symm).symm
    | cons c cs ih =>
        intro ds hc hd h
        cases ds with
        | nil => cases h
        | cons d ds =>
            simp only [List.map_cons, List.cons.injEq] at h
            rw [List.forall_mem_cons] at hc hd
            rw [hu.digit_inj c d hc.1 hd.1 h.1, ih hc.2 hd.2 h.2]
  have he := hchars (hdigit n) (hdigit m) h
  rw [← Nat.ofDigitChars_ten_toDigits (n := n),
    ← Nat.ofDigitChars_ten_toDigits (n := m), he]

/-- Digits do not start with the sign. -/
theorem CodeUnits.digits_append_ne_minus (n : Nat) (s s' : List α) :
    u.digits n ++ s ≠ u.minus :: s' := by
  have hne : u.digits n ≠ [] := by
    rw [CodeUnits.digits, Ne, List.map_eq_nil_iff]
    exact Nat.toDigits_ne_nil
  cases hd : u.digits n with
  | nil => exact absurd hd hne
  | cons d ds =>
      intro h
      rw [List.cons_append, List.cons.injEq] at h
      refine CodeUnits.minus_notMem_digits hu n ?_
      rw [hd, h.1]
      exact List.mem_cons_self

/-- A numeral and what follows the separator behind it. -/
theorem CodeUnits.numeral_append_minus {n m : Int} {s s' : List α}
    (h : u.numeral n ++ u.minus :: s = u.numeral m ++ u.minus :: s') :
    n = m ∧ s = s' := by
  have hn := CodeUnits.minus_notMem_digits hu n.natAbs
  have hm := CodeUnits.minus_notMem_digits hu m.natAbs
  rw [CodeUnits.numeral, CodeUnits.numeral] at h
  split at h
  · next hneg =>
    split at h
    · next hneg' =>
      simp only [List.cons_append, List.nil_append, List.cons.injEq,
        true_and] at h
      obtain ⟨hd, hs⟩ := append_cons_inj_left hn hm h
      have := CodeUnits.digits_injective hu hd
      exact ⟨by omega, hs⟩
    · simp only [List.cons_append, List.nil_append] at h
      exact absurd h.symm (CodeUnits.digits_append_ne_minus hu _ _ _)
  · next hpos =>
    split at h
    · simp only [List.cons_append, List.nil_append] at h
      exact absurd h (CodeUnits.digits_append_ne_minus hu _ _ _)
    · next hpos' =>
      obtain ⟨hd, hs⟩ := append_cons_inj_left hn hm h
      have := CodeUnits.digits_injective hu hd
      exact ⟨by omega, hs⟩

theorem CodeUnits.numeral_injective {n m : Int} (h : u.numeral n = u.numeral m) :
    n = m := by
  have hsep : u.numeral n ++ [u.minus] = u.numeral m ++ [u.minus] := by rw [h]
  exact (CodeUnits.numeral_append_minus hu hsep).1

/-- A text with a numeral behind a separator. The sign of a negative number
can be taken for the separator, and the separator for the end of the text. -/
theorem CodeUnits.append_minus_numeral {n m : Int} {s s' : List α} :
    s ++ u.minus :: u.numeral n = s' ++ u.minus :: u.numeral m ↔
      (s = s' ∧ n = m) ∨ (n < 0 ∧ m = -n ∧ s' = s ++ [u.minus]) ∨
        (m < 0 ∧ n = -m ∧ s = s' ++ [u.minus]) := by
  have hn := CodeUnits.minus_notMem_digits hu n.natAbs
  have hm := CodeUnits.minus_notMem_digits hu m.natAbs
  have hsplit : ∀ (t : List α) (k : Int), t ++ u.minus :: u.numeral k =
      (if k < 0 then t ++ [u.minus] else t) ++
        u.minus :: u.digits k.natAbs := by
    intro t k
    rw [CodeUnits.numeral]
    split <;> simp
  rw [hsplit, hsplit]
  constructor
  · intro h
    obtain ⟨ht, hd⟩ := append_cons_inj_right hn hm h
    have habs := CodeUnits.digits_injective hu hd
    split at ht
    · next hneg =>
      split at ht
      · exact .inl ⟨List.append_cancel_right ht, by omega⟩
      · exact .inr (.inl ⟨hneg, by omega, ht.symm⟩)
    · split at ht
      · next hneg => exact .inr (.inr ⟨hneg, by omega, ht⟩)
      · exact .inl ⟨ht, by omega⟩
  · rintro (⟨rfl, rfl⟩ | ⟨hneg, rfl, rfl⟩ | ⟨hneg, rfl, rfl⟩)
    · rfl
    · rw [if_pos hneg, if_neg (by omega), Int.natAbs_neg]
    · rw [if_pos hneg, if_neg (by omega), Int.natAbs_neg]

end

end TaxiService.Lib
