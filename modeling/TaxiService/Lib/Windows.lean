import Mathlib.Data.Int.Init
import Mathlib.Data.List.Basic
import Mathlib.Tactic.Linarith

/-!
# Windows of a clock

A clock is cut into windows of one length, the window of a reading being a
floor. A window is an interval (`same_window_iff`), and an interval of the same
length meets two windows at most. So what happens at most `n` times in every
window happens at most `2 * n` times in every such interval
(`countP_interval_le`), which is all that counting by windows can promise.
-/

namespace TaxiService.Lib

variable {w : Int}

/-- The readings of the window that `t` lies in. -/
theorem same_window_iff (hw : 0 < w) (t t' : Int) :
    w * (t' / w) = w * (t / w) ↔ w * (t / w) ≤ t' ∧ t' < w * (t / w) + w := by
  rw [Int.mul_eq_mul_left_iff (by omega), Int.ediv_eq_iff_of_pos hw,
    Int.mul_comm w]

/-- A window that starts no later than `t` starts no later than its window. -/
theorem le_window (hw : 0 < w) {k t : Int} (h : w * k ≤ t) :
    w * k ≤ w * (t / w) :=
  Int.mul_le_mul_of_nonneg_left ((Int.le_ediv_iff_mul_le hw).mpr
    (by rwa [Int.mul_comm])) hw.le

theorem windows_of_interval (hw : 0 < w) {lo t : Int} (h : lo ≤ t)
    (h' : t < lo + w) : t / w = lo / w ∨ t / w = lo / w + 1 := by
  have hlo := (same_window_iff hw lo lo).mp rfl
  rw [Int.ediv_eq_iff_of_pos hw, Int.ediv_eq_iff_of_pos hw, Int.add_mul,
    Int.one_mul, Int.mul_comm _ w]
  omega

theorem countP_le_add {α : Type} {p q r : α → Bool} (l : List α)
    (h : ∀ a, p a = true → q a = true ∨ r a = true) :
    l.countP p ≤ l.countP q + l.countP r := by
  induction l with
  | nil => exact Nat.le_refl 0
  | cons a l ih =>
      have ha := h a
      rw [List.countP_cons, List.countP_cons, List.countP_cons]
      split
      · next hp =>
          rcases ha hp with hq | hr
          · rw [if_pos hq]
            omega
          · rw [if_pos hr]
            omega
      · omega

/-- At most `n` in every window is at most `2 * n` in every interval. -/
theorem countP_interval_le {α : Type} (hw : 0 < w) (time : α → Int)
    (p : α → Bool) (l : List α) {n : Int}
    (h : ∀ k, (l.countP fun a => p a && decide (time a / w = k) : Int) ≤ n)
    (lo : Int) : (l.countP fun a => p a && decide (lo ≤ time a ∧
      time a < lo + w) : Int) ≤ 2 * n := by
  have hsplit := countP_le_add l
    (p := fun a => p a && decide (lo ≤ time a ∧ time a < lo + w))
    (q := fun a => p a && decide (time a / w = lo / w))
    (r := fun a => p a && decide (time a / w = lo / w + 1)) fun a ha => by
      simp only [Bool.and_eq_true, decide_eq_true_eq] at ha ⊢
      exact (windows_of_interval hw ha.2.1 ha.2.2).imp
        (And.intro ha.1) (And.intro ha.1)
  have hfirst := h (lo / w)
  have hsecond := h (lo / w + 1)
  omega

end TaxiService.Lib
