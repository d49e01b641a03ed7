import Mathlib.Logic.Relation
import Mathlib.Order.Basic

/-!
# Waiting and deadlock

Parties that wait for one another. A deadlock is a cycle of any length, a
party alone waiting for itself included.

A rank that falls from every party to whom it waits for excludes cycles, and
says more than that: follow the chain from any party and it ends at one that
waits for nobody (`Ranked.runner`), so somebody can always go on.
-/

namespace TaxiService.Lib

variable {α : Type} {waits : α → α → Prop} {rank : α → Nat}

/-- Some party waits, from one to the next, for itself. -/
def Deadlocked (waits : α → α → Prop) : Prop := ∃ i, Relation.TransGen waits i i

/-- The rank falls along every wait. -/
def Ranked (waits : α → α → Prop) (rank : α → Nat) : Prop :=
  ∀ i j, waits i j → rank j < rank i

theorem Ranked.not_deadlocked (h : Ranked waits rank) : ¬ Deadlocked waits := by
  rintro ⟨i, hcycle⟩
  have hfall : ∀ j, Relation.TransGen waits i j → rank j < rank i := by
    intro j hj
    induction hj with
    | single hij => exact h _ _ hij
    | tail _ hjk ih => exact Nat.lt_trans (h _ _ hjk) ih
  exact Nat.lt_irrefl _ (hfall i hcycle)

/-- At the end of every chain of waits stands a party that does not wait. -/
theorem Ranked.runner (h : Ranked waits rank) (i : α) :
    ∃ j, Relation.ReflTransGen waits i j ∧ ∀ k, ¬ waits j k := by
  induction hn : rank i using Nat.strongRecOn generalizing i with
  | _ n ih =>
      by_cases hwaits : ∃ j, waits i j
      · obtain ⟨j, hij⟩ := hwaits
        obtain ⟨k, hjk, hrunner⟩ := ih (rank j) (hn ▸ h i j hij) j rfl
        exact ⟨k, .head hij hjk, hrunner⟩
      · exact ⟨i, .refl, fun k hk => hwaits ⟨k, hk⟩⟩

end TaxiService.Lib
