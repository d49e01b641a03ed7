import Mathlib.Data.List.Basic

/-!
# Runs of a deterministic machine

Every component of this development is a step function: a state and an
input give the next state, and an input the state is not ready for leaves
it alone. A run is then a fold over the list of inputs, "every reachable
state" is every state a run ends in, and "any interleaving" is any list of
inputs, since an input names the party that moves.

Two induction rules are all the safety proofs need. `run_induction` is the
plain invariant rule. `run_induction_of` asks for the step only under a side
condition on the state and the input, and is used for the results that hold
of the runs whose steps all meet it (`AllSteps`).
-/

namespace TaxiService.Lib

variable {σ ι : Type}

/-- The state after a list of inputs. -/
def run (step : σ → ι → σ) (s : σ) (is : List ι) : σ := is.foldl step s

@[simp] theorem run_nil (step : σ → ι → σ) (s : σ) : run step s [] = s := rfl

@[simp] theorem run_cons (step : σ → ι → σ) (s : σ) (i : ι) (is : List ι) :
    run step s (i :: is) = run step (step s i) is := rfl

theorem run_append (step : σ → ι → σ) (s : σ) (is js : List ι) :
    run step s (is ++ js) = run step (run step s is) js :=
  List.foldl_append

theorem run_concat (step : σ → ι → σ) (s : σ) (is : List ι) (i : ι) :
    run step s (is ++ [i]) = step (run step s is) i := by
  rw [run_append, run_cons, run_nil]

/-- A property of the start that every step keeps holds at the end of every
run. -/
theorem run_induction {step : σ → ι → σ} {P : σ → Prop}
    (hstep : ∀ s i, P s → P (step s i)) :
    ∀ {is : List ι} {s : σ}, P s → P (run step s is) := by
  intro is
  induction is with
  | nil => intro s h; exact h
  | cons i is ih => intro s h; exact ih (hstep s i h)

/-- Every step of the run meets the condition in the state it starts from. -/
def AllSteps (step : σ → ι → σ) (ok : σ → ι → Prop) (s : σ) : List ι → Prop
  | [] => True
  | i :: is => ok s i ∧ AllSteps step ok (step s i) is

instance AllSteps.decidable (step : σ → ι → σ) (ok : σ → ι → Prop)
    [∀ s i, Decidable (ok s i)] : ∀ (s : σ) (is : List ι),
    Decidable (AllSteps step ok s is)
  | _, [] => inferInstanceAs (Decidable True)
  | s, i :: is =>
      have := AllSteps.decidable step ok (step s i) is
      inferInstanceAs (Decidable (ok s i ∧ AllSteps step ok (step s i) is))

theorem allSteps_append {step : σ → ι → σ} {ok : σ → ι → Prop} :
    ∀ {is js : List ι} {s : σ}, AllSteps step ok s (is ++ js) ↔
      AllSteps step ok s is ∧ AllSteps step ok (run step s is) js := by
  intro is js
  induction is with
  | nil => intro s; simp [AllSteps]
  | cons i is ih =>
      intro s
      simp only [List.cons_append, AllSteps, run_cons, ih, and_assoc]

/-- Every step is taken in the state the steps before it lead to. -/
theorem allSteps_iff {step : σ → ι → σ} {ok : σ → ι → Prop} {s : σ}
    {is : List ι} : AllSteps step ok s is ↔
      ∀ js i ks, is = js ++ i :: ks → ok (run step s js) i := by
  constructor
  · rintro h js i ks rfl
    exact (allSteps_append.mp h).2.1
  · intro h
    induction is generalizing s with
    | nil => trivial
    | cons i is ih =>
        exact ⟨h [] i is rfl, ih fun js j ks hj =>
          h (i :: js) j ks (congrArg (i :: ·) hj)⟩

/-- The same rule for the runs whose steps all meet a condition. -/
theorem run_induction_of {step : σ → ι → σ} {ok : σ → ι → Prop} {P : σ → Prop}
    (hstep : ∀ s i, ok s i → P s → P (step s i)) :
    ∀ {is : List ι} {s : σ}, AllSteps step ok s is → P s →
      P (run step s is) := by
  intro is
  induction is with
  | nil => intro s _ h; exact h
  | cons i is ih => intro s hok h; exact ih hok.2 (hstep s i hok.1 h)

end TaxiService.Lib
