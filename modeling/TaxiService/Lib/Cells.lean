import TaxiService.Lib.Run

/-!
# Stores of independent cells

A step of such a store concerns some of its cells, and it moves each of these
by what the cell holds and by the input alone. What a cell holds after a run is
then what the inputs that concern it made of it, in their order
(`Independent.cell_run`). So the other inputs may be left out
(`Independent.cell_filter`), and a run with the same inputs for a cell leaves
the same in it (`Independent.cell_congr`).
-/

namespace TaxiService.Lib

variable {σ ι κ τ : Type}

/-- The cells of a store move independently, in the states the invariant
holds of. -/
structure Independent (step : σ → ι → σ) (inv : σ → Prop) (cell : σ → κ → τ)
    (concerns : ι → κ → Bool) (move : κ → τ → ι → τ) : Prop where
  keeps : ∀ s i, inv s → inv (step s i)
  moves : ∀ s i k, inv s →
    cell (step s i) k = if concerns i k then move k (cell s k) i else cell s k

variable {step : σ → ι → σ} {inv : σ → Prop} {cell : σ → κ → τ}
  {concerns : ι → κ → Bool} {move : κ → τ → ι → τ}

theorem Independent.cell_run (h : Independent step inv cell concerns move)
    (k : κ) (is : List ι) {s : σ} (hs : inv s) :
    cell (run step s is) k =
      (is.filter (concerns · k)).foldl (move k) (cell s k) := by
  induction is generalizing s with
  | nil => rfl
  | cons i is ih =>
      rw [run_cons, ih (h.keeps s i hs), h.moves s i k hs, List.filter_cons]
      split <;> rfl

theorem Independent.cell_congr (h : Independent step inv cell concerns move)
    {k : κ} {is js : List ι}
    (heq : is.filter (concerns · k) = js.filter (concerns · k)) {s : σ}
    (hs : inv s) : cell (run step s is) k = cell (run step s js) k := by
  rw [h.cell_run k is hs, h.cell_run k js hs, heq]

theorem Independent.cell_filter (h : Independent step inv cell concerns move)
    (k : κ) (is : List ι) {s : σ} (hs : inv s) :
    cell (run step s (is.filter (concerns · k))) k = cell (run step s is) k :=
  h.cell_congr (by rw [List.filter_filter]; simp) hs

end TaxiService.Lib
