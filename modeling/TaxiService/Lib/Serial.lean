import Mathlib.Data.List.Basic

/-!
# One-at-a-time executions

An object answers calls: a call takes its state to an answer and a new
state. `serial` runs a list of calls one after the other and collects the
answers. It is what a concurrent execution is compared with, so the two
facts here are the two such a comparison needs: how a list grows at its end,
and that calls which left the state alone can be dropped from it.
-/

namespace TaxiService.Lib

variable {σ ι ρ : Type}

def serial (exec : σ → ι → ρ × σ) (s : σ) : List ι → List ρ × σ
  | [] => ([], s)
  | i :: is =>
      let rest := serial exec (exec s i).2 is
      ((exec s i).1 :: rest.1, rest.2)

theorem serial_append (exec : σ → ι → ρ × σ) (s : σ) (is js : List ι) :
    serial exec s (is ++ js) =
      ((serial exec s is).1 ++ (serial exec (serial exec s is).2 js).1,
        (serial exec (serial exec s is).2 js).2) := by
  induction is generalizing s with
  | nil => rfl
  | cons i is ih => simp only [List.cons_append, serial, ih]

/-- One more call at the end. -/
theorem serial_concat {exec : σ → ι → ρ × σ} {s s' : σ} {is : List ι}
    {rs : List ρ} (h : serial exec s is = (rs, s')) (i : ι) :
    serial exec s (is ++ [i]) = (rs ++ [(exec s' i).1], (exec s' i).2) := by
  rw [serial_append, h]
  rfl

/-- The state a serial execution ends in is the end of the run. -/
theorem serial_snd (exec : σ → ι → ρ × σ) (s : σ) (is : List ι) :
    (serial exec s is).2 = is.foldl (fun s i => (exec s i).2) s := by
  induction is generalizing s with
  | nil => rfl
  | cons i is ih => exact ih _

/-- Two machines that a relation keeps in step, and whose answers look alike
as long as it holds, have executions that look alike. -/
theorem serial_sim {τ ω : Type} {exec : σ → ι → ρ × σ} {exec' : τ → ι → ρ × τ}
    {R : σ → τ → Prop} {look : ρ → ω}
    (hstep : ∀ s t i, R s t → look (exec s i).1 = look (exec' t i).1 ∧
      R (exec s i).2 (exec' t i).2) :
    ∀ {is : List ι} {s : σ} {t : τ}, R s t →
      (serial exec s is).1.map look = (serial exec' t is).1.map look := by
  intro is
  induction is with
  | nil => intro s t _; rfl
  | cons i is ih =>
      intro s t h
      obtain ⟨hlook, hnext⟩ := hstep s t i h
      simp only [serial, List.map_cons, hlook, ih hnext]

/-- Calls whose answer says that they changed nothing can be left out. -/
theorem serial_filter {exec : σ → ι → ρ × σ} (quiet : ρ → Prop)
    (hquiet : ∀ s i, quiet (exec s i).1 → (exec s i).2 = s)
    {answer : ι → ρ} (keep : ι → Bool) :
    ∀ {is : List ι} {s s' : σ}, serial exec s is = (is.map answer, s') →
      (∀ i ∈ is, keep i = false → quiet (answer i)) →
      serial exec s (is.filter keep) = ((is.filter keep).map answer, s') := by
  intro is
  induction is with
  | nil => intro s s' h _; exact h
  | cons i is ih =>
      intro s s' h hdrop
      simp only [serial, List.map_cons, Prod.mk.injEq, List.cons.injEq] at h
      obtain ⟨⟨hhead, htail⟩, hend⟩ := h
      have hrest := ih (Prod.ext htail hend)
        fun j hj => hdrop j (List.mem_cons_of_mem _ hj)
      rw [List.filter_cons]
      split
      · simp only [serial, List.map_cons, hrest, hhead]
      · next hk =>
          have hq := hdrop i List.mem_cons_self (by simpa using hk)
          rw [← hhead] at hq
          rw [hquiet s i hq] at hrest
          exact hrest

end TaxiService.Lib
