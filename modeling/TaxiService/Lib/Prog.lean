import Mathlib.Logic.Basic

/-!
# Programs over effects

The body of a handler calls out: to a database, a cache, a file, a broker.
`Prog` is such a body with the calls left open. A program returns, throws, or
asks for an effect and goes on with its answer.

What the calls do is said apart, by an interpretation, so one body has several
meanings. `run` executes it without interruption. `step` executes one call and
gives back the rest of the program, which is all a scheduler that interleaves
several programs needs, and all that is left of one that is killed half way.
`calls` is the list of calls an execution makes.

What holds at every point of an execution, and not only at its end, is said by
`Throughout`. It has the rules of a program logic: sequencing passes what the
first program ends in to the second, and a handler gets what an exception ends
in.
-/

namespace TaxiService.Lib

/-- A computation that went through went through at its first link. -/
theorem bind_ok {ε α β : Type} {x : Except ε α} {f : α → Except ε β} {b : β}
    (h : (x >>= f) = .ok b) : ∃ a, x = .ok a ∧ f a = .ok b := by
  cases x with
  | error e => cases h
  | ok a => exact ⟨a, rfl, h⟩

/-- A program over the effects `E` with their answers `R`, that throws `ε`. -/
inductive Prog (E : Type) (R : E → Type) (ε α : Type) where
  | pure (a : α)
  | throw (x : ε)
  | op (e : E) (k : R e → Prog E R ε α)

namespace Prog

variable {E : Type} {R : E → Type} {ε ε' α β σ : Type}

def bind : Prog E R ε α → (α → Prog E R ε β) → Prog E R ε β
  | .pure a, f => f a
  | .throw x, _ => .throw x
  | .op e k, f => .op e fun r => (k r).bind f

/-- `try p except x: h x`. -/
def tryCatch : Prog E R ε α → (ε → Prog E R ε' α) → Prog E R ε' α
  | .pure a, _ => .pure a
  | .throw x, h => h x
  | .op e k, h => .op e fun r => (k r).tryCatch h

instance : Monad (Prog E R ε) where
  pure := .pure
  bind := .bind

theorem pure_then (a : α) (f : α → Prog E R ε β) :
    ((.pure a : Prog E R ε α) >>= f) = f a := rfl

theorem bind_assoc {γ : Type} (p : Prog E R ε α) (f : α → Prog E R ε β)
    (g : β → Prog E R ε γ) : p >>= f >>= g = p >>= fun a => f a >>= g := by
  induction p with
  | pure a => rfl
  | throw x => rfl
  | op e k ih => exact congrArg (Prog.op e) (funext ih)

/-- One call. -/
def perform (e : E) : Prog E R ε (R e) := .op e .pure

/-- A computation without effects. -/
def ofExcept : Except ε α → Prog E R ε α
  | .ok a => .pure a
  | .error x => .throw x

/-! ## Execution -/

/-- The program run to its end. -/
def run (interp : (e : E) → σ → R e × σ) : Prog E R ε α → σ → Except ε α × σ
  | .pure a, s => (.ok a, s)
  | .throw x, s => (.error x, s)
  | .op e k, s => (k (interp e s).1).run interp (interp e s).2

/-- The calls the program makes when it is run to its end. -/
def calls (interp : (e : E) → σ → R e × σ) : Prog E R ε α → σ → List E
  | .pure _, _ => []
  | .throw _, _ => []
  | .op e k, s => e :: (k (interp e s).1).calls interp (interp e s).2

/-- What a finished program answered. -/
def outcome? : Prog E R ε α → Option (Except ε α)
  | .pure a => some (.ok a)
  | .throw x => some (.error x)
  | .op _ _ => none

/-- One call of the program, and the rest of it. -/
def step (interp : (e : E) → σ → R e × σ) :
    Prog E R ε α → σ → Prog E R ε α × σ
  | .pure a, s => (.pure a, s)
  | .throw x, s => (.throw x, s)
  | .op e k, s => (k (interp e s).1, (interp e s).2)

@[simp] theorem run_op (interp : (e : E) → σ → R e × σ) (e : E)
    (k : R e → Prog E R ε α) (s : σ) :
    (.op e k : Prog E R ε α).run interp s =
      (k (interp e s).1).run interp (interp e s).2 := rfl

theorem run_bind (interp : (e : E) → σ → R e × σ) (p : Prog E R ε α)
    (f : α → Prog E R ε β) (s : σ) : (p >>= f).run interp s =
      match p.run interp s with
      | (.ok a, s') => (f a).run interp s'
      | (.error x, s') => (.error x, s') := by
  induction p generalizing s with
  | pure a => rfl
  | throw x => rfl
  | op e k ih => exact ih _ _

theorem calls_bind (interp : (e : E) → σ → R e × σ) (p : Prog E R ε α)
    (f : α → Prog E R ε β) (s : σ) : (p >>= f).calls interp s =
      p.calls interp s ++ match p.run interp s with
        | (.ok a, s') => (f a).calls interp s'
        | (.error _, _) => [] := by
  induction p generalizing s with
  | pure a => rfl
  | throw x => rfl
  | op e k ih => exact congrArg (e :: ·) (ih _ _)

theorem run_tryCatch (interp : (e : E) → σ → R e × σ) (p : Prog E R ε α)
    (h : ε → Prog E R ε' α) (s : σ) : (p.tryCatch h).run interp s =
      match p.run interp s with
      | (.ok a, s') => (.ok a, s')
      | (.error x, s') => (h x).run interp s' := by
  induction p generalizing s with
  | pure a => rfl
  | throw x => rfl
  | op e k ih => exact ih _ _

theorem run_ofExcept (interp : (e : E) → σ → R e × σ) (x : Except ε α)
    (s : σ) : (ofExcept x : Prog E R ε α).run interp s = (x, s) := by
  cases x <;> rfl

theorem run_ofExcept_bind (interp : (e : E) → σ → R e × σ) (x : Except ε α)
    (f : α → Prog E R ε β) (s : σ) : (ofExcept x >>= f).run interp s =
      match x with
      | .ok a => (f a).run interp s
      | .error x => (.error x, s) := by
  cases x <;> rfl

/-- A finished program has nothing left to run. -/
theorem run_of_outcome {p : Prog E R ε α} {out : Except ε α}
    (h : p.outcome? = some out) (interp : (e : E) → σ → R e × σ) (s : σ) :
    p.run interp s = (out, s) := by
  cases p with
  | pure a => cases h; rfl
  | throw x => cases h; rfl
  | op e k => cases h

/-! ## At every point of an execution -/

/-- Before every call `I` holds of the call and the state, as long as the calls
so far were allowed, and `Q` holds of what the program ends in. -/
def Throughout (interp : (e : E) → σ → R e × σ) (allowed I : E → σ → Prop)
    (Q : Except ε α → σ → Prop) : Prog E R ε α → σ → Prop
  | .pure a, s => Q (.ok a) s
  | .throw x, s => Q (.error x) s
  | .op e k, s => I e s ∧ (allowed e s →
      (k (interp e s).1).Throughout interp allowed I Q (interp e s).2)

section

variable {interp : (e : E) → σ → R e × σ} {allowed I : E → σ → Prop}

theorem Throughout.imp {p : Prog E R ε α} {s : σ}
    {Q Q' : Except ε α → σ → Prop} (h : p.Throughout interp allowed I Q s)
    (hQ : ∀ out s, Q out s → Q' out s) :
    p.Throughout interp allowed I Q' s := by
  induction p generalizing s with
  | pure a => exact hQ _ s h
  | throw x => exact hQ _ s h
  | op e k ih => exact ⟨h.1, fun ha => ih _ (h.2 ha)⟩

theorem throughout_bind {p : Prog E R ε α} {f : α → Prog E R ε β} {s : σ}
    {Q : Except ε α → σ → Prop} {Q' : Except ε β → σ → Prop}
    (h : p.Throughout interp allowed I Q s)
    (hok : ∀ a s, Q (.ok a) s → (f a).Throughout interp allowed I Q' s)
    (herror : ∀ x s, Q (.error x) s → Q' (.error x) s) :
    (p >>= f).Throughout interp allowed I Q' s := by
  induction p generalizing s with
  | pure a => exact hok a s h
  | throw x => exact herror x s h
  | op e k ih => exact ⟨h.1, fun ha => ih _ (h.2 ha)⟩

theorem throughout_tryCatch {p : Prog E R ε α} {h : ε → Prog E R ε' α} {s : σ}
    {Q : Except ε α → σ → Prop} {Q' : Except ε' α → σ → Prop}
    (hp : p.Throughout interp allowed I Q s)
    (hok : ∀ a s, Q (.ok a) s → Q' (.ok a) s)
    (herror : ∀ x s, Q (.error x) s → (h x).Throughout interp allowed I Q' s) :
    (p.tryCatch h).Throughout interp allowed I Q' s := by
  induction p generalizing s with
  | pure a => exact hok a s hp
  | throw x => exact herror x s hp
  | op e k ih => exact ⟨hp.1, fun ha => ih _ (hp.2 ha)⟩

theorem throughout_ofExcept {x : Except ε α} {Q : Except ε α → σ → Prop}
    {s : σ} (h : Q x s) :
    (ofExcept x : Prog E R ε α).Throughout interp allowed I Q s := by
  cases x <;> exact h

theorem throughout_ofExcept_bind {x : Except ε α} {f : α → Prog E R ε β} {s : σ}
    {Q : Except ε β → σ → Prop}
    (hok : ∀ a, x = .ok a → (f a).Throughout interp allowed I Q s)
    (herror : ∀ e, x = .error e → Q (.error e) s) :
    (ofExcept x >>= f).Throughout interp allowed I Q s := by
  cases x with
  | ok a => exact hok a rfl
  | error e => exact herror e rfl

/-- One call keeps what is known of the rest. -/
theorem Throughout.step {p : Prog E R ε α} {s : σ}
    {Q : Except ε α → σ → Prop} (h : p.Throughout interp allowed I Q s)
    (ha : ∀ e k, p = .op e k → allowed e s) :
    (p.step interp s).1.Throughout interp allowed I Q (p.step interp s).2 := by
  cases p with
  | pure a => exact h
  | throw x => exact h
  | op e k => exact h.2 (ha e k rfl)

theorem Throughout.outcome {p : Prog E R ε α} {s : σ}
    {Q : Except ε α → σ → Prop} (h : p.Throughout interp allowed I Q s)
    (hp : p.outcome?.isSome) : ∃ out, Q out s := by
  cases p with
  | pure a => exact ⟨_, h⟩
  | throw x => exact ⟨_, h⟩
  | op e k => cases hp

end

end Prog

end TaxiService.Lib
