import Mathlib.Data.Set.Insert
import Mathlib.Logic.Function.Basic
import Mathlib.Logic.Relation

/-!
# Jobs assigned to workers

The general pattern behind a dispatcher: jobs are posted, a free worker takes
an open job, and the worker closes it and is free again. A worker is free
when no job is assigned to it, so there is no second place where "free" is
recorded and nothing to keep in step.

The two invariants are that no worker holds two jobs (`Exclusive`) and that
only known workers hold any (`Staffed`). Besides them there is what a step
may do to one job: a stage only moves forward, one place at a time, and
names the same worker ever after (`Stage.Advance`).
-/

namespace TaxiService.Lib

inductive Stage (W : Type) where
  | posted
  | assigned (w : W)
  | closed (w : W)
  deriving DecidableEq

/-- The jobs with their stages, and the workers. -/
@[ext] structure Board (J W : Type) where
  stage : J → Option (Stage W)
  workers : Set W

variable {J W : Type}

namespace Stage

/-- What one step may do to a stage. -/
inductive Advance : Stage W → Stage W → Prop where
  | same (s : Stage W) : Advance s s
  | take (w : W) : Advance .posted (.assigned w)
  | close (w : W) : Advance (.assigned w) (.closed w)

/-- The worker a stage names. -/
def worker? : Stage W → Option W
  | .posted => none
  | .assigned w => some w
  | .closed w => some w

theorem Advance.worker {s s' : Stage W} (h : Advance s s') {w : W}
    (hw : s.worker? = some w) : s'.worker? = some w := by
  cases h with
  | same _ => exact hw
  | take w' => cases hw
  | close w' => exact hw

end Stage

namespace Board

/-- The board without jobs and workers. -/
def empty : Board J W := ⟨fun _ => none, ∅⟩

/-- No job is assigned to the worker. -/
def Free (b : Board J W) (w : W) : Prop :=
  ∀ j, b.stage j ≠ some (.assigned w)

def Exclusive (b : Board J W) : Prop :=
  ∀ j j' w, b.stage j = some (.assigned w) →
    b.stage j' = some (.assigned w) → j = j'

def Staffed (b : Board J W) : Prop :=
  ∀ j s w, b.stage j = some s → s.worker? = some w → w ∈ b.workers

theorem exclusive_empty : (empty : Board J W).Exclusive := by
  intro j j' w h
  cases h

theorem staffed_empty : (empty : Board J W).Staffed := by
  intro j s w h
  cases h

variable [DecidableEq J]

/-- A job moved to a stage. -/
def put (b : Board J W) (j : J) (s : Stage W) : Board J W :=
  { b with stage := Function.update b.stage j (some s) }

theorem put_stage (b : Board J W) (j k : J) (s : Stage W) :
    (b.put j s).stage k = if k = j then some s else b.stage k := by
  simp only [put, Function.update_apply]

/-- Moving a job does not change who has no job, but for the workers who leave
it or get it. -/
theorem free_put {b : Board J W} {j : J} {s : Stage W} {w : W}
    (hold : b.stage j ≠ some (.assigned w)) (hnew : s ≠ .assigned w) :
    (b.put j s).Free w ↔ b.Free w := by
  refine forall_congr' fun k => ?_
  rw [put_stage]
  split
  · next hk =>
      subst hk
      exact iff_of_true (fun h => hnew (Option.some.inj h)) hold
  · rfl

inductive Step (b : Board J W) : Board J W → Prop where
  | stay : Step b b
  | hire (w : W) : Step b { b with workers := insert w b.workers }
  | post {j : J} (hj : b.stage j = none) : Step b (b.put j .posted)
  | take {j : J} {w : W} (hj : b.stage j = some .posted) (hw : w ∈ b.workers)
      (hfree : b.Free w) : Step b (b.put j (.assigned w))
  | close {j : J} {w : W} (hj : b.stage j = some (.assigned w)) :
      Step b (b.put j (.closed w))

theorem Step.exclusive {b b' : Board J W} (h : Step b b')
    (hex : b.Exclusive) : b'.Exclusive := by
  cases h with
  | stay => exact hex
  | hire w => exact hex
  | post hj =>
      intro k k' w' hk hk'
      rw [put_stage] at hk hk'
      split at hk
      · cases hk
      · split at hk'
        · cases hk'
        · exact hex k k' w' hk hk'
  | @take j w hj hw hfree =>
      intro k k' w' hk hk'
      rw [put_stage] at hk hk'
      -- The new holder had no job, so it cannot be the holder of another.
      split at hk <;> split at hk'
      · next e e' => rw [e, e']
      · cases hk
        exact absurd hk' (hfree k')
      · cases hk'
        exact absurd hk (hfree k)
      · exact hex k k' w' hk hk'
  | close hj =>
      intro k k' w' hk hk'
      rw [put_stage] at hk hk'
      split at hk
      · cases hk
      · split at hk'
        · cases hk'
        · exact hex k k' w' hk hk'

theorem Step.staffed {b b' : Board J W} (h : Step b b')
    (hst : b.Staffed) : b'.Staffed := by
  cases h with
  | stay => exact hst
  | hire w => exact fun j s w' hj hw' => Or.inr (hst j s w' hj hw')
  | post hj =>
      intro k s w' hk hw'
      rw [put_stage] at hk
      split at hk
      · cases hk; cases hw'
      · exact hst k s w' hk hw'
  | take hj hw hfree =>
      intro k s w' hk hw'
      rw [put_stage] at hk
      split at hk
      · cases hk; cases hw'; exact hw
      · exact hst k s w' hk hw'
  | close hj =>
      intro k s w' hk hw'
      rw [put_stage] at hk
      split at hk
      · cases hk; cases hw'; exact hst _ _ _ hj rfl
      · exact hst k s w' hk hw'

/-- What a step does to one job: it stays, and its stage advances by at most
one place. -/
theorem Step.advance {b b' : Board J W} (h : Step b b') {k : J} {s : Stage W}
    (hk : b.stage k = some s) :
    ∃ s', b'.stage k = some s' ∧ s.Advance s' := by
  have keep : ∀ {j : J} {t : Stage W}, (k = j → s.Advance t) →
      ∃ s', (b.put j t).stage k = some s' ∧ s.Advance s' := by
    intro j t ht
    rw [put_stage]
    split
    · next e => exact ⟨t, rfl, ht e⟩
    · exact ⟨s, hk, .same s⟩
  cases h with
  | stay => exact ⟨s, hk, .same s⟩
  | hire w => exact ⟨s, hk, .same s⟩
  | post hj =>
      exact keep fun e => absurd (e ▸ hk) (by rw [hj]; simp)
  | take hj hw hfree =>
      refine keep fun e => ?_
      subst e
      rw [hk] at hj
      cases hj
      exact .take _
  | close hj =>
      refine keep fun e => ?_
      subst e
      rw [hk] at hj
      cases hj
      exact .close _

end Board

end TaxiService.Lib
