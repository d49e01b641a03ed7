import Mathlib.Data.List.Pairwise
import TaxiService.Lib.Decimal
import TaxiService.Spec.EventIds

/-!
# Events with one id

The id is the event type and a decimal numeral behind a separator, so two ids
agree exactly when type and reading do (`eventId_eq_iff`). A run has the
identity its documentation promises when no two calls of one type fall into
one millisecond, and a consumer that drops repeated ids loses an event as soon
as two of them do.
-/

namespace TaxiService.Proofs

open TaxiService.Lib TaxiService.Model TaxiService.Spec

variable {F : Type}

/-- An f-string writes code points. -/
def codePointUnits : CodeUnits Nat := ⟨45, Char.toNat⟩

theorem codePointUnits_distinct : codePointUnits.Distinct where
  digit_inj _ _ _ _ h := Char.toNat_inj.mp h
  digit_ne_minus c hc h := by
    have h : c.toNat = 45 := h
    simp only [Char.isDigit, Bool.and_eq_true, decide_eq_true_eq] at hc
    have := hc.1
    change 48 ≤ c.toNat at this
    omega

theorem eventId_eq (c : EventCall F) : c.eventId = some
    (c.eventType ++ codePointUnits.minus :: codePointUnits.numeral c.millis) := by
  simp only [EventCall.eventId, EventCall.event, makeEvent, Assoc.get?,
    if_true, List.append_assoc]
  rfl

theorem eventId_eq_iff (c d : EventCall F) :
    c.eventId = d.eventId ↔ SameStamp c d := by
  rw [eventId_eq, eventId_eq, Option.some.injEq,
    CodeUnits.append_minus_numeral codePointUnits_distinct]
  rfl

/-! ## The consumer that drops repetitions -/

section

variable {ι κ : Type} [DecidableEq κ] {key : ι → κ}

/-- Where the keys tell the entries apart, dropping the keys seen before drops
no entry whose key was not seen. -/
theorem mem_keepNew {is : List ι}
    (hkey : ∀ i ∈ is, ∀ j ∈ is, key i = key j → i = j) :
    ∀ {seen : List κ}, ∀ i ∈ is, key i ∉ seen → i ∈ keepNew key seen is := by
  induction is with
  | nil => intro seen i hi; cases hi
  | cons j is ih =>
      intro seen i hi hseen
      have hkey' : ∀ i ∈ is, ∀ j ∈ is, key i = key j → i = j :=
        fun i hi j hj => hkey i (List.mem_cons_of_mem _ hi) j
          (List.mem_cons_of_mem _ hj)
      rw [keepNew]
      by_cases hij : key i = key j
      · have := hkey i hi j List.mem_cons_self hij
        subst this
        rw [if_neg hseen]
        exact List.mem_cons_self
      · have hmem : i ∈ is := by
          rcases List.mem_cons.mp hi with rfl | hmem
          · exact absurd rfl hij
          · exact hmem
        split
        · exact ih hkey' i hmem hseen
        · refine List.mem_cons_of_mem _ (ih hkey' i hmem ?_)
          rw [List.mem_cons, not_or]
          exact ⟨hij, hseen⟩

end

/-! ## The result -/

/-- The ids of a run tell its calls apart exactly when no two of its calls
bear the same stamp, whatever the clock does. -/
theorem eventIdentity_iff (calls : List (EventCall F)) :
    EventIdentity calls ↔ calls.Pairwise fun c d => ¬SameStamp c d := by
  have hunique : (calls.Pairwise fun c d => c.eventId ≠ d.eventId) ↔
      calls.Pairwise fun c d => ¬SameStamp c d := by
    simp only [ne_eq, eventId_eq_iff]
  refine ⟨fun h => hunique.mp h.unique, fun h => ?_⟩
  have h := hunique.mpr h
  refine ⟨h, fun deliveries i hi => ?_⟩
  refine mem_keepNew (fun i _ j _ heq => ?_) i hi List.not_mem_nil
  rw [List.pairwise_iff_get] at h
  rcases Nat.lt_trichotomy i.val j.val with hlt | hij | hgt
  · exact absurd heq (h i j hlt)
  · exact Fin.ext hij
  · exact absurd heq.symm (h j i hgt)

/-- Two producers, each with a ride of its own. -/
def sameMillisecond : List (EventCall Unit) :=
  [⟨1, py "ride.created", .dict [(py "ride_id", .int 101)], 1779703200000,
      py "2026-05-25T10:00:00+00:00"⟩,
    ⟨2, py "ride.created", .dict [(py "ride_id", .int 102)], 1779703200000,
      py "2026-05-25T10:00:00+00:00"⟩]

/-- They publish within one millisecond, and the second event goes under the
id of the first. -/
theorem sameMillisecond_not_identity :
    ClockForward sameMillisecond ∧ ¬EventIdentity sameMillisecond ∧
      (1 : Fin 2) ∉ keepNew (fun i : Fin 2 => (sameMillisecond.get i).eventId)
        [] [0, 1] := by
  refine ⟨?_, fun h => ?_, by decide⟩
  · exact List.pairwise_pair.mpr (Int.le_refl _)
  · have hunique := h.unique
    rw [sameMillisecond, List.pairwise_pair] at hunique
    exact hunique rfl

end TaxiService.Proofs
