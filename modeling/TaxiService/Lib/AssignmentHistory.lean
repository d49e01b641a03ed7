import Mathlib.Data.List.Basic
import TaxiService.Lib.Assignment

/-!
# The history of a board

A dispatcher that writes down what it does makes one entry a step: a worker was
hired, or a job came to a stage (`Moved`). `ofEntries` is the board that the
entries tell of, and `Recorded` says that it is the board there is. Moreover
the entries of one job are an initial piece of posted, assigned and closed,
with one worker in it (`Ladder`), and a worker who takes a second job has closed
the first one before (`InTurn`).

`Recorded.moved` keeps it over a step, so that it holds of every history from
the empty board.
-/

namespace TaxiService.Lib

inductive Entry (J W : Type) where
  | hired (w : W)
  | moved (j : J) (s : Stage W)
  deriving DecidableEq

namespace Board

variable {J W : Type}

/-- A worker closes a job before the next. -/
def InTurn (entries : List (Entry J W)) : Prop :=
  ∀ before j w between j' after, entries =
    before ++ .moved j (.assigned w) :: between ++
      .moved j' (.assigned w) :: after →
    .moved j (.closed w) ∈ between

theorem InTurn.concat {entries : List (Entry J W)} (h : InTurn entries)
    {entry : Entry J W} (hlast : ∀ before j w between k,
      entry = .moved k (.assigned w) →
      entries = before ++ .moved j (.assigned w) :: between →
      .moved j (.closed w) ∈ between) : InTurn (entries ++ [entry]) := by
  intro before j w between j' after heq
  rcases after.eq_nil_or_concat with rfl | ⟨after, m, rfl⟩
  · obtain ⟨hentries, hm⟩ := List.append_inj' heq rfl
    cases hm
    exact hlast before j w between j' rfl hentries
  · rw [List.concat_eq_append, ← List.cons_append, ← List.append_assoc] at heq
    exact h before j w between j' after (List.append_inj' heq rfl).1

variable [DecidableEq J]

/-- The steps of the board, with the entry that each makes. -/
inductive Moved (b : Board J W) : Option (Entry J W) → Board J W → Prop where
  | stay : Moved b none b
  | hire (w : W) :
      Moved b (some (.hired w)) { b with workers := insert w b.workers }
  | post {j : J} (hj : b.stage j = none) :
      Moved b (some (.moved j .posted)) (b.put j .posted)
  | take {j : J} {w : W} (hj : b.stage j = some .posted) (hw : w ∈ b.workers)
      (hfree : b.Free w) :
      Moved b (some (.moved j (.assigned w))) (b.put j (.assigned w))
  | close {j : J} {w : W} (hj : b.stage j = some (.assigned w)) :
      Moved b (some (.moved j (.closed w))) (b.put j (.closed w))

/-- The stage an entry brings the job to. -/
def stage? (j : J) : Entry J W → Option (Stage W)
  | .hired _ => none
  | .moved k s => if k = j then some s else none

/-- The stages of one job. -/
def stagesOf (j : J) (entries : List (Entry J W)) : List (Stage W) :=
  entries.filterMap (stage? j)

def ofEntries (entries : List (Entry J W)) : Board J W where
  stage j := (stagesOf j entries).getLast?
  workers := {w | .hired w ∈ entries}

/-- What the stages of a job can be. -/
inductive Ladder : List (Stage W) → Prop where
  | start : Ladder []
  | posted : Ladder [.posted]
  | assigned (w : W) : Ladder [.posted, .assigned w]
  | closed (w : W) : Ladder [.posted, .assigned w, .closed w]

structure Recorded (entries : List (Entry J W)) (b : Board J W) : Prop where
  board : b = ofEntries entries
  ladder : ∀ j, Ladder (stagesOf j entries)
  inTurn : InTurn entries

/-! ## Entries -/

theorem stagesOf_append (j : J) (entries more : List (Entry J W)) :
    stagesOf j (entries ++ more) = stagesOf j entries ++ stagesOf j more :=
  List.filterMap_append

theorem stagesOf_moved (j k : J) (s : Stage W) (entries : List (Entry J W)) :
    stagesOf j (.moved k s :: entries) =
      if k = j then s :: stagesOf j entries else stagesOf j entries := by
  simp only [stagesOf, List.filterMap_cons, stage?]
  by_cases hk : k = j
  · simp only [if_pos hk]
  · simp only [if_neg hk]

theorem mem_stagesOf {j : J} {s : Stage W} {entries : List (Entry J W)} :
    s ∈ stagesOf j entries ↔ .moved j s ∈ entries := by
  simp only [stagesOf, List.mem_filterMap]
  constructor
  · rintro ⟨entry, hmem, h⟩
    cases entry with
    | hired w => cases h
    | moved k s' =>
        simp only [stage?] at h
        split at h
        · next hk =>
            cases h
            subst hk
            exact hmem
        · cases h
  · intro hmem
    exact ⟨_, hmem, if_pos rfl⟩

theorem ofEntries_hired (entries : List (Entry J W)) (w : W) :
    ofEntries (entries ++ [.hired w]) =
      { ofEntries entries with
        workers := insert w (ofEntries entries).workers } := by
  refine Board.ext (funext fun j => ?_) (Set.ext fun v => ?_)
  · simp only [ofEntries, stagesOf_append]
    exact congrArg _ (List.append_nil _)
  · simp [ofEntries, or_comm]

theorem ofEntries_moved (entries : List (Entry J W)) (k : J) (s : Stage W) :
    ofEntries (entries ++ [.moved k s]) = (ofEntries entries).put k s := by
  refine Board.ext (funext fun j => ?_) (Set.ext fun v => ?_)
  · rw [put_stage]
    simp only [ofEntries, stagesOf_append, stagesOf_moved]
    by_cases hkj : k = j
    · rw [if_pos hkj, if_pos hkj.symm]
      exact List.getLast?_concat
    · rw [if_neg hkj, if_neg (Ne.symm hkj)]
      exact congrArg _ (List.append_nil _)
  · simp [ofEntries, put]

/-! ## Ladders -/

/-- The last stage of a ladder tells all of it. -/
theorem Ladder.of_last {l : List (Stage W)} (h : Ladder l) :
    (l.getLast? = none → l = []) ∧
    (l.getLast? = some .posted → l = [.posted]) ∧
    ∀ w, l.getLast? = some (.assigned w) → l = [.posted, .assigned w] := by
  cases h with
  | start => simp
  | posted => simp
  | assigned w => simp
  | closed w => simp

/-- A job that was assigned to a worker is still, or the next thing that
happened to it is that the worker closed it. -/
theorem Ladder.after_assigned {before after : List (Stage W)} {w : W}
    (h : Ladder (before ++ .assigned w :: after)) :
    after = [] ∨ after = [.closed w] := by
  generalize hl : before ++ .assigned w :: after = l at h
  cases h with
  | start => simp at hl
  | posted =>
      rcases before with - | ⟨s, before⟩
      · simp at hl
      · simp at hl
  | assigned w' =>
      rcases before with - | ⟨s, - | ⟨s', before⟩⟩
      · simp at hl
      · simp only [List.cons_append, List.nil_append, List.cons.injEq] at hl
        exact .inl hl.2.2
      · simp at hl
  | closed w' =>
      rcases before with - | ⟨s, - | ⟨s', - | ⟨s'', before⟩⟩⟩
      · simp at hl
      · simp only [List.cons_append, List.nil_append, List.cons.injEq,
          Stage.assigned.injEq] at hl
        obtain ⟨-, rfl, rfl⟩ := hl
        exact .inr rfl
      · simp at hl
      · simp at hl

/-! ## The step lemma -/

theorem recorded_empty : Recorded [] (empty : Board J W) where
  board := Board.ext rfl (by simp [empty, ofEntries])
  ladder j := .start
  inTurn before j w between j' after h := by simp at h

/-- An entry for a job, after which the job is on its ladder. -/
theorem Recorded.put {entries : List (Entry J W)} {b : Board J W}
    (h : Recorded entries b) {k : J} {s : Stage W}
    (hladder : Ladder (stagesOf k entries ++ [s]))
    (hfree : ∀ w, s = .assigned w → b.Free w) :
    Recorded (entries ++ [.moved k s]) (b.put k s) := by
  refine ⟨by rw [ofEntries_moved, h.board], fun j => ?_, h.inTurn.concat ?_⟩
  · rw [stagesOf_append, stagesOf_moved]
    split
    · next hkj =>
        subst hkj
        exact hladder
    · exact (List.append_nil (stagesOf j entries)).symm ▸ h.ladder j
  · rintro before j w between k' ⟨⟩ hentries
    -- The job taken first is not open, for its worker is free now.
    have hl := h.ladder j
    have hopen := hfree w rfl j
    simp only [h.board, ofEntries] at hopen
    rw [hentries, stagesOf_append, stagesOf_moved, if_pos rfl] at hl hopen
    rcases hl.after_assigned with hnil | hclosed
    · rw [hnil] at hopen
      exact absurd List.getLast?_concat hopen
    · rw [← mem_stagesOf, hclosed]
      exact List.mem_singleton_self _

theorem Recorded.moved {entries : List (Entry J W)} {b b' : Board J W}
    (h : Recorded entries b) {entry : Option (Entry J W)}
    (hm : Moved b entry b') : Recorded (entries ++ entry.toList) b' := by
  have hstage : ∀ j, b.stage j = (stagesOf j entries).getLast? := fun j => by
    rw [h.board]
    rfl
  cases hm with
  | stay =>
      rw [Option.toList_none, List.append_nil]
      exact h
  | hire w =>
      refine ⟨by rw [Option.toList_some, ofEntries_hired, h.board], fun j => ?_,
        h.inTurn.concat ?_⟩
      · rw [stagesOf_append]
        exact (List.append_nil (stagesOf j entries)).symm ▸ h.ladder j
      · rintro before j w' between k ⟨⟩
  | @post j hj =>
      rw [hstage] at hj
      refine h.put ?_ (fun w hw => by cases hw)
      rw [(h.ladder j).of_last.1 hj]
      exact .posted
  | @take j w hj hw hfree =>
      rw [hstage] at hj
      refine h.put ?_ (fun w' hw' => by cases hw'; exact hfree)
      rw [(h.ladder j).of_last.2.1 hj]
      exact .assigned w
  | @close j w hj =>
      rw [hstage] at hj
      refine h.put ?_ (fun w' hw' => by cases hw')
      rw [(h.ladder j).of_last.2.2 w hj]
      exact .closed w

end Board

end TaxiService.Lib
