import Mathlib.Data.List.Infix

/-!
# Topics

A topic exchange routes a message by the words of its routing key, which dots
separate. A binding is a pattern of such words, in which `*` stands for any one
word and `#` for any number of them.

What rests on an exchange rarely needs more of it than two things: a pattern
without wildcards takes the key that it is and no other (`takesTopic_literal`),
and `#` takes every key (`takesTopic_everything`).
-/

namespace TaxiService.Lib

/-! ## Patterns of words -/

inductive TopicWord (W : Type) where
  | word (w : W)
  | one
  | many
  deriving DecidableEq, Repr

section

variable {W : Type} [DecidableEq W]

def takesWords : List (TopicWord W) → List W → Bool
  | [], ws => ws.isEmpty
  | .many :: ps, ws => ws.tails.any (takesWords ps)
  | .one :: ps, ws => match ws with
      | [] => false
      | _ :: ws => takesWords ps ws
  | .word w :: ps, ws => match ws with
      | [] => false
      | v :: ws => decide (w = v) && takesWords ps ws

/-- Words take themselves and nothing else. -/
theorem takesWords_words (vs ws : List W) :
    takesWords (vs.map .word) ws = true ↔ vs = ws := by
  induction vs generalizing ws with
  | nil =>
      cases ws with
      | nil => simp [takesWords]
      | cons w ws => simp [takesWords]
  | cons v vs ih =>
      cases ws with
      | nil => simp [takesWords]
      | cons w ws => simp [takesWords, ih]

theorem takesWords_many (ws : List W) : takesWords [.many] ws = true := by
  rw [takesWords, List.any_eq_true]
  exact ⟨[], (List.mem_tails _ _).mpr List.nil_suffix, rfl⟩

end

/-! ## Texts -/

/-- A star and a hash are wildcards where they are a whole word. -/
def topicWord (w : List Nat) : TopicWord (List Nat) :=
  if w = [42] then .one else if w = [35] then .many else .word w

/-- Does the pattern take the key? -/
def takesTopic (pattern key : List Nat) : Bool :=
  takesWords ((pattern.splitOn 46).map topicWord) (key.splitOn 46)

theorem splitOn_injective {s t : List Nat}
    (h : s.splitOn 46 = t.splitOn 46) : s = t := by
  have hs : [46].intercalate (s.splitOn 46) = s := List.intercalate_splitOn 46
  rw [h, List.intercalate_splitOn] at hs
  exact hs.symm

theorem subset_intercalate {α : Type} (sep : List α) {parts : List (List α)}
    {part : List α} (h : part ∈ parts) : part ⊆ sep.intercalate parts := by
  induction parts with
  | nil => cases h
  | cons first rest ih =>
      rcases rest with - | ⟨second, rest⟩
      · rw [List.mem_singleton.mp h, List.intercalate_singleton]
        exact List.Subset.refl _
      · rw [List.intercalate_cons_cons]
        rcases List.mem_cons.mp h with rfl | hrest
        · rw [List.append_assoc]
          exact List.subset_append_left _ _
        · exact List.Subset.trans (ih hrest) (List.subset_append_right _ _)

theorem mem_of_mem_splitOn {s w : List Nat} {c : Nat} (hw : w ∈ s.splitOn 46)
    (hc : c ∈ w) : c ∈ s := by
  have hs : [46].intercalate (s.splitOn 46) = s := List.intercalate_splitOn 46
  rw [← hs]
  exact subset_intercalate [46] hw hc

/-- A pattern without wildcards takes the key that it is. -/
theorem takesTopic_literal {pattern : List Nat} (hstar : 42 ∉ pattern)
    (hhash : 35 ∉ pattern) (key : List Nat) :
    takesTopic pattern key = true ↔ pattern = key := by
  have hwords : (pattern.splitOn 46).map topicWord =
      (pattern.splitOn 46).map .word := by
    refine List.map_congr_left fun w hw => ?_
    rw [topicWord, if_neg, if_neg]
    · rintro rfl
      exact hhash (mem_of_mem_splitOn hw List.mem_cons_self)
    · rintro rfl
      exact hstar (mem_of_mem_splitOn hw List.mem_cons_self)
  rw [takesTopic, hwords, takesWords_words]
  exact ⟨splitOn_injective, fun h => h ▸ rfl⟩

theorem takesTopic_everything (key : List Nat) : takesTopic [35] key = true :=
  takesWords_many _

end TaxiService.Lib
