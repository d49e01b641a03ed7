import Mathlib.Data.List.Basic

/-!
# Regular expressions

What a regular expression matches depends on where the word stands, since `^`
and `$` look at what is around it: `Matches` speaks of a word, the text before
it and the text after it. Two characters may be the same letter, and which are
is a `CaseRule`; `CaseRule.exact` is the rule of a search that minds the case.

`ends` computes the matches that begin at a place, and `found` looks for one at
every place. `Matches.shorten` is the fact about the language that has no
operational reading: a match can be thinned out to one no longer than `width`,
the characters the expression cannot do without, and it still matches when the
text around it is thinned out too.
-/

namespace TaxiService.Lib

/-! ## Letters and sets of characters -/

/-- Which characters are the same letter: `same c` lists those of `c`. -/
structure CaseRule where
  same : Nat → List Nat
  refl : ∀ c, c ∈ same c
  symm : ∀ c d, c ∈ same d → d ∈ same c

namespace CaseRule

/-- No two characters are the same letter. -/
def exact : CaseRule where
  same c := [c]
  refl _ := List.mem_cons_self
  symm c d h := by rw [List.mem_singleton.mp h]; exact List.mem_cons_self

/-- The other case of an ASCII letter. -/
def otherCase (c : Nat) : Nat :=
  if 65 ≤ c ∧ c ≤ 90 then c + 32
  else if 97 ≤ c ∧ c ≤ 122 then c - 32
  else c

theorem otherCase_otherCase (c : Nat) : otherCase (otherCase c) = c := by
  grind [otherCase]

/-- The letters of ASCII and their capitals. -/
def ascii : CaseRule where
  same c := [c, otherCase c]
  refl _ := List.mem_cons_self
  symm c d h := by
    rcases List.mem_pair.mp h with rfl | rfl
    · exact List.mem_cons_self
    · rw [otherCase_otherCase]
      exact List.mem_cons_of_mem _ List.mem_cons_self

end CaseRule

/-- The characters in the ranges, or those that are not. -/
structure CharSet where
  negated : Bool
  ranges : List (Nat × Nat)
  deriving DecidableEq, Repr

namespace CharSet

def one (c : Nat) : CharSet := ⟨false, [(c, c)]⟩

/-- Is the character, in one of its cases, in the set? -/
def holds (rule : CaseRule) (set : CharSet) (c : Nat) : Bool :=
  set.negated != (rule.same c).any fun d =>
    set.ranges.any fun r => decide (r.1 ≤ d) && decide (d ≤ r.2)

theorem holds_one {rule : CaseRule} {c d : Nat} :
    (one c).holds rule d = true ↔ d ∈ rule.same c := by
  have hmem : (one c).holds rule d = true ↔ c ∈ rule.same d := by
    simp only [holds, one, List.any_cons, List.any_nil, Bool.or_false,
      Bool.false_bne, List.any_eq_true, Bool.and_eq_true, decide_eq_true_eq]
    constructor
    · rintro ⟨e, he, hle, hge⟩
      rwa [Nat.le_antisymm hle hge]
    · intro h
      exact ⟨c, h, Nat.le_refl c, Nat.le_refl c⟩
  rw [hmem]
  exact ⟨rule.symm c d, rule.symm d c⟩

theorem holds_exact {set : CharSet} {c : Nat} : set.holds .exact c =
    (set.negated != set.ranges.any fun r =>
      decide (r.1 ≤ c) && decide (c ≤ r.2)) := by
  simp only [holds, CaseRule.exact, List.any_cons, List.any_nil, Bool.or_false]

end CharSet

/-! ## Expressions -/

inductive Regex where
  | empty
  | char (set : CharSet)
  | start
  | stop
  | seq (r s : Regex)
  | alt (r s : Regex)
  | star (r : Regex)
  deriving DecidableEq, Repr

/-- A word made of words that `M` takes, each where it stands. -/
inductive Repeats (M : List Nat → List Nat → List Nat → Prop)
    (post : List Nat) : List Nat → List Nat → Prop where
  | nil (pre : List Nat) : Repeats M post pre []
  | cons {pre u v : List Nat} (head : M pre u (v ++ post))
      (tail : Repeats M post (pre ++ u) v) : Repeats M post pre (u ++ v)

namespace Regex

def plus (r : Regex) : Regex := .seq r (.star r)

def opt (r : Regex) : Regex := .alt r .empty

def times (r : Regex) : Nat → Regex
  | 0 => .empty
  | n + 1 => .seq r (r.times n)

def upTo (r : Regex) : Nat → Regex
  | 0 => .empty
  | n + 1 => .opt (.seq r (r.upTo n))

/-- `{lo,hi}`, or `{lo,}`. -/
def counted (r : Regex) (lo : Nat) : Option Nat → Regex
  | none => .seq (r.times lo) (.star r)
  | some hi => .seq (r.times lo) (r.upTo (hi - lo))

/-- The expression matches the word between the two texts. `$` also stands
before a newline that ends the text. -/
def Matches (rule : CaseRule) : Regex → List Nat → List Nat → List Nat → Prop
  | .empty, _, w, _ => w = []
  | .char set, _, w, _ => ∃ c, w = [c] ∧ set.holds rule c = true
  | .start, pre, w, _ => w = [] ∧ pre = []
  | .stop, _, w, post => w = [] ∧ (post = [] ∨ post = [10])
  | .seq r s, pre, w, post => ∃ u v, w = u ++ v ∧
      r.Matches rule pre u (v ++ post) ∧ s.Matches rule (pre ++ u) v post
  | .alt r s, pre, w, post =>
      r.Matches rule pre w post ∨ s.Matches rule pre w post
  | .star r, pre, w, post => Repeats (r.Matches rule) post pre w

/-- Somewhere in the text stands a word that the expression matches. -/
def FoundIn (rule : CaseRule) (r : Regex) (text : List Nat) : Prop :=
  ∃ pre w post, text = pre ++ (w ++ post) ∧ r.Matches rule pre w post

section

variable {rule : CaseRule} {pre w post : List Nat} {r s : Regex}

theorem matches_empty : Regex.empty.Matches rule pre w post ↔ w = [] := Iff.rfl

theorem matches_char {set : CharSet} :
    (Regex.char set).Matches rule pre w post ↔
      ∃ c, w = [c] ∧ set.holds rule c = true := Iff.rfl

theorem matches_start :
    Regex.start.Matches rule pre w post ↔ w = [] ∧ pre = [] := Iff.rfl

theorem matches_stop : Regex.stop.Matches rule pre w post ↔
    w = [] ∧ (post = [] ∨ post = [10]) := Iff.rfl

theorem matches_seq : (Regex.seq r s).Matches rule pre w post ↔
    ∃ u v, w = u ++ v ∧ r.Matches rule pre u (v ++ post) ∧
      s.Matches rule (pre ++ u) v post := Iff.rfl

theorem matches_alt : (Regex.alt r s).Matches rule pre w post ↔
    r.Matches rule pre w post ∨ s.Matches rule pre w post := Iff.rfl

theorem matches_star : (Regex.star r).Matches rule pre w post ↔
    Repeats (r.Matches rule) post pre w := Iff.rfl

end

/-! ## The matcher -/

/-- The ends of chains of steps, each of which takes something. -/
def repeatEnds (step : List Nat → List Nat → List (List Nat × List Nat)) :
    Nat → List Nat → List Nat → List (List Nat × List Nat)
  | 0, pre, rest => [(pre, rest)]
  | fuel + 1, pre, rest =>
      (pre, rest) :: ((step pre rest).filter fun p =>
        p.2.length < rest.length).flatMap fun p => repeatEnds step fuel p.1 p.2

/-- The places where a match that begins between `pre` and `rest` may end. -/
def ends (rule : CaseRule) :
    Regex → List Nat → List Nat → List (List Nat × List Nat)
  | .empty, pre, rest => [(pre, rest)]
  | .char _, _, [] => []
  | .char set, pre, c :: rest =>
      if set.holds rule c then [(pre ++ [c], rest)] else []
  | .start, pre, rest => if pre = [] then [(pre, rest)] else []
  | .stop, pre, rest => if rest = [] ∨ rest = [10] then [(pre, rest)] else []
  | .seq r s, pre, rest =>
      (r.ends rule pre rest).flatMap fun p => s.ends rule p.1 p.2
  | .alt r s, pre, rest => r.ends rule pre rest ++ s.ends rule pre rest
  | .star r, pre, rest => repeatEnds (r.ends rule) rest.length pre rest

def found (rule : CaseRule) (r : Regex) (text : List Nat) : Bool :=
  (List.range (text.length + 1)).any fun i =>
    !(r.ends rule (text.take i) (text.drop i)).isEmpty

variable {rule : CaseRule} {pre rest w post : List Nat} {r s : Regex}

theorem mem_repeatEnds {M : List Nat → List Nat → List Nat → Prop}
    {step : List Nat → List Nat → List (List Nat × List Nat)}
    (hstep : ∀ pre rest before after, (before, after) ∈ step pre rest ↔
      ∃ w, before = pre ++ w ∧ rest = w ++ after ∧ M pre w after)
    {fuel : Nat} (hfuel : rest.length ≤ fuel) (before after : List Nat) :
    (before, after) ∈ repeatEnds step fuel pre rest ↔
      ∃ w, before = pre ++ w ∧ rest = w ++ after ∧ Repeats M after pre w := by
  constructor
  · intro h
    clear hfuel
    induction fuel generalizing pre rest with
    | zero =>
        cases List.mem_singleton.mp h
        exact ⟨[], (List.append_nil _).symm, rfl, .nil _⟩
    | succ fuel ih =>
        rw [repeatEnds, List.mem_cons, List.mem_flatMap] at h
        rcases h with h | ⟨⟨mid, rest'⟩, hq, hp⟩
        · cases h
          exact ⟨[], (List.append_nil _).symm, rfl, .nil _⟩
        · obtain ⟨u, rfl, rfl, hM⟩ :=
            (hstep pre rest mid rest').mp (List.mem_filter.mp hq).1
          obtain ⟨v, rfl, rfl, hR⟩ := ih hp
          exact ⟨u ++ v, List.append_assoc .., (List.append_assoc ..).symm,
            .cons hM hR⟩
  · rintro ⟨w, rfl, rfl, hR⟩
    induction hR generalizing fuel with
    | nil pre =>
        rw [List.append_nil]
        cases fuel with
        | zero => exact List.mem_cons_self
        | succ fuel => exact List.mem_cons_self
    | @cons pre u v head tail ih =>
        rw [List.append_assoc] at hfuel ⊢
        rw [← List.append_assoc pre]
        -- A repetition that takes nothing is left out.
        cases u with
        | nil =>
            rw [List.append_nil] at ih ⊢
            exact ih hfuel
        | cons c u =>
            rw [List.cons_append, List.length_cons] at hfuel
            have hle : (v ++ after).length ≤ (u ++ (v ++ after)).length :=
              (List.sublist_append_right u _).length_le
            cases fuel with
            | zero => omega
            | succ fuel =>
                rw [repeatEnds, List.mem_cons, List.mem_flatMap]
                refine .inr ⟨(pre ++ c :: u, v ++ after), ?_, ih (by omega)⟩
                rw [List.mem_filter, hstep, decide_eq_true_eq,
                  List.cons_append, List.length_cons]
                exact ⟨⟨c :: u, rfl, rfl, head⟩, Nat.lt_succ_of_le hle⟩

/-- The matcher ends exactly where a match does. -/
theorem mem_ends (r : Regex) (pre rest before after : List Nat) :
    (before, after) ∈ r.ends rule pre rest ↔
      ∃ w, before = pre ++ w ∧ rest = w ++ after ∧
        r.Matches rule pre w after := by
  induction r generalizing pre rest before after with
  | empty =>
      simp only [ends, matches_empty, List.mem_singleton, Prod.mk.injEq]
      constructor
      · rintro ⟨rfl, rfl⟩
        exact ⟨[], (List.append_nil _).symm, rfl, rfl⟩
      · rintro ⟨w, rfl, rfl, rfl⟩
        exact ⟨List.append_nil _, rfl⟩
  | char set =>
      cases rest with
      | nil =>
          constructor
          · intro h
            cases h
          · rintro ⟨w, -, hw, c, rfl, -⟩
            cases hw
      | cons c rest =>
          simp only [ends, matches_char]
          constructor
          · intro h
            split at h
            · next hc =>
              cases List.mem_singleton.mp h
              exact ⟨[c], rfl, rfl, c, rfl, hc⟩
            · cases h
          · rintro ⟨w, rfl, hw, d, rfl, hd⟩
            cases hw
            rw [if_pos hd]
            exact List.mem_cons_self
  | start =>
      simp only [ends, matches_start]
      constructor
      · intro h
        split at h
        · next hpre =>
          cases List.mem_singleton.mp h
          exact ⟨[], (List.append_nil _).symm, rfl, rfl, hpre⟩
        · cases h
      · rintro ⟨w, rfl, rfl, rfl, hpre⟩
        rw [if_pos hpre, List.append_nil]
        exact List.mem_cons_self
  | stop =>
      simp only [ends, matches_stop]
      constructor
      · intro h
        split at h
        · next hrest =>
          cases List.mem_singleton.mp h
          exact ⟨[], (List.append_nil _).symm, rfl, rfl, hrest⟩
        · cases h
      · rintro ⟨w, rfl, rfl, rfl, hafter⟩
        rw [List.nil_append, if_pos hafter, List.append_nil]
        exact List.mem_cons_self
  | seq r s ihr ihs =>
      simp only [ends, matches_seq, List.mem_flatMap]
      constructor
      · rintro ⟨⟨mid, rest'⟩, hr, hs⟩
        obtain ⟨u, rfl, rfl, hu⟩ := (ihr pre rest mid rest').mp hr
        obtain ⟨v, rfl, rfl, hv⟩ := (ihs _ rest' before after).mp hs
        exact ⟨u ++ v, List.append_assoc .., (List.append_assoc ..).symm,
          u, v, rfl, hu, hv⟩
      · rintro ⟨w, rfl, rfl, u, v, rfl, hu, hv⟩
        refine ⟨(pre ++ u, v ++ after), (ihr ..).mpr ⟨u, rfl, ?_, hu⟩,
          (ihs ..).mpr ⟨v, ?_, rfl, hv⟩⟩
        · rw [List.append_assoc]
        · rw [List.append_assoc]
  | alt r s ihr ihs =>
      simp only [ends, matches_alt, List.mem_append, ihr, ihs]
      constructor
      · rintro (⟨w, h1, h2, h⟩ | ⟨w, h1, h2, h⟩)
        · exact ⟨w, h1, h2, .inl h⟩
        · exact ⟨w, h1, h2, .inr h⟩
      · rintro ⟨w, h1, h2, h | h⟩
        · exact .inl ⟨w, h1, h2, h⟩
        · exact .inr ⟨w, h1, h2, h⟩
  | star r ih =>
      exact mem_repeatEnds ih (Nat.le_refl _) before after

theorem found_iff {text : List Nat} :
    r.found rule text = true ↔ r.FoundIn rule text := by
  simp only [found, List.any_eq_true, List.mem_range, Bool.not_eq_true',
    List.isEmpty_eq_false_iff_exists_mem, Prod.exists, mem_ends]
  constructor
  · rintro ⟨i, -, before, after, w, -, hrest, hM⟩
    exact ⟨text.take i, w, after, by rw [← hrest, List.take_append_drop], hM⟩
  · rintro ⟨pre, w, post, rfl, hM⟩
    refine ⟨pre.length, ?_, pre ++ w, post, w, ?_, ?_, ?_⟩
    · rw [List.length_append]
      omega
    · rw [List.take_left]
    · rw [List.drop_left]
    · rwa [List.take_left]

/-! ## Laws -/

@[simp] theorem empty_seq_matches :
    (Regex.seq .empty r).Matches rule pre w post ↔
      r.Matches rule pre w post := by
  rw [matches_seq]
  constructor
  · rintro ⟨u, v, rfl, rfl, hv⟩
    rwa [List.append_nil] at hv
  · intro h
    refine ⟨[], w, rfl, rfl, ?_⟩
    rwa [List.append_nil]

variable {set : CharSet}

theorem matches_char_one {c : Nat} :
    (Regex.char (.one c)).Matches rule pre w post ↔
      ∃ d, w = [d] ∧ d ∈ rule.same c := by
  simp only [matches_char, CharSet.holds_one]

theorem matches_star_char : (Regex.star (.char set)).Matches rule pre w post ↔
    ∀ c ∈ w, set.holds rule c = true := by
  constructor
  · intro h
    rw [matches_star] at h
    induction h with
    | nil pre => intro c hc; cases hc
    | cons head tail ih =>
        obtain ⟨d, rfl, hd⟩ := head
        intro c hc
        rcases List.mem_cons.mp hc with rfl | hc
        · exact hd
        · exact ih c hc
  · intro h
    induction w generalizing pre with
    | nil => exact .nil pre
    | cons c w ih =>
        exact .cons (u := [c]) ⟨c, rfl, h c List.mem_cons_self⟩
          (ih fun d hd => h d (List.mem_cons_of_mem c hd))

theorem matches_plus_char : (Regex.char set).plus.Matches rule pre w post ↔
    w ≠ [] ∧ ∀ c ∈ w, set.holds rule c = true := by
  rw [plus, matches_seq]
  constructor
  · rintro ⟨u, v, rfl, ⟨c, rfl, hc⟩, hv⟩
    refine ⟨List.cons_ne_nil _ _, fun d hd => ?_⟩
    rcases List.mem_cons.mp hd with rfl | hd
    · exact hc
    · exact matches_star_char.mp hv d hd
  · rintro ⟨hne, h⟩
    cases w with
    | nil => exact (hne rfl).elim
    | cons c w =>
        exact ⟨[c], w, rfl, ⟨c, rfl, h c List.mem_cons_self⟩,
          matches_star_char.mpr fun d hd => h d (List.mem_cons_of_mem c hd)⟩

theorem matches_times_char {n : Nat} :
    ((Regex.char set).times n).Matches rule pre w post ↔
      w.length = n ∧ ∀ c ∈ w, set.holds rule c = true := by
  induction n generalizing pre w with
  | zero =>
      rw [times, matches_empty, List.length_eq_zero_iff]
      constructor
      · rintro rfl
        exact ⟨rfl, fun c hc => by cases hc⟩
      · exact And.left
  | succ n ih =>
      rw [times, matches_seq]
      constructor
      · rintro ⟨u, v, rfl, ⟨c, rfl, hc⟩, hv⟩
        obtain ⟨hlen, hall⟩ := ih.mp hv
        refine ⟨congrArg (· + 1) hlen, fun d hd => ?_⟩
        rcases List.mem_cons.mp hd with rfl | hd
        · exact hc
        · exact hall d hd
      · rintro ⟨hlen, hall⟩
        cases w with
        | nil => cases hlen
        | cons c w =>
            exact ⟨[c], w, rfl, ⟨c, rfl, hall c List.mem_cons_self⟩,
              ih.mpr ⟨Nat.succ.inj hlen, fun d hd =>
                hall d (List.mem_cons_of_mem c hd)⟩⟩

theorem matches_upTo_char {n : Nat} :
    ((Regex.char set).upTo n).Matches rule pre w post ↔
      w.length ≤ n ∧ ∀ c ∈ w, set.holds rule c = true := by
  induction n generalizing pre w with
  | zero =>
      rw [upTo, matches_empty, Nat.le_zero, List.length_eq_zero_iff]
      constructor
      · rintro rfl
        exact ⟨rfl, fun c hc => by cases hc⟩
      · exact And.left
  | succ n ih =>
      rw [upTo, opt, matches_alt, matches_seq]
      constructor
      · rintro (⟨u, v, rfl, ⟨c, rfl, hc⟩, hv⟩ | h)
        · obtain ⟨hlen, hall⟩ := ih.mp hv
          refine ⟨Nat.succ_le_succ hlen, fun d hd => ?_⟩
          rcases List.mem_cons.mp hd with rfl | hd
          · exact hc
          · exact hall d hd
        · rw [matches_empty] at h
          subst h
          exact ⟨Nat.zero_le _, fun c hc => by cases hc⟩
      · rintro ⟨hlen, hall⟩
        cases w with
        | nil => exact .inr rfl
        | cons c w =>
            exact .inl ⟨[c], w, rfl, ⟨c, rfl, hall c List.mem_cons_self⟩,
              ih.mpr ⟨Nat.le_of_succ_le_succ hlen, fun d hd =>
                hall d (List.mem_cons_of_mem c hd)⟩⟩

theorem matches_counted_char {lo hi : Nat} (hle : lo ≤ hi) :
    ((Regex.char set).counted lo (some hi)).Matches rule pre w post ↔
      (lo ≤ w.length ∧ w.length ≤ hi) ∧ ∀ c ∈ w, set.holds rule c = true := by
  rw [counted, matches_seq]
  constructor
  · rintro ⟨u, v, rfl, hu, hv⟩
    obtain ⟨hulen, hu⟩ := matches_times_char.mp hu
    obtain ⟨hvlen, hv⟩ := matches_upTo_char.mp hv
    rw [List.length_append]
    refine ⟨by omega, fun c hc => ?_⟩
    rcases List.mem_append.mp hc with hc | hc
    · exact hu c hc
    · exact hv c hc
  · rintro ⟨hlen, hall⟩
    refine ⟨w.take lo, w.drop lo, (List.take_append_drop lo w).symm,
      matches_times_char.mpr ⟨?_, fun c hc => hall c (List.mem_of_mem_take hc)⟩,
      matches_upTo_char.mpr ⟨?_, fun c hc => hall c (List.mem_of_mem_drop hc)⟩⟩
    · rw [List.length_take]
      omega
    · rw [List.length_drop]
      omega

/-! ## Between `^` and `$` -/

/-- Which words the expression takes does not depend on where they stand. -/
def Takes (rule : CaseRule) (r : Regex) (M : List Nat → Prop) : Prop :=
  ∀ pre w post, r.Matches rule pre w post ↔ M w

/-- It takes these words, and only at the beginning of the text. -/
def TakesFirst (rule : CaseRule) (r : Regex) (M : List Nat → Prop) : Prop :=
  ∀ pre w post, r.Matches rule pre w post ↔ pre = [] ∧ M w

theorem takesFirst_start : (Regex.seq .empty .start).TakesFirst rule (· = []) := by
  intro pre w post
  rw [empty_seq_matches, matches_start, and_comm]

theorem TakesFirst.seq {M N : List Nat → Prop} (hr : r.TakesFirst rule M)
    (hs : s.Takes rule N) : (Regex.seq r s).TakesFirst rule fun w =>
      ∃ u v, w = u ++ v ∧ M u ∧ N v := by
  intro pre w post
  rw [matches_seq]
  constructor
  · rintro ⟨u, v, rfl, hu, hv⟩
    obtain ⟨rfl, hM⟩ := (hr ..).mp hu
    exact ⟨rfl, u, v, rfl, hM, (hs ..).mp hv⟩
  · rintro ⟨rfl, u, v, rfl, hu, hv⟩
    exact ⟨u, v, rfl, (hr ..).mpr ⟨rfl, hu⟩, (hs ..).mpr hv⟩

/-- An anchored expression takes the text, but for a newline that ends it. -/
theorem TakesFirst.foundIn_stop {M : List Nat → Prop} (hr : r.TakesFirst rule M)
    {text : List Nat} : (Regex.seq r .stop).FoundIn rule text ↔
      ∃ w post, text = w ++ post ∧ (post = [] ∨ post = [10]) ∧ M w := by
  constructor
  · rintro ⟨pre, w, post, rfl, u, v, rfl, hu, rfl, hpost⟩
    obtain ⟨rfl, hM⟩ := (hr ..).mp hu
    refine ⟨u, post, ?_, hpost, hM⟩
    rw [List.nil_append, List.append_nil]
  · rintro ⟨w, post, rfl, hpost, hw⟩
    exact ⟨[], w, post, rfl, w, [], (List.append_nil w).symm,
      (hr ..).mpr ⟨rfl, hw⟩, rfl, hpost⟩

/-! ## Thinning a match out -/

/-- The characters the expression cannot do without. -/
def width : Regex → Nat
  | .empty | .start | .stop | .star _ => 0
  | .char _ => 1
  | .seq r s => r.width + s.width
  | .alt r s => max r.width s.width

/-- The end of the text, or a newline before it: a text this short or shorter
is one again. -/
theorem stop_sublist {post post' : List Nat} (hsub : post'.Sublist post)
    (h : post = [] ∨ post = [10]) : post' = [] ∨ post' = [10] := by
  rcases h with rfl | rfl
  · exact .inl (List.sublist_nil.mp hsub)
  · exact List.sublist_singleton.mp hsub

theorem Matches.shorten (h : r.Matches rule pre w post) :
    ∃ w', w'.Sublist w ∧ w'.length ≤ r.width ∧
      ∀ pre' post', pre'.Sublist pre → post'.Sublist post →
        r.Matches rule pre' w' post' := by
  induction r generalizing pre w post with
  | empty => exact ⟨[], List.nil_sublist w, Nat.le_refl 0, fun _ _ _ _ => rfl⟩
  | char set =>
      obtain ⟨c, rfl, hc⟩ := h
      exact ⟨[c], List.Sublist.refl _, Nat.le_refl 1,
        fun _ _ _ _ => ⟨c, rfl, hc⟩⟩
  | start =>
      obtain ⟨rfl, rfl⟩ := h
      exact ⟨[], List.Sublist.refl _, Nat.le_refl 0,
        fun _ _ hpre _ => ⟨rfl, List.sublist_nil.mp hpre⟩⟩
  | stop =>
      obtain ⟨rfl, hpost⟩ := h
      exact ⟨[], List.Sublist.refl _, Nat.le_refl 0,
        fun _ _ _ hsub => ⟨rfl, stop_sublist hsub hpost⟩⟩
  | seq r s ihr ihs =>
      obtain ⟨u, v, rfl, hu, hv⟩ := h
      obtain ⟨u', husub, hulen, hu'⟩ := ihr hu
      obtain ⟨v', hvsub, hvlen, hv'⟩ := ihs hv
      refine ⟨u' ++ v', husub.append hvsub, ?_, fun pre' post' hpre hpost => ?_⟩
      · rw [List.length_append, width]
        omega
      · exact ⟨u', v', rfl, hu' _ _ hpre (hvsub.append hpost),
          hv' _ _ (hpre.append husub) hpost⟩
  | alt r s ihr ihs =>
      rcases h with h | h
      · obtain ⟨w', hsub, hlen, hw'⟩ := ihr h
        exact ⟨w', hsub, Nat.le_trans hlen (Nat.le_max_left ..),
          fun _ _ hpre hpost => .inl (hw' _ _ hpre hpost)⟩
      · obtain ⟨w', hsub, hlen, hw'⟩ := ihs h
        exact ⟨w', hsub, Nat.le_trans hlen (Nat.le_max_right ..),
          fun _ _ hpre hpost => .inr (hw' _ _ hpre hpost)⟩
  | star r _ =>
      exact ⟨[], List.nil_sublist w, Nat.le_refl 0, fun _ _ _ _ => .nil _⟩

/-- What is found at all is found in a part of the text that is as short. -/
theorem FoundIn.shorten {text : List Nat} (h : r.FoundIn rule text) :
    ∃ w, w.Sublist text ∧ w.length ≤ r.width ∧ r.FoundIn rule w := by
  obtain ⟨pre, w, post, rfl, hM⟩ := h
  obtain ⟨w', hsub, hlen, hw'⟩ := hM.shorten
  refine ⟨w', ?_, hlen, [], w', [], ?_, ?_⟩
  · exact hsub.trans ((List.sublist_append_left w post).trans
      (List.sublist_append_right pre _))
  · rw [List.nil_append, List.append_nil]
  · exact hw' [] [] (List.nil_sublist pre) (List.nil_sublist post)

end Regex

end TaxiService.Lib
