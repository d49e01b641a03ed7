import Mathlib.Data.List.Forall2
import TaxiService.Lib.Prog
import TaxiService.Lib.Regex

/-!
# Patterns

A regular expression is written as a text, and `parse` reads a part of the
language that Perl-compatible engines share: characters, `.`, `^`, `$`, sets,
groups, alternatives, quantifiers that are not followed by another, escaped
punctuation, `\d`, `\s` and their complements. It calls `illFormed` what such
an engine refuses, and `unsupported` what it does not read itself, whether or
not an engine would.

It is a machine over the characters with the open groups as its stack. What
the later sections use of it is that a character adds at most one to the width
of what has been read, and a character with a meaning adds nothing.
-/

namespace TaxiService.Lib

namespace Pattern

inductive Reject where
  | illFormed
  | unsupported
  deriving DecidableEq, Repr

/-! ## The machine -/

/-- What stands last in a branch: nothing yet, something that a quantifier may
follow, or something that it may not. -/
inductive Last where
  | nothing
  | atom (r : Regex)
  | fixed
  deriving DecidableEq, Repr

/-- An open group: the branches before the last `|`, and the last one. -/
structure Level where
  alts : Option Regex
  branch : Regex
  last : Last
  deriving DecidableEq, Repr

namespace Level

def new : Level := ⟨none, .empty, .nothing⟩

def line (l : Level) : Regex :=
  match l.last with
  | .atom r => .seq l.branch r
  | _ => l.branch

def whole (l : Level) : Regex :=
  match l.alts with
  | none => l.line
  | some r => .alt r l.line

def atom (l : Level) (r : Regex) : Level :=
  { l with branch := l.line, last := .atom r }

def anchor (l : Level) (r : Regex) : Level :=
  { l with branch := .seq l.line r, last := .fixed }

def bar (l : Level) : Level := ⟨some l.whole, .empty, .nothing⟩

def quantify (l : Level) (f : Regex → Regex) : Except Reject Level :=
  match l.last with
  | .nothing => .error .illFormed
  | .fixed => .error .unsupported
  | .atom r => .ok { l with branch := .seq l.branch (f r), last := .fixed }

end Level

/-- Where in a set the reader is: at its beginning, after a range or `\d`,
after a character, after a character and `-`, or after a backslash. -/
inductive Pending where
  | start
  | closed
  | one (c : Nat)
  | dash (c : Nat)
  | escape
  deriving DecidableEq, Repr

inductive Mode where
  | plain
  | escape
  | counted (lo : Nat) (hi : Option Nat)
  | setStart
  | set (negated : Bool) (ranges : List (Nat × Nat)) (pending : Pending)
  deriving DecidableEq, Repr

structure Reader where
  outer : List Level
  current : Level
  mode : Mode
  deriving DecidableEq, Repr

def isDigit (c : Nat) : Bool := 48 ≤ c && c ≤ 57

/-- Punctuation and control characters, which a backslash makes literal. -/
def isEscapable (c : Nat) : Bool :=
  c < 128 && !(isDigit c || (65 ≤ c && c ≤ 90) || (97 ≤ c && c ≤ 122))

/-- What a backslash makes of a letter: `\d`, `\D`, `\s` and `\S`. -/
def classOf? (c : Nat) : Option CharSet :=
  if c = 100 then some ⟨false, [(48, 57)]⟩
  else if c = 68 then some ⟨true, [(48, 57)]⟩
  else if c = 115 then some ⟨false, [(9, 13), (32, 32)]⟩
  else if c = 83 then some ⟨true, [(9, 13), (32, 32)]⟩
  else none

/-- `.`, which does not take a newline. -/
def dot : CharSet := ⟨true, [(10, 10)]⟩

def number (digits : List Nat) : Nat :=
  digits.foldl (fun n c => n * 10 + (c - 48)) 0

/-- The bounds of a quantifier whose `{` has been read: `n}`, `n,}` or
`n,m}`. Any other `{` is a character. -/
def counted? (text : List Nat) : Option (Nat × Option Nat) :=
  let lo := text.takeWhile isDigit
  if lo = [] then none
  else match text.dropWhile isDigit with
    | 125 :: _ => some (number lo, some (number lo))
    | 44 :: text =>
        let hi := text.takeWhile isDigit
        if (text.dropWhile isDigit).head? = some 125 then
          some (number lo, if hi = [] then none else some (number hi))
        else none
    | _ => none

/-- One character of a set. -/
def setStep (l : Level) (negated : Bool) (ranges : List (Nat × Nat)) :
    Pending → Nat → Except Reject (Level × Mode)
  | .escape, c =>
      match classOf? c with
      | some set =>
          if set.negated then .error .unsupported
          else .ok (l, .set negated (ranges ++ set.ranges) .closed)
      | none =>
          if isEscapable c then .ok (l, .set negated ranges (.one c))
          else .error .unsupported
  | .dash d, c =>
      if c = 93 then
        .ok (l.atom (.char ⟨negated, ranges ++ [(d, d), (45, 45)]⟩), .plain)
      else if c = 91 ∨ c = 92 then .error .unsupported
      else if d ≤ c then .ok (l, .set negated (ranges ++ [(d, c)]) .closed)
      else .error .illFormed
  | .one d, c =>
      if c = 93 then
        .ok (l.atom (.char ⟨negated, ranges ++ [(d, d)]⟩), .plain)
      else if c = 91 then .error .unsupported
      else if c = 92 then .ok (l, .set negated (ranges ++ [(d, d)]) .escape)
      else if c = 45 then .ok (l, .set negated ranges (.dash d))
      else .ok (l, .set negated (ranges ++ [(d, d)]) (.one c))
  | .closed, c =>
      if c = 93 then .ok (l.atom (.char ⟨negated, ranges⟩), .plain)
      else if c = 91 ∨ c = 45 then .error .unsupported
      else if c = 92 then .ok (l, .set negated ranges .escape)
      else .ok (l, .set negated ranges (.one c))
  | .start, c =>
      if c = 91 then .error .unsupported
      else if c = 92 then .ok (l, .set negated ranges .escape)
      else .ok (l, .set negated ranges (.one c))

namespace Reader

def init : Reader := ⟨[], .new, .plain⟩

def quantify (s : Reader) (f : Regex → Regex) : Except Reject Reader := do
  return { s with current := ← s.current.quantify f, mode := .plain }

def atom (s : Reader) (set : CharSet) : Reader :=
  { s with current := s.current.atom (.char set), mode := .plain }

/-- `(`. Groups that begin with `(?` or `(*` are not read. -/
def openGroup (s : Reader) (rest : List Nat) : Except Reject Reader :=
  if rest.head? = some 63 ∨ rest.head? = some 42 ∨ 250 ≤ s.outer.length then
    .error .unsupported
  else .ok { s with outer := s.current :: s.outer, current := .new }

/-- `)`. -/
def closeGroup (s : Reader) : Except Reject Reader :=
  match s.outer with
  | [] => .error .illFormed
  | l :: ls => .ok { s with outer := ls, current := l.atom s.current.whole }

/-- `{`. -/
def brace (s : Reader) (rest : List Nat) : Except Reject Reader :=
  match counted? rest with
  | none => .ok (s.atom (.one 123))
  | some (lo, hi) =>
      if 65535 < lo ∨ ∃ n ∈ hi, n < lo ∨ 65535 < n then .error .illFormed
      else .ok { s with mode := .counted lo hi }

/-- One character outside of sets and after no backslash. -/
def plainStep (s : Reader) (c : Nat) (rest : List Nat) : Except Reject Reader :=
  if c = 92 then .ok { s with mode := .escape }
  else if c = 91 then .ok { s with mode := .setStart }
  else if c = 40 then s.openGroup rest
  else if c = 41 then s.closeGroup
  else if c = 124 then .ok { s with current := s.current.bar }
  else if c = 94 then .ok { s with current := s.current.anchor .start }
  else if c = 36 then .ok { s with current := s.current.anchor .stop }
  else if c = 46 then .ok (s.atom dot)
  else if c = 42 then s.quantify .star
  else if c = 43 then s.quantify .plus
  else if c = 63 then s.quantify .opt
  else if c = 123 then s.brace rest
  else .ok (s.atom (.one c))

/-- One character, with those after it in sight. -/
def step (s : Reader) (c : Nat) (rest : List Nat) : Except Reject Reader :=
  match s.mode with
  | .plain => s.plainStep c rest
  | .escape =>
      match classOf? c with
      | some set => .ok (s.atom set)
      | none =>
          if isEscapable c then .ok (s.atom (.one c)) else .error .unsupported
  | .counted lo hi =>
      if c = 125 then s.quantify (·.counted lo hi) else .ok s
  | .setStart =>
      if c = 94 then .ok { s with mode := .set true [] .start }
      else do
        let (current, mode) ← setStep s.current false [] .start c
        return { s with current, mode }
  | .set negated ranges pending => do
      let (current, mode) ← setStep s.current negated ranges pending c
      return { s with current, mode }

def read : Reader → List Nat → Except Reject Reader
  | s, [] => .ok s
  | s, c :: rest => do (← s.step c rest).read rest

/-- The end of the pattern: no group and no set is open, and it does not end
in a backslash. -/
def finish (s : Reader) : Except Reject Regex :=
  if s.mode = .plain ∧ s.outer = [] then .ok s.current.whole
  else .error .illFormed

end Reader

def parse (text : List Nat) : Except Reject Regex := do
  (← Reader.init.read text).finish

/-! ## Texts that are their own pattern -/

/-- A character that the reader gives a meaning. -/
def isSpecial (c : Nat) : Bool :=
  [92, 94, 36, 124, 63, 42, 43, 40, 41, 91].contains c

/-- Does a quantifier in braces stand in the text? -/
def hasCount : List Nat → Bool
  | [] => false
  | c :: rest => c == 123 && (counted? rest).isSome || hasCount rest

/-- No special character, no `.`, and no quantifier in braces. -/
def IsPlain (text : List Nat) : Prop :=
  (∀ c ∈ text, isSpecial c = false ∧ c ≠ 46) ∧ hasCount text = false

instance (text : List Nat) : Decidable (IsPlain text) :=
  inferInstanceAs (Decidable (_ ∧ _))

/-- Somewhere in the text stands the word, in one case or another. -/
def ContainsWord (rule : CaseRule) (word text : List Nat) : Prop :=
  ∃ w, w <:+: text ∧ List.Forall₂ (fun d c => d ∈ rule.same c) w word

theorem ContainsWord.length_le {rule : CaseRule} {word text : List Nat}
    (h : ContainsWord rule word text) : word.length ≤ text.length := by
  obtain ⟨w, hinside, hall⟩ := h
  rw [← hall.length_eq]
  exact hinside.sublist.length_le

theorem containsWord_self (rule : CaseRule) (word : List Nat) :
    ContainsWord rule word word :=
  ⟨word, List.infix_rfl, List.forall₂_same.mpr fun c _ => rule.refl c⟩

variable {rule : CaseRule} {s s' : Reader} {text rest : List Nat} {c : Nat}

/-- What a character that is not special stands for. -/
def charSet (c : Nat) : CharSet := if c = 46 then dot else .one c

theorem plainStep_atom (hspecial : isSpecial c = false)
    (hcount : (c == 123 && (counted? rest).isSome) = false) :
    s.plainStep c rest = .ok (s.atom (charSet c)) := by
  have hne : ∀ d ∈ [92, 94, 36, 124, 63, 42, 43, 40, 41, 91], c ≠ d := by
    intro d hd h
    rw [isSpecial, h, List.contains_iff_mem.mpr hd] at hspecial
    cases hspecial
  simp only [List.mem_cons, List.not_mem_nil, or_false, forall_eq_or_imp,
    forall_eq] at hne
  obtain ⟨h1, h2, h3, h4, h5, h6, h7, h8, h9, h10⟩ := hne
  simp only [Reader.plainStep, if_neg h1, if_neg h10, if_neg h8, if_neg h9,
    if_neg h4, if_neg h2, if_neg h3, if_neg h6, if_neg h7, if_neg h5, charSet]
  split
  · rfl
  · split
    · next h =>
      rw [h, beq_self_eq_true, Bool.true_and, Option.isSome_eq_false_iff,
        Option.isNone_iff_eq_none] at hcount
      rw [Reader.brace, hcount, h]
    · rfl

/-- The reader after characters that stand for themselves, or for any. -/
def atoms (l : Level) (text : List Nat) : Level :=
  text.foldl (fun l c => l.atom (.char (charSet c))) l

theorem read_atoms (hmode : s.mode = .plain)
    (hspecial : ∀ c ∈ text, isSpecial c = false)
    (hcount : hasCount (text ++ rest) = false) :
    s.read (text ++ rest) =
      { s with current := atoms s.current text }.read rest := by
  induction text generalizing s with
  | nil => rfl
  | cons c text ih =>
      rw [List.cons_append, hasCount, Bool.or_eq_false_iff] at hcount
      rw [List.cons_append, Reader.read, Reader.step, hmode]
      simp only [plainStep_atom (hspecial c List.mem_cons_self) hcount.1]
      have hnext := ih (s := s.atom (charSet c)) rfl
        (fun d hd => hspecial d (List.mem_cons_of_mem c hd)) hcount.2
      exact hnext

theorem atoms_matches (l : Level) (pre w post : List Nat) :
    (atoms l text).line.Matches rule pre w post ↔
      ∃ u v, w = u ++ v ∧ l.line.Matches rule pre u (v ++ post) ∧
        List.Forall₂ (fun d c => (charSet c).holds rule d = true) v text := by
  induction text generalizing l w with
  | nil =>
      constructor
      · intro h
        exact ⟨w, [], (List.append_nil w).symm, h, .nil⟩
      · rintro ⟨u, v, rfl, h, hall⟩
        cases hall
        rwa [List.append_nil]
  | cons c text ih =>
      rw [atoms, List.foldl_cons, ← atoms, ih]
      constructor
      · rintro ⟨u, v, rfl, ⟨u', d, rfl, hu', d', rfl, hd⟩, hall⟩
        exact ⟨u', d' :: v, List.append_assoc .., hu', .cons hd hall⟩
      · rintro ⟨u, v, rfl, hu, hall⟩
        cases hall with
        | @cons d _ v _ hd hall =>
            exact ⟨u ++ [d], v, (List.append_assoc u [d] v).symm,
              ⟨u, [d], rfl, hu, d, rfl, hd⟩, hall⟩

theorem atoms_alts (l : Level) (text : List Nat) :
    (atoms l text).alts = l.alts := by
  induction text generalizing l with
  | nil => rfl
  | cons c text ih => exact ih (l.atom _)

/-- A pattern without special characters: one character after another. -/
theorem parse_atoms (rule : CaseRule) (hspecial : ∀ c ∈ text, isSpecial c = false)
    (hcount : hasCount text = false) :
    ∃ r, parse text = .ok r ∧ ∀ t, r.FoundIn rule t ↔ ∃ w, w <:+: t ∧
      List.Forall₂ (fun d c => (charSet c).holds rule d = true) w text := by
  rw [← List.append_nil text] at hcount
  have hread := read_atoms (s := .init) rfl hspecial hcount
  rw [List.append_nil] at hread
  refine ⟨(atoms .new text).line, ?_, fun t => ?_⟩
  · rw [parse, hread]
    have hwhole : (atoms .new text).whole = (atoms .new text).line := by
      rw [Level.whole, atoms_alts]
      rfl
    rw [← hwhole]
    rfl
  · constructor
    · rintro ⟨pre, w, post, rfl, h⟩
      obtain ⟨u, v, rfl, hu, hall⟩ := (atoms_matches ..).mp h
      cases hu
      exact ⟨v, List.infix_append' pre v post, hall⟩
    · rintro ⟨w, ⟨pre, post, rfl⟩, hall⟩
      exact ⟨pre, w, post, List.append_assoc .., (atoms_matches ..).mpr
        ⟨[], w, rfl, rfl, hall⟩⟩

theorem forall₂_congr_right {α β : Type} {R S : α → β → Prop} {l : List α}
    {m : List β} (h : ∀ b ∈ m, ∀ a, R a b ↔ S a b) :
    List.Forall₂ R l m ↔ List.Forall₂ S l m := by
  induction m generalizing l with
  | nil => rw [List.forall₂_nil_right_iff, List.forall₂_nil_right_iff]
  | cons b m ih =>
      rw [List.forall₂_cons_right_iff, List.forall₂_cons_right_iff]
      simp only [h b List.mem_cons_self,
        ih fun c hc => h c (List.mem_cons_of_mem b hc)]

/-- A plain pattern is found where it stands as a word. -/
theorem IsPlain.foundIn_iff (h : IsPlain text) (rule : CaseRule) :
    ∃ r, parse text = .ok r ∧
      ∀ t, r.FoundIn rule t ↔ ContainsWord rule text t := by
  obtain ⟨r, hr, hfound⟩ :=
    parse_atoms rule (fun c hc => (h.1 c hc).1) h.2
  refine ⟨r, hr, fun t => (hfound t).trans ?_⟩
  refine exists_congr fun w => and_congr_right fun _ =>
    forall₂_congr_right fun c hc d => ?_
  rw [charSet, if_neg (h.1 c hc).2, CharSet.holds_one]

/-! ## The width of what has been read -/

namespace Level

def width (l : Level) : Nat := l.whole.width

variable {l l' : Level}

theorem width_line (l : Level) : l.width =
    max (l.alts.elim 0 Regex.width) l.line.width := by
  rw [width, whole]
  cases l.alts with
  | none => exact (Nat.zero_max _).symm
  | some r => rfl

theorem width_atom (l : Level) (r : Regex) :
    (l.atom r).width ≤ l.width + r.width := by
  have hline : (l.atom r).line.width = l.line.width + r.width := rfl
  rw [width_line, width_line l, hline]
  exact Nat.max_le.mpr ⟨Nat.le_add_right_of_le (Nat.le_max_left ..),
    Nat.add_le_add_right (Nat.le_max_right ..) _⟩

theorem width_anchor (l : Level) {r : Regex} (h : r.width = 0) :
    (l.anchor r).width ≤ l.width := by
  have hline : (l.anchor r).line.width = l.line.width + r.width := rfl
  rw [width_line, width_line l, hline, h]
  exact Nat.le_refl _

theorem width_bar (l : Level) : l.bar.width ≤ l.width :=
  Nat.max_le.mpr ⟨Nat.le_refl _, Nat.zero_le _⟩

theorem width_quantify {f : Regex → Regex} (hf : ∀ r, (f r).width ≤ r.width)
    (h : l.quantify f = .ok l') : l'.width ≤ l.width := by
  rw [quantify] at h
  split at h
  · cases h
  · cases h
  · next r hlast =>
    cases h
    have hline : l.line.width = l.branch.width + r.width := by
      rw [line, hlast]
      rfl
    rw [width_line, width_line l, hline]
    exact Nat.max_le.mpr ⟨Nat.le_max_left .., Nat.le_trans
      (Nat.add_le_add_left (hf r) _) (Nat.le_max_right ..)⟩

end Level

/-- Is the reader in the braces of a quantifier? -/
def Mode.isCounted : Mode → Bool
  | .counted _ _ => true
  | _ => false

def Reader.width (s : Reader) : Nat :=
  s.outer.foldr (fun l total => l.width + total) 0 + s.current.width

/-- A character of a set ends the set or leaves the level alone. -/
theorem setStep_cases {l l' : Level} {negated : Bool}
    {ranges : List (Nat × Nat)} {pending : Pending} {mode : Mode}
    (h : setStep l negated ranges pending c = .ok (l', mode)) :
    mode.isCounted = false ∧ (l' = l ∨ ∃ set, l' = l.atom (.char set)) := by
  have hkeep : ∀ {ranges' pending'},
      (Except.ok (l, Mode.set negated ranges' pending') :
        Except Reject (Level × Mode)) = .ok (l', mode) →
      mode.isCounted = false ∧ (l' = l ∨ ∃ set, l' = l.atom (.char set)) := by
    intro ranges' pending' h
    cases h
    exact ⟨rfl, .inl rfl⟩
  have hclose : ∀ {set},
      (Except.ok (l.atom (.char set), Mode.plain) :
        Except Reject (Level × Mode)) = .ok (l', mode) →
      mode.isCounted = false ∧ (l' = l ∨ ∃ set, l' = l.atom (.char set)) := by
    intro set h
    cases h
    exact ⟨rfl, .inr ⟨set, rfl⟩⟩
  cases pending with
  | start =>
      rw [setStep] at h
      split at h
      · cases h
      · split at h <;> exact hkeep h
  | closed =>
      rw [setStep] at h
      split at h
      · exact hclose h
      · split at h
        · cases h
        · split at h <;> exact hkeep h
  | one d =>
      rw [setStep] at h
      split at h
      · exact hclose h
      · split at h
        · cases h
        · split at h
          · exact hkeep h
          · split at h <;> exact hkeep h
  | dash d =>
      rw [setStep] at h
      split at h
      · exact hclose h
      · split at h
        · cases h
        · split at h
          · exact hkeep h
          · cases h
  | escape =>
      rw [setStep] at h
      split at h
      · split at h
        · cases h
        · exact hkeep h
      · split at h
        · exact hkeep h
        · cases h

theorem quantify_width {f : Regex → Regex} (hf : ∀ r, (f r).width ≤ r.width)
    (h : s.quantify f = .ok s') :
    s'.mode.isCounted = false ∧ s'.width ≤ s.width := by
  obtain ⟨l, hl, h⟩ := bind_ok h
  cases h
  exact ⟨rfl, Nat.add_le_add_left (Level.width_quantify hf hl) _⟩

theorem atom_width (s : Reader) (set : CharSet) :
    (s.atom set).mode.isCounted = false ∧ (s.atom set).width ≤ s.width + 1 :=
  ⟨rfl, Nat.add_le_add_left (s.current.width_atom (.char set)) _⟩

/-- A special character adds nothing to the width. -/
theorem special_width (hmode : s.mode = .plain) (hspecial : isSpecial c = true)
    (h : s.plainStep c rest = .ok s') :
    s'.mode.isCounted = false ∧ s'.width ≤ s.width := by
  have hplain : s.mode.isCounted = false := by rw [hmode]; rfl
  rw [isSpecial, List.contains_iff_mem] at hspecial
  simp only [List.mem_cons, List.not_mem_nil, or_false] at hspecial
  rcases hspecial with rfl | rfl | rfl | rfl | rfl | rfl | rfl | rfl | rfl | rfl
  · cases h
    exact ⟨rfl, Nat.le_refl _⟩
  · cases h
    exact ⟨hplain, Nat.add_le_add_left (Level.width_anchor _ rfl) _⟩
  · cases h
    exact ⟨hplain, Nat.add_le_add_left (Level.width_anchor _ rfl) _⟩
  · cases h
    exact ⟨hplain, Nat.add_le_add_left (Level.width_bar _) _⟩
  · exact quantify_width (fun r => Nat.max_le.mpr
      ⟨Nat.le_refl _, Nat.zero_le _⟩) h
  · exact quantify_width (fun r => Nat.zero_le _) h
  · exact quantify_width (f := Regex.plus) (fun r => Nat.le_refl _) h
  · replace h : s.openGroup rest = .ok s' := h
    rw [Reader.openGroup] at h
    split at h
    · cases h
    · cases h
      refine ⟨hplain, ?_⟩
      have : Level.new.width = 0 := rfl
      simp only [Reader.width, List.foldr_cons, this]
      omega
  · replace h : s.closeGroup = .ok s' := h
    rw [Reader.closeGroup] at h
    split at h
    · cases h
    · next l ls houter =>
      cases h
      refine ⟨hplain, ?_⟩
      have := l.width_atom s.current.whole
      simp only [Reader.width, houter, List.foldr_cons] at this ⊢
      have hwhole : s.current.whole.width = s.current.width := rfl
      omega
  · cases h
    exact ⟨rfl, Nat.le_refl _⟩

theorem step_width (hmode : s.mode.isCounted = false)
    (hcount : (c == 123 && (counted? rest).isSome) = false)
    (h : s.step c rest = .ok s') :
    s'.mode.isCounted = false ∧ s'.width ≤ s.width + 1 := by
  have hset : ∀ {negated ranges pending current mode},
      setStep s.current negated ranges pending c = .ok (current, mode) →
      mode.isCounted = false ∧
        Reader.width { s with current, mode } ≤ s.width + 1 := by
    intro negated ranges pending current mode h
    obtain ⟨hmode, rfl | ⟨set, rfl⟩⟩ := setStep_cases h
    · exact ⟨hmode, Nat.le_succ _⟩
    · exact ⟨hmode, (atom_width s set).2⟩
  rw [Reader.step] at h
  split at h
  · next hplain =>
    by_cases hspecial : isSpecial c = true
    · obtain ⟨hmode', hwidth⟩ := special_width hplain hspecial h
      exact ⟨hmode', Nat.le_succ_of_le hwidth⟩
    · rw [plainStep_atom ((Bool.not_eq_true _).mp hspecial) hcount] at h
      cases h
      exact atom_width s _
  · split at h
    · cases h
      exact atom_width s _
    · split at h
      · cases h
        exact atom_width s _
      · cases h
  · next lo hi hcounted =>
    rw [hcounted] at hmode
    cases hmode
  · split at h
    · cases h
      exact ⟨rfl, Nat.le_succ _⟩
    · obtain ⟨⟨current, mode⟩, hstep, h⟩ := bind_ok h
      cases h
      exact hset hstep
  · obtain ⟨⟨current, mode⟩, hstep, h⟩ := bind_ok h
    cases h
    exact hset hstep

theorem read_width (hmode : s.mode.isCounted = false)
    (hcount : hasCount text = false) (h : s.read text = .ok s') :
    s'.width ≤ s.width + text.length := by
  induction text generalizing s with
  | nil =>
      cases h
      exact Nat.le_refl _
  | cons c text ih =>
      rw [hasCount, Bool.or_eq_false_iff] at hcount
      obtain ⟨s1, hstep, h⟩ := bind_ok h
      obtain ⟨hmode1, hwidth⟩ := step_width hmode hcount.1 hstep
      have := ih hmode1 hcount.2 h
      rw [List.length_cons]
      omega

theorem hasCount_append {before : List Nat}
    (h : hasCount (before ++ text) = false) : hasCount text = false := by
  induction before with
  | nil => exact h
  | cons c before ih =>
      rw [List.cons_append, hasCount, Bool.or_eq_false_iff] at h
      exact ih h.2

theorem atoms_width (l : Level) (text : List Nat) :
    (atoms l text).width ≤ l.width + text.length := by
  induction text generalizing l with
  | nil => exact Nat.le_refl _
  | cons c text ih =>
      refine Nat.le_trans (ih (l.atom (.char (charSet c)))) ?_
      have := l.width_atom (.char (charSet c))
      rw [Regex.width] at this
      rw [List.length_cons]
      omega

/-- A pattern with a special character, and without quantifiers in braces, is
longer than what it cannot do without. -/
theorem parse_width {r : Regex} (hcount : hasCount text = false)
    (h : parse text = .ok r) (hspecial : ∃ c ∈ text, isSpecial c = true) :
    r.width < text.length := by
  obtain ⟨d, hd, hdspecial⟩ := hspecial
  cases hfind : text.find? isSpecial with
  | none => exact (List.find?_eq_none.mp hfind d hd hdspecial).elim
  | some c =>
      obtain ⟨hc, before, after, rfl, hbefore⟩ :=
        List.find?_eq_some_iff_append.mp hfind
      obtain ⟨s, hread, hfinish⟩ := bind_ok h
      have hwidth : r.width = s.width := by
        rw [Reader.finish] at hfinish
        split at hfinish
        · next hend =>
          cases hfinish
          rw [Reader.width, hend.2, List.foldr_nil, Nat.zero_add]
          rfl
        · cases hfinish
      rw [read_atoms rfl (fun b hb => by simpa using hbefore b hb) hcount]
        at hread
      have hrest := hasCount_append hcount
      rw [hasCount, Bool.or_eq_false_iff] at hrest
      obtain ⟨s1, hstep, hread⟩ := bind_ok hread
      obtain ⟨hmode, hwidth1⟩ := special_width rfl hc hstep
      have hwidth2 := read_width hmode hrest.2 hread
      have hbegin : Reader.width ⟨[], atoms .new before, .plain⟩ ≤
          before.length := by
        have := atoms_width .new before
        rw [Reader.width, List.foldr_nil, Nat.zero_add]
        exact Nat.le_trans this (Nat.le_of_eq (Nat.zero_add _))
      rw [hwidth, List.length_append, List.length_cons]
      replace hwidth1 : s1.width ≤
          Reader.width ⟨[], atoms .new before, .plain⟩ := hwidth1
      omega

/-! ## Only a plain pattern searches for itself -/

/-- On ASCII the rule tells the letters apart, but for their case. -/
def OnAscii (rule : CaseRule) : Prop :=
  ∀ c d, c < 128 → d < 128 → (c ∈ rule.same d ↔ c ∈ CaseRule.ascii.same d)

/-- `.` takes a small x. -/
theorem dot_holds (hrule : OnAscii rule) : dot.holds rule 120 = true := by
  rw [CharSet.holds, bne_iff_ne, ne_eq, dot, eq_comm, List.any_eq_true]
  rintro ⟨d, hd, hnewline⟩
  have hd10 : d = 10 := by
    simp only [List.any_cons, List.any_nil, Bool.or_false, Bool.and_eq_true,
      decide_eq_true_eq] at hnewline
    omega
  rw [hd10, hrule 10 120 (by decide) (by decide)] at hd
  revert hd
  decide

/-- What is found in a text and only where that text stands cannot do with
less: a match that is thinned out is shorter than the text. -/
theorem length_le_width (good : Nat → Prop) {r : Regex}
    (hgood : ∀ c ∈ text, good c) (hfound : r.FoundIn rule text)
    (h : ∀ t, (∀ c ∈ t, good c) → r.FoundIn rule t →
      ContainsWord rule text t) :
    text.length ≤ r.width := by
  obtain ⟨w, hsub, hlen, hshort⟩ := hfound.shorten
  exact Nat.le_trans
    (h w (fun d hd => hgood d (hsub.subset hd)) hshort).length_le hlen

/-- A pattern that is found exactly in the texts it stands in is plain. `good`
are the characters that texts may have. A quantifier in braces may make a
pattern that needs as much as its own text and is found there: of such a pattern
nothing is said. -/
theorem isPlain_of_found_iff (good : Nat → Prop) {r : Regex}
    (hrule : OnAscii rule) (hparse : parse text = .ok r)
    (hcount : hasCount text = true → r.FoundIn rule text →
      r.width < text.length)
    (hgood : ∀ c ∈ text, good c) (hletter : good 120)
    (h : ∀ t, (∀ c ∈ t, good c) →
      (r.FoundIn rule t ↔ ContainsWord rule text t)) :
    IsPlain text := by
  have hself : r.FoundIn rule text :=
    (h text hgood).mpr (containsWord_self rule text)
  have hlong : text.length ≤ r.width :=
    length_le_width good hgood hself fun t ht => (h t ht).mp
  have hno : hasCount text = false := by
    by_contra hyes
    have := hcount (by simpa using hyes) hself
    omega
  have hspecial : ∀ c ∈ text, isSpecial c = false := by
    intro c hc
    by_contra hne
    have := parse_width hno hparse ⟨c, hc, by simpa using hne⟩
    omega
  refine ⟨fun c hc => ⟨hspecial c hc, ?_⟩, hno⟩
  -- A `.` would take any other character.
  rintro rfl
  obtain ⟨r', hr', hfound⟩ := parse_atoms rule hspecial hno
  cases hparse.symm.trans hr'
  let other := text.map fun c => if c = 46 then 120 else c
  have hother : ∀ c ∈ other, good c := by
    intro c hc
    obtain ⟨d, hd, rfl⟩ := List.mem_map.mp hc
    split
    · exact hletter
    · exact hgood d hd
  have htaken : List.Forall₂ (fun d c => (charSet c).holds rule d = true)
      other text := by
    rw [List.forall₂_map_left_iff, List.forall₂_same]
    intro c _
    rw [charSet]
    split
    · exact dot_holds hrule
    · exact CharSet.holds_one.mpr (rule.refl c)
  obtain ⟨w, hinside, hall⟩ := (h other hother).mp
    ((hfound other).mpr ⟨other, List.infix_rfl, htaken⟩)
  have hw : w = other := by
    refine hinside.eq_of_length ?_
    rw [hall.length_eq, List.length_map]
  rw [hw, List.forall₂_map_left_iff, List.forall₂_same] at hall
  have hdot := hall 46 hc
  rw [if_pos rfl, hrule 120 46 (by decide) (by decide)] at hdot
  revert hdot
  decide

end Pattern

end TaxiService.Lib
