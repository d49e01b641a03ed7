import Mathlib.Data.List.TakeWhile
import TaxiService.Lib.PyJsonText

/-!
# Lexing what was written

The lexer read forwards: what it makes of each kind of text the writer
produces, with anything behind it. A number is the one token that does not know
its own end, so it needs a character behind it that cannot continue a number
(`Delimited`).
-/

namespace TaxiService.Lib

/-! ## Fuel -/

theorem scanInt_length {s ds rest : PyStr} (h : scanInt s = some (ds, rest)) :
    rest.length < s.length := by
  rw [scanInt.eq_def] at h
  split at h
  · cases h
    exact Nat.lt_succ_self _
  · next c t _ =>
      split at h
      · cases h
        have := (List.dropWhile_suffix isDigitChar (l := t)).length_le
        rw [List.length_cons]
        omega
      · cases h
  · cases h

theorem scanFrac_length (s : PyStr) : (scanFrac s).2.length ≤ s.length := by
  rw [scanFrac.eq_def]
  split
  · next t =>
      split
      · exact Nat.le_refl _
      · have := (List.dropWhile_suffix isDigitChar (l := t)).length_le
        rw [List.length_cons]
        show (t.dropWhile isDigitChar).length ≤ _
        omega
  · exact Nat.le_refl _

theorem scanSign_length (s : PyStr) : (scanSign s).2.length ≤ s.length := by
  rw [scanSign.eq_def]
  split
  · exact Nat.le_succ _
  · exact Nat.le_succ _
  · exact Nat.le_refl _

theorem scanExp_length (s : PyStr) : (scanExp s).2.length ≤ s.length := by
  rw [scanExp.eq_def]
  split
  · next e t =>
      simp only []
      split
      · have h1 := scanSign_length t
        have h2 := (List.dropWhile_suffix isDigitChar
          (l := (scanSign t).2)).length_le
        rw [List.length_cons]
        show ((scanSign t).2.dropWhile isDigitChar).length ≤ _
        omega
      · exact Nat.le_refl _
  · exact Nat.le_refl _

theorem scanUnsigned_length {negative : Bool} {s rest : PyStr} {t : Token}
    (h : scanUnsigned negative s = some (t, rest)) :
    rest.length < s.length := by
  rw [scanUnsigned] at h
  split at h
  · cases h
  · next ds r hint =>
      have h1 := scanInt_length hint
      have h2 := scanFrac_length r
      have h3 := scanExp_length (scanFrac r).2
      simp only [] at h
      split at h
      · cases h; omega
      · cases h; omega

theorem scanNumber_length {s rest : PyStr} {t : Token}
    (h : scanNumber s = some (t, rest)) : rest.length < s.length := by
  rw [scanNumber.eq_def] at h
  split at h
  · have := scanUnsigned_length h
    rw [List.length_cons]
    omega
  · exact scanUnsigned_length h

theorem scanUnits_length {s rest : PyStr} {units : List (Bool × Nat)}
    (h : scanUnits s = some (units, rest)) : rest.length < s.length := by
  fun_induction scanUnits s generalizing units rest
  case case2 => cases h; exact Nat.lt_succ_self _
  case case3 hunits _ ih | case5 hunits _ ih | case8 hunits ih =>
    cases h
    have := ih hunits
    simp only [List.length_cons]
    omega
  all_goals cases h

theorem nextToken_length {s rest : PyStr} {t : Token}
    (h : nextToken s = some (t, rest)) : rest.length < s.length := by
  rw [nextToken.eq_def] at h
  split at h
  case h_7 r =>
    split at h
    · next units r' hunits =>
        cases h
        have := scanUnits_length hunits
        rw [List.length_cons]
        omega
    · cases h
  case h_14 => exact scanNumber_length h
  all_goals
    cases h
    simp only [List.length_cons]
    omega

theorem lexAux_fuel : ∀ {n m : Nat} {s : PyStr}, s.length < n → s.length < m →
    lexAux n s = lexAux m s := by
  intro n
  induction n with
  | zero => intro m s h _; omega
  | succ n ih =>
      intro m s hn hm
      obtain ⟨m, rfl⟩ : ∃ k, m = k + 1 := ⟨m - 1, by omega⟩
      have hlen := (List.dropWhile_suffix isWs (l := s)).length_le
      rw [lexAux, lexAux]
      split
      · rfl
      · next c r hs =>
          rw [hs] at hlen
          split
          · rfl
          · next t rest htok =>
              have := nextToken_length htok
              rw [ih (m := m) (by omega) (by omega)]

/-! ## The equations of the lexer -/

theorem lex_ws {c : Nat} (hc : isWs c = true) (s : PyStr) :
    lex (c :: s) = lex s := by
  have h : lexAux ((c :: s).length + 1) (c :: s) =
      lexAux ((c :: s).length + 1) s := by
    rw [lexAux, lexAux, List.dropWhile_cons_of_pos hc]
  rw [lex, h]
  exact lexAux_fuel (by rw [List.length_cons]; omega) (Nat.lt_succ_self _)

theorem lex_blanks {blanks : PyStr} (h : ∀ c ∈ blanks, isWs c = true)
    (s : PyStr) : lex (blanks ++ s) = lex s := by
  induction blanks with
  | nil => rfl
  | cons c blanks ih =>
      rw [List.cons_append, lex_ws (h c List.mem_cons_self),
        ih fun d hd => h d (List.mem_cons_of_mem c hd)]

theorem lex_token {c : Nat} {s rest : PyStr} {t : Token} (hc : isWs c = false)
    (h : nextToken (c :: s) = some (t, rest)) :
    lex (c :: s) = (lex rest).map (t :: ·) := by
  have hlen := nextToken_length h
  rw [lex, lexAux, List.dropWhile_cons_of_neg (by rw [hc]; exact nofun)]
  simp only [h]
  rw [lex, lexAux_fuel (by omega) (Nat.lt_succ_self _)]

/-! ## Numbers -/

/-- A character that can continue a number. -/
def isNumChar (c : Nat) : Bool :=
  isDigitChar c || c == 46 || c == 101 || c == 69 || c == 43 || c == 45

/-- No number goes on here. -/
def Delimited (rest : PyStr) : Prop := ∀ c ∈ rest.head?, isNumChar c = false

theorem Delimited.digit {rest : PyStr} (h : Delimited rest) :
    ∀ c ∈ rest.head?, isDigitChar c = false := by
  intro c hc
  have := h c hc
  simp only [isNumChar, Bool.or_eq_false_iff] at this
  exact this.1.1.1.1.1

theorem takeWhile_append_of_head {p : Nat → Bool} {rest : PyStr}
    (h : ∀ c ∈ rest.head?, p c = false) (s : PyStr) :
    (s ++ rest).takeWhile p = s.takeWhile p ∧
      (s ++ rest).dropWhile p = s.dropWhile p ++ rest := by
  induction s with
  | nil =>
      cases rest with
      | nil => exact ⟨rfl, rfl⟩
      | cons c rest =>
          have hc := h c rfl
          rw [List.nil_append, List.takeWhile_cons_of_neg (by simp [hc]),
            List.dropWhile_cons_of_neg (by simp [hc])]
          exact ⟨rfl, rfl⟩
  | cons c s ih =>
      by_cases hc : p c = true
      · simp only [List.cons_append, List.takeWhile_cons_of_pos hc,
          List.dropWhile_cons_of_pos hc, ih, and_self]
      · simp only [List.cons_append, List.takeWhile_cons_of_neg hc,
          List.dropWhile_cons_of_neg hc, and_self]

theorem scanInt_append {s ds r rest : PyStr} (hrest : Delimited rest)
    (h : scanInt s = some (ds, r)) :
    scanInt (s ++ rest) = some (ds, r ++ rest) := by
  rw [scanInt.eq_def] at h
  split at h
  · cases h
    rfl
  · next c t hne =>
      split at h
      · next hc =>
          cases h
          obtain ⟨h1, h2⟩ := takeWhile_append_of_head hrest.digit t
          rw [List.cons_append, scanInt.eq_2 _ _ hne, if_pos hc, h1, h2]
      · cases h
  · cases h

theorem scanFrac_append {rest : PyStr} (hrest : Delimited rest) (s : PyStr) :
    scanFrac (s ++ rest) = ((scanFrac s).1, (scanFrac s).2 ++ rest) := by
  have hdot : ∀ c ∈ rest.head?, c ≠ 46 := by
    rintro c hc rfl
    have := hrest 46 hc
    revert this
    decide
  cases s with
  | nil =>
      cases rest with
      | nil => rfl
      | cons c rest =>
          rw [List.nil_append, scanFrac.eq_2 _ fun r hr => ?_]
          · rfl
          · cases hr
            exact hdot 46 rfl rfl
  | cons c s =>
      by_cases hc : c = 46
      · subst hc
        obtain ⟨h1, h2⟩ := takeWhile_append_of_head hrest.digit s
        simp only [List.cons_append, scanFrac, h1, h2]
        split <;> rfl
      · rw [List.cons_append, scanFrac.eq_2 _ fun r hr => ?_,
          scanFrac.eq_2 _ fun r hr => ?_]
        · rfl
        · cases hr
          exact hc rfl
        · cases hr
          exact hc rfl

theorem scanSign_other {c : Nat} (s : PyStr) (h43 : c ≠ 43) (h45 : c ≠ 45) :
    scanSign (c :: s) = ([], c :: s) := by
  rw [scanSign.eq_def]
  split
  · next heq => cases heq; exact absurd rfl h43
  · next heq => cases heq; exact absurd rfl h45
  · rfl

theorem scanSign_append {rest : PyStr} (hrest : Delimited rest) (s : PyStr) :
    scanSign (s ++ rest) = ((scanSign s).1, (scanSign s).2 ++ rest) := by
  cases s with
  | nil =>
      cases rest with
      | nil => rfl
      | cons c rest =>
          have hc := hrest c rfl
          rw [List.nil_append, scanSign_other]
          · rfl
          · rintro rfl
            revert hc
            decide
          · rintro rfl
            revert hc
            decide
  | cons c s =>
      by_cases h43 : c = 43
      · subst h43; rfl
      · by_cases h45 : c = 45
        · subst h45; rfl
        · rw [List.cons_append, scanSign_other _ h43 h45,
            scanSign_other _ h43 h45]
          rfl

theorem scanExp_append {rest : PyStr} (hrest : Delimited rest) (s : PyStr) :
    scanExp (s ++ rest) = ((scanExp s).1, (scanExp s).2 ++ rest) := by
  cases s with
  | nil =>
      cases rest with
      | nil => rfl
      | cons c rest =>
          have hc : isExpMark c = false := by
            have := hrest c rfl
            simp only [isNumChar, Bool.or_eq_false_iff] at this
            simp only [isExpMark, this, Bool.or_self]
          simp [scanExp, hc]
  | cons c s =>
      obtain ⟨h1, h2⟩ := takeWhile_append_of_head hrest.digit (scanSign s).2
      simp only [List.cons_append, scanExp, scanSign_append hrest, h1, h2]
      split <;> rfl

/-- A number that ends the text is the same number with more text behind
it. -/
theorem scanUnsigned_append {negative : Bool} {s r rest : PyStr} {t : Token}
    (hrest : Delimited rest) (h : scanUnsigned negative s = some (t, r)) :
    scanUnsigned negative (s ++ rest) = some (t, r ++ rest) := by
  rw [scanUnsigned] at h ⊢
  split at h
  · cases h
  · next ds r' hint =>
      rw [scanInt_append hrest hint]
      simp only [scanFrac_append hrest, scanExp_append hrest] at h ⊢
      split at h
      · next hempty =>
          cases h
          rw [if_pos hempty]
      · next hempty =>
          cases h
          rw [if_neg hempty]

theorem scanNumber_other {c : Nat} (s : PyStr) (h : c ≠ 45) :
    scanNumber (c :: s) = scanUnsigned false (c :: s) := by
  rw [scanNumber.eq_def]
  split
  · next heq => cases heq; exact absurd rfl h
  · rfl

theorem scanNumber_append {s r rest : PyStr} {t : Token}
    (hrest : Delimited rest) (h : scanNumber s = some (t, r)) :
    scanNumber (s ++ rest) = some (t, r ++ rest) := by
  cases s with
  | nil => cases h
  | cons c s =>
      by_cases hc : c = 45
      · subst hc
        exact scanUnsigned_append hrest h
      · rw [scanNumber_other s hc] at h
        rw [List.cons_append, scanNumber_other _ hc]
        exact scanUnsigned_append hrest h

/-! ## Integers -/

theorem digitChar_pos {n : Nat} (h0 : 0 < n) (h : n < 10) :
    n.digitChar ≠ '0' := by
  have : ∀ k < 10, 0 < k → Nat.digitChar k ≠ '0' := by decide
  exact this n h h0

/-- Only zero starts with a zero. -/
theorem toDigits_head {n : Nat} (h : 0 < n) :
    (Nat.toDigits 10 n).head? ≠ some '0' := by
  induction n using Nat.strongRecOn with
  | ind n ih =>
      rcases Nat.lt_or_ge n 10 with hlt | hge
      · rw [Nat.toDigits_of_lt_base hlt, List.head?_cons]
        exact fun he => digitChar_pos h hlt (Option.some.inj he)
      · have hne := Nat.toDigits_ne_nil (n := n / 10) (b := 10)
        rw [Nat.toDigits_of_base_le (by decide) hge,
          List.head?_append_of_ne_nil _ hne]
        exact ih (n / 10) (by omega) (by omega)

theorem toDigits_digit {n c : Nat}
    (h : c ∈ (Nat.toDigits 10 n).map Char.toNat) : isDigitChar c = true := by
  obtain ⟨d, hd, rfl⟩ := List.mem_map.mp h
  have := Nat.isDigit_of_mem_toDigits (by decide) (by decide) hd
  simp only [Char.isDigit, Bool.and_eq_true, decide_eq_true_eq] at this
  simp only [isDigitChar, Bool.and_eq_true, decide_eq_true_eq]
  exact ⟨this.1, this.2⟩

theorem decimalValue_toDigits (n : Nat) :
    decimalValue ((Nat.toDigits 10 n).map Char.toNat) = n := by
  have h := Nat.ofDigitChars_ten_toDigits (n := n)
  rw [Nat.ofDigitChars_eq_foldl] at h
  rw [decimalValue, List.foldl_map]
  exact h

theorem scanInt_all {c : Nat} {s : PyStr} (hc : c ≠ 48)
    (hd : ∀ d ∈ c :: s, isDigitChar d = true) :
    scanInt (c :: s) = some (c :: s, []) := by
  have hs : ∀ d ∈ s, isDigitChar d = true :=
    fun d h => hd d (List.mem_cons_of_mem c h)
  rw [scanInt.eq_2 _ _ hc, if_pos (hd c List.mem_cons_self),
    List.takeWhile_eq_self_iff.mpr hs, List.dropWhile_eq_nil_iff.mpr hs]

theorem scanInt_digits (n : Nat) :
    scanInt ((Nat.toDigits 10 n).map Char.toNat) =
      some ((Nat.toDigits 10 n).map Char.toNat, []) := by
  have hdigit := fun c => toDigits_digit (n := n) (c := c)
  rcases Nat.eq_zero_or_pos n with rfl | hpos
  · rfl
  · have hhead := toDigits_head hpos
    revert hhead hdigit
    cases hds : Nat.toDigits 10 n with
    | nil => exact absurd hds Nat.toDigits_ne_nil
    | cons c cs =>
        intro hdigit hhead
        refine scanInt_all (fun hc => hhead ?_) hdigit
        rw [List.head?_cons, ← Char.ofNat_toNat c, hc]

theorem scanUnsigned_digits (negative : Bool) (n : Nat) :
    scanUnsigned negative ((Nat.toDigits 10 n).map Char.toNat) =
      some (.int (if negative then -(n : Int) else n), []) := by
  rw [scanUnsigned, scanInt_digits]
  simp only [scanFrac, scanExp, List.isEmpty_nil, Bool.and_self, if_true,
    decimalValue_toDigits]

theorem scanNumber_int (n : Int) :
    scanNumber (intText n) = some (.int n, []) := by
  rw [intText]
  split
  · next hneg =>
      show scanUnsigned true ((Nat.toDigits 10 n.natAbs).map Char.toNat) = _
      rw [scanUnsigned_digits, if_pos rfl,
        show -(n.natAbs : Int) = n by omega]
  · next hpos =>
      have h := scanUnsigned_digits false n.natAbs
      rw [List.nil_append]
      rw [if_neg (by decide), show (n.natAbs : Int) = n by omega] at h
      revert h
      cases hds : (Nat.toDigits 10 n.natAbs).map Char.toNat with
      | nil => exact id
      | cons c cs =>
          intro h
          rw [scanNumber_other, h]
          rintro rfl
          have := toDigits_digit (hds ▸ List.mem_cons_self)
          revert this
          decide

/-! ## Strings -/

/-- The characters written as a `\u` escape. -/
def isHexEscaped (c : Nat) : Bool :=
  c < 32 && c != 8 && c != 9 && c != 10 && c != 12 && c != 13

theorem scanUnits_plain {c : Nat} (h34 : c ≠ 34) (h92 : c ≠ 92) (h : ¬ c < 32)
    (s : PyStr) : scanUnits (c :: s) =
      (scanUnits s).map fun p => ((false, c) :: p.1, p.2) := by
  rw [scanUnits.eq_def]
  split
  · next heq => cases heq
  · next heq => cases heq; exact absurd rfl h34
  · next heq => cases heq; exact absurd rfl h92
  · next heq => cases heq; exact absurd rfl h92
  · next heq =>
      cases heq
      rw [if_neg h]
      split
      · next units r hunits => rw [hunits]; rfl
      · next hunits => rw [hunits]; rfl

theorem scanUnits_hex {a b c d n : Nat} (h : hexValue4 a b c d = some n)
    (s : PyStr) : scanUnits (92 :: 117 :: a :: b :: c :: d :: s) =
      (scanUnits s).map fun p => ((true, n) :: p.1, p.2) := by
  rw [scanUnits.eq_def]
  simp only [h]
  cases scanUnits s <;> rfl

theorem scanUnits_simple {e n : Nat} (h : simpleEscape e = some n)
    (s : PyStr) : scanUnits (92 :: e :: s) =
      (scanUnits s).map fun p => ((false, n) :: p.1, p.2) := by
  rw [scanUnits.eq_def]
  split
  · next heq => cases heq
  · next heq => cases heq
  · next heq => cases heq; cases h
  · next heq =>
      cases heq
      simp only [h]
      cases scanUnits s <;> rfl
  · next hne heq =>
      cases heq
      exact (hne e s rfl rfl).elim

theorem hexValue4_hexText : ∀ c < 32, hexValue4 ((hexText 4 c).getD 0 0)
    ((hexText 4 c).getD 1 0) ((hexText 4 c).getD 2 0)
    ((hexText 4 c).getD 3 0) = some c := by
  decide

theorem scanUnits_escapeChar (c : Nat) (s : PyStr) :
    scanUnits (escapeChar c ++ s) =
      (scanUnits s).map fun p => ((isHexEscaped c, c) :: p.1, p.2) := by
  rw [escapeChar]
  split
  · next h => subst h; exact scanUnits_simple rfl s
  split
  · next h => subst h; exact scanUnits_simple rfl s
  split
  · next h => subst h; exact scanUnits_simple rfl s
  split
  · next h => subst h; exact scanUnits_simple rfl s
  split
  · next h => subst h; exact scanUnits_simple rfl s
  split
  · next h => subst h; exact scanUnits_simple rfl s
  split
  · next h => subst h; exact scanUnits_simple rfl s
  split
  · next h10 h13 h9 h12 h8 h =>
      have hc : isHexEscaped c = true := by
        simp [isHexEscaped, h, h8, h9, h10, h12, h13]
      rw [hc]
      exact scanUnits_hex (hexValue4_hexText c h) s
  · next h34 h92 _ _ _ _ _ h =>
      have hc : isHexEscaped c = false := by simp [isHexEscaped, h]
      rw [hc]
      exact scanUnits_plain h34 h92 h s

theorem scanUnits_encoded (s rest : PyStr) :
    scanUnits (s.flatMap escapeChar ++ 34 :: rest) =
      some (s.map fun c => (isHexEscaped c, c), rest) := by
  induction s with
  | nil => rfl
  | cons c s ih =>
      rw [List.flatMap_cons, List.append_assoc, scanUnits_escapeChar, ih]
      rfl

/-- The writer spells no surrogate with an escape, so nothing is joined. -/
theorem joinPairs_units (s : PyStr) :
    joinPairs (s.map fun c => (isHexEscaped c, c)) = s := by
  induction s with
  | nil => rfl
  | cons c s ih =>
      cases s with
      | nil => rfl
      | cons d s =>
          have hc : (isHexEscaped c && isHexEscaped d && isHighSurrogate c &&
              isLowSurrogate d) = false := by
            by_cases h : c < 32
            · have : isHighSurrogate c = false := by
                simp only [isHighSurrogate, Bool.and_eq_false_iff,
                  decide_eq_false_iff_not]
                omega
              simp [this]
            · simp [isHexEscaped, h]
          rw [List.map_cons, List.map_cons, joinPairs, hc]
          simp only [Bool.false_eq_true, if_false]
          rw [← List.map_cons (f := fun c => (isHexEscaped c, c)), ih]

theorem lex_string (s rest : PyStr) :
    lex (encodeString s ++ rest) = (lex rest).map (.str s :: ·) := by
  have heq : encodeString s ++ rest =
      34 :: (s.flatMap escapeChar ++ 34 :: rest) := by
    simp [encodeString]
  rw [heq]
  refine lex_token (by decide) ?_
  simp only [nextToken, scanUnits_encoded, joinPairs_units]

/-! ## Scalars -/

/-- A number is not the start of any other token. -/
theorem nextToken_number {s rest : PyStr} {t : Token}
    (h : scanNumber s = some (t, rest)) : nextToken s = some (t, rest) := by
  rw [nextToken.eq_def]
  split
  case h_14 => exact h
  all_goals cases h

/-- A text that starts with a number starts with no blank. -/
theorem lex_number {s rest : PyStr} {t : Token} (hrest : Delimited rest)
    (h : scanNumber s = some (t, [])) :
    lex (s ++ rest) = (lex rest).map (t :: ·) := by
  cases s with
  | nil => cases h
  | cons c s =>
      have hws : isWs c = false := by
        by_contra hc
        simp only [isWs, Bool.not_eq_false, Bool.or_eq_true, beq_iff_eq] at hc
        rcases hc with ((rfl | rfl) | rfl) | rfl <;> cases h
      exact lex_token hws (nextToken_number (scanNumber_append hrest h))

variable {F : Type} (fl : PyFloat F)

/-- The token of a value that is not a container. -/
def scalarToken : PyJson F → Option Token
  | .null => some .null
  | .bool b => some (.bool b)
  | .int n => some (.int n)
  | .float x => some (.float (fl.repr x))
  | .str s => some (.str s)
  | .list _ => none
  | .dict _ => none

theorem lex_scalar {v : PyJson F} {text rest : PyStr}
    (h : scalarText fl v = some text) (hrest : Delimited rest) :
    ∃ t, scalarToken fl v = some t ∧
      lex (text ++ rest) = (lex rest).map (t :: ·) := by
  cases v with
  | null =>
      cases h
      exact ⟨_, rfl, lex_token (by decide) rfl⟩
  | bool b =>
      cases b with
      | true =>
          cases h
          exact ⟨_, rfl, lex_token (by decide) rfl⟩
      | false =>
          cases h
          exact ⟨_, rfl, lex_token (by decide) rfl⟩
  | int n =>
      cases h
      exact ⟨_, rfl, lex_number hrest (scanNumber_int n)⟩
  | float x =>
      cases h
      refine ⟨_, rfl, ?_⟩
      cases hx : fl.repr x with
      | nan => exact lex_token (by decide) rfl
      | inf => exact lex_token (by decide) rfl
      | negInf => exact lex_token (by decide) rfl
      | finite text => exact lex_number hrest (fl.repr_number x text hx)
  | str s =>
      cases h
      exact ⟨_, rfl, lex_string s rest⟩
  | list items => cases h
  | dict entries => cases h

end TaxiService.Lib
