import TaxiService.Lib.Assoc
import TaxiService.Lib.Utf8

/-!
# Python's `json`: reading

The values `json.loads` makes and how it makes them from text. Text is a list
of code points, and a string may hold lone surrogates, since an escape can
spell one. A number with a fraction or an exponent is a float; what a float is
stays open (`PyFloat`), together with the laws of `float.__repr__` this library
rests on.

The reader is a lexer and an automaton over its tokens. The automaton holds
the containers that are open (`Frame`) and moves by one token, so that reading
is a fold and "a prefix of a document is not a document" is a fact about one
step: a complete value at the top takes no further token.

An interpreter gives up on containers that are nested too deep and on integers
with too many digits. Both limits are arguments of `loads`, and both are
checked on the tokens: a value that a later one of the same key replaces counts
like any other.
-/

namespace TaxiService.Lib

/-- A Python string. -/
abbrev PyStr := List Nat

/-- A string literal. -/
def py (s : String) : PyStr := s.toList.map Char.toNat

inductive PyJson (F : Type) where
  | null
  | bool (b : Bool)
  | int (n : Int)
  | float (x : F)
  | str (s : PyStr)
  | list (items : List (PyJson F))
  | dict (entries : List (PyStr × PyJson F))

/-! ## Tokens -/

/-- How a float is written. -/
inductive FloatText where
  | nan
  | inf
  | negInf
  | finite (text : PyStr)
  deriving DecidableEq, Repr

/-- The decimal digits of an integer, without its sign. -/
def intDigits (n : Int) : Nat := (Nat.toDigits 10 n.natAbs).length

inductive Token where
  | lbrace
  | rbrace
  | lbracket
  | rbracket
  | comma
  | colon
  | null
  | bool (b : Bool)
  | int (n : Int)
  | float (text : FloatText)
  | str (s : PyStr)
  deriving DecidableEq, Repr

def isWs (c : Nat) : Bool := c == 32 || c == 9 || c == 10 || c == 13

def isDigitChar (c : Nat) : Bool := 48 ≤ c && c ≤ 57

/-- The number a run of decimal digits denotes. -/
def decimalValue (ds : PyStr) : Nat := ds.foldl (fun n d => 10 * n + (d - 48)) 0

/-- The integer part of a number: a zero, or digits that do not start with
one. -/
def scanInt (s : PyStr) : Option (PyStr × PyStr) :=
  match s with
  | 48 :: rest => some ([48], rest)
  | c :: rest =>
      if isDigitChar c then
        some (c :: rest.takeWhile isDigitChar, rest.dropWhile isDigitChar)
      else none
  | [] => none

/-- The fraction, if there is one. -/
def scanFrac (s : PyStr) : PyStr × PyStr :=
  match s with
  | 46 :: rest =>
      if (rest.takeWhile isDigitChar).isEmpty then ([], s)
      else (46 :: rest.takeWhile isDigitChar, rest.dropWhile isDigitChar)
  | _ => ([], s)

/-- The sign of an exponent. -/
def scanSign (s : PyStr) : PyStr × PyStr :=
  match s with
  | 43 :: rest => ([43], rest)
  | 45 :: rest => ([45], rest)
  | _ => ([], s)

def isExpMark (c : Nat) : Bool := c == 101 || c == 69

/-- The exponent, if there is one. -/
def scanExp (s : PyStr) : PyStr × PyStr :=
  match s with
  | e :: rest =>
      let (sign, digits) := scanSign rest
      if isExpMark e && !(digits.takeWhile isDigitChar).isEmpty then
        (e :: sign ++ digits.takeWhile isDigitChar, digits.dropWhile isDigitChar)
      else ([], s)
  | [] => ([], [])

/-- A number without its minus sign. -/
def scanUnsigned (negative : Bool) (s : PyStr) : Option (Token × PyStr) :=
  match scanInt s with
  | none => none
  | some (digits, rest) =>
      let (frac, rest) := scanFrac rest
      let (exp, rest) := scanExp rest
      if frac.isEmpty && exp.isEmpty then
        let n : Int := decimalValue digits
        some (.int (if negative then -n else n), rest)
      else
        let text := digits ++ frac ++ exp
        some (.float (.finite (if negative then 45 :: text else text)), rest)

def scanNumber (s : PyStr) : Option (Token × PyStr) :=
  match s with
  | 45 :: rest => scanUnsigned true rest
  | _ => scanUnsigned false s

def hexValue (c : Nat) : Option Nat :=
  if isDigitChar c then some (c - 48)
  else if 97 ≤ c ∧ c ≤ 102 then some (c - 87)
  else if 65 ≤ c ∧ c ≤ 70 then some (c - 55)
  else none

def hexValue4 (a b c d : Nat) : Option Nat := do
  pure ((((← hexValue a) * 16 + (← hexValue b)) * 16 + (← hexValue c)) * 16 +
    (← hexValue d))

/-- What the character after a backslash stands for. -/
def simpleEscape : Nat → Option Nat
  | 34 => some 34
  | 92 => some 92
  | 47 => some 47
  | 98 => some 8
  | 102 => some 12
  | 110 => some 10
  | 114 => some 13
  | 116 => some 9
  | _ => none

/-- The characters of a string up to its closing quote, each with whether it
was written as a `\u` escape. -/
def scanUnits : PyStr → Option (List (Bool × Nat) × PyStr)
  | [] => none
  | 34 :: rest => some ([], rest)
  | 92 :: 117 :: a :: b :: c :: d :: rest =>
      match hexValue4 a b c d, scanUnits rest with
      | some n, some (units, rest) => some ((true, n) :: units, rest)
      | _, _ => none
  | 92 :: e :: rest =>
      match simpleEscape e, scanUnits rest with
      | some n, some (units, rest) => some ((false, n) :: units, rest)
      | _, _ => none
  | c :: rest =>
      if c < 32 then none
      else match scanUnits rest with
        | some (units, rest) => some ((false, c) :: units, rest)
        | none => none

def isHighSurrogate (c : Nat) : Bool := 55296 ≤ c && c < 56320

def isLowSurrogate (c : Nat) : Bool := 56320 ≤ c && c < 57344

/-- Two escapes that spell a surrogate pair are one character. -/
def joinPairs : List (Bool × Nat) → PyStr
  | [] => []
  | [(_, c)] => [c]
  | (escaped, c) :: (escaped', c') :: rest =>
      if escaped && escaped' && isHighSurrogate c && isLowSurrogate c' then
        (65536 + (c - 55296) * 1024 + (c' - 56320)) :: joinPairs rest
      else c :: joinPairs ((escaped', c') :: rest)

def nextToken (s : PyStr) : Option (Token × PyStr) :=
  match s with
  | 123 :: rest => some (.lbrace, rest)
  | 125 :: rest => some (.rbrace, rest)
  | 91 :: rest => some (.lbracket, rest)
  | 93 :: rest => some (.rbracket, rest)
  | 44 :: rest => some (.comma, rest)
  | 58 :: rest => some (.colon, rest)
  | 34 :: rest =>
      match scanUnits rest with
      | some (units, rest) => some (.str (joinPairs units), rest)
      | none => none
  | 110 :: 117 :: 108 :: 108 :: rest => some (.null, rest)
  | 116 :: 114 :: 117 :: 101 :: rest => some (.bool true, rest)
  | 102 :: 97 :: 108 :: 115 :: 101 :: rest => some (.bool false, rest)
  | 78 :: 97 :: 78 :: rest => some (.float .nan, rest)
  | 73 :: 110 :: 102 :: 105 :: 110 :: 105 :: 116 :: 121 :: rest =>
      some (.float .inf, rest)
  | 45 :: 73 :: 110 :: 102 :: 105 :: 110 :: 105 :: 116 :: 121 :: rest =>
      some (.float .negInf, rest)
  | _ => scanNumber s

/-- The tokens of a text. A token takes at least one character, so the length
of the text is fuel enough. -/
def lexAux : Nat → PyStr → Option (List Token)
  | 0, _ => none
  | n + 1, s =>
      match s.dropWhile isWs with
      | [] => some []
      | c :: rest =>
          match nextToken (c :: rest) with
          | none => none
          | some (t, rest) => (lexAux n rest).map (t :: ·)

def lex (s : PyStr) : Option (List Token) := lexAux (s.length + 1) s

/-! ## What the tokens take -/

/-- How deep the containers are nested. -/
def tokenNesting : List Token → Nat
  | [] => 0
  | .lbrace :: ts | .lbracket :: ts => tokenNesting ts + 1
  | .rbrace :: ts | .rbracket :: ts => tokenNesting ts - 1
  | _ :: ts => tokenNesting ts

def Token.digits : Token → Nat
  | .int n => intDigits n
  | _ => 0

/-! ## The automaton -/

/-- Floats: the numbers of texts, and the text `repr` gives. -/
structure PyFloat (F : Type) where
  ofText : FloatText → F
  repr : F → FloatText
  ofText_repr : ∀ x, ofText (repr x) = x
  repr_number : ∀ x text, repr x = .finite text →
    scanNumber text = some (.float (.finite text), [])
  repr_ascii : ∀ x text, repr x = .finite text → ∀ c ∈ text, 32 ≤ c ∧ c < 127

/-- A text `repr` can give. -/
def FloatText.Canonical : FloatText → Prop
  | .finite text => scanNumber text = some (.float (.finite text), []) ∧
      ∀ c ∈ text, 32 ≤ c ∧ c < 127
  | _ => True

instance : ∀ t : FloatText, Decidable t.Canonical
  | .finite _ => inferInstanceAs (Decidable (_ ∧ _))
  | .nan | .inf | .negInf => inferInstanceAs (Decidable True)

/-- Floats that are no more than their texts. -/
def PyFloat.literal : PyFloat {t : FloatText // t.Canonical} where
  ofText t := if h : t.Canonical then ⟨t, h⟩ else ⟨.nan, trivial⟩
  repr x := x.1
  ofText_repr x := dif_pos x.2
  repr_number x text h := (h ▸ x.2 : FloatText.Canonical (.finite text)).1
  repr_ascii x text h := (h ▸ x.2 : FloatText.Canonical (.finite text)).2

/-- A container that is open around the value being read. -/
inductive Frame (F : Type) where
  | list (items : List (PyJson F))
  | dict (entries : List (PyStr × PyJson F)) (key : PyStr)

inductive ReadState (F : Type) where
  | value (open_ : List (Frame F))
  | firstItem (open_ : List (Frame F))
  | firstKey (open_ : List (Frame F))
  | key (entries : List (PyStr × PyJson F)) (open_ : List (Frame F))
  | colon (entries : List (PyStr × PyJson F)) (key : PyStr)
      (open_ : List (Frame F))
  | done (v : PyJson F) (open_ : List (Frame F))

variable {F : Type} (fl : PyFloat F)

/-- The token that starts a value. -/
def startValue (t : Token) (open_ : List (Frame F)) : Option (ReadState F) :=
  match t with
  | .lbrace => some (.firstKey open_)
  | .lbracket => some (.firstItem open_)
  | .null => some (.done .null open_)
  | .bool b => some (.done (.bool b) open_)
  | .int n => some (.done (.int n) open_)
  | .float text => some (.done (.float (fl.ofText text)) open_)
  | .str s => some (.done (.str s) open_)
  | _ => none

/-- One token. A repeated key of an object keeps its place and takes the new
value. -/
def readStep (state : ReadState F) (t : Token) : Option (ReadState F) :=
  match state, t with
  | .value open_, t => startValue fl t open_
  | .firstItem open_, .rbracket => some (.done (.list []) open_)
  | .firstItem open_, t => startValue fl t (.list [] :: open_)
  | .firstKey open_, .rbrace => some (.done (.dict []) open_)
  | .firstKey open_, .str k => some (.colon [] k open_)
  | .key entries open_, .str k => some (.colon entries k open_)
  | .colon entries k open_, .colon => some (.value (.dict entries k :: open_))
  | .done v (.list items :: open_), .comma =>
      some (.value (.list (items ++ [v]) :: open_))
  | .done v (.list items :: open_), .rbracket =>
      some (.done (.list (items ++ [v])) open_)
  | .done v (.dict entries k :: open_), .comma =>
      some (.key (Assoc.set entries k v) open_)
  | .done v (.dict entries k :: open_), .rbrace =>
      some (.done (.dict (Assoc.set entries k v)) open_)
  | _, _ => none

def readTokens (state : ReadState F) (ts : List Token) : Option (ReadState F) :=
  ts.foldlM (readStep fl) state

/-- The value a complete reading ends in. -/
def ReadState.result? : ReadState F → Option (PyJson F)
  | .done v [] => some v
  | _ => none

/-- `json.loads` where containers can be nested so deep and integers have so
many digits, `none` where it raises. -/
def loads (nesting digits : Nat) (s : PyStr) : Option (PyJson F) := do
  let ts ← lex s
  guard (tokenNesting ts ≤ nesting ∧ ∀ t ∈ ts, t.digits ≤ digits)
  (← readTokens fl (.value []) ts).result?

end TaxiService.Lib
