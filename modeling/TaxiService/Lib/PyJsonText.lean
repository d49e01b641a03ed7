import TaxiService.Lib.PyJson

/-!
# Python's `json`: writing, and `str`

`iterencode` is the generator behind `json.dump(v, file, ensure_ascii=False,
indent=2)`: the texts it hands to `file.write`, one after the other. It is
written in Python, and every container that is open takes a frame of the
interpreter, so a text comes with what making it takes (`Chunk`). `dumps` is
`json.dumps(v, ensure_ascii=False)`. Both write every string as it is, so a
lone surrogate in a value is one in the text.

`pyStr` and `pyRepr` are `str` and `repr` of such a value. Which characters
`repr` leaves as they are is a table of the interpreter (`Printable`).
-/

namespace TaxiService.Lib

variable {F : Type} (fl : PyFloat F)

/-! ## Scalars -/

/-- Hexadecimal digits of a number, to a width. -/
def hexText : Nat → Nat → PyStr
  | 0, _ => []
  | width + 1, n =>
      let d := n / 16 ^ width % 16
      (if d < 10 then 48 + d else 87 + d) :: hexText width n

def intText (n : Int) : PyStr :=
  (if n < 0 then [45] else []) ++ (Nat.toDigits 10 n.natAbs).map Char.toNat

/-- One character of a JSON string. -/
def escapeChar (c : Nat) : PyStr :=
  if c = 34 then [92, 34]
  else if c = 92 then [92, 92]
  else if c = 10 then [92, 110]
  else if c = 13 then [92, 114]
  else if c = 9 then [92, 116]
  else if c = 12 then [92, 102]
  else if c = 8 then [92, 98]
  else if c < 32 then 92 :: 117 :: hexText 4 c
  else [c]

/-- `encode_basestring`. -/
def encodeString (s : PyStr) : PyStr := 34 :: s.flatMap escapeChar ++ [34]

/-- `floatstr`. -/
def FloatText.json : FloatText → PyStr
  | .nan => py "NaN"
  | .inf => py "Infinity"
  | .negInf => py "-Infinity"
  | .finite text => text

/-- The text of a value that is not a container. -/
def scalarText : PyJson F → Option PyStr
  | .null => some (py "null")
  | .bool true => some (py "true")
  | .bool false => some (py "false")
  | .int n => some (intText n)
  | .float x => some (fl.repr x).json
  | .str s => some (encodeString s)
  | .list _ => none
  | .dict _ => none

/-! ## What a value takes -/

mutual

/-- The most that any scalar of the value takes, with `step` more for every
container around it. -/
def PyJson.measure (step : Nat) (leaf : PyJson F → Nat) : PyJson F → Nat
  | .list items => step + measureItems step leaf items
  | .dict entries => step + measureEntries step leaf entries
  | v => leaf v

def measureItems (step : Nat) (leaf : PyJson F → Nat) : List (PyJson F) → Nat
  | [] => 0
  | v :: vs => max (v.measure step leaf) (measureItems step leaf vs)

def measureEntries (step : Nat) (leaf : PyJson F → Nat) :
    List (PyStr × PyJson F) → Nat
  | [] => 0
  | e :: es => max (measureEntry step leaf e) (measureEntries step leaf es)

def measureEntry (step : Nat) (leaf : PyJson F → Nat) :
    PyStr × PyJson F → Nat
  | (_, v) => v.measure step leaf

end

/-- `floatstr` is a function in Python. -/
def scalarFrames : PyJson F → Nat
  | .float _ => 1
  | _ => 0

def scalarDigits : PyJson F → Nat
  | .int n => intDigits n
  | _ => 0

/-- How deep the containers of the value are nested. -/
def PyJson.nesting : PyJson F → Nat := PyJson.measure 1 fun _ => 0

/-- The frames of the interpreter that the generators for the value take. -/
def PyJson.frames : PyJson F → Nat := PyJson.measure 1 scalarFrames

/-- The digits of its longest integer. -/
def PyJson.digits : PyJson F → Nat := PyJson.measure 0 scalarDigits

/-- How deep `str` goes: a string is its own, and every other value is one call,
the scalars among them. -/
def PyJson.strDepth : PyJson F → Nat
  | .str _ => 0
  | v => v.measure 1 fun _ => 1

/-! ## `json.dump` with `indent=2` -/

/-- A text, with the frames that are taken while it is made and the digits of
the integer in it. -/
structure Chunk where
  frames : Nat
  digits : Nat
  text : PyStr

def texts (chunks : List Chunk) : List PyStr := chunks.map Chunk.text

@[simp] theorem texts_nil : texts [] = [] := rfl

@[simp] theorem texts_cons (c : Chunk) (cs : List Chunk) :
    texts (c :: cs) = c.text :: texts cs := rfl

@[simp] theorem texts_append (cs cs' : List Chunk) :
    texts (cs ++ cs') = texts cs ++ texts cs' := List.map_append

/-- A new line at an indentation level. -/
def newline (level : Nat) : PyStr := 10 :: List.replicate (2 * level) 32

/-- `item_separator` with its new line. -/
def separator (level : Nat) : PyStr := 44 :: newline level

/-- A text of the generator at this level. -/
def Chunk.plain (level : Nat) (text : PyStr) : Chunk := ⟨level, 0, text⟩

/-- A scalar, behind what separates it from what was written before. -/
def Chunk.scalar (level : Nat) (v : PyJson F) (text : PyStr) : Chunk :=
  ⟨level + scalarFrames v, scalarDigits v, text⟩

@[simp] theorem Chunk.text_plain (level : Nat) (text : PyStr) :
    (plain level text).text = text := rfl

@[simp] theorem Chunk.text_scalar (level : Nat) (v : PyJson F) (text : PyStr) :
    (scalar level v text).text = text := rfl

mutual

/-- The generator for a value inside `level` containers. -/
def iterencode (level : Nat) : PyJson F → List Chunk
  | .list [] => [.plain (level + 1) (py "[]")]
  | .list (v :: vs) =>
      iterencodeItems (level + 1) (91 :: newline (level + 1)) (v :: vs) ++
        [.plain (level + 1) (newline level), .plain (level + 1) (py "]")]
  | .dict [] => [.plain (level + 1) (py "\x7b\x7d")]
  | .dict (e :: es) =>
      .plain (level + 1) (py "\x7b") ::
        .plain (level + 1) (newline (level + 1)) ::
        (iterencodeEntries (level + 1) [] (e :: es) ++
          [.plain (level + 1) (newline level), .plain (level + 1) (py "\x7d")])
  | v => [.scalar level v ((scalarText fl v).getD [])]

/-- The items of a list. A scalar is written together with what separates it
from the item before. -/
def iterencodeItems (level : Nat) (buf : PyStr) : List (PyJson F) → List Chunk
  | [] => []
  | v :: vs =>
      (match scalarText fl v with
        | some text => [.scalar level v (buf ++ text)]
        | none => .plain level buf :: iterencode level v) ++
        iterencodeItems level (separator level) vs

/-- The entries of a dict, with the separators as texts of their own. -/
def iterencodeEntries (level : Nat) (before : List Chunk) :
    List (PyStr × PyJson F) → List Chunk
  | [] => []
  | e :: es =>
      before ++ iterencodeEntry level e ++
        iterencodeEntries level [.plain level (separator level)] es

def iterencodeEntry (level : Nat) : PyStr × PyJson F → List Chunk
  | (k, v) => .plain level (encodeString k) :: .plain level (py ": ") ::
      iterencode level v

end

/-! ## `json.dumps` -/

mutual

def dumps : PyJson F → PyStr
  | .list items => 91 :: dumpsItems [] items ++ [93]
  | .dict entries => 123 :: dumpsEntries [] entries ++ [125]
  | v => (scalarText fl v).getD []

def dumpsItems (before : PyStr) : List (PyJson F) → PyStr
  | [] => []
  | v :: vs => before ++ dumps v ++ dumpsItems (py ", ") vs

def dumpsEntries (before : PyStr) : List (PyStr × PyJson F) → PyStr
  | [] => []
  | e :: es => before ++ dumpsEntry e ++ dumpsEntries (py ", ") es

def dumpsEntry : PyStr × PyJson F → PyStr
  | (k, v) => encodeString k ++ py ": " ++ dumps v

end

/-! ## `str` and `repr` -/

/-- The characters `repr` leaves as they are (`str.isprintable`). No surrogate
is one. -/
structure Printable where
  test : Nat → Bool
  scalar : ∀ c, test c = true → isScalar c = true

def Printable.ascii : Printable where
  test c := 32 ≤ c && c < 127
  scalar c h := by
    simp only [Bool.and_eq_true, decide_eq_true_eq] at h
    simp [isScalar, Nat.lt_trans h.2 (show 127 < 55296 by decide)]

variable (printable : Printable)

/-- One character of the `repr` of a string with this quote. -/
def reprChar (quote c : Nat) : PyStr :=
  if c = quote ∨ c = 92 then [92, c]
  else if c = 9 then [92, 116]
  else if c = 10 then [92, 110]
  else if c = 13 then [92, 114]
  else if c < 32 ∨ c = 127 then 92 :: 120 :: hexText 2 c
  else if c < 127 then [c]
  else if printable.test c then [c]
  else if c < 256 then 92 :: 120 :: hexText 2 c
  else if c < 65536 then 92 :: 117 :: hexText 4 c
  else 92 :: 85 :: hexText 8 c

def reprString (s : PyStr) : PyStr :=
  let quote := if s.contains 39 && !s.contains 34 then 34 else 39
  quote :: s.flatMap (reprChar printable quote) ++ [quote]

def FloatText.str : FloatText → PyStr
  | .nan => py "nan"
  | .inf => py "inf"
  | .negInf => py "-inf"
  | .finite text => text

mutual

def pyRepr : PyJson F → PyStr
  | .null => py "None"
  | .bool true => py "True"
  | .bool false => py "False"
  | .int n => intText n
  | .float x => (fl.repr x).str
  | .str s => reprString printable s
  | .list items => 91 :: pyReprItems [] items ++ [93]
  | .dict entries => 123 :: pyReprEntries [] entries ++ [125]

def pyReprItems (before : PyStr) : List (PyJson F) → PyStr
  | [] => []
  | v :: vs => before ++ pyRepr v ++ pyReprItems (py ", ") vs

def pyReprEntries (before : PyStr) : List (PyStr × PyJson F) → PyStr
  | [] => []
  | e :: es => before ++ pyReprEntry e ++ pyReprEntries (py ", ") es

def pyReprEntry : PyStr × PyJson F → PyStr
  | (k, v) => reprString printable k ++ py ": " ++ pyRepr v

end

def pyStr : PyJson F → PyStr
  | .str s => s
  | v => pyRepr fl printable v

end TaxiService.Lib
