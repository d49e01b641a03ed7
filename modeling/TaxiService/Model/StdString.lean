import Mathlib.Data.List.Basic

/-!
# Byte strings and the library calls on them

`std::string` is a list of bytes, so `size()` is a length, `+` is append and
`rfind(prefix, 0) == 0` is the prefix test. The two number conversions the
service uses are here as well: `std::to_string` of an `int`, and `std::stoi`,
which skips blanks, reads the longest integer prefix and throws when there is
none or when it does not fit a 32-bit `int`.
-/

namespace TaxiService.Model

abbrev StdString := List UInt8

/-- The bytes of a string literal of the source. -/
def bytes (s : String) : StdString := s.toUTF8.data.toList

/-- `value.rfind(prefix, 0) == 0`. -/
def startsWith (value pre : StdString) : Bool := pre.isPrefixOf value

/-- `std::to_string(n)`. -/
def toDecimal (n : Int) : StdString :=
  (if n < 0 then bytes "-" else []) ++
    (Nat.toDigits 10 n.natAbs).map fun c => c.toNat.toUInt8

/-- What `std::stoi` throws. -/
inductive StoiError where
  | invalidArgument
  | outOfRange
  deriving DecidableEq, Repr

def isSpace (b : UInt8) : Bool := b == 32 || (9 ≤ b && b ≤ 13)

def isDigit (b : UInt8) : Bool := 48 ≤ b && b ≤ 57

/-- The number a run of decimal digits denotes. -/
def digitsValue (ds : StdString) : Nat :=
  ds.foldl (fun n d => 10 * n + (d.toNat - 48)) 0

/-- The optional sign in front of the digits: whether it is a minus, and what
follows it. -/
def splitSign : StdString → Bool × StdString
  | 45 :: rest => (true, rest)
  | 43 :: rest => (false, rest)
  | s => (false, s)

def inIntRange (n : Int) : Bool := -2147483648 ≤ n && n ≤ 2147483647

/-- `std::stoi(s)`. -/
def stoi (s : StdString) : Except StoiError Int :=
  let (negative, rest) := splitSign (s.dropWhile isSpace)
  let digits := rest.takeWhile isDigit
  if digits.isEmpty then .error .invalidArgument
  else
    let value : Int := digitsValue digits
    let value := if negative then -value else value
    if inIntRange value then .ok value else .error .outOfRange

example : stoi (bytes " -12abc") = .ok (-12) := by decide

end TaxiService.Model
