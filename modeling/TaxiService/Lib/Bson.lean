import TaxiService.Lib.Assoc
import TaxiService.Lib.RegexPattern
import TaxiService.Lib.Utf8

/-!
# Documents and their schemas

The values of a document store, and the part of `$jsonSchema` that says what
the values of a collection look like: the type of a value, the members that an
object must have and may have, and for a string its length in characters, a
pattern and a list of alternatives.

A string is UTF-8 by the specification of the format, so bytes that do not
decode are no string that a schema could accept.
-/

namespace TaxiService.Lib

inductive Bson where
  | str (s : List UInt8)
  | date (t : Int)
  | objectId (id : Nat)
  | array (items : List Bson)
  | doc (members : List (List UInt8 × Bson))

inductive BsonType where
  | string
  | date
  | objectId
  | array
  | object
  deriving DecidableEq, Repr

def Bson.type : Bson → BsonType
  | .str _ => .string
  | .date _ => .date
  | .objectId _ => .objectId
  | .array _ => .array
  | .doc _ => .object

/-- What is asked of a value that is no object. -/
structure FieldSchema where
  bsonType : Option BsonType := none
  minLength : Nat := 0
  maxLength : Option Nat := none
  pattern : List Nat := []
  enum : Option (List (List UInt8)) := none

namespace FieldSchema

/-- The part of a schema that speaks of strings. -/
def acceptsText (schema : FieldSchema) (text : List Nat) : Bool :=
  schema.minLength ≤ text.length &&
    schema.maxLength.all (fun n => text.length ≤ n) &&
    match Pattern.parse schema.pattern with
    | .ok r => r.found .exact text
    | .error _ => false

def accepts (schema : FieldSchema) (value : Bson) : Bool :=
  schema.bsonType.all (fun t => value.type = t) &&
    match value with
    | .str s =>
        schema.enum.all (fun alternatives => alternatives.contains s) &&
          (decodeUtf8 s).any schema.acceptsText
    | _ => schema.enum.isNone

end FieldSchema

inductive BsonSchema where
  | field (schema : FieldSchema)
  | object (required : List (List UInt8)) (additionalProperties : Bool)
      (properties : List (List UInt8 × BsonSchema))

mutual

def BsonSchema.accepts : BsonSchema → Bson → Bool
  | .field schema, value => schema.accepts value
  | .object required additionalProperties properties, .doc members =>
      required.all (fun name => (Assoc.get? members name).isSome) &&
        (additionalProperties || members.all fun m =>
          (properties.map Prod.fst).contains m.1) &&
        acceptsMembers properties members
  | .object .., _ => false

/-- Every member that has a schema meets it. -/
def BsonSchema.acceptsMembers :
    List (List UInt8 × BsonSchema) → List (List UInt8 × Bson) → Bool
  | [], _ => true
  | (name, schema) :: properties, members =>
      (match Assoc.get? members name with
        | some value => schema.accepts value
        | none => true) && acceptsMembers properties members

end

/-- The pattern that is not given asks for nothing. -/
theorem acceptsText_of_no_pattern (schema : FieldSchema)
    (h : schema.pattern = []) (text : List Nat) :
    schema.acceptsText text = true ↔ schema.minLength ≤ text.length ∧
      ∀ n ∈ schema.maxLength, text.length ≤ n := by
  have hempty : Pattern.parse [] = .ok .empty := rfl
  have hfound : Regex.found .exact .empty text = true :=
    Regex.found_iff.mpr ⟨[], [], text, rfl, rfl⟩
  rw [FieldSchema.acceptsText, h, hempty]
  simp only [hfound, Bool.and_true, Bool.and_eq_true, decide_eq_true_eq,
    Option.all_eq_true, Option.mem_def]

theorem acceptsText_of_pattern (schema : FieldSchema) {r : Regex}
    (h : Pattern.parse schema.pattern = .ok r) (text : List Nat) :
    schema.acceptsText text = true ↔ (schema.minLength ≤ text.length ∧
      ∀ n ∈ schema.maxLength, text.length ≤ n) ∧ r.FoundIn .exact text := by
  rw [FieldSchema.acceptsText, h]
  simp only [Bool.and_eq_true, decide_eq_true_eq, Option.all_eq_true,
    Option.mem_def, Regex.found_iff]

end TaxiService.Lib
