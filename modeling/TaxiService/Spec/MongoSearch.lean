import TaxiService.Model.MongoDocuments

/-!
# Searching MongoDB users by name

`openapi.yaml` calls `name_mask` of `GET /mongo/users` a case-insensitive
substring search in `first_name` or `last_name`. `NameSearch` is that, for every
collection of documents that `MakeUserJson` can read (`UserDocument`). The
server hands the mask to its regular expressions, which are not in the
repository; `SearchesWith` is what is documented of them, and it speaks of the
patterns that `Pattern.parse` reads.
-/

namespace TaxiService.Spec

open TaxiService.Lib TaxiService.Model
open TaxiService.Model.Documents (CollectionServer makeUserJson member?
  serveMongo)

/-- `$regex` with the option `i`: it searches for the pattern, refuses what is
ill-formed, no text or too long, and takes every plain pattern that is not. -/
structure SearchesWith (server : CollectionServer) (rule : CaseRule)
    (maxSize : Nat) : Prop where
  ascii : Pattern.OnAscii rule
  searches : ∀ (pattern : List Nat) r test, Encodable pattern →
    Pattern.parse pattern = .ok r →
    server.regex (encodeUtf8 pattern) = some test →
    ∀ text : List Nat, Encodable text → test (encodeUtf8 text) = r.found rule text
  illFormed : ∀ pattern : List Nat, Encodable pattern →
    Pattern.parse pattern = .error .illFormed →
    server.regex (encodeUtf8 pattern) = none
  noText : ∀ mask : StdString, (∀ pattern : List Nat, Encodable pattern →
      mask = encodeUtf8 pattern → 0 ∈ pattern) →
    server.regex mask = none
  tooLong : ∀ mask : StdString, maxSize < mask.length → server.regex mask = none
  plain : ∀ pattern : List Nat, Encodable pattern → Pattern.IsPlain pattern →
    0 ∉ pattern → (encodeUtf8 pattern).length ≤ maxSize →
    (server.regex (encodeUtf8 pattern)).isSome = true

/-- If there is such a member, it is a string. -/
def TextMember (members : List (StdString × Bson)) (name : String) : Prop :=
  ∀ value, Assoc.get? members (bytes name) = some value →
    ∃ text : List Nat, Encodable text ∧ value = .str (encodeUtf8 text)

/-- A document that `MakeUserJson` can read. -/
def UserDocument (doc : Bson) : Prop :=
  ∃ members, doc = .doc members ∧
    (∀ name ∈ ["login", "first_name", "last_name", "status"],
      TextMember members name) ∧
    ∀ value, Assoc.get? members (bytes "profile") = some value →
      ∃ inner, value = .doc inner ∧ TextMember inner "email" ∧
        TextMember inner "phone"

/-- The mask stands somewhere in the first or the last name. -/
def NameContains (rule : CaseRule) (nameMask : StdString) (doc : Bson) : Prop :=
  ∃ word : List Nat, Encodable word ∧ nameMask = encodeUtf8 word ∧
    ∃ name ∈ ["first_name", "last_name"], ∃ text : List Nat, Encodable text ∧
      member? doc name = .ok (some (.str (encodeUtf8 text))) ∧
      Pattern.ContainsWord rule word text

open Classical in
/-- The documents whose names contain the mask. -/
noncomputable def namedLike (rule : CaseRule) (nameMask : StdString)
    (docs : List Bson) : List Bson :=
  docs.filter fun doc => NameContains rule nameMask doc

variable (json : MongoJson)

/-- The request is answered 200 with the documents whose names contain the
mask, each once, in every collection of documents that `MakeUserJson` can
read. -/
def NameSearch (server : CollectionServer) (rule : CaseRule)
    (nameMask : StdString) : Prop :=
  ∀ docs, (∀ doc ∈ docs, UserDocument doc) → ∀ now choice, ∃ items,
    (namedLike rule nameMask docs).mapM makeUserJson = .ok items ∧
    (serveMongo json server docs ⟨.get [] nameMask, now, choice⟩).1 =
      ⟨.ok, [contentType], json.toString (.array items)⟩

/-- UTF-8 without a zero character, not too long, and with nothing in it that
means anything in a pattern. -/
def LiteralMask (maxSize : Nat) (nameMask : StdString) : Prop :=
  nameMask.length ≤ maxSize ∧ ∃ word : List Nat, Encodable word ∧
    nameMask = encodeUtf8 word ∧ 0 ∉ word ∧ Pattern.IsPlain word

/-- A mask that `Pattern.parse` can tell the meaning of. With a quantifier in
braces, it does not find itself or can do with less than its own length. -/
def ReadableMask (rule : CaseRule) (nameMask : StdString) : Prop :=
  ∀ word : List Nat, Encodable word → nameMask = encodeUtf8 word →
    Pattern.parse word ≠ .error .unsupported ∧
    ∀ r, Pattern.parse word = .ok r → Pattern.hasCount word = true →
      r.found rule word = true → r.width < word.length

/-- An array with something in it is not printed like the empty one. -/
def TellsEmpty : Prop :=
  ∀ item, json.toString (.array [item]) ≠ json.toString (.array [])

end TaxiService.Spec
