import TaxiService.Model.Storage

/-!
# Searching users by name

`performance_design.md` calls `GET /users?name_mask=...` the search by a part of
the name. `SubstringSearch` is that, over characters and up to `lower`, which
is PostgreSQL's and a parameter here; `LowersBy` is what is documented of it.
-/

namespace TaxiService.Spec

open TaxiService.Lib TaxiService.Model

/-- The characters of a text. Everything stored is UTF-8. -/
def characters (s : StdString) : List Nat := (decodeUtf8 s).getD []

/-- `lower` works character by character. It changes the capital letters of
ASCII and none of its other characters, and nothing becomes an ASCII character
that is not a letter. -/
structure LowersBy (lower : StdString → StdString) (f : Nat → Nat) : Prop where
  charwise : ∀ text : List Nat, Encodable text →
    lower (encodeUtf8 text) = encodeUtf8 (text.map f)
  scalar : ∀ c, isScalar c = true → isScalar (f c) = true
  ascii : ∀ c, c < 128 → f c = if 65 ≤ c ∧ c ≤ 90 then c + 32 else c
  letters : ∀ c, 128 ≤ c → f c < 128 → 97 ≤ f c ∧ f c ≤ 122

variable (lower : StdString → StdString)

/-- The mask stands somewhere in the name, ignoring case. -/
def Contains (fullName nameMask : StdString) : Prop :=
  characters (lower nameMask) <:+: characters (lower fullName)

/-- The users whose name contains the mask and no others, each once, in the
order of their ids. -/
def SubstringSearch (nameMask : StdString) (db : Db) : Prop :=
  ∃ users, findUsersByNameMask lower nameMask db = .ok users ∧
    (users.map User.id).Pairwise (· < ·) ∧
    ∀ user, user ∈ users ↔ ∃ row ∈ db.users.rows,
      parseUser row = user ∧ Contains lower row.fullName nameMask

/-- A character with a meaning in a `LIKE` pattern. -/
def LikeSpecial (c : Nat) : Prop := c = 37 ∨ c = 95 ∨ c = 92

instance (c : Nat) : Decidable (LikeSpecial c) :=
  inferInstanceAs (Decidable (_ ∨ _))

/-- UTF-8 without a zero character, `%`, `_` and `\`. -/
def PlainMask (nameMask : StdString) : Prop :=
  ∃ text, Encodable text ∧ nameMask = encodeUtf8 text ∧
    ∀ c ∈ text, c ≠ 0 ∧ ¬LikeSpecial c

end TaxiService.Spec
