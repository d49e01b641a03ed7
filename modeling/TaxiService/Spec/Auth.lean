import TaxiService.Model.Auth

/-!
# Who gets in

The gate as a property of the run so far: which tokens the calls of `Login`
returned (`Issued`), and that a request is let through for its path or for such
a token and for nothing else (`MayEnter`). What the successful calls of `Login`
handed out, and to whom, is the list `grants`.
-/

namespace TaxiService.Spec

open TaxiService.Lib TaxiService.Model

/-- A call of `Login` in this run returned the token. -/
def Issued (events : List AuthEvent) (token : StdString) : Prop :=
  ∃ before db login password after,
    events = before ++ .login db login password :: after ∧
    ((run authStep .start before).login login password db).1 = .ok (some token)

/-- The paths that need no token. -/
def Public (path : StdString) : Prop :=
  path ∈ [bytes "/ping", bytes "/users", bytes "/auth/login",
    bytes "/mongo/users"] ∨ bytes "/tests/" <+: path

/-- The request is public, or its header is `Bearer ` and an issued token. -/
def MayEnter (events : List AuthEvent) (path authHeader : StdString) : Prop :=
  Public path ∨ ∃ token, token ≠ [] ∧ Issued events token ∧
    authHeader = bytes "Bearer " ++ token

/-- The middleware calls `Next` for a request that comes after these events. -/
def Admitted (events : List AuthEvent) (path authHeader : StdString) : Prop :=
  handleRequest (run authStep .start events) path authHeader = .next

/-! ## What was handed out -/

/-- The token a call of `Login` returned, and the id of the user it looked
up. -/
def grant (s : Tokens) : AuthEvent → Option (StdString × Int)
  | .login db login password =>
      match (s.login login password db).1, getUserByLogin login db with
      | .ok (some token), .ok (some user) => some (token, user.id)
      | _, _ => none
  | .request _ _ => none

/-- The successful calls of `Login` in a run, in their order. -/
def grants (s : Tokens) : List AuthEvent → List (StdString × Int)
  | [] => []
  | e :: es => (grant s e).toList ++ grants (authStep s e) es

end TaxiService.Spec
