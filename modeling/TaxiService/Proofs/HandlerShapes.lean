import TaxiService.Proofs.StorageSpec
import TaxiService.Spec.CacheKeys

/-!
# The shapes of the handlers

Seven handlers, two shapes. A read refuses its request or looks its query up,
and on a miss asks storage and writes the answer to the cache (`GetShape`). A
mutation refuses its request or makes one storage call, and invalidates the
prefix of its family when that call changed something (`MutationShape`).

The results about the cache are proved of the shapes. The handlers themselves
come in by two lemmas only, `handle_get` and `handle_mutation`, which unfold
them.
-/

namespace TaxiService.Proofs

open TaxiService.Lib TaxiService.Model TaxiService.Spec

variable (json : UserverJson)

/-! ## Reads -/

/-- The answer that is cached before it is returned. -/
def store (headers : List (StdString × StdString)) (k : CacheKey)
    (body : StdString) (ttl : Int) : Handler Response :=
  .op (.cacheSet k.text body ttl) fun _ =>
    .pure ⟨.ok, headers ++ [xCache "MISS"], body⟩

/-- What a read does after a miss. -/
def missPath (headers : List (StdString × StdString)) :
    CacheKey → Handler Response
  | .login login => .op (.getUserByLogin login) fun r =>
      match r with
      | .error e => .throw (.pg e)
      | .ok none => .pure ⟨.notFound, headers ++ [xCache "MISS"],
          json.toString (errorJson "user not found")⟩
      | .ok (some user) =>
          store headers (.login login) (json.toString (userJson user)) 60
  | .nameMask nameMask => .op (.findUsersByNameMask nameMask) fun r =>
      match r with
      | .error e => .throw (.pg e)
      | .ok users => store headers (.nameMask nameMask)
          (json.toString (.array (users.map userJson))) 60
  | .history userId =>
      match stoi userId with
      | .error e => .throw (.stoi e)
      | .ok n => .op (.getRidesByUserId n) fun rides =>
          store headers (.history userId)
            (json.toString (.array (rides.map makeRideJson))) 60
  | .active => .op .getActiveRides fun rides =>
      store headers .active
        (json.toString (.array (rides.map makeRideJson))) 15

/-- What a read does with the answer of the cache. -/
def afterGet (headers : List (StdString × StdString)) (k : CacheKey) :
    Option StdString → Handler Response
  | some body => .pure ⟨.ok, headers ++ [xCache "HIT"], body⟩
  | none => missPath json headers k

def lookup (headers : List (StdString × StdString)) (k : CacheKey) :
    Handler Response := .op (.cacheGet k.text) (afterGet json headers k)

inductive GetShape : Option CacheKey → Handler Response → Prop where
  | refused (response : Response) (h : response.status ≠ .ok) :
      GetShape none (.pure response)
  | lookup (headers : List (StdString × StdString)) (k : CacheKey) :
      GetShape (some k) (lookup json headers k)
  | limited (k : CacheKey) (key : StdString) (limit window : Int)
      (rest : RateLimitResult → Handler Response)
      (h : ∀ r, (∃ response : Response, response.status ≠ .ok ∧
          rest r = .pure response) ∨
        ∃ headers, rest r = Proofs.lookup json headers k) :
      GetShape (some k) (.op (.check key limit window) rest)

theorem usersGet_login (c : UInt8) (cs : StdString) :
    usersGet json (c :: cs) [] =
      lookup json [contentType] (.login (c :: cs)) := by
  refine congrArg (Prog.op _) (funext fun cached => ?_)
  cases cached with
  | some body => rfl
  | none =>
      refine congrArg (Prog.op _) (funext fun r => ?_)
      rcases r with e | (_ | user) <;> rfl

theorem usersGet_nameMask (c : UInt8) (cs : StdString) :
    usersGet json [] (c :: cs) =
      lookup json [contentType] (.nameMask (c :: cs)) := by
  refine congrArg (Prog.op _) (funext fun cached => ?_)
  cases cached with
  | some body => rfl
  | none =>
      refine congrArg (Prog.op _) (funext fun r => ?_)
      cases r with
      | error e => rfl
      | ok users => rfl

theorem ridesLookup_history (c : UInt8) (cs : StdString)
    (headers : List (StdString × StdString)) :
    ridesLookup json true (c :: cs) headers =
      lookup json headers (.history (c :: cs)) := by
  refine congrArg (Prog.op _) (funext fun cached => ?_)
  cases cached with
  | some body => rfl
  | none =>
      show (orStoi (stoi (c :: cs)) >>= _) =
        missPath json headers (.history (c :: cs))
      rw [missPath]
      cases stoi (c :: cs) with
      | error e => rfl
      | ok n => rfl

theorem ridesLookup_active (userId : StdString)
    (headers : List (StdString × StdString)) :
    ridesLookup json false userId headers = lookup json headers .active := by
  refine congrArg (Prog.op _) (funext fun cached => ?_)
  cases cached with
  | some body => rfl
  | none => rfl

/-- The handlers of the two GET routes. -/
theorem handle_get {request : Request} (h : isGet request = true) :
    GetShape json (cacheKey? request) (handle json request) := by
  cases request with
  | usersGet login nameMask =>
      cases login with
      | nil =>
          cases nameMask with
          | nil => exact .refused _ nofun
          | cons c cs =>
              show GetShape json (some (.nameMask (c :: cs)))
                (usersGet json [] (c :: cs))
              rw [usersGet_nameMask]
              exact .lookup _ _
      | cons c cs =>
          cases nameMask with
          | nil =>
              show GetShape json (some (.login (c :: cs)))
                (usersGet json (c :: cs) [])
              rw [usersGet_login]
              exact .lookup _ _
          | cons d ds => exact .refused _ nofun
  | ridesGet userId status =>
      cases userId with
      | nil =>
          by_cases hs : status = bytes "active"
          · subst hs
            refine .limited .active _ _ _ _ fun r => ?_
            obtain ⟨allowed, limit, remaining, reset⟩ := r
            cases allowed with
            | false => exact .inl ⟨_, by nofun, rfl⟩
            | true => exact .inr ⟨_, ridesLookup_active json _ _⟩
          · have hb : (status == bytes "active") = false := by simp [hs]
            simp only [cacheKey?, List.isEmpty_nil, if_true, if_neg hs, handle,
              ridesGet, hb]
            exact .refused _ nofun
      | cons c cs =>
          show GetShape json (some (.history (c :: cs)))
            (ridesLookup json true (c :: cs) [contentType])
          rw [ridesLookup_history]
          exact .lookup _ _
  | _ => cases h

/-! ## Mutations -/

/-- What a mutation does once storage has answered. -/
inductive AfterWrite (family : Family) : Bool → Handler Response → Prop where
  | done (response : Response) (h : success response.status = true) :
      AfterWrite family true
        (.op (.invalidatePrefix family.pre) fun _ => .pure response)
  | refused (response : Response) (h : success response.status = false) :
      AfterWrite family false (.pure response)
  | threw (x : Exn) : AfterWrite family false (.throw x)

inductive MutationShape (family : Family) : Handler Response → Prop where
  | refused (response : Response) (h : success response.status = false) :
      MutationShape family (.pure response)
  | threw (x : Exn) : MutationShape family (.throw x)
  | write (e : Effect) (h : writes e = some family)
      (rest : e.Result → Handler Response)
      (hrest : ∀ r, AfterWrite family (commits e r) (rest r)) :
      MutationShape family (.op e rest)

section

variable {json} {family : Family} {α : Type} {f : α → Handler Response}

theorem MutationShape.orJson {x : Except StdString α}
    (h : ∀ a, MutationShape family (f a)) :
    MutationShape family (orJson x >>= f) := by
  cases x with
  | error what => exact .threw _
  | ok a => exact h a

theorem MutationShape.getString {value : json.Value} {name : String}
    {f : StdString → Handler Response} (h : ∀ s, MutationShape family (f s)) :
    MutationShape family (getString json value name >>= f) := by
  rw [Model.getString]
  cases json.member value (bytes name) with
  | error what => exact .threw _
  | ok v => exact .orJson h

theorem MutationShape.getInt {value : json.Value} {name : String}
    {f : Int → Handler Response} (h : ∀ n, MutationShape family (f n)) :
    MutationShape family (getInt json value name >>= f) := by
  rw [Model.getInt]
  cases json.member value (bytes name) with
  | error what => exact .threw _
  | ok v => exact .orJson h

theorem MutationShape.orStoi {x : Except StoiError Int}
    {f : Int → Handler Response} (h : ∀ n, MutationShape family (f n)) :
    MutationShape family (orStoi x >>= f) := by
  cases x with
  | error e => exact .threw _
  | ok n => exact h n

theorem MutationShape.ite {c : Prop} [Decidable c] {p q : Handler Response}
    (hp : MutationShape family p) (hq : MutationShape family q) :
    MutationShape family (if c then p else q) := by
  split
  · exact hp
  · exact hq

end

theorem usersCreate_shape (body : StdString) :
    MutationShape .users (usersCreate json body) := by
  refine .orJson fun value => .getString fun login => .getString fun password =>
    .getString fun fullName => .ite (.refused _ rfl) (.write _ rfl _ fun r => ?_)
  rcases r with e | (_ | user)
  · exact .threw _
  · exact .refused _ rfl
  · exact .done _ rfl

theorem driversCreate_shape (body : StdString) :
    MutationShape .drivers (driversCreate json body) := by
  refine .orJson fun value => .getInt fun userId => .getString fun carModel =>
    .getString fun carNumber => .getString fun licenseNumber =>
    .ite (.refused _ rfl) (.write _ rfl _ fun r => ?_)
  rcases r with e | (_ | driver)
  · exact .threw _
  · exact .refused _ rfl
  · exact .done _ rfl

theorem ridesCreate_shape (body : StdString) :
    MutationShape .rides (ridesCreate json body) := by
  refine .orJson fun value => .getInt fun passengerId => .getString fun pickup =>
    .getString fun destination => .ite (.refused _ rfl)
    (.write _ rfl _ fun r => ?_)
  rcases r with e | (_ | ride)
  · exact .threw _
  · exact .refused _ rfl
  · exact .done _ rfl

theorem ridesAccept_shape (body id : StdString) :
    MutationShape .rides (ridesAccept json body id) := by
  refine .orJson fun value => .getInt fun driverId => .ite (.refused _ rfl)
    (.orStoi fun rideId => .ite (.refused _ rfl) (.write _ rfl _ fun r => ?_))
  cases r with
  | none => exact .refused _ rfl
  | some ride => exact .done _ rfl

theorem ridesComplete_shape (id : StdString) :
    MutationShape .rides (ridesComplete json id) := by
  refine .ite (.refused _ rfl) (.orStoi fun rideId =>
    .write _ rfl _ fun r => ?_)
  cases r with
  | none => exact .refused _ rfl
  | some ride => exact .done _ rfl

/-- The handlers of the five other routes. -/
theorem handle_mutation {request : Request} (h : isGet request = false) :
    MutationShape (familyOf request) (handle json request) := by
  cases request with
  | usersCreate body => exact usersCreate_shape json body
  | driversCreate body => exact driversCreate_shape json body
  | ridesCreate body => exact ridesCreate_shape json body
  | ridesAccept body id => exact ridesAccept_shape json body id
  | ridesComplete id => exact ridesComplete_shape json id
  | _ => cases h

end TaxiService.Proofs
