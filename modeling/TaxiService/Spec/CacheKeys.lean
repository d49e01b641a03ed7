import TaxiService.Model.Serving

/-!
# What the cache is for

A cache key stands for a query, and the cache may hold one thing under it:
the body storage answers that query with. `storageAnswer` is that body, if
there is one. A cache is sound for a database when it holds nothing else
(`CacheSound`).

Keys and mutations come in families. A mutation invalidates the keys of its
own family, so it has to leave the answers of the other families alone.
-/

namespace TaxiService.Spec

open TaxiService.Lib TaxiService.Model

/-- The queries whose answers are cached. -/
inductive CacheKey where
  | login (login : StdString)
  | nameMask (nameMask : StdString)
  | history (userId : StdString)
  | active
  deriving DecidableEq, Repr

namespace CacheKey

/-- The string the cache is asked for. -/
def text : CacheKey → StdString
  | .login s => bytes "users:login:" ++ s
  | .nameMask s => bytes "users:name_mask:" ++ s
  | .history s => bytes "rides:history:" ++ s
  | .active => bytes "rides:active"

def family : CacheKey → Family
  | .login _ => .users
  | .nameMask _ => .users
  | .history _ => .rides
  | .active => .rides

end CacheKey

/-- The query a request looks up, when it gets that far. -/
def cacheKey? : Request → Option CacheKey
  | .usersGet login nameMask =>
      if login.isEmpty == nameMask.isEmpty then none
      else if login.isEmpty then some (.nameMask nameMask)
      else some (.login login)
  | .ridesGet userId status =>
      if userId.isEmpty then
        if status = bytes "active" then some .active else none
      else some (.history userId)
  | _ => none

variable (lower : StdString → StdString) (json : UserverJson)

/-- The body storage answers a query with. -/
def storageAnswer (db : Db) : CacheKey → Option StdString
  | .login login =>
      match getUserByLogin login db with
      | .ok (some user) => some (json.toString (userJson user))
      | _ => none
  | .nameMask nameMask =>
      match findUsersByNameMask lower nameMask db with
      | .ok users => some (json.toString (.array (users.map userJson)))
      | .error _ => none
  | .history userId =>
      match stoi userId with
      | .ok n =>
          some (json.toString (.array ((getRidesByUserId n db).map makeRideJson)))
      | .error _ => none
  | .active =>
      some (json.toString (.array ((getActiveRides db).map makeRideJson)))

/-- Every entry is what storage answers its query with now. -/
def CacheSound (db : Db) (cache : ResponseCache) : Prop :=
  ∀ (k : CacheKey) (e : CacheEntry), cache.entries.get? k.text = some e →
    storageAnswer lower json db k = some e.value

end TaxiService.Spec
