import TaxiService.Model.HttpServer
import TaxiService.Spec.CacheKeys
import TaxiService.Spec.HttpServer

/-!
# Where an answer comes from

A body that is served to a read was read from storage. Either the request has
read it itself, or another one did and put it into the cache, and there it was
found for the same query, before it ran out and with no invalidation of its
family in between (`FoundIn`). And what storage shows to a read are the tables
of a moment of the run.

This is less than `NoMissedUpdate` and has no conditions. An answer may be old,
because the replica is behind or the cache kept it, but it was true once.
-/

namespace TaxiService.Spec

open TaxiService.Lib TaxiService.Model

/-- The query of a request that reads. -/
def query? (request : HttpRequest) : Option CacheKey :=
  match request.route with
  | .usersGet => cacheKey? (.usersGet request.login request.nameMask)
  | .ridesGet => cacheKey? (.ridesGet request.userId request.status)
  | _ => none

/-- How many seconds an answer stays in the cache. -/
def lifetime : CacheKey → Int
  | .active => 15
  | _ => 60

variable (lower : StdString → StdString) (json : MongoJson)

/-- The body that answers a query, if the call is the read for it. -/
def readBody? : CacheKey → (e : ServerEffect) → e.Result → Option StdString
  | .login login, .app (.getUserByLogin login'), .ok (some user) =>
      if login' = login then some (json.toString (userJson user)) else none
  | .nameMask nameMask, .app (.findUsersByNameMask nameMask'), .ok users =>
      if nameMask' = nameMask then
        some (json.toString (.array (users.map userJson)))
      else none
  | .history userId, .app (.getRidesByUserId n), rides =>
      if stoi userId = .ok n then
        some (json.toString (.array (rides.map makeRideJson)))
      else none
  | .active, .app .getActiveRides, rides =>
      some (json.toString (.array (rides.map makeRideJson)))
  | _, _, _ => none

/-- Another request has read the body and put it into the cache, and request `i`
has found it there. -/
def FoundIn (trace : List ServerCall) (i : Nat) (k : CacheKey)
    (body : StdString) : Prop :=
  ∃ before read between set since get after,
    trace = before ++ read :: between ++ set :: since ++ get :: after ∧
    readBody? json k read.effect read.answer = some body ∧
    read.thread = set.thread ∧ read.thread ≠ i ∧
    set.effect = .app (.cacheSet k.text body (lifetime k)) ∧
    (∀ x ∈ since, x.effect ≠ .app (.invalidatePrefix k.family.pre)) ∧
    get.thread = i ∧
    (⟨get.effect, get.answer⟩ : (e : ServerEffect) × e.Result) =
      ⟨.app (.cacheGet k.text), some body⟩ ∧
    get.input.clocks.get <
      set.input.clocks.set + lifetime k * ticksPerSecond

/-- Every answer to a read has its source. -/
structure Sourced (s : ServerRun) : Prop where
  shown : ∀ before x after k body, s.trace = before ++ x :: after →
    readBody? json k x.effect x.answer = some body →
    ∃ moment, moment <+: before ∧ (x.input.lag = 0 → moment = before) ∧
      storageAnswer lower json.toUserverJson (tablesOf moment) k = some body
  served : ∀ i th response k, s.threads[i]? = some th →
    th.rest.outcome? = some (.ok response) → query? th.request = some k →
    response.code = 200 →
    (xCache "MISS" ∈ response.headers ∧ ∃ read ∈ s.trace, read.thread = i ∧
      readBody? json k read.effect read.answer = some response.body) ∨
    (xCache "HIT" ∈ response.headers ∧ FoundIn json s.trace i k response.body)

end TaxiService.Spec
