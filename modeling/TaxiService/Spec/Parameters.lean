import TaxiService.Spec.CreateRequests

/-!
# Integer parameters

Three requests carry an integer as text: the passenger of a ride history and
the ride in the path of the two mutations. `NumberRead` is what their callers
may expect of them: a decimal integer of 32 bits reaches storage as the number
it denotes (`IntText`), and every other text is a bad request that reaches
nothing.
-/

namespace TaxiService.Spec

open TaxiService.Lib TaxiService.Model

/-- The text is an optional sign and digits, and nothing else, and denotes the
number. -/
inductive Denotes : StdString → Int → Prop where
  | plain {ds : StdString} (hne : ds ≠ []) (hds : ∀ d ∈ ds, isDigit d = true) :
      Denotes ds (digitsValue ds)
  | plus {ds : StdString} (hne : ds ≠ []) (hds : ∀ d ∈ ds, isDigit d = true) :
      Denotes (43 :: ds) (digitsValue ds)
  | minus {ds : StdString} (hne : ds ≠ []) (hds : ∀ d ∈ ds, isDigit d = true) :
      Denotes (45 :: ds) (-digitsValue ds)

/-- The text is a decimal integer in the range of `int`. -/
def IntText (s : StdString) (n : Int) : Prop :=
  Denotes s n ∧ -2147483648 ≤ n ∧ n ≤ 2147483647

/-- The requests that carry an integer as text, without it. -/
inductive IntParameter where
  | history (status : StdString)
  | complete
  | accept (body : StdString) (driverId : Int)

def IntParameter.request (p : IntParameter) (s : StdString) : Request :=
  match p with
  | .history status => .ridesGet s status
  | .complete => .ridesComplete s
  | .accept body _ => .ridesAccept body s

/-- The storage call the request is for. -/
def IntParameter.storageCall (p : IntParameter) (n : Int) : Effect :=
  match p with
  | .history _ => .getRidesByUserId n
  | .complete => .completeRide n
  | .accept _ driverId => .acceptRide n driverId

variable (json : UserverJson) (lower : StdString → StdString)

/-- Nothing but the number stands in the way: the history is not cached, and
the body of an accept request holds a positive `driver_id`. -/
def IntParameter.Ready (p : IntParameter) (a : App) (clocks : Readings)
    (s : StdString) : Prop :=
  match p with
  | .history _ => (a.cache.get (bytes "rides:history:" ++ s) clocks.get).1 = none
  | .complete => True
  | .accept body driverId =>
      intField json body "driver_id" = .ok driverId ∧ 0 < driverId

def isStorageCall (e : Effect) : Bool := (writes e).isSome || reads e

/-- The storage calls made while the request is served. -/
def storageCalls (a : App) (arrival : Request × Readings) : List Effect :=
  ((handle json arrival.1).calls (callApp lower arrival.2) a).filter
    isStorageCall

/-- Answered 400 with a JSON error, no storage call, and the tables and what
the cache answers as before. -/
def Refused (a : App) (arrival : Request × Readings) : Prop :=
  (∃ text, ∃ response, (serve lower json a arrival).1 = .ok response ∧
    response.status = .badRequest ∧
    response.body = json.toString (errorJson text)) ∧
  storageCalls json lower a arrival = [] ∧
  (serve lower json a arrival).2.backend.db = a.backend.db ∧
  ∀ key now, arrival.2.get ≤ now →
    ((serve lower json a arrival).2.cache.get key now).1 =
      (a.cache.get key now).1

/-- A decimal integer goes to storage as the number it denotes, and any other
text is refused. -/
def NumberRead (a : App) (clocks : Readings) (p : IntParameter)
    (s : StdString) : Prop :=
  (∀ n, IntText s n →
    storageCalls json lower a (p.request s, clocks) = [p.storageCall n]) ∧
  ((∀ n, ¬IntText s n) → Refused json lower a (p.request s, clocks))

end TaxiService.Spec
