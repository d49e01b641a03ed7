import TaxiService.Lib.Run
import TaxiService.Model.Serving

/-!
# Requests in any order of steps

Requests that are handled at the same time, each as the rest of its program.
An event starts a request or executes one call of one request; a request whose
program has finished returns by one more event. Whatever the calls are, they
are atomic and come in any order.

The service also writes down what happened, for the results to speak about.
Time is the number of events so far (`moment`), and `history` has the database
at each moment. A request carries the moments it started, last read storage
and changed storage at. `entryRead` has the moment the answer under a cache key
was read from storage, and `invalidations` the changes that have been followed
by their `InvalidatePrefix`.
-/

namespace TaxiService.Model

open TaxiService.Lib

/-- A request that is being handled. -/
structure Flight where
  request : Request
  startedAt : Nat
  readAt : Option Nat
  committedAt : Option Nat
  invalidated : Bool
  rest : Handler Response

/-- A request that has returned. -/
structure Finished where
  request : Request
  startedAt : Nat
  committedAt : Option Nat
  returnedAt : Nat
  outcome : Outcome

structure Service where
  app : App
  inFlight : Assoc Nat Flight
  finished : List Finished
  history : List Db
  entryRead : Assoc StdString Nat
  invalidations : List (Family × Nat)

namespace Service

/-- No request yet, on a database and with an empty cache. -/
def start (b : Backend) : Service :=
  ⟨⟨b, .empty⟩, [], [], [b.db], [], []⟩

def moment (s : Service) : Nat := s.history.length

/-- A request comes in. -/
def arrive (s : Service) (id : Nat) (request : Request)
    (handler : Handler Response) : Service :=
  { s with
    inFlight := s.inFlight.set id
      ⟨request, s.moment, none, none, false, handler⟩
    history := s.history ++ [s.app.backend.db] }

/-- The request returns. -/
def finish (s : Service) (id : Nat) (f : Flight) (outcome : Outcome) : Service :=
  { s with
    inFlight := s.inFlight.erase id
    finished := ⟨f.request, f.startedAt, f.committedAt, s.moment, outcome⟩ ::
      s.finished
    history := s.history ++ [s.app.backend.db] }

/-- What a call adds to the record of its request. -/
def record (s : Service) (f : Flight) (e : Effect) (r : e.Result) : Flight :=
  { f with
    readAt := if reads e then some s.moment else f.readAt
    committedAt := if commits e r then some s.moment else f.committedAt
    invalidated := match e with
      | .invalidatePrefix _ => true
      | _ => f.invalidated }

/-- One call of the request. -/
def call (s : Service) (id : Nat) (f : Flight) (e : Effect) (r : e.Result)
    (app : App) (rest : Handler Response) : Service :=
  { s with
    app := app
    inFlight := s.inFlight.set id { s.record f e r with rest }
    history := s.history ++ [app.backend.db]
    entryRead := match e, f.readAt with
      | .cacheSet key _ _, some v => s.entryRead.set key v
      | _, _ => s.entryRead
    invalidations := match e, f.committedAt with
      | .invalidatePrefix _, some c =>
          (familyOf f.request, c) :: s.invalidations
      | _, _ => s.invalidations }

end Service

/-- A request comes in under a number that is free, or the request of a number
makes its next step. -/
inductive ServiceEvent where
  | start (id : Nat) (request : Request)
  | step (id : Nat) (clocks : Readings)
  deriving DecidableEq, Repr

variable (lower : StdString → StdString) (json : UserverJson)

def serviceStep (s : Service) : ServiceEvent → Service
  | .start id request =>
      match s.inFlight.get? id with
      | some _ => s
      | none => s.arrive id request (handle json request)
  | .step id clocks =>
      match s.inFlight.get? id with
      | none => s
      | some f =>
          match f.rest with
          | .pure response => s.finish id f (.ok response)
          | .throw x => s.finish id f (.error x)
          | .op e k =>
              let (r, app) := callApp lower clocks e s.app
              s.call id f e r app (k r)

/-- The service after a list of events. -/
def service (b : Backend) (events : List ServiceEvent) : Service :=
  run (serviceStep lower json) (.start b) events

end TaxiService.Model
