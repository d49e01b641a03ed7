import TaxiService.Model.Interleaving

/-!
# No missed update

What a client may expect of a read that it starts after a change has been
confirmed: an answer from a database that has the change (`NoMissedUpdate`).
An answer is from a database when the handler without a cache could have given
it there (`Produces`). The rate limiter may answer instead of storage, so its
state is left open.

The cache breaks this in two places, and each is a condition on the step that
goes wrong. A read may write its answer to the cache after a change that the
answer misses has been invalidated, and nothing removes that entry then
(`SetInTime`). And between the commit of a change and its invalidation the
cache still holds the old answers of that family, while a later change of
another family may already have been confirmed (`HitInTime`).
-/

namespace TaxiService.Spec

open TaxiService.Lib TaxiService.Model

section

variable (lower : StdString → StdString) (json : UserverJson)

/-- The handler without a cache answers so on this database. -/
def Produces (db : Db) (request : Request) (outcome : Outcome) : Prop :=
  ∃ limiter clocks, Outcome.answer ((handle json request).run
    (callBackend lower clocks) ⟨db, limiter⟩).1 = outcome.answer

/-- A mutation that returned its success response. -/
def confirmed (m : Finished) : Bool :=
  !isGet m.request && match m.outcome with
    | .ok response => success response.status
    | .error _ => false

/-- Every read that started after a mutation was confirmed answers from a
database at or after the mutation's commit. -/
def NoMissedUpdate (s : Service) : Prop :=
  ∀ g ∈ s.finished, ∀ m ∈ s.finished, isGet g.request = true →
    confirmed m = true → m.returnedAt < g.startedAt →
    ∃ c n db, m.committedAt = some c ∧ c ≤ n ∧ n ≤ g.returnedAt ∧
      s.history[n]? = some db ∧ Produces lower json db g.request g.outcome

end

/-- The answer about to be cached has every change of its family that has been
invalidated. -/
def SetInTime (s : Service) (f : Flight) : Prop :=
  ∀ v ∈ f.readAt, ∀ p ∈ s.invalidations, p.1 = familyOf f.request → p.2 ≤ v

instance (s : Service) (f : Flight) : Decidable (SetInTime s f) :=
  inferInstanceAs (Decidable (∀ v ∈ f.readAt, _))

/-- No change of the read's family that is newer than the entry waits for its
invalidation while a later change had been confirmed before the read
started. -/
def HitInTime (s : Service) (f : Flight) (key : StdString) : Prop :=
  ∀ v ∈ s.entryRead.get? key, ∀ q ∈ s.inFlight, ∀ c ∈ q.2.committedAt,
    familyOf q.2.request = familyOf f.request → q.2.invalidated = false → v < c →
    ∀ m ∈ s.finished, ∀ c' ∈ m.committedAt, m.returnedAt < f.startedAt → c' < c

instance (s : Service) (f : Flight) (key : StdString) :
    Decidable (HitInTime s f key) :=
  inferInstanceAs (Decidable (∀ v ∈ s.entryRead.get? key, _))

/-- The condition on the next call of a request. -/
def CallInTime (s : Service) (clocks : Readings) (f : Flight) :
    Effect → Prop
  | .cacheSet .. => SetInTime s f
  | .cacheGet key =>
      (s.app.cache.get key clocks.get).1.isSome → HitInTime s f key
  | _ => True

instance (s : Service) (clocks : Readings) (f : Flight) :
    ∀ e, Decidable (CallInTime s clocks f e)
  | .cacheSet .. => inferInstanceAs (Decidable (SetInTime s f))
  | .cacheGet key => inferInstanceAs
      (Decidable ((s.app.cache.get key clocks.get).1.isSome → HitInTime s f key))
  | .check .. | .invalidatePrefix _ | .createUser .. | .createDriver ..
  | .createRide .. | .acceptRide .. | .completeRide _ | .getUserByLogin _
  | .findUsersByNameMask _ | .getRidesByUserId _ | .getActiveRides =>
      inferInstanceAs (Decidable True)

/-- The condition on an event. -/
def InTime (s : Service) : ServiceEvent → Prop
  | .start .. => True
  | .step id clocks => ∀ f ∈ s.inFlight.get? id,
      match f.rest with
      | .op e _ => CallInTime s clocks f e
      | _ => True

instance (s : Service) : ∀ event, Decidable (InTime s event)
  | .start .. => inferInstanceAs (Decidable True)
  | .step id clocks =>
      have : ∀ f : Flight, Decidable (match f.rest with
          | .op e _ => CallInTime s clocks f e
          | _ => True) := fun f =>
        match f.rest with
        | .op e _ => inferInstanceAs (Decidable (CallInTime s clocks f e))
        | .pure _ => inferInstanceAs (Decidable True)
        | .throw _ => inferInstanceAs (Decidable True)
      inferInstanceAs (Decidable (∀ f ∈ s.inFlight.get? id, _))

end TaxiService.Spec
