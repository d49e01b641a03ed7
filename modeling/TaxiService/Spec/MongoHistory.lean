import TaxiService.Lib.Run
import TaxiService.Spec.MongoSchema
import TaxiService.Spec.MongoUsers

/-!
# What a created user looks like later

Requests to `/mongo/users` that are handled one at a time, on a collection that
is empty at first and refuses no document. `RoundTrip` is what a client can
rely on: the body of a 201 is the body of every later look-up of that login,
the login stays taken, and a login that nobody has created is not found.
-/

namespace TaxiService.Spec

open TaxiService.Lib TaxiService.Model
open TaxiService.Model.Documents (Arrival CollectionServer serveMongo)

variable (json : MongoJson) (regex : StdString → Option (StdString → Bool))

/-- A server on which inserts succeed. -/
def openServer : CollectionServer := ⟨fun _ => true, regex⟩

/-- The collection after some requests, from the first one on. -/
def collectionAfter (before : List Arrival) : List Bson :=
  run (fun docs a => (serveMongo json (openServer regex) docs a).2) [] before

/-- What the next request is answered, and the collection after it. -/
def nextAnswer (before : List Arrival) (a : Arrival) :
    MongoResponse × List Bson :=
  serveMongo json (openServer regex) (collectionAfter json regex before) a

/-- The request asks for the login and is answered 201 with the body. -/
def Creates (before : List Arrival) (a : Arrival) (login body : StdString) :
    Prop :=
  requestLogin json a.request = some login ∧
    (nextAnswer json regex before a).1.status = .created ∧
    (nextAnswer json regex before a).1.body = body

structure RoundTrip : Prop where
  shown : ∀ before a login body, Creates json regex before a login body →
    ∀ between now choice,
      (nextAnswer json regex (before ++ a :: between)
        ⟨.get login [], now, choice⟩).1 = ⟨.ok, [contentType], body⟩
  taken : ∀ before a login body, Creates json regex before a login body →
    ∀ between requestBody fields now choice,
      Passes json requestBody fields → fields.login = login →
      nextAnswer json regex (before ++ a :: between)
          ⟨.create requestBody, now, choice⟩ =
        (mongoError .conflict "mongo user already exists",
          collectionAfter json regex (before ++ a :: between))
  missing : ∀ before login, login ≠ [] →
    (∀ earlier a later body, before = earlier ++ a :: later →
      ¬Creates json regex earlier a login body) →
    ∀ now choice,
      (nextAnswer json regex before ⟨.get login [], now, choice⟩).1 =
        mongoError .notFound "mongo user not found"

end TaxiService.Spec
