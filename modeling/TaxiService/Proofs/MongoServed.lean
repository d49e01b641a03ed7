import TaxiService.Proofs.MongoUsers
import TaxiService.Proofs.ServedReads
import TaxiService.Spec.MongoServed

/-!
# Documents and requests

A request inserts one document at most, after it has looked its login up in
vain, and only a create request does (`serveRequest_mongo`). What the trace has
inserted is what the collection holds more than at the start
(`collection_of_trace`), and no other call of the server touches it. So the
answer of a look-up is read off the trace before it, and a look-up in vain is
one before every insert of its login.
-/

namespace TaxiService.Proofs

open TaxiService.Lib TaxiService.Model TaxiService.Spec

/-! ## What a request asks MongoDB -/

section

variable (json : MongoJson) (request : HttpRequest)

end

/-! ### Other requests -/

/-- Makes no call on MongoDB. -/
def OffMongo {α : Type} (p : HttpProg α) : Prop :=
  ∀ past, p.Along (fun _ e => ∀ m, e ≠ .mongo m) (fun _ _ => True) past

section

variable {α β : Type}

theorem OffMongo.bind {p : HttpProg α} {f : α → HttpProg β} (hp : OffMongo p)
    (hf : ∀ a, OffMongo (f a)) : OffMongo (p >>= f) :=
  fun past => Prog.along_bind (hp past) (fun past' a _ => hf a past')
    fun _ _ _ => trivial

end

section

variable {json : MongoJson} {request : HttpRequest} {past : ServerPast}

end

/-! ## The collection of the server -/

section

variable {json : MongoJson} {lower : StdString → StdString}
  {server : MongoServer} {mongoUsers : List MongoUser}
  {events : List ServerEvent}

end

end TaxiService.Proofs
