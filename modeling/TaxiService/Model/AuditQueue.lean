import TaxiService.Model.Consumer

/-!
# The delivery loop

`main` of `consumer.py` against the queue `taxi.audit`: one message is
delivered at a time (`prefetch_count=1`), and it is the first of the queue. An
acknowledged message is gone. One that was not is in the queue again, at its
old place, the first, or wherever else the broker puts it (`place`).
-/

namespace TaxiService.Model

open TaxiService.Lib

/-- The file of the read model, the queue and the next delivery tag. -/
structure AuditQueue where
  disk : Option (List UInt8)
  messages : List (List UInt8)
  deliveryTag : Nat
  deriving DecidableEq, Repr

variable {F : Type} (python : Python F)

/-- One delivery, handled to its end. -/
def deliverFirst (s : AuditQueue) (place : Nat) : AuditQueue :=
  match s.messages with
  | [] => s
  | body :: rest =>
      let host := ((handleMessage python s.deliveryTag body).run callHost
        ⟨s.disk, none, []⟩).2
      { disk := host.disk
        messages := if host.verdicts.contains (s.deliveryTag, .ack) then rest
          else rest.insertIdx (min place rest.length) body
        deliveryTag := s.deliveryTag + 1 }

/-- `start_consuming`, after `n` deliveries. The message that comes back from
the `i`-th one is put at `place i`. -/
def consuming (s : AuditQueue) (place : Nat → Nat) : Nat → AuditQueue
  | 0 => s
  | n + 1 => deliverFirst python (consuming s place n) (place n)

end TaxiService.Model
