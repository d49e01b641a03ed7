import TaxiService.Model.Broker

/-!
# Producers, broker and consumer

Any number of producers publish while the consumer consumes, and the calls of
all of them come in any order. A request starts a producer, a call of
`publish_event`, the consumer, or one round of the consumer's loop. The library
calls back with one message at a time and not before the last callback has
returned, so at most one round has a message.

The calls of a connection's making, of the topology, of a publication and of
closing may fail. What the callback calls does not, and while it runs the
consumer's connection lasts.
-/

namespace TaxiService.Model

open TaxiService.Lib

/-! ## The surroundings -/

/-- What becomes of a call to the broker: it is answered, it does not get
there, or its answer does not come back. -/
inductive Fate where
  | answered
  | lost (error : PikaError)
  | unanswered (error : PikaError)
  deriving DecidableEq, Repr

/-- The readings of the clocks, the fate of a call to the broker, and the place
of a message that is sent back. -/
structure Surroundings where
  millis : Int
  utcNow : PyStr
  fate : Fate
  place : Nat
  deriving DecidableEq, Repr

/-- `host` is the consumer's, `callback` the message it is called back with. -/
structure Messaging (B : Type) where
  broker : B
  host : Host
  consuming : Bool
  callback : Option (Nat × List UInt8)
  deliveryTag : Nat
  deriving DecidableEq, Repr

variable {B : Type} (rabbit : Rabbit B)

def Messaging.empty : Messaging B :=
  ⟨rabbit.start, ⟨none, none, []⟩, false, none, 0⟩

def callPika (fate : Fate) (call : PikaCall) (s : Messaging B) :
    Except PikaError Unit × Messaging B :=
  match fate with
  | .answered => ((rabbit.call call s.broker).1,
      { s with broker := (rabbit.call call s.broker).2 })
  | .lost error => (.error error, s)
  | .unanswered error =>
      (.error error, { s with broker := (rabbit.call call s.broker).2 })

/-- The next message of the queue that is consumed. -/
def receiveMessage (s : Messaging B) :
    Option (Nat × List UInt8) × Messaging B :=
  match s.consuming, s.callback with
  | true, none =>
      match rabbit.deliver s.broker with
      | (none, broker) => (none, { s with broker := broker })
      | (some body, broker) =>
          (some (s.deliveryTag, body), { s with
            broker := broker
            callback := some (s.deliveryTag, body)
            deliveryTag := s.deliveryTag + 1 })
  | _, _ => (none, s)

/-- What a call of the callback does to the broker: a message that was
acknowledged is gone. -/
def settle (place : Nat) (s : Messaging B) : ConsumerEffect → Messaging B
  | .ack _ => { s with callback := none }
  | .nack _ again =>
      match s.callback with
      | some (_, body) => { s with
          broker := if again then rabbit.requeue place body s.broker
            else s.broker
          callback := none }
      | none => s
  | _ => s

def callMessaging (surroundings : Surroundings) :
    (e : MessagingEffect) → Messaging B → e.Result × Messaging B
  | .time, s => (surroundings.millis, s)
  | .utcNow, s => (surroundings.utcNow, s)
  | .sleep _, s => ((), s)
  | .print _, s => ((), s)
  | .pika call, s => callPika rabbit surroundings.fate call s
  | .startConsuming, s => ((), { s with consuming := true })
  | .receive, s => receiveMessage rabbit s
  | .host e, s => ((callHost e s.host).1,
      settle rabbit surroundings.place { s with host := (callHost e s.host).2 } e)

/-! ## The system -/

inductive MessagingRequest (F : Type) where
  | publish (eventType : PyStr) (payload : PyJson F)
  | produce (args : ProducerArgs F)
  | consumer
  | round

variable {F : Type} (python : Python F)

def messagingBody : MessagingRequest F → Messenger F Unit
  | .publish eventType payload => publishEvent python eventType payload
  | .produce args => producerMain python args
  | .consumer => consumerMain python
  | .round => consumerRound python

abbrev MessagingEvent (F : Type) := ThreadEvent (MessagingRequest F) Surroundings

abbrev MessagingRun (B F : Type) := Threads (MessagingRequest F) Surroundings
  (Messaging B) MessagingEffect MessagingEffect.Result (ServiceExc F) Unit

/-- Producers, broker and consumer after some events, from an empty broker. -/
def messaging (events : List (MessagingEvent F)) : MessagingRun B F :=
  Threads.after (messagingBody python) (callMessaging rabbit) (.empty rabbit)
    events

end TaxiService.Model
