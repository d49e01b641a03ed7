import TaxiService.Model.Deployment
import TaxiService.Model.Messaging

/-!
# What producers and consumer promise

Every process keeps to a script, whatever the broker answers: `Calls` says
which call comes after the calls a request has made, and `Ends` how it may end.
A connection is tried twenty times at most. The topology is declared to its
end, and only then is anything published or consumed. A round of the consumer
settles the message it got exactly once, with its last call.

What this gives to the messages is said from the trace: `publishedTo` are those
that arrived for a queue, and `Conserved` that none of them is lost and none is
there twice.
-/

namespace TaxiService.Spec

open TaxiService.Lib TaxiService.Model

variable {F : Type}

abbrev MessagingPast := Past MessagingEffect MessagingEffect.Result

abbrev MessagingTrace :=
  List (Traced Surroundings MessagingEffect MessagingEffect.Result)

/-! ## The script of a process -/

/-- The calls of `declare_topology`. -/
def topologyCalls : List PikaCall :=
  .exchangeDeclare exchangeName exchangeType true ::
    queues.flatMap fun q =>
      .queueDeclare q.1 true :: q.2.map (.queueBind exchangeName q.1)

/-- Calls that went through. -/
def answered (calls : List PikaCall) : MessagingPast :=
  calls.map fun call => ⟨.pika call, .ok ()⟩

/-- Attempts that did not, each with the pause after it. -/
def refused (errors : List PyStr) : MessagingPast :=
  errors.flatMap fun text =>
    [⟨.pika .blockingConnection, .error (.amqpConnection text)⟩,
      ⟨.sleep 2, ()⟩]

/-- A process that connects and then makes these calls. -/
inductive Connecting (start : MessagingPast) (calls : List PikaCall) :
    MessagingPast → MessagingEffect → Prop where
  | connect {errors : List PyStr} (h : errors.length < 20) :
      Connecting start calls (start ++ refused errors)
        (.pika .blockingConnection)
  | sleep {errors : List PyStr} (text : PyStr) (h : errors.length < 20) :
      Connecting start calls (start ++ refused errors ++
        [⟨.pika .blockingConnection, .error (.amqpConnection text)⟩]) (.sleep 2)
  | call {errors : List PyStr} {before : List PikaCall} {call : PikaCall}
      (h : errors.length < 20) (hcall : before ++ [call] <+: calls) :
      Connecting start calls (start ++ refused errors ++
        answered (.blockingConnection :: before)) (.pika call)

/-- How that can fail. -/
inductive ConnectFails (start : MessagingPast) (calls : List PikaCall) :
    MessagingPast → ServiceExc F → Prop where
  | unavailable {errors : List PyStr} (h : errors.length = 20) :
      ConnectFails start calls (start ++ refused errors)
        (.runtimeError (py "RabbitMQ is not available: " ++
          errors.getLastD (py "None")))
  | refused {errors : List PyStr} (text : PyStr) (h : errors.length < 20) :
      ConnectFails start calls (start ++ refused errors ++
        [⟨.pika .blockingConnection, .error (.other text)⟩])
        (.pika (.other text))
  | call {errors : List PyStr} {before : List PikaCall} {call : PikaCall}
      (error : PikaError) (h : errors.length < 20)
      (hcall : before ++ [call] <+: calls) :
      ConnectFails start calls (start ++ refused errors ++
        answered (.blockingConnection :: before) ++
        [⟨.pika call, .error error⟩]) (.pika error)

/-! ## `publish_event` -/

def clocks (millis : Int) (utcNow : PyStr) : MessagingPast :=
  [⟨.time, millis⟩, ⟨.utcNow, utcNow⟩]

/-- What `publish_event` has done when it comes to publishing. -/
def prepared (millis : Int) (utcNow : PyStr) (errors : List PyStr) :
    MessagingPast :=
  clocks millis utcNow ++ refused errors ++
    answered (.blockingConnection :: .channel :: topologyCalls)

variable (python : Python F)

/-- The text of an event, if it is within the limits. -/
def eventText (eventType : PyStr) (payload : PyJson F) (millis : Int)
    (utcNow : PyStr) : Except (PyExc F) PyStr :=
  Py.jsonDumps python python.limits.publish
    (.dict (makeEvent eventType payload millis utcNow))

/-- The call that publishes it, and the line that says so. -/
def publication (eventType text : PyStr) : MessagingEffect :=
  .pika (.basicPublish exchangeName eventType (encodeUtf8 text) eventProperties)

def publishedLine (eventType text : PyStr) : MessagingEffect :=
  .print (py "published " ++ eventType ++ py ": " ++ text)

inductive PublishCall (eventType : PyStr) (payload : PyJson F) :
    MessagingPast → MessagingEffect → Prop where
  | time : PublishCall eventType payload [] .time
  | utcNow (millis : Int) :
      PublishCall eventType payload [⟨.time, millis⟩] .utcNow
  | connecting {millis : Int} {utcNow : PyStr} {past : MessagingPast}
      {e : MessagingEffect}
      (h : Connecting (clocks millis utcNow) (.channel :: topologyCalls)
        past e) : PublishCall eventType payload past e
  | publish {millis : Int} {utcNow text : PyStr} {errors : List PyStr}
      (h : errors.length < 20)
      (htext : eventText python eventType payload millis utcNow = .ok text)
      (he : Encodable text) :
      PublishCall eventType payload (prepared millis utcNow errors)
        (publication eventType text)
  | print {millis : Int} {utcNow text : PyStr} {errors : List PyStr}
      (h : errors.length < 20)
      (htext : eventText python eventType payload millis utcNow = .ok text) :
      PublishCall eventType payload (prepared millis utcNow errors ++
        [⟨publication eventType text, .ok ()⟩]) (publishedLine eventType text)
  | close {millis : Int} {utcNow text : PyStr} {errors : List PyStr}
      (h : errors.length < 20)
      (htext : eventText python eventType payload millis utcNow = .ok text) :
      PublishCall eventType payload (prepared millis utcNow errors ++
        [⟨publication eventType text, .ok ()⟩,
          ⟨publishedLine eventType text, ()⟩]) (.pika .close)

inductive PublishEnds (eventType : PyStr) (payload : PyJson F) :
    MessagingPast → Except (ServiceExc F) Unit → Prop where
  | published {millis : Int} {utcNow text : PyStr} {errors : List PyStr}
      (h : errors.length < 20)
      (htext : eventText python eventType payload millis utcNow = .ok text) :
      PublishEnds eventType payload (prepared millis utcNow errors ++
        [⟨publication eventType text, .ok ()⟩,
          ⟨publishedLine eventType text, ()⟩, ⟨.pika .close, .ok ()⟩]) (.ok ())
  | connecting {millis : Int} {utcNow : PyStr} {past : MessagingPast}
      {x : ServiceExc F}
      (h : ConnectFails (clocks millis utcNow) (.channel :: topologyCalls)
        past x) : PublishEnds eventType payload past (.error x)
  | pastLimits {millis : Int} {utcNow : PyStr} {errors : List PyStr}
      {error : PyExc F} (h : errors.length < 20)
      (htext : eventText python eventType payload millis utcNow = .error error) :
      PublishEnds eventType payload (prepared millis utcNow errors)
        (.error (.python error))
  | unencodable {millis : Int} {utcNow text : PyStr} {errors : List PyStr}
      (h : errors.length < 20)
      (htext : eventText python eventType payload millis utcNow = .ok text)
      (he : ¬ Encodable text) :
      PublishEnds eventType payload (prepared millis utcNow errors)
        (.error (.python (.unicodeEncode text)))
  | unanswered {millis : Int} {utcNow text : PyStr} {errors : List PyStr}
      (h : errors.length < 20) (error : PikaError)
      (htext : eventText python eventType payload millis utcNow = .ok text) :
      PublishEnds eventType payload (prepared millis utcNow errors ++
        [⟨publication eventType text, .error error⟩]) (.error (.pika error))
  | unclosed {millis : Int} {utcNow text : PyStr} {errors : List PyStr}
      (h : errors.length < 20) (error : PikaError)
      (htext : eventText python eventType payload millis utcNow = .ok text) :
      PublishEnds eventType payload (prepared millis utcNow errors ++
        [⟨publication eventType text, .ok ()⟩,
          ⟨publishedLine eventType text, ()⟩, ⟨.pika .close, .error error⟩])
        (.error (.pika error))

/-! ## The consumer -/

def auditQueue : PyStr := py "taxi.audit"

def consumerCalls : List PikaCall :=
  .channel :: topologyCalls ++ [.basicQos 1, .basicConsume auditQueue]

def startedLine : MessagingEffect := .print startedText

inductive ConsumerCall : MessagingPast → MessagingEffect → Prop where
  | connecting {past : MessagingPast} {e : MessagingEffect}
      (h : Connecting [] consumerCalls past e) : ConsumerCall past e
  | print {errors : List PyStr} (h : errors.length < 20) :
      ConsumerCall (refused errors ++
        answered (.blockingConnection :: consumerCalls)) startedLine
  | start {errors : List PyStr} (h : errors.length < 20) :
      ConsumerCall (refused errors ++
        answered (.blockingConnection :: consumerCalls) ++ [⟨startedLine, ()⟩])
        .startConsuming

inductive ConsumerEnds :
    MessagingPast → Except (ServiceExc F) Unit → Prop where
  | started {errors : List PyStr} (h : errors.length < 20) :
      ConsumerEnds (refused errors ++
        answered (.blockingConnection :: consumerCalls) ++
        [⟨startedLine, ()⟩, ⟨.startConsuming, ()⟩]) (.ok ())
  | connecting {past : MessagingPast} {x : ServiceExc F}
      (h : ConnectFails [] consumerCalls past x) : ConsumerEnds past (.error x)

/-- The calls that settle a message. -/
def settles : MessagingEffect → Bool
  | .host (.ack _) => true
  | .host (.nack _ _) => true
  | _ => false

/-- A message, and then calls of the callback, none of which settles it. -/
inductive Open (message : Nat × List UInt8) : MessagingPast → Prop where
  | intro {more : MessagingPast} (h : ∀ x ∈ more, settles x.1 = false) :
      Open message (⟨.receive, some message⟩ :: more)

/-- A call the callback may make for a message with this tag. -/
def CallbackCall (deliveryTag : Nat) : ConsumerEffect → Prop
  | .ack tag => tag = deliveryTag
  | .nack tag again => tag = deliveryTag ∧ again = true
  | _ => True

inductive RoundCall : MessagingPast → MessagingEffect → Prop where
  | receive : RoundCall [] .receive
  | host {message : Nat × List UInt8} {past : MessagingPast}
      {e : ConsumerEffect} (h : Open message past)
      (he : CallbackCall message.1 e) : RoundCall past (.host e)

inductive RoundEnds : MessagingPast → Except (ServiceExc F) Unit → Prop where
  | nothing : RoundEnds [⟨.receive, none⟩] (.ok ())
  | settled {message : Nat × List UInt8} {past : MessagingPast}
      {e : ConsumerEffect} {r : e.Result} (h : Open message past)
      (he : CallbackCall message.1 e) (hs : settles (.host e) = true) :
      RoundEnds (past ++ [⟨.host e, r⟩]) (.ok ())

/-! ## Every request -/

/-- The call is the next one of the request's script. -/
def Calls : MessagingRequest F → MessagingPast → MessagingEffect → Prop
  | .publish eventType payload, past, e =>
      PublishCall python eventType payload past e
  | .produce args, past, e => ∃ payload, eventPayload args = .ok payload ∧
      PublishCall python args.eventType (.dict payload) past e
  | .consumer, past, e => ConsumerCall past e
  | .round, past, e => RoundCall past e

def Ends : MessagingRequest F → MessagingPast →
    Except (ServiceExc F) Unit → Prop
  | .publish eventType payload, past, out =>
      PublishEnds python eventType payload past out
  | .produce args, past, out =>
      (∀ x, eventPayload args = .error x → past = [] ∧ out = .error x) ∧
      ∀ payload, eventPayload args = .ok payload →
        PublishEnds python args.eventType (.dict payload) past out
  | .consumer, past, out => ConsumerEnds past out
  | .round, past, out => RoundEnds past out

/-! ## The messages -/

def Fate.arrives : Fate → Bool
  | .lost _ => false
  | _ => true

/-- The routing key and the body of a message that got to the broker. -/
def arrival? (x : Traced Surroundings MessagingEffect MessagingEffect.Result) :
    Option (PyStr × List UInt8) :=
  match x.effect with
  | .pika (.basicPublish _ key body _) =>
      if Fate.arrives x.input.fate then some (key, body) else none
  | _ => none

/-- Is a queue for messages of this type? -/
def Wants (queue eventType : PyStr) : Prop :=
  queue = auditQueue ∨ eventType ∈ (queues.get? queue).getD []

instance (queue eventType : PyStr) : Decidable (Wants queue eventType) :=
  inferInstanceAs (Decidable (_ ∨ _))

/-- The messages that got to the broker and are for the queue, in their
order. -/
def publishedTo (queue : PyStr) (trace : MessagingTrace) : List (List UInt8) :=
  ((trace.filterMap arrival?).filter fun m => decide (Wants queue m.1)).map
    Prod.snd

/-- The messages the consumer was called back with, by their tags. -/
def delivered (trace : MessagingTrace) : List (List UInt8) :=
  trace.filterMap fun x => match x with
    | ⟨_, _, .receive, some (_, body)⟩ => some body
    | _ => none

variable {B : Type}

/-- The message that is being handled. -/
def inFlight (s : Messaging B) : List (List UInt8) :=
  s.callback.toList.map Prod.snd

/-- Every message that arrived is in each queue that is for it, once and in the
order of arrival. The audit queue has lost those that were acknowledged, and
the one that is being handled. -/
structure Conserved (rabbit : Rabbit B) (s : MessagingRun B F) : Prop where
  unread : ∀ queue, queue ≠ auditQueue →
    (rabbit.view s.shared.broker).messages queue = publishedTo queue s.trace
  audit : (publishedTo auditQueue s.trace).Perm
    (ackedOf (delivered s.trace) s.shared.host.verdicts ++
      inFlight s.shared ++ (rabbit.view s.shared.broker).messages auditQueue)

end TaxiService.Spec
