import TaxiService.Lib.Topics
import TaxiService.Model.Publisher

/-!
# The broker

RabbitMQ is not in this repository, so the broker is a parameter. What can be
seen of it (`BrokerView`) are its exchanges with their types, its queues with
their messages, the bindings, and the queue that is consumed. `Amqp` is what the
documentation says about a call that arrives: when it is refused, and what it
changes. A `Rabbit` is a broker that keeps to this for the calls the code makes.

A message goes to every queue with a binding that takes its routing key, once.
A queue hands its messages out in their order. One that is sent back is in its
queue again, at its old place or wherever else the broker puts it. There is one
consumer and its connection does not break, and a message that was accepted is
not lost.
-/

namespace TaxiService.Model

open TaxiService.Lib

structure Binding where
  exchange : PyStr
  queue : PyStr
  routingKey : PyStr
  deriving DecidableEq, Repr

/-! ## What the documentation says -/

structure BrokerView where
  exchange : PyStr → Option PyStr
  queue : PyStr → Option (List (List UInt8))
  binding : Binding → Prop
  consumer : Option PyStr

namespace BrokerView

def empty : BrokerView := ⟨fun _ => none, fun _ => none, fun _ => False, none⟩

variable (v : BrokerView)

def messages (queue : PyStr) : List (List UInt8) := (v.queue queue).getD []

def setMessages (queue : PyStr) (bodies : List (List UInt8)) : BrokerView :=
  { v with queue := fun q => if queue = q then some bodies else v.queue q }

/-- A binding of the exchange takes messages with this key to the queue. -/
def Routes (exchange key queue : PyStr) : Prop :=
  ∃ routingKey, v.binding ⟨exchange, queue, routingKey⟩ ∧
    takesTopic routingKey key = true

end BrokerView

/-- The calls the code makes. It declares durable things only. -/
def PikaCall.Made : PikaCall → Prop
  | .exchangeDeclare exchange type durable =>
      exchange = exchangeName ∧ type = exchangeType ∧ durable = true
  | .queueDeclare queue durable =>
      queue ∈ queues.map Prod.fst ∧ durable = true
  | .queueBind exchange queue _ =>
      exchange = exchangeName ∧ queue ∈ queues.map Prod.fst
  | .basicPublish exchange _ _ _ => exchange = exchangeName
  | .basicConsume queue => queue ∈ queues.map Prod.fst
  | _ => True

/-- A call that arrives, its answer, and what can be seen afterwards. -/
inductive Amqp (v : BrokerView) :
    PikaCall → Except PikaError Unit → BrokerView → Prop where
  | connect : Amqp v .blockingConnection (.ok ()) v
  | channel : Amqp v .channel (.ok ()) v
  | qos (prefetchCount : Nat) : Amqp v (.basicQos prefetchCount) (.ok ()) v
  | close : Amqp v .close (.ok ()) v
  | declareExchange {exchange type : PyStr} {durable : Bool}
      (h : v.exchange exchange = none) :
      Amqp v (.exchangeDeclare exchange type durable) (.ok ()) { v with
        exchange := fun x => if exchange = x then some type else v.exchange x }
  | exchangeThere {exchange type : PyStr} {durable : Bool}
      (h : v.exchange exchange = some type) :
      Amqp v (.exchangeDeclare exchange type durable) (.ok ()) v
  | exchangeOther {exchange type declared : PyStr} {durable : Bool}
      (error : PikaError) (h : v.exchange exchange = some declared)
      (hne : declared ≠ type) :
      Amqp v (.exchangeDeclare exchange type durable) (.error error) v
  | declareQueue {queue : PyStr} {durable : Bool} (h : v.queue queue = none) :
      Amqp v (.queueDeclare queue durable) (.ok ()) (v.setMessages queue [])
  | queueThere {queue : PyStr} {durable : Bool} (h : (v.queue queue).isSome) :
      Amqp v (.queueDeclare queue durable) (.ok ()) v
  | bind {exchange queue key : PyStr} (hx : (v.exchange exchange).isSome)
      (hq : (v.queue queue).isSome) :
      Amqp v (.queueBind exchange queue key) (.ok ()) { v with
        binding := fun x => v.binding x ∨ x = ⟨exchange, queue, key⟩ }
  | bindMissing {exchange queue key : PyStr} (error : PikaError)
      (h : v.exchange exchange = none ∨ v.queue queue = none) :
      Amqp v (.queueBind exchange queue key) (.error error) v
  | publish {exchange key : PyStr} {body : List UInt8}
      {properties : BasicProperties}
      {queues : PyStr → Option (List (List UInt8))}
      (hx : v.exchange exchange = some (py "topic"))
      (hto : ∀ queue, v.Routes exchange key queue →
        queues queue = (v.queue queue).map (· ++ [body]))
      (hother : ∀ queue, ¬ v.Routes exchange key queue →
        queues queue = v.queue queue) :
      Amqp v (.basicPublish exchange key body properties) (.ok ())
        { v with queue := queues }
  -- An exchange of another type routes in another way.
  | publishOther {exchange key type : PyStr} {body : List UInt8}
      {properties : BasicProperties}
      {queues : PyStr → Option (List (List UInt8))}
      (hx : v.exchange exchange = some type) (hne : type ≠ py "topic")
      (h : ∀ queue, queues queue = v.queue queue ∨
        queues queue = (v.queue queue).map (· ++ [body])) :
      Amqp v (.basicPublish exchange key body properties) (.ok ())
        { v with queue := queues }
  -- Nobody waits for the answer, so a missing exchange raises later.
  | publishMissing {exchange key : PyStr} {body : List UInt8}
      {properties : BasicProperties} (hx : v.exchange exchange = none) :
      Amqp v (.basicPublish exchange key body properties) (.ok ()) v
  | consume {queue : PyStr} (h : (v.queue queue).isSome) :
      Amqp v (.basicConsume queue) (.ok ()) { v with consumer := some queue }
  | consumeMissing {queue : PyStr} (error : PikaError)
      (h : v.queue queue = none) :
      Amqp v (.basicConsume queue) (.error error) v

/-- The consumer is given the first message of its queue. -/
inductive Delivers (v : BrokerView) :
    Option (List UInt8) → BrokerView → Prop where
  | nothing (h : ∀ queue, v.consumer = some queue → v.messages queue = []) :
      Delivers v none v
  | first {queue : PyStr} {body : List UInt8} {rest : List (List UInt8)}
      (hc : v.consumer = some queue)
      (hq : v.queue queue = some (body :: rest)) :
      Delivers v (some body) (v.setMessages queue rest)

/-! ## Brokers -/

/-- A broker. These are assumptions about the surroundings of the code. -/
structure Rabbit (B : Type) where
  start : B
  view : B → BrokerView
  call : PikaCall → B → Except PikaError Unit × B
  deliver : B → Option (List UInt8) × B
  requeue : Nat → List UInt8 → B → B
  view_start : view start = .empty
  call_amqp : ∀ e b, PikaCall.Made e →
    Amqp (view b) e (call e b).1 (view (call e b).2)
  deliver_first : ∀ b, Delivers (view b) (deliver b).1 (view (deliver b).2)
  requeue_back : ∀ place body b queue bodies, (view b).consumer = some queue →
    (view b).queue queue = some bodies → ∃ bodies',
      bodies'.Perm (body :: bodies) ∧
      view (requeue place body b) = (view b).setMessages queue bodies'

/-- A broker to evaluate with. `exchanges` has their types, `consumer` the queue
that is consumed. -/
structure Broker where
  exchanges : Assoc PyStr PyStr
  queues : Assoc PyStr (List (List UInt8))
  bindings : List Binding
  consumer : Option PyStr
  deriving DecidableEq, Repr

namespace Broker

def empty : Broker := ⟨[], [], [], none⟩

def view (b : Broker) : BrokerView where
  exchange := b.exchanges.get?
  queue := b.queues.get?
  binding := (· ∈ b.bindings)
  consumer := b.consumer

def setMessages (b : Broker) (queue : PyStr) (bodies : List (List UInt8)) :
    Broker := { b with queues := b.queues.set queue bodies }

/-- The queues after a message has been routed. -/
def deliverTo (b : Broker) (exchange key : PyStr) (body : List UInt8) :
    Assoc PyStr (List (List UInt8)) :=
  b.queues.map fun q =>
    (q.1, if b.bindings.any fun x => decide (x.exchange = exchange) &&
      decide (x.queue = q.1) && takesTopic x.routingKey key
      then q.2 ++ [body] else q.2)

def call (b : Broker) : PikaCall → Except PikaError Unit × Broker
  | .exchangeDeclare exchange exchangeType _ =>
      match b.exchanges.get? exchange with
      | none =>
          (.ok (), { b with
            exchanges := b.exchanges.set exchange exchangeType })
      | some declared =>
          (if declared = exchangeType then .ok ()
            else .error (.other (py "PRECONDITION_FAILED")), b)
  | .queueDeclare queue _ =>
      match b.queues.get? queue with
      | none => (.ok (), b.setMessages queue [])
      | some _ => (.ok (), b)
  | .queueBind exchange queue routingKey =>
      if (b.exchanges.get? exchange).isSome ∧ (b.queues.get? queue).isSome then
        (.ok (), { b with
          bindings := b.bindings ++ [⟨exchange, queue, routingKey⟩] })
      else (.error (.other (py "NOT_FOUND")), b)
  | .basicPublish exchange routingKey body _ =>
      if (b.exchanges.get? exchange).isSome then
        (.ok (), { b with queues := b.deliverTo exchange routingKey body })
      else (.ok (), b)
  | .basicConsume queue =>
      if (b.queues.get? queue).isSome then
        (.ok (), { b with consumer := some queue })
      else (.error (.other (py "NOT_FOUND")), b)
  | _ => (.ok (), b)

def deliver (b : Broker) : Option (List UInt8) × Broker :=
  match b.consumer with
  | none => (none, b)
  | some queue =>
      match b.queues.get? queue with
      | some (body :: rest) => (some body, b.setMessages queue rest)
      | _ => (none, b)

def requeue (place : Nat) (body : List UInt8) (b : Broker) : Broker :=
  match b.consumer with
  | none => b
  | some queue =>
      let bodies := (b.queues.get? queue).getD []
      b.setMessages queue (bodies.insertIdx (min place bodies.length) body)

theorem view_setMessages (b : Broker) (queue : PyStr)
    (bodies : List (List UInt8)) :
    (b.setMessages queue bodies).view = b.view.setMessages queue bodies := by
  have h : ((b.setMessages queue bodies).queues).get? = fun q =>
      if queue = q then some bodies else b.queues.get? q := by
    funext q
    rw [setMessages, Assoc.get?_set]
  rw [view, h]
  rfl

theorem get?_deliverTo (b : Broker) (exchange key : PyStr) (body : List UInt8)
    (queue : PyStr) : (b.view.Routes exchange key queue →
      Assoc.get? (b.deliverTo exchange key body) queue =
        (b.view.queue queue).map (· ++ [body])) ∧
    (¬ b.view.Routes exchange key queue →
      Assoc.get? (b.deliverTo exchange key body) queue =
        b.view.queue queue) := by
  have hroutes : (b.bindings.any fun x => decide (x.exchange = exchange) &&
      decide (x.queue = queue) && takesTopic x.routingKey key) = true ↔
        b.view.Routes exchange key queue := by
    simp only [List.any_eq_true, Bool.and_eq_true, decide_eq_true_eq]
    constructor
    · rintro ⟨⟨_, _, routingKey⟩, hx, ⟨rfl, rfl⟩, ht⟩
      exact ⟨routingKey, hx, ht⟩
    · rintro ⟨routingKey, hx, ht⟩
      exact ⟨_, hx, ⟨rfl, rfl⟩, ht⟩
  have hget : Assoc.get? (b.deliverTo exchange key body) queue =
      (b.queues.get? queue).map fun bodies =>
        if b.bindings.any fun x => decide (x.exchange = exchange) &&
          decide (x.queue = queue) && takesTopic x.routingKey key
        then bodies ++ [body] else bodies := by
    rw [deliverTo]
    induction b.queues with
    | nil => rfl
    | cons q qs ih =>
        obtain ⟨queue', bodies⟩ := q
        rw [List.map_cons, Assoc.get?, Assoc.get?]
        by_cases hq : queue' = queue
        · rw [if_pos hq, if_pos hq, hq]
          rfl
        · rw [if_neg hq, if_neg hq, ih]
  rw [hget]
  refine ⟨fun h => ?_, fun h => ?_⟩
  · simp only [if_pos (hroutes.mpr h)]
    rfl
  · simp only [if_neg (mt hroutes.mp h), Option.map_id']
    rfl

theorem amqp (b : Broker) (e : PikaCall) :
    Amqp b.view e (b.call e).1 (b.call e).2.view := by
  cases e with
  | blockingConnection => exact .connect
  | channel => exact .channel
  | basicQos prefetchCount => exact .qos prefetchCount
  | close => exact .close
  | exchangeDeclare exchange type durable =>
      rw [call]
      split
      · next h =>
          have hx : (b.exchanges.set exchange type).get? = fun x =>
              if exchange = x then some type else b.exchanges.get? x := by
            funext x
            rw [Assoc.get?_set]
          have hv : ({ b with exchanges := b.exchanges.set exchange type } :
              Broker).view = { b.view with
                exchange := fun x =>
                  if exchange = x then some type else b.view.exchange x } := by
            rw [view, hx]
            rfl
          rw [hv]
          exact .declareExchange h
      · next declared h =>
          by_cases hd : declared = type
          · rw [if_pos hd]
            exact .exchangeThere (hd ▸ h)
          · rw [if_neg hd]
            exact .exchangeOther _ h hd
  | queueDeclare queue durable =>
      rw [call]
      split
      · next h =>
          rw [view_setMessages]
          exact .declareQueue h
      · next h => exact .queueThere (Option.isSome_iff_exists.mpr ⟨_, h⟩)
  | queueBind exchange queue key =>
      rw [call]
      split
      · next h =>
          have hv : ({ b with bindings := b.bindings ++
              [⟨exchange, queue, key⟩] } : Broker).view =
              { b.view with binding := fun x =>
                b.view.binding x ∨ x = ⟨exchange, queue, key⟩ } := by
            simp [view]
          rw [hv]
          exact .bind h.1 h.2
      · next h =>
          refine .bindMissing _ ?_
          simp only [not_and_or, Option.not_isSome_iff_eq_none] at h
          exact h
  | basicPublish exchange key body properties =>
      rw [call]
      split
      · next h =>
          obtain ⟨type, htype⟩ := Option.isSome_iff_exists.mp h
          have hto := b.get?_deliverTo exchange key body
          by_cases ht : type = py "topic"
          · exact .publish (ht ▸ htype) (fun queue => (hto queue).1)
              fun queue => (hto queue).2
          · refine .publishOther htype ht fun queue => ?_
            by_cases hr : b.view.Routes exchange key queue
            · exact .inr ((hto queue).1 hr)
            · exact .inl ((hto queue).2 hr)
      · next h => exact .publishMissing (Option.not_isSome_iff_eq_none.mp h)
  | basicConsume queue =>
      rw [call]
      split
      · next h => exact .consume h
      · next h => exact .consumeMissing _ (Option.not_isSome_iff_eq_none.mp h)

theorem delivers (b : Broker) :
    Delivers b.view b.deliver.1 b.deliver.2.view := by
  rw [deliver]
  split
  · next h => exact .nothing fun queue hc => by cases h.symm.trans hc
  · next queue h =>
      split
      · next body rest hq =>
          rw [view_setMessages]
          exact .first h hq
      · next hq =>
          refine .nothing fun queue' hc => ?_
          cases h.symm.trans hc
          rw [BrokerView.messages]
          show (b.queues.get? queue).getD [] = []
          cases hm : b.queues.get? queue with
          | none => rfl
          | some bodies =>
              cases bodies with
              | nil => rfl
              | cons body rest => exact absurd hm (hq body rest)

def rabbit : Rabbit Broker where
  start := .empty
  view := view
  call e b := b.call e
  deliver := deliver
  requeue := requeue
  view_start := by
    simp [view, empty, BrokerView.empty]
    exact ⟨rfl, rfl⟩
  call_amqp e b _ := b.amqp e
  deliver_first := delivers
  requeue_back place body b queue bodies hc hq := by
    have hconsumer : b.consumer = some queue := hc
    have hqueue : b.queues.get? queue = some bodies := hq
    refine ⟨bodies.insertIdx (min place bodies.length) body,
      List.perm_insertIdx _ _ (Nat.min_le_right _ _), ?_⟩
    rw [requeue, hconsumer]
    dsimp only
    rw [hqueue, Option.getD_some, view_setMessages]

end Broker

end TaxiService.Model
