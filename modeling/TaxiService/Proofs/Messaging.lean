import TaxiService.Proofs.CrashRecovery
import TaxiService.Proofs.MessagingScripts

/-!
# No message is lost

A queue gets the messages that are for it because the topology stands before
anything is published: whoever publishes has declared all of it, and what was
declared stays (`Established`). The audit queue changes hands with its first
message, and that is settled by the callback that got it and by no other.

What a call does to the broker is read off `Amqp`, one case for each thing the
documentation says.
-/

namespace TaxiService.Proofs

open TaxiService.Lib TaxiService.Model TaxiService.Spec

variable {B F : Type} (rabbit : Rabbit B) (python : Python F)

/-! ## The broker -/

/-- What a call that was answered has established. -/
def Established (v : BrokerView) : PikaCall → Prop
  | .exchangeDeclare exchange _ _ => (v.exchange exchange).isSome
  | .queueDeclare queue _ => (v.queue queue).isSome
  | .queueBind exchange queue key => v.binding ⟨exchange, queue, key⟩
  | _ => True

/-- The exchange and every binding are those of `declare_topology`, and what is
consumed is the audit queue. -/
structure BrokerSound (v : BrokerView) : Prop where
  exchange : ∀ type, v.exchange exchangeName = some type → type = exchangeType
  bindings : ∀ x, v.binding x → x.exchange = exchangeName ∧
    ∃ keys, (x.queue, keys) ∈ queues ∧ x.routingKey ∈ keys
  consumer : ∀ queue, v.consumer = some queue →
    queue = auditQueue ∧ (v.queue queue).isSome

/-- A call of a process that is no publication. -/
inductive PlainCall : PikaCall → Prop where
  | connect : PlainCall .blockingConnection
  | consumer {call : PikaCall} (h : call ∈ consumerCalls) : PlainCall call
  | close : PlainCall .close

theorem mem_topologyCalls {call : PikaCall} (h : call ∈ topologyCalls) :
    call = .exchangeDeclare exchangeName exchangeType true ∨
    (∃ q ∈ queues, call = .queueDeclare q.1 true) ∨
    ∃ q ∈ queues, ∃ key ∈ q.2, call = .queueBind exchangeName q.1 key := by
  rw [topologyCalls, List.mem_cons, List.mem_flatMap] at h
  rcases h with h | ⟨q, hq, h⟩
  · exact .inl h
  · rw [List.mem_cons, List.mem_map] at h
    rcases h with h | ⟨key, hkey, rfl⟩
    · exact .inr (.inl ⟨q, hq, h⟩)
    · exact .inr (.inr ⟨q, hq, key, hkey, rfl⟩)

theorem PlainCall.cases {call : PikaCall} (h : PlainCall call) :
    call = .blockingConnection ∨ call = .channel ∨
    call = .exchangeDeclare exchangeName exchangeType true ∨
    (∃ q ∈ queues, call = .queueDeclare q.1 true) ∨
    (∃ q ∈ queues, ∃ key ∈ q.2, call = .queueBind exchangeName q.1 key) ∨
    call = .basicQos 1 ∨ call = .basicConsume auditQueue ∨ call = .close := by
  cases h with
  | connect => exact .inl rfl
  | close => exact .inr (.inr (.inr (.inr (.inr (.inr (.inr rfl))))))
  | consumer h =>
      rw [consumerCalls, List.cons_append, List.mem_cons, List.mem_append] at h
      rcases h with h | h | h
      · exact .inr (.inl h)
      · rcases mem_topologyCalls h with h | h | h
        · exact .inr (.inr (.inl h))
        · exact .inr (.inr (.inr (.inl h)))
        · exact .inr (.inr (.inr (.inr (.inl h))))
      · rw [List.mem_pair] at h
        exact .inr (.inr (.inr (.inr (.inr (h.imp_right .inl)))))

theorem audit_wildcard : (auditQueue, [py "#"]) ∈ queues := by decide

theorem PlainCall.made {call : PikaCall} (h : PlainCall call) : call.Made := by
  rcases h.cases with rfl | rfl | rfl | ⟨q, hq, rfl⟩ |
    ⟨q, hq, key, hkey, rfl⟩ | rfl | rfl | rfl
  · trivial
  · trivial
  · exact ⟨rfl, rfl, rfl⟩
  · exact ⟨List.mem_map_of_mem hq, rfl⟩
  · exact ⟨rfl, List.mem_map_of_mem hq⟩
  · trivial
  · exact List.mem_map_of_mem (f := Prod.fst) audit_wildcard
  · trivial

section

variable {v v' : BrokerView} {call : PikaCall} {r : Except PikaError Unit}

theorem messages_setMessages (v : BrokerView) (queue queue' : PyStr)
    (bodies : List (List UInt8)) : (v.setMessages queue bodies).messages queue' =
      if queue = queue' then bodies else v.messages queue' := by
  rw [BrokerView.messages, BrokerView.setMessages]
  dsimp only
  split <;> rfl

/-- What was declared stays. -/
structure Grows (v v' : BrokerView) : Prop where
  exchanges : ∀ exchange, (v.exchange exchange).isSome →
    (v'.exchange exchange).isSome
  queues : ∀ queue, (v.queue queue).isSome → (v'.queue queue).isSome
  bindings : ∀ x, v.binding x → v'.binding x

theorem Grows.refl (v : BrokerView) : Grows v v :=
  ⟨fun _ h => h, fun _ h => h, fun _ h => h⟩

theorem Established.mono (h : Established v call) (hg : Grows v v') :
    Established v' call := by
  cases call with
  | exchangeDeclare exchange type durable => exact hg.exchanges _ h
  | queueDeclare queue durable => exact hg.queues _ h
  | queueBind exchange queue key => exact hg.bindings _ h
  | _ => trivial

theorem grows_setMessages (v : BrokerView) (queue : PyStr)
    (bodies : List (List UInt8)) : Grows v (v.setMessages queue bodies) where
  exchanges _ h := h
  bindings _ h := h
  queues queue' h := by
    rw [BrokerView.setMessages]
    dsimp only
    split
    · rfl
    · exact h

theorem sound_setMessages (hb : BrokerSound v) (queue : PyStr)
    (bodies : List (List UInt8)) : BrokerSound (v.setMessages queue bodies) :=
  ⟨hb.exchange, hb.bindings, fun queue' hq => ⟨(hb.consumer queue' hq).1,
    (grows_setMessages v queue bodies).queues queue'
      (hb.consumer queue' hq).2⟩⟩

theorem grows_amqp (h : Amqp v call r v') : Grows v v' := by
  cases h with
  | declareExchange h =>
      refine ⟨fun exchange' hx => ?_, fun _ h => h, fun _ h => h⟩
      dsimp only
      split
      · rfl
      · exact hx
  | declareQueue h => exact grows_setMessages v _ []
  | bind hx hq => exact ⟨fun _ h => h, fun _ h => h, fun _ h => .inl h⟩
  | @publish exchange key body properties queues hx hto hother =>
      refine ⟨fun _ h => h, fun queue hq => ?_, fun _ h => h⟩
      dsimp only
      by_cases hr : v.Routes exchange key queue
      · rw [hto queue hr, Option.isSome_map]
        exact hq
      · rw [hother queue hr]
        exact hq
  | publishOther hx hne hqueues =>
      refine ⟨fun _ h => h, fun queue hq => ?_, fun _ h => h⟩
      dsimp only
      rcases hqueues queue with h | h
      · rw [h]
        exact hq
      · rw [h, Option.isSome_map]
        exact hq
  | consume h => exact ⟨fun _ h => h, fun _ h => h, fun _ h => h⟩
  | _ => exact .refl v

/-- A call that was answered has established what it says. -/
theorem established_amqp (h : Amqp v call (.ok ()) v') :
    Established v' call := by
  cases h with
  | declareExchange h =>
      rw [Established]
      dsimp only
      rw [if_pos rfl]
      rfl
  | exchangeThere h => exact Option.isSome_iff_exists.mpr ⟨_, h⟩
  | declareQueue h =>
      rw [Established, BrokerView.setMessages]
      dsimp only
      rw [if_pos rfl]
      rfl
  | queueThere h => exact h
  | bind hx hq => exact .inr rfl
  | _ => trivial

theorem sound_amqp (hb : BrokerSound v) (hplain : PlainCall call)
    (h : Amqp v call r v') : BrokerSound v' := by
  rcases hplain.cases with rfl | rfl | rfl | ⟨q, hq, rfl⟩ |
    ⟨q, hq, key, hkey, rfl⟩ | rfl | rfl | rfl
  · cases h
    exact hb
  · cases h
    exact hb
  · cases h with
    | declareExchange h =>
        refine ⟨fun type htype => ?_, hb.bindings, hb.consumer⟩
        dsimp only at htype
        rw [if_pos rfl] at htype
        exact (Option.some.inj htype).symm
    | exchangeThere h => exact hb
    | exchangeOther error h hne => exact hb
  · cases h with
    | declareQueue h => exact sound_setMessages hb q.1 []
    | queueThere h => exact hb
  · cases h with
    | bind hx hqueue =>
        refine ⟨hb.exchange, fun x hx => ?_, hb.consumer⟩
        rcases hx with hx | rfl
        · exact hb.bindings x hx
        · exact ⟨rfl, q.2, hq, hkey⟩
    | bindMissing error h => exact hb
  · cases h
    exact hb
  · cases h with
    | consume h =>
        refine ⟨hb.exchange, hb.bindings, fun queue hqueue => ?_⟩
        cases hqueue
        exact ⟨rfl, h⟩
    | consumeMissing error h => exact hb
  · cases h
    exact hb

theorem not_plain {exchange key : PyStr} {body : List UInt8}
    {properties : BasicProperties} :
    ¬ PlainCall (.basicPublish exchange key body properties) := by
  intro h
  rcases h.cases with h | h | h | ⟨q, -, h⟩ | ⟨q, -, k, -, h⟩ | h | h | h
  all_goals cases h

/-- Only a publication changes the messages of a queue. -/
theorem messages_amqp (hplain : PlainCall call) (h : Amqp v call r v')
    (queue : PyStr) : v'.messages queue = v.messages queue := by
  cases h with
  | declareQueue hnew =>
      rw [messages_setMessages]
      split
      · next hqueue => rw [BrokerView.messages, ← hqueue, hnew]; rfl
      · rfl
  | publish _ _ _ => exact absurd hplain not_plain
  | publishOther _ _ _ => exact absurd hplain not_plain
  | _ => rfl

theorem consumer_amqp (hplain : PlainCall call) (h : Amqp v call r v')
    (hc : v.consumer = some auditQueue) : v'.consumer = some auditQueue := by
  cases h with
  | consume _ =>
      rcases hplain.cases with h | h | h | ⟨q, -, h⟩ | ⟨q, -, k, -, h⟩ | h | h | h
      all_goals cases h
      rfl
  | _ => exact hc

/-! ## Routing -/

theorem literal_keys : ∀ q ∈ queues, q.1 ≠ auditQueue → ∀ key ∈ q.2,
    42 ∉ key ∧ 35 ∉ key := by decide +kernel

theorem queues_get? : ∀ q ∈ queues, queues.get? q.1 = some q.2 := by
  decide +kernel

/-- Where the topology stands, a message of any type is routed to the queues
that are for it. -/
theorem routes_iff (hb : BrokerSound v)
    (hall : ∀ call ∈ topologyCalls, Established v call) (key queue : PyStr) :
    v.Routes exchangeName key queue ↔ Wants queue key := by
  have hbound : ∀ q ∈ queues, ∀ k ∈ q.2, v.binding ⟨exchangeName, q.1, k⟩ := by
    intro q hq k hk
    refine hall (.queueBind exchangeName q.1 k) ?_
    rw [topologyCalls]
    exact List.mem_cons_of_mem _ (List.mem_flatMap.mpr ⟨q, hq,
      List.mem_cons_of_mem _ (List.mem_map.mpr ⟨k, hk, rfl⟩)⟩)
  constructor
  · rintro ⟨routingKey, hx, htakes⟩
    obtain ⟨-, keys, hq, hkey⟩ := hb.bindings _ hx
    by_cases haudit : queue = auditQueue
    · exact .inl haudit
    · obtain ⟨hstar, hhash⟩ := literal_keys _ hq haudit _ hkey
      rw [takesTopic_literal hstar hhash] at htakes
      rw [Wants, queues_get? _ hq]
      exact .inr (htakes ▸ hkey)
  · rintro (rfl | hkey)
    · exact ⟨_, hbound _ audit_wildcard _ (List.mem_singleton_self _),
        takesTopic_everything key⟩
    · cases hq : queues.get? queue with
      | none =>
          rw [hq] at hkey
          cases hkey
      | some keys =>
          rw [hq, Option.getD_some] at hkey
          have hmem := Assoc.mem_of_get? hq
          by_cases haudit : queue = auditQueue
          · subst haudit
            exact ⟨_, hbound _ audit_wildcard _ (List.mem_singleton_self _),
              takesTopic_everything key⟩
          · obtain ⟨hstar, hhash⟩ := literal_keys _ hmem haudit _ hkey
            exact ⟨_, hbound _ hmem _ hkey,
              (takesTopic_literal hstar hhash key).mpr rfl⟩

theorem wants_declared (hall : ∀ call ∈ topologyCalls, Established v call)
    {queue key : PyStr} (h : Wants queue key) : (v.queue queue).isSome := by
  have hdeclared : ∀ q ∈ queues, (v.queue q.1).isSome := by
    intro q hq
    refine hall (.queueDeclare q.1 true) ?_
    rw [topologyCalls]
    exact List.mem_cons_of_mem _
      (List.mem_flatMap.mpr ⟨q, hq, List.mem_cons_self⟩)
  rcases h with rfl | h
  · exact hdeclared _ audit_wildcard
  · cases hq : queues.get? queue with
    | none =>
        rw [hq] at h
        cases h
    | some keys => exact hdeclared _ (Assoc.mem_of_get? hq)

section

variable {key : PyStr} {body : List UInt8} {properties : BasicProperties}

/-- A publication where the topology stands. -/
theorem messages_publish (hb : BrokerSound v)
    (hall : ∀ call ∈ topologyCalls, Established v call)
    (h : Amqp v (.basicPublish exchangeName key body properties) r v')
    (queue : PyStr) : v'.messages queue =
      v.messages queue ++ if Wants queue key then [body] else [] := by
  have hexchange : (v.exchange exchangeName).isSome :=
    hall (.exchangeDeclare exchangeName exchangeType true) List.mem_cons_self
  cases h with
  | publish hx hto hother =>
      rw [BrokerView.messages, BrokerView.messages]
      dsimp only
      by_cases hw : Wants queue key
      · obtain ⟨bodies, hq⟩ :=
          Option.isSome_iff_exists.mp (wants_declared hall hw)
        rw [if_pos hw, hto queue ((routes_iff hb hall _ _).mpr hw), hq]
        rfl
      · rw [if_neg hw, List.append_nil,
          hother queue fun hr => hw ((routes_iff hb hall _ _).mp hr)]
  | publishOther hx hne _ => exact absurd (hb.exchange _ hx) hne
  | publishMissing hx =>
      rw [hx] at hexchange
      cases hexchange

theorem sound_publish (hb : BrokerSound v)
    (h : Amqp v (.basicPublish exchangeName key body properties) r v') :
    BrokerSound v' ∧ v'.consumer = v.consumer := by
  have hconsumer := (grows_amqp h).queues
  cases h with
  | publish hx hto hother =>
      exact ⟨⟨hb.exchange, hb.bindings, fun queue hq =>
        (hb.consumer queue hq).imp_right (hconsumer queue)⟩, rfl⟩
  | publishOther hx hne _ => exact absurd (hb.exchange _ hx) hne
  | publishMissing hx => exact ⟨hb, rfl⟩

end

end

/-! ## The script, read back -/

/-- A call to the broker is a plain one, or the publication of a process that
has declared the topology. -/
theorem calls_pika {request : MessagingRequest F} {past : MessagingPast}
    {call : PikaCall} (h : Calls python request past (.pika call)) :
    PlainCall call ∨
    (∃ key body, call = .basicPublish exchangeName key body eventProperties) ∧
      ∀ declared ∈ topologyCalls, ⟨.pika declared, .ok ()⟩ ∈ past := by
  have hconnecting : ∀ {start : MessagingPast} {calls : List PikaCall},
      (∀ call ∈ calls, PlainCall call) →
      Connecting start calls past (.pika call) → PlainCall call := by
    intro start calls hcalls hc
    cases hc with
    | connect _ => exact .connect
    | call _ hcall => exact hcalls _ (hcall.subset
        (List.mem_append_right _ List.mem_cons_self))
  have hpublish : ∀ {eventType : PyStr} {payload : PyJson F},
      PublishCall python eventType payload past (.pika call) →
      PlainCall call ∨
      (∃ key body, call =
        .basicPublish exchangeName key body eventProperties) ∧
        ∀ declared ∈ topologyCalls, ⟨.pika declared, .ok ()⟩ ∈ past := by
    intro eventType payload hc
    cases hc with
    | connecting hc =>
        refine .inl (hconnecting (fun call hcall => .consumer ?_) hc)
        rw [consumerCalls]
        exact List.mem_append_left _ hcall
    | publish _ _ _ =>
        refine .inr ⟨⟨_, _, rfl⟩, fun declared hd => ?_⟩
        exact List.mem_append_right _ (List.mem_map.mpr ⟨declared,
          List.mem_cons_of_mem _ (List.mem_cons_of_mem _ hd), rfl⟩)
    | close _ _ => exact .inl .close
  cases request with
  | publish eventType payload => exact hpublish h
  | produce args =>
      obtain ⟨payload, -, h⟩ := h
      exact hpublish h
  | consumer =>
      cases h with
      | connecting hc => exact .inl (hconnecting (fun _ => .consumer) hc)
  | round => cases h

/-- Only a round receives, and it does so first. -/
theorem calls_receive {request : MessagingRequest F} {past : MessagingPast}
    (h : Calls python request past .receive) : past = [] := by
  cases request with
  | publish eventType payload =>
      cases h with
      | connecting hc => cases hc
  | produce args =>
      obtain ⟨payload, -, h⟩ := h
      cases h with
      | connecting hc => cases hc
  | consumer =>
      cases h with
      | connecting hc => cases hc
  | round =>
      cases h with
      | receive => rfl

/-- A call of the callback belongs to a message that is not settled. -/
theorem calls_host {request : MessagingRequest F} {past : MessagingPast}
    {e : ConsumerEffect} (h : Calls python request past (.host e)) :
    ∃ message, Open message past ∧ CallbackCall message.1 e := by
  cases request with
  | publish eventType payload =>
      cases h with
      | connecting hc => cases hc
  | produce args =>
      obtain ⟨payload, -, h⟩ := h
      cases h with
      | connecting hc => cases hc
  | consumer =>
      cases h with
      | connecting hc => cases hc
  | round =>
      cases h with
      | host hopen hc => exact ⟨_, hopen, hc⟩

/-! ## Open messages -/

theorem open_head {message : Nat × List UInt8} {past : MessagingPast}
    (h : Open message past) : past.head? = some ⟨.receive, some message⟩ := by
  cases h
  rfl

/-- Nothing but receiving opens a message. -/
theorem open_before {message : Nat × List UInt8} {past : MessagingPast}
    {e : MessagingEffect} {r : e.Result} (h : Open message (past ++ [⟨e, r⟩]))
    (he : e ≠ .receive) : Open message past ∧ settles e = false := by
  cases past with
  | nil =>
      have hhead := Option.some.inj (open_head h)
      exact absurd (congrArg Sigma.fst hhead) he
  | cons x past =>
      cases h with
      | intro hmore =>
          refine ⟨.intro fun y hy => hmore y (List.mem_append_left _ hy), ?_⟩
          exact hmore _ (List.mem_append_right _ List.mem_cons_self)

/-! ## The system -/

/-- What every step keeps. A message that is open is the one the library called
back with, and only one process has one. -/
structure MessagingSound (rabbit : Rabbit B) (s : MessagingRun B F) :
    Prop where
  broker : BrokerSound (rabbit.view s.shared.broker)
  established : ∀ i call, ⟨.pika call, .ok ()⟩ ∈ Threads.pastOf i s.trace →
    Established (rabbit.view s.shared.broker) call
  opened : ∀ i message, Open message (Threads.pastOf i s.trace) →
    s.shared.callback = some message
  one : ∀ i j message message', Open message (Threads.pastOf i s.trace) →
    Open message' (Threads.pastOf j s.trace) → i = j
  held : s.shared.callback.isSome →
    (rabbit.view s.shared.broker).consumer = some auditQueue
  tag : s.shared.deliveryTag = (delivered s.trace).length
  message : ∀ message, s.shared.callback = some message →
    (delivered s.trace)[message.1]? = some message.2
  tags : ∀ p ∈ s.shared.host.verdicts, p.1 < (delivered s.trace).length
  conserved : Conserved rabbit s
  -- A message that is sent back may come in another place.
  order : (∀ p ∈ s.shared.host.verdicts, p.2 = .ack) →
    publishedTo auditQueue s.trace =
      delivered s.trace ++ (rabbit.view s.shared.broker).messages auditQueue

theorem delivered_append (trace more : MessagingTrace) :
    delivered (trace ++ more) = delivered trace ++ delivered more :=
  List.filterMap_append

theorem publishedTo_append (queue : PyStr) (trace more : MessagingTrace) :
    publishedTo queue (trace ++ more) =
      publishedTo queue trace ++ publishedTo queue more := by
  rw [publishedTo, List.filterMap_append, List.filter_append, List.map_append]
  rfl

theorem messages_start (queue : PyStr) :
    (rabbit.view rabbit.start).messages queue = [] := by
  rw [rabbit.view_start]
  rfl

theorem messagingSound_start : MessagingSound rabbit
    (Threads.start (.empty rabbit) : MessagingRun B F) where
  broker := by
    show BrokerSound (rabbit.view rabbit.start)
    rw [rabbit.view_start]
    exact ⟨fun _ h => (by cases h), fun x hx => hx.elim,
      fun _ h => by cases h⟩
  established i call h := absurd h List.not_mem_nil
  opened i message h := by cases h
  one i j message message' h := by cases h
  held h := by cases h
  tag := rfl
  message message h := by cases h
  tags p hp := absurd hp List.not_mem_nil
  conserved := ⟨fun queue _ => messages_start rabbit queue, by
    show List.Perm [] ((rabbit.view rabbit.start).messages auditQueue)
    rw [messages_start]⟩
  order _ := (messages_start rabbit auditQueue).symm

variable {rabbit} {s : MessagingRun B F} {j : Nat}

/-- The trace after one more call. -/
theorem pastOf_call (i : Nat) (trace : MessagingTrace) (input : Surroundings)
    (e : MessagingEffect) (r : e.Result) :
    Threads.pastOf i (trace ++ [⟨j, input, e, r⟩]) =
      if j = i then Threads.pastOf i trace ++ [⟨e, r⟩]
      else Threads.pastOf i trace := by
  rw [Threads.pastOf_append]
  split
  · next h =>
      subst h
      rw [Threads.pastOf_own ⟨j, input, e, r⟩]
  · next h =>
      rw [Threads.pastOf_other (x := ⟨j, input, e, r⟩) h, List.append_nil]

/-- Where nothing is received and nothing settled, the open messages are the
same. -/
theorem open_call {i : Nat} {message : Nat × List UInt8} {input : Surroundings}
    {e : MessagingEffect} {r : e.Result} (he : e ≠ .receive)
    (h : Open message (Threads.pastOf i (s.trace ++ [⟨j, input, e, r⟩]))) :
    Open message (Threads.pastOf i s.trace) ∧ (settles e = true → j ≠ i) := by
  rw [pastOf_call] at h
  split at h
  · obtain ⟨hopen, hs⟩ := open_before h he
    exact ⟨hopen, fun ht => absurd (hs.symm.trans ht) Bool.false_ne_true⟩
  · next hij => exact ⟨h, fun _ => hij⟩

theorem mem_pastOf_call {i : Nat} {x : (e : MessagingEffect) × e.Result}
    {input : Surroundings} {e : MessagingEffect} {r : e.Result}
    (h : x ∈ Threads.pastOf i (s.trace ++ [⟨j, input, e, r⟩])) :
    x ∈ Threads.pastOf i s.trace ∨ x = ⟨e, r⟩ := by
  rw [pastOf_call] at h
  split at h
  · exact (List.mem_append.mp h).imp_right List.mem_singleton.mp
  · exact .inl h

theorem not_pika {e : MessagingEffect} (he : ∀ call, e ≠ .pika call)
    (trace : MessagingTrace) (input : Surroundings) (r : e.Result)
    (queue : PyStr) : publishedTo queue (trace ++ [⟨j, input, e, r⟩]) =
      publishedTo queue trace := by
  rw [publishedTo_append]
  cases e <;> first | exact List.append_nil _ | exact absurd rfl (he _)

/-- A call after which the broker looks as before, with no message at hand that
was not, and none received or settled. -/
theorem MessagingSound.unchanged (h : MessagingSound rabbit s)
    {input : Surroundings} {e : MessagingEffect} {r : e.Result}
    {shared : Messaging B}
    {threads : List (Thread (MessagingRequest F) MessagingEffect
      MessagingEffect.Result (ServiceExc F) Unit)}
    (hpika : ∀ call, e ≠ .pika call)
    (hopen : ∀ i message,
      Open message (Threads.pastOf i (s.trace ++ [⟨j, input, e, r⟩])) →
        Open message (Threads.pastOf i s.trace))
    (hdelivered : delivered (s.trace ++ [⟨j, input, e, r⟩]) =
      delivered s.trace)
    (hview : rabbit.view shared.broker = rabbit.view s.shared.broker)
    (hcallback : shared.callback = s.shared.callback)
    (htag : shared.deliveryTag = s.shared.deliveryTag)
    (hverdicts : shared.host.verdicts = s.shared.host.verdicts) :
    MessagingSound rabbit (⟨shared, threads, s.trace ++ [⟨j, input, e, r⟩]⟩ :
      MessagingRun B F) := by
  constructor
  · exact hview ▸ h.broker
  · intro i call hmem
    dsimp only
    rw [hview]
    rcases mem_pastOf_call hmem with hmem | hx
    · exact h.established i call hmem
    · exact absurd (congrArg Sigma.fst hx).symm (hpika call)
  · intro i message hm
    exact hcallback.trans (h.opened i message (hopen i message hm))
  · intro i i' message message' hm hm'
    exact h.one i i' message message' (hopen i message hm)
      (hopen i' message' hm')
  · intro hsome
    dsimp only at hsome ⊢
    rw [hcallback] at hsome
    rw [hview]
    exact h.held hsome
  · exact htag.trans (h.tag.trans (congrArg List.length hdelivered.symm))
  · intro message hm
    rw [hdelivered]
    exact h.message message (hcallback.symm.trans hm)
  · intro p hp
    rw [hdelivered]
    exact h.tags p (hverdicts ▸ hp)
  · refine ⟨fun queue hq => ?_, ?_⟩
    · rw [not_pika hpika, hview]
      exact h.conserved.unread queue hq
    · rw [not_pika hpika, hdelivered, hverdicts, hview, inFlight, hcallback]
      exact h.conserved.audit
  · intro hacks
    rw [not_pika hpika, hdelivered, hview]
    exact h.order (hverdicts ▸ hacks)

/-- A call that is none to the broker, receives nothing and settles nothing. -/
theorem MessagingSound.quiet (h : MessagingSound rabbit s) {input : Surroundings}
    {e : MessagingEffect} {r : e.Result} {shared : Messaging B}
    {threads : List (Thread (MessagingRequest F) MessagingEffect
      MessagingEffect.Result (ServiceExc F) Unit)}
    (hpika : ∀ call, e ≠ .pika call) (hreceive : e ≠ .receive)
    (hbroker : shared.broker = s.shared.broker)
    (hcallback : shared.callback = s.shared.callback)
    (htag : shared.deliveryTag = s.shared.deliveryTag)
    (hverdicts : shared.host.verdicts = s.shared.host.verdicts) :
    MessagingSound rabbit (⟨shared, threads, s.trace ++ [⟨j, input, e, r⟩]⟩ :
      MessagingRun B F) := by
  have hdelivered : delivered (s.trace ++ [⟨j, input, e, r⟩]) =
      delivered s.trace := by
    rw [delivered_append]
    cases e <;> first | exact List.append_nil _ | exact absurd rfl hreceive
  exact h.unchanged hpika (fun i message hm => (open_call hreceive hm).1)
    hdelivered (congrArg rabbit.view hbroker) hcallback htag hverdicts

variable (rabbit) in
/-- What a call to the broker leaves of it: nothing happened, or the call
arrived. -/
theorem callPika_cases (fate : Fate) (call : PikaCall) (s : Messaging B) :
    (callPika rabbit fate call s).2 = s ∧ Fate.arrives fate = false ∧
      (callPika rabbit fate call s).1 ≠ .ok () ∨
    (callPika rabbit fate call s).2 =
        { s with broker := (rabbit.call call s.broker).2 } ∧
      Fate.arrives fate = true ∧ ((callPika rabbit fate call s).1 = .ok () →
        (rabbit.call call s.broker).1 = .ok ()) := by
  cases fate with
  | answered => exact .inr ⟨rfl, rfl, fun h => h⟩
  | lost error => exact .inl ⟨rfl, rfl, fun h => by cases h⟩
  | unanswered error => exact .inr ⟨rfl, rfl, fun h => by cases h⟩

/-- A call to the broker, whatever it leaves of it. -/
theorem MessagingSound.pika (h : MessagingSound rabbit s) {input : Surroundings}
    {call : PikaCall} {r : Except PikaError Unit} {broker : B}
    {threads : List (Thread (MessagingRequest F) MessagingEffect
      MessagingEffect.Result (ServiceExc F) Unit)}
    (hsound : BrokerSound (rabbit.view broker))
    (hconsumer : s.shared.callback.isSome →
      (rabbit.view broker).consumer = some auditQueue)
    (hgrows : Grows (rabbit.view s.shared.broker) (rabbit.view broker))
    (hr : r = .ok () → Established (rabbit.view broker) call)
    (hmessages : ∀ queue, (rabbit.view broker).messages queue =
      (rabbit.view s.shared.broker).messages queue ++ publishedTo queue
        [⟨j, input, .pika call, r⟩]) :
    MessagingSound rabbit (⟨{ s.shared with broker }, threads,
      s.trace ++ [⟨j, input, .pika call, r⟩]⟩ : MessagingRun B F) := by
  have hdelivered : delivered (s.trace ++ [⟨j, input, .pika call, r⟩]) =
      delivered s.trace := by
    rw [delivered_append]
    exact List.append_nil _
  have hreceive : MessagingEffect.pika call ≠ .receive := by
    intro he
    cases he
  constructor
  · exact hsound
  · intro i declared hmem
    rcases mem_pastOf_call hmem with hmem | hx
    · exact (h.established i declared hmem).mono hgrows
    · cases hx
      exact hr rfl
  · intro i message hopen
    exact h.opened i message (open_call hreceive hopen).1
  · intro i i' message message' hopen hopen'
    exact h.one i i' message message' (open_call hreceive hopen).1
      (open_call hreceive hopen').1
  · exact hconsumer
  · rw [hdelivered]
    exact h.tag
  · rw [hdelivered]
    exact h.message
  · rw [hdelivered]
    exact h.tags
  · refine ⟨fun queue hq => ?_, ?_⟩
    · rw [publishedTo_append, hmessages, h.conserved.unread queue hq]
    · rw [publishedTo_append, hdelivered, hmessages, ← List.append_assoc]
      exact h.conserved.audit.append_right _
  · intro hacks
    rw [publishedTo_append, hdelivered, hmessages, ← List.append_assoc,
      h.order hacks]

theorem PlainCall.not_published {call : PikaCall} (h : PlainCall call)
    (queue : PyStr) (input : Surroundings) (r : Except PikaError Unit) :
    publishedTo queue [⟨j, input, .pika call, r⟩] = [] := by
  rcases h.cases with rfl | rfl | rfl | ⟨q, hq, rfl⟩ |
    ⟨q, hq, key, hkey, rfl⟩ | rfl | rfl | rfl
  all_goals rfl

variable (rabbit) in
/-- The library calls back with the first message of the queue, or the broker
looks as it did. -/
theorem receiveMessage_cases (s : Messaging B) :
    (∃ broker, rabbit.view broker = rabbit.view s.broker ∧
      receiveMessage rabbit s = (none, { s with broker := broker })) ∨
    s.callback = none ∧ ∃ queue body rest broker,
      (rabbit.view s.broker).consumer = some queue ∧
      (rabbit.view s.broker).queue queue = some (body :: rest) ∧
      rabbit.view broker = (rabbit.view s.broker).setMessages queue rest ∧
      receiveMessage rabbit s = (some (s.deliveryTag, body), { s with
        broker := broker
        callback := some (s.deliveryTag, body)
        deliveryTag := s.deliveryTag + 1 }) := by
  have hdelivers := rabbit.deliver_first s.broker
  rw [receiveMessage]
  split
  · next hconsuming hcallback =>
      split
      · next broker hdeliver =>
          rw [hdeliver] at hdelivers
          refine .inl ⟨broker, ?_, rfl⟩
          generalize hv : rabbit.view broker = v at hdelivers ⊢
          cases hdelivers
          rfl
      · next body broker hdeliver =>
          rw [hdeliver] at hdelivers
          refine .inr ⟨hcallback, ?_⟩
          dsimp only at hdelivers
          generalize hv : rabbit.view broker = v at hdelivers
          cases hdelivers with
          | @first queue _ rest hc hq =>
              exact ⟨queue, body, rest, broker, hc, hq, hv, rfl⟩
  · exact .inl ⟨s.broker, rfl, rfl⟩

theorem receive_ne_pika (call : PikaCall) :
    MessagingEffect.receive ≠ .pika call := by
  intro he
  cases he

/-- What is at hand after a round has asked for its message is that message,
or was at hand before. -/
theorem open_received {input : Surroundings}
    {answer : Option (Nat × List UInt8)}
    (hpast : Threads.pastOf j s.trace = []) {i : Nat}
    {message : Nat × List UInt8} (h : Open message (Threads.pastOf i
      (s.trace ++ [⟨j, input, .receive, answer⟩]))) :
    j = i ∧ answer = some message ∨ Open message (Threads.pastOf i s.trace) := by
  rw [pastOf_call] at h
  split at h
  · next hij =>
      subst hij
      rw [hpast] at h
      cases open_head h
      exact .inl ⟨rfl, rfl⟩
  · exact .inr h

/-- The library calls back with the first message of the queue. -/
theorem MessagingSound.first (h : MessagingSound rabbit s)
    {input : Surroundings} {shared : Messaging B}
    {threads : List (Thread (MessagingRequest F) MessagingEffect
      MessagingEffect.Result (ServiceExc F) Unit)}
    {body : List UInt8} {rest : List (List UInt8)}
    (hpast : Threads.pastOf j s.trace = []) (hnone : s.shared.callback = none)
    (hconsumer : (rabbit.view s.shared.broker).consumer = some auditQueue)
    (hmessages : (rabbit.view s.shared.broker).messages auditQueue =
      body :: rest)
    (hview : rabbit.view shared.broker =
      (rabbit.view s.shared.broker).setMessages auditQueue rest)
    (hcallback : shared.callback = some (s.shared.deliveryTag, body))
    (htag : shared.deliveryTag = s.shared.deliveryTag + 1)
    (hverdicts : shared.host.verdicts = s.shared.host.verdicts) :
    MessagingSound rabbit (⟨shared, threads, s.trace ++ [⟨j, input, .receive,
      some (s.shared.deliveryTag, body)⟩]⟩ : MessagingRun B F) := by
  have hdelivered : delivered (s.trace ++ [⟨j, input, .receive,
      some (s.shared.deliveryTag, body)⟩]) = delivered s.trace ++ [body] :=
    delivered_append _ _
  -- Nothing was at hand before.
  have hopen : ∀ i message, Open message (Threads.pastOf i (s.trace ++
      [⟨j, input, .receive, some (s.shared.deliveryTag, body)⟩])) →
      j = i ∧ message = (s.shared.deliveryTag, body) := by
    intro i message hm
    rcases open_received hpast hm with ⟨hij, hmessage⟩ | hm
    · cases hmessage
      exact ⟨hij, rfl⟩
    · cases hnone.symm.trans (h.opened i message hm)
  constructor
  · dsimp only
    rw [hview]
    exact sound_setMessages h.broker auditQueue rest
  · intro i call hmem
    dsimp only
    rw [hview]
    rcases mem_pastOf_call hmem with hmem | hx
    · exact (h.established i call hmem).mono (grows_setMessages _ _ _)
    · exact absurd (congrArg Sigma.fst hx).symm (receive_ne_pika call)
  · intro i message hm
    rw [(hopen i message hm).2]
    exact hcallback
  · intro i i' message message' hm hm'
    exact (hopen i message hm).1.symm.trans (hopen i' message' hm').1
  · intro _
    dsimp only
    rw [hview]
    exact hconsumer
  · dsimp only
    rw [htag, hdelivered, h.tag, List.length_append, List.length_singleton]
  · intro message hm
    cases hcallback.symm.trans hm
    rw [hdelivered, h.tag, List.getElem?_append_right (Nat.le_refl _),
      Nat.sub_self]
    rfl
  · intro p hp
    have hlt := h.tags p (hverdicts ▸ hp)
    rw [hdelivered, List.length_append]
    omega
  · refine ⟨fun queue hq => ?_, ?_⟩
    · rw [not_pika receive_ne_pika]
      dsimp only
      rw [hview, messages_setMessages, if_neg (Ne.symm hq)]
      exact h.conserved.unread queue hq
    · have haudit := h.conserved.audit
      rw [inFlight, hnone, hmessages, List.append_assoc] at haudit
      rw [not_pika receive_ne_pika, hdelivered, hverdicts, inFlight, hcallback,
        hview, messages_setMessages, if_pos rfl, ackedOf_delivered h.tags,
        List.append_assoc]
      exact haudit
  · intro hacks
    rw [not_pika receive_ne_pika, hdelivered]
    dsimp only
    rw [hview, messages_setMessages, if_pos rfl, h.order (hverdicts ▸ hacks),
      hmessages, List.append_assoc]
    rfl

theorem MessagingSound.receive (h : MessagingSound rabbit s)
    {input : Surroundings}
    {threads : List (Thread (MessagingRequest F) MessagingEffect
      MessagingEffect.Result (ServiceExc F) Unit)}
    (hpast : Threads.pastOf j s.trace = []) :
    MessagingSound rabbit (⟨(receiveMessage rabbit s.shared).2, threads,
      s.trace ++ [⟨j, input, .receive, (receiveMessage rabbit s.shared).1⟩]⟩ :
      MessagingRun B F) := by
  rcases receiveMessage_cases rabbit s.shared with ⟨broker, hview, hnone⟩ |
    ⟨hcallback, queue, body, rest, broker, hconsumer, hqueue, hview, hsome⟩
  · rw [hnone]
    refine h.unchanged receive_ne_pika (fun i message hm => ?_) ?_ hview
      rfl rfl rfl
    · rcases open_received hpast hm with ⟨-, hmessage⟩ | hm
      · cases hmessage
      · exact hm
    · rw [delivered_append]
      exact List.append_nil _
  · rw [hsome]
    have haudit : queue = auditQueue := (h.broker.consumer queue hconsumer).1
    subst haudit
    have hmessages : (rabbit.view s.shared.broker).messages auditQueue =
        body :: rest := by
      rw [BrokerView.messages, hqueue]
      rfl
    exact h.first hpast hcallback hconsumer hmessages hview rfl rfl rfl

/-- A message that is settled is closed, and with it every message. -/
theorem MessagingSound.settled (h : MessagingSound rabbit s)
    {input : Surroundings}
    {e : ConsumerEffect} {r : e.Result} {shared : Messaging B}
    {threads : List (Thread (MessagingRequest F) MessagingEffect
      MessagingEffect.Result (ServiceExc F) Unit)}
    {message : Nat × List UInt8} (verdict : Verdict)
    (hopen : Open message (Threads.pastOf j s.trace))
    (he : settles (.host e) = true)
    (hsound : BrokerSound (rabbit.view shared.broker))
    (hgrows : Grows (rabbit.view s.shared.broker) (rabbit.view shared.broker))
    (hunread : ∀ queue, queue ≠ auditQueue →
      (rabbit.view shared.broker).messages queue =
        (rabbit.view s.shared.broker).messages queue)
    (hcallback : shared.callback = none)
    (htag : shared.deliveryTag = s.shared.deliveryTag)
    (hverdicts : shared.host.verdicts =
      s.shared.host.verdicts ++ [(message.1, verdict)])
    (hmessages :
      ((rabbit.view s.shared.broker).messages auditQueue ++ [message.2]).Perm
        ((if verdict = .ack then [message.2] else []) ++
          (rabbit.view shared.broker).messages auditQueue))
    (hacked : verdict = .ack → (rabbit.view shared.broker).messages auditQueue =
      (rabbit.view s.shared.broker).messages auditQueue) :
    MessagingSound rabbit (⟨shared, threads,
      s.trace ++ [⟨j, input, .host e, r⟩]⟩ : MessagingRun B F) := by
  have hheld : s.shared.callback = some message := h.opened j message hopen
  have hpika : ∀ call, MessagingEffect.host e ≠ .pika call := by
    intro call he
    cases he
  have hreceive : MessagingEffect.host e ≠ .receive := by
    intro he
    cases he
  have hdelivered : delivered (s.trace ++ [⟨j, input, .host e, r⟩]) =
      delivered s.trace := by
    rw [delivered_append]
    exact List.append_nil _
  have hbody := h.message message hheld
  have hclosed : ∀ i message', ¬ Open message' (Threads.pastOf i
      (s.trace ++ [⟨j, input, .host e, r⟩])) := by
    intro i message' hm
    obtain ⟨hm, hij⟩ := open_call hreceive hm
    exact hij he (h.one j i _ _ hopen hm)
  constructor
  · exact hsound
  · intro i call hmem
    rcases mem_pastOf_call hmem with hmem | hx
    · exact (h.established i call hmem).mono hgrows
    · exact absurd (congrArg Sigma.fst hx).symm (hpika call)
  · intro i message' hm
    exact absurd hm (hclosed i message')
  · intro i i' message' message'' hm
    exact absurd hm (hclosed i message')
  · intro hsome
    dsimp only at hsome
    rw [hcallback] at hsome
    cases hsome
  · rw [hdelivered]
    exact htag.trans h.tag
  · intro message' hm
    cases hcallback.symm.trans hm
  · rw [hdelivered, hverdicts]
    exact tags_append hbody h.tags verdict
  · refine ⟨fun queue hq => ?_, ?_⟩
    · rw [not_pika hpika, hunread queue hq]
      exact h.conserved.unread queue hq
    · have haudit := h.conserved.audit
      rw [inFlight, hheld] at haudit
      rw [not_pika hpika, hdelivered, hverdicts, inFlight, hcallback]
      have happended : ackedOf (delivered s.trace) (s.shared.host.verdicts ++
          [(message.1, verdict)]) = ackedOf (delivered s.trace)
            s.shared.host.verdicts ++
              if verdict = .ack then [message.2] else [] := by
        cases verdict with
        | ack => exact ackedOf_ack hbody _
        | nack => exact (ackedOf_nack _ _).trans (List.append_nil _).symm
      rw [happended]
      refine haudit.trans ?_
      rw [List.append_assoc, List.append_assoc, List.append_assoc]
      refine List.Perm.append_left _ (List.perm_append_comm.trans ?_)
      exact hmessages
  · intro hacks
    rw [hverdicts, List.forall_mem_append, List.forall_mem_singleton] at hacks
    rw [not_pika hpika, hdelivered, hacked hacks.2]
    exact h.order hacks.1

variable (rabbit) in
/-- A message that is sent back is in the audit queue again. -/
theorem requeue_audit {b : B} (hb : BrokerSound (rabbit.view b))
    (hc : (rabbit.view b).consumer = some auditQueue) (place : Nat)
    (body : List UInt8) : ∃ bodies,
      bodies.Perm (body :: (rabbit.view b).messages auditQueue) ∧
      rabbit.view (rabbit.requeue place body b) =
        (rabbit.view b).setMessages auditQueue bodies := by
  obtain ⟨old, hqueue⟩ := Option.isSome_iff_exists.mp (hb.consumer _ hc).2
  obtain ⟨bodies, hperm, hview⟩ :=
    rabbit.requeue_back place body b auditQueue old hc hqueue
  refine ⟨bodies, ?_, hview⟩
  rw [BrokerView.messages, hqueue]
  exact hperm

theorem MessagingSound.host (h : MessagingSound rabbit s) {input : Surroundings}
    {e : ConsumerEffect}
    {threads : List (Thread (MessagingRequest F) MessagingEffect
      MessagingEffect.Result (ServiceExc F) Unit)}
    {message : Nat × List UInt8}
    (hopen : Open message (Threads.pastOf j s.trace))
    (he : CallbackCall message.1 e) :
    MessagingSound rabbit (⟨(callMessaging rabbit input (.host e) s.shared).2,
      threads, s.trace ++ [⟨j, input, .host e,
        (callMessaging rabbit input (.host e) s.shared).1⟩]⟩ :
      MessagingRun B F) := by
  have hheld : s.shared.callback = some message := h.opened j message hopen
  have hquiet : settle rabbit input.place
      { s.shared with host := (callHost e s.shared.host).2 } e =
        { s.shared with host := (callHost e s.shared.host).2 } →
      (callHost e s.shared.host).2.verdicts = s.shared.host.verdicts →
      MessagingSound rabbit (⟨(callMessaging rabbit input (.host e) s.shared).2,
        threads, s.trace ++ [⟨j, input, .host e,
          (callMessaging rabbit input (.host e) s.shared).1⟩]⟩ :
        MessagingRun B F) := by
    intro hs hv
    refine h.quiet (fun _ hc => by cases hc) (fun hc => by cases hc) ?_ ?_ ?_ ?_
    all_goals rw [callMessaging, hs]
    exact hv
  cases e with
  | ack tag =>
      have htag : tag = message.1 := he
      subst htag
      refine h.settled .ack hopen rfl h.broker (.refl _)
        (fun _ _ => rfl) rfl rfl rfl ?_ fun _ => rfl
      exact List.perm_append_comm
  | nack tag again =>
      obtain ⟨rfl, rfl⟩ := he
      have hconsumer := h.held (hheld ▸ rfl)
      have hsettle : (callMessaging rabbit input (.host (.nack message.1 true))
          s.shared).2 = { s.shared with
            broker := rabbit.requeue input.place message.2 s.shared.broker
            host := { s.shared.host with
              verdicts := s.shared.host.verdicts ++ [(message.1, .nack)] }
            callback := none } := by
        rw [callMessaging, settle]
        dsimp only
        rw [hheld]
        rfl
      obtain ⟨bodies, hperm, hview⟩ :=
        requeue_audit rabbit h.broker hconsumer input.place message.2
      rw [hsettle]
      refine h.settled .nack hopen rfl ?_ ?_ (fun queue hq => ?_) rfl rfl rfl ?_
        fun hv => by cases hv
      · rw [hview]
        exact sound_setMessages h.broker auditQueue bodies
      · rw [hview]
        exact grows_setMessages _ _ _
      · rw [hview, messages_setMessages, if_neg (Ne.symm hq)]
      · rw [hview, messages_setMessages, if_pos rfl, if_neg (by decide),
          List.nil_append]
        exact List.perm_append_comm.trans hperm.symm
  | exists_ => exact hquiet rfl rfl
  | read => exact hquiet rfl rfl
  | mkdir => exact hquiet rfl rfl
  | openWrite => exact hquiet rfl rfl
  | write bytes => exact hquiet rfl rfl
  | close => exact hquiet rfl rfl
  | print text => exact hquiet rfl rfl

/-- A call that does not arrive publishes nothing. -/
theorem lost_call (queue : PyStr) {call : PikaCall} {input : Surroundings}
    (hfate : Fate.arrives input.fate = false) (r : Except PikaError Unit) :
    publishedTo queue [⟨j, input, .pika call, r⟩] = [] := by
  cases call <;> simp [publishedTo, arrival?, hfate]

theorem arrived_call (queue key : PyStr) (body : List UInt8)
    {input : Surroundings} (hfate : Fate.arrives input.fate = true)
    (r : Except PikaError Unit) : publishedTo queue [⟨j, input,
      .pika (.basicPublish exchangeName key body eventProperties), r⟩] =
        if Wants queue key then [body] else [] := by
  by_cases hw : Wants queue key
  · simp [publishedTo, arrival?, hfate, hw]
  · simp [publishedTo, arrival?, hfate, hw]

theorem MessagingSound.call (h : MessagingSound rabbit s)
    {request : MessagingRequest F} {e : MessagingEffect}
    (he : Calls python request (Threads.pastOf j s.trace) e)
    (input : Surroundings)
    (threads : List (Thread (MessagingRequest F) MessagingEffect
      MessagingEffect.Result (ServiceExc F) Unit)) :
    MessagingSound rabbit (⟨(callMessaging rabbit input e s.shared).2, threads,
      s.trace ++ [⟨j, input, e, (callMessaging rabbit input e s.shared).1⟩]⟩ :
      MessagingRun B F) := by
  have hquiet : (∀ call, e ≠ .pika call) → e ≠ .receive →
      (callMessaging rabbit input e s.shared).2.broker = s.shared.broker →
      (callMessaging rabbit input e s.shared).2.callback = s.shared.callback →
      (callMessaging rabbit input e s.shared).2.deliveryTag =
        s.shared.deliveryTag →
      (callMessaging rabbit input e s.shared).2.host.verdicts =
        s.shared.host.verdicts →
      MessagingSound rabbit (⟨(callMessaging rabbit input e s.shared).2, threads,
        s.trace ++ [⟨j, input, e, (callMessaging rabbit input e s.shared).1⟩]⟩ :
        MessagingRun B F) := h.quiet
  cases e with
  | pika call =>
      have hmove := callPika_cases rabbit input.fate call s.shared
      rcases hmove with ⟨hs, hfate, hr⟩ | ⟨hs, hfate, hr⟩
      · have hlost : ∀ queue, publishedTo queue [⟨j, input, .pika call,
            (callMessaging rabbit input (.pika call) s.shared).1⟩] = [] :=
          fun queue => lost_call queue hfate _
        rw [callMessaging, hs]
        exact h.pika h.broker h.held (.refl _) (fun hok => absurd hok hr)
          fun queue => by rw [← callMessaging, hlost, List.append_nil]
      · rw [callMessaging, hs]
        rcases calls_pika python he with hplain | ⟨⟨key, body, rfl⟩, hall⟩
        · have hamqp := rabbit.call_amqp call s.shared.broker hplain.made
          refine h.pika (sound_amqp h.broker hplain hamqp)
            (fun hsome => consumer_amqp hplain hamqp (h.held hsome))
            (grows_amqp hamqp) (fun hok => established_amqp (hr hok ▸ hamqp))
            fun queue => ?_
          rw [messages_amqp hplain hamqp, hplain.not_published, List.append_nil]
        · have hdeclared : ∀ declared ∈ topologyCalls,
              Established (rabbit.view s.shared.broker) declared :=
            fun declared hd => h.established j declared (hall declared hd)
          have hamqp := rabbit.call_amqp (.basicPublish exchangeName key body
            eventProperties) s.shared.broker rfl
          obtain ⟨hsound, hconsumer⟩ := sound_publish h.broker hamqp
          refine h.pika hsound (fun hsome => hconsumer.trans (h.held hsome))
            (grows_amqp hamqp) (fun hok => established_amqp (hr hok ▸ hamqp))
            fun queue => ?_
          rw [messages_publish h.broker hdeclared hamqp,
            arrived_call queue key body hfate]
  | receive => exact h.receive (calls_receive python he)
  | host e =>
      obtain ⟨message, hopen, hc⟩ := calls_host python he
      exact h.host hopen hc
  | _ =>
      exact hquiet (fun _ hc => by cases hc) (fun hc => by cases hc) rfl rfl rfl
        rfl

variable (rabbit)

theorem messaging_follows (events : List (MessagingEvent F)) :
    Threads.Follows (Calls python) (Ends python)
      (messaging rabbit python events) :=
  Threads.run_along (along_messagingBody python) _ _

theorem messagingSound_run (events : List (MessagingEvent F)) :
    MessagingSound rabbit (messaging rabbit python events) := by
  induction events using List.reverseRecOn with
  | nil => exact messagingSound_start rabbit
  | append_singleton events event ih =>
      have hfollows := messaging_follows rabbit python events
      rw [messaging, Threads.after_concat, ← messaging]
      cases event with
      | start request =>
          exact ⟨ih.broker, ih.established, ih.opened, ih.one, ih.held, ih.tag,
            ih.message, ih.tags, ⟨ih.conserved.unread, ih.conserved.audit⟩,
            ih.order⟩
      | step j input =>
          rcases Threads.step_cases (messagingBody python)
            (callMessaging rabbit) (messaging rabbit python events) j input
            with hs | ⟨request, e, k, hj, hs⟩
          · rw [hs]
            exact ih
          · rw [hs]
            exact ih.call python (hfollows.threads j _ hj).1 input _

/-! ## The results -/

/-- Every call of every process is the next of its script, and a process that
is done ended as its script says. -/
theorem processes_keep_to_scripts (events : List (MessagingEvent F)) :
    let s := messaging rabbit python events
    (∀ before x later, s.trace = before ++ x :: later →
      ∃ request, s.requests[x.thread]? = some request ∧
        Calls python request (Threads.pastOf x.thread before) x.effect) ∧
    ∀ i th out, s.threads[i]? = some th → th.rest.outcome? = some out →
      Ends python th.request (Threads.pastOf i s.trace) out := by
  have h := messaging_follows rabbit python events
  exact ⟨h.calls, fun i th out hi hout => h.outcome hi hout⟩

/-- Whatever calls fail and however the processes come in each other's way, no
message is lost and none is there twice. -/
theorem messages_conserved (events : List (MessagingEvent F)) :
    Conserved rabbit (messaging rabbit python events) :=
  (messagingSound_run rabbit python events).conserved

end TaxiService.Proofs
