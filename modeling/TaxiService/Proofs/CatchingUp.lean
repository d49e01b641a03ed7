import TaxiService.Proofs.EndToEnd

/-!
# The consumer can always catch up

Whatever has happened, the consumer by itself gets to the end of its queue, if
from now on its calls are answered. A callback that is on its way is run to its
end. A consumer that does not consume is started. Then each round takes one
message out of the queue. Each of these is one thread that moves alone
(`Threads.run_alone`), so its part of the run is a run of its program.
-/

namespace TaxiService.Proofs

open TaxiService.Lib TaxiService.Model TaxiService.Spec

variable {B F : Type} (rabbit : Rabbit B) (python : Python F)

/-! ## The consumer alone -/

/-- Only the consumer moves, and nothing more is published. -/
structure Continues (events more : List (MessagingEvent F)) : Prop where
  consumer : ∀ event ∈ more,
    OfConsumer (messaging rabbit python (events ++ more)).requests event
  published :
    publishedTo auditQueue (messaging rabbit python (events ++ more)).trace =
      publishedTo auditQueue (messaging rabbit python events).trace

section

variable {rabbit} {python} {events more later : List (MessagingEvent F)}

theorem ofConsumer_mono {requests requests' : List (MessagingRequest F)}
    {event : MessagingEvent F} (h : OfConsumer requests event)
    (hle : requests <+: requests') : OfConsumer requests' event := by
  obtain ⟨new, rfl⟩ := hle
  cases event with
  | start request => exact h
  | step i input =>
      refine h.imp (fun hi => ?_) fun hi => ?_
      all_goals exact (List.getElem?_append_left
        (List.getElem?_eq_some_iff.mp hi).1).trans hi

theorem Continues.refl : Continues rabbit python events [] where
  consumer event h := absurd h List.not_mem_nil
  published := by rw [List.append_nil]

theorem Continues.trans (h : Continues rabbit python events more)
    (h' : Continues rabbit python (events ++ more) later) :
    Continues rabbit python events (more ++ later) := by
  have hlater := Threads.later_run (messagingBody python)
    (callMessaging rabbit) (.empty rabbit) (events ++ more) later
  refine ⟨fun event hevent => ?_, ?_⟩
  · rw [← List.append_assoc]
    rcases List.mem_append.mp hevent with hevent | hevent
    · exact ofConsumer_mono (h.consumer event hevent) hlater.requests
    · exact h'.consumer event hevent
  · rw [← List.append_assoc, h'.published, h.published]

/-- Its requests are always acceptable. -/
theorem Continues.acceptable (h : Continues rabbit python events more)
    (hok : ∀ request ∈ (messaging rabbit python events).requests,
      AcceptableRequest python request) :
    ∀ request ∈ (messaging rabbit python (events ++ more)).requests,
      AcceptableRequest python request := by
  intro request hrequest
  rw [messaging, Threads.after, run_append] at hrequest
  rcases Threads.requests_run (messagingBody python)
    (callMessaging rabbit) _ more hrequest with hr | hr
  · exact hok request hr
  · rcases h.consumer _ hr with rfl | rfl
    · trivial
    · trivial

/-- A process of the consumer publishes nothing. -/
theorem not_publish {request : MessagingRequest F} {past : MessagingPast}
    {e : MessagingEffect} (h : Calls python request past e)
    (hrequest : request = .consumer ∨ request = .round) :
    ∀ exchange key body properties,
      e ≠ .pika (.basicPublish exchange key body properties) := by
  rintro exchange key body properties rfl
  obtain ⟨payload, millis, utcNow, -, hfrom, -⟩ := calls_publication python h
  rcases hfrom with rfl | ⟨args, entries, rfl, -⟩
  · rcases hrequest with h | h <;> cases h
  · rcases hrequest with h | h <;> cases h

/-- One process of the consumer is run to its end. -/
theorem continues_alone {i : Nat} {request : MessagingRequest F}
    {p : Messenger F Unit}
    (hi : (messaging rabbit python events).threads[i]? = some ⟨request, p⟩)
    (hrequest : request = .consumer ∨ request = .round) (input : Surroundings) :
    ∃ n, Continues rabbit python events (List.replicate n (.step i input)) ∧
      (messaging rabbit python
        (events ++ List.replicate n (.step i input))).shared =
        (p.run (callMessaging rabbit input)
          (messaging rabbit python events).shared).2 := by
  obtain ⟨n, more, hmore, hrun⟩ := Threads.run_alone (messagingBody python)
    (callMessaging rabbit) hi input
  have hnext :
      messaging rabbit python (events ++ List.replicate n (.step i input)) =
      ⟨(p.run (callMessaging rabbit input)
          (messaging rabbit python events).shared).2,
        (messaging rabbit python events).threads.set i ⟨request, .ofExcept
          (p.run (callMessaging rabbit input)
            (messaging rabbit python events).shared).1⟩,
        (messaging rabbit python events).trace ++ more⟩ := by
    rw [messaging, Threads.after, run_append]
    exact hrun
  have hrequests : (messaging rabbit python (events ++
      List.replicate n (.step i input))).requests[i]? = some request := by
    rw [hnext, Threads.requests, Threads.requests_set hi, List.getElem?_map, hi]
    rfl
  refine ⟨n, ⟨fun event hevent => ?_, ?_⟩, by rw [hnext]⟩
  · rw [List.eq_of_mem_replicate hevent]
    show _ = _ ∨ _ = _
    rw [hrequests]
    exact hrequest.imp (congrArg some) (congrArg some)
  · have hfollows := messaging_follows rabbit python
      (events ++ List.replicate n (.step i input))
    have hnone : publishedTo auditQueue more = [] := by
      have harrivals : more.filterMap arrival? = [] := by
        refine List.filterMap_eq_nil_iff.mpr fun x hx => ?_
        obtain ⟨before, after, rfl⟩ := List.append_of_mem hx
        obtain ⟨request', hrequest', hcalls⟩ := hfollows.calls
          ((messaging rabbit python events).trace ++ before) x after
          (by rw [hnext, List.append_assoc])
        rw [hmore x hx] at hrequest'
        cases hrequests.symm.trans hrequest'
        rw [arrival?]
        split
        · next exchange key body properties heffect =>
            exact absurd heffect (not_publish hcalls hrequest _ _ _ _)
        · rfl
      rw [publishedTo, harrivals]
      rfl
    rw [hnext, publishedTo_append, hnone, List.append_nil]

end

/-! ## A callback -/

theorem verdicts_grow {α : Type} (p : Consumer F α) (host : Host) :
    host.verdicts <+: (p.run callHost host).2.verdicts := by
  have h := run_verdicts p { host with verdicts := [] } host.verdicts
  rw [List.append_nil] at h
  rw [h]
  exact List.prefix_append _ _

/-- A callback that sends nothing back leaves the broker alone, and its message
settled if it gave a verdict. -/
theorem run_callbackOf (q : Consumer F Unit) (input : Surroundings)
    (s : Messaging B)
    (hacks : ∀ p ∈ (q.run callHost s.host).2.verdicts, p.2 = .ack) :
    ∃ callback, ((callbackOf q).run (callMessaging rabbit input) s).2 =
        { s with host := (q.run callHost s.host).2, callback := callback } ∧
      (callback = none ∨ (callback = s.callback ∧
        (q.run callHost s.host).2.verdicts = s.host.verdicts)) := by
  induction q generalizing s with
  | pure a => exact ⟨s.callback, rfl, .inr ⟨rfl, rfl⟩⟩
  | throw x => exact ⟨s.callback, rfl, .inr ⟨rfl, rfl⟩⟩
  | op e k ih =>
      have hquiet : settle rabbit input.place
            { s with host := (callHost e s.host).2 } e =
          { s with host := (callHost e s.host).2 } →
          (callHost e s.host).2.verdicts = s.host.verdicts →
          ∃ callback,
            ((callbackOf (.op e k)).run (callMessaging rabbit input) s).2 =
              { s with
                host := ((Prog.op e k).run callHost s.host).2
                callback := callback } ∧
            (callback = none ∨ (callback = s.callback ∧
              ((Prog.op e k).run callHost s.host).2.verdicts =
                s.host.verdicts)) := by
        intro hsettle hv
        have hrun : (callbackOf (.op e k)).run (callMessaging rabbit input) s =
            (callbackOf (k (callHost e s.host).1)).run
              (callMessaging rabbit input)
              { s with host := (callHost e s.host).2 } := by
          rw [← hsettle]
          rfl
        rw [hrun, Prog.run_op, ← hv]
        exact ih _ _ hacks
      cases e with
      | ack tag =>
          obtain ⟨callback, hrun, hcallback⟩ := ih ()
            { s with host := (callHost (.ack tag) s.host).2, callback := none }
            hacks
          refine ⟨callback, hrun, .inl ?_⟩
          exact hcallback.elim id fun h => h.1
      | nack tag again =>
          have hmem := (verdicts_grow (k ()) (callHost (.nack tag again)
            s.host).2).subset (List.mem_append_right _
              (List.mem_singleton_self (tag, Verdict.nack)))
          cases hacks _ hmem
      | exists_ => exact hquiet rfl rfl
      | read => exact hquiet rfl rfl
      | mkdir => exact hquiet rfl rfl
      | openWrite => exact hquiet rfl rfl
      | write bytes => exact hquiet rfl rfl
      | close => exact hquiet rfl rfl
      | print text => exact hquiet rfl rfl

theorem acks_injective {m n : Nat} (h : acks m = acks n) : m = n := by
  simpa [acks] using congrArg List.length h

theorem rests_acks {host : Host} {bodies : List (List UInt8)}
    (h : Rests python host bodies) : host.verdicts = acks bodies.length ∧
      ∀ p ∈ host.verdicts, p.2 = .ack := by
  obtain ⟨disk, m, rfl, -⟩ := h
  refine ⟨rfl, fun p hp => ?_⟩
  obtain ⟨n, -, rfl⟩ := List.mem_map.mp hp
  rfl

/-- Surroundings in which calls are answered. -/
def calm : Surroundings := ⟨0, [], .answered, 0⟩

section

variable {rabbit} {python} {events : List (MessagingEvent F)}

variable (python) in
theorem calls_host_round {request : MessagingRequest F} {past : MessagingPast}
    {e : ConsumerEffect} (h : Calls python request past (.host e)) :
    request = .round := by
  cases request with
  | publish eventType payload =>
      cases h with
      | connecting hc => cases hc
  | produce args =>
      obtain ⟨payload, -, h⟩ := h
      cases h with
      | connecting hc => cases hc
  | consumer =>
      cases h with
      | connecting hc => cases hc
  | round => rfl

/-- A callback that is on its way is run to its end. -/
theorem continues_settled
    (hok : ∀ request ∈ (messaging rabbit python events).requests,
      AcceptableRequest python request) :
    ∃ more, Continues rabbit python events more ∧
      (messaging rabbit python (events ++ more)).shared.callback = none := by
  cases hcallback : (messaging rabbit python events).shared.callback with
  | none => exact ⟨[], .refl, by rw [List.append_nil, hcallback]⟩
  | some message =>
      obtain ⟨hverdicts, hlen, i, ⟨request, rest⟩, q, host, hi, -, rfl, hrun,
        hrests⟩ := (underway_run rabbit python events hok).busy message hcallback
      obtain ⟨hacks, hack⟩ := rests_acks python hrests
      have hhost :
          (q.run callHost (messaging rabbit python events).shared.host).2 =
            host := by rw [hrun]
      rw [← hhost] at hacks hack
      have hgave : (q.run callHost
          (messaging rabbit python events).shared.host).2.verdicts ≠
            (messaging rabbit python events).shared.host.verdicts := by
        intro h
        rw [hacks, hverdicts] at h
        have := acks_injective h
        omega
      have hrequest : request = .round := by
        cases q with
        | pure a => exact absurd rfl hgave
        | throw x => exact absurd rfl hgave
        | op e k =>
            exact calls_host_round python
              ((messaging_follows rabbit python events).threads i _ hi).1
      obtain ⟨n, hcontinues, hshared⟩ :=
        continues_alone hi (.inr hrequest) calm
      obtain ⟨callback, hnext, hdone⟩ := run_callbackOf rabbit q calm _ hack
      refine ⟨_, hcontinues, ?_⟩
      rw [hshared, hnext]
      exact hdone.elim id fun h => absurd h.2 hgave

end

/-! ## The start of the consumer -/

/-- What the calls before have to have established. -/
def Provided (before : List PikaCall) : PikaCall → Prop
  | .exchangeDeclare exchange type _ =>
      exchange = exchangeName ∧ type = exchangeType
  | .queueBind exchange queue _ =>
      .exchangeDeclare exchange exchangeType true ∈ before ∧
        .queueDeclare queue true ∈ before
  | .basicConsume queue => .queueDeclare queue true ∈ before
  | _ => True

instance (before : List PikaCall) : ∀ call, Decidable (Provided before call)
  | .exchangeDeclare .. => inferInstanceAs (Decidable (_ ∧ _))
  | .queueBind .. => inferInstanceAs (Decidable (_ ∧ _))
  | .basicConsume _ => inferInstanceAs (Decidable (_ ∈ _))
  | .blockingConnection | .channel | .queueDeclare .. | .basicPublish ..
  | .basicQos _ | .close => inferInstanceAs (Decidable True)

theorem consumerCalls_provided : ∀ i : Fin consumerCalls.length,
    Provided (consumerCalls.take i) (consumerCalls.get i) := by decide +kernel

theorem call_provided {v v' : BrokerView} {call : PikaCall}
    {r : Except PikaError Unit} (hb : BrokerSound v) {before : List PikaCall}
    (hbefore : ∀ call ∈ before, Established v call) (h : Provided before call)
    (hamqp : Amqp v call r v') : r = .ok () := by
  cases hamqp with
  | exchangeOther error hx hne =>
      obtain ⟨rfl, rfl⟩ := h
      exact absurd (hb.exchange _ hx) hne
  | bindMissing error hmissing =>
      have hexchange : (v.exchange _).isSome := hbefore _ h.1
      have hqueue : (v.queue _).isSome := hbefore _ h.2
      rcases hmissing with hnone | hnone
      · rw [hnone] at hexchange
        cases hexchange
      · rw [hnone] at hqueue
        cases hqueue
  | consumeMissing error hmissing =>
      have hqueue : (v.queue _).isSome := hbefore _ h
      rw [hmissing] at hqueue
      cases hqueue
  | _ => rfl

/-- The broker after these calls. -/
def callsOn (b : B) (calls : List PikaCall) : B :=
  calls.foldl (fun b call => (rabbit.call call b).2) b

theorem run_callAll (calls rest : List PikaCall) {before : List PikaCall}
    {s : Messaging B} (hsplit : before ++ calls ++ rest = consumerCalls)
    (hb : BrokerSound (rabbit.view s.broker))
    (hbefore : ∀ call ∈ before, Established (rabbit.view s.broker) call) :
    (callAll calls : Messenger F Unit).run (callMessaging rabbit calm) s =
      (.ok (), { s with broker := callsOn rabbit s.broker calls }) ∧
    BrokerSound (rabbit.view (callsOn rabbit s.broker calls)) ∧
    (∀ call ∈ before ++ calls,
      Established (rabbit.view (callsOn rabbit s.broker calls)) call) ∧
    ∀ queue, (rabbit.view (callsOn rabbit s.broker calls)).messages queue =
      (rabbit.view s.broker).messages queue := by
  induction calls generalizing before s with
  | nil => exact ⟨rfl, hb, by rwa [List.append_nil], fun _ => rfl⟩
  | cons call calls ih =>
      have hat : consumerCalls.take before.length = before ∧
          consumerCalls[before.length]? = some call := by
        rw [← hsplit]
        simp
      obtain ⟨hlt, hcall⟩ := List.getElem?_eq_some_iff.mp hat.2
      have hprovided := consumerCalls_provided ⟨before.length, hlt⟩
      rw [hat.1, List.get_eq_getElem, hcall] at hprovided
      have hplain : PlainCall call := .consumer (List.mem_of_getElem? hat.2)
      have hamqp := rabbit.call_amqp call s.broker hplain.made
      have hanswer := call_provided hb hbefore hprovided hamqp
      obtain ⟨hrun, hsound, hestablished, hmessages⟩ := @ih (before ++ [call])
        { s with broker := (rabbit.call call s.broker).2 }
        (by rw [← hsplit]; simp) (sound_amqp hb hplain hamqp) (by
          intro declared hdeclared
          rcases List.mem_append.mp hdeclared with h | h
          · exact (hbefore declared h).mono (grows_amqp hamqp)
          · rw [List.mem_singleton.mp h]
            exact established_amqp (hanswer ▸ hamqp))
      refine ⟨?_, hsound, ?_, fun queue => ?_⟩
      · have hcall : (pika call : Messenger F Unit).run
            (callMessaging rabbit calm) s =
              (.ok (), { s with broker := (rabbit.call call s.broker).2 }) := by
          rw [pika, Prog.run_bind]
          simp only [ask, Prog.perform, Prog.run_op, Prog.run, callMessaging,
            callPika, calm, hanswer]
          rfl
        rw [callAll, Prog.run_bind, hcall]
        exact hrun
      · rw [List.append_assoc] at hestablished
        exact hestablished
      · exact (hmessages queue).trans (messages_amqp hplain hamqp queue)

/-- Nothing is being handled, and the next round gets a message if there is
one. -/
structure Consuming (s : Messaging B) : Prop where
  idle : s.callback = none
  consuming : s.consuming = true
  consumer : (rabbit.view s.broker).consumer = some auditQueue

theorem consumed_amqp {v v' : BrokerView} {r : Except PikaError Unit}
    {queue : PyStr} (hq : (v.queue queue).isSome)
    (h : Amqp v (.basicConsume queue) r v') : v'.consumer = some queue := by
  cases h with
  | consume _ => rfl
  | consumeMissing error hmissing =>
      rw [hmissing] at hq
      cases hq

theorem callsOn_consume {b : B} {calls : List PikaCall}
    (h : Established (rabbit.view (callsOn rabbit b calls))
      (.queueDeclare auditQueue true)) :
    (rabbit.view (callsOn rabbit b (calls ++
      [.basicConsume auditQueue]))).consumer = some auditQueue := by
  have hamqp := rabbit.call_amqp (.basicConsume auditQueue)
    (callsOn rabbit b calls)
    (List.mem_map_of_mem (f := Prod.fst) audit_wildcard)
  rw [callsOn, List.foldl_append]
  show (rabbit.view (rabbit.call (.basicConsume auditQueue)
    (callsOn rabbit b calls)).2).consumer = _
  exact consumed_amqp h hamqp

theorem audit_declared : .queueDeclare auditQueue true ∈ topologyCalls := by
  decide +kernel

variable (F) in
theorem run_consumerCalls {s : Messaging B}
    (hb : BrokerSound (rabbit.view s.broker)) :
    (callAll consumerCalls : Messenger F Unit).run (callMessaging rabbit calm)
      s = (.ok (), { s with
        broker := callsOn rabbit s.broker consumerCalls }) ∧
    (rabbit.view (callsOn rabbit s.broker consumerCalls)).consumer =
      some auditQueue := by
  have hnil : ∀ call ∈ [], Established (rabbit.view s.broker) call :=
    fun call hcall => absurd hcall List.not_mem_nil
  obtain ⟨hrun, -⟩ := run_callAll rabbit consumerCalls []
    (by rw [List.nil_append, List.append_nil]) hb hnil
  refine ⟨hrun, ?_⟩
  have hsplit : (PikaCall.channel :: topologyCalls ++ [.basicQos 1]) ++
      [.basicConsume auditQueue] = consumerCalls := by
    rw [consumerCalls, List.append_assoc]
    rfl
  obtain ⟨-, -, hestablished, -⟩ := run_callAll (F := F) rabbit
    (PikaCall.channel :: topologyCalls ++ [.basicQos 1])
    [.basicConsume auditQueue] hsplit hb hnil
  rw [← hsplit]
  refine callsOn_consume rabbit (hestablished _ ?_)
  exact List.mem_append_right _ (List.mem_append_left _
    (List.mem_cons_of_mem _ audit_declared))

theorem run_connection {s : Messaging B} :
    (getConnection : Messenger F Unit).run (callMessaging rabbit calm) s =
      (.ok (), { s with
        broker := callsOn rabbit s.broker [.blockingConnection] }) := by
  have hanswer : (rabbit.call .blockingConnection s.broker).1 = .ok () := by
    have hamqp := rabbit.call_amqp .blockingConnection s.broker trivial
    generalize (rabbit.call .blockingConnection s.broker).1 = r at hamqp ⊢
    generalize rabbit.view (rabbit.call .blockingConnection s.broker).2 = v
      at hamqp
    cases hamqp
    rfl
  rw [getConnection, connectAttempts, Prog.run_bind]
  simp only [ask, Prog.perform, Prog.run_op, Prog.run, callMessaging, callPika,
    calm, hanswer]
  rfl

theorem run_consumerMain {s : Messaging B}
    (hb : BrokerSound (rabbit.view s.broker)) :
    ∃ broker, ((consumerMain python).run (callMessaging rabbit calm) s).2 =
      { s with broker := broker, consuming := true } ∧
      (rabbit.view broker).consumer = some auditQueue := by
  have hamqp := rabbit.call_amqp .blockingConnection s.broker trivial
  obtain ⟨hrun, hconsumer⟩ := run_consumerCalls F rabbit
    (s := { s with broker := callsOn rabbit s.broker [.blockingConnection] })
    (sound_amqp hb .connect hamqp)
  refine ⟨_, ?_, hconsumer⟩
  rw [consumerMain_eq, Prog.run_bind, run_connection]
  dsimp only
  rw [Prog.run_bind, hrun]
  generalize callsOn rabbit _ consumerCalls = b
  dsimp only
  rw [printLine, if_pos (python.prints_encodable (by decide))]
  rfl

section

variable {rabbit} {python} {events : List (MessagingEvent F)}

variable (rabbit python events) in
/-- A new process of the consumer is run to its end. -/
theorem continues_process (request : MessagingRequest F)
    (hrequest : request = .consumer ∨ request = .round) :
    ∃ more, Continues rabbit python events more ∧
      (messaging rabbit python (events ++ more)).shared =
        ((messagingBody python request).run (callMessaging rabbit calm)
          (messaging rabbit python events).shared).2 := by
  have hstart : messaging rabbit python (events ++ [.start request]) =
      { messaging rabbit python events with
        threads := (messaging rabbit python events).threads ++
          [⟨request, messagingBody python request⟩] } := by
    rw [messaging, Threads.after_concat]
    rfl
  have hcontinues : Continues rabbit python events [.start request] := by
    refine ⟨fun event hevent => ?_, by rw [hstart]⟩
    rw [List.mem_singleton.mp hevent]
    exact hrequest
  have hi : (messaging rabbit python (events ++ [.start request])).threads[
      (messaging rabbit python events).threads.length]? =
        some ⟨request, messagingBody python request⟩ := by
    rw [hstart]
    exact List.getElem?_concat_length
  obtain ⟨n, hnext, hshared⟩ := continues_alone hi hrequest calm
  refine ⟨_, hcontinues.trans hnext, ?_⟩
  rw [← List.append_assoc, hshared, hstart]

/-- A consumer that does not consume is started. -/
theorem continues_consuming
    (hidle : (messaging rabbit python events).shared.callback = none) :
    ∃ more, Continues rabbit python events more ∧
      Consuming rabbit (messaging rabbit python (events ++ more)).shared := by
  by_cases hc : (messaging rabbit python events).shared.consuming = true ∧
      (rabbit.view (messaging rabbit python events).shared.broker).consumer =
        some auditQueue
  · refine ⟨[], .refl, ?_⟩
    rw [List.append_nil]
    exact ⟨hidle, hc.1, hc.2⟩
  · obtain ⟨more, hcontinues, hshared⟩ :=
      continues_process rabbit python events .consumer (.inl rfl)
    have hb := (messagingSound_run rabbit python events).broker
    obtain ⟨broker, hrun, hconsumer⟩ := run_consumerMain rabbit python hb
    refine ⟨more, hcontinues, ?_⟩
    rw [hshared, messagingBody, hrun]
    exact ⟨hidle, rfl, hconsumer⟩

end

/-- A consumer that consumes is given the first message. -/
theorem receive_first {s : Messaging B} (h : Consuming rabbit s)
    {body : List UInt8} {rest : List (List UInt8)}
    (hmessages : (rabbit.view s.broker).messages auditQueue = body :: rest) :
    ∃ broker,
      rabbit.view broker = (rabbit.view s.broker).setMessages auditQueue rest ∧
      receiveMessage rabbit s = (some (s.deliveryTag, body), { s with
        broker := broker
        callback := some (s.deliveryTag, body)
        deliveryTag := s.deliveryTag + 1 }) := by
  have hdelivers := rabbit.deliver_first s.broker
  rw [receiveMessage, h.consuming, h.idle]
  dsimp only
  generalize rabbit.deliver s.broker = p at hdelivers ⊢
  obtain ⟨r, broker⟩ := p
  dsimp only at hdelivers
  generalize hv : rabbit.view broker = v at hdelivers
  cases hdelivers with
  | nothing hnone =>
      have hempty := hnone _ h.consumer
      rw [hmessages] at hempty
      cases hempty
  | first hc hq =>
      cases h.consumer.symm.trans hc
      rw [BrokerView.messages, hq] at hmessages
      cases hmessages
      exact ⟨broker, hv, rfl⟩

/-- A round, if the message is one that the consumer acknowledges. -/
theorem run_round {s : Messaging B} (h : Consuming rabbit s)
    {body : List UInt8} {rest : List (List UInt8)} {host : Host}
    (hmessages : (rabbit.view s.broker).messages auditQueue = body :: rest)
    (hrun : ((handleMessage python s.deliveryTag body).run callHost
      s.host).2 = host)
    (hack : ∀ p ∈ host.verdicts, p.2 = .ack)
    (hgave : host.verdicts ≠ s.host.verdicts) : ∃ broker,
    rabbit.view broker = (rabbit.view s.broker).setMessages auditQueue rest ∧
      ((messagingBody python .round).run (callMessaging rabbit calm) s).2 =
        { s with
          broker := broker
          host := host
          callback := none
          deliveryTag := s.deliveryTag + 1 } := by
  obtain ⟨broker, hview, hreceive⟩ := receive_first rabbit h hmessages
  refine ⟨broker, hview, ?_⟩
  obtain ⟨k, hk⟩ : ∃ k, messagingBody python .round = .op .receive k := ⟨_, rfl⟩
  subst hrun
  obtain ⟨callback, hdone, hcallback⟩ := run_callbackOf rabbit
    (handleMessage python s.deliveryTag body) calm (receiveMessage rabbit s).2
    (by rw [hreceive]; exact hack)
  rw [hk, Prog.run_op]
  show ((k (receiveMessage rabbit s).1).run _
    (receiveMessage rabbit s).2).2 = _
  rw [hreceive] at hdone hcallback ⊢
  rw [body_receive python hk, hdone]
  rcases hcallback with rfl | ⟨-, hsame⟩
  · rfl
  · exact absurd hsame hgave

section

variable {rabbit} {python} {events : List (MessagingEvent F)}

/-- A round takes a message out of the queue. -/
theorem continues_round
    (hok : ∀ request ∈ (messaging rabbit python events).requests,
      AcceptableRequest python request)
    (h : Consuming rabbit (messaging rabbit python events).shared)
    {body : List UInt8} {rest : List (List UInt8)}
    (hmessages : (rabbit.view
      (messaging rabbit python events).shared.broker).messages auditQueue =
        body :: rest) :
    ∃ more, Continues rabbit python events more ∧
      Consuming rabbit (messaging rabbit python (events ++ more)).shared ∧
      (rabbit.view (messaging rabbit python (events ++
        more)).shared.broker).messages auditQueue = rest := by
  have hsound := messagingSound_run rabbit python events
  have hrests := (underway_run rabbit python events hok).idle h.idle
  obtain ⟨hverdicts, hacks⟩ := rests_acks python hrests
  have hmem : body ∈
      publishedTo auditQueue (messaging rabbit python events).trace := by
    rw [hsound.order hacks, hmessages]
    exact List.mem_append_right _ List.mem_cons_self
  obtain ⟨host, hrun, hnext⟩ :=
    hrests.handle python (processable_run rabbit python hok hmem)
  obtain ⟨hgiven, hack⟩ := rests_acks python hnext
  rw [← hsound.tag] at hrun
  have hgave : host.verdicts ≠
      (messaging rabbit python events).shared.host.verdicts := by
    intro hsame
    rw [hgiven, hverdicts] at hsame
    have hlen := acks_injective hsame
    simp at hlen
  obtain ⟨more, hcontinues, hshared⟩ :=
    continues_process rabbit python events .round (.inr rfl)
  obtain ⟨broker, hview, hround⟩ :=
    run_round rabbit python h hmessages (by rw [hrun]) hack hgave
  rw [hround] at hshared
  refine ⟨more, hcontinues, ?_, ?_⟩
  · rw [hshared]
    refine ⟨rfl, h.consuming, ?_⟩
    dsimp only
    rw [hview]
    exact h.consumer
  · rw [hshared]
    dsimp only
    rw [hview, messages_setMessages, if_pos rfl]

/-- The rounds go on until the queue is empty. -/
theorem continues_drained
    (hok : ∀ request ∈ (messaging rabbit python events).requests,
      AcceptableRequest python request)
    (h : Consuming rabbit (messaging rabbit python events).shared) :
    ∃ more, Continues rabbit python events more ∧
      Consuming rabbit (messaging rabbit python (events ++ more)).shared ∧
      (rabbit.view (messaging rabbit python (events ++
        more)).shared.broker).messages auditQueue = [] := by
  generalize hmessages :
    (rabbit.view (messaging rabbit python events).shared.broker).messages
      auditQueue = bodies
  induction bodies generalizing events with
  | nil =>
      refine ⟨[], .refl, ?_⟩
      rw [List.append_nil]
      exact ⟨h, hmessages⟩
  | cons body rest ih =>
      obtain ⟨more, hcontinues, hconsuming, hrest⟩ :=
        continues_round hok h hmessages
      obtain ⟨later, hlater, hend⟩ :=
        ih (hcontinues.acceptable hok) hconsuming hrest
      refine ⟨more ++ later, hcontinues.trans hlater, ?_⟩
      rw [← List.append_assoc]
      exact hend

end

/-! ## The result -/

/-- Whatever has happened, the consumer can catch up by itself. -/
theorem consumer_catches_up (events : List (MessagingEvent F))
    (hok : ∀ request ∈ (messaging rabbit python events).requests,
      AcceptableRequest python request) :
    ∃ more, (∀ event ∈ more,
        OfConsumer (messaging rabbit python (events ++ more)).requests event) ∧
      CaughtUp python rabbit
        (publishedTo auditQueue (messaging rabbit python events).trace)
        (messaging rabbit python (events ++ more)) := by
  obtain ⟨settling, hsettling, hidle⟩ := continues_settled hok
  obtain ⟨starting, hstarting, hconsuming⟩ := continues_consuming hidle
  have hcontinues := hsettling.trans hstarting
  rw [List.append_assoc] at hconsuming
  obtain ⟨rounds, hrounds, hdone, hempty⟩ :=
    continues_drained (hcontinues.acceptable hok) hconsuming
  have hall := hcontinues.trans hrounds
  rw [List.append_assoc] at hdone hempty
  refine ⟨_, hall.consumer, ?_⟩
  generalize settling ++ starting ++ rounds = more at hall hdone hempty
  have hrests := (underway_run rabbit python (events ++ more)
    (hall.acceptable hok)).idle hdone.idle
  obtain ⟨hverdicts, hacks⟩ := rests_acks python hrests
  have horder := (messagingSound_run rabbit python (events ++ more)).order hacks
  rw [hempty, List.append_nil, hall.published] at horder
  obtain ⟨disk, m, hhost, hm, hfold⟩ := hrests
  refine ⟨hdone.idle, hempty, ?_, m.json, ?_, horder ▸ hfold⟩
  · rw [acknowledged, hverdicts, ackedOf_acks _ (Nat.le_refl _),
      List.take_length, horder]
  · rw [hhost]
    exact hm.loads

theorem consumer_catches_up_firstRide :
    ∃ more, (∀ event ∈ more, OfConsumer (messaging Broker.rabbit Python.ascii
        (firstRide ++ more)).requests event) ∧
      CaughtUp Python.ascii Broker.rabbit (publishedTo auditQueue
          (messaging Broker.rabbit Python.ascii firstRide).trace)
        (messaging Broker.rabbit Python.ascii (firstRide ++ more)) :=
  consumer_catches_up Broker.rabbit Python.ascii firstRide firstRide_acceptable

end TaxiService.Proofs
