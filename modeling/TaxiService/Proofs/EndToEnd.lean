import TaxiService.Proofs.Messaging
import TaxiService.Proofs.PoisonMessages
import TaxiService.Spec.EndToEnd

/-!
# Every event arrives

What is published reads back as the event it was made from, and the consumer
can process it. So a callback that is on its way ends in an acknowledgement and
in a file that has the event (`Underway`), whatever the producers do between
its calls: nothing they do reaches the file.
-/

namespace TaxiService.Proofs

open TaxiService.Lib TaxiService.Model TaxiService.Spec

variable {B F : Type} (rabbit : Rabbit B) (python : Python F)

/-! ## Reading back -/

section

variable {eventType utcNow text : PyStr} {payload : PyJson F} {millis : Int}

theorem keyed_makeEvent (h : payload.Keyed) :
    (.dict (makeEvent eventType payload millis utcNow) : PyJson F).Keyed := by
  refine ⟨?_, trivial, trivial, trivial, trivial, h, trivial⟩
  show List.Nodup [py "event_id", py "event_type", py "occurred_at",
    py "source", py "payload"]
  decide

theorem parseBody_published (h : payload.Keyed)
    (htext : eventText python eventType payload millis utcNow = .ok text)
    (he : Encodable text) : parseBody python (encodeUtf8 text) =
      .ok (.dict (makeEvent eventType payload millis utcNow)) := by
  obtain ⟨⟨hn, hd⟩, rfl⟩ := (eventText_iff python).mp htext
  have hloads := loads_dumps python.float (keyed_makeEvent h)
    (nesting_makeEvent eventType payload millis utcNow ▸
      Nat.le_trans hn python.limits.publish_le_parse)
    (digits_makeEvent eventType payload millis utcNow ▸ hd)
  rw [parseBody, Py.decode, decodeUtf8_encodeUtf8 he]
  show Py.jsonLoads python _ _ = _
  rw [Py.jsonLoads, hloads]

theorem received_published (h : payload.Keyed)
    (hdumps : payload.nesting ≤ python.limits.dumps)
    (htext : eventText python eventType payload millis utcNow = .ok text)
    (he : Encodable text) : received python (encodeUtf8 text) =
      .ok (.dict (makeEvent eventType payload millis utcNow),
        (py "ride.").isPrefixOf eventType) := by
  obtain ⟨htype, -, hp⟩ := (encodable_eventText python htext).mp he
  obtain ⟨⟨-, hd⟩, -⟩ := (eventText_iff python).mp htext
  have hsource : ∀ t : PyStr, Py.str python python.limits.format (.str t) =
      .ok t := fun t => if_pos ⟨Nat.zero_le _, Nat.zero_le _⟩
  have hpayload : Py.jsonDumps python python.limits.dumps payload =
      .ok (dumps python.float payload) := if_pos ⟨hdumps, hd⟩
  have hreceived : receivedText python
      (.dict (makeEvent eventType payload millis utcNow)) =
        .ok (py "received " ++ eventType ++ py " from " ++ py "taxi-service" ++
          py ": " ++ dumps python.float payload) := by
    show (do
      let eventType ← Py.str python python.limits.format (.str eventType)
      let source ← Py.str python python.limits.format
        (.str (py "taxi-service"))
      let payload ← Py.jsonDumps python python.limits.dumps payload
      return py "received " ++ eventType ++ py " from " ++ source ++ py ": " ++
        payload) = _
    rw [hsource, hsource, hpayload]
    rfl
  have hline : python.Prints (py "received " ++ eventType ++ py " from " ++
      py "taxi-service" ++ py ": " ++ dumps python.float payload) :=
    python.prints_encodable (encodable_append (encodable_append
      (encodable_append (encodable_append (encodable_append (by decide) htype)
        (by decide)) (by decide)) (by decide))
          ((encodable_dumps python.float payload).mpr hp))
  have hbound : received python (encodeUtf8 text) =
      (receivedText python (.dict (makeEvent eventType payload millis utcNow))
        >>= fun text => if python.Prints text then
          .ok (.dict (makeEvent eventType payload millis utcNow),
            (py "ride.").isPrefixOf eventType)
        else .error (.unicodeEncode text)) := by
    rw [received, parseBody_published python h htext he]
    rfl
  rw [hbound, hreceived]
  exact if_pos hline

/-- What is published is something the consumer can process. -/
theorem processable_published (h : Acceptable python eventType payload)
    (htext : eventText python eventType payload millis utcNow = .ok text)
    (he : Encodable text) : Processable python (encodeUtf8 text) := by
  obtain ⟨hk, hdumps, hride⟩ := h
  obtain ⟨htype, hnow, hp⟩ := (encodable_eventText python htext).mp he
  obtain ⟨⟨-, hd⟩, -⟩ := (eventText_iff python).mp htext
  have hlevel := python.limits.three_le_save
  refine ⟨_, _, received_published python hk hdumps htext he, fun _ => ?_⟩
  refine ⟨eventType, payload, .str (eventType ++ py "-" ++ intText millis),
    .str utcNow, rfl, htype, rfl, rfl, ?_, rfl, saved_str.mpr ⟨hlevel, hnow⟩,
    fun hslot => ?_⟩
  · exact saved_str.mpr ⟨hlevel, encodable_append (encodable_append htype
      (by decide)) (encodable_plain (plain_intText millis))⟩
  · obtain ⟨hframes, hitem⟩ := hride hslot
    exact ⟨⟨hframes, hd, hp⟩, hitem⟩

end

theorem keyed_values {m : Assoc PyStr (PyJson F)} (hn : m.Keyed)
    (hm : ∀ e ∈ m, e.2.Keyed) : (.dict m : PyJson F).Keyed :=
  ⟨hn, (keyedEntries_iff m).mpr hm⟩

/-- A dict of scalars is within every limit. -/
theorem acceptable_flat {eventType : PyStr} {m : Assoc PyStr (PyJson F)}
    (hn : m.Keyed) (hm : ∀ e ∈ m, e.2.Keyed ∧ e.2.nesting = 0 ∧ e.2.frames ≤ 1)
    (hride : (∃ slot, eventType = eventTypeOf slot) →
      ∃ n, m.get? (py "ride_id") = some (.int n)) :
    Acceptable python eventType (.dict m) := by
  have hnesting : measureEntries 1 (fun _ => 0) m ≤ 0 :=
    measureEntries_le.mpr fun e he => Nat.le_of_eq (hm e he).2.1
  have hframes : measureEntries 1 scalarFrames m ≤ 1 :=
    measureEntries_le.mpr fun e he => (hm e he).2.2
  refine ⟨keyed_values hn fun e he => (hm e he).1, ?_, fun hslot => ⟨?_, ?_⟩⟩
  · have hdumps := python.limits.dumps_pos
    show 1 + measureEntries 1 (fun _ => 0) m ≤ _
    omega
  · have hsave := python.limits.four_le_save
    show 2 + (1 + measureEntries 1 scalarFrames m) ≤ _
    omega
  · obtain ⟨n, hn⟩ := hride hslot
    refine ⟨.int n, ?_, python.limits.rideId_pos⟩
    rw [Py.getItem, hn]

/-- The payloads of `producer.py` are acceptable. -/
theorem acceptable_payload {args : ProducerArgs F}
    {entries : Assoc PyStr (PyJson F)} (h : eventPayload args = .ok entries) :
    Acceptable python args.eventType (.dict entries) := by
  have hother : ∀ {t : PyStr}, (∀ slot, t ≠ eventTypeOf slot) →
      args.eventType = t → (∃ slot, args.eventType = eventTypeOf slot) →
      ∃ n, entries.get? (py "ride_id") = some (.int n) := by
    rintro t ht htype ⟨slot, hslot⟩
    exact absurd (htype.symm.trans hslot) (ht slot)
  rw [eventPayload] at h
  split at h
  · next htype =>
      cases h
      refine acceptable_flat python ?_ ?_ (hother ?_ htype)
      · show List.Nodup [py "user_id", py "login", py "full_name"]
        decide
      · simp [PyJson.Keyed, PyJson.nesting, PyJson.frames, PyJson.measure,
          scalarFrames]
      · intro slot
        cases slot <;> decide
  split at h
  · next htype =>
      cases h
      refine acceptable_flat python ?_ ?_ (hother ?_ htype)
      · show List.Nodup [py "driver_id", py "user_id", py "car_model",
          py "car_number"]
        decide
      · simp [PyJson.Keyed, PyJson.nesting, PyJson.frames, PyJson.measure,
          scalarFrames]
      · intro slot
        cases slot <;> decide
  split at h
  · cases h
    refine acceptable_flat python ?_ ?_ fun _ => ⟨_, rfl⟩
    · show List.Nodup [py "ride_id", py "user_id", py "from_address",
        py "to_address", py "status"]
      decide
    · simp [PyJson.Keyed, PyJson.nesting, PyJson.frames, PyJson.measure,
        scalarFrames]
  split at h
  · cases h
    refine acceptable_flat python ?_ ?_ fun _ => ⟨_, rfl⟩
    · show List.Nodup [py "ride_id", py "driver_id", py "status"]
      decide
    · simp [PyJson.Keyed, PyJson.nesting, PyJson.frames, PyJson.measure,
        scalarFrames]
  split at h
  · cases h
    refine acceptable_flat python ?_ ?_ fun _ => ⟨_, rfl⟩
    · show List.Nodup [py "ride_id", py "driver_id", py "user_id",
        py "status", py "price"]
      decide
    · simp [PyJson.Keyed, PyJson.nesting, PyJson.frames, PyJson.measure,
        scalarFrames]
  · cases h

/-- What is published is the event of a request, with the readings the process
took. -/
theorem calls_publication {request : MessagingRequest F} {past : MessagingPast}
    {exchange key : PyStr} {body : List UInt8} {properties : BasicProperties}
    (h : Calls python request past
      (.pika (.basicPublish exchange key body properties))) :
    ∃ payload millis utcNow, clocks millis utcNow <+: past ∧
      (request = .publish key payload ∨ ∃ args entries,
        request = .produce args ∧ args.eventType = key ∧
          eventPayload args = .ok entries ∧ payload = .dict entries) ∧
      ∃ text, eventText python key payload millis utcNow = .ok text ∧
        Encodable text ∧ body = encodeUtf8 text := by
  have hpublish : ∀ {eventType : PyStr} {payload : PyJson F},
      PublishCall python eventType payload past
        (.pika (.basicPublish exchange key body properties)) →
      eventType = key ∧ ∃ millis utcNow, clocks millis utcNow <+: past ∧
        ∃ text, eventText python key payload millis utcNow = .ok text ∧
          Encodable text ∧ body = encodeUtf8 text := by
    intro eventType payload hc
    cases hc with
    | connecting hc =>
        cases hc with
        | call _ hcall =>
            have hplain : PlainCall (.basicPublish exchange key body
                properties) := .consumer (List.mem_append_left _
              (hcall.subset (List.mem_append_right _ List.mem_cons_self)))
            exact absurd hplain not_plain
    | @publish millis utcNow text errors _ htext he =>
        refine ⟨rfl, millis, utcNow, ?_, text, htext, he, rfl⟩
        rw [prepared, List.append_assoc]
        exact List.prefix_append _ _
  cases request with
  | publish eventType payload =>
      obtain ⟨rfl, millis, utcNow, hclocks, hbody⟩ := hpublish h
      exact ⟨payload, millis, utcNow, hclocks, .inl rfl, hbody⟩
  | produce args =>
      obtain ⟨entries, hentries, h⟩ := h
      obtain ⟨hkey, millis, utcNow, hclocks, hbody⟩ := hpublish h
      exact ⟨.dict entries, millis, utcNow, hclocks,
        .inr ⟨args, entries, rfl, hkey, hentries, rfl⟩, hbody⟩
  | consumer =>
      cases h with
      | connecting hc =>
          cases hc with
          | call _ hcall =>
              exact absurd (PlainCall.consumer (hcall.subset
                (List.mem_append_right _ List.mem_cons_self))) not_plain
  | round => cases h

/-- Every message that arrived is one the consumer can process, if the payloads
are acceptable. -/
theorem processable_run {events : List (MessagingEvent F)}
    (hok : ∀ request ∈ (messaging rabbit python events).requests,
      AcceptableRequest python request) {queue : PyStr} {body : List UInt8}
    (hbody : body ∈ publishedTo queue (messaging rabbit python events).trace) :
    Processable python body := by
  obtain ⟨m, hm, rfl⟩ := List.mem_map.mp hbody
  obtain ⟨x, hx, harrival⟩ :=
    List.mem_filterMap.mp (List.mem_of_mem_filter hm)
  obtain ⟨before, later, htrace⟩ := List.append_of_mem hx
  obtain ⟨request, hrequest, hcalls⟩ :=
    (messaging_follows rabbit python events).calls before x later htrace
  rw [arrival?] at harrival
  split at harrival
  · next exchange key body properties heffect =>
      split at harrival
      · cases harrival
        rw [heffect] at hcalls
        obtain ⟨payload, millis, utcNow, -, hfrom, text, htext, he, rfl⟩ :=
          calls_publication python hcalls
        refine processable_published python ?_ htext he
        rcases hfrom with rfl | ⟨args, entries, rfl, rfl, hentries, rfl⟩
        · exact hok _ (List.mem_of_getElem? hrequest)
        · exact acceptable_payload python hentries
      · cases harrival
  · cases harrival

/-! ## A callback on its way -/

/-- The host keeps the verdicts it had, whatever they are. -/
theorem run_verdicts {α : Type} (p : Consumer F α) (host : Host)
    (earlier : List (Nat × Verdict)) :
    p.run callHost { host with verdicts := earlier ++ host.verdicts } =
      ((p.run callHost host).1, { (p.run callHost host).2 with
        verdicts := earlier ++ (p.run callHost host).2.verdicts }) := by
  induction p generalizing host with
  | pure a => rfl
  | throw x => rfl
  | op e k ih =>
      rw [Prog.run_op, Prog.run_op, ← ih]
      cases e <;> simp [callHost]

/-- A callback among the calls of the system. -/
def callbackOf (q : Consumer F Unit) : Messenger F Unit :=
  (q.embed MessagingEffect.host fun _ r => r).tryCatch
    fun error => .throw (.python error)

def acks (n : Nat) : List (Nat × Verdict) :=
  (List.range n).map fun tag => (tag, .ack)

theorem acks_succ (n : Nat) : acks (n + 1) = acks n ++ [(n, .ack)] := by
  rw [acks, List.range_succ, List.map_append]
  rfl

/-- All these messages were acknowledged, and the file has their events. -/
def Rests (host : Host) (bodies : List (List UInt8)) : Prop :=
  ∃ disk, ∃ m : ReadModel F, host = ⟨disk, none, acks bodies.length⟩ ∧
    Holds python disk m ∧
    (rideEvents python bodies).foldlM (applyEvent python) emptyModel =
      .ok m.json

theorem rests_start : Rests python ⟨none, none, []⟩ [] :=
  ⟨none, .empty, rfl, Holds.init python, rfl⟩

/-- Handling one more message. -/
theorem Rests.handle {host : Host} {bodies : List (List UInt8)}
    (h : Rests python host bodies) {body : List UInt8}
    (hbody : Processable python body) : ∃ host',
    (handleMessage python bodies.length body).run callHost host =
      (.ok (), host') ∧ Rests python host' (bodies ++ [body]) := by
  obtain ⟨disk, m, rfl, hm, hfold⟩ := h
  obtain ⟨disk', m', hhandled, hm', hnext⟩ :=
    handled_processable python hm hbody bodies.length
  have hrun := run_verdicts (handleMessage python bodies.length body)
    ⟨disk, none, []⟩ (acks bodies.length)
  rw [List.append_nil] at hrun
  rw [handled] at hhandled
  rw [hhandled] at hrun
  refine ⟨_, hrun, disk', m', ?_, hm', ?_⟩
  · rw [List.length_append, List.length_singleton, acks_succ]
  · rw [rideEvents, List.filterMap_append, List.foldlM_append]
    rw [rideEvents] at hfold
    rw [hfold]
    exact hnext

/-- Between messages the file has all that was delivered. With one at hand, the
rest of its callback gets it there. -/
structure Underway (s : MessagingRun B F) : Prop where
  idle : s.shared.callback = none →
    Rests python s.shared.host (delivered s.trace)
  busy : ∀ message, s.shared.callback = some message →
    s.shared.host.verdicts = acks message.1 ∧
    message.1 + 1 = (delivered s.trace).length ∧
    ∃ i th q host, s.threads[i]? = some th ∧
      Open message (Threads.pastOf i s.trace) ∧ th.rest = callbackOf q ∧
      q.run callHost s.shared.host = (.ok (), host) ∧
      Rests python host (delivered s.trace)

theorem underway_start :
    Underway python (Threads.start (.empty rabbit) : MessagingRun B F) where
  idle _ := rests_start python
  busy message h := by cases h

/-! ## One call -/

variable {rabbit} {s : MessagingRun B F} {j : Nat}
  {request : MessagingRequest F}

/-- After the message was settled a round calls nothing more. -/
theorem calls_settled {past : MessagingPast} {e : ConsumerEffect} {r : e.Result}
    {e' : MessagingEffect} (h : Calls python request past (.host e))
    (he : settles (.host e) = true) :
    ¬ Calls python request (past ++ [⟨.host e, r⟩]) e' := by
  intro h'
  cases request with
  | publish eventType payload =>
      cases h with
      | connecting hc => cases hc
  | produce args =>
      obtain ⟨payload, -, h⟩ := h
      cases h with
      | connecting hc => cases hc
  | consumer =>
      cases h with
      | connecting hc => cases hc
  | round =>
      have hopen : ∃ message, Open message (past ++ [⟨.host e, r⟩]) := by
        generalize hpast : past ++ [⟨.host e, r⟩] = after at h'
        cases h' with
        | receive =>
            rw [List.append_eq_nil_iff] at hpast
            cases hpast.2
        | host hopen _ => exact ⟨_, hopen⟩
      obtain ⟨message, hopen⟩ := hopen
      obtain ⟨-, hs⟩ := open_before hopen (fun hc => by cases hc)
      cases hs.symm.trans he

/-- A request that receives first is a round. -/
theorem body_receive {k : Option (Nat × List UInt8) → Messenger F Unit}
    (h : messagingBody python request = .op .receive k) :
    ∀ message, k (some message) =
      callbackOf (handleMessage python message.1 message.2) := by
  cases request with
  | publish eventType payload => cases h
  | produce args =>
      rw [messagingBody, producerMain] at h
      cases hp : eventPayload args with
      | error x =>
          rw [hp] at h
          cases h
      | ok payload =>
          rw [hp] at h
          cases h
  | consumer => cases h
  | round =>
      cases h
      intro message
      rfl

/-- A callback goes on with its calls to the host. -/
theorem callbackOf_op {q : Consumer F Unit} {e : MessagingEffect}
    {k : e.Result → Messenger F Unit} (h : callbackOf q = .op e k) :
    ∃ e' k', q = .op e' k' ∧ e = .host e' ∧ HEq k fun r => callbackOf (k' r) := by
  cases q with
  | pure a => cases h
  | throw x => cases h
  | op e' k' =>
      cases h
      exact ⟨e', k', rfl, rfl, .rfl⟩

/-- A callback that calls nothing more has got where it leads. -/
theorem callbackOf_done {q : Consumer F Unit} {host host' : Host}
    (h : ∀ e k, callbackOf q ≠ .op e k)
    (hrun : q.run callHost host = (.ok (), host')) : host = host' := by
  cases q with
  | pure a =>
      cases hrun
      rfl
  | throw x => cases hrun
  | op e k => exact absurd rfl (h (.host e) _)

theorem open_concat {message : Nat × List UInt8} {past : MessagingPast}
    (h : Open message past) {e : MessagingEffect} (he : settles e = false)
    (r : e.Result) : Open message (past ++ [⟨e, r⟩]) := by
  obtain ⟨hmore⟩ := h
  refine .intro fun x hx => ?_
  rcases List.mem_append.mp hx with hx | hx
  · exact hmore x hx
  · rw [List.mem_singleton.mp hx]
    exact he

/-- A call of a process that is no callback, and that gets no message. -/
theorem Underway.other (h : Underway python s) {e : MessagingEffect}
    {k : e.Result → Messenger F Unit}
    (hj : s.threads[j]? = some ⟨request, .op e k⟩) (he : ∀ e', e ≠ .host e')
    {input : Surroundings} {r : e.Result} {shared : Messaging B}
    (hdelivered : delivered [⟨j, input, e, r⟩] = [])
    (hcallback : shared.callback = s.shared.callback)
    (hhost : shared.host = s.shared.host) :
    Underway python (⟨shared, s.threads.set j ⟨request, k r⟩,
      s.trace ++ [⟨j, input, e, r⟩]⟩ : MessagingRun B F) := by
  have hsame : delivered (s.trace ++ [⟨j, input, e, r⟩]) =
      delivered s.trace := by
    rw [delivered_append, hdelivered, List.append_nil]
  constructor
  · intro hnone
    rw [hsame, hhost]
    exact h.idle (hcallback.symm.trans hnone)
  · intro message hsome
    obtain ⟨hverdicts, hlen, i, th, q, host, hi, hopen, hrest, hrun, hrests⟩ :=
      h.busy message (hcallback.symm.trans hsome)
    have hij : j ≠ i := by
      rintro rfl
      cases hi.symm.trans hj
      obtain ⟨e', -, -, hhost', -⟩ := callbackOf_op hrest.symm
      exact he e' hhost'
    rw [hsame, hhost]
    refine ⟨hverdicts, hlen, i, th, q, host, ?_, ?_, hrest, hrun, hrests⟩
    · rw [List.getElem?_set_ne hij, hi]
    · rw [pastOf_call, if_neg hij]
      exact hopen

/-- The library calls back, with a message the consumer can process. -/
theorem Underway.receive (h : Underway python s)
    (hsound : MessagingSound rabbit s)
    {k : Option (Nat × List UInt8) → Messenger F Unit}
    (hj : s.threads[j]? = some ⟨request, .op .receive k⟩)
    (hpast : Threads.pastOf j s.trace = [])
    (hbody : messagingBody python request = .op .receive k)
    (hok : ∀ body ∈ publishedTo auditQueue s.trace, Processable python body)
    {input : Surroundings} : Underway python (⟨(receiveMessage rabbit s.shared).2,
      s.threads.set j ⟨request, k (receiveMessage rabbit s.shared).1⟩, s.trace ++
        [⟨j, input, .receive, (receiveMessage rabbit s.shared).1⟩]⟩ :
      MessagingRun B F) := by
  rcases receiveMessage_cases rabbit s.shared with ⟨broker, -, hnone⟩ |
    ⟨hcallback, queue, body, rest, broker, hconsumer, hfirst, -, hsome⟩
  · rw [hnone]
    exact h.other python hj (fun e' he => by cases he) rfl rfl rfl
  · rw [hsome]
    have hqueue : queue = auditQueue :=
      (hsound.broker.consumer queue hconsumer).1
    subst hqueue
    have hmessages : (rabbit.view s.shared.broker).messages auditQueue =
        body :: rest := by
      rw [BrokerView.messages, hfirst]
      rfl
    have hdelivered : delivered (s.trace ++ [⟨j, input, .receive,
        some (s.shared.deliveryTag, body)⟩]) = delivered s.trace ++ [body] :=
      delivered_append _ _
    have hrests := h.idle hcallback
    have hverdicts : s.shared.host.verdicts =
        acks (delivered s.trace).length := by
      obtain ⟨disk, m, hhost, -⟩ := hrests
      rw [hhost]
    have hacks : ∀ p ∈ s.shared.host.verdicts, p.2 = .ack := by
      intro p hp
      rw [hverdicts] at hp
      obtain ⟨n, -, rfl⟩ := List.mem_map.mp hp
      rfl
    have hmem : body ∈ publishedTo auditQueue s.trace := by
      rw [hsound.order hacks, hmessages]
      exact List.mem_append_right _ List.mem_cons_self
    obtain ⟨host, hrun, hnext⟩ := hrests.handle python (hok body hmem)
    constructor
    · intro hnone
      cases hnone
    · intro message hm
      cases hm
      refine ⟨hsound.tag ▸ hverdicts, ?_, j, _, _, host,
        List.getElem?_set_self (List.getElem?_eq_some_iff.mp hj).1, ?_,
        body_receive python hbody _, ?_, ?_⟩
      · rw [hdelivered, List.length_append, hsound.tag]
        rfl
      · rw [pastOf_call, if_pos rfl, hpast]
        exact .intro fun x hx => absurd hx List.not_mem_nil
      · rw [hsound.tag]
        exact hrun
      · rw [hdelivered]
        exact hnext

/-- A call of the callback. -/
theorem Underway.host (h : Underway python s)
    (hsound : MessagingSound rabbit s)
    {e : ConsumerEffect} {k : e.Result → Messenger F Unit}
    (hj : s.threads[j]? = some ⟨request, .op (.host e) k⟩)
    {message : Nat × List UInt8}
    (hopen : Open message (Threads.pastOf j s.trace))
    (he : CallbackCall message.1 e) {input : Surroundings}
    (hdone : settles (.host e) = true → ∀ e' k',
      k (callHost e s.shared.host).1 ≠ .op e' k') :
    Underway python (⟨(callMessaging rabbit input (.host e) s.shared).2,
      s.threads.set j
        ⟨request, k (callMessaging rabbit input (.host e) s.shared).1⟩,
      s.trace ++ [⟨j, input, .host e,
        (callMessaging rabbit input (.host e) s.shared).1⟩]⟩ :
      MessagingRun B F) := by
  have hdelivered : delivered (s.trace ++ [⟨j, input, .host e,
      (callMessaging rabbit input (.host e) s.shared).1⟩]) =
        delivered s.trace := by
    rw [delivered_append]
    exact List.append_nil _
  have hheld := hsound.opened j message hopen
  obtain ⟨hverdicts, hlen, i, th, q, host, hi, hopen', hrest, hrun, hrests⟩ :=
    h.busy message hheld
  have hij : i = j := hsound.one i j message message hopen' hopen
  subst hij
  cases hi.symm.trans hj
  obtain ⟨e₁, k₁, rfl, he₁, hk⟩ := callbackOf_op hrest.symm
  cases he₁
  cases hk
  rw [Prog.run_op] at hrun
  have hset : (s.threads.set i ⟨request, callbackOf
      (k₁ (callHost e s.shared.host).1)⟩)[i]? = some ⟨request, callbackOf
        (k₁ (callHost e s.shared.host).1)⟩ :=
    List.getElem?_set_self (List.getElem?_eq_some_iff.mp hj).1
  -- A call that does not settle the message leaves it at hand.
  have hquiet : settles (.host e) = false →
      settle rabbit input.place
          { s.shared with host := (callHost e s.shared.host).2 } e =
        { s.shared with host := (callHost e s.shared.host).2 } →
      (callHost e s.shared.host).2.verdicts = s.shared.host.verdicts →
      Underway python (⟨(callMessaging rabbit input (.host e) s.shared).2,
        s.threads.set i ⟨request, callbackOf
          (k₁ (callMessaging rabbit input (.host e) s.shared).1)⟩,
        s.trace ++ [⟨i, input, .host e,
          (callMessaging rabbit input (.host e) s.shared).1⟩]⟩ :
        MessagingRun B F) := by
    intro hs hsettle hv
    have hnext : (callMessaging rabbit input (.host e) s.shared).2 =
        { s.shared with host := (callHost e s.shared.host).2 } := by
      rw [callMessaging, hsettle]
    constructor
    · intro hnone
      rw [hnext] at hnone
      cases hheld.symm.trans hnone
    · intro message' hm
      rw [hnext] at hm ⊢
      cases hheld.symm.trans hm
      refine ⟨hv.trans hverdicts, ?_, i, _, _, host, hset, ?_, rfl, hrun, ?_⟩
      · rw [hdelivered]
        exact hlen
      · rw [pastOf_call, if_pos rfl]
        exact open_concat hopen hs _
      · rw [hdelivered]
        exact hrests
  -- One that does is the last, so the host is where the callback leads to.
  have hlast : settles (.host e) = true →
      host = (callHost e s.shared.host).2 := fun hs =>
    (callbackOf_done (hdone hs) hrun).symm
  cases e with
  | ack tag =>
      have hhost := hlast rfl
      subst hhost
      constructor
      · intro _
        rw [hdelivered]
        exact hrests
      · intro message' hm
        cases hm
  | nack tag again =>
      have hhost := hlast rfl
      obtain ⟨disk, m, hfinal, -⟩ := hrests
      have hnack : (tag, Verdict.nack) ∈ host.verdicts := by
        rw [hhost]
        exact List.mem_append_right _ List.mem_cons_self
      rw [hfinal] at hnack
      obtain ⟨n, -, hn⟩ := List.mem_map.mp hnack
      cases hn
  | exists_ => exact hquiet rfl rfl rfl
  | read => exact hquiet rfl rfl rfl
  | mkdir => exact hquiet rfl rfl rfl
  | openWrite => exact hquiet rfl rfl rfl
  | write bytes => exact hquiet rfl rfl rfl
  | close => exact hquiet rfl rfl rfl
  | print text => exact hquiet rfl rfl rfl

variable (rabbit)

theorem underway_run (events : List (MessagingEvent F))
    (hok : ∀ request ∈ (messaging rabbit python events).requests,
      AcceptableRequest python request) :
    Underway python (messaging rabbit python events) := by
  induction events using List.reverseRecOn with
  | nil => exact underway_start rabbit python
  | append_singleton events event ih =>
      have hlater := Threads.later_run (messagingBody python)
        (callMessaging rabbit) (.empty rabbit) events [event]
      have hbefore : ∀ request ∈ (messaging rabbit python events).requests,
          AcceptableRequest python request :=
        fun request hr => hok request (hlater.requests.subset hr)
      have h := ih hbefore
      have hfollows := messaging_follows rabbit python events
      have hsound := messagingSound_run rabbit python events
      rw [messaging, Threads.after_concat, ← messaging]
      cases event with
      | start request =>
          refine ⟨h.idle, fun message hm => ?_⟩
          obtain ⟨hverdicts, hlen, i, th, q, host, hi, hrest⟩ := h.busy message hm
          refine ⟨hverdicts, hlen, i, th, q, host, ?_, hrest⟩
          exact (List.getElem?_append_left
            (List.getElem?_eq_some_iff.mp hi).1).trans hi
      | step j input =>
          rcases Threads.step_cases (messagingBody python)
            (callMessaging rabbit) (messaging rabbit python events) j input
            with hs | ⟨request, e, k, hj, hs⟩
          · rw [hs]
            exact h
          · have hcalls := (hfollows.threads j _ hj).1
            rw [hs]
            cases e with
            | receive =>
                have hpast := calls_receive python hcalls
                exact h.receive python hsound hj hpast
                  (Threads.run_fresh _ events j _ hj hpast).symm
                  fun body hbody => processable_run rabbit python hbefore hbody
            | host e =>
                obtain ⟨message, hopen, hc⟩ := calls_host python hcalls
                refine h.host python hsound hj hopen hc
                  fun hsettles e' k' hk => ?_
                have hnext := (hfollows.threads j _ hj).2
                  (callHost e (messaging rabbit python events).shared.host).1
                rw [hk] at hnext
                exact calls_settled python hcalls hsettles hnext.1
            | pika call =>
                refine h.other python hj (fun e' he => by cases he) rfl ?_ ?_
                all_goals
                  rw [callMessaging]
                  rcases callPika_cases rabbit input.fate call
                    (messaging rabbit python events).shared with ⟨hs, -⟩ | ⟨hs, -⟩
                  all_goals rw [hs]
            | _ => exact h.other python hj (fun e' he => by cases he) rfl rfl rfl

/-! ## The results -/

theorem ackedOf_acks (bodies : List (List UInt8)) {n : Nat}
    (h : n ≤ bodies.length) : ackedOf bodies (acks n) = bodies.take n := by
  induction n with
  | zero => rfl
  | succ n ih =>
      rw [acks_succ, ackedOf_ack (List.getElem?_eq_getElem (by omega)),
        ih (by omega), List.take_succ_eq_append_getElem (by omega)]

/-- What is published reads back as the event of the request that published it,
with the readings its process took. -/
theorem published_read_back (events : List (MessagingEvent F)) :
    ReadBack python (messaging rabbit python events) := by
  intro before x later htrace exchange key body properties heffect
  obtain ⟨request, hrequest, hcalls⟩ :=
    (messaging_follows rabbit python events).calls before x later htrace
  rw [heffect] at hcalls
  obtain ⟨payload, millis, utcNow, hclocks, hfrom, text, htext, he, rfl⟩ :=
    calls_publication python hcalls
  refine ⟨payload, millis, utcNow, hclocks, ?_,
    fun hk => parseBody_published python hk htext he⟩
  rcases hfrom with rfl | ⟨args, entries, rfl, hkey, hentries, hpayload⟩
  · exact .inl hrequest
  · exact .inr ⟨args, entries, hrequest, hkey, hentries, hpayload⟩

/-- Every event that arrives is acknowledged in its turn and is in the file. -/
theorem events_arrive (events : List (MessagingEvent F))
    (hok : ∀ request ∈ (messaging rabbit python events).requests,
      AcceptableRequest python request) :
    UpToDate python rabbit (messaging rabbit python events) := by
  have h := underway_run rabbit python events hok
  have hsound := messagingSound_run rabbit python events
  have hstate : ∃ n,
      (messaging rabbit python events).shared.host.verdicts = acks n ∧
      n + (inFlight (messaging rabbit python events).shared).length =
        (delivered (messaging rabbit python events).trace).length ∧
      (delivered (messaging rabbit python events).trace).drop n =
        inFlight (messaging rabbit python events).shared := by
    cases hcallback : (messaging rabbit python events).shared.callback with
    | none =>
        obtain ⟨disk, m, hhost, -⟩ := h.idle hcallback
        refine ⟨_, by rw [hhost], ?_, ?_⟩
        · rw [inFlight, hcallback]
          rfl
        · rw [inFlight, hcallback, List.drop_length]
          rfl
    | some message =>
        obtain ⟨hverdicts, hlen, -⟩ := h.busy message hcallback
        have hbody := hsound.message message hcallback
        obtain ⟨hlt, hget⟩ := List.getElem?_eq_some_iff.mp hbody
        refine ⟨_, hverdicts, ?_, ?_⟩
        · rw [inFlight, hcallback, ← hlen]
          rfl
        · rw [inFlight, hcallback, List.drop_eq_getElem_cons hlt, hget,
            List.drop_eq_nil_of_le (by omega)]
          rfl
  obtain ⟨n, hverdicts, hlen, hdrop⟩ := hstate
  have hacked : acknowledged (messaging rabbit python events) =
      (delivered (messaging rabbit python events).trace).take n := by
    rw [acknowledged, hverdicts, ackedOf_acks _ (by omega)]
  constructor
  · rw [hverdicts, acks, List.length_map, List.length_range]
  · rw [hacked, ← hdrop, List.take_append_drop]
    refine hsound.order fun p hp => ?_
    rw [hverdicts] at hp
    obtain ⟨tag, -, rfl⟩ := List.mem_map.mp hp
    rfl
  · intro hcallback
    obtain ⟨disk, m, hhost, hm, hfold⟩ := h.idle hcallback
    refine ⟨m.json, ?_, ?_⟩
    · rw [hhost]
      exact hm.loads
    · rw [inFlight, hcallback] at hlen
      have hn : n =
          (delivered (messaging rabbit python events).trace).length := hlen
      rw [hacked, hn, List.take_length]
      exact hfold

/-- A ride is published while the consumer starts, and the first call to the
broker does not get there. -/
def firstRide : List (MessagingEvent {t : FloatText // t.Canonical}) :=
  [.start (.publish (py "ride.created") (.dict [(py "ride_id", .int 7)])),
    .start .consumer, .step 0 ⟨1000, py "2026-01-01", .answered, 0⟩,
    .step 1 ⟨1000, py "2026-01-01", .lost (.amqpConnection (py "refused")), 0⟩]

theorem firstRide_acceptable :
    ∀ request ∈ (messaging Broker.rabbit Python.ascii firstRide).requests,
      AcceptableRequest Python.ascii request := by
  intro request hr
  have hrequests : (messaging Broker.rabbit Python.ascii firstRide).requests =
    [.publish (py "ride.created") (.dict [(py "ride_id", .int 7)]),
      .consumer] := rfl
  rw [hrequests, List.mem_cons, List.mem_singleton] at hr
  rcases hr with rfl | rfl
  · refine acceptable_flat Python.ascii (List.nodup_singleton _) ?_
      fun _ => ⟨7, rfl⟩
    simp [PyJson.Keyed, PyJson.nesting, PyJson.frames, PyJson.measure,
      scalarFrames]
  · trivial

theorem events_arrive_firstRide : UpToDate Python.ascii Broker.rabbit
    (messaging Broker.rabbit Python.ascii firstRide) :=
  events_arrive Broker.rabbit Python.ascii firstRide firstRide_acceptable

end TaxiService.Proofs
