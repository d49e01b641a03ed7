import TaxiService.Spec.Messaging

/-!
# Every process keeps to its script

One lemma for each part of a process: connecting is an induction on the
attempts that are left, the topology one on the calls that are left. The
callback of the consumer is followed from call to call, of which only the last
settles the message.
-/

namespace TaxiService.Proofs

open TaxiService.Lib TaxiService.Model TaxiService.Spec

variable {F : Type} {P : MessagingPast → MessagingEffect → Prop}
  {Q : MessagingPast → Except (ServiceExc F) Unit → Prop}
  {past : MessagingPast}

/-! ## Connecting -/

/-- What is reached if nothing is raised, before a part that `Q` is about. -/
def Reaches (A : MessagingPast → Prop)
    (Q : MessagingPast → Except (ServiceExc F) Unit → Prop) :
    MessagingPast → Except (ServiceExc F) Unit → Prop
  | past, .ok _ => A past
  | past, .error x => Q past (.error x)

/-- One part of a process after the other. -/
theorem along_then {A : MessagingPast → Prop} {p q : Messenger F Unit}
    (hp : p.Along P (Reaches A Q) past) (hq : ∀ past, A past → q.Along P Q past) :
    (p >>= fun _ => q).Along P Q past :=
  Prog.along_bind hp (fun past _ h => hq past h) fun _ _ h => h

theorem along_pika {call : PikaCall} (h : P past (.pika call))
    (hok : Q (past ++ [⟨.pika call, .ok ()⟩]) (.ok ()))
    (herror : ∀ error, Q (past ++ [⟨.pika call, .error error⟩])
      (.error (.pika error))) :
    (pika call : Messenger F Unit).Along P Q past := by
  refine ⟨h, fun answer => ?_⟩
  cases answer with
  | ok u => exact hok
  | error error => exact herror error

theorem answered_concat (calls : List PikaCall) (call : PikaCall) :
    answered (calls ++ [call]) = answered calls ++ [⟨.pika call, .ok ()⟩] :=
  List.map_append

theorem refused_concat (errors : List PyStr) (text : PyStr) :
    refused (errors ++ [text]) = refused errors ++
      [⟨.pika .blockingConnection, .error (.amqpConnection text)⟩] ++
      [⟨.sleep 2, ()⟩] := by
  rw [refused, List.flatMap_append, List.append_assoc]
  rfl

section

variable {start : MessagingPast} {calls : List PikaCall}

theorem along_attempts
    (hP : ∀ past e, Connecting start calls past e → P past e)
    (hfail : ∀ past x, ConnectFails start calls past x → Q past (.error x))
    (hok : ∀ errors : List PyStr, errors.length < 20 → Q (start ++
      refused errors ++ answered [.blockingConnection]) (.ok ())) :
    ∀ {n : Nat} {errors : List PyStr}, errors.length + n = 20 →
      (connectAttempts (errors.getLastD (py "None")) n).Along P Q
        (start ++ refused errors) := by
  intro n
  induction n with
  | zero =>
      intro errors hn
      exact hfail _ _ (.unavailable hn)
  | succ n ih =>
      intro errors hn
      have hlt : errors.length < 20 := by omega
      refine ⟨hP _ _ (.connect hlt), fun answer => ?_⟩
      cases answer with
      | ok u => exact hok errors hlt
      | error error =>
          cases error with
          | other text => exact hfail _ _ (.refused text hlt)
          | amqpConnection text =>
              refine ⟨hP _ _ (.sleep text hlt), fun _ => ?_⟩
              have hlen : (errors ++ [text]).length + n = 20 := by
                rw [List.length_append, List.length_singleton]
                omega
              have hnext := ih hlen
              rw [List.getLastD_concat, refused_concat, ← List.append_assoc,
                ← List.append_assoc] at hnext
              exact hnext

/-- One call after the other. -/
def callAll : List PikaCall → Messenger F Unit
  | [] => pure ()
  | call :: calls => do
      pika call
      callAll calls

theorem callAll_append (before after : List PikaCall) :
    (callAll (before ++ after) : Messenger F Unit) =
      callAll before >>= fun _ => callAll after := by
  induction before with
  | nil => rfl
  | cons call before ih =>
      rw [List.cons_append, callAll, callAll, ih, Prog.bind_assoc]

theorem bindKeys_eq (queue : PyStr) (keys : List PyStr) :
    (bindKeys queue keys : Messenger F Unit) =
      callAll (keys.map (.queueBind exchangeName queue)) := by
  induction keys with
  | nil => rfl
  | cons key keys ih => rw [bindKeys, ih, List.map_cons, callAll]

theorem declareQueues_eq (table : List (PyStr × List PyStr)) :
    (declareQueues table : Messenger F Unit) = callAll (table.flatMap fun q =>
      .queueDeclare q.1 true :: q.2.map (.queueBind exchangeName q.1)) := by
  induction table with
  | nil => rfl
  | cons q table ih =>
      rw [declareQueues, ih, bindKeys_eq, List.flatMap_cons, List.cons_append,
        callAll, callAll_append]

/-- The topology is declared by these calls, in this order. -/
theorem declareTopology_eq :
    (declareTopology : Messenger F Unit) = callAll topologyCalls := by
  rw [declareTopology, declareQueues_eq, topologyCalls, callAll]

theorem along_callAll {errors : List PyStr} (hn : errors.length < 20)
    (hP : ∀ past e, Connecting start calls past e → P past e)
    (hfail : ∀ past x, ConnectFails start calls past x → Q past (.error x))
    (hok : Q (start ++ refused errors ++ answered (.blockingConnection :: calls))
      (.ok ())) : ∀ {rest before : List PikaCall}, before ++ rest = calls →
      (callAll rest).Along P Q (start ++ refused errors ++
        answered (.blockingConnection :: before)) := by
  intro rest
  induction rest with
  | nil =>
      intro before hcalls
      rw [List.append_nil] at hcalls
      exact hcalls ▸ hok
  | cons call rest ih =>
      intro before hcalls
      have hsplit : before ++ [call] ++ rest = calls := by
        rw [List.append_assoc]
        exact hcalls
      have hcall : before ++ [call] <+: calls := ⟨rest, hsplit⟩
      refine along_then (A := (· = start ++ refused errors ++
        answered (.blockingConnection :: (before ++ [call]))))
        (along_pika (hP _ _ (.call hn hcall)) ?_ fun error =>
          hfail _ _ (.call error hn hcall)) ?_
      · rw [← List.cons_append, answered_concat]
        exact List.append_assoc _ _ _
      · rintro past rfl
        exact ih hsplit

/-- A process that connects and makes its calls. -/
theorem along_connecting
    (hP : ∀ past e, Connecting start calls past e → P past e)
    (hfail : ∀ past x, ConnectFails start calls past x → Q past (.error x))
    {rest : Messenger F Unit} (hrest : ∀ errors : List PyStr,
      errors.length < 20 → rest.Along P Q (start ++ refused errors ++
        answered (.blockingConnection :: calls))) :
    (getConnection >>= fun _ => callAll calls >>= fun _ => rest).Along P Q
      start := by
  refine along_then (A := fun past => ∃ errors : List PyStr,
    errors.length < 20 ∧ past = start ++ refused errors ++
      answered [.blockingConnection]) ?_ ?_
  · have hlen : ([] : List PyStr).length + 20 = 20 := rfl
    have h := along_attempts (Q := Reaches (fun past => ∃ errors : List PyStr,
      errors.length < 20 ∧ past = start ++ refused errors ++
        answered [.blockingConnection]) Q) hP hfail
      (fun errors hn => ⟨errors, hn, rfl⟩) hlen
    rw [refused, List.flatMap_nil, List.append_nil] at h
    exact h
  · rintro past ⟨errors, hn, rfl⟩
    refine along_then (A := (· = start ++ refused errors ++
      answered (.blockingConnection :: calls))) (along_callAll (Q := Reaches
        (· = start ++ refused errors ++ answered (.blockingConnection :: calls))
        Q) hn hP hfail rfl (List.nil_append _)) ?_
    rintro past rfl
    exact hrest errors hn

end

/-! ## `publish_event` -/

variable (python : Python F)

theorem publishEvent_eq (eventType : PyStr) (payload : PyJson F) :
    publishEvent python eventType payload = (do
      let millis : Int ← ask .time
      let utcNow : PyStr ← ask .utcNow
      getConnection
      callAll (.channel :: topologyCalls)
      let text ← orRaise (eventText python eventType payload millis utcNow)
      let body ← orRaise (encodeText text)
      pika (.basicPublish exchangeName eventType body eventProperties)
      let text ← orRaise (eventText python eventType payload millis utcNow)
      printLine python (py "published " ++ eventType ++ py ": " ++ text)
      pika .close) := by
  simp only [publishEvent, declareTopology_eq, callAll, Prog.bind_assoc,
    eventText]

theorem nesting_makeEvent (eventType : PyStr) (payload : PyJson F)
    (millis : Int) (utcNow : PyStr) :
    (PyJson.dict (makeEvent eventType payload millis utcNow)).nesting =
      1 + payload.nesting := by
  simp [PyJson.nesting, PyJson.measure, makeEvent, measureEntries,
    measureEntry]

theorem digits_makeEvent (eventType : PyStr) (payload : PyJson F)
    (millis : Int) (utcNow : PyStr) :
    (PyJson.dict (makeEvent eventType payload millis utcNow)).digits =
      payload.digits := by
  simp [PyJson.digits, PyJson.measure, makeEvent, measureEntries,
    measureEntry, scalarDigits]

section

variable {eventType utcNow text : PyStr} {payload : PyJson F} {millis : Int}

/-- An event has a text if its payload is within the limits. -/
theorem eventText_iff :
    eventText python eventType payload millis utcNow = .ok text ↔
      (1 + payload.nesting ≤ python.limits.publish ∧
        payload.digits ≤ python.limits.digits) ∧
      dumps python.float (.dict (makeEvent eventType payload millis utcNow)) =
        text := by
  rw [eventText, Py.jsonDumps, nesting_makeEvent, digits_makeEvent]
  split
  · next h => rw [Except.ok.injEq, and_iff_right h]
  · next h => exact ⟨fun ht => (by cases ht), fun ht => absurd ht.1 h⟩

theorem encodable_eventText
    (h : eventText python eventType payload millis utcNow = .ok text) :
    Encodable text ↔
      Encodable eventType ∧ Encodable utcNow ∧ payload.Writable := by
  have hid : Encodable (eventType ++ py "-" ++ intText millis) ↔
      Encodable eventType := by
    constructor
    · intro h c hc
      exact h c (List.mem_append_left _ (List.mem_append_left _ hc))
    · intro h
      exact encodable_append (encodable_append h (by decide))
        (encodable_plain (plain_intText millis))
  have hkeys : ∀ k ∈ [py "event_id", py "event_type", py "occurred_at",
    py "source", py "payload", py "taxi-service"], Encodable k := by decide
  simp only [List.forall_mem_cons] at hkeys
  obtain ⟨-, rfl⟩ := (eventText_iff python).mp h
  rw [encodable_dumps, writable_entries]
  simp [-List.append_assoc, makeEvent, Entries, hid, hkeys]

theorem encodeText_iff {body : List UInt8} :
    (encodeText text : Except (PyExc F) (List UInt8)) = .ok body ↔
      Encodable text ∧ encodeUtf8 text = body := by
  rw [encodeText]
  split
  · next h => rw [Except.ok.injEq, and_iff_right h]
  · next h => exact ⟨fun ht => (by cases ht), fun ht => absurd ht.1 h⟩

end

theorem along_orRaise {α : Type} {x : Except (PyExc F) α}
    {f : α → Messenger F Unit} (hok : ∀ a, x = .ok a → (f a).Along P Q past)
    (herror : ∀ error, x = .error error → Q past (.error (.python error))) :
    (orRaise x >>= f).Along P Q past := by
  cases x with
  | ok a => exact hok a rfl
  | error error => exact herror error rfl

/-- What comes after the topology: nothing but the publication, if the event has
a text and that has an encoding. -/
theorem along_publication {eventType : PyStr} {payload : PyJson F} {millis : Int}
    {utcNow : PyStr} {errors : List PyStr} (hn : errors.length < 20) :
    (do
      let text ← orRaise (eventText python eventType payload millis utcNow)
      let body ← orRaise (encodeText text)
      pika (.basicPublish exchangeName eventType body eventProperties)
      let text ← orRaise (eventText python eventType payload millis utcNow)
      printLine python (py "published " ++ eventType ++ py ": " ++ text)
      pika .close : Messenger F Unit).Along
        (PublishCall python eventType payload)
        (PublishEnds python eventType payload)
        (prepared millis utcNow errors) := by
  refine along_orRaise (fun text htext => ?_) fun error htext =>
    .pastLimits hn htext
  refine along_orRaise (fun body hbody => ?_) fun error hbody => ?_
  · obtain ⟨he, rfl⟩ := encodeText_iff.mp hbody
    have htype := ((encodable_eventText python htext).mp he).1
    have hline : Encodable (py "published " ++ eventType ++ py ": " ++ text) :=
      encodable_append (encodable_append (encodable_append (by decide) htype)
        (by decide)) he
    refine along_then (A := (· = prepared millis utcNow errors ++
      [⟨publication eventType text, .ok ()⟩])) (along_pika
        (.publish hn htext he) ?_ fun error => .unanswered hn error htext) ?_
    · exact rfl
    rintro past rfl
    refine along_orRaise (fun text' htext' => ?_) fun error htext' => ?_
    · cases htext.symm.trans htext'
      rw [printLine, if_pos (python.prints_encodable hline)]
      refine ⟨.print hn htext, fun _ => ?_⟩
      rw [List.append_assoc]
      refine along_pika (.close hn htext) ?_ fun error => ?_
      · rw [List.append_assoc]
        exact .published hn htext
      · rw [List.append_assoc]
        exact .unclosed hn error htext
    · cases htext.symm.trans htext'
  · rw [encodeText] at hbody
    split at hbody
    · cases hbody
    · next he =>
        cases hbody
        exact .unencodable hn htext he

theorem along_publishEvent (eventType : PyStr) (payload : PyJson F) :
    (publishEvent python eventType payload).Along
      (PublishCall python eventType payload)
      (PublishEnds python eventType payload) [] := by
  rw [publishEvent_eq]
  refine ⟨.time, fun millis => ⟨.utcNow millis, fun utcNow => ?_⟩⟩
  exact along_connecting (fun past e h => .connecting h)
    (fun past x h => .connecting h)
    fun errors hn => along_publication python hn

/-! ## The consumer -/

theorem consumerMain_eq : consumerMain python = (do
    getConnection
    callAll consumerCalls
    printLine python startedText
    ask .startConsuming) := by
  simp only [consumerMain, declareTopology_eq, consumerCalls, callAll_append,
    List.cons_append, callAll, Prog.bind_assoc]
  rfl

theorem along_consumerMain :
    (consumerMain python).Along ConsumerCall ConsumerEnds [] := by
  rw [consumerMain_eq]
  refine along_connecting (fun past e h => .connecting h)
    (fun past x h => .connecting h) fun errors hn => ?_
  rw [printLine, if_pos (python.prints_encodable (by decide))]
  refine ⟨.print hn, fun _ => ⟨.start hn, fun _ => ?_⟩⟩
  rw [List.append_assoc _ [_]]
  exact .started hn

/-! ## A round of the consumer -/

abbrev ConsumerPast := Past ConsumerEffect ConsumerEffect.Result

/-- No call of the callback so far has settled the message. -/
def Unsettled (past : ConsumerPast) : Prop :=
  ∀ x ∈ past, settles (.host x.1) = false

/-- What a callback for a message with this tag may call. -/
def CallbackAt (tag : Nat) (past : ConsumerPast) (e : ConsumerEffect) : Prop :=
  Unsettled past ∧ CallbackCall tag e

section

variable {tag : Nat} {host : ConsumerPast}

theorem Unsettled.concat (h : Unsettled host) {e : ConsumerEffect}
    (he : settles (.host e) = false) (r : e.Result) :
    Unsettled (host ++ [⟨e, r⟩]) := by
  intro x hx
  rcases List.mem_append.mp hx with hx | hx
  · exact h x hx
  · rw [List.mem_singleton.mp hx]
    exact he

/-- A part of the callback that settles nothing. -/
abbrev Keeps (tag : Nat) {α : Type} (p : Consumer F α) : Prop :=
  ∀ host, Unsettled host →
    p.Along (CallbackAt tag) (fun host _ => Unsettled host) host

theorem keeps_act {e : ConsumerEffect} (he : settles (.host e) = false)
    (hc : CallbackCall tag e) : Keeps tag (act e : Consumer F e.Result) :=
  fun _ h => ⟨⟨h, hc⟩, fun r => h.concat he r⟩

theorem keeps_bind {α β : Type} {p : Consumer F α} {f : α → Consumer F β}
    (hp : Keeps tag p) (hf : ∀ a, Keeps tag (f a)) :
    Keeps tag (p >>= f) :=
  fun host h => Prog.along_bind (hp host h) (fun host a h => hf a host h)
    fun _ _ h => h

theorem keeps_pure {α : Type} (a : α) : Keeps tag (pure a : Consumer F α) :=
  fun _ h => h

theorem keeps_throw {α : Type} (x : PyExc F) :
    Keeps tag (.throw x : Consumer F α) := fun _ h => h

theorem keeps_ofExcept {α : Type} (x : Except (PyExc F) α) :
    Keeps tag (.ofExcept x : Consumer F α) :=
  fun _ h => Prog.along_ofExcept h

theorem keeps_printText (text : PyStr) :
    Keeps tag (printText python text) := by
  rw [printText]
  split
  · exact keeps_act rfl trivial
  · exact keeps_throw _

theorem keeps_writeChunks (v : PyJson F) (chunks : List Chunk) :
    Keeps tag (writeChunks python v chunks) := by
  induction chunks with
  | nil => exact keeps_pure ()
  | cons c chunks ih =>
      rw [writeChunks]
      split
      · refine keeps_bind ?_ fun _ => ih
        rw [writeText]
        split
        · exact keeps_act rfl trivial
        · exact keeps_throw _
      · exact keeps_throw _

theorem keeps_load : Keeps tag (loadReadModel python) := by
  refine keeps_bind (keeps_act rfl trivial) fun there => ?_
  cases there with
  | false => exact keeps_pure _
  | true =>
      exact keeps_bind (keeps_act rfl trivial) fun bytes =>
        keeps_bind (keeps_ofExcept _) fun text => keeps_ofExcept _

theorem keeps_save (model : PyJson F) :
    Keeps tag (saveReadModel python model) := by
  refine keeps_bind (keeps_act rfl trivial) fun _ =>
    keeps_bind (keeps_act rfl trivial) fun _ =>
      keeps_bind (fun host h => ?_) fun _ => keeps_act rfl trivial
  exact Prog.along_tryCatch (keeps_writeChunks python _ _ host h) (fun _ _ h => h)
    fun host x h => keeps_bind (keeps_act (e := .close) rfl trivial)
      (fun _ => keeps_throw x) host h

theorem keeps_update (event : PyJson F) :
    Keeps tag (updateReadModel python event) :=
  keeps_bind (keeps_load python) fun _ =>
    keeps_bind (keeps_ofExcept _) fun model => keeps_save python model

/-- A message is settled, by the last call. -/
def Settled (tag : Nat) (host : ConsumerPast) : Prop :=
  ∃ before e r, host = before ++ [⟨e, r⟩] ∧ Unsettled before ∧
    CallbackCall tag e ∧ settles (.host e) = true

/-- Where a part that settles the message may end: it has, unless it raised. -/
def SettledIfOk (tag : Nat) (host : ConsumerPast) :
    Except (PyExc F) Unit → Prop
  | .ok _ => Settled tag host
  | .error _ => Unsettled host

/-- The `try` block acknowledges the message, or raises and has not settled
it. -/
theorem along_tryMessage (body : List UInt8) (h : Unsettled host) :
    (tryMessage python tag body).Along (CallbackAt tag)
      (SettledIfOk tag) host := by
  have hack : ∀ host, Unsettled host →
      (act (.ack tag) : Consumer F Unit).Along (CallbackAt tag)
        (SettledIfOk tag) host :=
    fun host h => ⟨⟨h, rfl⟩, fun r => ⟨host, _, r, rfl, h, rfl, rfl⟩⟩
  have hthen : ∀ {α : Type} {p : Consumer F α} {f : α → Consumer F Unit},
      Keeps tag p → (∀ a host, Unsettled host →
        (f a).Along (CallbackAt tag) (SettledIfOk tag) host) →
      ∀ host, Unsettled host →
        (p >>= f).Along (CallbackAt tag) (SettledIfOk tag) host :=
    fun hp hf host h => Prog.along_bind (hp host h)
      (fun host a h => hf a host h) fun _ _ h => h
  refine hthen (keeps_ofExcept _) (fun event => ?_) host h
  refine hthen (keeps_ofExcept _) fun text => ?_
  refine hthen (keeps_printText python text) fun _ => ?_
  refine hthen (keeps_ofExcept _) fun eventType => ?_
  refine hthen (keeps_ofExcept _) fun isRide => ?_
  cases isRide with
  | true => exact hthen (keeps_update python event) fun _ => hack
  | false => exact hack

theorem along_handleMessage (body : List UInt8) :
    (handleMessage python tag body).Along (CallbackAt tag)
      (fun host out => out = .ok () ∧ Settled tag host) [] := by
  have hnil : Unsettled [] := fun x hx => absurd hx List.not_mem_nil
  refine Prog.along_tryCatch (along_tryMessage python body hnil)
    (fun host u h => ⟨rfl, h⟩) fun host x h => ?_
  have hline : Encodable (py "failed to process message: " ++
      python.errorText x) :=
    encodable_append (by decide) (python.errorText_encodable x)
  rw [printText, if_pos (python.prints_encodable hline)]
  have hu : Unsettled host := h
  refine ⟨⟨hu, trivial⟩, fun r => ⟨⟨hu.concat rfl r, rfl, rfl⟩, fun r' => ?_⟩⟩
  exact ⟨rfl, _, _, r', rfl, hu.concat rfl r, ⟨rfl, rfl⟩, rfl⟩

end

/-- The calls of a callback, after the message it got. -/
def afterReceive (message : Nat × List UInt8) (host : ConsumerPast) :
    MessagingPast :=
  ⟨.receive, some message⟩ :: host.map fun x => ⟨.host x.1, x.2⟩

theorem open_afterReceive {message : Nat × List UInt8} {host : ConsumerPast}
    (h : Unsettled host) : Open message (afterReceive message host) := by
  refine .intro fun x hx => ?_
  obtain ⟨y, hy, rfl⟩ := List.mem_map.mp hx
  exact h y hy

theorem afterReceive_concat (message : Nat × List UInt8) (host : ConsumerPast)
    (e : ConsumerEffect) (r : e.Result) :
    afterReceive message (host ++ [⟨e, r⟩]) =
      afterReceive message host ++ [⟨.host e, r⟩] := by
  rw [afterReceive, List.map_append]
  rfl

theorem afterReceive_next (message : Nat × List UInt8) (host : ConsumerPast)
    (past : MessagingPast) (e : ConsumerEffect) (r : e.Result)
    (h : past = afterReceive message host) : past ++ [⟨.host e, r⟩] =
      afterReceive message (host ++ [⟨e, r⟩]) := by
  rw [h, afterReceive_concat]

theorem along_consumerRound :
    (consumerRound python).Along RoundCall RoundEnds [] := by
  refine ⟨.receive, fun message => ?_⟩
  cases message with
  | none => exact .nothing
  | some message =>
      have h : ((handleMessage python message.1 message.2).embed
          MessagingEffect.host fun _ r => r).Along RoundCall
            (fun past out => out = .ok () ∧
              RoundEnds past (.ok () : Except (ServiceExc F) Unit))
            (afterReceive message []) := by
        refine (along_handleMessage python message.2).embed rfl
          (afterReceive_next message) ?_ ?_
        · rintro host past e rfl ⟨hu, hc⟩
          exact .host (open_afterReceive hu) hc
        · rintro host past out rfl ⟨hout, before, e, r, rfl, hu, hc, hs⟩
          rw [afterReceive_concat]
          exact ⟨hout, .settled (open_afterReceive hu) hc hs⟩
      refine Prog.along_tryCatch h (fun past u h => ?_) fun past x h => ?_
      · exact h.2
      · cases h.1

/-! ## Every request -/

theorem along_messagingBody (request : MessagingRequest F) :
    (messagingBody python request).Along (Calls python request)
      (Ends python request) [] := by
  cases request with
  | publish eventType payload => exact along_publishEvent python eventType payload
  | produce args =>
      rw [messagingBody, producerMain]
      cases hp : eventPayload args with
      | error x =>
          refine ⟨fun y hy => ?_, fun payload h => ?_⟩
          · rw [hp] at hy
            cases hy
            exact ⟨rfl, rfl⟩
          · rw [hp] at h
            cases h
      | ok payload =>
          refine (along_publishEvent python args.eventType (.dict payload)).imp
            (fun past e h => ⟨payload, hp, h⟩) fun past out h => ⟨?_, ?_⟩
          · intro x hx
            rw [hp] at hx
            cases hx
          · intro payload' hp'
            rw [hp] at hp'
            cases hp'
            exact h
  | consumer => exact along_consumerMain python
  | round => exact along_consumerRound python

end TaxiService.Proofs
