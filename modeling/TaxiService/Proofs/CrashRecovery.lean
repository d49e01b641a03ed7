import TaxiService.Proofs.Atomicity
import TaxiService.Proofs.Redelivery
import TaxiService.Spec.CrashRecovery

/-!
# Recovery

A ride only ever moves to a later section (`applyEvent_rides`), so a model has
every event it was made of, however long ago. It remains to follow one message
through its calls (`throughout_handleMessage`): the file on disk is the old one
until it is opened and the new one once it is closed, and in between no kill is
allowed. Between the messages the file is then always one that has what was
acknowledged (`Sound`), and that is kept by every event of a run.
-/

namespace TaxiService.Proofs

open TaxiService.Lib TaxiService.Model TaxiService.Spec

variable {F : Type} (python : Python F)

/-! ## Rides move on -/

theorem reached_self (slot : Slot) : slot ∈ reached slot := by
  cases slot <;> decide

theorem reached_trans {a b c : Slot} (h : b ∈ reached a) (h' : c ∈ reached b) :
    c ∈ reached a := by
  revert h h'
  cases a <;> cases b <;> cases c <;> decide

theorem reached_source {slot source : Slot} (h : sourceOf slot = some source) :
    slot ∈ reached source := by
  cases slot <;> cases h <;> decide

theorem isSome_put (m : ReadModel F) (slot slot' : Slot)
    (rideId rideId' : PyStr) {ride : PyJson F} (h : ride.Keyed) :
    (((m.put slot rideId ride h).rides slot').get? rideId').isSome =
      (decide (slot = slot' ∧ rideId = rideId') ||
        ((m.rides slot').get? rideId').isSome) := by
  rw [get?_put]
  split
  · next hs => simp [hs]
  · next hs => simp [hs]

theorem isSome_drop (m : ReadModel F) (slot slot' : Slot)
    (rideId rideId' : PyStr) :
    (((m.drop slot rideId).rides slot').get? rideId').isSome =
      (!decide (slot = slot' ∧ rideId = rideId') &&
        ((m.rides slot').get? rideId').isSome) := by
  rw [get?_drop]
  split
  · next hs => simp [hs]
  · next hs => simp [hs]

/-- The event's ride is in its section, and no ride is taken back. -/
theorem applyRide_rides {m : ReadModel F} {t : PyStr} {payload w : PyJson F}
    (hk : payload.Keyed)
    (h : applyRide python m.json (.str t) payload = .ok w) :
    ∃ next : ReadModel F, w = next.json ∧
      (∀ slot rideId, t = eventTypeOf slot →
        rideIdOf python payload = .ok rideId →
        ((next.rides slot).get? rideId).isSome) ∧
      ∀ slot rideId, ((m.rides slot).get? rideId).isSome →
        ∃ slot' ∈ reached slot, ((next.rides slot').get? rideId).isSome := by
  have hinj : ∀ {slot slot' : Slot}, eventTypeOf slot = eventTypeOf slot' →
      slot = slot' := by
    intro slot slot'
    cases slot <;> cases slot' <;> decide
  rcases applyRide_cases python hk h with ⟨ht, rfl⟩ | ⟨rideId, rfl, hid, rfl⟩ |
    ⟨slot, source, rideId, record, p, hu, hs, rfl, rfl, hid, -, rfl⟩
  · exact ⟨m, rfl, fun slot _ hslot => absurd hslot (ht slot),
      fun slot _ hm => ⟨slot, reached_self slot, hm⟩⟩
  · refine ⟨m.put .opened rideId payload hk, rfl,
      fun slot rideId' hslot hid' => ?_,
      fun slot rideId' hm => ⟨slot, reached_self slot, ?_⟩⟩
    · cases hinj hslot
      cases hid.symm.trans hid'
      simp [isSome_put]
    · rw [isSome_put, hm, Bool.or_true]
  · refine ⟨(m.drop source rideId).put slot rideId _ hu, rfl,
      fun slot' rideId' hslot hid' => ?_, fun slot' rideId' hm => ?_⟩
    · cases hinj hslot
      cases hid.symm.trans hid'
      simp [isSome_put]
    · by_cases hmoved : source = slot' ∧ rideId = rideId'
      · -- The ride that is taken out of one section is put in the next.
        obtain ⟨rfl, rfl⟩ := hmoved
        exact ⟨slot, reached_source hs, by simp [isSome_put]⟩
      · refine ⟨slot', reached_self slot', ?_⟩
        rw [isSome_put, isSome_drop, hm]
        simp [hmoved]

/-- An updated model has the event, and the events it had. -/
theorem applyEvent_reflects {m : ReadModel F} {event w : PyJson F} {t : PyStr}
    (hk : event.Keyed)
    (ht : Py.getItem event (py "event_type") = .ok (.str t))
    (h : applyEvent python m.json event = .ok w) : ∃ next : ReadModel F,
    w = next.json ∧ Reflects python w event ∧
      ∀ event', Reflects python m.json event' → Reflects python w event' := by
  obtain ⟨t', ht', h⟩ := bind_ok h
  cases ht.symm.trans ht'
  obtain ⟨payload, hp, h⟩ := bind_ok h
  obtain ⟨w₁, happly, hlog⟩ := bind_ok h
  obtain ⟨next, rfl, hown, hkept⟩ :=
    applyRide_rides python (getItem_keyed hk hp) happly
  obtain ⟨eventId, occurredAt, hid, hat⟩ := logEvent_ok hlog
  have hentry := keyed_entryOf (show (.str t : PyJson F).Keyed from trivial)
    (getItem_keyed hk hid) (getItem_keyed hk hat)
  rw [logEvent_json next hid hat hentry] at hlog
  cases hlog
  have hrides : ∀ slot, ridesOf (next.log _ hentry).json slot = next.rides slot :=
    fun slot => ridesOf_json _ slot
  refine ⟨_, rfl, fun slot payload' rideId ht' hp' hid' => ?_,
    fun event' hevent slot payload' rideId ht' hp' hid' => ?_⟩
  · cases hp.symm.trans hp'
    refine ⟨slot, reached_self slot, ?_⟩
    rw [hrides]
    have hslot := PyJson.str.inj (Except.ok.inj (ht.symm.trans ht'))
    exact hown slot rideId hslot hid'
  · obtain ⟨slot₁, hslot₁, hsome⟩ := hevent slot payload' rideId ht' hp' hid'
    rw [ridesOf_json] at hsome
    obtain ⟨slot₂, hslot₂, hsome⟩ := hkept slot₁ rideId hsome
    exact ⟨slot₂, reached_trans hslot₁ hslot₂, by rw [hrides]; exact hsome⟩

/-! ## What the file has -/

/-- A message that is for no ride adds nothing to record. -/
theorem recorded_other {model : PyJson F} {bodies : List (List UInt8)}
    (h : Recorded python model bodies) {body : List UInt8}
    (hb : ∀ event, ¬ IsRideEvent python body event) :
    Recorded python model (bodies ++ [body]) := by
  obtain ⟨events, hfold, hall⟩ := h
  refine ⟨events, hfold, fun body' hbody' event hevent => ?_⟩
  rcases List.mem_append.mp hbody' with hbody' | hbody'
  · exact hall body' hbody' event hevent
  · rw [List.mem_singleton.mp hbody'] at hevent
    exact absurd hevent (hb event)

/-- Folding the event of a message in records the message. -/
theorem recorded_step {m : ReadModel F} {bodies : List (List UInt8)}
    (h : Recorded python m.json bodies) {body : List UInt8} {event w : PyJson F}
    (hevent : IsRideEvent python body event)
    (ha : applyEvent python m.json event = .ok w) :
    Recorded python w (bodies ++ [body]) := by
  obtain ⟨events, hfold, hall⟩ := h
  obtain ⟨hparse, t, ht, -⟩ := hevent
  obtain ⟨next, -, hself, hkept⟩ := applyEvent_reflects python
    (parseBody_keyed python hparse) ht ha
  refine ⟨events ++ [event], ?_, fun body' hbody' event' hevent' => ?_⟩
  · rw [List.foldlM_append, hfold]
    exact (bind_pure _).trans ha
  · rcases List.mem_append.mp hbody' with hbody' | hbody'
    · obtain ⟨hmem, hreflects⟩ := hall body' hbody' event' hevent'
      exact ⟨List.mem_append_left _ hmem, hkept event' hreflects⟩
    · rw [List.mem_singleton.mp hbody'] at hevent'
      cases hparse.symm.trans hevent'.1
      exact ⟨List.mem_append_right _ List.mem_cons_self, hself⟩

/-! ## The calls of one message -/

section

variable {allowed I : ConsumerEffect → Host → Prop}

theorem throughout_load {host : Host} (hI : ∀ e, I e host) :
    (loadReadModel python).Throughout callHost allowed I
      (fun out s => out = loaded python host.disk ∧ s = host) host := by
  obtain ⟨disk, writer, verdicts⟩ := host
  cases disk with
  | none => exact ⟨hI _, fun _ => ⟨rfl, rfl⟩⟩
  | some bytes =>
      refine ⟨hI _, fun _ => ⟨hI _, fun _ => ?_⟩⟩
      show (Prog.ofExcept (Py.decode bytes) >>= fun text => Prog.ofExcept
        (Py.jsonLoads python python.limits.load (universalNewlines text)) :
        Consumer F (PyJson F)).Throughout callHost allowed I _ _
      rw [loaded_some]
      cases (Py.decode bytes : Except (PyExc F) PyStr) with
      | error x => exact ⟨rfl, rfl⟩
      | ok text => exact Prog.throughout_ofExcept ⟨rfl, rfl⟩

theorem throughout_writeChunks {v : PyJson F} {cs : List Chunk}
    (h : ∀ c ∈ cs, Fits python c)
    (hI : ∀ b (s : Host), s.writer.isSome → I (.write b) s) (host : Host)
    {w : List UInt8} (hw : host.writer = some w) :
    (writeChunks python v cs).Throughout callHost allowed I
      (fun out s => out = .ok () ∧ s = { host with
        writer := some (w ++ encodeUtf8 (texts cs).flatten) }) host := by
  induction cs generalizing host w with
  | nil => exact ⟨rfl, (writer_nil hw).symm⟩
  | cons c cs ih =>
      rw [List.forall_mem_cons] at h
      obtain ⟨hframes, hdigits, he⟩ := h.1
      rw [writeChunks, if_pos ⟨hframes, hdigits⟩, writeText, if_pos he]
      refine ⟨hI _ host (by rw [hw]; rfl), fun _ => ?_⟩
      have hnext : (callHost (.write (encodeUtf8 c.text)) host).2.writer =
          some (w ++ encodeUtf8 c.text) := by
        show host.writer.map _ = _
        rw [hw]
        rfl
      have := ih h.2 _ hnext
      rw [List.append_assoc, ← encodeUtf8_append] at this
      exact this

/-- Before a save opens the file everything it writes must be such that it can
be written; then it writes the whole document and closes the file. -/
theorem throughout_save {v : PyJson F} {host : Host} (hI : ∀ e, I e host)
    (hopen : allowed .openWrite host → Saved python 0 v)
    (hwrite : ∀ b (s : Host), s.writer.isSome → I (.write b) s)
    (hclose : Saved python 0 v → I .close { host with
      disk := some [], writer := some (fileOf python v) }) :
    (saveReadModel python v).Throughout callHost allowed I
      (fun out s => out = .ok () ∧ Saved python 0 v ∧ s = { host with
        disk := some (fileOf python v), writer := none }) host := by
  refine ⟨hI _, fun _ => ⟨hI _, fun ha => ?_⟩⟩
  have hsaved := hopen ha
  have hall := (fits_iterencode python.float v _ _ 0).mpr hsaved
  let opened : Host := { host with disk := some [], writer := some [] }
  have htry : Prog.Throughout callHost allowed I
      (fun out s => out = .ok () ∧ s = { host with
        disk := some [], writer := some (fileOf python v) })
      ((writeChunks python v (iterencode python.float 0 v)).tryCatch
        fun error => do
          act .close
          .throw error) opened :=
    Prog.throughout_tryCatch
      (throughout_writeChunks python hall hwrite opened rfl)
      (fun a s hs => hs) (fun x s hs => by cases hs.1)
  show ((writeChunks python v (iterencode python.float 0 v)).tryCatch
    (fun error => do
      act .close
      .throw error) >>= fun _ => act .close : Consumer F Unit).Throughout
      callHost allowed I _ opened
  refine Prog.throughout_bind htry (fun a s hs => ?_) (fun x s hs => by
    cases hs.1)
  rw [hs.2]
  exact ⟨hclose hsaved, fun _ => ⟨rfl, hsaved, rfl⟩⟩

end

theorem recorded_mono {model : PyJson F} {bodies bodies' : List (List UInt8)}
    (h : Recorded python model (bodies ++ bodies')) :
    Recorded python model bodies := by
  obtain ⟨events, hfold, hall⟩ := h
  exact ⟨events, hfold, fun body hbody =>
    hall body (List.mem_append_left _ hbody)⟩

/-- The file has what the broker calls so far acknowledged. -/
structure Good (delivered : List (List UInt8)) (host : Host) : Prop where
  tags : ∀ p ∈ host.verdicts, p.1 < delivered.length
  model : ∃ m : ReadModel F, loaded python host.disk = .ok m.json ∧
    Recorded python m.json (ackedOf delivered host.verdicts)

/-- So it has after every kill that is allowed at this call. -/
def Point (delivered : List (List UInt8)) (e : ConsumerEffect) (host : Host) :
    Prop :=
  ∀ flushed, ¬ Torn e host flushed → Good python delivered (host.crash flushed)

variable {delivered : List (List UInt8)} {host : Host}

theorem crash_quiet (hw : host.writer = none) (flushed : Nat) :
    host.crash flushed = host := by
  obtain ⟨disk, writer, verdicts⟩ := host
  cases hw
  rfl

theorem point_quiet (hw : host.writer = none) (h : Good python delivered host)
    (e : ConsumerEffect) : Point python delivered e host := by
  intro flushed _
  rw [crash_quiet hw]
  exact h

theorem point_write (b : List UInt8) (s : Host) (hs : s.writer.isSome) :
    Point python delivered (.write b) s := by
  intro flushed hn
  obtain ⟨w, hw⟩ := Option.isSome_iff_exists.mp hs
  exact absurd ⟨w, hw, nofun⟩ hn

theorem ackedOf_ack {tag : Nat} {body : List UInt8}
    (h : delivered[tag]? = some body) (verdicts : List (Nat × Verdict)) :
    ackedOf delivered (verdicts ++ [(tag, .ack)]) =
      ackedOf delivered verdicts ++ [body] := by
  simp [ackedOf, List.filterMap_append, h]

theorem ackedOf_nack (tag : Nat) (verdicts : List (Nat × Verdict)) :
    ackedOf delivered (verdicts ++ [(tag, .nack)]) =
      ackedOf delivered verdicts := by
  simp [ackedOf, List.filterMap_append]

theorem tags_append {tag : Nat} {body : List UInt8}
    (h : delivered[tag]? = some body) {verdicts : List (Nat × Verdict)}
    (htags : ∀ p ∈ verdicts, p.1 < delivered.length) (verdict : Verdict) :
    ∀ p ∈ verdicts ++ [(tag, verdict)], p.1 < delivered.length := by
  rw [List.forall_mem_append]
  exact ⟨htags, List.forall_mem_singleton.mpr (List.getElem?_eq_some_iff.mp h).1⟩

/-- An update either raises and changes nothing, or it replaces the file. -/
theorem throughout_update {body : List UInt8} {event : PyJson F}
    (hr : received python body = .ok (event, true))
    (hw : host.writer = none) (hgood : Good python delivered host) :
    (updateReadModel python event).Throughout callHost (MayOpen python body)
      (Point python delivered) (fun out s =>
        (∃ x, out = .error x ∧ s = host) ∨ out = .ok () ∧ ∃ next : ReadModel F,
          loaded python (some (fileOf python next.json)) = .ok next.json ∧
          Recorded python next.json (ackedOf delivered host.verdicts ++ [body]) ∧
          s = { host with
            disk := some (fileOf python next.json), writer := none })
      host := by
  have hquiet := point_quiet python hw hgood
  obtain ⟨htags, m, hm, hrecorded⟩ := hgood
  obtain ⟨hparse, t, payload, ht, -, hride⟩ := received_ok python hr
  have hevent : IsRideEvent python body event :=
    ⟨hparse, t, ht, List.isPrefixOf_iff_prefix.mp hride.symm⟩
  refine Prog.throughout_bind (throughout_load python hquiet)
    (fun model s hs => ?_) (fun x s hs => .inl ⟨x, rfl, hs.2⟩)
  obtain ⟨hmodel, rfl⟩ := hs
  cases hmodel.trans hm
  cases ha : applyEvent python m.json event with
  | error x => exact .inl ⟨x, rfl, rfl⟩
  | ok w =>
      obtain ⟨next, rfl, hsavable⟩ := applyEvent_savable python hr hm ha
      have hnext := recorded_step python hrecorded hevent ha
      have hclosed : Saved python 0 next.json → Point python delivered .close
          { s with
            disk := some [], writer := some (fileOf python next.json) } := by
        intro hs flushed hn
        have hlen : (fileOf python next.json).length ≤ flushed := by
          by_contra hlt
          exact hn ⟨_, rfl, fun _ => by omega⟩
        refine ⟨htags, next, ?_, recorded_mono python hnext⟩
        show loaded python (some ((fileOf python next.json).take flushed)) = _
        rw [List.take_of_length_le hlen]
        exact loaded_fileOf next.keyed hs
      refine (throughout_save python hquiet (fun hmay => hsavable (hmay rfl))
        (point_write python) hclosed).imp fun out s' hs' => ?_
      exact .inr ⟨hs'.1, next, loaded_fileOf next.keyed hs'.2.1, hnext,
        hs'.2.2⟩

/-- The end of a message: the calls so far changed nothing and it is rejected,
or the file has the message as well. -/
def Handled (delivered : List (List UInt8)) (host : Host)
    (out : Except (PyExc F) Unit) (s : Host) : Prop :=
  (∃ x, out = .error x ∧ s = host) ∨
    out = .ok () ∧ s.writer = none ∧ Good python delivered s

theorem throughout_acked {tag : Nat} {body : List UInt8}
    (htag : delivered[tag]? = some body) {s : Host} (hw : s.writer = none)
    (hgood : Good python delivered s) {m : ReadModel F}
    (hm : loaded python s.disk = .ok m.json)
    (hrecorded :
      Recorded python m.json (ackedOf delivered s.verdicts ++ [body])) :
    (act (.ack tag) : Consumer F Unit).Throughout callHost
      (MayOpen python body) (Point python delivered)
      (Handled python delivered host) s := by
  refine ⟨point_quiet python hw hgood _, fun _ => .inr ⟨rfl, hw,
    tags_append htag hgood.tags _, m, hm, ?_⟩⟩
  show Recorded python m.json (ackedOf delivered (s.verdicts ++ [(tag, .ack)]))
  rw [ackedOf_ack htag]
  exact hrecorded

theorem throughout_tryMessage {tag : Nat} {body : List UInt8}
    (htag : delivered[tag]? = some body) (hw : host.writer = none)
    (hgood : Good python delivered host) :
    (tryMessage python tag body).Throughout callHost (MayOpen python body)
      (Point python delivered) (Handled python delivered host) host := by
  have hquiet := point_quiet python hw hgood
  have hraise : ∀ x, Handled python delivered host (.error x) host :=
    fun x => .inl ⟨x, rfl, rfl⟩
  refine Prog.throughout_ofExcept_bind (fun event hparse => ?_)
    fun x _ => hraise x
  refine Prog.throughout_ofExcept_bind (fun text htext => ?_)
    fun x _ => hraise x
  by_cases he : python.Prints text
  · rw [printText, if_pos he]
    refine ⟨hquiet _, fun _ => ?_⟩
    refine Prog.throughout_ofExcept_bind (fun eventType ht => ?_)
      fun x _ => hraise x
    refine Prog.throughout_ofExcept_bind (fun ride hride => ?_)
      fun x _ => hraise x
    have hr : received python body = .ok (event, ride) := by
      rw [received, hparse]
      show (receivedText python event >>= _) = _
      rw [htext]
      show (if python.Prints text then _ else _) = _
      rw [if_pos he, ht]
      show (Py.startsWith eventType (py "ride.") >>= _) = _
      rw [hride]
      rfl
    cases ride with
    | false =>
        obtain ⟨m, hm, hrecorded⟩ := hgood.model
        refine throughout_acked python htag hw hgood hm
          (recorded_other python hrecorded fun event' hevent => ?_)
        obtain ⟨hparse', t, ht', hpre⟩ := hevent
        cases hparse.symm.trans hparse'
        cases ht.symm.trans ht'
        rw [Py.startsWith, List.isPrefixOf_iff_prefix.mpr hpre] at hride
        cases hride
    | true =>
        refine Prog.throughout_bind (throughout_update python hr hw hgood)
          (fun _ s hs => ?_) (fun x s hs => ?_)
        · rcases hs with ⟨x, hx, -⟩ | ⟨-, next, hm, hrecorded, rfl⟩
          · cases hx
          · exact throughout_acked python htag rfl
              ⟨hgood.tags, next, hm, recorded_mono python hrecorded⟩ hm hrecorded
        · rcases hs with ⟨-, -, hs⟩ | ⟨hx, -⟩
          · exact hs ▸ hraise x
          · cases hx
  · rw [printText, if_neg he]
    exact hraise _

/-- Handling a message leaves, at every point where a kill is allowed and at its
end, a file that has what was acknowledged. -/
theorem throughout_handleMessage {tag : Nat} {body : List UInt8}
    (htag : delivered[tag]? = some body) (hw : host.writer = none)
    (hgood : Good python delivered host) :
    (handleMessage python tag body).Throughout callHost (MayOpen python body)
      (Point python delivered)
      (fun _ s => s.writer = none ∧ Good python delivered s) host := by
  have hquiet := point_quiet python hw hgood
  refine Prog.throughout_tryCatch (throughout_tryMessage python htag hw hgood)
    (fun _ s hs => ?_) (fun x s hs => ?_)
  · rcases hs with ⟨x, hx, -⟩ | hs
    · cases hx
    · exact hs.2
  · rcases hs with ⟨-, -, rfl⟩ | ⟨hx, -⟩
    · rw [printText, if_pos (python.prints_encodable
        (encodable_append (by decide) (python.errorText_encodable x)))]
      obtain ⟨m, hm, hrecorded⟩ := hgood.model
      refine ⟨hquiet _, fun _ => ⟨hquiet _, fun _ => ⟨hw,
        tags_append htag hgood.tags _, m, hm, ?_⟩⟩⟩
      show Recorded python m.json
        (ackedOf delivered (s.verdicts ++ [(tag, .nack)]))
      rw [ackedOf_nack]
      exact hrecorded
    · cases hx

/-! ## The run of the consumer -/

/-- A delivery does not change what was acknowledged before. -/
theorem ackedOf_delivered {verdicts : List (Nat × Verdict)}
    (h : ∀ p ∈ verdicts, p.1 < delivered.length) (body : List UInt8) :
    ackedOf (delivered ++ [body]) verdicts = ackedOf delivered verdicts := by
  refine List.filterMap_congr fun p hp => ?_
  rw [List.getElem?_append_left (h p hp)]

theorem good_delivered (h : Good python delivered host) (body : List UInt8) :
    Good python (delivered ++ [body]) host := by
  obtain ⟨htags, m, hm, hrecorded⟩ := h
  refine ⟨fun p hp => ?_, m, hm, ?_⟩
  · have := htags p hp
    rw [List.length_append]
    omega
  · rw [ackedOf_delivered htags]
    exact hrecorded

/-- Between the messages the file is closed and has what was acknowledged, and
the message at hand leaves such a file wherever it may be killed. -/
structure Sound (s : Deployment F) : Prop where
  idle : s.current = none → s.host.writer = none ∧ Good python s.delivered s.host
  busy : ∀ d, s.current = some d → d.rest.Throughout callHost
    (MayOpen python d.body) (Point python s.delivered)
    (fun _ host => host.writer = none ∧ Good python s.delivered host) s.host

theorem sound_start : Sound python (Deployment.start : Deployment F) where
  idle _ := ⟨rfl, nofun, .empty, rfl, [], rfl, nofun⟩
  busy _ hd := by cases hd

theorem sound_release {s : Deployment F} (hw : s.host.writer = none)
    (hgood : Good python s.delivered s.host) : Sound python s.release := by
  rw [Deployment.release]
  split
  · next hc => exact ⟨fun _ => ⟨hw, hgood⟩, fun d hd => by cases hc.symm.trans hd⟩
  · exact ⟨fun _ => ⟨hw, hgood⟩, fun d hd => by cases hd⟩

theorem sound_step {s : Deployment F} (h : Sound python s)
    (e : DeploymentEvent) (hsafe : Safely python s e) :
    Sound python (deploymentStep python s e) := by
  cases e with
  | publish body => exact ⟨h.idle, h.busy⟩
  | deliver n =>
      rw [deploymentStep]
      split
      · next body hc hready =>
          obtain ⟨hw, hgood⟩ := h.idle hc
          refine ⟨nofun, fun d hd => ?_⟩
          cases hd
          exact throughout_handleMessage python
            List.getElem?_concat_length hw (good_delivered python hgood body)
      · exact h
  | step =>
      rw [deploymentStep]
      split
      · exact h
      · next d hd =>
          have hnext := (h.busy d hd).step fun e k hop => hsafe d hd e k hop
          dsimp only
          split
          · next hdone =>
              obtain ⟨-, hw, hgood⟩ := hnext.outcome hdone
              exact sound_release python hw hgood
          · refine ⟨nofun, fun d' hd' => ?_⟩
            cases hd'
            exact hnext
  | kill flushed =>
      cases hc : s.current with
      | none =>
          obtain ⟨hw, hgood⟩ := h.idle hc
          have hcrash := crash_quiet hw flushed
          exact sound_release python (by rw [hcrash]; exact hw)
            (by rw [hcrash]; exact hgood)
      | some d =>
          have hrest := h.busy d hc
          refine sound_release python rfl ?_
          cases hop : d.rest with
          | op e k =>
              rw [hop] at hrest
              exact hrest.1 flushed (hsafe d hc e k hop)
          | pure a =>
              rw [hop] at hrest
              rw [crash_quiet hrest.1]
              exact hrest.2
          | throw x =>
              rw [hop] at hrest
              rw [crash_quiet hrest.1]
              exact hrest.2

/-- Where no kill tears the file, it can be loaded after every restart and has
every ride event that was acknowledged. -/
theorem recovered_of_safely (events : List DeploymentEvent)
    (h : AllSteps (deploymentStep python) (Safely python) .start events) :
    Recovered python (run (deploymentStep python) .start events) := by
  have hsound : Sound python (run (deploymentStep python) .start events) := by
    exact run_induction_of (P := Sound python)
      (fun s e hsafe hs => sound_step python hs e hsafe) h
      (sound_start python)
  intro hidle
  obtain ⟨-, -, m, hm, hrecorded⟩ := hsound.idle hidle
  exact ⟨m.json, hm, hrecorded⟩

/-! ## A kill inside a save -/

theorem allSteps_imp {σ ι : Type} {step : σ → ι → σ} {ok ok' : σ → ι → Prop}
    (himp : ∀ s i, ok s i → ok' s i) {s : σ} {is : List ι}
    (h : AllSteps step ok s is) : AllSteps step ok' s is := by
  rw [allSteps_iff] at h ⊢
  exact fun js i ks heq => himp _ i (h js i ks heq)

/-- The message a producer publishes for a ride that is created. -/
def createdMessage : List UInt8 :=
  encodeUtf8 (dumps PyFloat.literal created.json)

theorem createdMessage_acked :
    (handled Python.ascii none 0 createdMessage).2.verdicts = [(0, .ack)] := by
  decide +kernel

theorem createdMessage_savable :
    Savable Python.ascii none createdMessage := by
  rcases savable_or_torn Python.ascii none 0 createdMessage with
    h | ⟨part, -, hrun⟩
  · exact h
  · have hack := createdMessage_acked
    rw [hrun] at hack
    cases hack

/-- The process is killed before it opens the file; the message is handled
after the restart. -/
def killedEarly : List DeploymentEvent :=
  [.publish createdMessage, .deliver 0, .step, .step, .kill 0, .deliver 0] ++
    List.replicate 70 .step

/-- A condition on what `killedEarly` runs through that can be computed. -/
def Quiet {F : Type} (s : Deployment F) (e : DeploymentEvent) : Prop :=
  match e, s.current with
  | .step, some ⟨_, body, .op .openWrite _⟩ =>
      s.host.disk = none ∧ body = createdMessage
  | .kill _, _ => s.host.writer = none
  | _, _ => True

instance {F : Type} (s : Deployment F) (e : DeploymentEvent) :
    Decidable (Quiet s e) := by
  unfold Quiet
  split <;> infer_instance

theorem safely_of_quiet {s : Deployment _} {e : DeploymentEvent}
    (h : Quiet s e) : Safely Python.ascii s e := by
  cases e with
  | step =>
      intro d hd e k hop he
      subst he
      obtain ⟨tag, body, rest⟩ := d
      cases hop
      simp only [Quiet, hd] at h
      rw [h.1, h.2]
      exact createdMessage_savable
  | kill flushed =>
      rintro d - e k - ⟨w, hw, -⟩
      cases hw.symm.trans h
  | _ => trivial

theorem recovered_of_safely_early : Recovered Python.ascii
    (run (deploymentStep Python.ascii) .start killedEarly) :=
  recovered_of_safely Python.ascii killedEarly
    (allSteps_imp (fun _ _ => safely_of_quiet) (by decide +kernel))

/-- The process is killed right after it opened the file. -/
def killedInSave : List DeploymentEvent :=
  [.publish createdMessage, .deliver 0] ++ List.replicate 4 .step ++ [.kill 0]

/-- The file is empty after the restart, and an empty file cannot be loaded. -/
theorem killedInSave_not_recovered : ¬ Recovered Python.ascii
    (run (deploymentStep Python.ascii) .start killedInSave) := by
  intro h
  have hdisk : (run (deploymentStep Python.ascii) .start
      killedInSave).host.disk = some [] := by decide +kernel
  have hidle : (run (deploymentStep Python.ascii) .start
      killedInSave).current.isNone := by decide +kernel
  obtain ⟨model, hload, -⟩ := h (Option.isNone_iff_eq_none.mp hidle)
  rw [hdisk] at hload
  cases hload

end TaxiService.Proofs
