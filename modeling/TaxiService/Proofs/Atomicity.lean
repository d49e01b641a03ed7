import TaxiService.Proofs.RideUpdates

/-!
# When a message is handled without a trace

Before the save, every failure leaves the file alone: nothing has been opened
for writing yet. So what decides is whether the updated model can be saved, and
it consists of what the event leaves together with what the event adds
(`applyEvent_leaves`).

A save that raises leaves a part of a document. That part cannot be loaded, so
it differs from any well-formed file, and the nack then comes with a file that
is not what it was.
-/

namespace TaxiService.Proofs

open TaxiService.Lib TaxiService.Model TaxiService.Spec

variable {F : Type} (python : Python F)

/-! ## Before the file -/

theorem parseBody_keyed {body : List UInt8} {event : PyJson F}
    (h : parseBody python body = .ok event) : event.Keyed := by
  obtain ⟨text, -, h⟩ := bind_ok h
  rw [Py.jsonLoads] at h
  split at h
  · next v hv =>
      cases h
      exact loads_keyed python.float hv
  · cases h

/-- What a message that has been received looks like. -/
theorem received_ok {body : List UInt8} {event : PyJson F} {ride : Bool}
    (h : received python body = .ok (event, ride)) :
    parseBody python body = .ok event ∧ ∃ t payload,
      Py.getItem event (py "event_type") = .ok (.str t) ∧
      Py.getItem event (py "payload") = .ok payload ∧
      ride = (py "ride.").isPrefixOf t := by
  obtain ⟨event', hparse, h⟩ := bind_ok h
  obtain ⟨text, htext, h⟩ := bind_ok h
  split at h
  · obtain ⟨eventType, ht, h⟩ := bind_ok h
    obtain ⟨starts, hs, h⟩ := bind_ok h
    cases h
    obtain ⟨_, -, htext⟩ := bind_ok htext
    obtain ⟨_, -, htext⟩ := bind_ok htext
    obtain ⟨_, -, htext⟩ := bind_ok htext
    obtain ⟨_, -, htext⟩ := bind_ok htext
    obtain ⟨payload, hp, -⟩ := bind_ok htext
    cases eventType with
    | str t =>
        cases hs
        exact ⟨hparse, t, payload, ht, hp, rfl⟩
    | _ => cases hs
  · cases h

/-! ## The run of a message -/

theorem run_printText {text : PyStr} (h : python.Prints text) (host : Host) :
    (printText python text).run callHost host = (.ok (), host) := by
  rw [printText, if_pos h]
  rfl

theorem run_tryMessage (tag : Nat) (body : List UInt8) (host : Host) :
    (tryMessage python tag body).run callHost host =
      match received python body with
      | .error x => (.error x, host)
      | .ok (_, false) =>
          (.ok (), { host with verdicts := host.verdicts ++ [(tag, .ack)] })
      | .ok (event, true) =>
          (updateReadModel python event >>= fun _ => act (.ack tag) :
            Consumer F Unit).run callHost host := by
  have hok : ∀ {α β : Type} (a : α) (f : α → Except (PyExc F) β),
      (Except.ok a >>= f) = f a := fun _ _ => rfl
  have herror : ∀ {α β : Type} (x : PyExc F) (f : α → Except (PyExc F) β),
      (Except.error x >>= f) = .error x := fun _ _ => rfl
  simp only [tryMessage, received, Prog.run_ofExcept_bind]
  cases parseBody python body with
  | error x => rfl
  | ok event =>
      simp only [hok]
      cases receivedText python event with
      | error x => rfl
      | ok text =>
          simp only [hok]
          by_cases he : python.Prints text
          · rw [Prog.run_bind, run_printText python he, if_pos he]
            simp only [Prog.run_ofExcept_bind]
            cases Py.getItem event (py "event_type") with
            | error x => rfl
            | ok eventType =>
                simp only [hok]
                cases Py.startsWith eventType (py "ride.") with
                | error x => rfl
                | ok starts => cases starts <;> rfl
          · rw [printText, if_neg he, if_neg he]
            rfl

/-- Nothing of `handle_message` raises: what the `try` block raises is caught,
and the text of an exception can be printed. -/
theorem run_handleMessage (tag : Nat) (body : List UInt8) (host : Host) :
    (handleMessage python tag body).run callHost host =
      match (tryMessage python tag body).run callHost host with
      | (.ok _, host) => (.ok (), host)
      | (.error _, host) =>
          (.ok (), { host with verdicts := host.verdicts ++ [(tag, .nack)] }) := by
  have hcatch : ∀ (error : PyExc F) (host : Host),
      (printText python (py "failed to process message: " ++
        python.errorText error) >>= fun _ => act (.nack tag true) :
        Consumer F Unit).run callHost host = (.ok (),
          { host with verdicts := host.verdicts ++ [(tag, .nack)] }) :=
    fun error host => by
      rw [Prog.run_bind, run_printText python (python.prints_encodable
        (encodable_append (by decide) (python.errorText_encodable error)))]
      rfl
  rw [handleMessage, Prog.run_tryCatch]
  cases (tryMessage python tag body).run callHost host with
  | mk out host => cases out with
    | ok a => rfl
    | error x => exact hcatch x host

/-! ## Folding an event, by what it leaves -/

theorem rideIdOf_encodable {payload : PyJson F} {rideId : PyStr}
    (hw : payload.Writable) (h : rideIdOf python payload = .ok rideId) :
    Encodable rideId := by
  obtain ⟨v, hv, h⟩ := bind_ok h
  rw [Py.str] at h
  split at h
  · cases h
    cases payload with
    | dict p =>
        rw [Py.getItem] at hv
        split at hv
        · next w hw' =>
            cases hv
            exact encodable_pyStr _ _ (writable_get? hw hw')
        · cases hv
    | _ => cases hv
  · cases h

theorem sourceOf_ne {slot source : Slot} (h : sourceOf slot = some source) :
    source ≠ slot := by
  cases slot <;> cases h <;> decide

/-- An update needs two dicts. -/
theorem update_ok {v w u : PyJson F} (h : Py.update v w = .ok u) :
    ∃ r p, v = .dict r ∧ w = .dict p := by
  cases v with
  | dict r =>
      cases w with
      | dict p => exact ⟨r, p, rfl, rfl⟩
      | _ => cases h
  | _ => cases h

/-- What is found in the slot before has different keys. -/
theorem source_keyed {m : ReadModel F} {source : Slot} {rideId : PyStr}
    {record : Assoc PyStr (PyJson F)}
    (hr : ((m.rides source).get? rideId).getD (.dict []) = .dict record) :
    (.dict record : PyJson F).Keyed := by
  cases hg : (m.rides source).get? rideId with
  | none =>
      rw [hg] at hr
      cases hr
      exact ⟨List.nodup_nil, trivial⟩
  | some ride =>
      rw [hg] at hr
      exact hr ▸ keyed_get? (m.keyed_rides source) hg

/-- What folding an event into the sections can come to. -/
theorem applyRide_cases {m : ReadModel F} {t : PyStr} {payload w : PyJson F}
    (hk : payload.Keyed)
    (h : applyRide python m.json (.str t) payload = .ok w) :
    ((∀ slot, t ≠ eventTypeOf slot) ∧ w = m.json) ∨
    (∃ rideId, t = eventTypeOf .opened ∧
      rideIdOf python payload = .ok rideId ∧
      w = (m.put .opened rideId payload hk).json) ∨
    ∃ slot source rideId record p, ∃ hu : (.dict (Assoc.update record p) :
      PyJson F).Keyed, sourceOf slot = some source ∧ t = eventTypeOf slot ∧
      payload = .dict p ∧ rideIdOf python payload = .ok rideId ∧
      ((m.rides source).get? rideId).getD (.dict []) = .dict record ∧
      w = ((m.drop source rideId).put slot rideId _ hu).json := by
  by_cases ht : ∃ slot, t = eventTypeOf slot
  · obtain ⟨slot, rfl⟩ := ht
    rw [applyRide_slot] at h
    obtain ⟨rideId, hid, h⟩ := bind_ok h
    cases hs : sourceOf slot with
    | none =>
        have ho : slot = .opened := by
          revert hs
          cases slot <;> first | exact fun _ => rfl | exact nofun
        subst ho
        rw [hs] at h
        change putRide m.json _ rideId payload = _ at h
        rw [putRide_json m .opened rideId hk] at h
        exact .inr (.inl ⟨rideId, rfl, hid, (Except.ok.inj h).symm⟩)
    | some source =>
        rw [hs] at h
        change moveRide m.json (sectionOf source) _ rideId payload = _ at h
        have hmove := h
        rw [moveRide, popRide_json] at h
        obtain ⟨popped, hpopped, h⟩ := bind_ok h
        cases hpopped
        obtain ⟨merged, hmerged, -⟩ := bind_ok h
        obtain ⟨record, p, hr, rfl⟩ := update_ok hmerged
        have hu := keyed_dict_update (source_keyed hr) hk
        rw [moveRide_json m source slot hr hu] at hmove
        exact .inr (.inr ⟨slot, source, rideId, record, p, hu, hs, rfl, rfl,
          hid, hr, (Except.ok.inj hmove).symm⟩)
  · refine .inl ⟨fun slot hslot => ht ⟨slot, hslot⟩, ?_⟩
    rw [applyRide_other python m.json fun slot hslot => ht ⟨slot, hslot⟩] at h
    exact (Except.ok.inj h).symm

theorem leaves_of_applyRide {m : ReadModel F} {t : PyStr}
    {payload w : PyJson F} (hk : payload.Keyed)
    (h : applyRide python m.json (.str t) payload = .ok w) :
    ∃ left, Leaves python m t payload left := by
  rcases applyRide_cases python hk h with ⟨ht, -⟩ | ⟨rideId, ht, hid, -⟩ |
    ⟨slot, source, rideId, record, p, -, hs, ht, hp, hid, hr, -⟩
  · exact ⟨m, .other ht⟩
  · exact ⟨_, .opened ht hid⟩
  · exact ⟨_, .moved hs ht hp hid hr
      (keyed_dict_eraseWhere (source_keyed hr) _)⟩

/-- The sections can be saved when what the event leaves of them can, and what
it adds. -/
theorem applyRide_leaves {m left : ReadModel F} {t : PyStr}
    {payload : PyJson F} (hk : payload.Keyed)
    (h : Leaves python m t payload left) : ∃ next : ReadModel F,
    applyRide python m.json (.str t) payload = .ok next.json ∧
      next.lastEvents = m.lastEvents ∧ (SectionsSaved python next ↔
        SectionsSaved python left ∧ PayloadSaved python t payload) := by
  cases h with
  | other h =>
      refine ⟨m, applyRide_other python m.json h payload, rfl, ?_⟩
      exact (and_iff_left fun ⟨slot, ht⟩ => absurd ht (h slot)).symm
  | @opened rideId ht hid =>
      have hpayload : PayloadSaved python t payload ↔ Saved python 2 payload :=
        forall_prop_of_true ⟨.opened, ht⟩
      have hidw := fun hs : Saved python 2 payload =>
        rideIdOf_encodable python hs.2.2 hid
      refine ⟨m.put .opened rideId payload hk, ?_, rfl, ?_⟩
      · rw [ht, applyRide_slot, hid]
        exact putRide_json m .opened rideId hk
      · rw [sectionsSaved_put, hpayload]
        tauto
  | @moved slot source rideId record p hs ht hp hid hr hstrip =>
      subst hp
      have hne := sourceOf_ne hs
      have hrk := source_keyed hr
      have hupdate := keyed_dict_update hrk hk
      have hpayload : PayloadSaved python t (.dict p) ↔
          Saved python 2 (.dict p) := forall_prop_of_true ⟨slot, ht⟩
      have hidw := fun hs : Saved python 2 (.dict p) =>
        rideIdOf_encodable python hs.2.2 hid
      refine ⟨(m.drop source rideId).put slot rideId _ hupdate, ?_, rfl, ?_⟩
      · rw [ht, applyRide_slot, hid, hs]
        exact moveRide_json m source slot hr hupdate
      · have hmerged := entries_update (P := Saved python 3) hrk.1 hk.1
        rw [hpayload, sectionsSaved_put, sectionsSaved_put_drop m hne]
        rw [saved_record] at hidw
        rw [saved_record, saved_record, saved_record, hmerged]
        tauto

theorem logEvent_ok {model event t w : PyJson F}
    (h : logEvent model event t = .ok w) : ∃ eventId occurredAt,
    Py.getItem event (py "event_id") = .ok eventId ∧
      Py.getItem event (py "occurred_at") = .ok occurredAt := by
  obtain ⟨items, -, h⟩ := bind_ok h
  obtain ⟨items', -, h⟩ := bind_ok h
  obtain ⟨eventId, hid, h⟩ := bind_ok h
  obtain ⟨occurredAt, hat, -⟩ := bind_ok h
  exact ⟨eventId, occurredAt, hid, hat⟩

theorem getItem_keyed {v w : PyJson F} {k : PyStr} (hk : v.Keyed)
    (h : Py.getItem v k = .ok w) : w.Keyed := by
  cases v with
  | dict entries =>
      rw [Py.getItem] at h
      split at h
      · next u hu =>
          cases h
          exact keyed_get? hk hu
      · cases h
  | _ => cases h

/-- The updated model can be saved when what the event leaves can, and what it
adds to the sections and to the last events. -/
theorem applyEvent_leaves {m left : ReadModel F} {t : PyStr}
    {event payload eventId occurredAt : PyJson F} (hk : event.Keyed)
    (ht : Py.getItem event (py "event_type") = .ok (.str t))
    (hp : Py.getItem event (py "payload") = .ok payload)
    (hid : Py.getItem event (py "event_id") = .ok eventId)
    (hat : Py.getItem event (py "occurred_at") = .ok occurredAt)
    (h : Leaves python m t payload left) : ∃ next : ReadModel F,
    applyEvent python m.json event = .ok next.json ∧
      (Saved python 0 next.json ↔ SectionsSaved python left ∧
        (∀ v ∈ Py.lastItems 19 m.lastEvents, Saved python 2 v) ∧
        PayloadSaved python t payload ∧
        Encodable t ∧ Saved python 3 eventId ∧ Saved python 3 occurredAt) := by
  obtain ⟨next, happly, hlast, hsections⟩ :=
    applyRide_leaves python (getItem_keyed hk hp) h
  have hentry := keyed_entryOf (show (.str t : PyJson F).Keyed from trivial)
    (getItem_keyed hk hid) (getItem_keyed hk hat)
  refine ⟨next.log _ hentry, ?_, ?_⟩
  · rw [applyEvent_eq python m.json ht hp, happly]
    exact logEvent_json next hid hat hentry
  · rw [saved_log, saved_entryOf, hsections, hlast]
    tauto

/-! ## What handling a message comes to -/

section

variable (disk : Option (List UInt8)) (tag : Nat) {body : List UInt8}
  {event : PyJson F}

theorem handled_refused {x : PyExc F} (h : received python body = .error x) :
    handled python disk tag body = (.ok (), ⟨disk, none, [(tag, .nack)]⟩) := by
  rw [handled, run_handleMessage, run_tryMessage, h]
  rfl

theorem handled_other (h : received python body = .ok (event, false)) :
    handled python disk tag body = (.ok (), ⟨disk, none, [(tag, .ack)]⟩) := by
  rw [handled, run_handleMessage, run_tryMessage, h]
  rfl

variable (h : received python body = .ok (event, true))

include h

theorem handled_failed {x : PyExc F} (hm : (loaded python disk >>= fun model =>
      applyEvent python model event) = .error x) :
    handled python disk tag body = (.ok (), ⟨disk, none, [(tag, .nack)]⟩) := by
  have hrun := run_update python event ⟨disk, none, []⟩
  simp only [hm] at hrun
  rw [handled, run_handleMessage, run_tryMessage, h]
  simp only [Prog.run_bind, hrun]
  rfl

theorem handled_saved {v : PyJson F} (hm : (loaded python disk >>= fun model =>
      applyEvent python model event) = .ok v) (hs : Saved python 0 v) :
    handled python disk tag body =
      (.ok (), ⟨some (fileOf python v), none, [(tag, .ack)]⟩) := by
  have hrun := run_update_ok python event ⟨disk, none, []⟩ hm hs
  rw [handled, run_handleMessage, run_tryMessage, h]
  simp only [Prog.run_bind, hrun]
  rfl

theorem handled_torn {v : PyJson F} (hm : (loaded python disk >>= fun model =>
      applyEvent python model event) = .ok v) (hk : v.Keyed)
    (hs : ¬ Saved python 0 v) :
    ∃ part, (∃ x, loaded python (some part) = .error x) ∧
      handled python disk tag body =
        (.ok (), ⟨some part, none, [(tag, .nack)]⟩) := by
  obtain ⟨error, part, hpart, hsave⟩ := run_save_bad hk hs
  have hrun := run_update python event ⟨disk, none, []⟩
  simp only [hm, hsave] at hrun
  refine ⟨part, hpart, ?_⟩
  rw [handled, run_handleMessage, run_tryMessage, h]
  simp only [Prog.run_bind, hrun]
  rfl

end

/-- An update that gets as far as saving saves what can be saved. -/
theorem applyEvent_savable {disk : Option (List UInt8)} {body : List UInt8}
    {event w : PyJson F} {m : ReadModel F}
    (hr : received python body = .ok (event, true))
    (hm : loaded python disk = .ok m.json)
    (ha : applyEvent python m.json event = .ok w) : ∃ next : ReadModel F,
    w = next.json ∧ (Savable python disk body → Saved python 0 w) := by
  obtain ⟨hparse, t, payload, ht, hp, -⟩ := received_ok python hr
  have hek := parseBody_keyed python hparse
  have hinv := ha
  rw [applyEvent_eq python m.json ht hp] at hinv
  obtain ⟨w', happly, hlog⟩ := bind_ok hinv
  obtain ⟨left, hleft⟩ :=
    leaves_of_applyRide python (getItem_keyed hek hp) happly
  obtain ⟨eventId, occurredAt, hid, hat⟩ := logEvent_ok hlog
  obtain ⟨next, hnext, hiff⟩ :=
    applyEvent_leaves python hek ht hp hid hat hleft
  cases ha.symm.trans hnext
  exact ⟨next, rfl, fun hs => hiff.mpr (hs event t payload eventId occurredAt m
    left hr ht hp hid hat hm hleft)⟩

/-- A verdict of its own, and the file as it was. -/
theorem atomic_of_nack {disk : Option (List UInt8)} {tag : Nat}
    {body : List UInt8}
    (h : handled python disk tag body = (.ok (), ⟨disk, none, [(tag, .nack)]⟩)) :
    Atomic python disk tag body where
  returns := by rw [h]
  one := ⟨.nack, by rw [h]⟩
  nack _ := by rw [h]
  ack hack := by
    rw [h] at hack
    cases hack

/-- The save is the only step that can leave a trace, and it leaves none when
everything it writes has an encoding. -/
theorem atomic_of_savable {disk : Option (List UInt8)} {body : List UInt8}
    (hwf : WellFormed python disk) (tag : Nat) (h : Savable python disk body) :
    Atomic python disk tag body := by
  obtain ⟨m, hm⟩ := hwf
  cases hr : received python body with
  | error x => exact atomic_of_nack python (handled_refused python disk tag hr)
  | ok p =>
      obtain ⟨event, ride⟩ := p
      obtain ⟨hparse, t, payload, ht, -, hride⟩ := received_ok python hr
      cases ride with
      | false =>
          have hrun := handled_other python disk tag hr
          refine ⟨by rw [hrun], ⟨.ack, by rw [hrun]⟩, fun hn => ?_,
            fun _ => ⟨event, t, hparse, ht, .inl ⟨fun hpre => ?_, by rw [hrun]⟩⟩⟩
          · rw [hrun] at hn
            cases hn
          · rw [List.isPrefixOf_iff_prefix.mpr hpre] at hride
            cases hride
      | true =>
          cases ha : applyEvent python m.json event with
          | error x =>
              exact atomic_of_nack python (handled_failed python disk tag hr
                (by rw [hm]; exact ha))
          | ok w =>
              obtain ⟨next, rfl, hsavable⟩ :=
                applyEvent_savable python hr hm ha
              have hs := hsavable h
              have hrun := handled_saved python disk tag hr
                (by rw [hm]; exact ha) hs
              refine ⟨by rw [hrun], ⟨.ack, by rw [hrun]⟩, fun hn => ?_,
                fun _ => ⟨event, t, hparse, ht, .inr ⟨m.json, next.json, hm, ha,
                  by rw [hrun], ?_⟩⟩⟩
              · rw [hrun] at hn
                cases hn
              · rw [hrun]
                exact loaded_fileOf next.keyed hs

/-- What would be saved can be, or the save is torn. -/
theorem savable_or_torn (disk : Option (List UInt8)) (tag : Nat)
    (body : List UInt8) : Savable python disk body ∨
    ∃ part, (∃ x, loaded python (some part) = .error x) ∧
      handled python disk tag body =
        (.ok (), ⟨some part, none, [(tag, .nack)]⟩) := by
  rw [or_iff_not_imp_right]
  intro hn event t payload eventId occurredAt m left hr ht hp hid hat hm hleft
  obtain ⟨hparse, -⟩ := received_ok python hr
  obtain ⟨next, hnext, hiff⟩ := applyEvent_leaves python
    (parseBody_keyed python hparse) ht hp hid hat hleft
  refine hiff.mp ?_
  by_contra hs
  exact hn (handled_torn python disk tag hr (by rw [hm]; exact hnext)
    next.keyed hs)

/-- Handling a message is atomic exactly when what it would save can be
saved. -/
theorem atomic_iff_savable {disk : Option (List UInt8)} {body : List UInt8}
    (hwf : WellFormed python disk) (tag : Nat) :
    Atomic python disk tag body ↔ Savable python disk body := by
  refine ⟨fun h => ?_, atomic_of_savable python hwf tag⟩
  obtain ⟨m, hm⟩ := hwf
  rcases savable_or_torn python disk tag body with hs | ⟨part, ⟨x, hpart⟩, hrun⟩
  · exact hs
  · -- The file is a part of the new one, and the old one can be loaded.
    have hsame := h.nack (by rw [hrun])
    rw [hrun] at hsame
    rw [← hsame, hpart] at hm
    cases hm

/-- A message whose `event_id` is a lone surrogate. It is valid JSON, and the
id is the one string of it that is saved and not printed. -/
def surrogateMessage : List UInt8 := encodeUtf8 <|
  py "\x7b\"event_id\": \"\\ud800\", \"event_type\": \"ride.created\", " ++
  py "\"occurred_at\": \"2026-05-25T10:00:00+00:00\", " ++
  py "\"payload\": \x7b\"ride_id\": 100\x7d\x7d"

theorem wellFormed_none {F : Type} (python : Python F) :
    WellFormed python none := ⟨.empty, rfl⟩

theorem atomic_iff_savable_surrogate :
    Atomic Python.ascii none 0 surrogateMessage ↔
      Savable Python.ascii none surrogateMessage :=
  atomic_iff_savable Python.ascii (wellFormed_none _) 0

/-- It is rejected, and a part of the new model stays in the file. -/
theorem surrogateMessage_leaves_part : WellFormed Python.ascii none ∧
    ¬ Atomic Python.ascii none 0 surrogateMessage := by
  refine ⟨wellFormed_none _, fun h => ?_⟩
  have hnack : (handled Python.ascii none 0 surrogateMessage).2.verdicts =
      [(0, .nack)] := by decide +kernel
  have hdisk : (handled Python.ascii none 0 surrogateMessage).2.disk ≠ none := by
    decide +kernel
  exact hdisk (h.nack hnack)

end TaxiService.Proofs
