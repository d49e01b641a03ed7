import TaxiService.Spec.ReadModel

/-!
# What loading, saving and updating do

One specification for each function of the consumer, so that the results about
it never look at a program. Loading reads what was saved, and it does not read
what a save left that stopped before its end.
-/

namespace TaxiService.Proofs

open TaxiService.Lib TaxiService.Model TaxiService.Spec

variable {F : Type} (python : Python F)

/-! ## Loading -/

theorem run_load_some (bytes : List UInt8) (writer : Option (List UInt8))
    (verdicts : List (Nat × Verdict)) :
    (loadReadModel python).run callHost ⟨some bytes, writer, verdicts⟩ =
      (Py.decode bytes >>= fun text =>
        Py.jsonLoads python python.limits.load (universalNewlines text),
        ⟨some bytes, writer, verdicts⟩) := by
  show (Prog.ofExcept (Py.decode bytes) >>= fun text => Prog.ofExcept
    (Py.jsonLoads python python.limits.load (universalNewlines text)) :
    Consumer F (PyJson F)).run callHost _ = _
  rw [Prog.run_bind, Prog.run_ofExcept]
  cases h : (Py.decode bytes : Except (PyExc F) PyStr) with
  | error x => rfl
  | ok text => exact Prog.run_ofExcept _ _ _

theorem loaded_some (bytes : List UInt8) : loaded python (some bytes) =
    (Py.decode bytes >>= fun text =>
      Py.jsonLoads python python.limits.load (universalNewlines text)) :=
  congrArg Prod.fst (run_load_some python bytes none [])

/-- Loading changes nothing. -/
theorem run_load (h : Host) :
    (loadReadModel python).run callHost h = (loaded python h.disk, h) := by
  obtain ⟨disk, writer, verdicts⟩ := h
  cases disk with
  | none => rfl
  | some bytes => rw [run_load_some, loaded_some]

/-! ## Reading a file back -/

theorem universalNewlines_id {s : PyStr} (h : 13 ∉ s) :
    universalNewlines s = s := by
  induction s with
  | nil => rfl
  | cons c s ih =>
      rw [List.mem_cons, not_or] at h
      rw [universalNewlines, ih h.2]
      · exact fun _ hc => absurd hc.symm h.1
      · exact fun hc => absurd hc.symm h.1

/-- Loading a file whose text is encodable and has no carriage return. -/
theorem loaded_encoded {text : PyStr} (he : Encodable text) (h : 13 ∉ text) :
    loaded python (some (encodeUtf8 text)) =
      Py.jsonLoads python python.limits.load text := by
  rw [loaded_some, Py.decode, decodeUtf8_encodeUtf8 he]
  show Py.jsonLoads python _ (universalNewlines text) = _
  rw [universalNewlines_id h]

theorem encodable_texts {cs : List Chunk} (h : ∀ c ∈ cs, Encodable c.text) :
    Encodable (texts cs).flatten := by
  intro d hd
  obtain ⟨text, htext, hd⟩ := List.mem_flatten.mp hd
  obtain ⟨c, hc, rfl⟩ := List.mem_map.mp htext
  exact h c hc d hd

variable {python}

/-- What was saved can be loaded. -/
theorem loaded_fileOf {v : PyJson F} (hk : v.Keyed) (hs : Saved python 0 v) :
    loaded python (some (fileOf python v)) = .ok v := by
  have hframes : v.frames ≤ python.limits.save :=
    (Nat.zero_add _).symm.trans_le hs.1
  have hload := ((nesting_le_frames v).trans hframes).trans
    python.limits.save_le_load
  have he := encodable_texts ((encodable_iterencode python.float v 0).mpr hs.2.2)
  rw [fileOf, loaded_encoded python he (noReturn_iterencode python.float v 0),
    Py.jsonLoads, loads_iterencode python.float hk hload hs.2.1]

/-! ## Writing -/

/-- The interpreter's limits and the encoding let the text be written. -/
abbrev Fits (python : Python F) (c : Chunk) : Prop :=
  c.Fits python.limits.save python.limits.digits

theorem run_writeChunks_cons {v : PyJson F} {c : Chunk} (h : Fits python c)
    (cs : List Chunk) {host : Host} {w : List UInt8}
    (hw : host.writer = some w) :
    (writeChunks python v (c :: cs)).run callHost host =
      (writeChunks python v cs).run callHost
        { host with writer := some (w ++ encodeUtf8 c.text) } := by
  obtain ⟨hframes, hdigits, he⟩ := h
  rw [writeChunks, if_pos ⟨hframes, hdigits⟩, writeText, if_pos he]
  show (writeChunks python v cs).run callHost { host with
    writer := host.writer.map (· ++ encodeUtf8 c.text) } = _
  rw [hw]
  rfl

/-- A text that cannot be written raises and changes nothing. -/
theorem run_writeChunks_stop (v : PyJson F) {c : Chunk} (h : ¬ Fits python c)
    (cs : List Chunk) : ∃ error, ∀ host : Host,
    (writeChunks python v (c :: cs)).run callHost host =
      (.error error, host) := by
  by_cases hlimits : c.frames ≤ python.limits.save ∧
      c.digits ≤ python.limits.digits
  · have he : ¬ Encodable c.text := fun he => h ⟨hlimits.1, hlimits.2, he⟩
    refine ⟨.unicodeEncode c.text, fun host => ?_⟩
    rw [writeChunks, if_pos hlimits, writeText, if_neg he]
    rfl
  · refine ⟨.limit (py "json.dump") v, fun host => ?_⟩
    rw [writeChunks, if_neg hlimits]
    rfl

theorem writer_nil {host : Host} {w : List UInt8} (hw : host.writer = some w) :
    ({ host with writer := some (w ++ encodeUtf8 (texts []).flatten) } : Host) =
      host := by
  rw [texts_nil, List.flatten_nil, encodeUtf8, List.flatMap_nil,
    List.append_nil, ← hw]

theorem run_writeChunks {v : PyJson F} {cs : List Chunk}
    (h : ∀ c ∈ cs, Fits python c) (host : Host) {w : List UInt8}
    (hw : host.writer = some w) :
    (writeChunks python v cs).run callHost host = (.ok (), { host with
      writer := some (w ++ encodeUtf8 (texts cs).flatten) }) := by
  induction cs generalizing host w with
  | nil => exact congrArg (Prod.mk _) (writer_nil hw).symm
  | cons c cs ih =>
      rw [List.forall_mem_cons] at h
      rw [run_writeChunks_cons h.1 cs hw]
      refine (ih h.2 _ rfl).trans ?_
      rw [texts_cons, List.flatten_cons, encodeUtf8_append, List.append_assoc]

/-- The first text that cannot be written raises, and what was written before
it stays. -/
theorem run_writeChunks_bad (v : PyJson F) {cs : List Chunk}
    (h : ¬ ∀ c ∈ cs, Fits python c) : ∃ n error, n < cs.length ∧
      (∀ c ∈ cs.take n, Encodable c.text) ∧
      ∀ (host : Host) (w : List UInt8), host.writer = some w →
        (writeChunks python v cs).run callHost host =
          (.error error, { host with
            writer := some (w ++ encodeUtf8 (texts (cs.take n)).flatten) }) := by
  induction cs with
  | nil => exact absurd (List.forall_mem_nil _) h
  | cons c cs ih =>
      by_cases hc : Fits python c
      · have hcs : ¬ ∀ c ∈ cs, Fits python c := fun hall =>
          h (List.forall_mem_cons.mpr ⟨hc, hall⟩)
        obtain ⟨n, error, hn, hbefore, hrun⟩ := ih hcs
        refine ⟨n + 1, error, Nat.succ_lt_succ hn,
          List.forall_mem_cons.mpr ⟨hc.2.2, hbefore⟩, fun host w hw => ?_⟩
        rw [run_writeChunks_cons hc cs hw]
        refine (hrun _ _ rfl).trans ?_
        rw [List.take_succ_cons, texts_cons, List.flatten_cons,
          encodeUtf8_append, List.append_assoc]
      · obtain ⟨error, hstop⟩ := run_writeChunks_stop v hc cs
        refine ⟨0, error, Nat.succ_pos _, List.forall_mem_nil _,
          fun host w hw => ?_⟩
        rw [List.take_zero, writer_nil hw]
        exact hstop host

/-! ## Saving -/

theorem run_save {v : PyJson F} (hs : Saved python 0 v) (host : Host) :
    (saveReadModel python v).run callHost host = (.ok (),
      { host with disk := some (fileOf python v), writer := none }) := by
  have hall := (fits_iterencode python.float v _ _ 0).mpr hs
  have hrun := run_writeChunks (v := v) hall
    { host with disk := some [], writer := some [] } rfl
  show (((writeChunks ..).tryCatch _ >>= fun _ => act .close) :
    Consumer F Unit).run callHost
      { host with disk := some [], writer := some [] } = _
  rw [Prog.run_bind, Prog.run_tryCatch, hrun]
  rfl

/-- A save that raises leaves a part of the document, which no load reads. -/
theorem run_save_bad {v : PyJson F} (hk : v.Keyed) (hs : ¬ Saved python 0 v) :
    ∃ error part, (∃ x, loaded python (some part) = .error x) ∧
      ∀ host : Host, (saveReadModel python v).run callHost host =
        (.error error, { host with disk := some part, writer := none }) := by
  rw [Saved, ← fits_iterencode python.float v _ _ 0] at hs
  obtain ⟨n, error, hn, hbefore, hrun⟩ := run_writeChunks_bad v hs
  have htake : texts ((iterencode python.float 0 v).take n) =
      (texts (iterencode python.float 0 v)).take n := List.map_take
  rw [htake] at hrun
  have he := encodable_texts hbefore
  have hlen : n < (texts (iterencode python.float 0 v)).length := by
    rw [texts, List.length_map]
    exact hn
  have hcr : 13 ∉ ((texts (iterencode python.float 0 v)).take n).flatten := by
    intro h
    obtain ⟨text, htext, h⟩ := List.mem_flatten.mp h
    exact noReturn_iterencode python.float v 0
      (List.mem_flatten.mpr ⟨text, List.mem_of_mem_take htext, h⟩)
  rw [htake] at he
  refine ⟨error, encodeUtf8
    ((texts (iterencode python.float 0 v)).take n).flatten, ⟨.jsonDecode
      ((texts (iterencode python.float 0 v)).take n).flatten, ?_⟩,
    fun host => ?_⟩
  · rw [loaded_encoded python he hcr, Py.jsonLoads,
      loads_part python.float hk hlen]
  · have hstart := hrun { host with disk := some [], writer := some [] } [] rfl
    show (((writeChunks ..).tryCatch _ >>= fun _ => act .close) :
      Consumer F Unit).run callHost
        { host with disk := some [], writer := some [] } = _
    rw [Prog.run_bind, Prog.run_tryCatch, hstart]
    rfl

/-! ## Folding an event into a model -/

theorem getItem_entries {entries : Assoc PyStr (PyJson F)} {k : PyStr}
    {v : PyJson F} (h : entries.get? k = some v) :
    Py.getItem (.dict entries) k = .ok v := by
  simp only [Py.getItem, h]

theorem getItem_section (m : ReadModel F) (slot : Slot) :
    Py.getItem m.json (sectionOf slot) = .ok (.dict (m.rides slot)) := by
  rw [ReadModel.json, getItem_entries (m.rides_eq slot)]

theorem putRide_json (m : ReadModel F) (slot : Slot) (rideId : PyStr)
    {ride : PyJson F} (h : ride.Keyed) :
    putRide m.json (sectionOf slot) rideId ride =
      .ok (m.put slot rideId ride h).json := by
  rw [putRide, getItem_section]
  rfl

theorem popRide_json (m : ReadModel F) (slot : Slot) (rideId : PyStr) :
    popRide m.json (sectionOf slot) rideId =
      .ok (((m.rides slot).get? rideId).getD (.dict []),
        (m.drop slot rideId).json) := by
  rw [popRide, getItem_section]
  rfl

theorem moveRide_json (m : ReadModel F) (source target : Slot)
    {rideId : PyStr} {record payload : Assoc PyStr (PyJson F)}
    (hr : ((m.rides source).get? rideId).getD (.dict []) = .dict record)
    (hk : (.dict (record.update payload) : PyJson F).Keyed) :
    moveRide m.json (sectionOf source) (sectionOf target) rideId
      (.dict payload) = .ok ((m.drop source rideId).put target rideId
        (.dict (record.update payload)) hk).json := by
  rw [moveRide, popRide_json, hr]
  exact putRide_json _ _ _ hk

variable (python)

/-- The event types are compared one after the other. -/
theorem applyRide_slot (model : PyJson F) (slot : Slot) (payload : PyJson F) :
    applyRide python model (.str (eventTypeOf slot)) payload =
      (rideIdOf python payload >>= fun rideId =>
        match sourceOf slot with
        | none => putRide model (sectionOf slot) rideId payload
        | some source =>
            moveRide model (sectionOf source) (sectionOf slot) rideId payload) := by
  cases slot <;> rfl

theorem applyRide_other (model : PyJson F) {t : PyStr}
    (h : ∀ slot, t ≠ eventTypeOf slot) (payload : PyJson F) :
    applyRide python model (.str t) payload = .ok model := by
  have hne : ∀ slot, Py.isStr (.str t : PyJson F) (eventTypeOf slot) = false :=
    fun slot => by simpa [Py.isStr] using h slot
  have hcreated := hne .opened
  have haccepted := hne .taken
  have hcompleted := hne .closed
  simp only [eventTypeOf] at hcreated haccepted hcompleted
  simp [applyRide, hcreated, haccepted, hcompleted]
  rfl

theorem logEvent_json (m : ReadModel F) {event t eventId occurredAt : PyJson F}
    (hid : Py.getItem event (py "event_id") = .ok eventId)
    (hat : Py.getItem event (py "occurred_at") = .ok occurredAt)
    (hk : (entryOf t eventId occurredAt).Keyed) :
    logEvent m.json event t =
      .ok (m.log (entryOf t eventId occurredAt) hk).json := by
  have hitems : Py.getItem m.json (py "last_events") =
      .ok (.list m.lastEvents) := getItem_entries m.lastEvents_eq
  rw [logEvent, hitems, hid, hat]
  rfl

theorem keyed_entryOf {t eventId occurredAt : PyJson F} (ht : t.Keyed)
    (hid : eventId.Keyed) (hat : occurredAt.Keyed) :
    (entryOf t eventId occurredAt).Keyed := by
  refine ⟨?_, ht, hid, hat, trivial⟩
  show List.Nodup [py "event_type", py "event_id", py "occurred_at"]
  decide

theorem applyEvent_eq (model : PyJson F) {event t payload : PyJson F}
    (ht : Py.getItem event (py "event_type") = .ok t)
    (hp : Py.getItem event (py "payload") = .ok payload) :
    applyEvent python model event =
      (applyRide python model t payload >>= fun model =>
        logEvent model event t) := by
  rw [applyEvent, ht, hp]
  rfl

/-! ## Updating -/

/-- An update changes the file by its save, and without one not at all. -/
theorem run_update (event : PyJson F) (host : Host) :
    (updateReadModel python event).run callHost host =
      match loaded python host.disk >>= fun model =>
        applyEvent python model event with
      | .error x => (.error x, host)
      | .ok model => (saveReadModel python model).run callHost host := by
  rw [updateReadModel, Prog.run_bind, run_load]
  cases loaded python host.disk with
  | error x => rfl
  | ok model =>
      show (Prog.ofExcept (applyEvent python model event) >>= fun model =>
        saveReadModel python model : Consumer F Unit).run callHost host = _
      rw [Prog.run_bind, Prog.run_ofExcept]
      show _ = match applyEvent python model event with
        | .error x => _
        | .ok model => _
      cases applyEvent python model event <;> rfl

theorem run_update_ok (event : PyJson F) (host : Host) {v : PyJson F}
    (h : (loaded python host.disk >>= fun model =>
      applyEvent python model event) = .ok v) (hs : Saved python 0 v) :
    (updateReadModel python event).run callHost host = (.ok (),
      { host with disk := some (fileOf python v), writer := none }) := by
  rw [run_update, h]
  exact run_save hs host

end TaxiService.Proofs
