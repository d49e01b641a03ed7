import TaxiService.Proofs.CrashRecovery
import TaxiService.Spec.PoisonMessages

/-!
# Poison messages

What a delivery comes to is decided by the message alone, as long as the file
is the consumer's own: a processable message is acknowledged, and so the queue
is empty after as many deliveries as it has messages. A message that is not is
never acknowledged, whatever the file has become by then (`handled_sane`), and
a message that is not acknowledged does not leave the queue.
-/

namespace TaxiService.Proofs

open TaxiService.Lib TaxiService.Model TaxiService.Spec

variable {F : Type} (python : Python F)

/-! ## A message that is acknowledged -/

theorem rideIdOf_item {payload : PyJson F} {rideId : PyStr}
    (h : rideIdOf python payload = .ok rideId) :
    ∃ ride, Py.getItem payload (py "ride_id") = .ok ride ∧
      ride.strDepth ≤ python.limits.rideId := by
  obtain ⟨ride, hride, h⟩ := bind_ok h
  rw [Py.str] at h
  split at h
  · next hlimits => exact ⟨ride, hride, hlimits.1⟩
  · cases h

variable {python} in
/-- The event without the fields nobody reads. -/
theorem rideEvent_of_fields (slot : Slot) {payload ride eventId occurredAt :
    PyJson F} (hp : payload.Keyed) (hps : Saved python 2 payload)
    (hride : Py.getItem payload (py "ride_id") = .ok ride)
    (hdepth : ride.strDepth ≤ python.limits.rideId) (hid : eventId.Keyed)
    (hids : Saved python 3 eventId) (hat : occurredAt.Keyed)
    (hats : Saved python 3 occurredAt) : ∃ e : RideEvent python,
    e.slot = slot ∧ .dict e.payload = payload ∧ e.eventId = eventId ∧
      e.occurredAt = occurredAt := by
  cases payload with
  | dict p =>
      rw [Py.getItem] at hride
      split at hride
      · next w hw =>
          cases hride
          refine ⟨⟨[(py "event_type", .str (eventTypeOf slot)),
            (py "payload", .dict p), (py "event_id", eventId),
            (py "occurred_at", occurredAt)], slot, p, ride, eventId, occurredAt,
            rfl, rfl, hw, rfl, rfl, ?_, hps, hdepth, hids, hats⟩, rfl, rfl, rfl,
            rfl⟩
          refine ⟨?_, trivial, hp, hid, hat, trivial⟩
          show List.Nodup [py "event_type", py "payload", py "event_id",
            py "occurred_at"]
          decide
      · cases hride
  | _ => cases hride

/-- A processable ride event is taken up by every model of the consumer's. -/
theorem Holds.fold {disk : Option (List UInt8)} {m : ReadModel F}
    (h : Holds python disk m) {body : List UInt8} {event : PyJson F}
    (hr : received python body = .ok (event, true))
    (hf : Foldable python event) (tag : Nat) : ∃ m' : ReadModel F,
    applyEvent python m.json event = .ok m'.json ∧
      handled python disk tag body =
        (.ok (), ⟨some (fileOf python m'.json), none, [(tag, .ack)]⟩) ∧
      Holds python (some (fileOf python m'.json)) m' := by
  obtain ⟨hparse, -⟩ := received_ok python hr
  obtain ⟨t, payload, eventId, occurredAt, ht, hts, hp, hid, hids, hat, hats,
    hmoves⟩ := hf
  have hek := parseBody_keyed python hparse
  have hpk := getItem_keyed hek hp
  have hidk := getItem_keyed hek hid
  have hatk := getItem_keyed hek hat
  obtain ⟨hsections, hlast⟩ := (saved_iff m).mp h.saved
  have hmoved : ∃ m₁ : ReadModel F,
      applyRide python m.json (.str t) payload = .ok m₁.json ∧
        SectionsSaved python m₁ ∧ DictRides m₁ ∧
        m₁.lastEvents = m.lastEvents := by
    by_cases hslot : ∃ slot, t = eventTypeOf slot
    · obtain ⟨hps, ride, hitem, hdepth⟩ := hmoves hslot
      obtain ⟨slot, rfl⟩ := hslot
      obtain ⟨e, rfl, rfl, -⟩ := rideEvent_of_fields slot hpk hps hitem hdepth
        hidk hids hatk hats
      obtain ⟨m₁, happly, hs₁, hd₁, hl₁, -⟩ :=
        applyRide_event (e := e) h.dicts hsections
      exact ⟨m₁, happly, hs₁, hd₁, hl₁⟩
    · exact ⟨m, applyRide_other python m.json
        (fun slot he => hslot ⟨slot, he⟩) payload, hsections, h.dicts, rfl⟩
  obtain ⟨m₁, happly, hs₁, hd₁, hl₁⟩ := hmoved
  have hentryk := keyed_entryOf (show (.str t : PyJson F).Keyed from trivial)
    hidk hatk
  obtain ⟨hevent, hsaved⟩ := applyEvent_logged ht hp hid hat happly
    hs₁ (hl₁ ▸ hlast) hentryk
    ((saved_entryOf t eventId occurredAt).mpr ⟨hts, hids, hats⟩)
  refine ⟨m₁.log _ hentryk, hevent,
    handled_saved python disk tag hr (by rw [h.loads]; exact hevent) hsaved,
    loaded_fileOf (m₁.log _ hentryk).keyed hsaved, hsaved, hd₁⟩

/-- Handling a processable message leaves a file of the consumer's, with its
event applied. -/
theorem handled_processable {disk : Option (List UInt8)} {m : ReadModel F}
    (h : Holds python disk m) {body : List UInt8}
    (hbody : Processable python body) (tag : Nat) :
    ∃ disk', ∃ m' : ReadModel F, handled python disk tag body =
        (.ok (), ⟨disk', none, [(tag, .ack)]⟩) ∧ Holds python disk' m' ∧
      (rideEvents python [body]).foldlM (applyEvent python) m.json =
        .ok m'.json := by
  obtain ⟨event, ride, hr, hf⟩ := hbody
  cases ride with
  | false =>
      refine ⟨disk, m, handled_other python disk tag hr, h, ?_⟩
      simp [rideEvents, rideEvent?, hr]
      rfl
  | true =>
      obtain ⟨m', hevent, hhandled, hm'⟩ := h.fold python hr (hf rfl) tag
      refine ⟨_, m', hhandled, hm', ?_⟩
      simp [rideEvents, rideEvent?, hr, hevent]

/-! ## The consumer's own file -/

/-- An event leaves every ride a dict. -/
theorem DictRides.fold {m : ReadModel F} (hm : DictRides m)
    {event w : PyJson F} (hk : event.Keyed)
    (ht : ∃ t, Py.getItem event (py "event_type") = .ok (.str t))
    (h : applyEvent python m.json event = .ok w) :
    ∃ next : ReadModel F, w = next.json ∧ DictRides next := by
  obtain ⟨t, ht⟩ := ht
  obtain ⟨t', ht', h⟩ := bind_ok h
  cases ht.symm.trans ht'
  obtain ⟨payload, hp, h⟩ := bind_ok h
  obtain ⟨w₁, happly, hlog⟩ := bind_ok h
  have hpk := getItem_keyed hk hp
  have hmoved : ∃ m₁ : ReadModel F, w₁ = m₁.json ∧ DictRides m₁ := by
    rcases applyRide_cases python hpk happly with ⟨-, rfl⟩ |
      ⟨rideId, -, hid, rfl⟩ |
      ⟨slot, source, rideId, record, p, hu, -, -, -, -, -, rfl⟩
    · exact ⟨m, rfl, hm⟩
    · obtain ⟨ride, hitem, -⟩ := rideIdOf_item python hid
      cases payload with
      | dict p => exact ⟨_, rfl, hm.put .opened rideId hpk⟩
      | _ => cases hitem
    · exact ⟨_, rfl, (hm.drop source rideId).put slot rideId hu⟩
  obtain ⟨m₁, rfl, hm₁⟩ := hmoved
  obtain ⟨eventId, occurredAt, hid, hat⟩ := logEvent_ok hlog
  have hentry := keyed_entryOf (show (.str t : PyJson F).Keyed from trivial)
    (getItem_keyed hk hid) (getItem_keyed hk hat)
  rw [logEvent_json m₁ hid hat hentry] at hlog
  cases hlog
  exact ⟨m₁.log _ hentry, rfl, hm₁⟩

end TaxiService.Proofs
