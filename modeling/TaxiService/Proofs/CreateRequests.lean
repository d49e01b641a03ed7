import TaxiService.Lib.PyJson
import TaxiService.Proofs.Freshness
import TaxiService.Spec.CreateRequests

/-!
# Where the handlers and the schema agree

A handler throws what the storage method does not catch, so a request agrees
when its insert ends in a row or in a violation that is caught. The checks of
the insert are taken one at a time: the ones on a string come to `Storable`,
and of what is left only a taken id is not caught, and that only for a ride.
-/

namespace TaxiService.Proofs

open TaxiService.Lib TaxiService.Model TaxiService.Spec

/-! ## The bytes of a text -/

/-- The last byte of a character that is no space is none either. -/
theorem utf8Bytes_last {c : Nat} (h : c ≠ 32) :
    ∃ front last, utf8Bytes c = front ++ [last] ∧ last ≠ 32 := by
  have hlast : ∀ n, n < 256 → n ≠ 32 → n.toUInt8 ≠ 32 := fun n hn hne heq => by
    have := toUInt8_toNat hn
    rw [heq] at this
    exact hne this.symm
  rw [utf8Bytes]
  split
  · exact ⟨[], _, rfl, hlast c (by omega) h⟩
  · split
    · exact ⟨[_], _, rfl, hlast _ (by omega) (by omega)⟩
    · split
      · exact ⟨[_, _], _, rfl, hlast _ (by omega) (by omega)⟩
      · exact ⟨[_, _, _], _, rfl, hlast _ (by omega) (by omega)⟩

theorem zero_mem_utf8Bytes {c : Nat} (hc : isScalar c = true) :
    0 ∈ utf8Bytes c ↔ c = 0 := by
  have hzero : ∀ n, n < 256 → (0 = n.toUInt8 ↔ n = 0) := fun n hn => by
    rw [← UInt8.toNat_inj, toUInt8_toNat hn]
    exact eq_comm
  simp only [isScalar, Bool.or_eq_true, Bool.and_eq_true, decide_eq_true_eq] at hc
  rw [utf8Bytes]
  split
  · rw [List.mem_singleton, hzero c (by omega)]
  · split
    · simp only [List.mem_cons, List.not_mem_nil, or_false]
      rw [hzero _ (by omega), hzero _ (by omega)]
      omega
    · split
      · simp only [List.mem_cons, List.not_mem_nil, or_false]
        rw [hzero _ (by omega), hzero _ (by omega), hzero _ (by omega)]
        omega
      · simp only [List.mem_cons, List.not_mem_nil, or_false]
        rw [hzero _ (by omega), hzero _ (by omega), hzero _ (by omega),
          hzero _ (by omega)]
        omega

theorem zero_mem_encodeUtf8 {text : List Nat} (h : Encodable text) :
    0 ∈ encodeUtf8 text ↔ 0 ∈ text := by
  rw [encodeUtf8, List.mem_flatMap]
  constructor
  · rintro ⟨c, hc, h0⟩
    rwa [(zero_mem_utf8Bytes (h c hc)).mp h0] at hc
  · exact fun h0 => ⟨0, h0, by decide⟩

theorem spaces_iff (text : List Nat) :
    (∀ b ∈ encodeUtf8 text, b = 32) ↔ ∀ c ∈ text, c = 32 := by
  simp only [encodeUtf8, List.mem_flatMap]
  constructor
  · intro h c hc
    by_contra hne
    obtain ⟨front, last, heq, hlast⟩ := utf8Bytes_last hne
    exact hlast (h last ⟨c, hc, by simp [heq]⟩)
  · rintro h b ⟨c, hc, hb⟩
    rw [h c hc] at hb
    exact List.mem_singleton.mp hb

/-- Trimming the bytes trims the text. -/
theorem rdropWhile_encodeUtf8 (text : List Nat) :
    (encodeUtf8 text).rdropWhile (· == 32) =
      encodeUtf8 (text.rdropWhile (· == 32)) := by
  induction text using List.reverseRecOn with
  | nil => rfl
  | append_singleton text c ih =>
      rw [encodeUtf8_append]
      by_cases hc : c = 32
      · subst hc
        rw [show encodeUtf8 [32] = [32] from rfl,
          List.rdropWhile_concat_pos _ _ _ rfl,
          List.rdropWhile_concat_pos _ _ _ rfl, ih]
      · obtain ⟨front, last, heq, hlast⟩ := utf8Bytes_last hc
        have hbytes : encodeUtf8 [c] = front ++ [last] := by
          rw [← heq]
          exact List.append_nil _
        rw [hbytes, ← List.append_assoc,
          List.rdropWhile_concat_neg _ _ _ (by simpa using hlast),
          List.rdropWhile_concat_neg _ _ _ (by simpa using hc),
          encodeUtf8_append, hbytes, List.append_assoc]

/-! ## The checks on one string -/

theorem bindText_ok_iff (s : StdString) :
    bindText s = .ok () ↔
      ∃ text, Encodable text ∧ s = encodeUtf8 text ∧ 0 ∉ text := by
  have hif : bindText s = .ok () ↔
      (decodeUtf8 s).isSome = true ∧ 0 ∉ s := by
    rw [bindText]
    split
    · next h => simpa using h
    · next h => simpa using h
  rw [hif, Option.isSome_iff_exists]
  constructor
  · rintro ⟨⟨text, htext⟩, h0⟩
    obtain ⟨henc, rfl⟩ := decodeUtf8_sound htext
    exact ⟨text, henc, rfl, mt (zero_mem_encodeUtf8 henc).mpr h0⟩
  · rintro ⟨text, henc, rfl, h0⟩
    exact ⟨⟨text, decodeUtf8_encodeUtf8 henc⟩,
      mt (zero_mem_encodeUtf8 henc).mp h0⟩

theorem charLength_encodeUtf8 {text : List Nat} (h : Encodable text) :
    charLength (encodeUtf8 text) = text.length := by
  rw [charLength, decodeUtf8_encodeUtf8 h]
  rfl

/-- What is over the limit is spaces only. -/
theorem drop_spaces {text : List Nat} {n : Nat}
    (h : (text.rdropWhile (· == 32)).length ≤ n) :
    ∀ c ∈ text.drop n, c = 32 := by
  intro c hc
  rw [← List.rdropWhile_append_rtakeWhile (p := (· == 32)) (l := text),
    List.drop_append, List.drop_eq_nil_of_le h, List.nil_append] at hc
  have hspace := List.mem_rtakeWhile_imp (List.mem_of_mem_drop hc)
  exact eq_of_beq hspace

/-- The column keeps the first `n` characters, or refuses. -/
theorem varchar_encodeUtf8 (n : Nat) {text : List Nat} (henc : Encodable text) :
    varchar n (encodeUtf8 text) =
      if (text.rdropWhile (· == 32)).length ≤ n then
        .ok (encodeUtf8 (text.take n))
      else .error .stringTooLong := by
  have hpre := List.rdropWhile_prefix (p := (· == 32)) (l := text)
  have htrimmed : charLength ((encodeUtf8 text).rdropWhile (· == 32)) =
      (text.rdropWhile (· == 32)).length := by
    rw [rdropWhile_encodeUtf8]
    exact charLength_encodeUtf8 fun c hc => henc c (hpre.subset hc)
  rw [List.rdropWhile] at htrimmed
  simp only [varchar, charLength_encodeUtf8 henc, htrimmed]
  by_cases hall : text.length ≤ n
  · rw [if_pos hall, if_pos (hpre.length_le.trans hall),
      List.take_of_length_le hall]
  · rw [if_neg hall]
    by_cases hcore : (text.rdropWhile (· == 32)).length ≤ n
    · rw [if_pos hcore, if_pos hcore]
      -- The bytes cut off are the spaces past the first `n` characters.
      have hspaces : encodeUtf8 (text.drop n) =
          List.replicate (text.length - n) 32 := by
        rw [List.eq_replicate_of_mem (drop_spaces hcore), encodeUtf8,
          List.length_drop, List.flatMap_replicate]
        exact List.flatten_replicate_singleton
      have hbytes : encodeUtf8 text = encodeUtf8 (text.take n) ++
          List.replicate (text.length - n) 32 := by
        rw [← hspaces, ← encodeUtf8_append, List.take_append_drop]
      rw [hbytes, List.length_append, List.length_replicate,
        Nat.add_sub_cancel, List.take_left]
    · rw [if_neg hcore, if_neg hcore]

theorem checkNotBlank_ok_iff (text : List Nat) :
    checkNotBlank (encodeUtf8 text) = .ok () ↔ ∃ c ∈ text, c ≠ 32 := by
  have hall : (encodeUtf8 text).all (· == 32) = true ↔ ∀ c ∈ text, c = 32 := by
    rw [← spaces_iff]
    simp
  rw [checkNotBlank]
  split
  · next h =>
      have hspaces := hall.mp h
      exact iff_of_false nofun fun ⟨c, hc, hne⟩ => hne (hspaces c hc)
  · next h =>
      exact iff_of_true rfl (by simpa using mt hall.mpr h)

/-- `Storable` is what a column checks. -/
theorem storable_iff (n : Nat) (s : StdString) :
    Storable n s ↔ bindText s = .ok () ∧
      ∃ t, varchar n s = .ok t ∧ checkNotBlank t = .ok () := by
  rw [bindText_ok_iff]
  constructor
  · rintro ⟨text, henc, rfl, h0, ⟨c, hc, hne⟩, hlen⟩
    refine ⟨⟨text, henc, rfl, h0⟩, encodeUtf8 (text.take n), ?_, ?_⟩
    · rw [varchar_encodeUtf8 n henc, if_pos hlen]
    · refine (checkNotBlank_ok_iff _).mpr ⟨c, ?_, hne⟩
      rw [← List.take_append_drop n text, List.mem_append] at hc
      exact hc.resolve_right fun hdrop => hne (drop_spaces hlen c hdrop)
  · rintro ⟨⟨text, henc, rfl, h0⟩, t, hvarchar, hblank⟩
    rw [varchar_encodeUtf8 n henc] at hvarchar
    split at hvarchar
    · next hlen =>
        cases hvarchar
        obtain ⟨c, hc, hne⟩ := (checkNotBlank_ok_iff _).mp hblank
        exact ⟨text, henc, rfl, h0, ⟨c, List.mem_of_mem_take hc, hne⟩, hlen⟩
    · cases hvarchar

/-! ## The inserts -/

/-- What this fails with, if it does, the method catches. -/
def Caught {α : Type} (caught : List PgError) (x : Except PgError α) : Prop :=
  ∀ e, x = .error e → e ∈ caught

section

variable {α β : Type} {caught : List PgError}

theorem caught_ok (a : α) : Caught caught (.ok a) := nofun

/-- A check whose failure is not caught has to go through. -/
theorem caught_bind_fatal {x : Except PgError α} {f : α → Except PgError β}
    (h : ∀ e, x = .error e → e ∉ caught) :
    Caught caught (x >>= f) ↔ ∃ a, x = .ok a ∧ Caught caught (f a) := by
  cases x with
  | error e =>
      refine iff_of_false (fun hc => h e rfl (hc e rfl)) ?_
      rintro ⟨a, ha, -⟩
      cases ha
  | ok a =>
      refine ⟨fun hc => ⟨a, rfl, hc⟩, ?_⟩
      rintro ⟨a', ha, hc⟩
      cases ha
      exact hc

/-- After a check whose failure is caught only what follows it counts. -/
theorem caught_bind_mild {x : Except PgError α} {f : α → Except PgError β}
    (h : Caught caught x) :
    Caught caught (x >>= f) ↔ ∀ a, x = .ok a → Caught caught (f a) := by
  cases x with
  | error e =>
      refine iff_of_true (fun e' he => ?_) nofun
      cases he
      exact h e rfl
  | ok a =>
      refine ⟨fun hc a' ha => ?_, fun hc => hc a rfl⟩
      cases ha
      exact hc

theorem varchar_error {n : Nat} {s : StdString} {e : PgError}
    (h : varchar n s = .error e) : e = .stringTooLong := by
  simp only [varchar] at h
  split at h
  · cases h
  · split at h
    · cases h
    · cases h
      rfl

theorem checkNotBlank_error {s : StdString} {e : PgError}
    (h : checkNotBlank s = .error e) : e = .checkViolation := by
  rw [checkNotBlank] at h
  split at h
  · cases h
    rfl
  · cases h

theorem checkThat_error {b : Bool} {e e' : PgError}
    (h : checkThat b e = .error e') : e' = e := by
  rw [checkThat] at h
  split at h
  · cases h
  · cases h
    rfl

theorem insertRow_error {ρ : Type} {key : ρ → Int} {t : Table Int ρ key} {r : ρ}
    {e : PgError} (h : insertRow t r = .error e) : e = .uniqueViolation := by
  rw [insertRow] at h
  split at h
  · cases h
    rfl
  · cases h

theorem bindTexts_error {texts : List StdString} {e : PgError}
    (h : bindTexts texts = .error e) : e = .invalidText := by
  induction texts with
  | nil => cases h
  | cons s rest ih =>
      rw [bindTexts, bindText] at h
      split at h
      · exact ih h
      · cases h
        rfl

/-- An insert reads its parameters, takes an id and checks the row. -/
theorem insertMethod_ok_iff {ρ : Type} (parse : ρ → α)
    (texts : List StdString) (seq : Nat) (bump : Nat → Db → Db)
    (build : Int → Db → Except PgError (ρ × Db)) (db : Db)
    (hinvalid : .invalidText ∉ caught) (hseq : .sequenceExhausted ∉ caught) :
    (∃ a, (insertMethod caught parse
        (insertReturning texts seq bump build db)).1 = .ok a) ↔
      bindTexts texts = .ok () ∧ seq < 2147483647 ∧
        Caught caught (build (seq + 1 : Nat) (bump (seq + 1) db)) := by
  have herror : ∀ {e : PgError} {db' : Db},
      (∃ a, (insertMethod caught parse (.error e, db')).1 = .ok a) ↔
        e ∈ caught := by
    intro e db'
    simp only [insertMethod]
    split
    · next h => exact iff_of_true ⟨_, rfl⟩ (List.contains_iff_mem.mp h)
    · next h =>
        exact iff_of_false (by rintro ⟨a, ha⟩; cases ha)
          (mt List.contains_iff_mem.mpr h)
  rw [insertReturning]
  cases htexts : bindTexts texts with
  | error e =>
      cases bindTexts_error htexts
      exact iff_of_false (mt herror.mp hinvalid) (by rintro ⟨h, -⟩; cases h)
  | ok u =>
      rw [nextval]
      by_cases hlast : seq < 2147483647
      · rw [if_pos hlast]
        simp only
        cases hbuild : build (seq + 1 : Nat) (bump (seq + 1) db) with
        | error e =>
            refine herror.trans ⟨fun he => ⟨trivial, hlast, ?_⟩,
              fun h => h.2.2 e rfl⟩
            rintro e' ⟨⟩
            exact he
        | ok r => exact iff_of_true ⟨_, rfl⟩ ⟨trivial, hlast, caught_ok r⟩
      · rw [if_neg hlast]
        exact iff_of_false (mt herror.mp hseq) fun h => hlast h.2.1

/-- One `VARCHAR` after another, then a check that each is not blank. -/
theorem caught_varchar {n : Nat} {s : StdString}
    {f : StdString → Except PgError β} (h : .stringTooLong ∉ caught) :
    Caught caught (varchar n s >>= f) ↔
      ∃ t, varchar n s = .ok t ∧ Caught caught (f t) :=
  caught_bind_fatal fun _ he => varchar_error he ▸ h

theorem caught_checkNotBlank {s : StdString} {f : Unit → Except PgError β}
    (h : .checkViolation ∉ caught) :
    Caught caught (checkNotBlank s >>= f) ↔
      checkNotBlank s = .ok () ∧ Caught caught (f ()) := by
  rw [caught_bind_fatal fun _ he => checkNotBlank_error he ▸ h]
  exact ⟨fun ⟨_, ha⟩ => ha, fun ha => ⟨(), ha⟩⟩

theorem caught_checkThat {b : Bool} {e : PgError} {f : Unit → Except PgError β}
    (h : e ∈ caught) (hf : Caught caught (f ())) :
    Caught caught (checkThat b e >>= f) :=
  (caught_bind_mild fun _ he => checkThat_error he ▸ h).mpr fun _ _ => hf

theorem bindTexts_cons (s : StdString) (rest : List StdString) :
    bindTexts (s :: rest) = .ok () ↔
      bindText s = .ok () ∧ bindTexts rest = .ok () := by
  rw [bindTexts]
  constructor
  · intro h
    obtain ⟨_, hs, hrest⟩ := bind_ok h
    exact ⟨hs, hrest⟩
  · rintro ⟨hs, hrest⟩
    rw [hs]
    exact hrest

end

theorem createUser_ok_iff (login password fullName : StdString) (db : Db) :
    (∃ user, (createUser login password fullName db).1 = .ok user) ↔
      (NewRow.user login password fullName).Fits db := by
  rw [createUser, kInsertUser, insertMethod_ok_iff _ _ _ _ _ _ (by decide)
    (by decide)]
  simp (disch := decide) only [caught_varchar, caught_checkNotBlank,
    bindTexts_cons, NewRow.Fits, storable_iff]
  constructor
  · rintro ⟨⟨b1, b2, b3, -⟩, hseq, t1, v1, t2, v2, t3, v3, c1, c2, c3, -⟩
    exact ⟨hseq, ⟨b1, t1, v1, c1⟩, ⟨b2, t2, v2, c2⟩, b3, t3, v3, c3⟩
  · rintro ⟨hseq, ⟨b1, t1, v1, c1⟩, ⟨b2, t2, v2, c2⟩, b3, t3, v3, c3⟩
    refine ⟨⟨b1, b2, b3, rfl⟩, hseq, t1, v1, t2, v2, t3, v3, c1, c2, c3, ?_⟩
    -- A taken login is a unique violation, which is caught.
    refine caught_checkThat (by decide) ((caught_bind_mild ?_).mpr ?_)
    · exact fun e he => by rw [insertRow_error he]; decide
    · exact fun users _ => caught_ok _

theorem createDriver_ok_iff (userId : Int)
    (carModel carNumber licenseNumber : StdString) (db : Db) :
    (∃ driver, (createDriver userId carModel carNumber licenseNumber db).1 =
        .ok driver) ↔
      (NewRow.driver userId carModel carNumber licenseNumber).Fits db := by
  rw [createDriver, kInsertDriver, insertMethod_ok_iff _ _ _ _ _ _ (by decide)
    (by decide)]
  simp (disch := decide) only [caught_varchar, caught_checkNotBlank,
    bindTexts_cons, NewRow.Fits, storable_iff]
  constructor
  · rintro ⟨⟨b1, b2, b3, -⟩, hseq, t1, v1, t2, v2, t3, v3, c1, c2, c3, -⟩
    exact ⟨hseq, ⟨b1, t1, v1, c1⟩, ⟨b2, t2, v2, c2⟩, b3, t3, v3, c3⟩
  · rintro ⟨hseq, ⟨b1, t1, v1, c1⟩, ⟨b2, t2, v2, c2⟩, b3, t3, v3, c3⟩
    refine ⟨⟨b1, b2, b3, rfl⟩, hseq, t1, v1, t2, v2, t3, v3, c1, c2, c3, ?_⟩
    refine caught_checkThat (by decide) ((caught_bind_mild ?_).mpr ?_)
    · exact fun e he => by rw [insertRow_error he]; decide
    · exact fun drivers _ => caught_checkThat (by decide) (caught_ok _)

/-- `CreateRide` catches no unique violation, so the id has to be free. -/
theorem createRide_ok_iff (passengerId : Int)
    (pickup destination : StdString) (now : Timestamp) (db : Db) :
    (∃ ride, (createRide passengerId pickup destination now db).1 =
        .ok ride) ↔
      (NewRow.ride passengerId pickup destination).Fits db := by
  rw [createRide, kInsertRide, insertMethod_ok_iff _ _ _ _ _ _ (by decide)
    (by decide)]
  simp (disch := decide) only [caught_varchar, caught_checkNotBlank,
    bindTexts_cons, NewRow.Fits, storable_iff]
  constructor
  · rintro ⟨⟨b1, b2, -⟩, hseq, t1, v1, t2, v2, c1, c2, hrow⟩
    rw [caught_bind_fatal fun _ he => by rw [insertRow_error he]; decide] at hrow
    obtain ⟨rides, hins, -⟩ := hrow
    exact ⟨hseq, Table.insert?_fresh (insertRow_ok hins), ⟨b1, t1, v1, c1⟩,
      b2, t2, v2, c2⟩
  · rintro ⟨hseq, hfresh, ⟨b1, t1, v1, c1⟩, b2, t2, v2, c2⟩
    refine ⟨⟨b1, b2, rfl⟩, hseq, t1, v1, t2, v2, c1, c2, ?_⟩
    let row : RideRow :=
      ⟨(db.ridesSeq + 1 : Nat), passengerId, none, t1, t2, .searching, now, none⟩
    obtain ⟨rides, hins⟩ := Table.insert?_of_fresh (r := row) hfresh
    rw [caught_bind_fatal fun _ he => by rw [insertRow_error he]; decide]
    refine ⟨rides, ?_, caught_checkThat (by decide) (caught_ok _)⟩
    rw [insertRow, hins]

/-! ## The requests -/

section

variable {json : UserverJson} {body : StdString} {value : json.Value}
  {name : String}

theorem getString_of_field {s : StdString}
    (hvalue : json.fromString body = .ok value)
    (h : stringField json body name = .ok s) :
    getString json value name = .pure s := by
  rw [stringField, hvalue] at h
  obtain ⟨member, hmember, hs⟩ := bind_ok (f := json.asString) h
  rw [getString, hmember]
  show orJson (json.asString member) = _
  rw [hs]
  rfl

theorem getInt_of_field {n : Int}
    (hvalue : json.fromString body = .ok value)
    (h : intField json body name = .ok n) :
    getInt json value name = .pure n := by
  rw [intField, hvalue] at h
  obtain ⟨member, hmember, hn⟩ := bind_ok (f := json.asInt) h
  rw [getInt, hmember]
  show orJson (json.asInt member) = _
  rw [hn]
  rfl

end

theorem handlerPure_bind {α β : Type} (a : α) (f : α → Handler β) :
    ((.pure a : Handler α) >>= f) = f a := rfl

section

variable {json : UserverJson} (lower : StdString → StdString)
  (clocks : Readings) (a : App) {body : StdString}

/-- What a create handler does with the answer of its storage call. -/
theorem settled_iff {α : Type} {r : Except PgError (Option α)}
    {k : Option α → Handler Response}
    (hnone : ∃ response, k none = .pure response ∧ response.status = .conflict)
    (hsome : ∀ x, ∃ pre response, k (some x) =
      .op (.invalidatePrefix pre) (fun _ => .pure response) ∧
        response.status = .created) :
    Settled ((orThrow r >>= k).run (callApp lower clocks) a).1 ↔
      ∃ x, r = .ok x := by
  rcases r with e | (_ | x)
  · exact iff_of_false (fun ⟨_, h, _⟩ => nomatch h) (fun ⟨_, h⟩ => nomatch h)
  · obtain ⟨response, hk, hstatus⟩ := hnone
    refine iff_of_true ⟨response, ?_, .inr hstatus⟩ ⟨_, rfl⟩
    show ((k none).run _ a).1 = _
    rw [hk]
    rfl
  · obtain ⟨pre, response, hk, hstatus⟩ := hsome x
    refine iff_of_true ⟨response, ?_, .inl hstatus⟩ ⟨_, rfl⟩
    show ((k (some x)).run _ a).1 = _
    rw [hk]
    rfl

theorem usersCreate_settled {login password fullName : StdString}
    (hreads : Reads json (.usersCreate body) (.user login password fullName))
    (hchecked : (NewRow.user login password fullName).Checked) :
    Settled ((usersCreate json body).run (callApp lower clocks) a).1 ↔
      (NewRow.user login password fullName).Fits a.backend.db := by
  obtain ⟨h1, h2, h3⟩ := hreads
  obtain ⟨c1, c2, c3⟩ := hchecked
  obtain ⟨value, hvalue, -⟩ := bind_ok h1
  rw [← createUser_ok_iff, usersCreate, hvalue, orJson, handlerPure_bind,
    getString_of_field hvalue h1, handlerPure_bind,
    getString_of_field hvalue h2, handlerPure_bind,
    getString_of_field hvalue h3, handlerPure_bind,
    if_neg (by simp [c1, c2, c3])]
  exact settled_iff lower clocks _ ⟨_, rfl, rfl⟩ fun _ => ⟨_, _, rfl, rfl⟩

theorem driversCreate_settled {userId : Int}
    {carModel carNumber licenseNumber : StdString}
    (hreads : Reads json (.driversCreate body)
      (.driver userId carModel carNumber licenseNumber))
    (hchecked :
      (NewRow.driver userId carModel carNumber licenseNumber).Checked) :
    Settled ((driversCreate json body).run (callApp lower clocks) a).1 ↔
      (NewRow.driver userId carModel carNumber licenseNumber).Fits
        a.backend.db := by
  obtain ⟨h1, h2, h3, h4⟩ := hreads
  obtain ⟨c1, c2, c3, c4⟩ := hchecked
  obtain ⟨value, hvalue, -⟩ := bind_ok h1
  rw [← createDriver_ok_iff, driversCreate, hvalue, orJson, handlerPure_bind,
    getInt_of_field hvalue h1, handlerPure_bind,
    getString_of_field hvalue h2, handlerPure_bind,
    getString_of_field hvalue h3, handlerPure_bind,
    getString_of_field hvalue h4, handlerPure_bind,
    if_neg (by simp [c1, c2, c3, c4])]
  exact settled_iff lower clocks _ ⟨_, rfl, rfl⟩ fun _ => ⟨_, _, rfl, rfl⟩

theorem ridesCreate_settled {passengerId : Int}
    {pickup destination : StdString}
    (hreads : Reads json (.ridesCreate body)
      (.ride passengerId pickup destination))
    (hchecked : (NewRow.ride passengerId pickup destination).Checked) :
    Settled ((ridesCreate json body).run (callApp lower clocks) a).1 ↔
      (NewRow.ride passengerId pickup destination).Fits a.backend.db := by
  obtain ⟨h1, h2, h3⟩ := hreads
  obtain ⟨c1, c2, c3⟩ := hchecked
  obtain ⟨value, hvalue, -⟩ := bind_ok h1
  rw [← createRide_ok_iff _ _ _ clocks.now, ridesCreate, hvalue, orJson,
    handlerPure_bind, getInt_of_field hvalue h1, handlerPure_bind,
    getString_of_field hvalue h2, handlerPure_bind,
    getString_of_field hvalue h3, handlerPure_bind,
    if_neg (by simp [c1, c2, c3])]
  exact settled_iff lower clocks _ ⟨_, rfl, rfl⟩ fun _ => ⟨_, _, rfl, rfl⟩

end

/-- A request whose fields pass the handler's checks is answered exactly when
the row it asks for fits. -/
theorem serve_settled (json : UserverJson) (lower : StdString → StdString)
    (a : App) (arrival : Request × Readings) (row : NewRow)
    (hreads : Reads json arrival.1 row) (hchecked : row.Checked) :
    Settled (serve lower json a arrival).1 ↔ row.Fits a.backend.db := by
  obtain ⟨request, clocks⟩ := arrival
  cases request with
  | usersCreate body =>
      cases row with
      | user => exact usersCreate_settled lower clocks a hreads hchecked
      | _ => exact hreads.elim
  | driversCreate body =>
      cases row with
      | driver => exact driversCreate_settled lower clocks a hreads hchecked
      | _ => exact hreads.elim
  | ridesCreate body =>
      cases row with
      | ride => exact ridesCreate_settled lower clocks a hreads hchecked
      | _ => exact hreads.elim
  | _ => cases row <;> exact hreads.elim

/-- The handler and the schema agree on a request exactly when its row, if it
passes the handler, fits. -/
theorem schemaAgrees_iff_fits (json : UserverJson) (lower : StdString → StdString)
    (a : App) (arrival : Request × Readings) :
    SchemaAgrees json lower a arrival ↔
      ∀ row, Reads json arrival.1 row → row.Checked → row.Fits a.backend.db := by
  constructor
  · intro h row hreads hchecked
    exact (serve_settled json lower a arrival row hreads hchecked).mp
      (h row hreads hchecked)
  · intro h row hreads hchecked
    exact (serve_settled json lower a arrival row hreads hchecked).mpr
      (h row hreads hchecked)

/-! ## A login of spaces -/

/-- A JSON library that reads what is standard and prints compactly. -/
def readingJson : UserverJson where
  Value := PyJson {t : FloatText // t.Canonical}
  fromString body :=
    match (decodeUtf8 body).bind (loads PyFloat.literal 128 308) with
    | some value => .ok value
    | none => .error (bytes "no document")
  member
    | .dict entries, name =>
        match (decodeUtf8 name).bind (Assoc.get? entries) with
        | some value => .ok value
        | none => .error (bytes "no member")
    | _, _ => .error (bytes "no object")
  asString
    | .str text =>
        if Encodable text then .ok (encodeUtf8 text)
        else .error (bytes "no string")
    | _ => .error (bytes "no string")
  asInt
    | .int n => if inIntRange n then .ok n else .error (bytes "out of range")
    | _ => .error (bytes "no integer")
  toString := compact

def blankLogin : StdString :=
  bytes ("\x7b\"login\":\"   \",\"password\":\"secret\"," ++
    "\"full_name\":\"Ivan\"\x7d")

/-- The handler takes the three spaces for a login, the schema does not, and
the check violation leaves `CreateUser` and the handler. -/
theorem blankLogin_escapes :
    (serve id readingJson ⟨⟨Db.empty, .empty⟩, .empty⟩
      (.usersCreate blankLogin, noon)).1 = .error (.pg .checkViolation) ∧
    ¬ SchemaAgrees readingJson id ⟨⟨Db.empty, .empty⟩, .empty⟩
      (.usersCreate blankLogin, noon) := by
  have hthrows : (serve id readingJson ⟨⟨Db.empty, .empty⟩, .empty⟩
      (.usersCreate blankLogin, noon)).1 = .error (.pg .checkViolation) := by
    decide +kernel
  refine ⟨hthrows, fun hagrees => ?_⟩
  obtain ⟨response, hok, -⟩ := hagrees
    (.user (bytes "   ") (bytes "secret") (bytes "Ivan"))
    (by refine ⟨?_, ?_, ?_⟩ <;> decide +kernel)
    ⟨by decide, by decide, by decide⟩
  rw [hthrows] at hok
  cases hok

end TaxiService.Proofs
