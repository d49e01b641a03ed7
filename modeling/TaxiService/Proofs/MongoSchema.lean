import TaxiService.Proofs.MongoDocuments

/-!
# Where the checks and the validator part

The validator is a conjunction over the fields of a document
(`accepts_makeDoc`), so it is enough to say of each field when its schema takes
it. Three schemas have a pattern: `parse` reads it, and the laws of `Regex` turn
what it finds into the shapes of `EmailText` and `PhoneText`. A login that the
handler takes has its pattern already, and the defaults of the email and the
phone have theirs.
-/

namespace TaxiService.Proofs

open TaxiService.Lib TaxiService.Model TaxiService.Spec
open TaxiService.Model.Documents (CollectionServer checkUser serveMongo)

/-! ## The patterns -/

def loginSet : CharSet :=
  ⟨false, [(97, 122), (48, 57), (46, 46), (95, 95), (45, 45)]⟩

def emailSet : CharSet := ⟨true, [(64, 64), (9, 13), (32, 32)]⟩

def digitSet : CharSet := ⟨false, [(48, 57)]⟩

def loginRegex : Regex :=
  .seq (.seq (.seq .empty .start) (Regex.char loginSet).plus) .stop

def emailRegex : Regex :=
  .seq (.seq (.seq (.seq (.seq (.seq (.seq .empty .start)
    (Regex.char emailSet).plus) (.char (.one 64))) (Regex.char emailSet).plus)
    (.char (.one 46))) (Regex.char emailSet).plus) .stop

def phoneRegex : Regex :=
  .seq (.seq (.seq (.seq .empty .start) (Regex.char (.one 43)).opt)
    ((Regex.char digitSet).counted 10 (some 15))) .stop

theorem parse_loginPattern : Pattern.parse loginSchema.pattern =
    .ok loginRegex := by decide

theorem parse_emailPattern : Pattern.parse emailSchema.pattern =
    .ok emailRegex := by decide

theorem parse_phonePattern : Pattern.parse phoneSchema.pattern =
    .ok phoneRegex := by decide

theorem takes_plus (set : CharSet) : (Regex.char set).plus.Takes .exact
    fun w => w ≠ [] ∧ ∀ c ∈ w, set.holds .exact c = true :=
  fun _ _ _ => Regex.matches_plus_char

theorem takes_one (c : Nat) :
    (Regex.char (.one c)).Takes .exact (· = [c]) := by
  intro pre w post
  rw [Regex.matches_char_one]
  constructor
  · rintro ⟨d, rfl, hd⟩
    rw [List.mem_singleton.mp hd]
  · rintro rfl
    exact ⟨c, rfl, List.mem_cons_self⟩

theorem takes_opt_one (c : Nat) :
    (Regex.char (.one c)).opt.Takes .exact fun w => w = [] ∨ w = [c] :=
  fun pre w post => (or_congr (takes_one c pre w post) Iff.rfl).trans or_comm

theorem takes_counted (set : CharSet) {lo hi : Nat} (h : lo ≤ hi) :
    ((Regex.char set).counted lo (some hi)).Takes .exact fun w =>
      (lo ≤ w.length ∧ w.length ≤ hi) ∧ ∀ c ∈ w, set.holds .exact c = true :=
  fun _ _ _ => Regex.matches_counted_char h

theorem emailSet_holds (c : Nat) : emailSet.holds .exact c = true ↔
    c ≠ 64 ∧ c ≠ 32 ∧ ¬(9 ≤ c ∧ c ≤ 13) := by
  rw [CharSet.holds_exact]
  simp [emailSet]
  omega

theorem digitSet_holds (c : Nat) : digitSet.holds .exact c = true ↔
    48 ≤ c ∧ c ≤ 57 := by
  rw [CharSet.holds_exact]
  simp [digitSet]

theorem loginRegex_of_all {text : List Nat} (hne : text ≠ [])
    (h : ∀ c ∈ text, loginSet.holds .exact c = true) :
    loginRegex.FoundIn .exact text := by
  rw [loginRegex, (Regex.takesFirst_start.seq (takes_plus loginSet)).foundIn_stop]
  exact ⟨text, [], (List.append_nil text).symm, .inl rfl, [], text, rfl, rfl,
    hne, h⟩

theorem emailRegex_iff (text : List Nat) : emailRegex.FoundIn .exact text ↔
    ∃ name host zone newline,
      text = name ++ 64 :: (host ++ 46 :: (zone ++ newline)) ∧
      EmailPart name ∧ EmailPart host ∧ EmailPart zone ∧
      (newline = [] ∨ newline = [10]) := by
  have htakes := (((((@Regex.takesFirst_start CaseRule.exact).seq
    (takes_plus emailSet)).seq (takes_one 64)).seq (takes_plus emailSet)).seq
    (takes_one 46)).seq (takes_plus emailSet)
  rw [emailRegex, htakes.foundIn_stop]
  simp only [emailSet_holds]
  constructor
  · rintro ⟨w, newline, rfl, hnewline, u4, zone, rfl, ⟨u3, dot, rfl, ⟨u2, host,
      rfl, ⟨u1, sign, rfl, ⟨u0, name, rfl, rfl, hname⟩, rfl⟩, hhost⟩, rfl⟩,
      hzone⟩
    exact ⟨name, host, zone, newline, by simp, hname, hhost, hzone, hnewline⟩
  · rintro ⟨name, host, zone, newline, rfl, hname, hhost, hzone, hnewline⟩
    exact ⟨name ++ [64] ++ host ++ [46] ++ zone, newline, by simp, hnewline, _,
      zone, rfl, ⟨_, [46], rfl, ⟨_, host, rfl, ⟨_, [64], rfl, ⟨[], name, rfl,
      rfl, hname⟩, rfl⟩, hhost⟩, rfl⟩, hzone⟩

theorem phoneRegex_iff (text : List Nat) : phoneRegex.FoundIn .exact text ↔
    ∃ plus digits newline, text = plus ++ (digits ++ newline) ∧
      (plus = [] ∨ plus = [43]) ∧ 10 ≤ digits.length ∧ digits.length ≤ 15 ∧
      (∀ c ∈ digits, 48 ≤ c ∧ c ≤ 57) ∧ (newline = [] ∨ newline = [10]) := by
  have htakes := ((@Regex.takesFirst_start CaseRule.exact).seq
    (takes_opt_one 43)).seq (takes_counted digitSet (by decide : 10 ≤ 15))
  rw [phoneRegex, htakes.foundIn_stop]
  simp only [digitSet_holds]
  constructor
  · rintro ⟨w, newline, rfl, hnewline, u1, digits, rfl, ⟨u0, plus, rfl, rfl,
      hplus⟩, ⟨hlo, hhi⟩, hdigits⟩
    exact ⟨plus, digits, newline, by simp, hplus, hlo, hhi, hdigits, hnewline⟩
  · rintro ⟨plus, digits, newline, rfl, hplus, hlo, hhi, hdigits, hnewline⟩
    exact ⟨plus ++ digits, newline, by simp, hnewline, plus, digits, rfl,
      ⟨[], plus, rfl, rfl, hplus⟩, ⟨hlo, hhi⟩, hdigits⟩

/-! ## The fields of a document -/

theorem accepts_str {schema : FieldSchema} {s : StdString}
    (htype : schema.bsonType = some .string) (henum : schema.enum = none) :
    schema.accepts (.str s) = true ↔
      ∃ text, decodeUtf8 s = some text ∧ schema.acceptsText text = true := by
  rw [FieldSchema.accepts, htype, henum]
  simp [Bson.type, Option.any_eq_true]

theorem passwordSchema_iff (s : StdString) :
    passwordSchema.accepts (.str s) = true ↔ TextLength (6 ≤ ·) s := by
  rw [accepts_str rfl rfl]
  refine exists_congr fun text => and_congr_right fun _ => ?_
  rw [acceptsText_of_no_pattern _ rfl]
  simp [passwordSchema]

theorem nameSchema_iff {s : StdString} (hne : s ≠ []) :
    nameSchema.accepts (.str s) = true ↔ TextLength (· ≤ 100) s := by
  rw [accepts_str rfl rfl]
  refine exists_congr fun text => and_congr_right fun htext => ?_
  have hpos : 1 ≤ text.length := by
    rw [Nat.one_le_iff_ne_zero, ne_eq, List.length_eq_zero_iff]
    rintro rfl
    exact hne (decodeUtf8_sound htext).2.symm
  rw [acceptsText_of_no_pattern _ rfl]
  simp [nameSchema, hpos]

theorem statusSchema_of {s : StdString}
    (h : s = bytes "active" ∨ s = bytes "blocked") :
    statusSchema.accepts (.str s) = true := by
  rcases h with rfl | rfl <;> decide

theorem emailSchema_iff (s : StdString) :
    emailSchema.accepts (.str s) = true ↔ EmailText s := by
  rw [accepts_str rfl rfl]
  simp only [acceptsText_of_pattern _ parse_emailPattern, emailRegex_iff]
  simp [emailSchema, EmailText]

theorem phoneSchema_iff (s : StdString) :
    phoneSchema.accepts (.str s) = true ↔ PhoneText s := by
  rw [accepts_str rfl rfl]
  simp only [acceptsText_of_pattern _ parse_phonePattern, phoneRegex_iff]
  simp [phoneSchema, PhoneText]

theorem isLoginChar_iff (b : UInt8) :
    isLoginChar b = true ↔ loginSet.holds .exact b.toNat = true := by
  rw [CharSet.holds_exact]
  simp [isLoginChar, loginSet, UInt8.le_iff_toNat_le, ← UInt8.toNat_inj]
  omega

/-- A login that the handler takes is not empty, and of these characters. -/
theorem loginSet_of_isValidLogin {s : StdString} (h : isValidLogin s = true) :
    s ≠ [] ∧ ∀ b ∈ s, loginSet.holds .exact b.toNat = true := by
  rw [isValidLogin, Bool.and_eq_true, Bool.not_eq_true',
    List.isEmpty_eq_false_iff, List.all_eq_true] at h
  exact ⟨h.1, fun b hb => (isLoginChar_iff b).mp (h.2 b hb)⟩

theorem loginSet_lt {c : Nat} (h : loginSet.holds .exact c = true) :
    c < 128 ∧ c ≠ 64 ∧ c ≠ 32 ∧ ¬(9 ≤ c ∧ c ≤ 13) := by
  rw [CharSet.holds_exact] at h
  simp [loginSet] at h
  omega

theorem decode_login {s : StdString} (h : isValidLogin s = true) :
    decodeUtf8 s = some (s.map UInt8.toNat) :=
  decodeUtf8_ascii fun b hb =>
    (loginSet_lt ((loginSet_of_isValidLogin h).2 b hb)).1

theorem loginSchema_iff {s : StdString} (h : isValidLogin s = true) :
    loginSchema.accepts (.str s) = true ↔ 3 ≤ s.length ∧ s.length ≤ 50 := by
  obtain ⟨hne, hall⟩ := loginSet_of_isValidLogin h
  have hfound : loginRegex.FoundIn .exact (s.map UInt8.toNat) := by
    refine loginRegex_of_all (mt List.map_eq_nil_iff.mp hne) fun c hc => ?_
    obtain ⟨b, hb, rfl⟩ := List.mem_map.mp hc
    exact hall b hb
  rw [accepts_str rfl rfl]
  simp only [acceptsText_of_pattern _ parse_loginPattern, decode_login h]
  simp [loginSchema, hfound]

/-! ## The defaults -/

theorem emailText_default {login : StdString} (h : isValidLogin login = true) :
    EmailText (login ++ bytes "@example.com") := by
  obtain ⟨hne, hall⟩ := loginSet_of_isValidLogin h
  have hdomain : ∀ b ∈ bytes "@example.com", b.toNat < 128 := by
    decide +kernel
  have hascii : ∀ b ∈ login ++ bytes "@example.com", b.toNat < 128 := by
    intro b hb
    rcases List.mem_append.mp hb with hb | hb
    · exact (loginSet_lt (hall b hb)).1
    · exact hdomain b hb
  refine ⟨login.map UInt8.toNat, patternText "example", patternText "com", [],
    ?_, ⟨mt List.map_eq_nil_iff.mp hne, ?_⟩, ?_, ?_, .inl rfl⟩
  · rw [decodeUtf8_ascii hascii, List.map_append]
    rfl
  · intro c hc
    obtain ⟨b, hb, rfl⟩ := List.mem_map.mp hc
    exact (loginSet_lt (hall b hb)).2
  · exact ⟨by decide, by decide⟩
  · exact ⟨by decide, by decide⟩

theorem phoneText_default : PhoneText (bytes "+79990000000") :=
  ⟨[43], patternText "79990000000", [], by decide, .inr rfl,
    by decide, by decide, by decide, .inl rfl⟩

/-! ## The document of a request -/

theorem accepts_makeDoc (fields : UserFields) (now : Timestamp) :
    usersSchema.accepts (makeDoc fields now) =
      (loginSchema.accepts (.str fields.login) &&
        (passwordSchema.accepts (.str fields.password) &&
        (nameSchema.accepts (.str fields.firstName) &&
        (nameSchema.accepts (.str fields.lastName) &&
        (statusSchema.accepts (.str fields.status) &&
        ((emailSchema.accepts (.str fields.profile.email) &&
          (phoneSchema.accepts (.str fields.profile.phone) && true)) &&
        true)))))) := rfl

section

variable {json : MongoJson} {body : json.Value} {fields : UserFields}

/-- What a member that may be left out has to be like, if its default is. -/
theorem textOr_iff {name : String} {default s : StdString} {P : StdString → Prop}
    (h : Documents.textOr json body name default = .ok s) (hdefault : P default) :
    P s ↔ (json.hasMember body (bytes name) = .ok true →
      ∀ t, Documents.text json body name = .ok t → P t) := by
  obtain ⟨has, hhas, h⟩ := bind_ok h
  cases has with
  | false =>
      cases h
      rw [hhas]
      constructor
      · intro _ hne
        cases hne
      · intro _
        exact hdefault
  | true =>
      replace h : Documents.text json body name = .ok s := h
      rw [hhas, h]
      constructor
      · intro hs _ t ht
        cases ht
        exact hs
      · intro hall
        exact hall rfl s rfl

/-- What is read of a member is one text. -/
theorem text_iff {name : String} {s : StdString} {P : StdString → Prop}
    (h : Documents.text json body name = .ok s) :
    P s ↔ ∀ t, Documents.text json body name = .ok t → P t := by
  rw [h]
  constructor
  · intro hs t ht
    cases ht
    exact hs
  · intro hall
    exact hall s rfl

/-- The document of checked fields is accepted if the body fits. -/
theorem accepts_iff_fits (h : CheckedFields json body fields) (now : Timestamp) :
    usersSchema.accepts (makeDoc fields now) = true ↔ FitsSchema json body := by
  have hemail := textOr_iff h.email (emailText_default h.validLogin)
  have hphone := textOr_iff h.phone phoneText_default
  simp only [accepts_makeDoc, Bool.and_eq_true, and_true,
    statusSchema_of h.status, true_and, loginSchema_iff h.validLogin,
    passwordSchema_iff, nameSchema_iff h.named.1, nameSchema_iff h.named.2,
    emailSchema_iff, phoneSchema_iff]
  rw [text_iff (P := fun s => 3 ≤ s.length ∧ s.length ≤ 50) h.login,
    text_iff (P := TextLength (6 ≤ ·)) h.password,
    text_iff (P := TextLength (· ≤ 100)) h.firstName,
    text_iff (P := TextLength (· ≤ 100)) h.lastName, hemail, hphone]
  constructor
  · rintro ⟨hlogin, hpassword, hfirst, hlast, hemail, hphone⟩
    exact ⟨hlogin, hpassword, hfirst, hlast, hemail, hphone⟩
  · rintro ⟨hlogin, hpassword, hfirst, hlast, hemail, hphone⟩
    exact ⟨hlogin, hpassword, hfirst, hlast, hemail, hphone⟩

end

/-- The checks and the validator agree on a request exactly when its body, if it
passes the checks, fits the schema. -/
theorem validationAgrees_iff_fits (json : MongoJson) (requestBody : StdString) :
    ValidationAgrees json requestBody ↔
      ∀ body fields, json.fromString requestBody = .ok body →
        checkUser json body = .ok (.inr fields) → FitsSchema json body := by
  constructor
  · intro hagrees body fields hbody hcheck
    exact (accepts_iff_fits (checkUser_inr hcheck) 0).mp
      ((hagrees fields ⟨body, hbody, hcheck⟩).1 0)
  · rintro hfits fields ⟨body, hbody, hcheck⟩
    have hpasses : Passes json requestBody fields := ⟨body, hbody, hcheck⟩
    have haccepts : ∀ now, usersSchema.accepts (makeDoc fields now) = true :=
      fun now => (accepts_iff_fits (checkUser_inr hcheck) now).mpr
        (hfits body fields hbody hcheck)
    refine ⟨haccepts, fun server docs now choice hserver => ?_⟩
    by_cases hnone : withLogin fields.login docs = []
    · have hvalid : server.validator (makeDoc fields now) = true := by
        rw [hserver]
        exact haccepts now
      rw [serveMongo_inserted server docs now choice hpasses hnone hvalid]
      simp
    · rw [serveMongo_found server docs now choice hpasses hnone]
      simp [mongoError]

/-! ## A login of two characters -/

def shortLogin : StdString :=
  bytes ("\x7b\"login\":\"ab\",\"password\":\"secret\"," ++
    "\"first_name\":\"Ann\",\"last_name\":\"Lee\"\x7d")

/-- The server that `validation.js` leaves behind. -/
def validatingServer : CollectionServer := ⟨usersSchema.accepts, fun _ => none⟩

/-- The handler has nothing against the login, the validator has, and the
request ends in 500. -/
theorem shortLogin_fails :
    (serveMongo memberJson validatingServer [] ⟨.create shortLogin, 0, 0⟩).1 =
      mongoError .internalServerError "failed to create mongo user" ∧
    ¬ ValidationAgrees memberJson shortLogin := by
  have hfails : (serveMongo memberJson validatingServer []
      ⟨.create shortLogin, 0, 0⟩).1 =
      mongoError .internalServerError "failed to create mongo user" := by
    decide +kernel
  refine ⟨hfails, fun hagrees => ?_⟩
  have hcheck : (memberJson.fromString shortLogin >>= checkUser memberJson) =
      .ok (.inr ⟨bytes "ab", bytes "secret", bytes "Ann", bytes "Lee",
        bytes "active", ⟨bytes "ab@example.com", bytes "+79990000000"⟩⟩) := by
    decide +kernel
  have hpasses : Passes memberJson shortLogin _ := bind_ok hcheck
  have hanswered := (hagrees _ hpasses).2 validatingServer [] 0 0 rfl
  rw [hfails] at hanswered
  exact hanswered rfl

end TaxiService.Proofs
