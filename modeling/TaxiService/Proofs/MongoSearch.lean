import TaxiService.Proofs.MongoDocuments
import TaxiService.Spec.MongoSearch

/-!
# The mask is a pattern

A plain mask is a pattern that is found where it stands as a word, and then the
search is the one that was promised. The other direction asks the search about
the collection with one document, whose two names are one text: the answer
tells whether the pattern is found in the text, so a mask for which the search
is right is found exactly where it stands as a word, and `isPlain_of_found_iff`
says what such a pattern looks like.
-/

namespace TaxiService.Proofs

open TaxiService.Lib TaxiService.Model TaxiService.Spec
open TaxiService.Model.Documents (CollectionServer hasText member? nameFilter
  serveMongo)

/-! ## Documents that can be read -/

theorem member?_doc (members : List (StdString × Bson)) (name : String) :
    member? (.doc members) name = .ok (Assoc.get? members (bytes name)) := rfl

theorem copyText_ok {members : List (StdString × Bson)} {name : String}
    (h : TextMember members name)
    (assign : Documents.Builder → BuiltJson → Documents.Builder)
    (builder : Documents.Builder) :
    ∃ builder', Documents.copyText (.doc members) name assign builder =
      .ok builder' := by
  cases hvalue : Assoc.get? members (bytes name) with
  | none =>
      refine ⟨builder, ?_⟩
      rw [Documents.copyText, member?_doc, hvalue]
      rfl
  | some value =>
      obtain ⟨text, -, rfl⟩ := h value hvalue
      refine ⟨assign builder (.str (encodeUtf8 text)), ?_⟩
      rw [Documents.copyText, member?_doc, hvalue]
      rfl

theorem bind_of_ok {ε α β : Type} {x : Except ε α} {a : α} (h : x = .ok a)
    {f : α → Except ε β} : (x >>= f) = f a := by
  rw [h]
  rfl

theorem makeUserJson_ok {doc : Bson} (h : UserDocument doc) :
    ∃ built, Documents.makeUserJson doc = .ok built := by
  obtain ⟨members, rfl, htexts, hprofile⟩ := h
  have htop : ∀ name ∈ ["login", "first_name", "last_name", "status"],
      ∀ builder, ∃ builder',
        Documents.copyTop (.doc members) name builder = .ok builder' :=
    fun name hname builder => copyText_ok (htexts name hname) _ builder
  obtain ⟨b1, h1⟩ := htop "login" (by decide) []
  obtain ⟨b2, h2⟩ := htop "first_name" (by decide) b1
  obtain ⟨b3, h3⟩ := htop "last_name" (by decide) b2
  obtain ⟨b4, h4⟩ := htop "status" (by decide) b3
  rw [Documents.makeUserJson, bind_of_ok h1, bind_of_ok h2, bind_of_ok h3,
    bind_of_ok h4, member?_doc]
  cases hvalue : Assoc.get? members (bytes "profile") with
  | none => exact ⟨_, rfl⟩
  | some value =>
      obtain ⟨inner, rfl, hemail, hphone⟩ := hprofile value hvalue
      obtain ⟨b5, h5⟩ := copyText_ok hemail
        (fun b v => b.setIn "profile" "email" v) b4
      obtain ⟨b6, h6⟩ := copyText_ok hphone
        (fun b v => b.setIn "profile" "phone" v) b5
      replace h5 : Documents.copyProfile (.doc inner) "email" b4 = .ok b5 := h5
      replace h6 : Documents.copyProfile (.doc inner) "phone" b5 = .ok b6 := h6
      rw [bind_of_ok rfl]
      simp only [bind_of_ok h5, bind_of_ok h6]
      exact ⟨_, rfl⟩

theorem mapM_ok {ε α β : Type} {f : α → Except ε β} {l : List α}
    (h : ∀ a ∈ l, ∃ b, f a = .ok b) : ∃ bs, l.mapM f = .ok bs := by
  induction l with
  | nil => exact ⟨[], rfl⟩
  | cons a l ih =>
      obtain ⟨b, hb⟩ := h a List.mem_cons_self
      obtain ⟨bs, hbs⟩ := ih fun c hc => h c (List.mem_cons_of_mem a hc)
      refine ⟨b :: bs, ?_⟩
      rw [List.mapM_cons, bind_of_ok hb, bind_of_ok hbs]
      rfl

/-! ## The filter -/

section

variable {json : MongoJson} {server : CollectionServer} {rule : CaseRule}
  {maxSize : Nat} {nameMask : StdString}

/-- The filter of the search, once its pattern compiles. -/
theorem nameFilter_compile {test : StdString → Bool}
    (h : server.regex nameMask = some test) :
    (nameFilter nameMask).compile server = .ok fun doc =>
      hasText test "first_name" doc || hasText test "last_name" doc := by
  simp only [nameFilter, Documents.Filter.compile, h]
  rfl

theorem hasText_iff {test : StdString → Bool} {name : String} {doc : Bson} :
    hasText test name doc = true ↔
      ∃ s, member? doc name = .ok (some (.str s)) ∧ test s = true := by
  rw [hasText]
  split
  · next s hs =>
    rw [hs]
    constructor
    · intro h
      exact ⟨s, rfl, h⟩
    · rintro ⟨t, ht, h⟩
      cases ht
      exact h
  · next hne =>
    constructor
    · intro h
      cases h
    · rintro ⟨s, hs, -⟩
      exact (hne s hs).elim

/-- A string member of a user's document is a text. -/
theorem text_of_userDocument {doc : Bson} (h : UserDocument doc) {name : String}
    (hname : name ∈ ["login", "first_name", "last_name", "status"])
    {s : StdString} (hs : member? doc name = .ok (some (.str s))) :
    ∃ text : List Nat, Encodable text ∧ s = encodeUtf8 text := by
  obtain ⟨members, rfl, htexts, -⟩ := h
  rw [member?_doc] at hs
  obtain ⟨text, henc, hvalue⟩ := htexts name hname _ (Except.ok.inj hs)
  cases hvalue
  exact ⟨text, henc, rfl⟩

/-- If the pattern is found where the word stands, the filter is for the
documents whose names contain the word. -/
theorem filter_iff {word : List Nat} {test : StdString → Bool}
    (hword : Encodable word) (hmask : nameMask = encodeUtf8 word)
    (htest : ∀ text : List Nat, Encodable text →
      (test (encodeUtf8 text) = true ↔ Pattern.ContainsWord rule word text))
    {doc : Bson} (hdoc : UserDocument doc) :
    (hasText test "first_name" doc || hasText test "last_name" doc) = true ↔
      NameContains rule nameMask doc := by
  rw [Bool.or_eq_true, hasText_iff, hasText_iff]
  constructor
  · rintro (⟨s, hs, ht⟩ | ⟨s, hs, ht⟩)
    · obtain ⟨text, henc, rfl⟩ := text_of_userDocument hdoc (by decide) hs
      exact ⟨word, hword, hmask, _, by simp, text, henc, hs,
        (htest text henc).mp ht⟩
    · obtain ⟨text, henc, rfl⟩ := text_of_userDocument hdoc (by decide) hs
      exact ⟨word, hword, hmask, _, by simp, text, henc, hs,
        (htest text henc).mp ht⟩
  · rintro ⟨word', hword', heq, name, hname, text, henc, hs, hcontains⟩
    rw [encodeUtf8_inj hword' hword (heq.symm.trans hmask)] at hcontains
    have ht := (htest text henc).mpr hcontains
    rcases List.mem_pair.mp hname with rfl | rfl
    · exact .inl ⟨_, hs, ht⟩
    · exact .inr ⟨_, hs, ht⟩

/-- A plain mask searches for the names that contain it. -/
theorem nameSearch_of_literal (hregex : SearchesWith server rule maxSize)
    (hne : nameMask ≠ []) (h : LiteralMask maxSize nameMask) :
    NameSearch json server rule nameMask := by
  obtain ⟨hsize, word, hword, rfl, hzero, hplain⟩ := h
  obtain ⟨test, hcompile⟩ := Option.isSome_iff_exists.mp
    (hregex.plain word hword hplain hzero hsize)
  obtain ⟨r, hparse, hfound⟩ := hplain.foundIn_iff rule
  have htest : ∀ text : List Nat, Encodable text →
      (test (encodeUtf8 text) = true ↔
        Pattern.ContainsWord rule word text) := by
    intro text henc
    rw [hregex.searches word r test hword hparse hcompile text henc,
      Regex.found_iff, hfound]
  intro docs hdocs now choice
  have hfilter : docs.filter (fun doc => hasText test "first_name" doc ||
      hasText test "last_name" doc) = namedLike rule (encodeUtf8 word) docs := by
    classical
    refine List.filter_congr fun doc hdoc => Bool.eq_iff_iff.mpr ?_
    exact (filter_iff hword rfl htest (hdocs doc hdoc)).trans
      decide_eq_true_iff.symm
  obtain ⟨items, hitems⟩ := mapM_ok
    fun doc (hdoc : doc ∈ namedLike rule (encodeUtf8 word) docs) =>
      makeUserJson_ok (hdocs doc (List.mem_of_mem_filter hdoc))
  have hsearch : searchItems server docs (encodeUtf8 word) = .ok items := by
    rw [searchItems, bind_of_ok (nameFilter_compile hcompile), hfilter]
    exact hitems
  exact ⟨items, hitems, by rw [serveMongo_search _ _ now choice hne hsearch]⟩

/-! ## Asking about one text -/

/-- A user whose two names are one text. -/
def namesake (text : List Nat) : Bson :=
  documentOf ⟨⟨[], [], encodeUtf8 text, encodeUtf8 text, [], ⟨[], []⟩⟩, 0⟩

/-- A user whose strings are texts has a document that can be read. -/
theorem userDocument_makeDoc {fields : UserFields} (now : Timestamp)
    (h : ∀ s ∈ [fields.login, fields.firstName, fields.lastName, fields.status,
      fields.profile.email, fields.profile.phone],
      ∃ text : List Nat, Encodable text ∧ s = encodeUtf8 text) :
    UserDocument (makeDoc fields now) := by
  have htext : ∀ s ∈ [fields.login, fields.firstName, fields.lastName,
      fields.status, fields.profile.email, fields.profile.phone],
      ∃ text : List Nat, Encodable text ∧ Bson.str s = .str (encodeUtf8 text) := by
    intro s hs
    obtain ⟨text, henc, heq⟩ := h s hs
    exact ⟨text, henc, congrArg Bson.str heq⟩
  refine ⟨_, rfl, fun name hname value hvalue => ?_, fun value hvalue => ?_⟩
  · simp only [List.mem_cons, List.not_mem_nil, or_false] at hname
    rcases hname with rfl | rfl | rfl | rfl
    · cases hvalue
      exact htext _ (by simp)
    · cases hvalue
      exact htext _ (by simp)
    · cases hvalue
      exact htext _ (by simp)
    · cases hvalue
      exact htext _ (by simp)
  · cases hvalue
    refine ⟨_, rfl, fun value hvalue => ?_, fun value hvalue => ?_⟩
    · cases hvalue
      exact htext _ (by simp)
    · cases hvalue
      exact htext _ (by simp)

theorem userDocument_namesake {text : List Nat} (henc : Encodable text) :
    UserDocument (namesake text) := by
  refine userDocument_makeDoc 0 fun s hs => ?_
  have hs' : s = encodeUtf8 text ∨ s = [] := by
    simp only [List.mem_cons, List.not_mem_nil, or_false] at hs
    tauto
  rcases hs' with rfl | rfl
  · exact ⟨text, henc, rfl⟩
  · exact ⟨[], fun c hc => (List.not_mem_nil hc).elim, rfl⟩

theorem hasText_namesake (test : StdString → Bool) (text : List Nat) :
    (hasText test "first_name" (namesake text) ||
      hasText test "last_name" (namesake text)) = test (encodeUtf8 text) :=
  Bool.or_self _

theorem nameContains_namesake {word text : List Nat} (hword : Encodable word)
    (henc : Encodable text) :
    NameContains rule (encodeUtf8 word) (namesake text) ↔
      Pattern.ContainsWord rule word text := by
  constructor
  · rintro ⟨word', hword', hmask, name, hname, text', henc', hmember, h⟩
    have hnames : encodeUtf8 text = encodeUtf8 text' := by
      rcases List.mem_pair.mp hname with rfl | rfl
      · exact Bson.str.inj (Option.some.inj (Except.ok.inj hmember))
      · exact Bson.str.inj (Option.some.inj (Except.ok.inj hmember))
    rwa [encodeUtf8_inj hword hword' hmask, encodeUtf8_inj henc henc' hnames]
  · intro h
    exact ⟨word, hword, rfl, "first_name", by simp, text, henc, rfl, h⟩

/-- The collection of one document that is searched, and what is found. -/
theorem searchItems_namesake {test : StdString → Bool}
    (hcompile : server.regex nameMask = some test) (text : List Nat) :
    ∃ built, Documents.makeUserJson (namesake text) = .ok built ∧
      searchItems server [namesake text] nameMask =
        .ok (if test (encodeUtf8 text) then [built] else []) := by
  refine ⟨_, makeUserJson_makeDoc .., ?_⟩
  rw [searchItems, bind_of_ok (nameFilter_compile hcompile)]
  simp only [List.filter_cons, List.filter_nil, hasText_namesake]
  split <;> rfl

/-- If the search is right, the mask is a pattern, and what it says about a
text is whether it is found there. -/
theorem test_of_nameSearch (htells : TellsEmpty json) (hne : nameMask ≠ [])
    (h : NameSearch json server rule nameMask) :
    ∃ test, server.regex nameMask = some test ∧
      ∀ text : List Nat, Encodable text → (test (encodeUtf8 text) = true ↔
        NameContains rule nameMask (namesake text)) := by
  cases hcompile : server.regex nameMask with
  | none =>
      obtain ⟨items, -, hanswer⟩ :=
        h [] (fun doc hdoc => (List.not_mem_nil hdoc).elim) 0 0
      have herror : searchItems server [] nameMask = .error .invalidRegex := by
        simp only [searchItems, nameFilter, Documents.Filter.compile, hcompile]
        rfl
      rw [serveMongo_search_error _ _ 0 0 hne herror] at hanswer
      cases hanswer
  | some test =>
      refine ⟨test, rfl, fun text henc => ?_⟩
      obtain ⟨items, hitems, hanswer⟩ := h [namesake text]
        (fun doc hdoc => by
          rw [List.mem_singleton.mp hdoc]
          exact userDocument_namesake henc) 0 0
      obtain ⟨built, hbuilt, hsearch⟩ := searchItems_namesake hcompile text
      rw [serveMongo_search _ _ 0 0 hne hsearch] at hanswer
      have hsame := congrArg MongoResponse.body hanswer
      classical
      have hnamed : namedLike rule nameMask [namesake text] =
          if NameContains rule nameMask (namesake text) then [namesake text]
          else [] := by
        rw [namedLike, List.filter_cons, List.filter_nil]
        simp only [decide_eq_true_eq]
      rw [hnamed] at hitems
      constructor
      · intro ht
        by_contra hcontains
        rw [if_neg hcontains] at hitems
        cases hitems
        rw [ht, if_pos rfl] at hsame
        exact htells built hsame
      · intro hcontains
        by_contra ht
        rw [if_pos hcontains, List.mapM_cons, bind_of_ok hbuilt] at hitems
        cases hitems
        rw [if_neg ht] at hsame
        exact htells built hsame.symm

theorem literal_of_nameSearch (hregex : SearchesWith server rule maxSize)
    (htells : TellsEmpty json) (hne : nameMask ≠ [])
    (hreadable : ReadableMask rule nameMask)
    (h : NameSearch json server rule nameMask) :
    LiteralMask maxSize nameMask := by
  obtain ⟨test, hcompile, htest⟩ := test_of_nameSearch htells hne h
  have hsize : nameMask.length ≤ maxSize := by
    by_contra hlong
    rw [hregex.tooLong nameMask (Nat.lt_of_not_le hlong)] at hcompile
    cases hcompile
  -- The mask is a text, for otherwise it would have been refused.
  have htext : ∃ word : List Nat, Encodable word ∧ nameMask = encodeUtf8 word ∧
      0 ∉ word := by
    by_contra hno
    rw [hregex.noText nameMask fun word hword hmask =>
      by_contra fun hzero => hno ⟨word, hword, hmask, hzero⟩] at hcompile
    cases hcompile
  obtain ⟨word, hword, rfl, hzero⟩ := htext
  obtain ⟨hsupported, hcount⟩ := hreadable word hword rfl
  refine ⟨hsize, word, hword, rfl, hzero, ?_⟩
  cases hparse : Pattern.parse word with
  | error reject =>
      cases reject with
      | unsupported => exact (hsupported hparse).elim
      | illFormed =>
          rw [hregex.illFormed word hword hparse] at hcompile
          cases hcompile
  | ok r =>
      refine Pattern.isPlain_of_found_iff (fun c => isScalar c = true)
        hregex.ascii hparse (fun hbraces hself => hcount r hparse hbraces
          (Regex.found_iff.mpr hself)) hword rfl fun text henc => ?_
      rw [← Regex.found_iff, ← hregex.searches word r test hword hparse hcompile
        text henc, htest text henc]
      exact nameContains_namesake hword henc

end

/-- A search by a mask that means nothing in a pattern is what was promised.
Of the masks whose meaning is known, it is so for no other. -/
theorem nameSearch_iff_literal (json : MongoJson) (server : CollectionServer)
    (rule : CaseRule) (maxSize : Nat) (nameMask : StdString)
    (hregex : SearchesWith server rule maxSize) (hne : nameMask ≠ []) :
    (LiteralMask maxSize nameMask → NameSearch json server rule nameMask) ∧
    (TellsEmpty json → ReadableMask rule nameMask →
      NameSearch json server rule nameMask → LiteralMask maxSize nameMask) :=
  ⟨nameSearch_of_literal hregex hne, fun htells hreadable h =>
    literal_of_nameSearch hregex htells hne hreadable h⟩

/-! ## A dot and a bracket -/

/-- What a pattern takes on a server that knows the letters of ASCII. -/
def asciiRegex (mask : StdString) : Option (StdString → Bool) := do
  let word ← decodeUtf8 mask
  if 0 ∈ word ∨ 32764 < mask.length then none
  else
    let r ← (Pattern.parse word).toOption
    return fun s => (decodeUtf8 s).any (r.found .ascii)

def asciiServer : CollectionServer := ⟨fun _ => true, asciiRegex⟩

theorem asciiRegex_of_decode {mask : StdString} {word : List Nat}
    (h : decodeUtf8 mask = some word) : asciiRegex mask =
      if 0 ∈ word ∨ 32764 < mask.length then none
      else (Pattern.parse word).toOption.map fun r s =>
        (decodeUtf8 s).any (r.found .ascii) := by
  rw [asciiRegex, h, Option.bind_eq_bind, Option.bind_some]
  split
  · rfl
  · cases Pattern.parse word <;> rfl

theorem searchesWith_asciiServer :
    SearchesWith asciiServer .ascii 32764 where
  ascii c d _ _ := Iff.rfl
  searches pattern r test henc hparse htest text htext := by
    replace htest : asciiRegex (encodeUtf8 pattern) = some test := htest
    rw [asciiRegex_of_decode (decodeUtf8_encodeUtf8 henc), hparse] at htest
    split at htest
    · cases htest
    · cases htest
      show (decodeUtf8 (encodeUtf8 text)).any _ = _
      rw [decodeUtf8_encodeUtf8 htext]
      rfl
  illFormed pattern henc hparse := by
    show asciiRegex (encodeUtf8 pattern) = none
    rw [asciiRegex_of_decode (decodeUtf8_encodeUtf8 henc), hparse]
    split <;> rfl
  noText mask h := by
    show asciiRegex mask = none
    cases hdecode : decodeUtf8 mask with
    | none =>
        rw [asciiRegex, hdecode]
        rfl
    | some word =>
        obtain ⟨henc, heq⟩ := decodeUtf8_sound hdecode
        rw [asciiRegex_of_decode hdecode, if_pos (.inl (h word henc heq.symm))]
  tooLong mask h := by
    show asciiRegex mask = none
    cases hdecode : decodeUtf8 mask with
    | none =>
        rw [asciiRegex, hdecode]
        rfl
    | some word => rw [asciiRegex_of_decode hdecode, if_pos (.inr h)]
  plain pattern henc hplain hzero hsize := by
    show (asciiRegex (encodeUtf8 pattern)).isSome = true
    obtain ⟨r, hparse, -⟩ := hplain.foundIn_iff .exact
    have hkeep : ¬(0 ∈ pattern ∨ 32764 < (encodeUtf8 pattern).length) := by
      rintro (h | h)
      · exact hzero h
      · omega
    rw [asciiRegex_of_decode (decodeUtf8_encodeUtf8 henc), if_neg hkeep, hparse]
    rfl

def annFields : UserFields :=
  ⟨bytes "ann", bytes "secret", bytes "Ann", bytes "Lee", bytes "active",
    ⟨bytes "ann@example.com", bytes "+79990000000"⟩⟩

theorem compact_ne_nil (item : BuiltJson) : compact item ≠ [] := by
  cases item with
  | int n =>
      rw [compact, toDecimal]
      exact List.append_ne_nil_of_right_ne_nil _
        (mt List.map_eq_nil_iff.mp Nat.toDigits_ne_nil)
  | str s =>
      rw [compact]
      exact List.append_ne_nil_of_right_ne_nil _ (by decide)
  | object fields =>
      rw [compact]
      exact List.append_ne_nil_of_right_ne_nil _ (by decide)
  | array items =>
      rw [compact]
      exact List.append_ne_nil_of_right_ne_nil _ (by decide)

theorem tellsEmpty_memberJson : TellsEmpty memberJson := by
  intro item h
  replace h : compact (.array [item]) = compact (.array []) := h
  simp only [compact, compactItems, List.append_nil] at h
  have := congrArg List.length h
  have hpos := List.length_pos_iff.mpr (compact_ne_nil item)
  simp only [List.length_append] at this
  omega

/-- A mask of letters, and a dot. -/
theorem nameSearch_an :
    NameSearch memberJson asciiServer .ascii (bytes "an") ∧
    ¬NameSearch memberJson asciiServer .ascii (bytes ".") := by
  refine ⟨?_, fun h => ?_⟩
  · exact (nameSearch_iff_literal memberJson asciiServer .ascii 32764
      (bytes "an") searchesWith_asciiServer (by decide)).1
      ⟨by decide, [97, 110], by decide, by decide, by decide, by decide⟩
  · have hreadable : ReadableMask .ascii (bytes ".") := by
      intro word henc hmask
      have hword : word = [46] :=
        encodeUtf8_inj henc (by decide) (hmask.symm.trans (by decide))
      rw [hword]
      exact ⟨by decide, fun r _ hcount => absurd hcount (by decide)⟩
    obtain ⟨-, word, henc, hmask, -, hplain⟩ :=
      (nameSearch_iff_literal memberJson asciiServer .ascii 32764 (bytes ".")
        searchesWith_asciiServer (by decide)).2 tellsEmpty_memberJson hreadable h
    have hword : word = [46] :=
      encodeUtf8_inj henc (by decide) (hmask.symm.trans (by decide))
    rw [hword] at hplain
    revert hplain
    decide

theorem dot_not_in_ann :
    ¬NameContains .ascii (bytes ".") (makeDoc annFields 0) := by
  rintro ⟨word, hword, hmask, name, hname, text, htext, hmember, w, hinside,
    hall⟩
  have hdot : word = [46] :=
    encodeUtf8_inj hword (by decide) (hmask.symm.trans (by decide))
  rw [hdot] at hall
  obtain ⟨d, v, hd, hv, rfl⟩ := List.forall₂_cons_right_iff.mp hall
  have hmem : 46 ∈ text := by
    have hd46 : d = 46 := by simpa [CaseRule.ascii, CaseRule.otherCase] using hd
    rw [← hd46]
    exact hinside.subset List.mem_cons_self
  have htexts : text = [65, 110, 110] ∨ text = [76, 101, 101] := by
    rcases List.mem_pair.mp hname with rfl | rfl
    · have h := Bson.str.inj (Option.some.inj (Except.ok.inj hmember))
      exact .inl (encodeUtf8_inj htext (by decide) (h.symm.trans (by decide)))
    · have h := Bson.str.inj (Option.some.inj (Except.ok.inj hmember))
      exact .inr (encodeUtf8_inj htext (by decide) (h.symm.trans (by decide)))
  rcases htexts with rfl | rfl
  · revert hmem
    decide
  · revert hmem
    decide

/-- Ann is found by a dot, which her names do not contain, and a bracket is an
error of the server. -/
theorem dot_finds_ann :
    (serveMongo memberJson asciiServer [makeDoc annFields 0]
        ⟨.get [] (bytes "."), 0, 0⟩).1 =
      ⟨.ok, [contentType], compact (.array [createdJson annFields])⟩ ∧
    ¬NameContains .ascii (bytes ".") (makeDoc annFields 0) ∧
    ¬NameSearch memberJson asciiServer .ascii (bytes ".") ∧
    (serveMongo memberJson asciiServer [makeDoc annFields 0]
        ⟨.get [] (bytes "["), 0, 0⟩).1 =
      mongoError .internalServerError "failed to read mongo users" := by
  have hfound : (serveMongo memberJson asciiServer [makeDoc annFields 0]
      ⟨.get [] (bytes "."), 0, 0⟩).1 =
      ⟨.ok, [contentType], compact (.array [createdJson annFields])⟩ := by
    decide +kernel
  have hdoc : UserDocument (makeDoc annFields 0) := by
    refine userDocument_makeDoc 0 fun s hs => ?_
    have hsome : ∀ s ∈ [annFields.login, annFields.firstName,
        annFields.lastName, annFields.status, annFields.profile.email,
        annFields.profile.phone], (decodeUtf8 s).isSome = true := by
      decide +kernel
    obtain ⟨text, htext⟩ := Option.isSome_iff_exists.mp (hsome s hs)
    obtain ⟨henc, heq⟩ := decodeUtf8_sound htext
    exact ⟨text, henc, heq.symm⟩
  refine ⟨hfound, dot_not_in_ann, fun h => ?_, by decide +kernel⟩
  obtain ⟨items, hitems, hanswer⟩ := h [makeDoc annFields 0]
    (fun doc hd => by rwa [List.mem_singleton.mp hd]) 0 0
  have hnone : namedLike .ascii (bytes ".") [makeDoc annFields 0] = [] := by
    classical
    refine List.filter_eq_nil_iff.mpr fun doc hd => ?_
    rw [List.mem_singleton.mp hd, decide_eq_true_eq]
    exact dot_not_in_ann
  rw [hnone] at hitems
  cases hitems
  rw [hfound] at hanswer
  exact tellsEmpty_memberJson _ (congrArg MongoResponse.body hanswer)

end TaxiService.Proofs
