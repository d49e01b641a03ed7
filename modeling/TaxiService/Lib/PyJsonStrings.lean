import TaxiService.Lib.PyJsonLex

/-!
# The characters of a document

A document is printable ASCII and new lines but for the characters of the
strings it was made from, and those it holds all of, the control characters
apart. So a property of characters that printable ASCII and the new line have
holds throughout a document exactly when it holds throughout the strings
(`text_iterencode`, `text_dumps`). That a document has an encoding is one such
property (`encodable_iterencode`), and that it has no carriage return another.

`repr` writes a character that is not printable as an escape, so the `repr` of
a value has an encoding whatever the strings are.
-/

namespace TaxiService.Lib

variable {F : Type} (fl : PyFloat F)

/-! ## The strings of a value -/

mutual

/-- The strings of a value, the keys of its dicts among them. -/
def PyJson.strings : PyJson F → List PyStr
  | .str s => [s]
  | .list items => stringsItems items
  | .dict entries => stringsEntries entries
  | _ => []

def stringsItems : List (PyJson F) → List PyStr
  | [] => []
  | v :: vs => v.strings ++ stringsItems vs

def stringsEntries : List (PyStr × PyJson F) → List PyStr
  | [] => []
  | e :: es => stringsEntry e ++ stringsEntries es

def stringsEntry : PyStr × PyJson F → List PyStr
  | (k, v) => k :: v.strings

end

/-- Every string of the value has an encoding. -/
def PyJson.Writable (v : PyJson F) : Prop := ∀ s ∈ v.strings, Encodable s

instance (v : PyJson F) : Decidable v.Writable :=
  inferInstanceAs (Decidable (∀ s ∈ v.strings, Encodable s))

/-- The entries of a dict whose values have a property and whose keys can be
written. -/
def Entries (P : PyJson F → Prop) (entries : Assoc PyStr (PyJson F)) : Prop :=
  ∀ e ∈ entries, Encodable e.1 ∧ P e.2

instance (P : PyJson F → Prop) [DecidablePred P]
    (entries : Assoc PyStr (PyJson F)) : Decidable (Entries P entries) :=
  inferInstanceAs (Decidable (∀ e ∈ entries, _))

@[simp] theorem writable_str (s : PyStr) :
    (.str s : PyJson F).Writable ↔ Encodable s := by
  simp [PyJson.Writable, PyJson.strings]

theorem writable_items (items : List (PyJson F)) :
    (.list items : PyJson F).Writable ↔ ∀ v ∈ items, v.Writable := by
  simp only [PyJson.Writable, PyJson.strings]
  induction items with
  | nil => simp [stringsItems]
  | cons v items ih => simp [stringsItems, or_imp, forall_and, ih]

theorem writable_entries (entries : Assoc PyStr (PyJson F)) :
    (.dict entries : PyJson F).Writable ↔
      Entries PyJson.Writable entries := by
  simp only [PyJson.Writable, PyJson.strings, Entries]
  induction entries with
  | nil => simp [stringsEntries]
  | cons e entries ih =>
      obtain ⟨k, v⟩ := e
      simp only [stringsEntries, stringsEntry, List.mem_append, List.mem_cons,
        or_imp, forall_and, forall_eq, ih]
      exact and_and_and_comm

/-! ## The entries of a dict -/

section

variable {P : PyJson F → Prop}

theorem entries_iff {m : Assoc PyStr (PyJson F)} (hm : m.Keyed) :
    Entries P m ↔ ∀ k v, m.get? k = some v → Encodable k ∧ P v :=
  ⟨fun h _ _ hv => h _ (Assoc.mem_of_get? hv),
    fun h _ he => h _ _ (Assoc.get?_of_mem hm he)⟩

/-- Writing a key replaces what was there. -/
theorem entries_set {m : Assoc PyStr (PyJson F)} (hm : m.Keyed)
    (k : PyStr) (v : PyJson F) : Entries P (m.set k v) ↔
      (Encodable k ∧ P v) ∧ Entries P (m.erase k) := by
  rw [entries_iff (hm.set k v), entries_iff (hm.erase k)]
  simp only [Assoc.get?_set, Assoc.get?_erase]
  constructor
  · intro h
    refine ⟨h k v (if_pos rfl), fun k' v' h' => ?_⟩
    split at h'
    · cases h'
    · next hk => exact h k' v' (by rw [if_neg hk, h'])
  · rintro ⟨hkv, h⟩ k' v' h'
    split at h'
    · next hk =>
        cases h'
        exact hk ▸ hkv
    · next hk => exact h k' v' (by rw [if_neg hk, h'])

/-- An update replaces the fields the other dict has. -/
theorem entries_update {m m' : Assoc PyStr (PyJson F)} (hm : m.Keyed)
    (hm' : m'.Keyed) : Entries P (m.update m') ↔ Entries P m' ∧
      Entries P (m.eraseWhere fun k => (m'.get? k).isSome) := by
  rw [entries_iff (hm.update m'), entries_iff hm',
    entries_iff (hm.eraseWhere _)]
  simp only [Assoc.get?_update hm', Assoc.get?_eraseWhere]
  constructor
  · intro h
    refine ⟨fun k v hv => h k v (by rw [hv]; rfl), fun k v hv => ?_⟩
    split at hv
    · cases hv
    · next hn =>
        rw [Option.not_isSome_iff_eq_none] at hn
        exact h k v (by rw [hn, hv]; rfl)
  · rintro ⟨h', h⟩ k v hv
    cases hk : m'.get? k with
    | some w =>
        rw [hk] at hv
        exact Option.some.inj hv ▸ h' k w hk
    | none =>
        rw [hk, Option.none_or] at hv
        exact h k v (by simpa [hk] using hv)

end

/-! ## Properties of the characters -/

/-- The characters a document has whatever it is made from. -/
def Plain (c : Nat) : Prop := c = 10 ∨ 32 ≤ c ∧ c < 127

instance (c : Nat) : Decidable (Plain c) :=
  inferInstanceAs (Decidable (c = 10 ∨ 32 ≤ c ∧ c < 127))

theorem plain_hexText (width n : Nat) : ∀ c ∈ hexText width n, Plain c := by
  induction width with
  | zero => nofun
  | succ width ih =>
      intro c hc
      rcases List.mem_cons.mp hc with rfl | hc
      · have := Nat.mod_lt (n / 16 ^ width) (show 0 < 16 by decide)
        right
        split <;> omega
      · exact ih c hc

theorem plain_intText (n : Int) : ∀ c ∈ intText n, Plain c := by
  intro c hc
  rw [intText, List.mem_append] at hc
  rcases hc with hc | hc
  · split at hc
    · rw [List.mem_singleton.mp hc]
      decide
    · cases hc
  · have hdigit := toDigits_digit hc
    simp only [isDigitChar, Bool.and_eq_true, decide_eq_true_eq] at hdigit
    right
    omega

theorem plain_json (x : F) : ∀ c ∈ (fl.repr x).json, Plain c := by
  intro c hc
  cases h : fl.repr x with
  | finite text =>
      rw [h] at hc
      exact .inr (fl.repr_ascii x text h c hc)
  | _ =>
      rw [h] at hc
      revert hc c
      decide

theorem plain_newline (level : Nat) : ∀ c ∈ newline level, Plain c := by
  intro c hc
  rcases List.mem_cons.mp hc with rfl | hc
  · decide
  · rw [(List.mem_replicate.mp hc).2]
    decide

section

variable {P : Nat → Prop}

/-- A text all of whose characters have the property. -/
def Text (P : Nat → Prop) (s : PyStr) : Prop := ∀ c ∈ s, P c

@[simp] theorem text_nil : Text P [] := nofun

@[simp] theorem text_cons {c : Nat} {s : PyStr} :
    Text P (c :: s) ↔ P c ∧ Text P s := List.forall_mem_cons

@[simp] theorem text_append {s t : PyStr} :
    Text P (s ++ t) ↔ Text P s ∧ Text P t := List.forall_mem_append

variable (hP : ∀ c, Plain c → P c)

include hP

theorem text_plain {s : PyStr} (h : ∀ c ∈ s, Plain c) : Text P s :=
  fun c hc => hP c (h c hc)

/-- A control character is written as an escape, another one as it is. -/
theorem text_escapeChar (c : Nat) :
    Text P (escapeChar c) ↔ (32 ≤ c → P c) := by
  have hplain : ∀ c, 32 ≤ c ∧ c < 127 → P c := fun c h => hP c (.inr h)
  have hhex := text_plain hP (plain_hexText 4 c)
  rw [escapeChar]
  split_ifs with h1 h2 h3 h4 h5 h6 h7 h8
  · simp [h1, hplain]
  · simp [h2, hplain]
  · simp [h3, hplain]
  · simp [h4, hplain]
  · simp [h5, hplain]
  · simp [h6, hplain]
  · simp [h7, hplain]
  · simp [hplain, hhex, Nat.not_le.mpr h8]
  · simp [Nat.not_lt.mp h8]

/-- The characters of strings that are written as they are. -/
def Shown (P : Nat → Prop) (ss : List PyStr) : Prop :=
  ∀ s ∈ ss, ∀ c ∈ s, 32 ≤ c → P c

omit hP in
@[simp] theorem shown_nil : Shown P [] := nofun

omit hP in
theorem shown_cons {s : PyStr} {ss : List PyStr} :
    Shown P (s :: ss) ↔ Shown P [s] ∧ Shown P ss := by
  simp [Shown]

omit hP in
@[simp] theorem shown_append {ss ss' : List PyStr} :
    Shown P (ss ++ ss') ↔ Shown P ss ∧ Shown P ss' := List.forall_mem_append

theorem text_encodeString (s : PyStr) :
    Text P (encodeString s) ↔ Shown P [s] := by
  have hquote : P 34 := hP 34 (by decide)
  have hbody : Text P (s.flatMap escapeChar) ↔ ∀ c ∈ s, 32 ≤ c → P c := by
    induction s with
    | nil => simp
    | cons c s ih =>
        rw [List.flatMap_cons, text_append, text_escapeChar hP, ih,
          List.forall_mem_cons]
  rw [encodeString, List.cons_append, text_cons, text_append, text_cons, hbody]
  simp [hquote, Shown]

theorem text_scalarText {v : PyJson F} {text : PyStr}
    (h : scalarText fl v = some text) : Text P text ↔ Shown P v.strings := by
  have hword : ∀ word, (∀ c ∈ word, Plain c) → (Text P word ↔ Shown P []) :=
    fun word hw => iff_of_true (text_plain hP hw) shown_nil
  cases v with
  | null => cases h; exact hword _ (by decide)
  | bool b => cases b <;> (cases h; exact hword _ (by decide))
  | int n => cases h; exact hword _ (plain_intText n)
  | float x => cases h; exact hword _ (plain_json fl x)
  | str s => cases h; exact text_encodeString hP s
  | list items => cases h
  | dict entries => cases h

mutual

theorem text_iterencode : ∀ (v : PyJson F) (level : Nat),
    Text P (texts (iterencode fl level v)).flatten ↔ Shown P v.strings
  | .null, _ | .bool true, _ | .bool false, _ | .int _, _ | .float _, _
  | .str _, _ => by
      rw [iterencode, texts_cons, texts_nil, List.flatten_singleton]
      · exact text_scalarText fl hP rfl
      all_goals nofun
  | .list [], _ => iff_of_true
      (text_plain hP (s := py "[]") (by decide)) shown_nil
  | .list (v :: vs), level => by
      have hbuf : Text P (91 :: newline (level + 1)) :=
        text_cons.mpr ⟨hP 91 (by decide), text_plain hP (plain_newline _)⟩
      have hend : Text P (newline level ++ py "]") :=
        text_append.mpr ⟨text_plain hP (plain_newline _),
          text_plain hP (by decide)⟩
      have hitems := text_iterencodeItems (v :: vs) (level + 1) hbuf
      rw [iterencode, texts_append, List.flatten_append, text_append, hitems]
      simpa [PyJson.strings] using fun _ => hend
  | .dict [], _ => iff_of_true
      (text_plain hP (s := py "\x7b\x7d") (by decide)) shown_nil
  | .dict (e :: es), level => by
      have hopen : Text P (py "\x7b" ++ newline (level + 1)) :=
        text_append.mpr ⟨text_plain hP (by decide),
          text_plain hP (plain_newline _)⟩
      have hend : Text P (newline level ++ py "\x7d") :=
        text_append.mpr ⟨text_plain hP (plain_newline _),
          text_plain hP (by decide)⟩
      have hentries := text_iterencodeEntries (e :: es) (level + 1) []
        text_nil
      rw [text_append] at hopen hend
      rw [iterencode, texts_cons, texts_cons, texts_append, List.flatten_cons,
        List.flatten_cons, List.flatten_append]
      simp [PyJson.strings, hentries, hopen, hend]

theorem text_iterencodeItems : ∀ (vs : List (PyJson F)) (level : Nat)
    {buf : PyStr}, Text P buf →
    (Text P (texts (iterencodeItems fl level buf vs)).flatten ↔
      Shown P (stringsItems vs))
  | [], _, _, _ => iff_of_true text_nil shown_nil
  | v :: vs, level, buf, hbuf => by
      have hsep : Text P (separator level) :=
        text_cons.mpr ⟨hP 44 (by decide), text_plain hP (plain_newline _)⟩
      have hvs := text_iterencodeItems vs level hsep
      have hv := text_iterencode v level
      rw [iterencodeItems, stringsItems, texts_append, List.flatten_append,
        text_append, shown_append, hvs]
      cases htext : scalarText fl v with
      | some text =>
          have := text_scalarText fl hP htext
          simp [hbuf, this]
      | none => simp [hbuf, hv]

theorem text_iterencodeEntries : ∀ (es : List (PyStr × PyJson F))
    (level : Nat) (before : List Chunk), Text P (texts before).flatten →
    (Text P (texts (iterencodeEntries fl level before es)).flatten ↔
      Shown P (stringsEntries es))
  | [], _, _, _ => iff_of_true text_nil shown_nil
  | (k, v) :: es, level, before, hbefore => by
      have hsep : Text P (texts [.plain level (separator level)]).flatten := by
        rw [texts_cons, texts_nil, List.flatten_singleton]
        exact text_cons.mpr ⟨hP 44 (by decide), text_plain hP (plain_newline _)⟩
      have hcolon : Text P (py ": ") := text_plain hP (by decide)
      have hes := text_iterencodeEntries es level
        [.plain level (separator level)] hsep
      have hv := text_iterencode v level
      have hk := text_encodeString hP k
      rw [iterencodeEntries, iterencodeEntry, stringsEntries, stringsEntry,
        texts_append, texts_append, List.flatten_append, List.flatten_append,
        text_append, text_append, List.cons_append, shown_cons, shown_append,
        hes]
      simp [hbefore, hcolon, hv, hk, and_assoc]

end

mutual

theorem text_dumps : ∀ (v : PyJson F),
    Text P (dumps fl v) ↔ Shown P v.strings
  | .null | .bool true | .bool false | .int _ | .float _ | .str _ => by
      rw [dumps]
      · exact text_scalarText fl hP rfl
      all_goals nofun
  | .list items => by
      have hitems := text_dumpsItems items text_nil
      rw [dumps, PyJson.strings, List.cons_append, text_cons, text_append,
        hitems]
      simp [hP 91 (by decide), hP 93 (by decide)]
  | .dict entries => by
      have hentries := text_dumpsEntries entries text_nil
      rw [dumps, PyJson.strings, List.cons_append, text_cons, text_append,
        hentries]
      simp [hP 123 (by decide), hP 125 (by decide)]

theorem text_dumpsItems : ∀ (vs : List (PyJson F)) {before : PyStr},
    Text P before →
    (Text P (dumpsItems fl before vs) ↔ Shown P (stringsItems vs))
  | [], _, _ => iff_of_true text_nil shown_nil
  | v :: vs, before, hbefore => by
      have hvs := text_dumpsItems vs (text_plain hP (s := py ", ") (by decide))
      rw [dumpsItems, stringsItems, text_append, text_append, shown_append,
        text_dumps v, hvs]
      simp [hbefore]

theorem text_dumpsEntries : ∀ (es : List (PyStr × PyJson F))
    {before : PyStr}, Text P before →
    (Text P (dumpsEntries fl before es) ↔ Shown P (stringsEntries es))
  | [], _, _ => iff_of_true text_nil shown_nil
  | (k, v) :: es, before, hbefore => by
      have hcolon := text_plain hP (s := py ": ") (by decide)
      have hes := text_dumpsEntries es (text_plain hP (s := py ", ") (by decide))
      rw [dumpsEntries, dumpsEntry, stringsEntries, stringsEntry, text_append,
        text_append, text_append, text_append, List.cons_append, shown_cons,
        shown_append, text_encodeString hP, text_dumps v, hes]
      simp [hbefore, hcolon, and_assoc]

end

end

/-! ## Encodings -/

theorem isScalar_plain {c : Nat} (h : Plain c) : isScalar c = true := by
  have : c < 55296 := by
    rcases h with h | h <;> omega
  simp [isScalar, this]

theorem shown_encodable (ss : List PyStr) :
    Shown (isScalar · = true) ss ↔ ∀ s ∈ ss, Encodable s := by
  refine forall_congr' fun s => forall_congr' fun _ => forall_congr' fun c =>
    forall_congr' fun _ => ⟨fun h => ?_, fun h _ => h⟩
  rcases Nat.lt_or_ge c 32 with hlt | hge
  · simp [isScalar, Nat.lt_trans hlt (show 32 < 55296 by decide)]
  · exact h hge

/-- What is written to a file has an encoding when the strings have. -/
theorem encodable_iterencode (v : PyJson F) (level : Nat) :
    (∀ c ∈ iterencode fl level v, Encodable c.text) ↔ v.Writable := by
  have h := text_iterencode fl (fun _ => isScalar_plain) v level
  rw [shown_encodable] at h
  rw [PyJson.Writable, ← h]
  simp only [Text, List.mem_flatten, texts, List.mem_map, Encodable]
  constructor
  · rintro h d ⟨_, ⟨c, hc, rfl⟩, hd⟩
    exact h c hc d hd
  · intro h c hc d hd
    exact h d ⟨_, ⟨c, hc, rfl⟩, hd⟩

theorem encodable_dumps (v : PyJson F) :
    Encodable (dumps fl v) ↔ v.Writable := by
  have h := text_dumps fl (fun _ => isScalar_plain) v
  rw [shown_encodable] at h
  exact h

/-- A document has no carriage return. -/
theorem noReturn_iterencode (v : PyJson F) (level : Nat) :
    13 ∉ (texts (iterencode fl level v)).flatten := by
  have h := (text_iterencode (P := (· ≠ 13)) fl (fun c hc => ?_) v level).mpr
    fun s _ c _ hc => ?_
  · exact fun hmem => h 13 hmem rfl
  · rcases hc with hc | hc <;> omega
  · omega

/-! ## `str` and `repr` -/

theorem encodable_plain {s : PyStr} (h : ∀ c ∈ s, Plain c) : Encodable s :=
  fun c hc => isScalar_plain (h c hc)

theorem encodable_append {s t : PyStr} (hs : Encodable s) (ht : Encodable t) :
    Encodable (s ++ t) := List.forall_mem_append.mpr ⟨hs, ht⟩

theorem encodable_cons {c : Nat} {s : PyStr} (hc : Plain c)
    (hs : Encodable s) : Encodable (c :: s) :=
  List.forall_mem_cons.mpr ⟨isScalar_plain hc, hs⟩

section

variable (printable : Printable)

theorem encodable_reprChar {quote : Nat} (hquote : Plain quote) (c : Nat) :
    Encodable (reprChar printable quote c) := by
  have hescape : ∀ letter width, Plain letter →
      Encodable (92 :: letter :: hexText width c) := fun letter width hl =>
    encodable_cons (by decide) (encodable_cons hl
      (encodable_plain (plain_hexText width c)))
  rw [reprChar]
  split_ifs with h1 h2 h3 h4 h5 h6 h7
  · refine encodable_plain fun d hd => ?_
    rcases h1 with rfl | rfl
    · simp only [List.mem_cons, List.not_mem_nil, or_false] at hd
      rcases hd with rfl | rfl
      · decide
      · exact hquote
    · revert hd d
      decide
  · exact encodable_plain (by decide)
  · exact encodable_plain (by decide)
  · exact encodable_plain (by decide)
  · exact hescape 120 2 (by decide)
  · exact encodable_cons (.inr (by omega)) nofun
  · exact List.forall_mem_cons.mpr ⟨printable.scalar c h7, nofun⟩
  · exact hescape 120 2 (by decide)
  · exact hescape 117 4 (by decide)
  · exact hescape 85 8 (by decide)

theorem encodable_reprString (s : PyStr) :
    Encodable (reprString printable s) := by
  have hquoted : ∀ quote, Plain quote → Encodable
      (quote :: s.flatMap (reprChar printable quote) ++ [quote]) := by
    intro quote hquote
    refine encodable_cons hquote (encodable_append (fun c hc => ?_)
      (encodable_cons hquote nofun))
    obtain ⟨d, -, hd⟩ := List.mem_flatMap.mp hc
    exact encodable_reprChar printable hquote d c hd
  rw [reprString]
  split
  · exact hquoted 34 (by decide)
  · exact hquoted 39 (by decide)

theorem encodable_floatStr (x : F) : Encodable (fl.repr x).str := by
  refine encodable_plain fun c hc => ?_
  cases h : fl.repr x with
  | finite text =>
      rw [h] at hc
      exact .inr (fl.repr_ascii x text h c hc)
  | _ =>
      rw [h] at hc
      revert hc c
      decide

mutual

theorem encodable_pyRepr : ∀ (v : PyJson F),
    Encodable (pyRepr fl printable v)
  | .null => encodable_plain (s := py "None") (by decide)
  | .bool true => encodable_plain (s := py "True") (by decide)
  | .bool false => encodable_plain (s := py "False") (by decide)
  | .int n => encodable_plain (plain_intText n)
  | .float x => encodable_floatStr fl x
  | .str s => encodable_reprString printable s
  | .list items => encodable_cons (by decide) (encodable_append
      (encodable_pyReprItems items [] nofun)
      (encodable_plain (by decide)))
  | .dict entries => encodable_cons (by decide) (encodable_append
      (encodable_pyReprEntries entries [] nofun)
      (encodable_plain (by decide)))

theorem encodable_pyReprItems : ∀ (vs : List (PyJson F)) (before : PyStr),
    Encodable before → Encodable (pyReprItems fl printable before vs)
  | [], _, _ => nofun
  | v :: vs, before, hbefore => encodable_append
      (encodable_append hbefore (encodable_pyRepr v))
      (encodable_pyReprItems vs (py ", ") (by decide))

theorem encodable_pyReprEntries : ∀ (es : List (PyStr × PyJson F))
    (before : PyStr), Encodable before →
    Encodable (pyReprEntries fl printable before es)
  | [], _, _ => nofun
  | (k, v) :: es, before, hbefore => encodable_append
      (encodable_append hbefore (encodable_append (encodable_append
        (encodable_reprString printable k) (by decide))
        (encodable_pyRepr v)))
      (encodable_pyReprEntries es (py ", ") (by decide))

end

theorem encodable_pyStr {v : PyJson F} (hv : v.Writable) :
    Encodable (pyStr fl printable v) := by
  cases v with
  | str s => exact (writable_str s).mp hv
  | _ => exact encodable_pyRepr fl printable _

end

end TaxiService.Lib
