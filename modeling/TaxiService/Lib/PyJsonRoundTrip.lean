import TaxiService.Lib.PyJsonLex

/-!
# What was written reads back

`loads` of the texts of `iterencode`, joined, is the value they were made
from. Both directions go through the tokens of the value: the texts lex to
them one after the other (`Stream`), and the automaton reads them back.

The texts of a document that is cut short lex to the tokens up to there, and
those are no document, because a finished reading takes no further token. That
is why a file that was left half written never passes for a whole one.
-/

namespace TaxiService.Lib

variable {F : Type} (fl : PyFloat F)

/-! ## The tokens of a value -/

mutual

def tokens : PyJson F → List Token
  | .list items => .lbracket :: (tokensItems [] items ++ [.rbracket])
  | .dict entries => .lbrace :: (tokensEntries [] entries ++ [.rbrace])
  | v => (scalarToken fl v).toList

def tokensItems (before : List Token) : List (PyJson F) → List Token
  | [] => []
  | v :: vs => before ++ tokens v ++ tokensItems [.comma] vs

def tokensEntries (before : List Token) :
    List (PyStr × PyJson F) → List Token
  | [] => []
  | e :: es => before ++ tokensEntry e ++ tokensEntries [.comma] es

def tokensEntry : PyStr × PyJson F → List Token
  | (k, v) => .str k :: .colon :: tokens v

end

/-! ## What the tokens of a value take -/

mutual

theorem tokenNesting_value : ∀ (v : PyJson F) (ts : List Token),
    tokenNesting (tokens fl v ++ ts) = max v.nesting (tokenNesting ts)
  | .null, _ | .bool _, _ | .int _, _ | .float _, _ | .str _, _ =>
      (Nat.zero_max _).symm
  | .list items, ts => by
      have h := tokenNesting_items items [] (fun _ => rfl) (.rbracket :: ts)
      rw [tokens, List.cons_append, List.append_assoc, List.singleton_append]
      show tokenNesting (tokensItems fl [] items ++ .rbracket :: ts) + 1 =
        max (1 + measureItems 1 (fun _ => 0) items) (tokenNesting ts)
      rw [h]
      show max _ (tokenNesting ts - 1) + 1 = _
      omega
  | .dict entries, ts => by
      have h := tokenNesting_entries entries [] (fun _ => rfl) (.rbrace :: ts)
      rw [tokens, List.cons_append, List.append_assoc, List.singleton_append]
      show tokenNesting (tokensEntries fl [] entries ++ .rbrace :: ts) + 1 =
        max (1 + measureEntries 1 (fun _ => 0) entries) (tokenNesting ts)
      rw [h]
      show max _ (tokenNesting ts - 1) + 1 = _
      omega

theorem tokenNesting_items : ∀ (vs : List (PyJson F)) (before : List Token),
    (∀ ts, tokenNesting (before ++ ts) = tokenNesting ts) →
    ∀ ts, tokenNesting (tokensItems fl before vs ++ ts) =
      max (measureItems 1 (fun _ => 0) vs) (tokenNesting ts)
  | [], _, _, _ => (Nat.zero_max _).symm
  | v :: vs, before, hbefore, ts => by
      have hvs := tokenNesting_items vs [.comma] (fun _ => rfl) ts
      rw [tokensItems, List.append_assoc, List.append_assoc, hbefore,
        tokenNesting_value v, hvs, measureItems, ← Nat.max_assoc]
      rfl

theorem tokenNesting_entries : ∀ (es : List (PyStr × PyJson F))
    (before : List Token),
    (∀ ts, tokenNesting (before ++ ts) = tokenNesting ts) →
    ∀ ts, tokenNesting (tokensEntries fl before es ++ ts) =
      max (measureEntries 1 (fun _ => 0) es) (tokenNesting ts)
  | [], _, _, _ => (Nat.zero_max _).symm
  | (k, v) :: es, before, hbefore, ts => by
      have hes := tokenNesting_entries es [.comma] (fun _ => rfl) ts
      rw [tokensEntries, tokensEntry, List.append_assoc, List.append_assoc,
        hbefore]
      show tokenNesting (tokens fl v ++ _) = _
      rw [tokenNesting_value v, hes, measureEntries, ← Nat.max_assoc]
      rfl

end

theorem tokenNesting_tokens (v : PyJson F) :
    tokenNesting (tokens fl v) = v.nesting := by
  have h := tokenNesting_value fl v []
  rw [List.append_nil] at h
  exact h.trans (Nat.max_zero _)

mutual

theorem digits_tokens : ∀ (v : PyJson F), ∀ t ∈ tokens fl v,
    t.digits ≤ v.digits
  | .null, _, h | .bool _, _, h | .float _, _, h | .str _, _, h
  | .int _, _, h => by
      cases List.mem_singleton.mp h
      exact Nat.le_refl _
  | .list items, t, h => by
      have hitems := digits_tokensItems items [] nofun t
      show t.digits ≤ 0 + measureItems 0 scalarDigits items
      rw [tokens, List.mem_cons, List.mem_append, List.mem_singleton] at h
      rcases h with rfl | h | rfl
      · exact Nat.zero_le _
      · rw [Nat.zero_add]
        exact hitems h
      · exact Nat.zero_le _
  | .dict entries, t, h => by
      have hentries := digits_tokensEntries entries [] nofun t
      show t.digits ≤ 0 + measureEntries 0 scalarDigits entries
      rw [tokens, List.mem_cons, List.mem_append, List.mem_singleton] at h
      rcases h with rfl | h | rfl
      · exact Nat.zero_le _
      · rw [Nat.zero_add]
        exact hentries h
      · exact Nat.zero_le _

theorem digits_tokensItems : ∀ (vs : List (PyJson F)) (before : List Token),
    (∀ t ∈ before, t.digits = 0) → ∀ t ∈ tokensItems fl before vs,
    t.digits ≤ measureItems 0 scalarDigits vs
  | [], _, _, _, h => by cases h
  | v :: vs, before, hbefore, t, h => by
      have hvs := digits_tokensItems vs [.comma] (by decide) t
      rw [tokensItems, List.mem_append, List.mem_append] at h
      rcases h with (h | h) | h
      · rw [hbefore t h]
        exact Nat.zero_le _
      · exact (digits_tokens v t h).trans (Nat.le_max_left _ _)
      · exact (hvs h).trans (Nat.le_max_right _ _)

theorem digits_tokensEntries : ∀ (es : List (PyStr × PyJson F))
    (before : List Token), (∀ t ∈ before, t.digits = 0) →
    ∀ t ∈ tokensEntries fl before es,
    t.digits ≤ measureEntries 0 scalarDigits es
  | [], _, _, _, h => by cases h
  | (k, v) :: es, before, hbefore, t, h => by
      have hes := digits_tokensEntries es [.comma] (by decide) t
      rw [tokensEntries, tokensEntry, List.mem_append, List.mem_append,
        List.mem_cons, List.mem_cons] at h
      rcases h with (h | rfl | rfl | h) | h
      · rw [hbefore t h]
        exact Nat.zero_le _
      · exact Nat.zero_le _
      · exact Nat.zero_le _
      · exact (digits_tokens v t h).trans (Nat.le_max_left _ _)
      · exact (hes h).trans (Nat.le_max_right _ _)

end

/-! ## Reading the tokens -/

mutual

/-- The keys of every dict are pairwise different. -/
def PyJson.Keyed : PyJson F → Prop
  | .list items => KeyedItems items
  | .dict entries => Assoc.Keyed entries ∧ KeyedEntries entries
  | _ => True

def KeyedItems : List (PyJson F) → Prop
  | [] => True
  | v :: vs => v.Keyed ∧ KeyedItems vs

def KeyedEntries : List (PyStr × PyJson F) → Prop
  | [] => True
  | e :: es => KeyedEntry e ∧ KeyedEntries es

def KeyedEntry : PyStr × PyJson F → Prop
  | (_, v) => v.Keyed

end

/-- The states that wait for a value, with what is open around it then. -/
inductive Waits : ReadState F → List (Frame F) → Prop where
  | value (open_ : List (Frame F)) : Waits (.value open_) open_
  | firstItem (open_ : List (Frame F)) :
      Waits (.firstItem open_) (.list [] :: open_)

theorem readTokens_cons (state : ReadState F) (t : Token) (ts : List Token) :
    readTokens fl state (t :: ts) =
      (readStep fl state t).bind fun state => readTokens fl state ts := rfl

/-- A token that is not a closing bracket starts the value a state waits
for. -/
theorem Waits.read {state : ReadState F} {open_ : List (Frame F)}
    (h : Waits state open_) (t : Token) (ht : t ≠ .rbracket) (ts : List Token) :
    readTokens fl state (t :: ts) =
      (startValue fl t open_).bind fun state => readTokens fl state ts := by
  have hstep : readStep fl state t = startValue fl t open_ := by
    cases h with
    | value => cases t <;> rfl
    | firstItem => cases t <;> first | rfl | exact absurd rfl ht
  rw [readTokens_cons, hstep]

mutual

theorem readTokens_value : ∀ (v : PyJson F), v.Keyed →
    ∀ {state : ReadState F} {open_ : List (Frame F)}, Waits state open_ →
    ∀ ts, readTokens fl state (tokens fl v ++ ts) =
      readTokens fl (.done v open_) ts
  | .null, _, state, open_, hw, ts => hw.read fl .null nofun ts
  | .bool b, _, state, open_, hw, ts => hw.read fl (.bool b) nofun ts
  | .int n, _, state, open_, hw, ts => hw.read fl (.int n) nofun ts
  | .float x, _, state, open_, hw, ts => by
      refine (hw.read fl (.float (fl.repr x)) nofun ts).trans ?_
      rw [startValue, fl.ofText_repr]
      rfl
  | .str s, _, state, open_, hw, ts => hw.read fl (.str s) nofun ts
  | .list [], _, state, open_, hw, ts =>
      (hw.read fl .lbracket nofun (.rbracket :: ts)).trans rfl
  | .list (v :: vs), hv, state, open_, hw, ts => by
      rw [tokens, tokensItems, List.nil_append, List.cons_append,
        List.append_assoc, List.append_assoc]
      refine (hw.read fl .lbracket nofun _).trans ?_
      exact (readTokens_value v hv.1 (.firstItem open_) _).trans
        (readTokens_items vs hv.2 ts)
  | .dict [], _, state, open_, hw, ts =>
      (hw.read fl .lbrace nofun (.rbrace :: ts)).trans rfl
  | .dict ((k, v) :: es), hv, state, open_, hw, ts => by
      rw [tokens, tokensEntries, tokensEntry, List.nil_append,
        List.cons_append, List.append_assoc, List.append_assoc]
      refine (hw.read fl .lbrace nofun _).trans ?_
      have hkeyed : Assoc.Keyed ([] ++ (k, v) :: es) := hv.1
      exact (readTokens_value v hv.2.1 (.value _) _).trans
        (readTokens_entries es hv.2.2 hkeyed ts)

/-- The rest of a list, from the first comma on. -/
theorem readTokens_items : ∀ (vs : List (PyJson F)), KeyedItems vs →
    ∀ {items : List (PyJson F)} {v : PyJson F} {open_ : List (Frame F)} (ts),
    readTokens fl (.done v (.list items :: open_))
      (tokensItems fl [.comma] vs ++ ([.rbracket] ++ ts)) =
      readTokens fl (.done (.list (items ++ v :: vs)) open_) ts
  | [], _, items, v, open_, ts => rfl
  | w :: vs, hv, items, v, open_, ts => by
      rw [tokensItems, List.append_assoc, List.append_assoc]
      refine (readTokens_value w hv.1 (.value _) _).trans ?_
      rw [readTokens_items vs hv.2, List.append_assoc]
      rfl

/-- The rest of a dict, from the first comma on. -/
theorem readTokens_entries : ∀ (es : List (PyStr × PyJson F)),
    KeyedEntries es → ∀ {entries : List (PyStr × PyJson F)} {k : PyStr}
    {v : PyJson F} {open_ : List (Frame F)},
    Assoc.Keyed (entries ++ (k, v) :: es) → ∀ ts,
    readTokens fl (.done v (.dict entries k :: open_))
      (tokensEntries fl [.comma] es ++ ([.rbrace] ++ ts)) =
      readTokens fl (.done (.dict (entries ++ (k, v) :: es)) open_) ts
  | [], _, entries, k, v, open_, hk, ts => by
      refine Eq.trans ?_ (congrArg (fun m => readTokens fl
        (.done (.dict m) open_) ts) (Assoc.set_new (hk.not_mem_head) v))
      rfl
  | (k', w) :: es, hv, entries, k, v, open_, hk, ts => by
      rw [tokensEntries, tokensEntry, List.append_assoc, List.append_assoc]
      have hset := Assoc.set_new hk.not_mem_head v
      refine (readTokens_value w hv.1 (.value (.dict (Assoc.set entries k v) k' ::
        open_)) _).trans ?_
      rw [hset]
      have hk' : Assoc.Keyed ((entries ++ [(k, v)]) ++ (k', w) :: es) := by
        rw [List.append_assoc]
        exact hk
      rw [readTokens_entries es hv.2 hk', List.append_assoc]
      rfl

end

theorem readTokens_tokens {v : PyJson F} (hv : v.Keyed) :
    readTokens fl (.value []) (tokens fl v) = some (.done v []) := by
  have h := readTokens_value fl v hv (.value []) []
  rw [List.append_nil] at h
  exact h

/-- A part of the tokens of a value is no value. -/
theorem readTokens_part {v : PyJson F} (hv : v.Keyed) {us vs : List Token}
    (hsplit : tokens fl v = us ++ vs) (hvs : vs ≠ []) :
    (readTokens fl (.value []) us).bind ReadState.result? = none := by
  have h := readTokens_tokens fl hv
  rw [hsplit, readTokens, List.foldlM_append] at h
  change (readTokens fl (.value []) us).bind
    (fun state => readTokens fl state vs) = _ at h
  cases hus : readTokens fl (.value []) us with
  | none => rfl
  | some state =>
      rw [hus, Option.bind_some] at h
      rw [Option.bind_some]
      cases hr : state.result? with
      | none => rfl
      | some w =>
          -- A complete value takes no further token.
          have hstate : state = .done w [] := by
            cases state with
            | done v' open_ =>
                cases open_ with
                | nil => cases hr; rfl
                | cons frame open_ => cases hr
            | _ => cases hr
          cases vs with
          | nil => exact absurd rfl hvs
          | cons t vs =>
              rw [hstate] at h
              cases h

/-! ## What is read is keyed -/

theorem keyedItems_iff (items : List (PyJson F)) :
    KeyedItems items ↔ ∀ v ∈ items, v.Keyed := by
  induction items with
  | nil => simp [KeyedItems]
  | cons v items ih => rw [KeyedItems, ih, List.forall_mem_cons]

theorem keyedEntries_iff (entries : List (PyStr × PyJson F)) :
    KeyedEntries entries ↔ ∀ e ∈ entries, e.2.Keyed := by
  induction entries with
  | nil => simp [KeyedEntries]
  | cons e entries ih =>
      obtain ⟨k, v⟩ := e
      rw [KeyedEntries, KeyedEntry, ih, List.forall_mem_cons]

/-- A dict entry written into keyed entries. -/
theorem keyed_dict_set {entries : Assoc PyStr (PyJson F)} {k : PyStr}
    {v : PyJson F} (h : (.dict entries : PyJson F).Keyed) (hv : v.Keyed) :
    (.dict (entries.set k v) : PyJson F).Keyed := by
  refine ⟨h.1.set k v, (keyedEntries_iff _).mpr fun e he => ?_⟩
  rcases Assoc.mem_set he with rfl | he
  · exact hv
  · exact (keyedEntries_iff _).mp h.2 e he

theorem keyed_get? {entries : Assoc PyStr (PyJson F)} {k : PyStr} {v : PyJson F}
    (h : (.dict entries : PyJson F).Keyed) (hv : entries.get? k = some v) :
    v.Keyed :=
  (keyedEntries_iff _).mp h.2 _ (Assoc.mem_of_get? hv)

theorem keyed_dict_erase {entries : Assoc PyStr (PyJson F)}
    (h : (.dict entries : PyJson F).Keyed) (k : PyStr) :
    (.dict (entries.erase k) : PyJson F).Keyed :=
  ⟨h.1.erase k, (keyedEntries_iff _).mpr fun e he =>
    (keyedEntries_iff _).mp h.2 e (List.mem_of_mem_filter he)⟩

theorem keyed_dict_eraseWhere {entries : Assoc PyStr (PyJson F)}
    (h : (.dict entries : PyJson F).Keyed) (p : PyStr → Bool) :
    (.dict (entries.eraseWhere p) : PyJson F).Keyed :=
  ⟨h.1.eraseWhere p, (keyedEntries_iff _).mpr fun e he =>
    (keyedEntries_iff _).mp h.2 e (List.mem_of_mem_filter he)⟩

theorem keyed_dict_update {entries entries' : Assoc PyStr (PyJson F)}
    (h : (.dict entries : PyJson F).Keyed)
    (h' : (.dict entries' : PyJson F).Keyed) :
    (.dict (entries.update entries') : PyJson F).Keyed := by
  have hv := (keyedEntries_iff _).mp h'.2
  clear h'
  induction entries' generalizing entries with
  | nil => exact h
  | cons e entries' ih =>
      rw [List.forall_mem_cons] at hv
      exact ih (keyed_dict_set h hv.1) hv.2

theorem keyed_list_append {items : List (PyJson F)} {v : PyJson F}
    (h : (.list items : PyJson F).Keyed) (hv : v.Keyed) :
    (.list (items ++ [v]) : PyJson F).Keyed := by
  refine (keyedItems_iff _).mpr fun w hw => ?_
  rcases List.mem_append.mp hw with hw | hw
  · exact (keyedItems_iff _).mp h w hw
  · rw [List.mem_singleton.mp hw]
    exact hv

def Frame.Keyed : Frame F → Prop
  | .list items => (.list items : PyJson F).Keyed
  | .dict entries _ => (.dict entries : PyJson F).Keyed

/-- What a reading holds so far. -/
def ReadState.Keyed : ReadState F → Prop
  | .value open_ | .firstItem open_ | .firstKey open_ =>
      ∀ f ∈ open_, Frame.Keyed f
  | .key entries open_ | .colon entries _ open_ =>
      (.dict entries : PyJson F).Keyed ∧ ∀ f ∈ open_, Frame.Keyed f
  | .done v open_ => v.Keyed ∧ ∀ f ∈ open_, Frame.Keyed f

theorem startValue_keyed {t : Token} {open_ : List (Frame F)}
    {state : ReadState F} (hopen : ∀ f ∈ open_, Frame.Keyed f)
    (h : startValue fl t open_ = some state) : state.Keyed := by
  cases t <;> cases h <;> first | exact hopen | exact ⟨trivial, hopen⟩

theorem readStep_keyed {state state' : ReadState F} {t : Token}
    (hs : state.Keyed) (h : readStep fl state t = some state') :
    state'.Keyed := by
  have hempty : (.dict [] : PyJson F).Keyed := ⟨List.nodup_nil, trivial⟩
  unfold readStep at h
  split at h
  · exact startValue_keyed fl hs h
  · cases h; exact ⟨trivial, hs⟩
  · have hopen := List.forall_mem_cons.mpr
      (show Frame.Keyed (.list [] : Frame F) ∧ _ from ⟨trivial, hs⟩)
    exact startValue_keyed fl hopen h
  · cases h; exact ⟨hempty, hs⟩
  · cases h; exact ⟨hempty, hs⟩
  · cases h; exact hs
  · cases h; exact List.forall_mem_cons.mpr hs
  · obtain ⟨hv, hopen⟩ := hs
    rw [List.forall_mem_cons] at hopen
    cases h
    exact List.forall_mem_cons.mpr ⟨keyed_list_append hopen.1 hv, hopen.2⟩
  · obtain ⟨hv, hopen⟩ := hs
    rw [List.forall_mem_cons] at hopen
    cases h
    exact ⟨keyed_list_append hopen.1 hv, hopen.2⟩
  · obtain ⟨hv, hopen⟩ := hs
    rw [List.forall_mem_cons] at hopen
    cases h
    exact ⟨keyed_dict_set hopen.1 hv, hopen.2⟩
  · obtain ⟨hv, hopen⟩ := hs
    rw [List.forall_mem_cons] at hopen
    cases h
    exact ⟨keyed_dict_set hopen.1 hv, hopen.2⟩
  · cases h

theorem readTokens_keyed {state state' : ReadState F} {ts : List Token}
    (hs : state.Keyed) (h : readTokens fl state ts = some state') :
    state'.Keyed := by
  induction ts generalizing state with
  | nil => cases h; exact hs
  | cons t ts ih =>
      rw [readTokens_cons] at h
      cases ht : readStep fl state t with
      | none => rw [ht] at h; cases h
      | some next =>
          rw [ht] at h
          exact ih (readStep_keyed fl hs ht) h

theorem loads_keyed {nesting digits : Nat} {s : PyStr} {v : PyJson F}
    (h : loads fl nesting digits s = some v) : v.Keyed := by
  obtain ⟨ts, -, h⟩ := Option.bind_eq_some_iff.mp h
  obtain ⟨-, -, h⟩ := Option.bind_eq_some_iff.mp h
  obtain ⟨state, hr, h⟩ := Option.bind_eq_some_iff.mp h
  have hs : state.Keyed :=
    readTokens_keyed fl (show ReadState.Keyed (.value []) from nofun) hr
  cases state with
  | done w open_ =>
      cases open_ with
      | nil => cases h; exact hs.1
      | cons f open_ => cases h
  | _ => cases h

/-! ## The texts of a document -/

/-- Texts that lex to tokens one after the other, wherever they are cut. The
last one has a token. -/
inductive Stream : List PyStr → List Token → Prop where
  | nil : Stream [] []
  | cons {c : PyStr} {cs : List PyStr} {ts us : List Token}
      (hlex : ∀ n, lex (c ++ (cs.take n).flatten) =
        (lex (cs.take n).flatten).map (ts ++ ·))
      (hlast : ts = [] → cs ≠ []) (h : Stream cs us) :
      Stream (c :: cs) (ts ++ us)

theorem Stream.ne_nil {cs : List PyStr} {ts : List Token} (h : Stream cs ts)
    (hcs : cs ≠ []) : ts ≠ [] := by
  induction h with
  | nil => exact absurd rfl hcs
  | cons hlex hlast h ih =>
      intro hnil
      rw [List.append_eq_nil_iff] at hnil
      exact ih (hlast hnil.1) hnil.2

/-- A stream that is cut lacks a token. -/
theorem Stream.take {cs : List PyStr} {ts : List Token} (h : Stream cs ts)
    (n : Nat) : ∃ us vs, ts = us ++ vs ∧
      lex (cs.take n).flatten = some us ∧ (vs = [] ↔ cs.length ≤ n) := by
  induction h generalizing n with
  | nil => exact ⟨[], [], rfl, by rw [List.take_nil]; rfl, by simp⟩
  | @cons c cs ts us hlex hlast h ih =>
      cases n with
      | zero =>
          refine ⟨[], ts ++ us, rfl, rfl, ?_⟩
          have hne := (Stream.cons hlex hlast h).ne_nil (List.cons_ne_nil c cs)
          simp only [hne, List.length_cons, false_iff]
          omega
      | succ n =>
          obtain ⟨us', vs, hus, hl, hvs⟩ := ih n
          refine ⟨ts ++ us', vs, by rw [hus, List.append_assoc], ?_, ?_⟩
          · rw [List.take_succ_cons, List.flatten_cons, hlex, hl]
            rfl
          · rw [hvs, List.length_cons, Nat.add_le_add_iff_right]

theorem Stream.lex {cs : List PyStr} {ts : List Token} (h : Stream cs ts) :
    Lib.lex cs.flatten = some ts := by
  obtain ⟨us, vs, hts, hl, hnil⟩ := h.take cs.length
  rw [List.take_length] at hl
  rw [hl, hts, hnil.mpr (Nat.le_refl _), List.append_nil]

/-- The first text cannot continue a number. -/
def Separates (cs : List PyStr) : Prop :=
  ∀ c ∈ cs.head?, c ≠ [] ∧ Delimited c

theorem Separates.delimited {cs : List PyStr} (h : Separates cs) (n : Nat) :
    Delimited (cs.take n).flatten := by
  cases cs with
  | nil =>
      rw [List.take_nil]
      exact nofun
  | cons c cs =>
      cases n with
      | zero => exact nofun
      | succ n =>
          obtain ⟨hne, hc⟩ := h c rfl
          rw [List.take_succ_cons, List.flatten_cons, Delimited,
            List.head?_append_of_ne_nil _ hne]
          exact hc

/-- A text that lexes to its tokens whatever comes behind it. -/
theorem Stream.text {c : PyStr} {cs : List PyStr} (ts : List Token)
    {us : List Token}
    (hlex : ∀ rest, Lib.lex (c ++ rest) = (Lib.lex rest).map (ts ++ ·))
    (hlast : ts = [] → cs ≠ []) (h : Stream cs us) :
    Stream (c :: cs) (ts ++ us) := .cons (fun _ => hlex _) hlast h

theorem newline_ws {level c : Nat} (h : c ∈ newline level) : isWs c = true := by
  rcases List.mem_cons.mp h with rfl | h
  · rfl
  · rw [(List.mem_replicate.mp h).2]
    rfl

theorem lex_newline (level : Nat) (rest : PyStr) :
    Lib.lex (newline level ++ rest) = Lib.lex rest :=
  lex_blanks (fun _ => newline_ws) rest

theorem Stream.newline {cs : List PyStr} {ts : List Token} (level : Nat)
    (hcs : cs ≠ []) (h : Stream cs ts) : Stream (newline level :: cs) ts := by
  refine .text [] (fun rest => ?_) (fun _ => hcs) h
  rw [lex_newline]
  simp

theorem Stream.char {c : Nat} {t : Token} {cs : List PyStr} {ts : List Token}
    (hc : isWs c = false) (ht : ∀ rest, nextToken (c :: rest) = some (t, rest))
    (h : Stream cs ts) : Stream ([c] :: cs) (t :: ts) :=
  .text [t] (fun rest => lex_token hc (ht rest)) nofun h

theorem lex_separator (level : Nat) (rest : PyStr) :
    Lib.lex (separator level ++ rest) =
      (Lib.lex rest).map ([.comma] ++ ·) := by
  rw [separator, List.cons_append, lex_token (by decide) rfl, lex_newline]
  rfl

theorem separates_newline (level : Nat) (cs : List PyStr) :
    Separates (newline level :: cs) := by
  intro c hc
  cases hc
  refine ⟨nofun, fun d hd => ?_⟩
  cases hd
  rfl

theorem separates_separator (level : Nat) (text : PyStr) (cs : List PyStr) :
    Separates ((separator level ++ text) :: cs) := by
  intro c hc
  cases hc
  refine ⟨nofun, fun d hd => ?_⟩
  cases hd
  rfl

theorem separates_items (level : Nat) (vs : List (PyJson F)) {cs : List PyStr}
    (h : Separates cs) :
    Separates (texts (iterencodeItems fl level (separator level) vs) ++ cs) := by
  cases vs with
  | nil => exact h
  | cons v vs =>
      rw [iterencodeItems, texts_append, List.append_assoc]
      cases scalarText fl v with
      | some text => exact separates_separator level text _
      | none =>
          have := separates_separator level [] (texts (iterencode fl level v) ++
            (texts (iterencodeItems fl level (separator level) vs) ++ cs))
          rw [List.append_nil] at this
          exact this

theorem separates_entries (level : Nat) (es : List (PyStr × PyJson F))
    {cs : List PyStr} (h : Separates cs) :
    Separates (texts (iterencodeEntries fl level
      [.plain level (separator level)] es) ++ cs) := by
  cases es with
  | nil => exact h
  | cons e es =>
      have := separates_separator level [] (texts (iterencodeEntry fl level e ++
        iterencodeEntries fl level [.plain level (separator level)] es) ++ cs)
      rw [List.append_nil] at this
      exact this

/-- The one text of a value that is not a container. -/
theorem stream_scalar {v : PyJson F} {text : PyStr} (buf : PyStr)
    (bt : List Token) {cs : List PyStr} {ts : List Token}
    (hv : scalarText fl v = some text)
    (hbuf : ∀ rest, Lib.lex (buf ++ rest) = (Lib.lex rest).map (bt ++ ·))
    (hsep : Separates cs) (h : Stream cs ts) :
    Stream ((buf ++ text) :: cs) (bt ++ ((scalarToken fl v).toList ++ ts)) := by
  rw [← List.append_assoc]
  have hlex : ∀ n, ∃ t, scalarToken fl v = some t ∧
      Lib.lex (text ++ (cs.take n).flatten) =
        (Lib.lex (cs.take n).flatten).map (t :: ·) :=
    fun n => lex_scalar fl hv (hsep.delimited n)
  obtain ⟨t, ht, -⟩ := hlex 0
  refine .cons (fun n => ?_) (fun hnil => ?_) h
  · obtain ⟨t', ht', hl⟩ := hlex n
    rw [List.append_assoc, hbuf, hl, ht', Option.map_map]
    congr 1
    funext us
    simp
  · rw [ht] at hnil
    simp at hnil

theorem tokens_scalar {v : PyJson F} {text : PyStr}
    (h : scalarText fl v = some text) :
    tokens fl v = (scalarToken fl v).toList := by
  cases v <;> first | rfl | cases h

/-- The one text of a scalar, alone. -/
theorem stream_atom {v : PyJson F} {text : PyStr} {cs : List PyStr}
    {ts : List Token} (hv : scalarText fl v = some text)
    (hsep : Separates cs) (h : Stream cs ts) :
    Stream (text :: cs) ((scalarToken fl v).toList ++ ts) :=
  stream_scalar fl [] [] hv (fun rest => by simp) hsep h

mutual

theorem stream_value : ∀ (v : PyJson F) (level : Nat) {cs : List PyStr}
    {ts : List Token}, Separates cs → Stream cs ts →
    Stream (texts (iterencode fl level v) ++ cs) (tokens fl v ++ ts)
  | .null, _, _, _, hsep, h => stream_atom fl (v := .null) rfl hsep h
  | .bool true, _, _, _, hsep, h => stream_atom fl (v := .bool true) rfl hsep h
  | .bool false, _, _, _, hsep, h =>
      stream_atom fl (v := .bool false) rfl hsep h
  | .int n, _, _, _, hsep, h => stream_atom fl (v := .int n) rfl hsep h
  | .float x, _, _, _, hsep, h => stream_atom fl (v := .float x) rfl hsep h
  | .str s, _, _, _, hsep, h => stream_atom fl (v := .str s) rfl hsep h
  | .list [], level, cs, ts, _, h => by
      refine .text [.lbracket, .rbracket] (fun rest => ?_) nofun h
      show Lib.lex (91 :: 93 :: rest) = _
      rw [lex_token (by decide) rfl, lex_token (by decide) rfl, Option.map_map]
      rfl
  | .list (v :: vs), level, cs, ts, _, h => by
      rw [iterencode, texts_append, List.append_assoc]
      have hend : Stream (newline level :: py "]" :: cs) (.rbracket :: ts) :=
        .newline level nofun (.char (by decide) (fun _ => rfl) h)
      have hitems := stream_items (v :: vs) (level + 1)
        (91 :: newline (level + 1)) [.lbracket] (fun rest => by
          rw [List.cons_append, lex_token (by decide) rfl, lex_newline]
          rfl) nofun (separates_newline level _) hend
      rw [tokensItems] at hitems
      rw [tokens, tokensItems]
      simpa using hitems
  | .dict [], level, cs, ts, _, h => by
      refine .text [.lbrace, .rbrace] (fun rest => ?_) nofun h
      show Lib.lex (123 :: 125 :: rest) = _
      rw [lex_token (by decide) rfl, lex_token (by decide) rfl, Option.map_map]
      rfl
  | .dict (e :: es), level, cs, ts, _, h => by
      have hend : Stream (newline level :: py "\x7d" :: cs) (.rbrace :: ts) :=
        .newline level nofun (.char (by decide) (fun _ => rfl) h)
      have hentries := stream_entries (e :: es) (level + 1) [] []
        (fun h => h) (separates_newline level _) hend
      rw [iterencode, tokens]
      have hopen :
          Stream (py "\x7b" :: newline (level + 1) :: _) (.lbrace :: _) :=
        .char (by decide) (fun _ => rfl)
          (.newline (level + 1) (by simp) hentries)
      simpa using hopen

theorem stream_items : ∀ (vs : List (PyJson F)) (level : Nat) (buf : PyStr)
    (bt : List Token),
    (∀ rest, Lib.lex (buf ++ rest) = (Lib.lex rest).map (bt ++ ·)) → bt ≠ [] →
    ∀ {cs : List PyStr} {ts : List Token}, Separates cs → Stream cs ts →
    Stream (texts (iterencodeItems fl level buf vs) ++ cs)
      (tokensItems fl bt vs ++ ts)
  | [], _, _, _, _, _, _, _, _, h => h
  | v :: vs, level, buf, bt, hbuf, hbt, cs, ts, hsep, h => by
      have hrest := stream_items vs level (separator level) [.comma]
        (lex_separator level) nofun hsep h
      have hsep' := separates_items fl level vs hsep
      rw [iterencodeItems, tokensItems]
      cases hv : scalarText fl v with
      | some text =>
          have := stream_scalar fl buf bt hv hbuf hsep' hrest
          rw [tokens_scalar fl hv]
          simpa using this
      | none =>
          have hvalue := stream_value v level hsep' hrest
          have := Stream.text bt hbuf (fun hnil => absurd hnil hbt) hvalue
          simpa using this

theorem stream_entries : ∀ (es : List (PyStr × PyJson F)) (level : Nat)
    (before : List Chunk) (bt : List Token),
    (∀ {cs : List PyStr} {ts : List Token}, Stream cs ts →
      Stream (texts before ++ cs) (bt ++ ts)) →
    ∀ {cs : List PyStr} {ts : List Token}, Separates cs → Stream cs ts →
    Stream (texts (iterencodeEntries fl level before es) ++ cs)
      (tokensEntries fl bt es ++ ts)
  | [], _, _, _, _, _, _, _, h => h
  | (k, v) :: es, level, before, bt, hbefore, cs, ts, hsep, h => by
      have hrest := stream_entries es level [.plain level (separator level)]
        [.comma] (fun h => .text [.comma] (lex_separator level) nofun h) hsep h
      have hvalue := stream_value v level (separates_entries fl level es hsep)
        hrest
      have hcolon : Stream (py ": " :: _) (.colon :: _) :=
        .text [.colon] (fun rest => by
          show Lib.lex (58 :: 32 :: rest) = _
          rw [lex_token (by decide) rfl, lex_ws (by decide)]
          rfl) nofun hvalue
      have hkey := Stream.text [.str k] (lex_string k) nofun hcolon
      have := hbefore hkey
      rw [iterencodeEntries, tokensEntries, iterencodeEntry, tokensEntry]
      simpa using this

end

/-! ## Documents -/

theorem loads_tokens {v : PyJson F} (hv : v.Keyed) {nesting digits : Nat}
    (hn : v.nesting ≤ nesting) (hd : v.digits ≤ digits) {s : PyStr}
    (hlex : Lib.lex s = some (tokens fl v)) :
    loads fl nesting digits s = some v := by
  have hfits : tokenNesting (tokens fl v) ≤ nesting ∧
      ∀ t ∈ tokens fl v, t.digits ≤ digits :=
    ⟨(tokenNesting_tokens fl v).trans_le hn,
      fun t ht => (digits_tokens fl v t ht).trans hd⟩
  rw [loads, hlex]
  show (guard _ >>= fun _ => (readTokens fl (.value []) (tokens fl v)).bind _) = _
  rw [guard, if_pos hfits, readTokens_tokens fl hv]
  rfl

theorem lex_iterencode (v : PyJson F) : ∀ n, ∃ us vs, tokens fl v = us ++ vs ∧
    Lib.lex ((texts (iterencode fl 0 v)).take n).flatten = some us ∧
    (vs = [] ↔ (texts (iterencode fl 0 v)).length ≤ n) := by
  have h : Stream (texts (iterencode fl 0 v) ++ []) (tokens fl v ++ []) :=
    stream_value fl v 0 nofun .nil
  rw [List.append_nil, List.append_nil] at h
  exact h.take

/-- A value that was written reads back as it was. -/
theorem loads_iterencode {v : PyJson F} (hv : v.Keyed) {nesting digits : Nat}
    (hn : v.nesting ≤ nesting) (hd : v.digits ≤ digits) :
    loads fl nesting digits (texts (iterencode fl 0 v)).flatten = some v := by
  obtain ⟨us, vs, hsplit, hlex, hvs⟩ :=
    lex_iterencode fl v (texts (iterencode fl 0 v)).length
  rw [hvs.mpr (Nat.le_refl _), List.append_nil] at hsplit
  rw [List.take_length, ← hsplit] at hlex
  exact loads_tokens fl hv hn hd hlex

/-- What was written before the last text does not read back. -/
theorem loads_part {v : PyJson F} (hv : v.Keyed) {n : Nat}
    (hn : n < (texts (iterencode fl 0 v)).length) (nesting digits : Nat) :
    loads fl nesting digits ((texts (iterencode fl 0 v)).take n).flatten =
      none := by
  obtain ⟨us, vs, hsplit, hlex, hvs⟩ := lex_iterencode fl v n
  have hne : vs ≠ [] := fun h => absurd (hvs.mp h) (by omega)
  rw [loads, hlex]
  show (guard _ >>= fun _ => (readTokens fl (.value []) us).bind _) = _
  rw [readTokens_part fl hv hsplit hne, guard]
  split <;> rfl

/-! ## `json.dumps` -/

theorem delimited_cons {c : Nat} (hc : isNumChar c = false) (s : PyStr) :
    Delimited (c :: s) := by
  intro d hd
  cases hd
  exact hc

theorem lex_comma (rest : PyStr) :
    Lib.lex (py ", " ++ rest) = (Lib.lex rest).map ([.comma] ++ ·) := by
  show Lib.lex (44 :: 32 :: rest) = _
  rw [lex_token (by decide) rfl, lex_ws (by decide)]
  rfl

theorem lex_colon (rest : PyStr) :
    Lib.lex (py ": " ++ rest) = (Lib.lex rest).map ([.colon] ++ ·) := by
  show Lib.lex (58 :: 32 :: rest) = _
  rw [lex_token (by decide) rfl, lex_ws (by decide)]
  rfl

theorem delimited_dumpsItems (vs : List (PyJson F)) {rest : PyStr}
    (h : Delimited rest) : Delimited (dumpsItems fl (py ", ") vs ++ rest) := by
  cases vs with
  | nil => exact h
  | cons v vs => exact delimited_cons (c := 44) rfl _

theorem delimited_dumpsEntries (es : List (PyStr × PyJson F)) {rest : PyStr}
    (h : Delimited rest) :
    Delimited (dumpsEntries fl (py ", ") es ++ rest) := by
  cases es with
  | nil => exact h
  | cons e es => exact delimited_cons (c := 44) rfl _

/-- The one token of a value that is not a container. -/
theorem lex_dumps_scalar {v : PyJson F} {text rest : PyStr}
    (hv : scalarText fl v = some text) (h : Delimited rest) :
    Lib.lex (text ++ rest) = (Lib.lex rest).map (tokens fl v ++ ·) := by
  obtain ⟨t, ht, hl⟩ := lex_scalar fl hv h
  rw [hl, tokens_scalar fl hv, ht]
  rfl

mutual

theorem lex_dumps : ∀ (v : PyJson F) {rest : PyStr}, Delimited rest →
    Lib.lex (dumps fl v ++ rest) = (Lib.lex rest).map (tokens fl v ++ ·)
  | .null, _, h => lex_dumps_scalar fl (v := .null) rfl h
  | .bool true, _, h => lex_dumps_scalar fl (v := .bool true) rfl h
  | .bool false, _, h => lex_dumps_scalar fl (v := .bool false) rfl h
  | .int n, _, h => lex_dumps_scalar fl (v := .int n) rfl h
  | .float x, _, h => lex_dumps_scalar fl (v := .float x) rfl h
  | .str s, _, h => lex_dumps_scalar fl (v := .str s) rfl h
  | .list items, rest, _ => by
      have hend : Lib.lex (93 :: rest) = (Lib.lex rest).map (.rbracket :: ·) :=
        lex_token (by decide) rfl
      have hitems := lex_dumpsItems items [] []
        (fun rest => by simp) (delimited_cons (c := 93) rfl rest)
      simp only [dumps, tokens, List.cons_append, List.append_assoc]
      rw [lex_token (by decide) rfl, List.nil_append, hitems, hend]
      simp only [Option.map_map, Function.comp_def, List.nil_append]
  | .dict entries, rest, _ => by
      have hend : Lib.lex (125 :: rest) = (Lib.lex rest).map (.rbrace :: ·) :=
        lex_token (by decide) rfl
      have hentries := lex_dumpsEntries entries [] []
        (fun rest => by simp) (delimited_cons (c := 125) rfl rest)
      simp only [dumps, tokens, List.cons_append, List.append_assoc]
      rw [lex_token (by decide) rfl, List.nil_append, hentries, hend]
      simp only [Option.map_map, Function.comp_def, List.nil_append]

theorem lex_dumpsItems : ∀ (vs : List (PyJson F)) (before : PyStr)
    (bt : List Token),
    (∀ rest, Lib.lex (before ++ rest) = (Lib.lex rest).map (bt ++ ·)) →
    ∀ {rest : PyStr}, Delimited rest →
    Lib.lex (dumpsItems fl before vs ++ rest) =
      (Lib.lex rest).map (tokensItems fl bt vs ++ ·)
  | [], _, _, _, _, _ => by simp [dumpsItems, tokensItems]
  | v :: vs, before, bt, hbefore, rest, h => by
      have hvs := lex_dumpsItems vs (py ", ") [.comma] lex_comma h
      have hv := lex_dumps v (delimited_dumpsItems fl vs h)
      rw [dumpsItems, tokensItems, List.append_assoc, List.append_assoc,
        hbefore, hv, hvs, Option.map_map, Option.map_map]
      congr 1
      funext ts
      simp

theorem lex_dumpsEntries : ∀ (es : List (PyStr × PyJson F))
    (before : PyStr) (bt : List Token),
    (∀ rest, Lib.lex (before ++ rest) = (Lib.lex rest).map (bt ++ ·)) →
    ∀ {rest : PyStr}, Delimited rest →
    Lib.lex (dumpsEntries fl before es ++ rest) =
      (Lib.lex rest).map (tokensEntries fl bt es ++ ·)
  | [], _, _, _, _, _ => by simp [dumpsEntries, tokensEntries]
  | (k, v) :: es, before, bt, hbefore, rest, h => by
      have hes := lex_dumpsEntries es (py ", ") [.comma] lex_comma h
      have hv := lex_dumps v (delimited_dumpsEntries fl es h)
      rw [dumpsEntries, tokensEntries, dumpsEntry, tokensEntry]
      simp only [List.append_assoc]
      rw [hbefore, lex_string, lex_colon, hv, hes, Option.map_map,
        Option.map_map, Option.map_map, Option.map_map]
      simp [Function.comp_def]

end

/-- A value reads back from the line it was written on. -/
theorem loads_dumps {v : PyJson F} (hv : v.Keyed) {nesting digits : Nat}
    (hn : v.nesting ≤ nesting) (hd : v.digits ≤ digits) :
    loads fl nesting digits (dumps fl v) = some v := by
  have hend : Delimited [] := by
    intro c hc
    cases hc
  have h := lex_dumps fl v hend
  rw [List.append_nil] at h
  refine loads_tokens fl hv hn hd ?_
  rw [h]
  show some (tokens fl v ++ []) = _
  rw [List.append_nil]

end TaxiService.Lib
