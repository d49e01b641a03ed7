import Mathlib.Data.List.Infix
import TaxiService.Model.StorageOps
import TaxiService.Proofs.CreateRequests
import TaxiService.Spec.NameSearch

/-!
# `LIKE` and substrings

Between two `%`, a pattern of ordinary characters matches the texts it is a
substring of (`like_between`). Any other pattern matches a text that does not
contain it: the one it is read as (`literal`), in which a `%` stands for
nothing, a `_` for some letter, and an escaped character for itself. That text
is no longer than the pattern, and different from it.
-/

namespace TaxiService.Proofs

open TaxiService.Lib TaxiService.Model TaxiService.Spec

/-! ## The matcher -/

theorem like_tails (p t : List Nat) :
    like (37 :: p) t = t.tails.foldr
      (fun s rest => do if ← like p s then pure true else rest) (.ok false) :=
  rfl

theorem like_any (p : List Nat) (x : Nat) (t : List Nat) :
    like (95 :: p) (x :: t) = like p t := rfl

theorem like_escaped (c : Nat) (p : List Nat) (x : Nat) (t : List Nat) :
    like (92 :: c :: p) (x :: t) = if x = c then like p t else .ok false := rfl

/-- An ordinary character matches itself. -/
theorem like_ordinary {c : Nat} (hc : ¬LikeSpecial c) (p t : List Nat) :
    like (c :: p) t = match t with
      | [] => .ok false
      | x :: t => if x = c then like p t else .ok false := by
  simp only [LikeSpecial, not_or] at hc
  obtain ⟨h37, h95, h92⟩ := hc
  cases t with
  | nil => simp [like, h92]
  | cons x t => simp [like, h92]

/-- A `%` tries the text and then what is left of it from further on. -/
theorem like_percent (p : List Nat) (t : List Nat) :
    like (37 :: p) t = (do if ← like p t then pure true else
      match t with
      | [] => .ok false
      | _ :: t => like (37 :: p) t) := by
  cases t with
  | nil => rfl
  | cons x t =>
      rw [like_tails, List.tails, List.foldr_cons]
      rfl

/-- What a `%` in front makes of a pattern that gives no error. -/
theorem like_percent_of_ok {p : List Nat} {b : List Nat → Bool}
    (h : ∀ t, like p t = .ok (b t)) (t : List Nat) :
    like (37 :: p) t = .ok (t.tails.any b) := by
  induction t with
  | nil =>
      rw [like_percent, h]
      simp only [List.tails, List.any_cons, List.any_nil, Bool.or_false]
      cases b [] <;> rfl
  | cons x t ih =>
      rw [like_percent, h]
      simp only [ih, List.tails, List.any_cons]
      cases b (x :: t) <;> rfl

/-! ## Ordinary masks -/

theorem like_rest (t : List Nat) : like [37] t = .ok true := by
  induction t with
  | nil => rfl
  | cons x t ih =>
      rw [like_percent]
      exact ih

theorem like_start {p : List Nat} (hp : ∀ c ∈ p, ¬LikeSpecial c) :
    ∀ t, like (p ++ [37]) t = .ok (p.isPrefixOf t) := by
  induction p with
  | nil => intro t; rw [List.nil_append, like_rest]; rfl
  | cons c p ih =>
      intro t
      rw [List.forall_mem_cons] at hp
      rw [List.cons_append, like_ordinary hp.1]
      cases t with
      | nil => rfl
      | cons x t =>
          rw [List.isPrefixOf_cons_cons]
          by_cases hx : x = c
          · simp only [if_pos hx, ih hp.2, beq_iff_eq.mpr hx.symm, Bool.true_and]
          · simp only [if_neg hx, beq_eq_false_iff_ne.mpr (Ne.symm hx),
              Bool.false_and]

/-- Between two `%`, ordinary characters are a substring. -/
theorem like_between {p : List Nat} (hp : ∀ c ∈ p, ¬LikeSpecial c)
    (t : List Nat) : like (37 :: (p ++ [37])) t = .ok (decide (p <:+: t)) := by
  rw [like_percent_of_ok (like_start hp)]
  congr 1
  rw [Bool.eq_iff_iff, List.any_eq_true, decide_eq_true_eq]
  simp only [List.mem_tails, List.isPrefixOf_iff_prefix]
  rw [List.infix_iff_prefix_suffix]
  constructor
  · rintro ⟨s, hs, hp⟩
    exact ⟨s, hp, hs⟩
  · rintro ⟨s, hp, hs⟩
    exact ⟨s, hs, hp⟩

/-! ## The other masks -/

/-- The text a pattern followed by `%` is read as: a trailing escape takes the
`%` for itself. -/
def literal : List Nat → List Nat
  | [] => []
  | [92] => [37]
  | 92 :: c :: p => c :: literal p
  | c :: p => if c = 37 then literal p
      else if c = 95 then 120 :: literal p
      else c :: literal p

theorem literal_length (p : List Nat) : (literal p).length ≤ p.length := by
  fun_induction literal p with
  | case1 => exact Nat.le_refl _
  | case2 => exact Nat.le_refl _
  | case3 c p ih => simp only [List.length_cons]; omega
  | case4 p _ _ ih => simp only [List.length_cons]; omega
  | case5 p _ _ _ ih => simp only [List.length_cons]; omega
  | case6 c p _ _ _ _ ih => simp only [List.length_cons]; omega

theorem not_escape {c : Nat} {p : List Nat} (hlast : c = 92 → p = [] → False)
    (hmore : ∀ d q, c = 92 → p = d :: q → False) : c ≠ 92 := by
  rintro rfl
  cases p with
  | nil => exact hlast rfl rfl
  | cons d q => exact hmore d q rfl rfl

theorem like_literal (p : List Nat) :
    like (p ++ [37]) (literal p) = .ok true := by
  fun_induction literal p with
  | case1 => rfl
  | case2 => rfl
  | case3 c p ih =>
      rw [List.cons_append, List.cons_append, like_escaped, if_pos rfl, ih]
  | case4 p _ _ ih =>
      rw [List.cons_append, like_percent, ih]
      rfl
  | case5 p _ _ _ ih => rw [List.cons_append, like_any, ih]
  | case6 c p hlast hmore h37 h95 ih =>
      have hc : ¬LikeSpecial c := by
        simp only [LikeSpecial, not_or]
        exact ⟨h37, h95, not_escape hlast hmore⟩
      rw [List.cons_append, like_ordinary hc]
      simp only [if_true, ih]

/-- Only ordinary characters are read as they stand. -/
theorem ordinary_of_literal {p : List Nat} (h : literal p = p) :
    ∀ c ∈ p, ¬LikeSpecial c := by
  have hlen := literal_length
  fun_induction literal p with
  | case1 => intro c hc; cases hc
  | case2 => cases h
  | case3 c p ih =>
      have := congrArg List.length h
      have := hlen p
      simp only [List.length_cons] at *
      omega
  | case4 p _ _ ih =>
      have := congrArg List.length h
      have := hlen p
      simp only [List.length_cons] at *
      omega
  | case5 p _ _ _ ih => cases h
  | case6 c p hlast hmore h37 h95 ih =>
      rw [List.cons.injEq] at h
      rw [List.forall_mem_cons]
      refine ⟨?_, ih h.2⟩
      simp only [LikeSpecial, not_or]
      exact ⟨h37, h95, not_escape hlast hmore⟩

/-- A pattern with a special character matches a text that does not contain
it. -/
theorem literal_not_infix {p : List Nat} (h : ¬∀ c ∈ p, ¬LikeSpecial c) :
    ¬p <:+: literal p := by
  intro hinside
  refine h (ordinary_of_literal ?_)
  exact (hinside.eq_of_length_le (literal_length p)).symm

theorem mem_literal (p : List Nat) :
    ∀ c ∈ literal p, c = 37 ∨ c = 120 ∨ c ∈ p := by
  fun_induction literal p with
  | case1 => intro c hc; cases hc
  | case2 => intro c hc; exact .inl (List.mem_singleton.mp hc)
  | case3 d p ih =>
      intro c hc
      rcases List.mem_cons.mp hc with rfl | hc
      · simp
      · refine (ih c hc).imp_right (Or.imp_right fun h => ?_)
        exact List.mem_cons_of_mem _ (List.mem_cons_of_mem _ h)
  | case4 p _ _ ih =>
      intro c hc
      exact (ih c hc).imp_right (Or.imp_right (List.mem_cons_of_mem _))
  | case5 p _ _ _ ih =>
      intro c hc
      rcases List.mem_cons.mp hc with rfl | hc
      · simp
      · exact (ih c hc).imp_right (Or.imp_right (List.mem_cons_of_mem _))
  | case6 d p _ _ _ _ ih =>
      intro c hc
      rcases List.mem_cons.mp hc with rfl | hc
      · simp
      · exact (ih c hc).imp_right (Or.imp_right (List.mem_cons_of_mem _))

/-- A text whose characters are all the image of one is the image of a
text. -/
theorem exists_map {f : Nat → Nat} {t : List Nat}
    (h : ∀ c ∈ t, ∃ d, isScalar d = true ∧ f d = c) :
    ∃ name, Encodable name ∧ name.map f = t := by
  induction t with
  | nil => exact ⟨[], fun c hc => absurd hc List.not_mem_nil, rfl⟩
  | cons c t ih =>
      rw [List.forall_mem_cons] at h
      obtain ⟨d, hd, hfd⟩ := h.1
      obtain ⟨name, henc, hname⟩ := ih h.2
      refine ⟨d :: name, List.forall_mem_cons.mpr ⟨hd, henc⟩, ?_⟩
      rw [List.map_cons, hfd, hname]

/-! ## A filter that cannot fail -/

theorem filterAuxM_ok {α ε : Type} {g : α → Except ε Bool} {b : α → Bool}
    {rows : List α} (h : ∀ u ∈ rows, g u = .ok (b u)) :
    ∀ acc, rows.filterAuxM g acc = .ok ((rows.filter b).reverse ++ acc) := by
  induction rows with
  | nil => intro acc; rfl
  | cons u rows ih =>
      intro acc
      rw [List.forall_mem_cons] at h
      rw [List.filterAuxM, h.1]
      refine (ih h.2 _).trans ?_
      rw [List.filter_cons]
      cases b u with
      | false => rfl
      | true => simp

theorem filterM_ok {α ε : Type} {g : α → Except ε Bool} {b : α → Bool}
    {rows : List α} (h : ∀ u ∈ rows, g u = .ok (b u)) :
    rows.filterM g = .ok (rows.filter b) := by
  rw [List.filterM, filterAuxM_ok h, List.append_nil]
  exact congrArg Except.ok (List.reverse_reverse _)

/-! ## `lower` -/

section

variable {lower : StdString → StdString} {f : Nat → Nat} (hl : LowersBy lower f)
include hl

theorem characters_lower {text : List Nat} (h : Encodable text) :
    characters (lower (encodeUtf8 text)) = text.map f := by
  have hmap : Encodable (text.map f) := by
    intro c hc
    obtain ⟨d, hd, rfl⟩ := List.mem_map.mp hc
    exact hl.scalar d (h d hd)
  rw [hl.charwise text h, characters, decodeUtf8_encodeUtf8 hmap,
    Option.getD_some]

theorem likeSpecial_iff (c : Nat) : LikeSpecial (f c) ↔ LikeSpecial c := by
  simp only [LikeSpecial]
  rcases Nat.lt_or_ge c 128 with hc | hc
  · rw [hl.ascii c hc]
    split <;> omega
  · have := hl.letters c hc
    omega

/-- Everything a mask is read as is the lower case of some name. -/
theorem exists_name {text : List Nat} (h : Encodable text) :
    ∃ name, Encodable name ∧ name.map f = literal (text.map f) := by
  refine exists_map fun c hc => ?_
  rcases mem_literal _ c hc with rfl | rfl | hc
  · exact ⟨37, by decide, hl.ascii 37 (by decide)⟩
  · exact ⟨120, by decide, hl.ascii 120 (by decide)⟩
  · obtain ⟨d, hd, rfl⟩ := List.mem_map.mp hc
    exact ⟨d, h d hd, rfl⟩

/-! ## The query -/

theorem kFindUsersByMask_ok {text : List Nat} (h : Encodable text)
    (hzero : 0 ∉ text) {db : Db} {b : UserRow → Bool}
    (hlike : ∀ u ∈ db.users.rows, like (37 :: (text.map f ++ [37]))
      (characters (lower u.fullName)) = .ok (b u)) :
    kFindUsersByMask lower (encodeUtf8 text) db =
      .ok ((db.users.rows.filter b).insertionSort fun u v => u.id ≤ v.id) := by
  have hbind := (bindText_ok_iff (encodeUtf8 text)).mpr ⟨text, h, rfl, hzero⟩
  have hpattern : characters (bytes "%" ++ lower (encodeUtf8 text) ++
      bytes "%") = 37 :: (text.map f ++ [37]) := by
    have hmap : Encodable (37 :: (text.map f ++ [37])) := by
      intro c hc
      rcases List.mem_cons.mp hc with rfl | hc
      · rfl
      · rcases List.mem_append.mp hc with hc | hc
        · obtain ⟨d, hd, rfl⟩ := List.mem_map.mp hc
          exact hl.scalar d (h d hd)
        · rw [List.mem_singleton.mp hc]
          rfl
    have hbytes : bytes "%" ++ lower (encodeUtf8 text) ++ bytes "%" =
        encodeUtf8 (37 :: (text.map f ++ [37])) := by
      rw [hl.charwise text h, ← List.singleton_append, encodeUtf8_append,
        encodeUtf8_append, List.append_assoc]
      rfl
    rw [hbytes, characters, decodeUtf8_encodeUtf8 hmap, Option.getD_some]
  have hrows : db.users.rows.filterM (fun u =>
      like ((decodeUtf8 (bytes "%" ++ lower (encodeUtf8 text) ++
        bytes "%")).getD []) ((decodeUtf8 (lower u.fullName)).getD [])) =
      .ok (db.users.rows.filter b) := by
    refine filterM_ok fun u hu => ?_
    rw [← hlike u hu, ← hpattern]
    rfl
  rw [kFindUsersByMask, hbind]
  exact congrArg (fun matching : Except PgError (List UserRow) =>
    matching >>= fun rows => pure (rows.insertionSort fun u v => u.id ≤ v.id))
    hrows

end

theorem parseUser_injective {u v : UserRow} (h : parseUser u = parseUser v) :
    u = v := by
  cases u
  cases v
  cases h
  rfl

/-- When the query keeps the rows of a test, it is the search exactly when the
test is. -/
theorem search_iff_of_filter {lower : StdString → StdString}
    {nameMask : StdString} {db : Db} {b : UserRow → Bool}
    (h : kFindUsersByMask lower nameMask db =
      .ok ((db.users.rows.filter b).insertionSort fun u v => u.id ≤ v.id)) :
    SubstringSearch lower nameMask db ↔ ∀ row ∈ db.users.rows,
      (b row = true ↔ Contains lower row.fullName nameMask) := by
  have hanswer : findUsersByNameMask lower nameMask db =
      .ok (((db.users.rows.filter b).insertionSort fun u v =>
        u.id ≤ v.id).map parseUser) := by
    rw [findUsersByNameMask, h]
    rfl
  have hmem : ∀ user, user ∈ ((db.users.rows.filter b).insertionSort fun u v =>
        u.id ≤ v.id).map parseUser ↔
      ∃ row ∈ db.users.rows, parseUser row = user ∧ b row = true := by
    intro user
    simp only [List.mem_map, List.mem_insertionSort, List.mem_filter]
    constructor
    · rintro ⟨row, ⟨hrow, hb⟩, heq⟩
      exact ⟨row, hrow, heq, hb⟩
    · rintro ⟨row, hrow, heq, hb⟩
      exact ⟨row, ⟨hrow, hb⟩, heq⟩
  constructor
  · rintro ⟨users, hok, -, hiff⟩ row hrow
    rw [hanswer] at hok
    cases hok
    have hboth := (hmem (parseUser row)).symm.trans (hiff (parseUser row))
    constructor
    · intro hb
      obtain ⟨row', -, heq, hc⟩ := hboth.mp ⟨row, hrow, rfl, hb⟩
      exact parseUser_injective heq ▸ hc
    · intro hc
      obtain ⟨row', -, heq, hb⟩ := hboth.mpr ⟨row, hrow, rfl, hc⟩
      exact parseUser_injective heq ▸ hb
  · intro hb
    refine ⟨_, hanswer, ?_, fun user => ?_⟩
    · rw [List.pairwise_map, List.pairwise_map]
      have : Std.Total fun u v : UserRow => u.id ≤ v.id :=
        ⟨fun u v => Int.le_total u.id v.id⟩
      have : IsTrans UserRow fun u v => u.id ≤ v.id :=
        ⟨fun _ _ _ => Int.le_trans⟩
      have hnodup : (db.users.rows.filter b).Pairwise fun u v => u.id ≠ v.id :=
        (List.pairwise_map.mp db.users.nodup).sublist List.filter_sublist
      have hsorted := List.pairwise_insertionSort
        (fun u v : UserRow => u.id ≤ v.id) (db.users.rows.filter b)
      have hdistinct := ((List.perm_insertionSort
        (fun u v : UserRow => u.id ≤ v.id) (db.users.rows.filter b)).pairwise_iff
          fun hne => Ne.symm hne).mpr hnodup
      refine (hsorted.and hdistinct).imp fun {u v} huv => ?_
      show u.id < v.id
      omega
    · rw [hmem]
      refine exists_congr fun row => and_congr_right fun hrow => ?_
      exact and_congr_right fun _ => hb row hrow

/-! ## The result -/

/-- The search finds the users whose name contains the mask, in every table,
exactly for the masks without a special character. -/
theorem substringSearch_iff_plain (lower : StdString → StdString)
    (f : Nat → Nat) (hl : LowersBy lower f) (nameMask : StdString) :
    (∀ db, SubstringSearch lower nameMask db) ↔ PlainMask nameMask := by
  constructor
  · intro h
    obtain ⟨users, hempty, -⟩ := h Db.empty
    have hbind : bindText nameMask = .ok () := by
      cases hb : bindText nameMask with
      | ok => rfl
      | error e =>
          rw [findUsersByNameMask, kFindUsersByMask, hb] at hempty
          cases hempty
    obtain ⟨text, henc, rfl, hzero⟩ := (bindText_ok_iff nameMask).mp hbind
    refine ⟨text, henc, rfl, fun c hc => ⟨fun h0 => hzero (h0 ▸ hc), ?_⟩⟩
    intro hspecial
    obtain ⟨name, hname, hliteral⟩ := exists_name hl henc
    let row : UserRow := ⟨1, bytes "login", bytes "password", encodeUtf8 name⟩
    let db : Db := { Db.empty with users := ⟨[row], List.nodup_singleton _⟩ }
    have hkeeps : kFindUsersByMask lower (encodeUtf8 text) db =
        .ok ((db.users.rows.filter fun _ => true).insertionSort fun u v =>
          u.id ≤ v.id) := by
      refine kFindUsersByMask_ok hl henc hzero fun u hu => ?_
      rw [List.mem_singleton.mp hu]
      show like _ (characters (lower (encodeUtf8 name))) = _
      rw [characters_lower hl hname, hliteral, like_percent, like_literal]
      rfl
    have hcontains := ((search_iff_of_filter hkeeps).mp (h db) row
      List.mem_cons_self).mp rfl
    rw [Contains, characters_lower hl henc, characters_lower hl hname,
      hliteral] at hcontains
    refine literal_not_infix (fun hall => ?_) hcontains
    exact hall (f c) (List.mem_map_of_mem hc) ((likeSpecial_iff hl c).mpr hspecial)
  · rintro ⟨text, henc, rfl, hplain⟩ db
    have hordinary : ∀ c ∈ text.map f, ¬LikeSpecial c := by
      intro c hc
      obtain ⟨d, hd, rfl⟩ := List.mem_map.mp hc
      rw [likeSpecial_iff hl]
      exact (hplain d hd).2
    have hzero : 0 ∉ text := fun h0 => (hplain 0 h0).1 rfl
    have hfilter : kFindUsersByMask lower (encodeUtf8 text) db = _ :=
      kFindUsersByMask_ok hl henc hzero fun u _ => like_between hordinary _
    rw [search_iff_of_filter hfilter]
    intro row _
    rw [decide_eq_true_eq, Contains, characters_lower hl henc]

/-! ## A mask with a wildcard -/

def lowerLetter (c : Nat) : Nat := if 65 ≤ c ∧ c ≤ 90 then c + 32 else c

/-- `lower` in the `C` locale. -/
def lowerAscii (s : StdString) : StdString :=
  match decodeUtf8 s with
  | some text => encodeUtf8 (text.map lowerLetter)
  | none => s

theorem lowersBy_lowerAscii : LowersBy lowerAscii lowerLetter where
  charwise text h := by rw [lowerAscii, decodeUtf8_encodeUtf8 h]
  scalar c h := by
    rw [lowerLetter]
    split
    · next hc =>
      simp only [isScalar, Bool.or_eq_true, Bool.and_eq_true, decide_eq_true_eq]
      omega
    · exact h
  ascii c _ := rfl
  letters c hc hlt := by
    rw [lowerLetter] at hlt
    split at hlt <;> omega

theorem substringSearch_iv : LowersBy lowerAscii lowerLetter ∧
    ∀ db, SubstringSearch lowerAscii (bytes "Iv") db :=
  ⟨lowersBy_lowerAscii,
    (substringSearch_iff_plain lowerAscii lowerLetter lowersBy_lowerAscii
      (bytes "Iv")).mpr ⟨[73, 118], by decide, by decide, by decide⟩⟩

def onlyAnna : Db := reach [.createUser (bytes "anna") (bytes "secret")
  (bytes "Anna")]

/-- Anna is found under a name that her name does not contain. -/
theorem underscore_finds_anna :
    findUsersByNameMask lowerAscii (bytes "A_na") onlyAnna =
      .ok [⟨1, bytes "anna", bytes "secret", bytes "Anna"⟩] ∧
    ¬Contains lowerAscii (bytes "Anna") (bytes "A_na") ∧
    ¬SubstringSearch lowerAscii (bytes "A_na") onlyAnna := by
  have hfound : findUsersByNameMask lowerAscii (bytes "A_na") onlyAnna =
      .ok [⟨1, bytes "anna", bytes "secret", bytes "Anna"⟩] := by
    decide +kernel
  have hnot : ∀ row ∈ onlyAnna.users.rows,
      ¬Contains lowerAscii row.fullName (bytes "A_na") := by
    simp only [Contains]
    decide +kernel
  refine ⟨hfound, by simp only [Contains]; decide +kernel, ?_⟩
  rintro ⟨users, hok, -, hiff⟩
  rw [hfound] at hok
  cases hok
  obtain ⟨row, hrow, -, hcontains⟩ := (hiff _).mp List.mem_cons_self
  exact hnot row hrow hcontains

end TaxiService.Proofs
