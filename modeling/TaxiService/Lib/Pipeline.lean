import Mathlib.Data.List.Infix
import Mathlib.Tactic.Common

/-!
# An item that moves through three slots

An item is opened, taken and closed, and every move carries some fields. The
first slot is written over, a move to a later slot takes what is in the slot
before it, which may be nothing, and puts its own fields over it.

Such a machine does not forget what it was told twice. A move that is repeated
finds the slot before it empty, and the fields collected so far are lost. Here
the question is which repetitions are harmless when every copy of a move
carries the same fields: `run_eq_iff` answers it by the last two moves that
concern a slot.
-/

namespace TaxiService.Lib

inductive Slot where
  | opened
  | taken
  | closed
  deriving DecidableEq, Repr

/-- The fields of a record. -/
abbrev Fields (κ α : Type) := κ → Option α

variable {κ α : Type}

/-- The fields of `f`, and those of `g` where `f` has none. -/
def Fields.over (f g : Fields κ α) : Fields κ α := fun k => (f k).or (g k)

def Fields.empty : Fields κ α := fun _ => none

/-- Every field of `f` is one of `g`. -/
def Fields.Covered (f g : Fields κ α) : Prop :=
  ∀ k, (f k).isSome → (g k).isSome

theorem Fields.over_assoc (f g h : Fields κ α) :
    (f.over g).over h = f.over (g.over h) := by
  funext k
  exact Option.or_assoc

@[simp] theorem Fields.over_empty (f : Fields κ α) : f.over empty = f := by
  funext k
  exact Option.or_none

/-- Putting `f` over `g` shows whether `g` was there, unless `f` covers it. -/
theorem Fields.over_eq_left_iff (f g : Fields κ α) :
    f.over g = f ↔ g.Covered f := by
  constructor
  · intro h k hk
    have := congrFun h k
    rw [Fields.over] at this
    cases hf : f k with
    | some v => rfl
    | none =>
        rw [hf] at this
        rw [show g k = none from this] at hk
        cases hk
  · intro h
    funext k
    rw [Fields.over]
    cases hf : f k with
    | some v => rfl
    | none =>
        cases hg : g k with
        | none => rfl
        | some v =>
            have := h k (by rw [hg]; rfl)
            rw [hf] at this
            cases this

theorem Fields.Covered.over_iff (f g h : Fields κ α) :
    (f.over g).Covered h ↔ f.Covered h ∧ g.Covered h := by
  simp only [Covered, Fields.over, Option.isSome_or, Bool.or_eq_true,
    or_imp, forall_and]

/-! ## The machine -/

@[ext] structure Slots (κ α : Type) where
  opened : Option (Fields κ α)
  taken : Option (Fields κ α)
  closed : Option (Fields κ α)

def Slots.empty : Slots κ α := ⟨none, none, none⟩

/-- One move with its fields. -/
def Slots.move (s : Slots κ α) (slot : Slot) (f : Fields κ α) : Slots κ α :=
  match slot with
  | .opened => { s with opened := some f }
  | .taken =>
      { s with opened := none, taken := some (f.over (s.opened.getD .empty)) }
  | .closed =>
      { s with taken := none, closed := some (f.over (s.taken.getD .empty)) }

variable (p : Slot → Fields κ α)

/-- The moves in order, each with the fields `p` has for it. -/
def Slots.run (w : List Slot) : Slots κ α :=
  w.foldl (fun s slot => s.move slot (p slot)) .empty

theorem Slots.run_concat (w : List Slot) (slot : Slot) :
    run p (w ++ [slot]) = (run p w).move slot (p slot) := by
  rw [run, List.foldl_concat]
  rfl

/-- The moves that concern the first slot. -/
def early (w : List Slot) : List Slot := w.filter (· ≠ .closed)

/-- The moves that concern the second slot. -/
def late (w : List Slot) : List Slot := w.filter (· ≠ .opened)

/-- Repetitions that leave no trace: a move is the last that concerns the slot
it empties, and either it found that slot filled or the fields it did not find
are there anyway. -/
structure Absorbed (w : List Slot) : Prop where
  taken : .taken ∈ w → [.opened, .taken] <:+ early w ∨
    [.taken, .taken] <:+ early w ∧ (p .opened).Covered
      (if .closed ∈ w then (p .closed).over (p .taken) else p .taken)
  closed : .taken ∈ w → .closed ∈ w → [.taken, .closed] <:+ late w ∨
    [.closed, .closed] <:+ late w ∧
      ((p .taken).over (p .opened)).Covered (p .closed)

/-! ## What a run ends in -/

theorem suffix_two {w : List Slot} {a b c : Slot} :
    [a, b] <:+ w ++ [c] ↔ [a] <:+ w ∧ b = c := by
  rw [List.suffix_concat_iff]
  constructor
  · rintro (h | ⟨t, h, ht⟩)
    · cases h
    · obtain ⟨rfl, hb⟩ := List.append_inj' (show [a] ++ [b] = t ++ [c] from h) rfl
      cases hb
      exact ⟨ht, rfl⟩
  · rintro ⟨h, rfl⟩
    exact .inr ⟨[a], rfl, h⟩

theorem mem_of_suffix {w : List Slot} {a : Slot} (h : [a] <:+ w) : a ∈ w :=
  h.subset List.mem_cons_self

/-- How a list of two moves can end, when the first occurs in it. -/
theorem ends_of_mem {a b : Slot} {w : List Slot} (hw : ∀ c ∈ w, c = a ∨ c = b)
    (ha : a ∈ w) : [a] <:+ w ∨ [a, b] <:+ w ∨ [b, b] <:+ w := by
  induction w using List.reverseRecOn with
  | nil => cases ha
  | append_singleton w c ih =>
      rcases hw c (by simp) with rfl | rfl
      · exact .inl (by simp)
      · by_cases hca : a = c
        · exact .inl (by simp [hca])
        · have haw : a ∈ w := by simpa [hca] using ha
          simp only [suffix_two, and_true]
          rcases ih (fun d hd => hw d (by simp [hd])) haw with h | h | h
          · exact .inr (.inl h)
          · exact .inr (.inr ((List.suffix_cons a [c]).trans h))
          · exact .inr (.inr ((List.suffix_cons c [c]).trans h))

/-- The slots after a run, by its last moves. `acc` is what the last move to
the second slot put there. -/
structure Track (w : List Slot) (acc : Fields κ α) : Prop where
  opened : (Slots.run p w).opened =
    if [.opened] <:+ early w then some (p .opened) else none
  taken : (Slots.run p w).taken = if [.taken] <:+ late w then some acc else none
  closed : [.closed] <:+ late w → (Slots.run p w).closed =
    some (if [.taken, .closed] <:+ late w then (p .closed).over acc
      else p .closed)
  never : .closed ∉ w → (Slots.run p w).closed = none
  acc : [.taken] <:+ early w → acc =
    if [.opened, .taken] <:+ early w then (p .taken).over (p .opened)
    else p .taken

variable {p} {w : List Slot} {acc : Fields κ α}

theorem Track.init : Track p [] .empty :=
  ⟨rfl, rfl, fun h => absurd (mem_of_suffix h) nofun, fun _ => rfl,
    fun h => absurd (mem_of_suffix h) nofun⟩

theorem Track.toOpened (h : Track p w acc) : Track p (w ++ [.opened]) acc := by
  have he : early (w ++ [.opened]) = early w ++ [.opened] := by simp [early]
  have hl : late (w ++ [.opened]) = late w := by simp [late]
  constructor
  case opened => simp [Slots.run_concat, Slots.move, he]
  case taken => rw [Slots.run_concat, hl]; exact h.taken
  case closed => rw [Slots.run_concat, hl]; exact h.closed
  case never => rw [Slots.run_concat]; exact fun hc => h.never (by simpa using hc)
  case acc => simp [he]

theorem Track.toTaken (h : Track p w acc) : Track p (w ++ [.taken])
    ((p .taken).over ((Slots.run p w).opened.getD .empty)) := by
  have he : early (w ++ [.taken]) = early w ++ [.taken] := by simp [early]
  have hl : late (w ++ [.taken]) = late w ++ [.taken] := by simp [late]
  constructor
  case opened => simp [Slots.run_concat, Slots.move, he]
  case taken => simp [Slots.run_concat, Slots.move, hl]
  case closed => simp [hl]
  case never => rw [Slots.run_concat]; exact fun hc => h.never (by simpa using hc)
  case acc =>
      intro _
      simp only [he, suffix_two, and_true, h.opened]
      split
      · rfl
      · exact Fields.over_empty _

theorem Track.toClosed (h : Track p w acc) : Track p (w ++ [.closed]) acc := by
  have he : early (w ++ [.closed]) = early w := by simp [early]
  have hl : late (w ++ [.closed]) = late w ++ [.closed] := by simp [late]
  constructor
  case opened => rw [Slots.run_concat, he]; exact h.opened
  case taken => simp [Slots.run_concat, Slots.move, hl]
  case closed =>
      intro _
      simp only [Slots.run_concat, Slots.move, hl, suffix_two, and_true, h.taken]
      split
      · rfl
      · exact congrArg some (Fields.over_empty _)
  case never => simp
  case acc => rw [he]; exact h.acc

theorem track (p : Slot → Fields κ α) (w : List Slot) :
    ∃ acc, Track p w acc := by
  induction w using List.reverseRecOn with
  | nil => exact ⟨_, .init⟩
  | append_singleton w slot ih =>
      obtain ⟨acc, h⟩ := ih
      cases slot with
      | opened => exact ⟨_, h.toOpened⟩
      | taken => exact ⟨_, h.toTaken⟩
      | closed => exact ⟨_, h.toClosed⟩

/-! ## Which repetitions are harmless -/

/-- The moves of an item in order and without repetition. -/
def InOrderOnce (w : List Slot) : Prop :=
  w ∈ [[], [Slot.opened], [.opened, .taken], [.opened, .closed],
    [.opened, .taken, .closed]]

instance (w : List Slot) : Decidable (InOrderOnce w) :=
  inferInstanceAs (Decidable (w ∈ [[], [Slot.opened], _, _, _]))

theorem mem_early {slot : Slot} (h : slot ∈ early w) :
    slot = .opened ∨ slot = .taken := by
  cases slot with
  | closed => simp [early] at h
  | _ => simp

theorem mem_late {slot : Slot} (h : slot ∈ late w) :
    slot = .taken ∨ slot = .closed := by
  cases slot with
  | opened => simp [late] at h
  | _ => simp

theorem early_ends (ho : .opened ∈ w) : [.opened] <:+ early w ∨
    [.opened, .taken] <:+ early w ∨ [.taken, .taken] <:+ early w :=
  ends_of_mem (fun _ => mem_early) (by simpa [early] using ho)

theorem late_ends (ht : .taken ∈ w) : [.taken] <:+ late w ∨
    [.taken, .closed] <:+ late w ∨ [.closed, .closed] <:+ late w :=
  ends_of_mem (fun _ => mem_late) (by simpa [late] using ht)

/-- A list has one end of each length. -/
theorem suffix_unique {u v : List Slot} (hu : u <:+ w) (hv : v <:+ w)
    (h : u.length = v.length) : u = v :=
  (List.suffix_of_suffix_length_le hu hv h.le).eq_of_length h

theorem not_suffix {u : List Slot} (hu : u <:+ w) (v : List Slot)
    (h : v ≠ u ∧ v.length = u.length) : ¬ v <:+ w := fun hv =>
  h.1 (suffix_unique hv hu h.2)

theorem suffix_tail {a b : Slot} (h : [a, b] <:+ w) : [b] <:+ w :=
  (List.suffix_cons a [b]).trans h

/-- An item that was opened and taken, and not closed. -/
theorem Track.eq_taken_iff (h : Track p w acc) (ho : .opened ∈ w)
    (ht : .taken ∈ w) (hc : .closed ∉ w) :
    Slots.run p w = ⟨none, some ((p .taken).over (p .opened)), none⟩ ↔
      Absorbed p w := by
  have hlate : [.taken] <:+ late w := by
    rcases late_ends ht with hl | hl | hl
    · exact hl
    all_goals exact absurd (List.mem_of_mem_filter
      (mem_of_suffix (suffix_tail hl))) hc
  rw [Slots.ext_iff, h.opened, h.taken, h.never hc, if_pos hlate]
  simp only [and_true, Option.some.injEq]
  rcases early_ends ho with he | he | he
  · rw [if_pos he]
    refine iff_of_false (fun hn => by cases hn.1) fun ha => ?_
    rcases ha.taken ht with hs | ⟨hs, -⟩
    all_goals exact not_suffix he [.taken] (by decide) (suffix_tail hs)
  · have hne := not_suffix (suffix_tail he) [.opened] (by decide)
    rw [if_neg hne, h.acc (suffix_tail he), if_pos he]
    exact iff_of_true ⟨rfl, rfl⟩ ⟨fun _ => .inl he, fun _ hcl => absurd hcl hc⟩
  · have hne := not_suffix (suffix_tail he) [.opened] (by decide)
    have hne' := not_suffix he [.opened, .taken] (by decide)
    rw [if_neg hne, h.acc (suffix_tail he), if_neg hne', eq_comm (a := p .taken),
      Fields.over_eq_left_iff]
    constructor
    · intro hcov
      exact ⟨fun _ => .inr ⟨he, by rw [if_neg hc]; exact hcov.2⟩,
        fun _ hcl => absurd hcl hc⟩
    · intro ha
      refine ⟨rfl, ?_⟩
      rcases ha.taken ht with hs | ⟨-, hcov⟩
      · exact absurd hs hne'
      · rwa [if_neg hc] at hcov

/-- An item that was opened, taken and closed. -/
theorem Track.eq_closed_iff (h : Track p w acc) (ho : .opened ∈ w)
    (ht : .taken ∈ w) (hc : .closed ∈ w) :
    Slots.run p w = ⟨none, none,
      some ((p .closed).over ((p .taken).over (p .opened)))⟩ ↔
      Absorbed p w := by
  rw [Slots.ext_iff, h.opened, h.taken]
  have hopen : [.opened] <:+ early w → ¬ Absorbed p w := fun he ha => by
    rcases ha.taken ht with hs | ⟨hs, -⟩
    all_goals exact not_suffix he [.taken] (by decide) (suffix_tail hs)
  have htake : [.taken] <:+ late w → ¬ Absorbed p w := fun hl ha => by
    rcases ha.closed ht hc with hs | ⟨hs, -⟩
    all_goals exact not_suffix hl [.closed] (by decide) (suffix_tail hs)
  rcases early_ends ho with he | he
  · rw [if_pos he]
    exact iff_of_false (fun hn => by cases hn.1) (hopen he)
  rcases late_ends ht with hl | hl
  · rw [if_pos hl]
    exact iff_of_false (fun hn => by cases hn.2.1) (htake hl)
  have hearly : [.taken] <:+ early w := he.elim suffix_tail suffix_tail
  have hlate : [.closed] <:+ late w := hl.elim suffix_tail suffix_tail
  rw [if_neg (not_suffix hearly [.opened] (by decide)),
    if_neg (not_suffix hlate [.taken] (by decide)), h.closed hlate, h.acc hearly]
  simp only [true_and, Option.some.injEq]
  rcases hl with hl | hl
  · -- The last close found what the last take had left.
    rw [if_pos hl]
    rcases he with he | he
    · rw [if_pos he]
      exact iff_of_true rfl ⟨fun _ => .inl he, fun _ _ => .inl hl⟩
    · rw [if_neg (not_suffix he [.opened, .taken] (by decide)),
        ← Fields.over_assoc, eq_comm, Fields.over_eq_left_iff]
      constructor
      · intro hcov
        exact ⟨fun _ => .inr ⟨he, by rwa [if_pos hc]⟩, fun _ _ => .inl hl⟩
      · intro ha
        rcases ha.taken ht with hs | ⟨-, hcov⟩
        · exact absurd hs (not_suffix he [.opened, .taken] (by decide))
        · rwa [if_pos hc] at hcov
  · -- The last close found nothing.
    rw [if_neg (not_suffix hl [.taken, .closed] (by decide)), eq_comm,
      Fields.over_eq_left_iff]
    constructor
    · intro hcov
      refine ⟨fun _ => he.imp_right fun he => ⟨he, ?_⟩, fun _ _ => .inr ⟨hl, hcov⟩⟩
      rw [if_pos hc]
      intro k hk
      have := ((Fields.Covered.over_iff _ _ _).mp hcov).2 k hk
      simp [Fields.over, this]
    · intro ha
      rcases ha.closed ht hc with hs | ⟨-, hcov⟩
      · exact absurd hs (not_suffix hl [.taken, .closed] (by decide))
      · exact hcov

/-- An item that was opened and not taken. -/
theorem Track.untaken (h : Track p w acc) (ho : .opened ∈ w)
    (ht : .taken ∉ w) : Slots.run p w = ⟨some (p .opened), none,
      if .closed ∈ w then some (p .closed) else none⟩ := by
  have hearly : [.opened] <:+ early w := by
    rcases early_ends ho with he | he | he
    · exact he
    all_goals exact absurd (List.mem_of_mem_filter
      (mem_of_suffix (suffix_tail he))) ht
  have hlate : ¬ [.taken] <:+ late w := fun hl =>
    ht (List.mem_of_mem_filter (mem_of_suffix hl))
  refine Slots.ext ?_ ?_ ?_
  · rw [h.opened, if_pos hearly]
  · rw [h.taken, if_neg hlate]
  · split
    · next hc =>
        have hmem : .closed ∈ late w := by simpa [late] using hc
        have hends := ends_of_mem (fun _ hs => (mem_late hs).symm) hmem
        have hl : [.closed] <:+ late w := by
          rcases hends with hl | hl | hl
          · exact hl
          all_goals exact absurd (suffix_tail hl) hlate
        have hnot : ¬ [.taken, .closed] <:+ late w := fun hs =>
          ht (List.mem_of_mem_filter (hs.subset List.mem_cons_self))
        rw [h.closed hl, if_neg hnot]
    · next hc => exact h.never hc

/-- A word with the moves of an orderly one ends in the same slots exactly
when its repetitions are absorbed. -/
theorem run_eq_iff {c : List Slot} (hc : InOrderOnce c)
    (hw : ∀ slot, slot ∈ w ↔ slot ∈ c) :
    Slots.run p w = Slots.run p c ↔ Absorbed p w := by
  obtain ⟨acc, h⟩ := track p w
  have huntaken : .taken ∉ w → Absorbed p w := fun ht =>
    ⟨fun h => absurd h ht, fun h => absurd h ht⟩
  simp only [InOrderOnce, List.mem_cons, List.not_mem_nil, or_false] at hc
  rcases hc with rfl | rfl | rfl | rfl | rfl
  · have : w = [] := List.eq_nil_iff_forall_not_mem.mpr fun slot hs => by
      cases (hw slot).mp hs
    subst this
    exact iff_of_true rfl (huntaken nofun)
  · have ht : .taken ∉ w := by simp [hw]
    refine iff_of_true ?_ (huntaken ht)
    rw [h.untaken (by simp [hw]) ht, if_neg (by simp [hw])]
    rfl
  · exact h.eq_taken_iff (by simp [hw]) (by simp [hw]) (by simp [hw])
  · have ht : .taken ∉ w := by simp [hw]
    refine iff_of_true ?_ (huntaken ht)
    rw [h.untaken (by simp [hw]) ht, if_pos (by simp [hw])]
    exact Slots.ext rfl rfl (congrArg some (Fields.over_empty _).symm)
  · exact h.eq_closed_iff (by simp [hw]) (by simp [hw]) (by simp [hw])

end TaxiService.Lib
