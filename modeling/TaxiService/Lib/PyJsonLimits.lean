import TaxiService.Lib.PyJsonRoundTrip
import TaxiService.Lib.PyJsonStrings

/-!
# What a document takes

Writing a value needs a frame for every container that is open, an integer
that is not too long, and an encoding. A text of the generator can be written
when it has all three (`Chunk.Fits`), and all texts of a value can when the
value has them (`fits_iterencode`). The frames and the digits of a text are two
instances of one cost, which grows with the level and takes a scalar's own at
the end.

`PyJson.Saves` goes through dicts and lists entry by entry, with one container
less to open each time.
-/

namespace TaxiService.Lib

variable {F : Type} (fl : PyFloat F)

/-! ## Measures of containers -/

section

variable {step : Nat} {leaf : PyJson F → Nat} {n : Nat}

theorem measureItems_le {items : List (PyJson F)} :
    measureItems step leaf items ≤ n ↔
      ∀ v ∈ items, v.measure step leaf ≤ n := by
  induction items with
  | nil => simp [measureItems]
  | cons v items ih =>
      rw [measureItems, Nat.max_le, ih, List.forall_mem_cons]

theorem measureEntries_le {entries : List (PyStr × PyJson F)} :
    measureEntries step leaf entries ≤ n ↔
      ∀ e ∈ entries, e.2.measure step leaf ≤ n := by
  induction entries with
  | nil => simp [measureEntries]
  | cons e entries ih =>
      obtain ⟨k, v⟩ := e
      rw [measureEntries, measureEntry, Nat.max_le, ih, List.forall_mem_cons]

mutual

theorem measure_mono {leaf' : PyJson F → Nat} (h : ∀ v, leaf v ≤ leaf' v) :
    ∀ v : PyJson F, v.measure step leaf ≤ v.measure step leaf'
  | .null | .bool _ | .int _ | .float _ | .str _ => h _
  | .list items => Nat.add_le_add_left (measureItems_mono h items) step
  | .dict entries => Nat.add_le_add_left (measureEntries_mono h entries) step

theorem measureItems_mono {leaf' : PyJson F → Nat}
    (h : ∀ v, leaf v ≤ leaf' v) : ∀ vs : List (PyJson F),
    measureItems step leaf vs ≤ measureItems step leaf' vs
  | [] => Nat.le_refl _
  | v :: vs => by
      have hv := measure_mono h v
      have hvs := measureItems_mono h vs
      rw [measureItems, measureItems]
      omega

theorem measureEntries_mono {leaf' : PyJson F → Nat}
    (h : ∀ v, leaf v ≤ leaf' v) : ∀ es : List (PyStr × PyJson F),
    measureEntries step leaf es ≤ measureEntries step leaf' es
  | [] => Nat.le_refl _
  | (k, v) :: es => by
      have hv := measure_mono h v
      have hes := measureEntries_mono h es
      rw [measureEntries, measureEntries, measureEntry, measureEntry]
      omega

end

end

/-- Reading a value back goes no deeper than writing it did. -/
theorem nesting_le_frames (v : PyJson F) : v.nesting ≤ v.frames :=
  measure_mono (fun _ => Nat.zero_le _) v

/-! ## The texts of a value -/

/-- What is open costs its part whether or not there is something inside. -/
theorem base_and_iff {A : Prop} {b m n : Nat}
    (h : b ≤ n → (A ↔ b + m ≤ n)) : A ∧ b ≤ n ↔ b + m ≤ n := by
  constructor
  · rintro ⟨ha, hb⟩
    exact (h hb).mp ha
  · intro hm
    have hb : b ≤ n := by omega
    exact ⟨(h hb).mpr hm, hb⟩

/-- A cost that grows by `step` with the level, and by what a scalar takes. -/
structure ChunkCost (cost : Chunk → Nat) (step : Nat) (leaf : PyJson F → Nat) :
    Prop where
  plain : ∀ level text, cost (.plain level text) = step * level
  scalar : ∀ level (v : PyJson F) text,
    cost (.scalar level v text) = step * level + leaf v

section

variable {cost : Chunk → Nat} {step : Nat} {leaf : PyJson F → Nat} {n : Nat}
  (hcost : ChunkCost cost step leaf)

include hcost

theorem cost_scalar {v : PyJson F} {text : PyStr}
    (h : scalarText fl v = some text) (level : Nat) (s : PyStr) :
    cost (.scalar level v s) = step * level + v.measure step leaf := by
  rw [hcost.scalar]
  cases v with
  | list items => cases h
  | dict entries => cases h
  | _ => rfl

mutual

theorem cost_iterencode : ∀ (v : PyJson F) (level : Nat),
    (∀ c ∈ iterencode fl level v, cost c ≤ n) ↔
      step * level + v.measure step leaf ≤ n
  | .null, _ | .bool true, _ | .bool false, _ | .int _, _ | .float _, _
  | .str _, _ => by
      rw [iterencode, List.forall_mem_singleton, hcost.scalar]
      · rfl
      all_goals nofun
  | .list [], level => by
      rw [iterencode, List.forall_mem_singleton, hcost.plain, Nat.mul_add_one]
      exact Iff.rfl
  | .list (v :: vs), level => by
      have hitems := cost_iterencodeItems (v :: vs) (level + 1)
        (91 :: newline (level + 1))
      have hend : (∀ c ∈ [Chunk.plain (level + 1) (newline level),
          .plain (level + 1) (py "]")], cost c ≤ n) ↔
          step * (level + 1) ≤ n := by
        simp [hcost.plain]
      rw [iterencode, List.forall_mem_append, hend, base_and_iff hitems,
        PyJson.measure, ← Nat.add_assoc, ← Nat.mul_add_one]
  | .dict [], level => by
      rw [iterencode, List.forall_mem_singleton, hcost.plain, Nat.mul_add_one]
      exact Iff.rfl
  | .dict (e :: es), level => by
      have hentries := cost_iterencodeEntries (e :: es) (level + 1) [] nofun
      have hend : (∀ c ∈ [Chunk.plain (level + 1) (newline level),
          .plain (level + 1) (py "\x7d")], cost c ≤ n) ↔
          step * (level + 1) ≤ n := by
        simp [hcost.plain]
      rw [iterencode, List.forall_mem_cons, List.forall_mem_cons,
        List.forall_mem_append, hend, base_and_iff hentries, hcost.plain,
        hcost.plain, PyJson.measure, ← Nat.add_assoc, ← Nat.mul_add_one]
      omega

theorem cost_iterencodeItems : ∀ (vs : List (PyJson F)) (level : Nat)
    (buf : PyStr), step * level ≤ n →
    ((∀ c ∈ iterencodeItems fl level buf vs, cost c ≤ n) ↔
      step * level + measureItems step leaf vs ≤ n)
  | [], _, _, h => iff_of_true nofun h
  | v :: vs, level, buf, h => by
      have hvs := cost_iterencodeItems vs level (separator level) h
      have hv := cost_iterencode v level
      rw [iterencodeItems, measureItems, List.forall_mem_append, hvs]
      cases htext : scalarText fl v with
      | some text =>
          have hscalar := cost_scalar fl hcost htext level (buf ++ text)
          show (∀ c ∈ [Chunk.scalar level v (buf ++ text)], cost c ≤ n) ∧ _ ↔ _
          rw [List.forall_mem_singleton, hscalar]
          omega
      | none =>
          show (∀ c ∈ Chunk.plain level buf :: iterencode fl level v,
            cost c ≤ n) ∧ _ ↔ _
          rw [List.forall_mem_cons, hv, hcost.plain]
          omega

theorem cost_iterencodeEntries : ∀ (es : List (PyStr × PyJson F))
    (level : Nat) (before : List Chunk),
    (∀ c ∈ before, cost c = step * level) → step * level ≤ n →
    ((∀ c ∈ iterencodeEntries fl level before es, cost c ≤ n) ↔
      step * level + measureEntries step leaf es ≤ n)
  | [], _, _, _, h => iff_of_true nofun h
  | (k, v) :: es, level, before, hbefore, h => by
      have hes := cost_iterencodeEntries es level
        [.plain level (separator level)] (by simp [hcost.plain]) h
      have hv := cost_iterencode v level
      have hb : (∀ c ∈ before, cost c ≤ n) ↔ True :=
        iff_true_intro fun c hc => (hbefore c hc).trans_le h
      rw [iterencodeEntries, iterencodeEntry, measureEntries, measureEntry,
        List.forall_mem_append, List.forall_mem_append, List.forall_mem_cons,
        List.forall_mem_cons, hes, hv, hcost.plain, hcost.plain, hb, true_and]
      omega

end

end

theorem frames_iterencode (v : PyJson F) (level n : Nat) :
    (∀ c ∈ iterencode fl level v, c.frames ≤ n) ↔ level + v.frames ≤ n := by
  have hcost : ChunkCost (F := F) Chunk.frames 1 scalarFrames :=
    ⟨fun _ _ => (Nat.one_mul _).symm, fun level v _ => by
      rw [Nat.one_mul]
      rfl⟩
  have h := cost_iterencode fl hcost (n := n) v level
  rwa [Nat.one_mul] at h

theorem digits_iterencode (v : PyJson F) (level n : Nat) :
    (∀ c ∈ iterencode fl level v, c.digits ≤ n) ↔ v.digits ≤ n := by
  have hcost : ChunkCost (F := F) Chunk.digits 0 scalarDigits :=
    ⟨fun _ _ => (Nat.zero_mul _).symm, fun level v _ => by
      rw [Nat.zero_mul, Nat.zero_add]
      rfl⟩
  have h := cost_iterencode fl hcost (n := n) v level
  rwa [Nat.zero_mul, Nat.zero_add] at h

/-! ## What can be written -/

/-- The text can be written: there are frames for it, its integer is not too
long, and it has an encoding. -/
def Chunk.Fits (frames digits : Nat) (c : Chunk) : Prop :=
  c.frames ≤ frames ∧ c.digits ≤ digits ∧ Encodable c.text

instance (frames digits : Nat) (c : Chunk) : Decidable (c.Fits frames digits) :=
  inferInstanceAs (Decidable (_ ∧ _ ∧ _))

/-- The value can be written inside `level` containers. -/
def PyJson.Saves (frames digits level : Nat) (v : PyJson F) : Prop :=
  level + v.frames ≤ frames ∧ v.digits ≤ digits ∧ v.Writable

instance (frames digits level : Nat) (v : PyJson F) :
    Decidable (v.Saves frames digits level) :=
  inferInstanceAs (Decidable (_ ∧ _ ∧ _))

theorem fits_iterencode (v : PyJson F) (frames digits level : Nat) :
    (∀ c ∈ iterencode fl level v, c.Fits frames digits) ↔
      v.Saves frames digits level := by
  rw [PyJson.Saves, ← frames_iterencode fl v level, ← digits_iterencode fl v
    level, ← encodable_iterencode fl v level]
  simp only [Chunk.Fits, imp_and, forall_and]

section

variable {frames digits level : Nat}

theorem saves_str {s : PyStr} : (.str s : PyJson F).Saves frames digits level ↔
    level ≤ frames ∧ Encodable s := by
  rw [PyJson.Saves, writable_str]
  exact and_congr_right fun _ => and_iff_right (Nat.zero_le _)

theorem saves_dict {entries : Assoc PyStr (PyJson F)} :
    (.dict entries : PyJson F).Saves frames digits level ↔ level < frames ∧
      Entries (PyJson.Saves frames digits (level + 1)) entries := by
  have hd : (.dict entries : PyJson F).digits =
      measureEntries 0 scalarDigits entries := Nat.zero_add _
  have hf : level + (.dict entries : PyJson F).frames ≤ frames ↔
      level < frames ∧
        measureEntries 1 scalarFrames entries ≤ frames - (level + 1) := by
    show level + (1 + _) ≤ frames ↔ _
    omega
  rw [PyJson.Saves, hf, hd, measureEntries_le, measureEntries_le,
    writable_entries, and_assoc]
  refine and_congr_right fun hlevel => ?_
  have hle : ∀ v : PyJson F, v.measure 1 scalarFrames ≤ frames - (level + 1) ↔
      level + 1 + v.frames ≤ frames := fun v => by
    show _ ↔ level + 1 + v.measure 1 scalarFrames ≤ frames
    omega
  simp only [Entries, PyJson.Saves, hle, imp_and, forall_and]
  constructor
  · rintro ⟨hframes, hdigits, hkeys, hvalues⟩
    exact ⟨hkeys, hframes, hdigits, hvalues⟩
  · rintro ⟨hkeys, hframes, hdigits, hvalues⟩
    exact ⟨hframes, hdigits, hkeys, hvalues⟩

theorem saves_list {items : List (PyJson F)} :
    (.list items : PyJson F).Saves frames digits level ↔ level < frames ∧
      ∀ v ∈ items, v.Saves frames digits (level + 1) := by
  have hd : (.list items : PyJson F).digits =
      measureItems 0 scalarDigits items := Nat.zero_add _
  have hf : level + (.list items : PyJson F).frames ≤ frames ↔
      level < frames ∧
        measureItems 1 scalarFrames items ≤ frames - (level + 1) := by
    show level + (1 + _) ≤ frames ↔ _
    omega
  rw [PyJson.Saves, hf, hd, measureItems_le, measureItems_le, writable_items,
    and_assoc]
  refine and_congr_right fun hlevel => ?_
  have hle : ∀ v : PyJson F, v.measure 1 scalarFrames ≤ frames - (level + 1) ↔
      level + 1 + v.frames ≤ frames := fun v => by
    show _ ↔ level + 1 + v.measure 1 scalarFrames ≤ frames
    omega
  simp only [PyJson.Saves, hle, imp_and, forall_and]
  exact Iff.rfl

theorem PyJson.Saves.mono {v : PyJson F} {level' : Nat}
    (h : v.Saves frames digits level) (hle : level' ≤ level) :
    v.Saves frames digits level' :=
  ⟨(Nat.add_le_add_right hle _).trans h.1, h.2⟩

end

end TaxiService.Lib
