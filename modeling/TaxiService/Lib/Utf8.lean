import Mathlib.Data.List.Basic

/-!
# UTF-8

Text is a list of code points, and not every such list can be encoded: a
surrogate cannot, and a Python string may hold one. `encodeUtf8` is the strict
encoder, `decodeUtf8` the strict decoder, with the sequences RFC 3629 rules out
(overlong forms, surrogates, anything past U+10FFFF) refused. Decoding what was
encoded gives the text back, and nothing else decodes.
-/

namespace TaxiService.Lib

/-- A continuation byte of a multi-byte sequence. -/
def isCont (b : UInt8) : Bool := 128 ≤ b && b < 192

/-- The code points of a UTF-8 byte string, `none` when it is not one. The
bounds on the second byte are those of RFC 3629. -/
def decodeUtf8 : List UInt8 → Option (List Nat)
  | [] => some []
  | b0 :: t0 =>
      if b0 < 128 then (decodeUtf8 t0).map (b0.toNat :: ·)
      else match t0 with
        | [] => none
        | b1 :: t1 =>
            if 194 ≤ b0 && b0 < 224 && isCont b1 then
              (decodeUtf8 t1).map
                (((b0.toNat - 192) * 64 + (b1.toNat - 128)) :: ·)
            else match t1 with
              | [] => none
              | b2 :: t2 =>
                  if 224 ≤ b0 && b0 < 240 && isCont b1 && isCont b2 &&
                      (b0 != 224 || 160 ≤ b1) && (b0 != 237 || b1 < 160) then
                    (decodeUtf8 t2).map (((b0.toNat - 224) * 4096 +
                      (b1.toNat - 128) * 64 + (b2.toNat - 128)) :: ·)
                  else match t2 with
                    | [] => none
                    | b3 :: t3 =>
                        if 240 ≤ b0 && b0 < 245 && isCont b1 && isCont b2 &&
                            isCont b3 && (b0 != 240 || 144 ≤ b1) &&
                            (b0 != 244 || b1 < 144) then
                          (decodeUtf8 t3).map (((b0.toNat - 240) * 262144 +
                            (b1.toNat - 128) * 4096 + (b2.toNat - 128) * 64 +
                            (b3.toNat - 128)) :: ·)
                        else none

/-- The code points that have an encoding. -/
def isScalar (c : Nat) : Bool := c < 55296 || (57344 ≤ c && c < 1114112)

/-- The bytes of one code point. -/
def utf8Bytes (c : Nat) : List UInt8 :=
  if c < 128 then [c.toUInt8]
  else if c < 2048 then [(192 + c / 64).toUInt8, (128 + c % 64).toUInt8]
  else if c < 65536 then
    [(224 + c / 4096).toUInt8, (128 + c / 64 % 64).toUInt8,
      (128 + c % 64).toUInt8]
  else
    [(240 + c / 262144).toUInt8, (128 + c / 4096 % 64).toUInt8,
      (128 + c / 64 % 64).toUInt8, (128 + c % 64).toUInt8]

/-- The text has an encoding. -/
def Encodable (s : List Nat) : Prop := ∀ c ∈ s, isScalar c = true

instance (s : List Nat) : Decidable (Encodable s) :=
  inferInstanceAs (Decidable (∀ c ∈ s, isScalar c = true))

/-- The bytes of an encodable text. -/
def encodeUtf8 (s : List Nat) : List UInt8 := s.flatMap utf8Bytes

theorem encodeUtf8_append (s t : List Nat) :
    encodeUtf8 (s ++ t) = encodeUtf8 s ++ encodeUtf8 t := List.flatMap_append

theorem isCont_iff (b : UInt8) :
    isCont b = true ↔ 128 ≤ b.toNat ∧ b.toNat < 192 := by
  simp [isCont, UInt8.le_iff_toNat_le, UInt8.lt_iff_toNat_lt]

theorem decodeUtf8_one {b0 : UInt8} (h0 : b0.toNat < 128) (rest : List UInt8) :
    decodeUtf8 (b0 :: rest) = (decodeUtf8 rest).map (b0.toNat :: ·) := by
  have h : b0 < 128 := UInt8.lt_iff_toNat_lt.mpr h0
  rw [decodeUtf8.eq_def]
  simp only [if_pos h]

/-- Seven-bit bytes are their own characters. -/
theorem decodeUtf8_ascii {s : List UInt8} (h : ∀ b ∈ s, b.toNat < 128) :
    decodeUtf8 s = some (s.map UInt8.toNat) := by
  induction s with
  | nil => rfl
  | cons b s ih =>
      rw [decodeUtf8_one (h b List.mem_cons_self),
        ih fun c hc => h c (List.mem_cons_of_mem b hc)]
      rfl

theorem decodeUtf8_two {b0 b1 : UInt8} (h0 : 194 ≤ b0.toNat)
    (h0' : b0.toNat < 224) (h1 : isCont b1 = true) (rest : List UInt8) :
    decodeUtf8 (b0 :: b1 :: rest) =
      (decodeUtf8 rest).map
        (((b0.toNat - 192) * 64 + (b1.toNat - 128)) :: ·) := by
  have ha : ¬ b0 < 128 := by
    rw [UInt8.lt_iff_toNat_lt]
    show ¬ b0.toNat < 128
    omega
  have hb : (194 ≤ b0 && b0 < 224 && isCont b1) = true := by
    simp [UInt8.le_iff_toNat_le, UInt8.lt_iff_toNat_lt, h0, h0', h1]
  rw [decodeUtf8.eq_def]
  simp only [if_neg ha, hb, if_true]

theorem decodeUtf8_three {b0 b1 b2 : UInt8} (h0 : 224 ≤ b0.toNat)
    (h0' : b0.toNat < 240) (h1 : isCont b1 = true) (h2 : isCont b2 = true)
    (hlow : b0.toNat = 224 → 160 ≤ b1.toNat)
    (hhigh : b0.toNat = 237 → b1.toNat < 160) (rest : List UInt8) :
    decodeUtf8 (b0 :: b1 :: b2 :: rest) =
      (decodeUtf8 rest).map (((b0.toNat - 224) * 4096 +
        (b1.toNat - 128) * 64 + (b2.toNat - 128)) :: ·) := by
  have ha : ¬ b0 < 128 := by
    rw [UInt8.lt_iff_toNat_lt]
    show ¬ b0.toNat < 128
    omega
  have hb : (194 ≤ b0 && b0 < 224 && isCont b1) = false := by
    simp [UInt8.le_iff_toNat_le, UInt8.lt_iff_toNat_lt]
    omega
  have hc : (224 ≤ b0 && b0 < 240 && isCont b1 && isCont b2 &&
      (b0 != 224 || 160 ≤ b1) && (b0 != 237 || b1 < 160)) = true := by
    simp [UInt8.le_iff_toNat_le, UInt8.lt_iff_toNat_lt, h0, h0', h1, h2,
      ← UInt8.toNat_inj]
    omega
  rw [decodeUtf8.eq_def]
  simp only [if_neg ha, hb, hc, if_true]
  rfl

theorem decodeUtf8_four {b0 b1 b2 b3 : UInt8} (h0 : 240 ≤ b0.toNat)
    (h0' : b0.toNat < 245) (h1 : isCont b1 = true) (h2 : isCont b2 = true)
    (h3 : isCont b3 = true) (hlow : b0.toNat = 240 → 144 ≤ b1.toNat)
    (hhigh : b0.toNat = 244 → b1.toNat < 144) (rest : List UInt8) :
    decodeUtf8 (b0 :: b1 :: b2 :: b3 :: rest) =
      (decodeUtf8 rest).map (((b0.toNat - 240) * 262144 +
        (b1.toNat - 128) * 4096 + (b2.toNat - 128) * 64 +
        (b3.toNat - 128)) :: ·) := by
  have ha : ¬ b0 < 128 := by
    rw [UInt8.lt_iff_toNat_lt]
    show ¬ b0.toNat < 128
    omega
  have hb : (194 ≤ b0 && b0 < 224 && isCont b1) = false := by
    simp [UInt8.le_iff_toNat_le, UInt8.lt_iff_toNat_lt]
    omega
  have hc : (224 ≤ b0 && b0 < 240 && isCont b1 && isCont b2 &&
      (b0 != 224 || 160 ≤ b1) && (b0 != 237 || b1 < 160)) = false := by
    have : ¬ b0 < 240 := by
      rw [UInt8.lt_iff_toNat_lt]
      show ¬ b0.toNat < 240
      omega
    simp [this]
  have hd : (240 ≤ b0 && b0 < 245 && isCont b1 && isCont b2 && isCont b3 &&
      (b0 != 240 || 144 ≤ b1) && (b0 != 244 || b1 < 144)) = true := by
    simp [UInt8.le_iff_toNat_le, UInt8.lt_iff_toNat_lt, h0, h0', h1, h2, h3,
      ← UInt8.toNat_inj]
    omega
  rw [decodeUtf8.eq_def]
  simp only [if_neg ha, hb, hc, hd, if_true]
  rfl

theorem toUInt8_toNat {n : Nat} (h : n < 256) : n.toUInt8.toNat = n := by
  rw [Nat.toUInt8, UInt8.toNat_ofNat']
  exact Nat.mod_eq_of_lt h

theorem isCont_toUInt8 {n : Nat} (h : n < 64) :
    isCont (128 + n).toUInt8 = true := by
  rw [isCont_iff, toUInt8_toNat (by omega)]
  omega

/-- One encoded code point is decoded by the rule of its length. -/
theorem decodeUtf8_utf8Bytes {c : Nat} (hc : isScalar c = true)
    (rest : List UInt8) :
    decodeUtf8 (utf8Bytes c ++ rest) = (decodeUtf8 rest).map (c :: ·) := by
  have hmod := fun m : Nat => Nat.mod_lt m (show 0 < 64 by decide)
  have hscalar : c < 55296 ∨ (57344 ≤ c ∧ c < 1114112) := by
    simpa [isScalar] using hc
  rw [utf8Bytes]
  split
  · have h0 := toUInt8_toNat (show c < 256 by omega)
    rw [List.singleton_append, decodeUtf8_one (by omega), h0]
  · split
    · have h0 := toUInt8_toNat (show 192 + c / 64 < 256 by omega)
      have h1 := toUInt8_toNat (show 128 + c % 64 < 256 by omega)
      rw [List.cons_append, List.singleton_append,
        decodeUtf8_two (by omega) (by omega) (isCont_toUInt8 (hmod c)), h0, h1,
        show (192 + c / 64 - 192) * 64 + (128 + c % 64 - 128) = c by omega]
    · split
      · have h0 := toUInt8_toNat (show 224 + c / 4096 < 256 by omega)
        have h1 := toUInt8_toNat (show 128 + c / 64 % 64 < 256 by omega)
        have h2 := toUInt8_toNat (show 128 + c % 64 < 256 by omega)
        rw [List.cons_append, List.cons_append, List.singleton_append,
          decodeUtf8_three (by omega) (by omega) (isCont_toUInt8 (hmod _))
            (isCont_toUInt8 (hmod _)) (by omega) (by omega), h0, h1, h2,
          show (224 + c / 4096 - 224) * 4096 + (128 + c / 64 % 64 - 128) * 64 +
            (128 + c % 64 - 128) = c by omega]
      · have h0 := toUInt8_toNat (show 240 + c / 262144 < 256 by omega)
        have h1 := toUInt8_toNat (show 128 + c / 4096 % 64 < 256 by omega)
        have h2 := toUInt8_toNat (show 128 + c / 64 % 64 < 256 by omega)
        have h3 := toUInt8_toNat (show 128 + c % 64 < 256 by omega)
        rw [List.cons_append, List.cons_append, List.cons_append,
          List.singleton_append,
          decodeUtf8_four (by omega) (by omega) (isCont_toUInt8 (hmod _))
            (isCont_toUInt8 (hmod _)) (isCont_toUInt8 (hmod _)) (by omega)
            (by omega), h0, h1, h2, h3,
          show (240 + c / 262144 - 240) * 262144 +
            (128 + c / 4096 % 64 - 128) * 4096 +
            (128 + c / 64 % 64 - 128) * 64 + (128 + c % 64 - 128) = c by omega]

theorem decodeUtf8_encodeUtf8 {s : List Nat} (h : Encodable s) :
    decodeUtf8 (encodeUtf8 s) = some s := by
  induction s with
  | nil => decide
  | cons c s ih =>
      rw [encodeUtf8, List.flatMap_cons,
        decodeUtf8_utf8Bytes (h c List.mem_cons_self)]
      have hs := ih fun d hd => h d (List.mem_cons_of_mem c hd)
      rw [encodeUtf8] at hs
      rw [hs]
      rfl

/-! ## Decoding and encoding again -/

theorem encodeUtf8_inj {s t : List Nat} (hs : Encodable s) (ht : Encodable t)
    (h : encodeUtf8 s = encodeUtf8 t) : s = t := by
  have hdecode := congrArg decodeUtf8 h
  rw [decodeUtf8_encodeUtf8 hs, decodeUtf8_encodeUtf8 ht] at hdecode
  exact Option.some.inj hdecode

theorem toUInt8_eq {n : Nat} {b : UInt8} (h : n = b.toNat) : n.toUInt8 = b := by
  rw [h, Nat.toUInt8, UInt8.ofNat_toNat]

theorem utf8Bytes_one {b0 : UInt8} (h0 : b0.toNat < 128) :
    isScalar b0.toNat = true ∧ utf8Bytes b0.toNat = [b0] := by
  refine ⟨by simp [isScalar]; omega, ?_⟩
  rw [utf8Bytes, if_pos h0, toUInt8_eq rfl]

theorem utf8Bytes_two {b0 b1 : UInt8} (h0 : 194 ≤ b0.toNat)
    (h0' : b0.toNat < 224) (h1 : isCont b1 = true) :
    let c := (b0.toNat - 192) * 64 + (b1.toNat - 128)
    isScalar c = true ∧ utf8Bytes c = [b0, b1] := by
  intro c
  rw [isCont_iff] at h1
  refine ⟨by simp [isScalar, c]; omega, ?_⟩
  rw [utf8Bytes, if_neg (by omega), if_pos (by omega),
    toUInt8_eq (b := b0) (by omega), toUInt8_eq (b := b1) (by omega)]

theorem utf8Bytes_three {b0 b1 b2 : UInt8} (h0 : 224 ≤ b0.toNat)
    (h0' : b0.toNat < 240) (h1 : isCont b1 = true) (h2 : isCont b2 = true)
    (hlow : b0.toNat = 224 → 160 ≤ b1.toNat)
    (hhigh : b0.toNat = 237 → b1.toNat < 160) :
    let c := (b0.toNat - 224) * 4096 + (b1.toNat - 128) * 64 + (b2.toNat - 128)
    isScalar c = true ∧ utf8Bytes c = [b0, b1, b2] := by
  intro c
  rw [isCont_iff] at h1 h2
  refine ⟨by simp [isScalar, c]; omega, ?_⟩
  rw [utf8Bytes, if_neg (by omega), if_neg (by omega), if_pos (by omega),
    toUInt8_eq (b := b0) (by omega), toUInt8_eq (b := b1) (by omega),
    toUInt8_eq (b := b2) (by omega)]

theorem utf8Bytes_four {b0 b1 b2 b3 : UInt8} (h0 : 240 ≤ b0.toNat)
    (h0' : b0.toNat < 245) (h1 : isCont b1 = true) (h2 : isCont b2 = true)
    (h3 : isCont b3 = true) (hlow : b0.toNat = 240 → 144 ≤ b1.toNat)
    (hhigh : b0.toNat = 244 → b1.toNat < 144) :
    let c := (b0.toNat - 240) * 262144 + (b1.toNat - 128) * 4096 +
      (b2.toNat - 128) * 64 + (b3.toNat - 128)
    isScalar c = true ∧ utf8Bytes c = [b0, b1, b2, b3] := by
  intro c
  rw [isCont_iff] at h1 h2 h3
  refine ⟨by simp [isScalar, c]; omega, ?_⟩
  rw [utf8Bytes, if_neg (by omega), if_neg (by omega), if_neg (by omega),
    toUInt8_eq (b := b0) (by omega), toUInt8_eq (b := b1) (by omega),
    toUInt8_eq (b := b2) (by omega), toUInt8_eq (b := b3) (by omega)]

/-- One more code point in front of what is known to be decoded. -/
theorem sound_cons {c : Nat} {bs rest : List UInt8} {text : List Nat}
    (hc : isScalar c = true ∧ utf8Bytes c = bs)
    (ih : ∀ {text}, decodeUtf8 rest = some text →
      Encodable text ∧ encodeUtf8 text = rest)
    (h : (decodeUtf8 rest).map (c :: ·) = some text) :
    Encodable text ∧ encodeUtf8 text = bs ++ rest := by
  obtain ⟨tail, htail, rfl⟩ := Option.map_eq_some_iff.mp h
  obtain ⟨hencodable, rfl⟩ := ih htail
  exact ⟨List.forall_mem_cons.mpr ⟨hc.1, hencodable⟩,
    congrArg (· ++ encodeUtf8 tail) hc.2⟩

/-- What decodes is the encoding of what it decodes to. -/
theorem decodeUtf8_sound {s : List UInt8} {text : List Nat}
    (h : decodeUtf8 s = some text) : Encodable text ∧ encodeUtf8 text = s := by
  fun_induction decodeUtf8 s generalizing text with
  | case1 => cases h; exact ⟨nofun, rfl⟩
  | case2 b0 rest h0 ih =>
      exact sound_cons (utf8Bytes_one (UInt8.lt_iff_toNat_lt.mp h0)) ih h
  | case4 b0 _ b1 rest hb ih =>
      simp only [Bool.and_eq_true, decide_eq_true_eq, UInt8.le_iff_toNat_le,
        UInt8.lt_iff_toNat_lt] at hb
      exact sound_cons (utf8Bytes_two hb.1.1 hb.1.2 hb.2) ih h
  | case6 b0 _ b1 _ b2 rest hb ih =>
      simp [UInt8.le_iff_toNat_le, UInt8.lt_iff_toNat_lt,
        ← UInt8.toNat_inj] at hb
      obtain ⟨⟨⟨⟨⟨h0, h0'⟩, h1⟩, h2⟩, hlow⟩, hhigh⟩ := hb
      exact sound_cons (utf8Bytes_three h0 h0' h1 h2 (by omega) (by omega)) ih h
  | case8 b0 _ b1 _ b2 _ b3 rest hb ih =>
      simp [UInt8.le_iff_toNat_le, UInt8.lt_iff_toNat_lt,
        ← UInt8.toNat_inj] at hb
      obtain ⟨⟨⟨⟨⟨⟨h0, h0'⟩, h1⟩, h2⟩, h3⟩, hlow⟩, hhigh⟩ := hb
      exact sound_cons (utf8Bytes_four h0 h0' h1 h2 h3 (by omega) (by omega))
        ih h
  | case3 | case5 | case7 | case9 => cases h

/-- A text has at most as many code points as bytes. -/
theorem length_le_encodeUtf8 (text : List Nat) :
    text.length ≤ (encodeUtf8 text).length := by
  induction text with
  | nil => exact Nat.le_refl _
  | cons c text ih =>
      have hc : 1 ≤ (utf8Bytes c).length := by
        rw [utf8Bytes]
        split
        · exact Nat.le_refl _
        · split
          · simp only [List.length_cons]; omega
          · split <;> (simp only [List.length_cons]; omega)
      rw [encodeUtf8] at ih ⊢
      rw [List.flatMap_cons, List.length_append, List.length_cons]
      omega

example : decodeUtf8 [104, 208, 182, 226, 130, 172] =
    some [104, 1078, 8364] := by decide

end TaxiService.Lib
