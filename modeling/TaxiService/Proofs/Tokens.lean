import TaxiService.Lib.Decimal
import TaxiService.Model.StorageOps
import TaxiService.Spec.Auth

/-!
# No token twice

A token is the text of two integers around a separator that is also their
sign, and it can be read back (`makeToken_injective`): the text of the first
integer ends at the first separator that is not its own sign. The second
integer is the number of the call, so a call issues a token that is not in the
table yet, as long as the counter has not wrapped (`Numbered`). The table is then
the list of what was granted, in order (`run_tokens`), and everything said of
the table below is read off that list.
-/

namespace TaxiService.Proofs

open TaxiService.Lib TaxiService.Model TaxiService.Spec

/-! ## The text of a token -/

/-- `std::to_string` writes bytes. -/
def byteUnits : CodeUnits UInt8 := ⟨45, fun c => c.toNat.toUInt8⟩

theorem isDigit_toNat {c : Char} (h : c.isDigit = true) :
    48 ≤ c.toNat ∧ c.toNat ≤ 57 := by
  simp only [Char.isDigit, Bool.and_eq_true, decide_eq_true_eq] at h
  exact ⟨h.1, h.2⟩

theorem byteUnits_distinct : byteUnits.Distinct where
  digit_inj c d hc hd h := by
    have hc := isDigit_toNat hc
    have hd := isDigit_toNat hd
    have hn := congrArg UInt8.toNat h
    simp only [byteUnits, Nat.toUInt8_eq, UInt8.toNat_ofNat'] at hn
    exact Char.toNat_inj.mp (by omega)
  digit_ne_minus c hc h := by
    have hc := isDigit_toNat hc
    have hn := congrArg UInt8.toNat h
    simp only [byteUnits, Nat.toUInt8_eq, UInt8.toNat_ofNat',
      UInt8.reduceToNat] at hn
    omega

theorem toDecimal_eq_numeral (n : Int) :
    toDecimal n = byteUnits.numeral n := rfl

theorem makeToken_eq (userId tokenId : Int) :
    makeToken userId tokenId = bytes "token-" ++
      (byteUnits.numeral userId ++
        byteUnits.minus :: byteUnits.numeral tokenId) := by
  simp only [makeToken, toDecimal_eq_numeral, List.append_assoc]
  rfl

theorem makeToken_injective {u n u' n' : Int}
    (h : makeToken u n = makeToken u' n') : u = u' ∧ n = n' := by
  rw [makeToken_eq, makeToken_eq] at h
  obtain ⟨hu, hn⟩ := CodeUnits.numeral_append_minus byteUnits_distinct
    (List.append_cancel_left h)
  exact ⟨hu, CodeUnits.numeral_injective byteUnits_distinct hn⟩

/-! ## The counter and the table -/

/-- The counter has not wrapped, and every token of the table carries an
earlier reading of it. -/
structure Numbered (s : Tokens) : Prop where
  keyed : s.tokens.Keyed
  next : s.nextTokenId = s.tokens.length + 1
  earlier : ∀ entry ∈ s.tokens, ∃ n < s.nextTokenId,
    entry.1 = makeToken entry.2 n

theorem numbered_start : Numbered Tokens.start where
  keyed := List.nodup_nil
  next := rfl
  earlier _ h := absurd h List.not_mem_nil

theorem Numbered.makeToken_notMem {s : Tokens} (h : Numbered s) (userId : Int) :
    makeToken userId s.nextTokenId ∉ s.tokens.map Prod.fst := by
  intro hmem
  obtain ⟨entry, hentry, heq⟩ := List.mem_map.mp hmem
  obtain ⟨n, hn, hkey⟩ := h.earlier entry hentry
  have := (makeToken_injective (hkey.symm.trans heq)).2
  omega

theorem nextInt_eq {n : Int} (h0 : 0 ≤ n) (h : n < 2147483647) :
    nextInt n = n + 1 := by
  rw [nextInt, Int.bmod_eq_of_le (by omega) (by omega)]

/-- The one thing a step can do to the table: enter the token it grants. -/
theorem authStep_cases (s : Tokens) (e : AuthEvent) :
    (grant s e = none ∧ authStep s e = s) ∨
    ∃ userId, grant s e = some (makeToken userId s.nextTokenId, userId) ∧
      authStep s e = ⟨nextInt s.nextTokenId,
        s.tokens.set (makeToken userId s.nextTokenId) userId⟩ := by
  cases e with
  | request path authHeader => exact .inl ⟨rfl, rfl⟩
  | login db login password =>
      rw [grant, authStep, Tokens.login]
      cases getUserByLogin login db with
      | error e => exact .inl ⟨rfl, rfl⟩
      | ok found =>
          cases found with
          | none => exact .inl ⟨rfl, rfl⟩
          | some user =>
              by_cases hp : (user.password != password) = true
              · refine .inl ⟨?_, ?_⟩
                · simp only [if_pos hp]
                · simp only [if_pos hp]
              · simp only [if_neg hp]
                exact .inr ⟨user.id, rfl, rfl⟩

theorem Numbered.enter {s : Tokens} (h : Numbered s)
    (hroom : s.tokens.length + 1 < 2147483647) (userId : Int) :
    Numbered ⟨nextInt s.nextTokenId,
      s.tokens ++ [(makeToken userId s.nextTokenId, userId)]⟩ := by
  have hnext := h.next
  have hnew : nextInt s.nextTokenId = s.nextTokenId + 1 :=
    nextInt_eq (by omega) (by omega)
  refine ⟨?_, ?_, ?_⟩
  · have hset := h.keyed.set (makeToken userId s.nextTokenId) userId
    rwa [Assoc.set_new (h.makeToken_notMem userId)] at hset
  · simp only [List.length_append, List.length_singleton]
    omega
  · intro entry hentry
    simp only [List.mem_append, List.mem_singleton] at hentry
    rcases hentry with hold | rfl
    · obtain ⟨n, hn, heq⟩ := h.earlier entry hold
      exact ⟨n, by simp only [hnew]; omega, heq⟩
    · exact ⟨s.nextTokenId, by simp only [hnew]; omega, rfl⟩

/-- The table after a run is the table before it and what the run granted. -/
theorem run_tokens (events : List AuthEvent) : ∀ {s : Tokens}, Numbered s →
    s.tokens.length + (grants s events).length < 2147483647 →
    Numbered (run authStep s events) ∧
      (run authStep s events).tokens = s.tokens ++ grants s events := by
  induction events with
  | nil => intro s h _; exact ⟨h, (List.append_nil _).symm⟩
  | cons e events ih =>
      intro s h hroom
      rw [grants] at hroom ⊢
      rw [run_cons]
      rcases authStep_cases s e with ⟨hgrant, hstep⟩ | ⟨userId, hgrant, hstep⟩
      · rw [hgrant, hstep] at hroom ⊢
        exact ih h hroom
      · rw [Assoc.set_new (h.makeToken_notMem userId)] at hstep
        rw [hgrant] at hroom ⊢
        simp only [Option.toList_some, List.length_append,
          List.length_singleton] at hroom
        have hnumbered := hstep ▸ h.enter (by omega) userId
        obtain ⟨hend, heq⟩ := ih hnumbered (by
          rw [hstep, List.length_append, List.length_singleton, ← hstep]
          omega)
        refine ⟨hend, ?_⟩
        rw [heq, hstep, Option.toList_some, List.append_assoc]

theorem grants_append (s : Tokens) (before after : List AuthEvent) :
    grants s (before ++ after) =
      grants s before ++ grants (run authStep s before) after := by
  induction before generalizing s with
  | nil => rfl
  | cons e before ih =>
      rw [List.cons_append, grants, grants, ih, run_cons, List.append_assoc]

/-! ## The result -/

/-- Every run with fewer than `2^31 - 1` successful calls of `Login`: no token
is returned twice, the table has one entry for each such call and no other,
and what it says of a token it keeps saying. -/
theorem tokens_unique (events : List AuthEvent)
    (hfew : (grants .start events).length < 2147483647) :
    ((grants .start events).map Prod.fst).Nodup ∧
    (run authStep .start events).tokens.Perm (grants .start events) ∧
    (∀ token userId,
      (run authStep .start events).tokens.get? token = some userId ↔
        (token, userId) ∈ grants .start events) ∧
    (∀ before after, events = before ++ after → ∀ token userId,
      (run authStep .start before).tokens.get? token = some userId →
        (run authStep .start events).tokens.get? token = some userId) ∧
    ∀ u n u' n', makeToken u n = makeToken u' n' → u = u' ∧ n = n' := by
  obtain ⟨hnumbered, htable⟩ := run_tokens events numbered_start
    (by simpa [Tokens.start] using hfew)
  have hkeyed := hnumbered.keyed
  have hlookup : ∀ token userId,
      (run authStep .start events).tokens.get? token = some userId ↔
        (token, userId) ∈ grants .start events := by
    intro token userId
    rw [show grants .start events = _ from htable.symm]
    exact ⟨Assoc.mem_of_get?, Assoc.get?_of_mem hkeyed⟩
  refine ⟨?_, ?_, hlookup, ?_, fun u n u' n' => makeToken_injective⟩
  · rw [Assoc.Keyed, htable] at hkeyed
    exact hkeyed
  · rw [htable]
    exact List.Perm.refl _
  · rintro before after rfl token userId hget
    rw [grants_append, List.length_append] at hfew
    have hstart : Tokens.start.tokens.length = 0 := rfl
    obtain ⟨-, hbefore⟩ := run_tokens before numbered_start (by omega)
    rw [hlookup, grants_append]
    refine List.mem_append_left _ ?_
    have hmem := Assoc.mem_of_get? hget
    rw [hbefore] at hmem
    exact hmem

/-- The users 1 and 2, with passwords. -/
def twoUsers : Db :=
  reach [.createUser (bytes "anna") (bytes "secret") (bytes "Anna"),
    .createUser (bytes "boris") (bytes "qwerty") (bytes "Boris")]

def threeLogins : List AuthEvent :=
  [.login twoUsers (bytes "anna") (bytes "secret"),
    .login twoUsers (bytes "anna") (bytes "guess"),
    .login twoUsers (bytes "boris") (bytes "qwerty"),
    .request (bytes "/rides") [],
    .login twoUsers (bytes "anna") (bytes "secret")]

/-- Two users log in three times, and one call fails in between. -/
theorem tokens_unique_logins :
    ((grants .start threeLogins).map Prod.fst).Nodup :=
  (tokens_unique threeLogins (by decide +kernel)).1

end TaxiService.Proofs
