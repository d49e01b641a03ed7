import Mathlib.Data.List.Induction
import TaxiService.Spec.Auth

/-!
# The gate

The table holds the tokens issued so far, no more and no fewer
(`isTokenValid_iff`), by induction on the run. What the middleware looks up in
it is what stands behind the prefix, and that is a whole token or the request
is refused.
-/

namespace TaxiService.Proofs

open TaxiService.Lib TaxiService.Model TaxiService.Spec

/-! ## The table -/

/-- A call of `Login` makes the token valid that it returns, and no other. -/
theorem isTokenValid_login (s : Tokens) (login password : StdString) (db : Db)
    (token : StdString) :
    (s.login login password db).2.isTokenValid token = true ↔
      (s.login login password db).1 = .ok (some token) ∨
        s.isTokenValid token = true := by
  rw [Tokens.login]
  split
  · simp
  · simp
  · split
    · simp
    · simp only [Tokens.isTokenValid, Assoc.get?_set, Except.ok.injEq,
        Option.some.injEq]
      split
      · next h => simp [h]
      · next h => simp [h]

theorem issued_concat (events : List AuthEvent) (e : AuthEvent)
    (token : StdString) : Issued (events ++ [e]) token ↔
      Issued events token ∨ ∃ db login password, e = .login db login password ∧
        ((run authStep .start events).login login password db).1 =
          .ok (some token) := by
  constructor
  · rintro ⟨before, db, login, password, after, heq, htoken⟩
    rcases after.eq_nil_or_concat with rfl | ⟨after, e', rfl⟩
    · obtain ⟨rfl, he⟩ := List.append_inj' heq rfl
      cases he
      exact .inr ⟨db, login, password, rfl, htoken⟩
    · rw [List.concat_eq_append, ← List.cons_append, ← List.append_assoc] at heq
      obtain ⟨rfl, -⟩ := List.append_inj' heq rfl
      exact .inl ⟨before, db, login, password, after, rfl, htoken⟩
  · rintro (⟨before, db, login, password, after, rfl, htoken⟩ |
      ⟨db, login, password, rfl, htoken⟩)
    · exact ⟨before, db, login, password, after ++ [e], by simp, htoken⟩
    · exact ⟨events, db, login, password, [], rfl, htoken⟩

/-- The valid tokens are those that were issued. -/
theorem isTokenValid_iff (events : List AuthEvent) (token : StdString) :
    (run authStep .start events).isTokenValid token = true ↔
      Issued events token := by
  induction events using List.reverseRecOn with
  | nil =>
      refine iff_of_false (by simp [Tokens.isTokenValid, Tokens.start]) ?_
      rintro ⟨before, db, login, password, after, heq, -⟩
      simp at heq
  | append_singleton events e ih =>
      rw [run_concat, issued_concat]
      cases e with
      | login db login password =>
          show (Tokens.login _ _ _ _).2.isTokenValid token = true ↔ _
          rw [isTokenValid_login, ih, or_comm]
          simp
      | request path authHeader => simp [authStep, ih]

theorem issued_append {events : List AuthEvent} {token : StdString}
    (h : Issued events token) (later : List AuthEvent) :
    Issued (events ++ later) token := by
  obtain ⟨before, db, login, password, after, rfl, htoken⟩ := h
  exact ⟨before, db, login, password, after ++ later, by simp, htoken⟩

/-! ## The middleware -/

theorem isPublicRequest_iff (path : StdString) :
    isPublicRequest path = true ↔ Public path := by
  simp only [isPublicRequest, Public, startsWith, Bool.if_true_left,
    Bool.or_eq_true, beq_iff_eq, decide_eq_true_eq, List.mem_cons,
    List.not_mem_nil, or_false, List.isPrefixOf_iff_prefix, or_assoc]

/-- The header has something behind the prefix. -/
theorem bearer_iff (authHeader : StdString) :
    (kBearerPrefix.length < authHeader.length ∧
      authHeader.take kBearerPrefix.length = kBearerPrefix) ↔
      authHeader.drop kBearerPrefix.length ≠ [] ∧
        authHeader = kBearerPrefix ++ authHeader.drop kBearerPrefix.length := by
  rw [Ne, List.drop_eq_nil_iff, not_le]
  refine and_congr_right fun hlt => ⟨fun h => ?_, fun h => ?_⟩
  · rw [← h, List.length_take_of_le hlt.le, List.take_append_drop]
  · rw [h, List.take_left]

theorem handleRequest_next_iff (s : Tokens) (path authHeader : StdString) :
    handleRequest s path authHeader = .next ↔ Public path ∨
      ∃ token, token ≠ [] ∧ s.isTokenValid token = true ∧
        authHeader = kBearerPrefix ++ token := by
  rw [← isPublicRequest_iff, handleRequest]
  by_cases hpath : isPublicRequest path = true
  · simp [hpath]
  rw [if_neg hpath]
  by_cases hb : kBearerPrefix.length < authHeader.length ∧
      authHeader.take kBearerPrefix.length = kBearerPrefix
  · rw [if_neg (by simpa using hb)]
    obtain ⟨hne, heq⟩ := (bearer_iff authHeader).mp hb
    constructor
    · intro h
      refine .inr ⟨_, hne, ?_, heq⟩
      by_contra hv
      simp [hv] at h
    · rintro (h | ⟨token, -, hv, rfl⟩)
      · exact absurd h hpath
      · simp [hv]
  · rw [if_pos (by simpa [-not_and, not_and_or] using hb)]
    refine iff_of_false nofun ?_
    rintro (h | ⟨token, hne, -, rfl⟩)
    · exact hpath h
    · exact hb ((bearer_iff _).mpr ⟨by rwa [List.drop_left],
        by rw [List.drop_left]⟩)

/-! ## The gate -/

theorem admitted_iff (events : List AuthEvent) (path authHeader : StdString) :
    Admitted events path authHeader ↔ MayEnter events path authHeader := by
  rw [Admitted, handleRequest_next_iff]
  simp only [isTokenValid_iff]
  rfl

/-- In every run the middleware lets exactly those requests through that may
enter. A request that was let through would be again at any later time, and a
call of `Login` that fails changes nothing. -/
theorem gate_admits_iff (events : List AuthEvent)
    (path authHeader : StdString) :
    (Admitted events path authHeader ↔ MayEnter events path authHeader) ∧
    (Admitted events path authHeader →
      ∀ later, Admitted (events ++ later) path authHeader) ∧
    ∀ db login password,
      (∀ token, ((run authStep .start events).login login password db).1 ≠
        .ok (some token)) →
      (Admitted (events ++ [.login db login password]) path authHeader ↔
        Admitted events path authHeader) := by
  refine ⟨admitted_iff events path authHeader, fun h later => ?_,
    fun db login password hfailed => ?_⟩
  · rw [admitted_iff] at h ⊢
    refine h.imp_right fun ⟨token, hne, hissued, heq⟩ => ?_
    exact ⟨token, hne, issued_append hissued later, heq⟩
  · have hsame : ∀ token, Issued (events ++ [.login db login password]) token ↔
        Issued events token := fun token => by
      rw [issued_concat]
      refine or_iff_left ?_
      rintro ⟨db', login', password', heq, htoken⟩
      cases heq
      exact hfailed token htoken
    simp only [admitted_iff, MayEnter, hsame]

end TaxiService.Proofs
