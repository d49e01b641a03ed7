import TaxiService.Proofs.CreateRequests
import TaxiService.Spec.MongoUsers

/-!
# Look up, then insert

A create request that gets as far as the collection looks its login up and, if
it has found nothing, inserts. In between it knows one thing: the documents
there were when it looked do not have its login. What has come since it does
not know, and that is all that `Undisturbed` supplies.
-/

namespace TaxiService.Proofs

open TaxiService.Lib TaxiService.Model TaxiService.Spec

variable {json : MongoJson}

/-! ## The shape of the handlers -/

/-- Ends without a call. -/
def CallFree {ε α : Type} : MongoProg ε α → Prop
  | .op _ _ => False
  | _ => True

/-- Neither inserts nor answers 201. -/
def Harmless : MongoProg Empty MongoResponse → Prop
  | .pure response => response.status ≠ .created
  | .throw _ => True
  | .op e k => nextInsert (.op e k) = none ∧ ∀ r, Harmless (k r)

/-- The body of a create handler. -/
inductive CreateShape (json : MongoJson) (request : MongoRequest) :
    MongoProg MongoExn MongoResponse → Prop where
  | answered (response : MongoResponse) (h : response.status ≠ .created) :
      CreateShape json request (.pure response)
  | threw (x : MongoExn) : CreateShape json request (.throw x)
  | inserts (fields : UserFields)
      (h : requestLogin json request = some fields.login) :
      CreateShape json request (insertUnlessFound json fields)

section

variable {ε α β : Type}

theorem CallFree.bind {p : MongoProg ε α} {f : α → MongoProg ε β}
    (hp : CallFree p) (hf : ∀ a, CallFree (f a)) : CallFree (p >>= f) := by
  cases p with
  | pure a => exact hf a
  | throw x => trivial
  | op e k => exact hp

theorem callFree_mongoJson (x : Except StdString α) : CallFree (mongoJson x) := by
  cases x <;> trivial

theorem callFree_hasMember (body : json.Value) (name : String) :
    CallFree (hasMember json body name) := callFree_mongoJson _

theorem callFree_getText (body : json.Value) (name : String) :
    CallFree (getText json body name) :=
  (callFree_mongoJson _).bind fun _ => callFree_mongoJson _

theorem callFree_lacksMember (body : json.Value) (names : List String) :
    CallFree (lacksMember json body names) := by
  induction names with
  | nil => trivial
  | cons name names ih =>
      refine (callFree_hasMember body name).bind fun has => ?_
      cases has with
      | false => trivial
      | true => exact ih

theorem callFree_textOr (body : json.Value) (name : String) (text : StdString) :
    CallFree (textOr json body name text) := by
  refine (callFree_hasMember body name).bind fun has => ?_
  cases has with
  | false => trivial
  | true => exact callFree_getText body name

/-- What comes before the calls is passed, with the value it has given. -/
theorem CreateShape.bind {request : MongoRequest} {p : MongoProg MongoExn α}
    {f : α → MongoProg MongoExn MongoResponse} (hp : CallFree p)
    (hf : ∀ a, p = .pure a → CreateShape json request (f a)) :
    CreateShape json request (p >>= f) := by
  cases p with
  | pure a => exact hf a rfl
  | throw x => exact .threw x
  | op e k => exact hp.elim

end

theorem getText_login {requestBody login : StdString} {body : json.Value}
    (hbody : json.fromString requestBody = .ok body)
    (h : getText json body "login" = .pure login) :
    requestLogin json (.create requestBody) = some login := by
  rw [getText] at h
  cases hmember : json.member body (bytes "login") with
  | error what =>
      rw [hmember] at h
      cases h
  | ok member =>
      rw [hmember] at h
      change mongoJson (json.asString member) = .pure login at h
      cases htext : json.asString member with
      | error what =>
          rw [htext] at h
          cases h
      | ok text =>
          rw [htext] at h
          cases h
          simp [requestLogin, hbody, hmember, htext, Except.toOption]

theorem createMongoUser_shape {requestBody : StdString} {body : json.Value}
    (hbody : json.fromString requestBody = .ok body) :
    CreateShape json (.create requestBody) (createMongoUser json body) := by
  refine .bind (callFree_lacksMember body _) fun lacks _ => ?_
  split
  · exact .answered _ (by nofun)
  refine .bind (callFree_getText body _) fun login hlogin => ?_
  refine .bind (callFree_getText body _) fun password _ => ?_
  refine .bind (callFree_getText body _) fun firstName _ => ?_
  refine .bind (callFree_getText body _) fun lastName _ => ?_
  split
  · exact .answered _ (by nofun)
  split
  · exact .answered _ (by nofun)
  split
  · exact .answered _ (by nofun)
  refine .bind (callFree_textOr body _ _) fun status _ => ?_
  split
  · exact .answered _ (by nofun)
  refine .bind (callFree_textOr body _ _) fun email _ => ?_
  refine .bind (callFree_textOr body _ _) fun phone _ => ?_
  exact .inserts _ (getText_login hbody hlogin)

/-! ## What a request knows -/

/-- Is about to insert, and tells nobody 201 if it is refused. -/
def Inserts (fields : UserFields) (p : MongoProg Empty MongoResponse) : Prop :=
  ∃ k, p = .op (.insertOne fields) k ∧ (∀ x, Harmless (k (.error x))) ∧
    ∃ response, k (.ok ()) = .pure response

/-- How far a request is, with what it knows of the collection. -/
inductive Stage (json : MongoJson) (request : MongoRequest) (s : MongoService)
    (i : Nat) : MongoProg Empty MongoResponse → Prop where
  | harmless {p : MongoProg Empty MongoResponse} (h : Harmless p) :
      Stage json request s i p
  | looking {fields : UserFields}
      {k : Option MongoUser → MongoProg Empty MongoResponse}
      (hlogin : requestLogin json request = some fields.login)
      (hfound : ∀ u, Harmless (k (some u))) (hnone : Inserts fields (k none)) :
      Stage json request s i (.op (.findOne fields.login) k)
  | inserting {fields : UserFields} {p : MongoProg Empty MongoResponse}
      (hlogin : requestLogin json request = some fields.login)
      (h : Inserts fields p)
      (hunseen : ∀ u ∈ s.users.take (s.lookedAt i), u.login ≠ fields.login) :
      Stage json request s i p
  | inserted {response : MongoResponse} {n : Nat} {u : MongoUser}
      (hat : s.insertedAt i = some n) (hu : s.users[n]? = some u)
      (hlogin : requestLogin json request = some u.login) :
      Stage json request s i (.pure response)

theorem harmless_error {status : MongoStatus} (text : String)
    (h : status ≠ .created) : Harmless (.pure (mongoError status text)) := h

theorem createShape_stage {request : MongoRequest}
    {p : MongoProg MongoExn MongoResponse} (h : CreateShape json request p)
    {failed : MongoExn → MongoProg Empty MongoResponse}
    (hfailed : ∀ x, Harmless (failed x)) (s : MongoService) (i : Nat) :
    Stage json request s i (p.tryCatch failed) := by
  cases h with
  | answered response h => exact .harmless h
  | threw x => exact .harmless (hfailed x)
  | inserts fields hlogin =>
      exact .looking hlogin (fun _ => harmless_error _ (by nofun))
        ⟨_, rfl, hfailed, _, rfl⟩

theorem harmless_get (login nameMask : StdString) :
    Harmless (mongoUsersGet json login nameMask) := by
  rw [mongoUsersGet]
  split
  · exact harmless_error _ (by nofun)
  · rw [findMongoUsers]
    split
    · refine ⟨rfl, fun found => ?_⟩
      cases found with
      | none => exact harmless_error _ (by nofun)
      | some user => exact nofun
    · refine ⟨rfl, fun found => ?_⟩
      cases found with
      | error x => exact harmless_error _ (by nofun)
      | ok users => exact nofun

theorem stage_start (requests : Nat → MongoRequest) (s : MongoService) (i : Nat) :
    Stage json (requests i) s i (handleMongo json (requests i)) := by
  cases requests i with
  | get login nameMask => exact .harmless (harmless_get login nameMask)
  | create body =>
      rw [handleMongo, mongoUsersCreate]
      split
      · exact .harmless (harmless_error _ (by nofun))
      · next value hvalue =>
          exact createShape_stage (createMongoUser_shape hvalue)
            (fun _ => harmless_error _ (by nofun)) s i

/-! ## The invariant -/

variable (json) in
structure Consistent (requests : Nat → MongoRequest) (s : MongoService) :
    Prop where
  stage : ∀ i, Stage json (requests i) s i (s.rest i)
  looked : ∀ i, s.lookedAt i ≤ s.users.length
  placed : ∀ i n, s.insertedAt i = some n → n < s.users.length
  apart : ∀ i j n, s.insertedAt i = some n → s.insertedAt j = some n → i = j

section

variable {requests : Nat → MongoRequest} {s s' : MongoService} {i j : Nat}

/-- A stage knows nothing of documents that come later. -/
theorem Stage.append {request : MongoRequest} {p : MongoProg Empty MongoResponse}
    (h : Stage json request s j p) {new : List MongoUser}
    (hlooked : s.lookedAt j ≤ s.users.length)
    (husers : s'.users = s.users ++ new) (hl : s'.lookedAt j = s.lookedAt j)
    (hi : s'.insertedAt j = s.insertedAt j) : Stage json request s' j p := by
  cases h with
  | harmless h => exact .harmless h
  | looking hlogin hfound hnone => exact .looking hlogin hfound hnone
  | inserting hlogin h hunseen =>
      refine .inserting hlogin h ?_
      rw [hl, husers, List.take_append_of_le_length hlooked]
      exact hunseen
  | inserted hat hu hlogin =>
      refine .inserted (hi.trans hat) ?_ hlogin
      rw [husers, List.getElem?_append_left (List.getElem?_eq_some_iff.mp hu).1]
      exact hu

/-- A step of `i` that says what it knows now keeps the rest. -/
theorem Consistent.next (h : Consistent json requests s) (new : List MongoUser)
    (husers : s'.users = s.users ++ new)
    (hothers : ∀ j, j ≠ i → s'.rest j = s.rest j ∧
      s'.lookedAt j = s.lookedAt j ∧ s'.insertedAt j = s.insertedAt j)
    (hstage : Stage json (requests i) s' i (s'.rest i))
    (hlooked : s'.lookedAt i ≤ s'.users.length)
    (hplace : s'.insertedAt i = s.insertedAt i ∨
      s'.insertedAt i = some s.users.length ∧ 0 < new.length) :
    Consistent json requests s' := by
  have hlength : s'.users.length = s.users.length + new.length := by
    rw [husers, List.length_append]
  -- A new place is one past the documents there were.
  have hold : ∀ j n, s'.insertedAt j = some n → s.insertedAt j = some n ∨
      (j = i ∧ n = s.users.length ∧ 0 < new.length) := by
    intro j n hj
    by_cases hji : j = i
    · subst hji
      rcases hplace with hsame | ⟨hnew, hpos⟩
      · exact .inl (hsame ▸ hj)
      · exact .inr ⟨rfl, Option.some.inj (hj.symm.trans hnew), hpos⟩
    · exact .inl ((hothers j hji).2.2 ▸ hj)
  refine ⟨fun j => ?_, fun j => ?_, fun j n hj => ?_, fun j j' n hj hj' => ?_⟩
  · by_cases hji : j = i
    · rw [hji]
      exact hstage
    · obtain ⟨hrest, hl, hi⟩ := hothers j hji
      rw [hrest]
      exact (h.stage j).append (h.looked j) husers hl hi
  · by_cases hji : j = i
    · rw [hji]
      exact hlooked
    · rw [(hothers j hji).2.1, hlength]
      exact Nat.le_add_right_of_le (h.looked j)
  · rcases hold j n hj with hj | ⟨-, rfl, hpos⟩
    · have := h.placed j n hj
      omega
    · omega
  · rcases hold j n hj with hs | ⟨rfl, hn, -⟩
    · rcases hold j' n hj' with hs' | ⟨-, hn, -⟩
      · exact h.apart j j' n hs hs'
      · have := h.placed j n hs
        omega
    · rcases hold j' n hj' with hs' | ⟨hj', -, -⟩
      · have := h.placed j' n hs'
        omega
      · exact hj'.symm

/-- The four fields after a call. -/
theorem mongoStep_op (server : MongoServer) (now : Timestamp) {e : MongoEffect}
    {k : e.Result → MongoProg Empty MongoResponse} (h : s.rest i = .op e k) :
    let r := (callMongo server now e s.users).1
    let s' := mongoStep server s (i, now)
    s'.users = (callMongo server now e s.users).2 ∧
      s'.rest = Function.update s.rest i (k r) ∧
      s'.lookedAt = (s.record i e r).lookedAt ∧
      s'.insertedAt = (s.record i e r).insertedAt := by
  simp only [mongoStep, h, and_self]

theorem record_others (s : MongoService) (e : MongoEffect) (r : e.Result) :
    ∀ j, j ≠ i → (s.record i e r).lookedAt j = s.lookedAt j ∧
      (s.record i e r).insertedAt j = s.insertedAt j := by
  intro j hji
  cases e with
  | findOne login => exact ⟨Function.update_of_ne hji _ _, rfl⟩
  | insertOne fields =>
      cases r with
      | error x => exact ⟨rfl, rfl⟩
      | ok u => exact ⟨rfl, Function.update_of_ne hji _ _⟩
  | findByName nameMask => exact ⟨rfl, rfl⟩

/-- A call that is no insert, whatever comes of it. -/
theorem Consistent.read (h : Consistent json requests s) (server : MongoServer)
    (now : Timestamp) {e : MongoEffect}
    {k : e.Result → MongoProg Empty MongoResponse} (hrest : s.rest i = .op e k)
    (hread : nextInsert (.op e k) = none)
    (hstage : Stage json (requests i) (mongoStep server s (i, now)) i
      (k (callMongo server now e s.users).1)) :
    Consistent json requests (mongoStep server s (i, now)) ∧
      (mongoStep server s (i, now)).users = s.users := by
  obtain ⟨husers, hrest', hlooked, hinserted⟩ :=
    mongoStep_op server now hrest
  have hsame : (callMongo server now e s.users).2 = s.users := by
    cases e with
    | findOne login => rfl
    | insertOne fields => cases hread
    | findByName nameMask =>
        rw [callMongo]
        split <;> rfl
  rw [hsame] at husers
  refine ⟨h.next (i := i) [] ?_ ?_ ?_ ?_ ?_, husers⟩
  · rw [husers, List.append_nil]
  · intro j hji
    rw [hrest', hlooked, hinserted]
    exact ⟨Function.update_of_ne hji _ _, record_others s e _ j hji⟩
  · rw [hrest', Function.update_self]
    exact hstage
  · rw [hlooked, husers]
    cases e with
    | findOne login =>
        show Function.update s.lookedAt i s.users.length i ≤ s.users.length
        rw [Function.update_self]
    | insertOne fields => cases hread
    | findByName nameMask => exact h.looked i
  · rw [hinserted]
    cases e with
    | findOne login => exact .inl rfl
    | insertOne fields => cases hread
    | findByName nameMask => exact .inl rfl

/-- An insert: the document is new, or the request tells of a failure. -/
theorem Consistent.insert (h : Consistent json requests s)
    (hunique : UniqueLogins s.users) (server : MongoServer) (now : Timestamp)
    {fields : UserFields}
    {k : Except MongoExn Unit → MongoProg Empty MongoResponse}
    (hrest : s.rest i = .op (.insertOne fields) k)
    (hlogin : requestLogin json (requests i) = some fields.login)
    (hrefused : ∀ x, Harmless (k (.error x)))
    (hok : ∃ response, k (.ok ()) = .pure response)
    (hnew : server.validator ⟨fields, now⟩ = true →
      ∀ u ∈ s.users, u.login ≠ fields.login) :
    Consistent json requests (mongoStep server s (i, now)) ∧
      UniqueLogins (mongoStep server s (i, now)).users := by
  obtain ⟨husers, hrest', hlooked, hinserted⟩ := mongoStep_op server now hrest
  have hothers : ∀ j, j ≠ i →
      (mongoStep server s (i, now)).rest j = s.rest j ∧
        (mongoStep server s (i, now)).lookedAt j = s.lookedAt j ∧
        (mongoStep server s (i, now)).insertedAt j = s.insertedAt j := by
    intro j hji
    rw [hrest', hlooked, hinserted]
    exact ⟨Function.update_of_ne hji _ _, record_others s _ _ j hji⟩
  by_cases hvalid : server.validator ⟨fields, now⟩ = true
  · simp only [callMongo, if_pos hvalid] at husers hrest' hlooked hinserted
    have hplace : (mongoStep server s (i, now)).insertedAt i =
        some s.users.length := by
      rw [hinserted]
      exact Function.update_self ..
    obtain ⟨response, hok⟩ := hok
    refine ⟨h.next [⟨fields, now⟩] husers hothers ?_ ?_
      (.inr ⟨hplace, Nat.one_pos⟩), ?_⟩
    · rw [hrest', Function.update_self, hok]
      refine .inserted hplace (u := ⟨fields, now⟩) ?_ hlogin
      rw [husers, List.getElem?_concat_length]
    · rw [hlooked, husers, List.length_append]
      exact Nat.le_add_right_of_le (h.looked i)
    · rw [husers, UniqueLogins, List.map_append, List.nodup_append]
      refine ⟨hunique, List.nodup_singleton _, fun a ha b hb => ?_⟩
      obtain ⟨u, hu, rfl⟩ := List.mem_map.mp ha
      rw [List.mem_singleton.mp hb]
      exact hnew hvalid u hu
  · simp only [callMongo, if_neg hvalid] at husers hrest' hlooked hinserted
    refine ⟨h.next (i := i) [] ?_ hothers ?_ ?_ (.inl (congrFun hinserted i)),
      ?_⟩
    · rw [husers, List.append_nil]
    · rw [hrest', Function.update_self]
      exact .harmless (hrefused _)
    · rw [hlooked, husers]
      exact h.looked i
    · rw [husers]
      exact hunique

theorem Consistent.step (h : Consistent json requests s)
    (hunique : UniqueLogins s.users) (server : MongoServer)
    {step : Nat × Timestamp} (halone : Undisturbed server s step) :
    Consistent json requests (mongoStep server s step) ∧
      UniqueLogins (mongoStep server s step).users := by
  obtain ⟨i, now⟩ := step
  have hstage := h.stage i
  cases hrest : s.rest i with
  | pure response =>
      have hstay : mongoStep server s (i, now) = s := by
        simp only [mongoStep, hrest]
      rw [hstay]
      exact ⟨h, hunique⟩
  | throw x => exact x.elim
  | op e k =>
      rw [hrest] at hstage
      cases hstage with
      | harmless hharmless =>
          obtain ⟨hc, husers⟩ := h.read server now hrest
            hharmless.1 (.harmless (hharmless.2 _))
          rw [husers]
          exact ⟨hc, hunique⟩
      | @looking fields k hlogin hfound hnone =>
          have hafter : Stage json (requests i) (mongoStep server s (i, now)) i
              (k (callMongo server now (.findOne fields.login) s.users).1) := by
            have husers := (mongoStep_op server now hrest).1
            simp only [callMongo]
            cases hfind : s.users.find? (fun u => u.login == fields.login) with
            | some user => exact .harmless (hfound user)
            | none =>
                refine .inserting hlogin hnone fun u hu => ?_
                have husers : u ∈ s.users := by
                  have := List.mem_of_mem_take hu
                  rwa [husers] at this
                simpa using List.find?_eq_none.mp hfind u husers
          obtain ⟨hc, husers⟩ := h.read server now hrest rfl hafter
          rw [husers]
          exact ⟨hc, hunique⟩
      | inserting hlogin hins hunseen =>
          obtain ⟨k', hp, hrefused, hok⟩ := hins
          cases hp
          refine h.insert hunique server now hrest hlogin hrefused hok ?_
          intro hvalid u hu
          rw [← List.take_append_drop (s.lookedAt i) s.users,
            List.mem_append] at hu
          rcases hu with hu | hu
          · exact hunseen u hu
          · exact halone _ (by rw [hrest]; rfl) hvalid u hu

/-! ## Runs -/

theorem consistent_start (users : List MongoUser)
    (requests : Nat → MongoRequest) :
    Consistent json requests (.start json users requests) where
  stage i := stage_start requests _ i
  looked _ := Nat.zero_le _
  placed _ _ h := by cases h
  apart _ _ _ h := by cases h

/-- A 201 has left a document of its own. -/
theorem Consistent.created (h : Consistent json requests s) {login : StdString}
    (hi : CreatedFor json requests s login i) :
    ∃ n u, s.insertedAt i = some n ∧ s.users[n]? = some u ∧ u.login = login := by
  obtain ⟨hlogin, response, hrest, hstatus⟩ := hi
  have hstage := h.stage i
  rw [hrest] at hstage
  cases hstage with
  | harmless hne => exact (hne hstatus).elim
  | inserting _ hins _ =>
      obtain ⟨k, hp, -⟩ := hins
      cases hp
  | @inserted _ n u hat hu hu' =>
      exact ⟨n, u, hat, hu, Option.some.inj (hu'.symm.trans hlogin)⟩

theorem Consistent.loginsKept (h : Consistent json requests s)
    (hunique : UniqueLogins s.users) : LoginsKept json requests s := by
  refine ⟨hunique, fun login i j hi hj => ?_⟩
  obtain ⟨n, u, hn, hu, hlogin⟩ := h.created hi
  obtain ⟨m, v, hm, hv, hlogin'⟩ := h.created hj
  have hlt : n < (s.users.map fun u => u.login).length := by
    rw [List.length_map]
    exact (List.getElem?_eq_some_iff.mp hu).1
  have hnm : n = m := by
    rw [← List.getElem?_inj hlt hunique, List.getElem?_map, List.getElem?_map,
      hu, hv, Option.map_some, Option.map_some, hlogin, hlogin']
  exact h.apart i j n hn (hnm ▸ hm)

theorem nextInsert_some {p : MongoProg Empty MongoResponse} {fields : UserFields}
    (h : nextInsert p = some fields) : ∃ k, p = .op (.insertOne fields) k := by
  cases p with
  | op e k =>
      cases e with
      | insertOne fields' =>
          cases h
          exact ⟨k, rfl⟩
      | _ => cases h
  | _ => cases h

/-- An insert that is disturbed leaves two documents with one login. -/
theorem undisturbed_of_unique {server : MongoServer} {step : Nat × Timestamp}
    (hunique : UniqueLogins (mongoStep server s step).users) :
    Undisturbed server s step := by
  intro fields hnext hvalid u hu heq
  obtain ⟨i, now⟩ := step
  obtain ⟨k, hrest⟩ := nextInsert_some hnext
  have husers := (mongoStep_op server now hrest).1
  simp only [callMongo, if_pos hvalid] at husers
  rw [husers, UniqueLogins, List.map_append, List.nodup_append] at hunique
  exact hunique.2.2 u.login
    (List.mem_map_of_mem (List.mem_of_mem_drop hu)) fields.login
    (List.mem_singleton.mpr rfl) heq

end

/-- The logins are kept at every moment of a run exactly when no insert of it
is disturbed. -/
theorem loginsKept_iff_undisturbed (json : MongoJson) (server : MongoServer)
    (users : List MongoUser) (requests : Nat → MongoRequest)
    (schedule : List (Nat × Timestamp)) (hunique : UniqueLogins users) :
    (∀ before, before <+: schedule → LoginsKept json requests
        (mongoService json server users requests before)) ↔
      AllSteps (mongoStep server) (Undisturbed server)
        (.start json users requests) schedule := by
  constructor
  · intro hkept
    rw [allSteps_iff]
    rintro before step after rfl
    have hafter := (hkept (before ++ [step]) ⟨after, by simp⟩).1
    rw [mongoService, run_concat] at hafter
    exact undisturbed_of_unique hafter
  · rintro hall before ⟨after, rfl⟩
    obtain ⟨hc, hu⟩ := run_induction_of
      (P := fun s => Consistent json requests s ∧ UniqueLogins s.users)
      (fun s step hundisturbed h => h.1.step h.2 server hundisturbed)
      (allSteps_append.mp hall).1 ⟨consistent_start users requests, hunique⟩
    exact hc.loginsKept hu

/-! ## Two requests at once -/

/-- `readingJson` with `HasMember`, which throws on what is no object. -/
def memberJson : MongoJson where
  toUserverJson := readingJson
  hasMember
    | .dict entries, name =>
        .ok ((decodeUtf8 name).bind (Assoc.get? entries)).isSome
    | _, _ => .error (bytes "no object")

/-- A server without a validator and with no pattern. -/
def plainServer : MongoServer := ⟨fun _ => true, fun _ => none⟩

def annRequest : MongoRequest :=
  .create (bytes ("\x7b\"login\":\"ann\",\"password\":\"secret\"," ++
    "\"first_name\":\"Ann\",\"last_name\":\"Lee\"\x7d"))

/-- One after the other, the second request is told 409. -/
theorem loginsKept_in_turn :
    LoginsKept memberJson (fun _ => annRequest)
      (mongoService memberJson plainServer [] (fun _ => annRequest)
        [(0, 0), (0, 0), (1, 0)]) :=
  (loginsKept_iff_undisturbed memberJson plainServer [] (fun _ => annRequest) _
    (by decide)).mpr (by decide +kernel) _ List.prefix_rfl

/-- Both requests look the login up before either inserts it. -/
def bothLook : MongoService :=
  mongoService memberJson plainServer [] (fun _ => annRequest)
    [(0, 0), (1, 0), (0, 0), (1, 0)]

/-- Both answer 201, and the collection has the login twice. -/
theorem bothLook_created_twice :
    ¬ UniqueLogins bothLook.users ∧
    ∀ i, i < 2 → CreatedFor memberJson (fun _ => annRequest) bothLook
      (bytes "ann") i := by
  have hlogin : requestLogin memberJson annRequest = some (bytes "ann") := by
    decide +kernel
  refine ⟨by decide +kernel, fun i hi => ⟨hlogin, ?_⟩⟩
  have hcreated : ∀ i < 2, (match bothLook.rest i with
      | .pure response => response.status == .created
      | _ => false) = true := by
    decide +kernel
  have h := hcreated i hi
  cases hrest : bothLook.rest i with
  | pure response =>
      rw [hrest] at h
      exact ⟨response, rfl, eq_of_beq h⟩
  | throw x => exact x.elim
  | op e k => rw [hrest] at h; cases h

end TaxiService.Proofs
