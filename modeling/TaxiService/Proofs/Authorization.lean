import TaxiService.Proofs.HttpThreads

/-!
# Calls go back to registrations

Whoever calls something about drivers or rides has shown a token, the token was
given to a login request, and that request had the login and the password of a
user who was registered. Every link of this chain is one call of the trace, and
they come in this order.

The chain is followed backwards. A request's own calls say what it asked and
what it was answered (`serveRequest_along`), and what the answers meant is an
invariant of the shared state (`Accounts`): the valid tokens are those that were
issued, and the users of every database so far are those that were created.
The routes about drivers and rides are not public, whatever path took a request
to them.
-/

namespace TaxiService.Proofs

open TaxiService.Lib TaxiService.Model TaxiService.Spec

/-! ## Paths -/

theorem takesWords_word {w : StdString} {words : List (TopicWord StdString)}
    {segments : List StdString}
    (h : takesWords (.word w :: words) segments = true) :
    ∃ rest, segments = w :: rest ∧ takesWords words rest = true := by
  cases segments with
  | nil => simp [takesWords] at h
  | cons v rest =>
      simp only [takesWords, Bool.and_eq_true, decide_eq_true_eq] at h
      exact ⟨rest, by rw [h.1], h.2⟩

/-- A path whose second segment is known begins with it. -/
theorem prefix_of_segments {path first : StdString}
    {words : List (TopicWord StdString)}
    (h : takesWords (.word [] :: .word first :: words) (path.splitOn 47) =
      true) : 47 :: first <+: path := by
  obtain ⟨segments, hsplit, h⟩ := takesWords_word h
  obtain ⟨rest, rfl, -⟩ := takesWords_word h
  have hpath : [47].intercalate (path.splitOn 47) = path :=
    List.intercalate_splitOn 47
  rw [hsplit, List.intercalate_cons_cons, List.nil_append] at hpath
  rw [← hpath]
  cases rest with
  | nil =>
      rw [List.intercalate_singleton]
      exact List.prefix_refl _
  | cons second rest =>
      rw [List.intercalate_cons_cons, List.append_assoc]
      exact List.prefix_append (47 :: first) _

theorem prefix_of_takesPath {template path : StdString} (first : StdString)
    (words : List (TopicWord StdString))
    (hsegments : (template.splitOn 47).map pathSegment =
      .word [] :: .word first :: words)
    (h : takesPath template path = true) : 47 :: first <+: path := by
  rw [takesPath, hsegments, Bool.or_eq_true, Bool.and_eq_true] at h
  rcases h with h | ⟨-, h⟩
  · exact prefix_of_segments h
  · exact List.IsPrefix.trans (prefix_of_segments h) (List.dropLast_prefix path)

/-- A path with a beginning that no public path has. -/
theorem not_public {start path : StdString} (h : start <+: path)
    (hpaths : ∀ p ∈ [bytes "/ping", bytes "/users", bytes "/auth/login",
      bytes "/mongo/users", bytes "/tests/"], ¬ start <+: p)
    (htests : ¬ bytes "/tests/" <+: start) : ¬ Public path := by
  rintro (hmem | hprefix)
  · refine hpaths path ?_ h
    simp only [List.mem_cons, List.not_mem_nil, or_false] at hmem ⊢
    tauto
  · rcases List.prefix_or_prefix_of_prefix h hprefix with hp | hp
    · exact hpaths (bytes "/tests/") (by simp) hp
    · exact htests hp

/-- The routes about drivers and rides need a token. -/
theorem route_not_public (request : HttpRequest) {family : Family}
    (hroute : routeFamily request.route = some family)
    (hfamily : family ≠ .users) : ¬ Public request.path := by
  obtain ⟨hmethod, hpath⟩ := Bool.and_eq_true_iff.mp request.routed
  have hdrivers : bytes "/drivers" <+: request.path → ¬ Public request.path :=
    fun h => not_public h (by decide) (by decide)
  have hrides : bytes "/rides" <+: request.path → ¬ Public request.path :=
    fun h => not_public h (by decide) (by decide)
  cases hr : request.route with
  | driversCreate =>
      rw [hr] at hpath
      exact hdrivers (prefix_of_takesPath (bytes "drivers") [] rfl hpath)
  | ridesCreate =>
      rw [hr] at hpath
      exact hrides (prefix_of_takesPath (bytes "rides") [] rfl hpath)
  | ridesGet =>
      rw [hr] at hpath
      exact hrides (prefix_of_takesPath (bytes "rides") [] rfl hpath)
  | ridesAccept =>
      rw [hr] at hpath
      exact hrides (prefix_of_takesPath (bytes "rides")
        [.one, .word (bytes "accept")] rfl hpath)
  | ridesComplete =>
      rw [hr] at hpath
      exact hrides (prefix_of_takesPath (bytes "rides")
        [.one, .word (bytes "complete")] rfl hpath)
  | usersCreate =>
      rw [hr] at hroute
      cases hroute
      exact absurd rfl hfamily
  | usersGet =>
      rw [hr] at hroute
      cases hroute
      exact absurd rfl hfamily
  | authLogin =>
      rw [hr] at hroute
      cases hroute
      exact absurd rfl hfamily
  | mongoUsersCreate =>
      rw [hr] at hroute
      cases hroute
  | mongoUsersGet =>
      rw [hr] at hroute
      cases hroute

/-! ## Tokens and users -/

variable {lower : StdString → StdString} {server : MongoServer}

theorem isTokenValid_issue (s : Tokens) (userId : Int) (token : StdString) :
    (s.issue userId).2.isTokenValid token = true ↔
      (s.issue userId).1 = token ∨ s.isTokenValid token = true := by
  simp only [Tokens.issue, Tokens.isTokenValid, Assoc.get?_set]
  split
  · next h => simp [h]
  · next h => simp [h]

/-- What the shared state knows of the calls so far. -/
structure Accounts (w : World) (trace : List ServerCall) : Prop where
  tokens : ∀ token, w.tokens.isTokenValid token = true ↔
    ∃ x ∈ trace, issuedToken? x.effect x.answer = some token
  users : ∀ db ∈ w.app.backend.db :: w.earlier, ∀ row ∈ db.users.rows,
    ∃ x ∈ trace, createdUser? x.effect x.answer = some (parseUser row)

theorem Accounts.start (mongoUsers : List MongoUser) :
    Accounts (World.start mongoUsers) [] where
  tokens token := by simp [World.start, Tokens.start, Tokens.isTokenValid]
  users db hdb row hrow := by
    cases List.mem_singleton.mp hdb
    cases hrow

/-- A call that issues no token leaves the table alone and changes nothing that
is known of it. -/
theorem Accounts.concat {w w' : World} {trace : List ServerCall}
    {x : ServerCall} (h : Accounts w trace)
    (htokens : w'.tokens = w.tokens)
    (hissued : issuedToken? x.effect x.answer = none)
    (husers : ∀ db ∈ w'.app.backend.db :: w'.earlier, ∀ row ∈ db.users.rows,
      createdUser? x.effect x.answer = some (parseUser row) ∨
        ∃ db ∈ w.app.backend.db :: w.earlier, row ∈ db.users.rows) :
    Accounts w' (trace ++ [x]) where
  tokens token := by
    rw [htokens, h.tokens]
    simp [or_and_right, exists_or, hissued]
  users db hdb row hrow := by
    rcases husers db hdb row hrow with hnew | ⟨db', hdb', hrow'⟩
    · exact ⟨x, by simp, hnew⟩
    · obtain ⟨y, hy, hcreated⟩ := h.users db' hdb' row hrow'
      exact ⟨y, by simp [hy], hcreated⟩

theorem createUser_rows (login password fullName : StdString) (db : Db) :
    ∀ row ∈ (createUser login password fullName db).2.users.rows,
      createdUser? (.app (.createUser login password fullName))
          (createUser login password fullName db).1 = some (parseUser row) ∨
        row ∈ db.users.rows := by
  intro row hrow
  rw [createUser] at hrow ⊢
  rcases kInsertUser_cases login password fullName db with
    ⟨e, db', heq, hsame⟩ | ⟨new, db', heq, hins, -, -⟩
  · rw [heq] at hrow
    change row ∈ db'.users.rows at hrow
    rw [hsame.1] at hrow
    exact .inr hrow
  · rw [heq] at hrow ⊢
    change row ∈ db'.users.rows at hrow
    rw [Table.insert?_rows hins, List.mem_append, List.mem_singleton] at hrow
    rcases hrow with hold | rfl
    · exact .inr hold
    · exact .inl rfl

/-- The users after a call of a handler. -/
theorem callApp_rows (clocks : Readings) (e : Effect) (a : App) :
    ∀ row ∈ (callApp lower clocks e a).2.backend.db.users.rows,
      createdUser? (.app e) (callApp lower clocks e a).1 =
          some (parseUser row) ∨ row ∈ a.backend.db.users.rows := by
  have hsame : ∀ family, writes e = some family → family ≠ .users →
      ∀ row ∈ (callApp lower clocks e a).2.backend.db.users.rows,
        row ∈ a.backend.db.users.rows := by
    intro family hw hfamily row hrow
    rw [callApp_write lower clocks hw,
      (callBackend_frame lower clocks hw a.backend).users (.inl hfamily)] at hrow
    exact hrow
  intro row hrow
  cases e with
  | createUser login password fullName =>
      exact createUser_rows login password fullName a.backend.db row hrow
  | createDriver userId carModel carNumber licenseNumber =>
      exact .inr (hsame .drivers rfl (by simp) row hrow)
  | createRide passengerId pickup destination =>
      exact .inr (hsame .rides rfl (by simp) row hrow)
  | acceptRide rideId driverId =>
      exact .inr (hsame .rides rfl (by simp) row hrow)
  | completeRide rideId =>
      exact .inr (hsame .rides rfl (by simp) row hrow)
  | _ => exact .inr hrow

theorem Accounts.call {w : World} {trace : List ServerCall} {x : ServerCall}
    (h : Accounts w trace)
    (hx : x.answer = (callServer lower server x.input x.effect w).1) :
    Accounts (callServer lower server x.input x.effect w).2 (trace ++ [x]) := by
  obtain ⟨i, input, e, answer⟩ := x
  dsimp only at hx
  subst hx
  cases e with
  | app e =>
      simp only [callServer]
      split
      · exact h.concat rfl rfl fun db hdb row hrow => .inr ⟨db, hdb, hrow⟩
      · refine h.concat rfl rfl fun db hdb row hrow => ?_
        rcases List.mem_cons.mp hdb with rfl | hdb
        · exact (callApp_rows input.clocks e w.app row hrow).imp_right
            fun hold => ⟨_, List.mem_cons_self, hold⟩
        · exact .inr ⟨db, hdb, hrow⟩
  | mongo e =>
      exact h.concat rfl rfl fun db hdb row hrow => .inr ⟨db, hdb, hrow⟩
  | isTokenValid token =>
      exact h.concat rfl rfl fun db hdb row hrow => .inr ⟨db, hdb, hrow⟩
  | issueToken userId =>
      refine ⟨fun token => ?_, fun db hdb row hrow => ?_⟩
      · show (w.tokens.issue userId).2.isTokenValid token = true ↔ _
        rw [isTokenValid_issue, h.tokens]
        simp [or_and_right, exists_or, issuedToken?, callServer, or_comm]
      · obtain ⟨y, hy, hcreated⟩ := h.users db hdb row hrow
        exact ⟨y, by simp [hy], hcreated⟩

/-! ## The chain -/

theorem getUserByLogin_row {login : StdString} {db : Db} {user : User}
    (h : getUserByLogin login db = .ok (some user)) :
    ∃ row ∈ db.users.rows, row.login = login ∧ user = parseUser row := by
  rw [getUserByLogin] at h
  obtain ⟨rows, hrows, h⟩ := bind_ok h
  rw [kSelectUserByLogin] at hrows
  obtain ⟨-, -, hrows⟩ := bind_ok hrows
  cases hrows
  split at h
  · cases h
  · next row rest hsel =>
      cases h
      have hmem : row ∈ db.users.select fun u => u.login == login := by
        rw [hsel]
        exact List.mem_cons_self
      obtain ⟨hrow, hlogin⟩ := List.mem_filter.mp hmem
      exact ⟨row, hrow, by simpa using hlogin, rfl⟩

theorem replica_mem (w : World) (lag : Nat) :
    w.replica lag ∈ w.app.backend.db :: w.earlier := by
  rw [World.replica, List.getD_eq_getElem?_getD]
  cases h : (w.app.backend.db :: w.earlier)[lag]? with
  | none => exact List.mem_cons_self
  | some db => exact List.mem_of_getElem? h

theorem sublist_concat {τ : Type} {l before : List τ} (x : τ) (after : List τ)
    (h : List.Sublist l before) : List.Sublist (l ++ [x]) (before ++ x :: after) :=
  h.append (List.cons_sublist_cons.mpr (List.nil_sublist after))

section

variable {json : MongoJson} {mongoUsers : List MongoUser}
  {events : List ServerEvent}

theorem accounts_of_trace {before after : List ServerCall}
    (heq : (httpServer json lower server (.start mongoUsers) events).trace =
      before ++ after) :
    Accounts (Threads.replay (callServer lower server) (.start mongoUsers) before)
      before :=
  (httpServer_replays json lower server _ events).induction
    (.start mongoUsers) (fun _ _ _ h hx => h.call hx) heq

end

theorem createdUser?_some {e : ServerEffect} {r : e.Result} {user : User}
    (h : createdUser? e r = some user) :
    ∃ login password fullName, e = .app (.createUser login password fullName) := by
  unfold createdUser? at h
  split at h
  · exact ⟨_, _, _, rfl⟩
  · cases h

theorem issuedToken?_some {e : ServerEffect} {r : e.Result} {token : StdString}
    (h : issuedToken? e r = some token) : ∃ userId, e = .issueToken userId := by
  unfold issuedToken? at h
  split at h
  · exact ⟨_, rfl⟩
  · cases h

theorem checkedToken?_some {e : ServerEffect} {r : e.Result} {token : StdString}
    {valid : Bool} (h : checkedToken? e r = some (token, valid)) :
    (⟨e, r⟩ : (e : ServerEffect) × e.Result) = ⟨.isTokenValid token, valid⟩ := by
  unfold checkedToken? at h
  split at h
  · cases h
    rfl
  · cases h

theorem usersCreate_of_route {route : Route} (hmutates : mutates route = true)
    (hroute : routeFamily route = some .users) : route = .usersCreate := by
  revert hmutates hroute
  cases route <;> decide

section

variable {json : MongoJson} {mongoUsers : List MongoUser}
  {events : List ServerEvent}

/-- A user is created for `POST /users`. -/
theorem registrar_of_created {before after : List ServerCall}
    {registration : ServerCall} {user : User}
    (heq : (httpServer json lower server (.start mongoUsers) events).trace =
      before ++ registration :: after)
    (hcreated : createdUser? registration.effect registration.answer =
      some user) :
    ∃ request, (httpServer json lower server (.start mongoUsers)
        events).requests[registration.thread]? = some request ∧
      request.route = .usersCreate := by
  obtain ⟨request, hrequest, hcall⟩ :=
    (httpServer_follows json lower server _ events).calls _ _ _ heq
  obtain ⟨login, password, fullName, he⟩ := createdUser?_some hcreated
  obtain ⟨family, hroute, habout⟩ := hcall.about _ he
  cases habout
  exact ⟨request, hrequest,
    usersCreate_of_route (hcall.write _ he (by simp [writes])) hroute⟩

/-- A user that a look-up found was created before. -/
theorem created_of_found {before after : List ServerCall} {lookup : ServerCall}
    {login : StdString} {user : User}
    (heq : (httpServer json lower server (.start mongoUsers) events).trace =
      before ++ lookup :: after)
    (hfound : (⟨lookup.effect, lookup.answer⟩ : (e : ServerEffect) × e.Result) =
      ⟨.app (.getUserByLogin login), .ok (some user)⟩) :
    user.login = login ∧ ∃ registration ∈ before,
      createdUser? registration.effect registration.answer = some user := by
  have hanswer := (httpServer_replays json lower server _ events).answers
    _ _ _ heq
  have haccounts := accounts_of_trace heq
  obtain ⟨i, input, e, answer⟩ := lookup
  cases hfound
  obtain ⟨row, hrow, hlogin, rfl⟩ := getUserByLogin_row hanswer.symm
  exact ⟨hlogin, haccounts.users _ (replica_mem _ _) row hrow⟩

/-- Behind every token there is a login request, the user it found and the
registration of that user. -/
theorem loggedIn_of_issued {before after : List ServerCall} {issue : ServerCall}
    {token : StdString}
    (heq : (httpServer json lower server (.start mongoUsers) events).trace =
      before ++ issue :: after)
    (hissued : issuedToken? issue.effect issue.answer = some token) :
    ∃ registration lookup user,
      LoggedIn json (httpServer json lower server (.start mongoUsers)
        events).requests token registration lookup issue user ∧
      List.Sublist [registration, lookup] before := by
  obtain ⟨request, hrequest, hcall⟩ :=
    (httpServer_follows json lower server _ events).calls _ _ _ heq
  obtain ⟨userId, he⟩ := issuedToken?_some hissued
  obtain ⟨hroute, login, user, hmem, -, hbody⟩ := hcall.issue userId he
  obtain ⟨lookup, hlookup, hsame, hfound⟩ := Threads.mem_pastOf.mp hmem
  obtain ⟨before', between, rfl⟩ := List.append_of_mem hlookup
  have heq' := heq
  rw [List.append_assoc, List.cons_append] at heq'
  obtain ⟨rfl, registration, hreg, hcreated⟩ := created_of_found heq' hfound
  obtain ⟨before'', between', rfl⟩ := List.append_of_mem hreg
  rw [List.append_assoc, List.cons_append] at heq'
  refine ⟨registration, lookup, user, ⟨hcreated, registrar_of_created heq' hcreated,
    congrArg (fun y => foundUser? y.1 y.2) hfound, hsame,
    ⟨request, hrequest, hroute, hbody⟩, hissued⟩, ?_⟩
  exact sublist_concat lookup between
    (sublist_concat registration between' (List.nil_sublist before''))

/-- A token is valid exactly when it was issued. -/
theorem valid_iff_issued {before after : List ServerCall} {x : ServerCall}
    {token : StdString} {valid : Bool}
    (heq : (httpServer json lower server (.start mongoUsers) events).trace =
      before ++ x :: after)
    (hchecked : checkedToken? x.effect x.answer = some (token, valid)) :
    valid = true ↔
      ∃ issue ∈ before, issuedToken? issue.effect issue.answer = some token := by
  have hanswer := (httpServer_replays json lower server _ events).answers
    _ _ _ heq
  have haccounts := accounts_of_trace heq
  have hx := checkedToken?_some hchecked
  obtain ⟨i, input, e, answer⟩ := x
  cases hx
  rw [← haccounts.tokens]
  exact Eq.congr_left hanswer

/-- A request whose token was refused makes no other call. -/
theorem alone_of_refused {x : ServerCall} {token : StdString}
    (hx : x ∈ (httpServer json lower server (.start mongoUsers) events).trace)
    (hchecked : checkedToken? x.effect x.answer = some (token, false)) :
    Threads.pastOf x.thread
        (httpServer json lower server (.start mongoUsers) events).trace =
      [⟨x.effect, x.answer⟩] := by
  have hfollows := httpServer_follows json lower server (.start mongoUsers) events
  obtain ⟨before, after, heq⟩ := List.append_of_mem hx
  obtain ⟨request, hrequest, hcall⟩ := hfollows.calls _ _ _ heq
  have hsigma := checkedToken?_some hchecked
  obtain ⟨hpast, hpublic⟩ := hcall.asked token (congrArg Sigma.fst hsigma)
  have hfirst : ∀ more, Threads.pastOf x.thread (before ++ x :: more) =
      ⟨x.effect, x.answer⟩ :: Threads.pastOf x.thread more := by
    intro more
    rw [Threads.pastOf_append, hpast, ← List.singleton_append,
      Threads.pastOf_append, Threads.pastOf_own]
    rfl
  rw [heq, hfirst]
  refine congrArg _ (List.eq_nil_iff_forall_not_mem.mpr fun y hy => ?_)
  obtain ⟨z, hz, hthread, -⟩ := Threads.mem_pastOf.mp hy
  obtain ⟨between, rest, rfl⟩ := List.append_of_mem hz
  rw [← List.cons_append, ← List.append_assoc] at heq
  obtain ⟨request', hrequest', hcall'⟩ := hfollows.calls _ _ _ heq
  rw [hthread] at hrequest' hcall'
  cases hrequest.symm.trans hrequest'
  rw [hfirst, hsigma] at hcall'
  rcases hcall'.cleared with (h | ⟨token', more, -, h⟩) | ⟨token', -, h⟩
  · rw [h] at hpublic
    cases hpublic
  · cases h
  · cases h

variable (json lower server mongoUsers events) in
/-- In any interleaving, and however far the replica is behind. -/
theorem guarded_calls_authorized :
    Authorized json (httpServer json lower server (.start mongoUsers) events) := by
  refine ⟨fun before x after heq hguarded => ?_,
    fun before x after token valid => valid_iff_issued,
    fun x hx token => alone_of_refused hx⟩
  obtain ⟨request, hrequest, hcall⟩ :=
    (httpServer_follows json lower server _ events).calls _ _ _ heq
  obtain ⟨e, he⟩ : ∃ e, x.effect = .app e := by
    cases he : x.effect with
    | app e => exact ⟨e, rfl⟩
    | _ =>
        rw [he] at hguarded
        exact hguarded.elim
  obtain ⟨family, hroute, habout⟩ := hcall.about e he
  rw [he] at hguarded
  have hprivate : ¬ Public request.path := by
    refine route_not_public request hroute fun h => ?_
    subst h
    exact hguarded habout
  rcases hcall.cleared with (h | ⟨token, rest, hheader, hpast⟩) | ⟨token, h, -⟩
  · exact absurd ((isPublicRequest_iff _).mp h) hprivate
  · have hmem : ⟨.isTokenValid token, true⟩ ∈ Threads.pastOf x.thread before := by
      rw [hpast]
      exact List.mem_cons_self
    obtain ⟨check, hcheck, hthread, hsigma⟩ := Threads.mem_pastOf.mp hmem
    have hchecked := congrArg (fun y : (e : ServerEffect) × e.Result =>
      checkedToken? y.1 y.2) hsigma
    obtain ⟨before', between, rfl⟩ := List.append_of_mem hcheck
    have heq' := heq
    rw [List.append_assoc, List.cons_append] at heq'
    obtain ⟨issue, hissue, hissued⟩ := (valid_iff_issued heq' hchecked).mp rfl
    obtain ⟨before'', between', rfl⟩ := List.append_of_mem hissue
    rw [List.append_assoc, List.cons_append] at heq'
    obtain ⟨registration, lookup, user, hlogged, hchain⟩ :=
      loggedIn_of_issued heq' hissued
    exact ⟨request, token, registration, lookup, issue, check, user, hrequest,
      hheader, hlogged, hthread, hchecked,
      sublist_concat check between (sublist_concat issue between' hchain)⟩
  · rw [he] at h
    cases h

end

end TaxiService.Proofs
