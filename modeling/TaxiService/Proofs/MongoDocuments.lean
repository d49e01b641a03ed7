import TaxiService.Model.MongoDocuments
import TaxiService.Proofs.MongoUsers
import TaxiService.Spec.MongoSchema

/-!
# One request to the users collection

`checkUser_fields` is what a create request has gone through when it gets to
the collection, and the `serveMongo_` lemmas say what comes of a request there, one
for each way it can go. The other modules about these handlers use no more of
them than this.

The documents and the users of `MongoUsers` are two tellings of one service:
on the documents of some users, a request run alone gives the response that
the calls of `MongoUsers` give, and leaves the documents of the users that
they leave (`serveMongo_documents`).
-/

namespace TaxiService.Proofs

open TaxiService.Lib TaxiService.Model TaxiService.Spec
open TaxiService.Model.Documents (Arrival CollectionServer callCollection
  checkUser findOne hasText nameFilter pick serveMongo)

variable {json : MongoJson}

/-! ## The checks of a create request -/

variable (json) in
/-- The members of the body, as the handler has read and checked them. -/
structure CheckedFields (body : json.Value) (fields : UserFields) : Prop where
  login : Documents.text json body "login" = .ok fields.login
  password : Documents.text json body "password" = .ok fields.password
  firstName : Documents.text json body "first_name" = .ok fields.firstName
  lastName : Documents.text json body "last_name" = .ok fields.lastName
  named : fields.firstName ≠ [] ∧ fields.lastName ≠ []
  validLogin : isValidLogin fields.login = true
  longPassword : 6 ≤ fields.password.length
  status : fields.status = bytes "active" ∨ fields.status = bytes "blocked"
  email : Documents.textOr json body "email"
    (fields.login ++ bytes "@example.com") = .ok fields.profile.email
  phone : Documents.textOr json body "phone" (bytes "+79990000000") =
    .ok fields.profile.phone

/-- What the checks come to: an error response, or checked fields. -/
theorem checkUser_cases {body : json.Value} {r : MongoResponse ⊕ UserFields}
    (h : checkUser json body = .ok r) :
    (∃ text, r = .inl (mongoError .badRequest text)) ∨
      ∃ fields, r = .inr fields ∧ CheckedFields json body fields := by
  obtain ⟨lacks, -, h⟩ := bind_ok h
  split at h
  · cases h
    exact .inl ⟨_, rfl⟩
  obtain ⟨login, hlogin, h⟩ := bind_ok h
  obtain ⟨password, hpassword, h⟩ := bind_ok h
  obtain ⟨firstName, hfirstName, h⟩ := bind_ok h
  obtain ⟨lastName, hlastName, h⟩ := bind_ok h
  split at h
  · cases h
    exact .inl ⟨_, rfl⟩
  next hempty =>
  split at h
  · cases h
    exact .inl ⟨_, rfl⟩
  next hvalid =>
  split at h
  · cases h
    exact .inl ⟨_, rfl⟩
  next hlong =>
  obtain ⟨status, -, h⟩ := bind_ok h
  split at h
  · cases h
    exact .inl ⟨_, rfl⟩
  next hstatus =>
  obtain ⟨email, hemail, h⟩ := bind_ok h
  obtain ⟨phone, hphone, h⟩ := bind_ok h
  cases h
  simp only [Bool.or_eq_true, List.isEmpty_iff, not_or] at hempty
  simp only [Bool.and_eq_true, bne_iff_ne, ne_eq, not_and_or,
    not_not] at hstatus
  exact .inr ⟨_, rfl, hlogin, hpassword, hfirstName, hlastName,
    ⟨hempty.1.2, hempty.2⟩, by simpa using hvalid, Nat.le_of_not_lt hlong,
    hstatus, hemail, hphone⟩

theorem checkUser_inr {body : json.Value} {fields : UserFields}
    (h : checkUser json body = .ok (.inr fields)) :
    CheckedFields json body fields := by
  rcases checkUser_cases h with ⟨text, hinl⟩ | ⟨_, hinr, hfields⟩
  · cases hinl
  · cases hinr
    exact hfields

/-- Checked fields carry the login that the request asks for. -/
theorem requestLogin_of_passes {requestBody : StdString} {fields : UserFields}
    (h : Passes json requestBody fields) :
    requestLogin json (.create requestBody) = some fields.login := by
  obtain ⟨body, hbody, hcheck⟩ := h
  obtain ⟨member, hmember, htext⟩ := bind_ok (checkUser_inr hcheck).login
  simp [requestLogin, hbody, hmember, htext, Except.toOption]

theorem login_ne_nil_of_passes {requestBody : StdString} {fields : UserFields}
    (h : Passes json requestBody fields) : fields.login ≠ [] := by
  obtain ⟨body, -, hcheck⟩ := h
  have hvalid := (checkUser_inr hcheck).validLogin
  rw [isValidLogin, Bool.and_eq_true, Bool.not_eq_true',
    List.isEmpty_eq_false_iff] at hvalid
  exact hvalid.1

/-! ## The answers -/

theorem pick_eq_none (choice : Nat) {docs : List Bson} :
    pick choice docs = none ↔ docs = [] := by
  rw [pick, List.getElem?_eq_none_iff]
  constructor
  · intro h
    by_contra hne
    have := Nat.mod_lt choice (List.length_pos_iff.mpr hne)
    omega
  · rintro rfl
    exact Nat.zero_le _

theorem mem_of_pick {choice : Nat} {docs : List Bson} {doc : Bson}
    (h : pick choice docs = some doc) : doc ∈ docs := List.mem_of_getElem? h

/-- The documents with a login. -/
def withLogin (login : StdString) (docs : List Bson) : List Bson :=
  docs.filter (hasText (· == login) "login")

section

variable (server : CollectionServer) (docs : List Bson) (now : Timestamp)
  (choice : Nat)

/-- The look-up of a login goes through. -/
theorem run_findLogin (login : StdString)
    (k : Option Bson → Documents.DocProg Documents.Exn MongoResponse)
    (failed : Documents.Exn → Documents.DocProg Empty MongoResponse) :
    ((findOne (.eq "login" login) >>= k).tryCatch failed).run
        (callCollection server now choice) docs =
      ((k (pick choice (withLogin login docs))).tryCatch failed).run
        (callCollection server now choice) docs := rfl

/-- An insert goes through or throws. -/
theorem run_insertOne (document : Timestamp → Bson)
    (k : Unit → Documents.DocProg Documents.Exn MongoResponse)
    (failed : Documents.Exn → Documents.DocProg Empty MongoResponse) :
    ((Documents.insertOne document >>= k).tryCatch failed).run
        (callCollection server now choice) docs =
      if server.validator (document now) then
        ((k ()).tryCatch failed).run (callCollection server now choice)
          (docs ++ [document now])
      else (failed .writeError).run (callCollection server now choice) docs := by
  let r := callCollection server now choice (.insertOne document) docs
  have hrun : ((Documents.insertOne document >>= k).tryCatch failed).run
      (callCollection server now choice) docs =
      ((Documents.orThrow r.1 >>= k).tryCatch failed).run
        (callCollection server now choice) r.2 := rfl
  rw [hrun]
  simp only [r, callCollection]
  split <;> rfl

theorem error_not_created {status : MongoStatus} (text : String)
    (h : status ≠ .created) : (mongoError status text).status ≠ .created := h

section

variable {requestBody : StdString} {fields : UserFields}

theorem serveMongo_unchecked (h : ∀ fields, ¬Passes json requestBody fields) :
    ∃ response, response.status ≠ .created ∧
      serveMongo json server docs ⟨.create requestBody, now, choice⟩ =
        (response, docs) := by
  simp only [serveMongo, Documents.handle, Documents.mongoUsersCreate]
  split
  · exact ⟨mongoError .badRequest _, error_not_created _ (by decide), rfl⟩
  · next body hbody =>
    rw [Documents.createUser]
    cases hcheck : checkUser json body with
    | error what =>
        exact ⟨mongoError .internalServerError _,
          error_not_created _ (by decide), rfl⟩
    | ok r =>
        rcases checkUser_cases hcheck with ⟨text, rfl⟩ | ⟨fields, rfl, -⟩
        · exact ⟨mongoError .badRequest text,
            error_not_created _ (by decide), rfl⟩
        · exact (h fields ⟨body, hbody, hcheck⟩).elim

/-- A request that passes the checks comes to the look-up. -/
theorem serveMongo_passes (h : Passes json requestBody fields) :
    serveMongo json server docs ⟨.create requestBody, now, choice⟩ =
      let (result, docs) := ((Documents.insertUser json fields).tryCatch fun _ =>
        .pure (mongoError .internalServerError "failed to create mongo user")).run
          (callCollection server now choice) docs
      (Documents.returned result, docs) := by
  obtain ⟨body, hbody, hcheck⟩ := h
  simp only [serveMongo, Documents.handle, Documents.mongoUsersCreate, hbody,
    Documents.createUser, hcheck]
  rfl

theorem serveMongo_found (h : Passes json requestBody fields)
    (hfound : withLogin fields.login docs ≠ []) :
    serveMongo json server docs ⟨.create requestBody, now, choice⟩ =
      (mongoError .conflict "mongo user already exists", docs) := by
  obtain ⟨doc, hdoc⟩ := Option.ne_none_iff_exists'.mp
    (mt (pick_eq_none choice).mp hfound)
  rw [serveMongo_passes server docs now choice h, Documents.insertUser,
    run_findLogin, hdoc]
  rfl

theorem serveMongo_inserted (h : Passes json requestBody fields)
    (hnone : withLogin fields.login docs = [])
    (hvalid : server.validator (makeDoc fields now) = true) :
    serveMongo json server docs ⟨.create requestBody, now, choice⟩ =
      (⟨.created, [contentType], json.toString (createdJson fields)⟩,
        docs ++ [makeDoc fields now]) := by
  rw [serveMongo_passes server docs now choice h, Documents.insertUser,
    run_findLogin, (pick_eq_none choice).mpr hnone]
  simp only [run_insertOne, hvalid, if_true]
  rfl

theorem serveMongo_refused (h : Passes json requestBody fields)
    (hnone : withLogin fields.login docs = [])
    (hvalid : server.validator (makeDoc fields now) = false) :
    serveMongo json server docs ⟨.create requestBody, now, choice⟩ =
      (mongoError .internalServerError "failed to create mongo user", docs) := by
  rw [serveMongo_passes server docs now choice h, Documents.insertUser,
    run_findLogin, (pick_eq_none choice).mpr hnone]
  simp only [run_insertOne, hvalid, Bool.false_eq_true, if_false]
  rfl

end

variable {login nameMask : StdString}

theorem getLogin_eq (hlogin : login ≠ []) :
    Documents.mongoUsersGet json login [] =
      (Documents.findUsers json login []).tryCatch fun _ => .pure (mongoError
        .internalServerError "failed to read mongo users") := by
  rw [Documents.mongoUsersGet, List.isEmpty_eq_false_iff.mpr hlogin]
  rfl

theorem serveMongo_missing (hlogin : login ≠ [])
    (hnone : withLogin login docs = []) :
    serveMongo json server docs ⟨.get login [], now, choice⟩ =
      (mongoError .notFound "mongo user not found", docs) := by
  simp only [serveMongo, Documents.handle, getLogin_eq hlogin,
    Documents.findUsers, List.isEmpty_eq_false_iff.mpr hlogin, Bool.not_false,
    if_true, run_findLogin, (pick_eq_none choice).mpr hnone]
  rfl

theorem serveMongo_shown (hlogin : login ≠ []) {doc : Bson} {body : BuiltJson}
    (hdoc : pick choice (withLogin login docs) = some doc)
    (hbody : Documents.makeUserJson doc = .ok body) :
    serveMongo json server docs ⟨.get login [], now, choice⟩ =
      (⟨.ok, [contentType], json.toString body⟩, docs) := by
  simp only [serveMongo, Documents.handle, getLogin_eq hlogin,
    Documents.findUsers, List.isEmpty_eq_false_iff.mpr hlogin, Bool.not_false,
    if_true, run_findLogin, hdoc, hbody]
  rfl

theorem serveMongo_unreadable (hlogin : login ≠ []) {doc : Bson}
    {x : Documents.Exn}
    (hdoc : pick choice (withLogin login docs) = some doc)
    (hbody : Documents.makeUserJson doc = .error x) :
    serveMongo json server docs ⟨.get login [], now, choice⟩ =
      (mongoError .internalServerError "failed to read mongo users", docs) := by
  simp only [serveMongo, Documents.handle, getLogin_eq hlogin,
    Documents.findUsers, List.isEmpty_eq_false_iff.mpr hlogin, Bool.not_false,
    if_true, run_findLogin, hdoc, hbody]
  rfl

/-- What a search by name shows, if all goes through. -/
def searchItems (server : CollectionServer) (docs : List Bson)
    (nameMask : StdString) : Except Documents.Exn (List BuiltJson) := do
  let test ← (nameFilter nameMask).compile server
  (docs.filter test).mapM Documents.makeUserJson

/-- The look-up of a filter is thrown away if the filter does not compile. -/
theorem run_find (filter : Documents.Filter)
    (k : List Bson → Documents.DocProg Documents.Exn MongoResponse)
    (failed : Documents.Exn → Documents.DocProg Empty MongoResponse) :
    ((Documents.find filter >>= k).tryCatch failed).run
        (callCollection server now choice) docs =
      ((Documents.orThrow ((filter.compile server).map docs.filter) >>=
        k).tryCatch failed).run (callCollection server now choice) docs := rfl

theorem search_eq (hmask : nameMask ≠ []) :
    Documents.mongoUsersGet json [] nameMask =
      (Documents.findUsers json [] nameMask).tryCatch fun _ => .pure (mongoError
        .internalServerError "failed to read mongo users") := by
  rw [Documents.mongoUsersGet, List.isEmpty_eq_false_iff.mpr hmask]
  rfl

theorem serveMongo_search (hmask : nameMask ≠ []) {items : List BuiltJson}
    (hitems : searchItems server docs nameMask = .ok items) :
    serveMongo json server docs ⟨.get [] nameMask, now, choice⟩ =
      (⟨.ok, [contentType], json.toString (.array items)⟩, docs) := by
  obtain ⟨test, htest, hmap⟩ := bind_ok hitems
  simp only [serveMongo, Documents.handle, search_eq hmask, Documents.findUsers,
    List.isEmpty_nil, Bool.not_true, Bool.false_eq_true, if_false, run_find,
    htest, Except.map, Documents.orThrow, Prog.ofExcept, Prog.pure_then, hmap]
  rfl

theorem serveMongo_search_error (hmask : nameMask ≠ []) {x : Documents.Exn}
    (hitems : searchItems server docs nameMask = .error x) :
    serveMongo json server docs ⟨.get [] nameMask, now, choice⟩ =
      (mongoError .internalServerError "failed to read mongo users", docs) := by
  rw [searchItems] at hitems
  simp only [serveMongo, Documents.handle, search_eq hmask, Documents.findUsers,
    List.isEmpty_nil, Bool.not_true, Bool.false_eq_true, if_false, run_find]
  cases htest : (nameFilter nameMask).compile server with
  | error y => rfl
  | ok test =>
      rw [htest] at hitems
      replace hitems : (docs.filter test).mapM Documents.makeUserJson =
        .error x := hitems
      simp only [Except.map, Documents.orThrow, Prog.ofExcept, Prog.pure_then,
        hitems]
      rfl

/-- A get request leaves the collection alone. -/
theorem serveMongo_get (login nameMask : StdString) :
    ∃ response, response.status ≠ .created ∧
      serveMongo json server docs ⟨.get login nameMask, now, choice⟩ =
        (response, docs) := by
  by_cases hlogin : login = []
  · by_cases hmask : nameMask = []
    · rw [hlogin, hmask]
      exact ⟨mongoError .badRequest _, error_not_created _ (by decide), rfl⟩
    · rw [hlogin]
      cases hitems : searchItems server docs nameMask with
      | error x =>
          exact ⟨_, error_not_created _ (by decide),
            serveMongo_search_error server docs now choice hmask hitems⟩
      | ok items =>
          exact ⟨_, by simp,
            serveMongo_search server docs now choice hmask hitems⟩
  · by_cases hmask : nameMask = []
    · rw [hmask]
      cases hdoc : pick choice (withLogin login docs) with
      | none =>
          exact ⟨_, error_not_created _ (by decide), serveMongo_missing server
            docs now choice hlogin ((pick_eq_none choice).mp hdoc)⟩
      | some doc =>
          cases hbody : Documents.makeUserJson doc with
          | error x =>
              exact ⟨_, error_not_created _ (by decide), serveMongo_unreadable
                server docs now choice hlogin hdoc hbody⟩
          | ok body =>
              exact ⟨_, by simp, serveMongo_shown server docs now choice hlogin
                hdoc hbody⟩
    · refine ⟨mongoError .badRequest
        "use exactly one query parameter: login or name_mask",
        error_not_created _ (by decide), ?_⟩
      simp only [serveMongo, Documents.handle, Documents.mongoUsersGet,
        List.isEmpty_eq_false_iff.mpr hlogin,
        List.isEmpty_eq_false_iff.mpr hmask, beq_self_eq_true, if_true]
      rfl

end

/-! ## Documents of users -/

theorem documentOf_injective : Function.Injective documentOf := by
  rintro ⟨⟨_, _, _, _, _, ⟨_, _⟩⟩, _⟩ ⟨⟨_, _, _, _, _, ⟨_, _⟩⟩, _⟩ h
  simp_all [documentOf, makeDoc]

@[simp] theorem makeUserJson_makeDoc (fields : UserFields) (now : Timestamp) :
    Documents.makeUserJson (makeDoc fields now) = .ok (createdJson fields) := rfl

theorem withLogin_documents (login : StdString) (users : List MongoUser) :
    withLogin login (users.map documentOf) =
      (users.filter fun u => u.login == login).map documentOf := by
  rw [withLogin, List.filter_map]
  rfl

theorem mapM_documents (users : List MongoUser) :
    (users.map documentOf).mapM Documents.makeUserJson =
      .ok (users.map makeUserJson) := by
  induction users with
  | nil => rfl
  | cons u users ih =>
      rw [List.map_cons, List.mapM_cons, ih]
      rfl

/-- A computation on JSON, as a program of `MongoUsers`. -/
theorem mongoJson_bind {α β : Type} (x : Except StdString α)
    (f : α → Except StdString β) :
    mongoJson (x >>= f) = mongoJson x >>= fun a => mongoJson (f a) := by
  cases x <;> rfl

theorem lacksMember_eq (body : json.Value) (names : List String) :
    lacksMember json body names = mongoJson (Documents.lacks json body names) := by
  induction names with
  | nil => rfl
  | cons name names ih =>
      rw [lacksMember, Documents.lacks, mongoJson_bind]
      refine bind_congr fun has => ?_
      cases has with
      | true => exact ih
      | false => rfl

theorem getText_eq (body : json.Value) (name : String) :
    getText json body name = mongoJson (Documents.text json body name) := by
  rw [getText, Documents.text, mongoJson_bind]

theorem textOr_eq (body : json.Value) (name : String) (text : StdString) :
    textOr json body name text =
      mongoJson (Documents.textOr json body name text) := by
  rw [textOr, Documents.textOr, mongoJson_bind]
  refine bind_congr fun has => ?_
  cases has with
  | true => exact getText_eq body name
  | false => rfl

variable (json) in
/-- The program of `MongoUsers` once the checks are made. -/
def afterChecks : Except StdString (MongoResponse ⊕ UserFields) →
    MongoProg MongoExn MongoResponse
  | .error what => .throw (.json what)
  | .ok (.inl response) => .pure response
  | .ok (.inr fields) => insertUnlessFound json fields

theorem afterChecks_bind {α : Type} (x : Except StdString α)
    (f : α → Except StdString (MongoResponse ⊕ UserFields)) :
    afterChecks json (x >>= f) =
      mongoJson x >>= fun a => afterChecks json (f a) := by
  cases x <;> rfl

/-- The two create handlers make the same checks. -/
theorem createMongoUser_eq (body : json.Value) :
    createMongoUser json body = afterChecks json (checkUser json body) := by
  rw [createMongoUser, checkUser, afterChecks_bind, lacksMember_eq]
  refine bind_congr fun lacks => ?_
  split
  · rfl
  simp only [afterChecks_bind, getText_eq]
  refine bind_congr fun login => bind_congr fun password =>
    bind_congr fun firstName => bind_congr fun lastName => ?_
  split
  · rfl
  split
  · rfl
  split
  · rfl
  simp only [afterChecks_bind, textOr_eq]
  refine bind_congr fun status => ?_
  split
  · rfl
  simp only [afterChecks_bind]
  rfl

theorem pick_zero (docs : List Bson) : pick 0 docs = docs.head? := by
  rw [pick, Nat.zero_mod, List.head?_eq_getElem?]

/-- The users' side of a server. -/
def userServer (server : CollectionServer) : MongoServer :=
  ⟨fun u => server.validator (documentOf u), server.regex⟩

theorem withLogin_eq_nil {login : StdString} {users : List MongoUser} :
    withLogin login (users.map documentOf) = [] ↔
      ∀ u ∈ users, u.login ≠ login := by
  rw [withLogin_documents, List.map_eq_nil_iff, List.filter_eq_nil_iff]
  simp only [beq_iff_eq]

section

variable (server : CollectionServer) (users : List MongoUser) (now : Timestamp)

/-- The search filter on documents of users. -/
theorem searchItems_documents (nameMask : StdString) :
    searchItems server (users.map documentOf) nameMask =
      (server.regex nameMask).elim (.error .invalidRegex) fun test =>
        .ok ((users.filter fun u =>
          test u.firstName || test u.lastName).map makeUserJson) := by
  cases hregex : server.regex nameMask with
  | none =>
      rw [searchItems, nameFilter, Documents.Filter.compile,
        Documents.Filter.compile, hregex]
      rfl
  | some test =>
      have hcompile : (nameFilter nameMask).compile server =
          .ok fun doc => hasText test "first_name" doc ||
            hasText test "last_name" doc := by
        simp only [nameFilter, Documents.Filter.compile, hregex]
        rfl
      simp only [searchItems, hcompile, List.filter_map]
      exact mapM_documents _

/-- The look-up and the insert on documents of users. -/
theorem insert_documents {requestBody : StdString} {fields : UserFields}
    (h : Passes json requestBody fields) :
    let (result, users') := ((insertUnlessFound json fields).tryCatch fun _ =>
      .pure (mongoError .internalServerError "failed to create mongo user")).run
        (callMongo (userServer server) now) users
    serveMongo json server (users.map documentOf)
        ⟨.create requestBody, now, 0⟩ =
      (Documents.returned result, users'.map documentOf) := by
  have hvalidator : (userServer server).validator ⟨fields, now⟩ =
      server.validator (makeDoc fields now) := rfl
  simp only [insertUnlessFound, mongoCall, Prog.perform, Bind.bind, Prog.bind,
    Prog.tryCatch, Prog.run_op, callMongo]
  cases huser : users.find? fun u => u.login == fields.login with
  | some u =>
      have hfound : withLogin fields.login (users.map documentOf) ≠ [] := by
        rw [ne_eq, withLogin_eq_nil]
        intro hnone
        have hu := List.find?_some huser
        exact hnone u (List.mem_of_find?_eq_some huser) (eq_of_beq hu)
      rw [serveMongo_found server _ now 0 h hfound]
      rfl
  | none =>
      have hnone : withLogin fields.login (users.map documentOf) = [] := by
        rw [withLogin_eq_nil]
        intro u hu
        simpa using List.find?_eq_none.mp huser u hu
      cases hvalid : server.validator (makeDoc fields now) with
      | true =>
          rw [serveMongo_inserted server _ now 0 h hnone hvalid]
          have hdocs : (users ++ [MongoUser.mk fields now]).map documentOf =
              users.map documentOf ++ [makeDoc fields now] := List.map_append
          simp only [Prog.tryCatch, Prog.run_op, callMongo, hvalidator, hvalid,
            if_true]
          exact Prod.ext rfl hdocs.symm
      | false =>
          rw [serveMongo_refused server _ now 0 h hnone hvalid]
          simp only [Prog.tryCatch, Prog.run_op, callMongo, hvalidator, hvalid,
            Bool.false_eq_true, if_false]
          rfl

theorem create_documents (requestBody : StdString) :
    let (result, users') := (handleMongo json (.create requestBody)).run
      (callMongo (userServer server) now) users
    serveMongo json server (users.map documentOf)
        ⟨.create requestBody, now, 0⟩ =
      (Documents.returned result, users'.map documentOf) := by
  simp only [handleMongo, mongoUsersCreate]
  cases hbody : json.fromString requestBody with
  | error what =>
      simp only [serveMongo, Documents.handle, Documents.mongoUsersCreate, hbody]
      rfl
  | ok body =>
      simp only [createMongoUser_eq]
      cases hcheck : checkUser json body with
      | error what =>
          simp only [serveMongo, Documents.handle, Documents.mongoUsersCreate,
            hbody, Documents.createUser, hcheck]
          rfl
      | ok r =>
          cases r with
          | inl response =>
              simp only [serveMongo, Documents.handle,
                Documents.mongoUsersCreate, hbody, Documents.createUser, hcheck]
              rfl
          | inr fields =>
              exact insert_documents server users now ⟨body, hbody, hcheck⟩

theorem getLogin_documents {login : StdString} (hlogin : login ≠ []) :
    let (result, users') := (handleMongo json (.get login [])).run
      (callMongo (userServer server) now) users
    serveMongo json server (users.map documentOf) ⟨.get login [], now, 0⟩ =
      (Documents.returned result, users'.map documentOf) := by
  have hnonempty := List.isEmpty_eq_false_iff.mpr hlogin
  have hpick : pick 0 (withLogin login (users.map documentOf)) =
      (users.find? fun u => u.login == login).map documentOf := by
    rw [pick_zero, withLogin_documents, List.head?_map, List.head?_filter]
  simp only [handleMongo, mongoUsersGet, findMongoUsers, hnonempty,
    List.isEmpty_nil, Bool.false_beq, Bool.not_true, Bool.false_eq_true,
    if_false, Bool.not_false, if_true, mongoCall, Prog.perform, Bind.bind,
    Prog.bind, Prog.tryCatch, Prog.run_op, callMongo]
  cases huser : users.find? fun u => u.login == login with
  | some u =>
      rw [huser] at hpick
      rw [serveMongo_shown server _ now 0 hlogin hpick (makeUserJson_makeDoc ..)]
      rfl
  | none =>
      rw [huser] at hpick
      rw [serveMongo_missing server _ now 0 hlogin ((pick_eq_none 0).mp hpick)]
      rfl

theorem search_documents {nameMask : StdString} (hmask : nameMask ≠ []) :
    let (result, users') := (handleMongo json (.get [] nameMask)).run
      (callMongo (userServer server) now) users
    serveMongo json server (users.map documentOf) ⟨.get [] nameMask, now, 0⟩ =
      (Documents.returned result, users'.map documentOf) := by
  have hnonempty := List.isEmpty_eq_false_iff.mpr hmask
  have hitems := searchItems_documents server users nameMask
  have hregex : (userServer server).regex nameMask = server.regex nameMask := rfl
  simp only [handleMongo, mongoUsersGet, findMongoUsers, hnonempty,
    List.isEmpty_nil, Bool.true_beq, Bool.not_true, Bool.false_eq_true,
    if_false, mongoCall, Prog.perform, Bind.bind, Prog.bind, Prog.tryCatch,
    Prog.run_op, callMongo]
  cases hcompile : server.regex nameMask with
  | some test =>
      rw [hcompile] at hitems hregex
      rw [serveMongo_search server _ now 0 hmask hitems]
      simp only [hregex]
      rfl
  | none =>
      rw [hcompile] at hitems hregex
      rw [serveMongo_search_error server _ now 0 hmask hitems]
      simp only [hregex]
      rfl

/-- A request run alone, on documents and on users. -/
theorem serveMongo_documents (request : MongoRequest) :
    let (result, users') := (handleMongo json request).run
      (callMongo (userServer server) now) users
    serveMongo json server (users.map documentOf) ⟨request, now, 0⟩ =
      (Documents.returned result, users'.map documentOf) := by
  cases request with
  | create requestBody => exact create_documents server users now requestBody
  | get login nameMask =>
      by_cases hlogin : login = []
      · by_cases hmask : nameMask = []
        · rw [hlogin, hmask]
          rfl
        · rw [hlogin]
          exact search_documents server users now hmask
      · by_cases hmask : nameMask = []
        · rw [hmask]
          exact getLogin_documents server users now hlogin
        · simp only [handleMongo, mongoUsersGet, serveMongo, Documents.handle,
            Documents.mongoUsersGet, List.isEmpty_eq_false_iff.mpr hlogin,
            List.isEmpty_eq_false_iff.mpr hmask, beq_self_eq_true, if_true]
          rfl

end

end TaxiService.Proofs
