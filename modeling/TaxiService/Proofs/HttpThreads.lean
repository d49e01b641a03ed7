import TaxiService.Proofs.Auth
import TaxiService.Proofs.CacheSound
import TaxiService.Spec.HttpServer

/-!
# What one request does

Whatever answers it gets, a request keeps to a script (`serveRequest_along`).
Either its path is public, or its first call asks about the token of its own
header and nothing follows unless the token is valid. Its other calls are about
the family of its route. A token is issued to the user that the login of the
body found and whose password is that of the body. No request changes the
tables twice, and what it is told at its end is what it has changed.

The handlers come in by their two shapes, with the responses spelled out where
a mutation is acknowledged.
-/

namespace TaxiService.Proofs

open TaxiService.Lib TaxiService.Model TaxiService.Spec

variable (json : MongoJson)

/-! ## Handlers -/

/-- The acknowledgements among the calls of a handler. -/
def handlerAcks (past : Past Effect Effect.Result) : List HttpResponse :=
  past.filterMap fun x => acknowledgement json (.app x.1) x.2

theorem handlerAcks_concat (past : Past Effect Effect.Result) (e : Effect)
    (r : e.Result) : handlerAcks json (past ++ [⟨e, r⟩]) =
      handlerAcks json past ++ (acknowledgement json (.app e) r).toList := by
  rw [handlerAcks, List.filterMap_append, handlerAcks, List.filterMap_cons]
  cases acknowledgement json (.app e) r <;> rfl

/-- What a handler tells that it has changed. -/
def handlerTold (get : Bool) : Except Exn Response → List HttpResponse
  | .ok response =>
      if !get && success response.status then [response.toHttp] else []
  | .error _ => []

structure HandlerCall (family : Family) (get : Bool)
    (past : Past Effect Effect.Result) (e : Effect) : Prop where
  about : About family e
  write : writes e ≠ none → get = false
  once : (handlerAcks json past).length ≤ 1

abbrev HandlerAlong (family : Family) (get : Bool)
    (past : Past Effect Effect.Result) (p : Handler Response) : Prop :=
  p.Along (HandlerCall json family get)
    (fun past out => handlerAcks json past = handlerTold get out) past

theorem about_of_writes {e : Effect} {family : Family}
    (h : writes e = some family) : About family e := by
  cases e <;> first | exact h | cases h

theorem acknowledgement_read {e : Effect} (h : writes e = none) (r : e.Result) :
    acknowledgement json (.app e) r = none := by
  cases e <;> first | rfl | cases h

/-! ### Reads -/

section

variable {json} {family : Family} {past : Past Effect Effect.Result}

/-- A call of a read changes nothing. -/
theorem along_read {e : Effect} {k : e.Result → Handler Response}
    (habout : About family e) (hw : writes e = none)
    (hpast : handlerAcks json past = [])
    (hk : ∀ r past, handlerAcks json past = [] →
      HandlerAlong json family true past (k r)) :
    HandlerAlong json family true past (.op e k) := by
  refine ⟨⟨habout, fun h => absurd hw h, by simp [hpast]⟩, fun r => hk r _ ?_⟩
  rw [handlerAcks_concat, hpast, acknowledgement_read json hw]
  rfl

theorem along_store {headers : List (StdString × StdString)} {k : CacheKey}
    {body : StdString} {ttl : Int} (hpast : handlerAcks json past = []) :
    HandlerAlong json k.family true past (store headers k body ttl) := by
  refine along_read ?_ rfl hpast fun r past hpast => hpast
  simp only [About, text_startsWith, decide_true]

theorem along_missPath (headers : List (StdString × StdString)) (k : CacheKey)
    (hpast : handlerAcks json past = []) :
    HandlerAlong json k.family true past
      (missPath json.toUserverJson headers k) := by
  cases k with
  | login login =>
      refine along_read rfl rfl hpast fun r past hpast => ?_
      rcases r with e | (_ | user)
      · exact hpast
      · exact hpast
      · exact along_store hpast
  | nameMask nameMask =>
      refine along_read rfl rfl hpast fun r past hpast => ?_
      cases r with
      | error e => exact hpast
      | ok users => exact along_store hpast
  | history userId =>
      rw [missPath]
      cases stoi userId with
      | error e => exact hpast
      | ok n =>
          exact along_read rfl rfl hpast fun r past hpast => along_store hpast
  | active =>
      exact along_read rfl rfl hpast fun r past hpast => along_store hpast

theorem along_lookup (headers : List (StdString × StdString)) (k : CacheKey)
    (hpast : handlerAcks json past = []) :
    HandlerAlong json k.family true past
      (lookup json.toUserverJson headers k) := by
  refine along_read ?_ rfl hpast fun r past hpast => ?_
  · simp only [About, text_startsWith, decide_true]
  · cases r with
    | none => exact along_missPath headers k hpast
    | some body => exact hpast

end

theorem along_usersGet (login nameMask : StdString) :
    HandlerAlong json .users true []
      (usersGet json.toUserverJson login nameMask) := by
  cases login with
  | nil =>
      cases nameMask with
      | nil => exact rfl
      | cons c cs =>
          rw [usersGet_nameMask]
          exact along_lookup [contentType] (.nameMask (c :: cs)) rfl
  | cons c cs =>
      cases nameMask with
      | nil =>
          rw [usersGet_login]
          exact along_lookup [contentType] (.login (c :: cs)) rfl
      | cons d ds => exact rfl

theorem along_ridesGet (userId status : StdString) :
    HandlerAlong json .rides true []
      (ridesGet json.toUserverJson userId status) := by
  cases userId with
  | nil =>
      by_cases hs : status = bytes "active"
      · subst hs
        refine along_read rfl rfl rfl fun r past hpast => ?_
        obtain ⟨allowed, limit, remaining, reset⟩ := r
        cases allowed with
        | false => exact hpast
        | true =>
            show HandlerAlong json .rides true past
              (ridesLookup json.toUserverJson false [] _)
            rw [ridesLookup_active]
            exact along_lookup _ .active hpast
      · have hb : (status == bytes "active") = false := by simp [hs]
        simp only [ridesGet, List.isEmpty_nil, hb]
        exact rfl
  | cons c cs =>
      show HandlerAlong json .rides true []
        (ridesLookup json.toUserverJson true (c :: cs) [contentType])
      rw [ridesLookup_history]
      exact along_lookup [contentType] (.history (c :: cs)) rfl

/-! ### Mutations

A mutation that is refused or throws has made no call. Otherwise its one
storage call is the first, and what it answers is told.
-/

section

variable {json} {family : Family} {α : Type} {f : α → Handler Response}

theorem along_orJson {x : Except StdString α}
    (h : ∀ a, HandlerAlong json family false [] (f a)) :
    HandlerAlong json family false [] (orJson x >>= f) := by
  cases x with
  | error what => exact rfl
  | ok a => exact h a

theorem along_getString {value : json.Value} {name : String}
    {f : StdString → Handler Response}
    (h : ∀ s, HandlerAlong json family false [] (f s)) :
    HandlerAlong json family false []
      (getString json.toUserverJson value name >>= f) := by
  rw [Model.getString]
  cases json.member value (bytes name) with
  | error what => exact rfl
  | ok v => exact along_orJson h

theorem along_getInt {value : json.Value} {name : String}
    {f : Int → Handler Response}
    (h : ∀ n, HandlerAlong json family false [] (f n)) :
    HandlerAlong json family false []
      (getInt json.toUserverJson value name >>= f) := by
  rw [Model.getInt]
  cases json.member value (bytes name) with
  | error what => exact rfl
  | ok v => exact along_orJson h

theorem along_orStoi {x : Except StoiError Int} {f : Int → Handler Response}
    (h : ∀ n, HandlerAlong json family false [] (f n)) :
    HandlerAlong json family false [] (orStoi x >>= f) := by
  cases x with
  | error e => exact rfl
  | ok n => exact h n

theorem along_ite {c : Prop} [Decidable c] {p q : Handler Response}
    {past : Past Effect Effect.Result}
    (hp : HandlerAlong json family false past p)
    (hq : HandlerAlong json family false past q) :
    HandlerAlong json family false past (if c then p else q) := by
  split
  · exact hp
  · exact hq

/-- The end of a mutation: its storage call, and what is told of it. -/
theorem along_write {e : Effect} {k : e.Result → Handler Response}
    (hw : writes e = some family)
    (hk : ∀ r, (acknowledgement json (.app e) r = none ∧
        ((∃ x, k r = .throw x) ∨ ∃ response, k r = .pure response ∧
          success response.status = false)) ∨
      ∃ response, acknowledgement json (.app e) r =
          some (response.toHttp) ∧
        success response.status = true ∧
        k r = .op (.invalidatePrefix family.pre) fun _ => .pure response) :
    HandlerAlong json family false [] (.op e k) := by
  refine ⟨⟨about_of_writes hw, fun _ => rfl, Nat.zero_le 1⟩, fun r => ?_⟩
  have hacks : handlerAcks json ([] ++ [⟨e, r⟩]) =
      (acknowledgement json (.app e) r).toList := handlerAcks_concat json [] e r
  rcases hk r with ⟨hnone, ⟨x, hx⟩ | ⟨response, hx, hs⟩⟩ |
    ⟨response, hack, hs, hx⟩
  · rw [hx]
    rw [hnone] at hacks
    exact hacks
  · rw [hx]
    rw [hnone] at hacks
    exact hacks.trans (by simp [handlerTold, hs])
  · rw [hx]
    rw [hack] at hacks
    refine ⟨⟨rfl, fun _ => rfl, by rw [hacks]; rfl⟩, fun _ => ?_⟩
    refine (handlerAcks_concat json _ _ _).trans ?_
    rw [hacks]
    simp [handlerTold, hs, acknowledgement]

end

theorem along_usersCreate (body : StdString) :
    HandlerAlong json .users false [] (usersCreate json.toUserverJson body) := by
  refine along_orJson fun value => along_getString fun login =>
    along_getString fun password => along_getString fun fullName =>
    along_ite rfl (along_write rfl fun r => ?_)
  rcases r with e | (_ | user)
  · exact .inl ⟨rfl, .inl ⟨_, rfl⟩⟩
  · exact .inl ⟨rfl, .inr ⟨_, rfl, rfl⟩⟩
  · exact .inr ⟨respond .created (json.toString (userJson user)), rfl, rfl, rfl⟩

theorem along_driversCreate (body : StdString) :
    HandlerAlong json .drivers false []
      (driversCreate json.toUserverJson body) := by
  refine along_orJson fun value => along_getInt fun userId =>
    along_getString fun carModel => along_getString fun carNumber =>
    along_getString fun licenseNumber =>
    along_ite rfl (along_write rfl fun r => ?_)
  rcases r with e | (_ | driver)
  · exact .inl ⟨rfl, .inl ⟨_, rfl⟩⟩
  · exact .inl ⟨rfl, .inr ⟨_, rfl, rfl⟩⟩
  · exact .inr ⟨respond .created (json.toString (driverJson driver)), rfl, rfl,
      rfl⟩

theorem along_ridesCreate (body : StdString) :
    HandlerAlong json .rides false [] (ridesCreate json.toUserverJson body) := by
  refine along_orJson fun value => along_getInt fun passengerId =>
    along_getString fun pickup => along_getString fun destination =>
    along_ite rfl (along_write rfl fun r => ?_)
  rcases r with e | (_ | ride)
  · exact .inl ⟨rfl, .inl ⟨_, rfl⟩⟩
  · exact .inl ⟨rfl, .inr ⟨_, rfl, rfl⟩⟩
  · exact .inr ⟨respond .created (json.toString (makeRideJson ride)), rfl, rfl,
      rfl⟩

theorem along_ridesAccept (body id : StdString) :
    HandlerAlong json .rides false []
      (ridesAccept json.toUserverJson body id) := by
  refine along_orJson fun value => along_getInt fun driverId =>
    along_ite rfl (along_orStoi fun rideId =>
    along_ite rfl (along_write rfl fun r => ?_))
  cases r with
  | none => exact .inl ⟨rfl, .inr ⟨_, rfl, rfl⟩⟩
  | some ride =>
      exact .inr ⟨respond .ok (json.toString (makeRideJson ride)), rfl, rfl, rfl⟩

theorem along_ridesComplete (id : StdString) :
    HandlerAlong json .rides false []
      (ridesComplete json.toUserverJson id) := by
  refine along_ite rfl (along_orStoi fun rideId => along_write rfl fun r => ?_)
  cases r with
  | none => exact .inl ⟨rfl, .inr ⟨_, rfl, rfl⟩⟩
  | some ride =>
      exact .inr ⟨respond .ok (json.toString (makeRideJson ride)), rfl, rfl, rfl⟩

theorem handle_along (request : Request) :
    HandlerAlong json (familyOf request) (isGet request) []
      (handle json.toUserverJson request) := by
  cases request with
  | usersCreate body => exact along_usersCreate json body
  | usersGet login nameMask => exact along_usersGet json login nameMask
  | driversCreate body => exact along_driversCreate json body
  | ridesCreate body => exact along_ridesCreate json body
  | ridesGet userId status => exact along_ridesGet json userId status
  | ridesAccept body id => exact along_ridesAccept json body id
  | ridesComplete id => exact along_ridesComplete json id

/-! ## The server -/

/-- The family of the route's handler. -/
def routeFamily : Route → Option Family
  | .usersCreate => some .users
  | .usersGet => some .users
  | .authLogin => some .users
  | .driversCreate => some .drivers
  | .ridesCreate => some .rides
  | .ridesGet => some .rides
  | .ridesAccept => some .rides
  | .ridesComplete => some .rides
  | .mongoUsersCreate => none
  | .mongoUsersGet => none

/-- The middleware has let the request through. -/
def Cleared (request : HttpRequest) (past : ServerPast) : Prop :=
  isPublicRequest request.path = true ∨ ∃ token rest,
    request.authHeader = kBearerPrefix ++ token ∧
    past = ⟨.isTokenValid token, true⟩ :: rest

/-- A call of a request. -/
structure RequestCall (request : HttpRequest) (past : ServerPast)
    (e : ServerEffect) : Prop where
  cleared : Cleared request past ∨ ∃ token, e = .isTokenValid token ∧ past = []
  asked : ∀ token, e = .isTokenValid token →
    past = [] ∧ isPublicRequest request.path = false
  about : ∀ e', e = .app e' → ∃ family,
    routeFamily request.route = some family ∧ About family e'
  write : ∀ e', e = .app e' → writes e' ≠ none →
    mutates request.route = true
  issue : ∀ userId, e = .issueToken userId → request.route = .authLogin ∧
    ∃ login user, ⟨.app (.getUserByLogin login), .ok (some user)⟩ ∈ past ∧
      user.id = userId ∧ Credentials json request.body login user.password
  once : (acknowledgements json past).length ≤ 1

/-- Its end. -/
def RequestEnd (request : HttpRequest) (past : ServerPast)
    (out : Except Exn HttpResponse) : Prop :=
  acknowledgements json past = told request.route out

abbrev RequestAlong (request : HttpRequest) (past : ServerPast)
    (p : HttpProg HttpResponse) : Prop :=
  p.Along (RequestCall json request) (RequestEnd json request) past

theorem acknowledgements_append (past more : ServerPast) :
    acknowledgements json (past ++ more) =
      acknowledgements json past ++ acknowledgements json more :=
  List.filterMap_append

theorem Cleared.append {request : HttpRequest} {past : ServerPast}
    (h : Cleared request past) (more : ServerPast) :
    Cleared request (past ++ more) := by
  rcases h with h | ⟨token, rest, hheader, rfl⟩
  · exact .inl h
  · exact .inr ⟨token, rest ++ more, hheader, rfl⟩

/-! ### The routes -/

def onServer (x : (e : Effect) × e.Result) :
    (e : ServerEffect) × e.Result := ⟨.app x.1, x.2⟩

theorem acknowledgements_onServer (past : Past Effect Effect.Result) :
    acknowledgements json (past.map onServer) = handlerAcks json past := by
  rw [acknowledgements, List.filterMap_map, handlerAcks]
  rfl

theorem success_code (status : HttpStatus) :
    (status.code == 200 || status.code == 201) = success status := by
  cases status <;> rfl

theorem told_toHttp {route : Route} {get : Bool} (h : mutates route = !get)
    (response : Response) :
    told route (.ok response.toHttp) = handlerTold get (.ok response) := by
  rw [told, handlerTold, h, Response.toHttp, success_code]

section

variable {json} {request : HttpRequest} {past : ServerPast}

theorem RequestCall.app {e : Effect} {family : Family}
    (hcleared : Cleared request past)
    (hroute : routeFamily request.route = some family) (habout : About family e)
    (hwrite : writes e ≠ none → mutates request.route = true)
    (honce : (acknowledgements json past).length ≤ 1) :
    RequestCall json request past (.app e) where
  cleared := .inl hcleared
  asked token h := by cases h
  about e' h := by
    cases h
    exact ⟨family, hroute, habout⟩
  write e' h := by
    cases h
    exact hwrite
  issue userId h := by cases h
  once := honce

theorem RequestCall.mongo (e : MongoEffect) (hcleared : Cleared request past)
    (honce : (acknowledgements json past).length ≤ 1) :
    RequestCall json request past (.mongo e) where
  cleared := .inl hcleared
  asked token h := by cases h
  about e' h := by cases h
  write e' h := by cases h
  issue userId h := by cases h
  once := honce

theorem RequestCall.isTokenValid (token : StdString)
    (hpublic : isPublicRequest request.path = false) :
    RequestCall json request [] (.isTokenValid token) where
  cleared := .inr ⟨token, rfl, rfl⟩
  asked _ _ := ⟨rfl, hpublic⟩
  about e' h := by cases h
  write e' h := by cases h
  issue userId h := by cases h
  once := Nat.zero_le 1

theorem RequestCall.issueToken {login : StdString} {user : User}
    (hcleared : Cleared request past) (hroute : request.route = .authLogin)
    (hfound : ⟨.app (.getUserByLogin login), .ok (some user)⟩ ∈ past)
    (hbody : Credentials json request.body login user.password)
    (honce : (acknowledgements json past).length ≤ 1) :
    RequestCall json request past (.issueToken user.id) where
  cleared := .inl hcleared
  asked token h := by cases h
  about e' h := by cases h
  write e' h := by cases h
  issue userId h := by
    cases h
    exact ⟨hroute, login, user, hfound, rfl, hbody⟩
  once := honce

theorem along_fromHandler {family : Family} {get : Bool} {p : Handler Response}
    (h : HandlerAlong json family get [] p)
    (hroute : routeFamily request.route = some family)
    (hmutates : mutates request.route = !get) (hcleared : Cleared request past)
    (hpast : acknowledgements json past = []) :
    RequestAlong json request past (fromHandler p) := by
  have hacks : ∀ calls, acknowledgements json (past ++ calls.map onServer) =
      handlerAcks json calls := fun calls => by
    rw [acknowledgements_append, hpast, acknowledgements_onServer]
    rfl
  have hcalls : (onApp p).Along (RequestCall json request)
      (fun past out => acknowledgements json past = handlerTold get out) past := by
    let rel (calls : Past Effect Effect.Result) (past' : ServerPast) : Prop :=
      past' = past ++ calls.map onServer
    have hnext : ∀ calls past' e r, rel calls past' →
        rel (calls ++ [⟨e, r⟩]) (past' ++ [⟨.app e, r⟩]) := by
      rintro calls past' e r rfl
      simp only [rel]
      rw [List.map_append, ← List.append_assoc]
      rfl
    refine Prog.Along.embed h (show rel [] past by simp [rel]) hnext ?_ ?_
    · rintro calls past' e rfl he
      refine .app (hcleared.append _) hroute he.about (fun hw => ?_) ?_
      · rw [hmutates, he.write hw]
        rfl
      · rw [hacks]
        exact he.once
    · rintro calls past' out rfl hout
      rw [hacks]
      exact hout
  refine Prog.along_bind hcalls (fun past' response h' => ?_) fun past' x h' => h'
  exact h'.trans (told_toHttp hmutates response).symm

theorem along_fromMongo (p : MongoProg Empty MongoResponse)
    (hroute : mutates request.route = false) (hcleared : Cleared request past)
    (hpast : acknowledgements json past = []) :
    RequestAlong json request past (fromMongo p) := by
  have hcalls : (p.embed ServerEffect.mongo fun _ r => r).Along
      (RequestCall json request)
      (fun past _ => acknowledgements json past = []) past := by
    induction p generalizing past with
    | pure a => exact hpast
    | throw x => exact x.elim
    | op e k ih =>
        refine ⟨.mongo e hcleared (by simp [hpast]), fun r =>
          ih r (hcleared.append _) ?_⟩
        rw [acknowledgements_append, hpast]
        rfl
  have hcaught : ((p.embed ServerEffect.mongo fun _ r => r).tryCatch
      Empty.elim).Along (RequestCall json request)
      (fun past (_ : Except Exn MongoResponse) =>
        acknowledgements json past = []) past :=
    Prog.along_tryCatch hcalls (fun past' response h' => h')
      fun past' x h' => x.elim
  refine Prog.along_bind hcaught (fun past' response h' => ?_)
    fun past' x h' => h'
  refine h'.trans ?_
  rw [told, hroute]
  rfl

end

/-- A member that is a string, or an exception. -/
theorem getString_cases (value : json.Value) (name : String) :
    (∃ what, getString json.toUserverJson value name = .throw (.json what)) ∨
    ∃ s, getString json.toUserverJson value name = .pure s ∧
      (json.member value (bytes name) >>= json.asString) = .ok s := by
  rw [Model.getString]
  cases json.member value (bytes name) with
  | error what => exact .inl ⟨what, rfl⟩
  | ok v =>
      show (∃ what, orJson (json.asString v) = .throw (.json what)) ∨
        ∃ s, orJson (json.asString v) = .pure s ∧ json.asString v = .ok s
      cases json.asString v with
      | error what => exact .inl ⟨what, rfl⟩
      | ok s => exact .inr ⟨s, rfl, rfl⟩

section

variable {json} {request : HttpRequest} {past : ServerPast}

/-- A login that has not changed anything may end in any way. -/
theorem end_authLogin (hroute : request.route = .authLogin)
    (hpast : acknowledgements json past = [])
    (out : Except Exn HttpResponse) : RequestEnd json request past out := by
  rw [RequestEnd, hpast, hroute]
  cases out <;> rfl

/-- The look-up of `Login` and the token, for the user with the password of
the body. -/
theorem along_storageLogin {login password : StdString}
    (hroute : request.route = .authLogin) (hcleared : Cleared request past)
    (hpast : acknowledgements json past = [])
    (hbody : Credentials json request.body login password) :
    (storageLogin login password).Along (RequestCall json request)
      (fun past _ => acknowledgements json past = []) past := by
  have hone : (acknowledgements json past).length ≤ 1 := by simp [hpast]
  have hfamily : routeFamily request.route = some .users := by rw [hroute]; rfl
  refine ⟨.app hcleared hfamily rfl (fun h => absurd rfl h) hone, fun r => ?_⟩
  have hnext : acknowledgements json
      (past ++ [⟨.app (.getUserByLogin login), r⟩]) = [] := by
    rw [acknowledgements_append, hpast]
    rfl
  rcases r with e | (_ | user)
  · exact hnext
  · exact hnext
  · show Prog.Along _ _ _ (if user.password != password then _ else _)
    split
    · exact hnext
    · next hsame =>
        have hpassword : user.password = password := by simpa using hsame
        subst hpassword
        refine ⟨.issueToken (hcleared.append _) hroute (by simp) hbody
          (by simp [hnext]), fun token => ?_⟩
        show acknowledgements json (_ ++ [_]) = []
        rw [acknowledgements_append, hnext]
        rfl

theorem along_authLogin (hroute : request.route = .authLogin)
    (hcleared : Cleared request past)
    (hpast : acknowledgements json past = []) :
    RequestAlong json request past (authLogin json request.body) := by
  have hend : ∀ out, RequestEnd json request past out :=
    end_authLogin hroute hpast
  rw [authLogin]
  cases hparse : json.fromString request.body with
  | error what => exact hend _
  | ok value =>
      show RequestAlong json request past
        (onApp (getString json.toUserverJson value "login") >>= _)
      rcases getString_cases json value "login" with
        ⟨what, hthrow⟩ | ⟨login, hget, hlogin⟩
      · rw [hthrow]
        exact hend _
      · rw [hget]
        show RequestAlong json request past
          (onApp (getString json.toUserverJson value "password") >>= _)
        rcases getString_cases json value "password" with
          ⟨what, hthrow⟩ | ⟨password, hget, hpassword⟩
        · rw [hthrow]
          exact hend _
        · rw [hget]
          show RequestAlong json request past
            (if login.isEmpty || password.isEmpty then _ else _)
          split
          · exact hend _
          · refine Prog.along_bind (along_storageLogin hroute hcleared hpast
              ⟨value, hparse, hlogin, hpassword⟩)
              (fun past' token? h' => ?_) fun past' x h' => end_authLogin hroute h' _
            cases token? with
            | none => exact end_authLogin hroute h' _
            | some token => exact end_authLogin hroute h' _

theorem along_handler (hcleared : Cleared request past)
    (hpast : acknowledgements json past = []) :
    RequestAlong json request past (handler json request) := by
  have hp := fun r => handle_along json r
  rw [handler]
  cases hroute : request.route with
  | authLogin => exact along_authLogin hroute hcleared hpast
  | mongoUsersCreate =>
      exact along_fromMongo _ (by rw [hroute]; rfl) hcleared hpast
  | mongoUsersGet =>
      exact along_fromMongo _ (by rw [hroute]; rfl) hcleared hpast
  | _ =>
      exact along_fromHandler (hp _) (by rw [hroute]; rfl) (by rw [hroute]; rfl)
        hcleared hpast

end

/-! ### The middleware -/

/-- Whatever answers it gets, a request keeps to its script. -/
theorem serveRequest_along (request : HttpRequest) :
    RequestAlong json request [] (serveRequest json request) := by
  have htold : ∀ past response, response.code = 401 →
      acknowledgements json past = [] →
      RequestEnd json request past (.ok response) := by
    intro past response hcode hpast
    rw [RequestEnd, hpast, told, hcode]
    simp
  rw [serveRequest, authMiddleware]
  split
  · next hpublic => exact along_handler (.inl hpublic) rfl
  · next hpublic =>
      split
      · exact htold [] _ rfl rfl
      · next hheader =>
          refine ⟨.isTokenValid _ (by simpa using hpublic), fun valid => ?_⟩
          cases valid with
          | false => exact htold _ _ rfl rfl
          | true =>
              refine along_handler (.inr ⟨_, [], ?_, rfl⟩) rfl
              exact ((bearer_iff _).mp (by simpa using hheader)).2

/-! ### Any interleaving -/

variable (lower : StdString → StdString) (server : MongoServer)

theorem httpServer_follows (w : World) (events : List ServerEvent) :
    Threads.Follows (RequestCall json) (RequestEnd json)
      (httpServer json lower server w events) :=
  Threads.run_along (serveRequest_along json) _ _

theorem httpServer_replays (w : World) (events : List ServerEvent) :
    Threads.Replays (callServer lower server) w
      (httpServer json lower server w events) := Threads.run_replay _ _

end TaxiService.Proofs
