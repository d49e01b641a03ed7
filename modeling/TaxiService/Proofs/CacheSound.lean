import TaxiService.Proofs.HandlerShapes

/-!
# The cache is transparent

Serving with the cache and without it are two machines that take the same
requests. They are related by a simulation: the same database, the same rate
limiter, and a sound cache on the one side. A sound cache makes a hit and a
miss the same answer. What keeps it sound is that a mutation leaves the
answers of other families alone, and empties its own when it changes them.
-/

namespace TaxiService.Proofs

open TaxiService.Lib TaxiService.Model TaxiService.Spec

variable {lower : StdString → StdString} {json : UserverJson}

/-! ## Keys -/

theorem text_startsWith (k : CacheKey) (family : Family) :
    startsWith k.text family.pre = decide (k.family = family) := by
  cases k <;> cases family <;> rfl

theorem text_injective {k k' : CacheKey} (h : k.text = k'.text) : k = k' := by
  cases k <;> cases k' <;> first
    | exact congrArg _ (List.append_cancel_left h)
    | rfl
    | cases h

/-! ## Answers -/

/-- An answer about users reads the users table only, and one about rides the
rides table only. -/
theorem storageAnswer_congr {db db' : Db} (k : CacheKey)
    (hu : k.family = .users → db'.users = db.users)
    (hr : k.family = .rides → db'.rides = db.rides) :
    storageAnswer lower json db' k = storageAnswer lower json db k := by
  cases k with
  | login login =>
      simp only [storageAnswer, getUserByLogin, kSelectUserByLogin, hu rfl]
  | nameMask nameMask =>
      simp only [storageAnswer, findUsersByNameMask, kFindUsersByMask, hu rfl]
  | history userId =>
      simp only [storageAnswer, getRidesByUserId, kSelectRidesByUserId, hr rfl]
  | active =>
      simp only [storageAnswer, getActiveRides, kSelectActiveRides, hr rfl]

/-- What a mutation can change: the table of its family, and only when its
answer says so. -/
structure WriteFrame (family : Family) (changed : Bool) (db db' : Db) :
    Prop where
  users : family ≠ .users ∨ changed = false → db'.users = db.users
  rides : family ≠ .rides ∨ changed = false → db'.rides = db.rides

theorem WriteFrame.same {family : Family} {changed : Bool} {db db' : Db}
    (h : SameTables db db') : WriteFrame family changed db db' :=
  ⟨fun _ => h.1, fun _ => h.2.2⟩

theorem WriteFrame.answer {family : Family} {changed : Bool} {db db' : Db}
    (h : WriteFrame family changed db db') (k : CacheKey)
    (hk : k.family ≠ family ∨ changed = false) :
    storageAnswer lower json db' k = storageAnswer lower json db k := by
  refine storageAnswer_congr k (fun hu => h.users ?_) (fun hr => h.rides ?_)
  · exact hk.imp (fun hne he => hne (hu.trans he.symm)) id
  · exact hk.imp (fun hne he => hne (hr.trans he.symm)) id

theorem createUser_frame (login password fullName : StdString) (db : Db) :
    WriteFrame .users
      (commits (.createUser login password fullName)
        (createUser login password fullName db).1) db
      (createUser login password fullName db).2 := by
  rw [createUser]
  rcases kInsertUser_cases login password fullName db with
    ⟨e, db', heq, hsame⟩ | ⟨row, db', heq, -, -, hr⟩
  · rw [heq]
    exact .same hsame
  · rw [heq]
    refine ⟨fun h => h.elim (absurd rfl) fun h => ?_, fun _ => hr⟩
    cases h

theorem createDriver_frame (userId : Int)
    (carModel carNumber licenseNumber : StdString) (db : Db) :
    WriteFrame .drivers
      (commits (.createDriver userId carModel carNumber licenseNumber)
        (createDriver userId carModel carNumber licenseNumber db).1) db
      (createDriver userId carModel carNumber licenseNumber db).2 := by
  rw [createDriver]
  rcases kInsertDriver_cases userId carModel carNumber licenseNumber db with
    ⟨e, db', heq, hsame⟩ | ⟨row, db', heq, -, -, -, hu, hr⟩
  · rw [heq]
    exact .same hsame
  · rw [heq]
    exact ⟨fun _ => hu, fun _ => hr⟩

theorem createRide_frame (passengerId : Int)
    (pickupAddress destinationAddress : StdString) (now : Timestamp) (db : Db) :
    WriteFrame .rides
      (commits (.createRide passengerId pickupAddress destinationAddress)
        (createRide passengerId pickupAddress destinationAddress now db).1) db
      (createRide passengerId pickupAddress destinationAddress now db).2 := by
  rw [createRide]
  rcases kInsertRide_cases passengerId pickupAddress destinationAddress now db
    with ⟨e, db', heq, hsame⟩ | ⟨row, db', heq, -, -, -, -, hu, -⟩
  · rw [heq]
    exact .same hsame
  · rw [heq]
    refine ⟨fun _ => hu, fun h => h.elim (absurd rfl) fun h => ?_⟩
    cases h

/-- The two transactional methods: a ride came back, or nothing happened. -/
theorem finish_frame (changed : Option Ride → Bool) {before : Db}
    {res : List RideRow × Db} (hu : res.2.users = before.users)
    (hc : ∀ ride, changed (some ride) = true) :
    WriteFrame .rides (changed (finish before res).1) before
      (finish before res).2 := by
  obtain ⟨rows, after⟩ := res
  cases rows with
  | nil => exact .same (.refl before)
  | cons row rows =>
      exact ⟨fun _ => hu, fun h => h.elim (absurd rfl) fun h =>
        absurd ((hc _).symm.trans h) nofun⟩

variable (lower) in
/-- A mutation does to the backend what it does without a cache. -/
theorem callApp_write (clocks : Readings) {e : Effect} {family : Family}
    (h : writes e = some family) (a : App) :
    callApp lower clocks e a =
      ((callBackend lower clocks e a.backend).1,
        { a with backend := (callBackend lower clocks e a.backend).2 }) := by
  cases e <;> first | rfl | cases h

variable (lower) in
theorem callBackend_frame (clocks : Readings) {e : Effect} {family : Family}
    (h : writes e = some family) (b : Backend) :
    WriteFrame family (commits e (callBackend lower clocks e b).1) b.db
      (callBackend lower clocks e b).2.db := by
  cases e with
  | createUser login password fullName =>
      cases h
      exact createUser_frame login password fullName b.db
  | createDriver userId carModel carNumber licenseNumber =>
      cases h
      exact createDriver_frame userId carModel carNumber licenseNumber b.db
  | createRide passengerId pickupAddress destinationAddress =>
      cases h
      exact createRide_frame passengerId pickupAddress destinationAddress
        clocks.now b.db
  | acceptRide rideId driverId =>
      cases h
      exact finish_frame (commits (.acceptRide rideId driverId)) rfl
        fun _ => rfl
  | completeRide rideId =>
      cases h
      exact finish_frame (commits (.completeRide rideId)) rfl
        fun _ => rfl
  | _ => cases h

/-! ## The cache -/

theorem CacheSound.empty (db : Db) : CacheSound lower json db .empty := by
  intro k e h
  cases h

theorem CacheSound.congr {db db' : Db} {cache : ResponseCache}
    (h : CacheSound lower json db cache)
    (hdb : ∀ k, storageAnswer lower json db' k = storageAnswer lower json db k) :
    CacheSound lower json db' cache := by
  intro k e hk
  rw [hdb]
  exact h k e hk

/-- What a lookup leaves is part of what was there, and a hit is in it. -/
theorem get_cases (cache : ResponseCache) (key : StdString) (now : Ticks) :
    (∀ key' e, (cache.get key now).2.entries.get? key' = some e →
      cache.entries.get? key' = some e) ∧
    ∀ body, (cache.get key now).1 = some body →
      ∃ e, cache.entries.get? key = some e ∧ e.value = body := by
  rw [ResponseCache.get]
  split
  · refine ⟨fun _ _ h => h, fun body h => ?_⟩
    cases h
  · next e he =>
      split
      · refine ⟨fun key' e' h => ?_, fun body h => ?_⟩
        · rw [Assoc.get?_erase] at h
          split at h
          · cases h
          · exact h
        · cases h
      · exact ⟨fun _ _ h => h, fun body h => ⟨e, he, Option.some.inj h⟩⟩

theorem CacheSound.get {db : Db} {cache : ResponseCache}
    (h : CacheSound lower json db cache) (key : StdString) (now : Ticks) :
    CacheSound lower json db (cache.get key now).2 :=
  fun k e hk => h k e ((get_cases cache key now).1 _ _ hk)

theorem CacheSound.set {db : Db} {cache : ResponseCache}
    (h : CacheSound lower json db cache) {k : CacheKey} {body : StdString}
    (hbody : storageAnswer lower json db k = some body) (ttl : Int)
    (now : Ticks) : CacheSound lower json db (cache.set k.text body ttl now) := by
  intro k' e hk
  rw [ResponseCache.set, Assoc.get?_set] at hk
  split at hk
  · next heq =>
      cases hk
      rw [← text_injective heq, hbody]
  · exact h k' e hk

/-- After the invalidation of a family, a change of that family's answers
makes no difference. -/
theorem CacheSound.invalidate {db db' : Db} {cache : ResponseCache}
    {family : Family} (h : CacheSound lower json db cache)
    (hdb : ∀ k : CacheKey, k.family ≠ family →
      storageAnswer lower json db' k = storageAnswer lower json db k) :
    CacheSound lower json db' (cache.invalidatePrefix family.pre) := by
  intro k e hk
  rw [ResponseCache.invalidatePrefix, Assoc.get?_eraseWhere,
    text_startsWith] at hk
  split at hk
  · cases hk
  · next hne =>
      rw [hdb k (by simpa using hne)]
      exact h k e hk

/-! ## One request -/

variable (clocks : Readings)

variable (lower json) in
/-- A miss answers what storage answers and caches it, or fails alike with
and without the cache. -/
theorem missPath_cases (headers : List (StdString × StdString)) (k : CacheKey)
    (a : App) :
    (∃ body ttl, storageAnswer lower json a.backend.db k = some body ∧
      (missPath json headers k).run (callApp lower clocks) a =
        (.ok ⟨.ok, headers ++ [xCache "MISS"], body⟩,
          { a with cache := a.cache.set k.text body ttl clocks.set }) ∧
      (missPath json headers k).run (callBackend lower clocks) a.backend =
        (.ok ⟨.ok, headers ++ [xCache "MISS"], body⟩, a.backend)) ∨
    ∃ out, storageAnswer lower json a.backend.db k = none ∧
      (∀ body, Outcome.answer out ≠ .ok (.ok, body)) ∧
      (missPath json headers k).run (callApp lower clocks) a = (out, a) ∧
      (missPath json headers k).run (callBackend lower clocks) a.backend =
        (out, a.backend) := by
  cases k with
  | login login =>
      simp only [missPath, storageAnswer, Prog.run_op, callApp, callBackend]
      rcases getUserByLogin login a.backend.db with e | (_ | user)
      · refine .inr ⟨_, rfl, fun _ h => ?_, rfl, rfl⟩
        cases h
      · refine .inr ⟨_, rfl, fun _ h => ?_, rfl, rfl⟩
        cases h
      · exact .inl ⟨_, _, rfl, rfl, rfl⟩
  | nameMask nameMask =>
      simp only [missPath, storageAnswer, Prog.run_op, callApp, callBackend]
      cases findUsersByNameMask lower nameMask a.backend.db with
      | error e =>
          refine .inr ⟨_, rfl, fun _ h => ?_, rfl, rfl⟩
          cases h
      | ok users => exact .inl ⟨_, _, rfl, rfl, rfl⟩
  | history userId =>
      simp only [missPath, storageAnswer]
      cases stoi userId with
      | error e =>
          refine .inr ⟨_, rfl, fun _ h => ?_, rfl, rfl⟩
          cases h
      | ok n => exact .inl ⟨_, _, rfl, rfl, rfl⟩
  | active => exact .inl ⟨_, _, rfl, rfl, rfl⟩

variable (lower json) in
/-- The handler answers alike with and without the cache, leaves the same
backend, and leaves the cache sound for it. -/
structure Agrees (p : Handler Response) (a : App) : Prop where
  answer : Outcome.answer (p.run (callApp lower clocks) a).1 =
    Outcome.answer (p.run (callBackend lower clocks) a.backend).1
  backend : (p.run (callApp lower clocks) a).2.backend =
    (p.run (callBackend lower clocks) a.backend).2
  sound : CacheSound lower json (p.run (callApp lower clocks) a).2.backend.db
    (p.run (callApp lower clocks) a).2.cache

variable {clocks}

theorem agrees_pure (out : Response) {a : App}
    (h : CacheSound lower json a.backend.db a.cache) :
    Agrees lower json clocks (.pure out) a := ⟨rfl, rfl, h⟩

theorem agrees_throw (x : Exn) {a : App}
    (h : CacheSound lower json a.backend.db a.cache) :
    Agrees lower json clocks (.throw x) a := ⟨rfl, rfl, h⟩

theorem agrees_lookup (headers : List (StdString × StdString)) (k : CacheKey)
    {a : App} (h : CacheSound lower json a.backend.db a.cache) :
    Agrees lower json clocks (lookup json headers k) a := by
  obtain ⟨-, hhit⟩ := get_cases a.cache k.text clocks.get
  have hsound := CacheSound.get h k.text clocks.get
  have hmiss := missPath_cases lower json clocks headers k
    { a with cache := (a.cache.get k.text clocks.get).2 }
  have happ : (lookup json headers k).run (callApp lower clocks) a =
      (afterGet json headers k (a.cache.get k.text clocks.get).1).run
        (callApp lower clocks)
        { a with cache := (a.cache.get k.text clocks.get).2 } := rfl
  have hback : (lookup json headers k).run (callBackend lower clocks) a.backend =
      (missPath json headers k).run (callBackend lower clocks) a.backend := rfl
  cases hget : (a.cache.get k.text clocks.get).1 with
  | some body =>
      -- The entry is what storage answers, so the miss answers it too.
      obtain ⟨e, he, hval⟩ := hhit body hget
      have hans := h k e he
      rw [hval] at hans
      rw [hget] at happ
      rcases hmiss with ⟨body', ttl, hans', -, hrun⟩ | ⟨out, hans', -⟩
      · rw [hans] at hans'
        cases hans'
        constructor
        · rw [happ, hback, hrun]
          rfl
        · rw [happ, hback, hrun]
          rfl
        · rw [happ]
          exact hsound
      · rw [hans] at hans'
        cases hans'
  | none =>
      rw [hget, afterGet] at happ
      rcases hmiss with ⟨body, ttl, hans, hrunApp, hrun⟩ |
        ⟨out, -, -, hrunApp, hrun⟩
      · constructor
        · rw [happ, hback, hrunApp, hrun]
        · rw [happ, hback, hrunApp, hrun]
        · rw [happ, hrunApp]
          exact CacheSound.set hsound hans ttl clocks.set
      · constructor
        · rw [happ, hback, hrunApp, hrun]
        · rw [happ, hback, hrunApp, hrun]
        · rw [happ, hrunApp]
          exact hsound

theorem agrees_get {key? : Option CacheKey} {p : Handler Response}
    (hp : GetShape json key? p) {a : App}
    (h : CacheSound lower json a.backend.db a.cache) :
    Agrees lower json clocks p a := by
  cases hp with
  | refused response _ => exact agrees_pure response h
  | lookup headers k => exact agrees_lookup headers k h
  | limited k key limit window rest hrest =>
      let r := a.backend.limiter.check key limit window clocks.check
      let a' : App := { a with backend := { a.backend with limiter := r.2 } }
      have hnext : Agrees lower json clocks (rest r.1) a' := by
        rcases hrest r.1 with ⟨response, -, hr⟩ | ⟨headers, hr⟩
        · rw [hr]
          exact agrees_pure response h
        · rw [hr]
          exact agrees_lookup headers k h
      exact ⟨hnext.answer, hnext.backend, hnext.sound⟩

/-- A mutation makes the same call in both, and the invalidation after it
keeps the cache sound. -/
theorem agrees_mutation {family : Family} {p : Handler Response}
    (hp : MutationShape family p) {a : App}
    (h : CacheSound lower json a.backend.db a.cache) :
    Agrees lower json clocks p a := by
  cases hp with
  | refused response _ => exact agrees_pure response h
  | threw x => exact agrees_throw x h
  | write e he rest hrest =>
      have hframe := callBackend_frame lower clocks he a.backend
      have happ := callApp_write lower clocks he a
      have hafter := hrest (callBackend lower clocks e a.backend).1
      rcases hcall : callBackend lower clocks e a.backend with ⟨r, b⟩
      rw [hcall] at hframe happ hafter
      have hrun : (Prog.op e rest).run (callApp lower clocks) a =
          (rest r).run (callApp lower clocks) { a with backend := b } := by
        rw [Prog.run_op, happ]
      have hrun' : (Prog.op e rest).run (callBackend lower clocks) a.backend =
          (rest r).run (callBackend lower clocks) b := by
        rw [Prog.run_op, hcall]
      have hsame : commits e r = false →
          CacheSound lower json b.db a.cache := fun hc =>
        CacheSound.congr h fun k => hframe.answer k (.inr hc)
      generalize commits e r = changed at hframe hafter hsame
      generalize rest r = q at hafter hrun hrun'
      constructor
      · rw [hrun, hrun']
        cases hafter <;> rfl
      · rw [hrun, hrun']
        cases hafter <;> rfl
      · rw [hrun]
        cases hafter with
        | refused response _ => exact hsame rfl
        | threw x => exact hsame rfl
        | done response _ =>
            exact CacheSound.invalidate h fun k hk => hframe.answer k (.inl hk)

theorem agrees_handle (clocks : Readings) (request : Request) {a : App}
    (h : CacheSound lower json a.backend.db a.cache) :
    Agrees lower json clocks (handle json request) a := by
  cases hg : isGet request with
  | true => exact agrees_get (handle_get json hg) h
  | false => exact agrees_mutation (handle_mutation json hg) h

/-! ## Any number of requests -/

/-- Cache transparency: status codes and bodies are those of the service
without a cache, whatever the database and the clocks. -/
theorem cache_transparent (lower : StdString → StdString) (json : UserverJson)
    (b : Backend) (arrivals : List (Request × Readings)) :
    (serial (serve lower json) ⟨b, .empty⟩ arrivals).1.map Outcome.answer =
      (serial (serveUncached lower json) b arrivals).1.map Outcome.answer := by
  refine serial_sim (R := fun a b => a.backend = b ∧
    CacheSound lower json a.backend.db a.cache) ?_ ⟨rfl, CacheSound.empty b.db⟩
  rintro a _ ⟨request, clocks⟩ ⟨rfl, h⟩
  have hagree := agrees_handle clocks request h
  exact ⟨hagree.answer, hagree.backend, hagree.sound⟩

end TaxiService.Proofs
