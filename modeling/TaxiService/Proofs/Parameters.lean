import TaxiService.Proofs.CreateRequests
import TaxiService.Spec.Parameters

/-!
# What the handlers make of a number

`std::stoi` reads every decimal integer of 32 bits (`stoi_of_intText`), and the
three handlers pass on what it read. It reads more than these, though, and for
a text it cannot read at all it throws, which no handler catches: there is no
text that a handler refuses.
-/

namespace TaxiService.Proofs

open TaxiService.Lib TaxiService.Model TaxiService.Spec

/-! ## `std::stoi` on a decimal integer -/

theorem isSpace_of_isDigit {b : UInt8} (h : isDigit b = true) :
    isSpace b = false := by
  simp only [isDigit, Bool.and_eq_true, decide_eq_true_eq,
    UInt8.le_iff_toNat_le, UInt8.reduceToNat] at h
  simp only [isSpace, Bool.or_eq_false_iff, beq_eq_false_iff_ne, ne_eq,
    Bool.and_eq_false_iff, decide_eq_false_iff_not, UInt8.le_iff_toNat_le,
    UInt8.reduceToNat, ← UInt8.toNat_inj]
  omega

theorem splitSign_digits {d : UInt8} {ds : StdString}
    (h : isDigit d = true) : splitSign (d :: ds) = (false, d :: ds) := by
  rw [splitSign]
  · intro rest heq
    cases heq
    exact absurd h (by decide)
  · intro rest heq
    cases heq
    exact absurd h (by decide)

/-- The sign and the digits, when nothing stands around them. -/
theorem splitSign_of_denotes {s : StdString} {n : Int} (h : Denotes s n) :
    ∃ negative ds, splitSign (s.dropWhile isSpace) = (negative, ds) ∧
      ds ≠ [] ∧ (∀ d ∈ ds, isDigit d = true) ∧
      n = if negative then -(digitsValue ds : Int) else digitsValue ds := by
  cases h with
  | plain hne hds =>
      cases s with
      | nil => exact absurd rfl hne
      | cons d ds =>
          have hd := hds d List.mem_cons_self
          refine ⟨false, d :: ds, ?_, hne, hds, rfl⟩
          rw [List.dropWhile_cons_of_neg (by simp [isSpace_of_isDigit hd]),
            splitSign_digits hd]
  | @plus ds hne hds => exact ⟨false, ds, rfl, hne, hds, rfl⟩
  | @minus ds hne hds => exact ⟨true, ds, rfl, hne, hds, rfl⟩

theorem stoi_of_intText {s : StdString} {n : Int} (h : IntText s n) :
    stoi s = .ok n := by
  obtain ⟨hn, hmin, hmax⟩ := h
  obtain ⟨negative, ds, hsplit, hne, hds, rfl⟩ := splitSign_of_denotes hn
  have hrange : inIntRange
      (if negative then -(digitsValue ds : Int) else digitsValue ds) = true := by
    simp only [inIntRange, Bool.and_eq_true, decide_eq_true_eq]
    exact ⟨hmin, hmax⟩
  simp only [stoi, hsplit, List.takeWhile_eq_self_iff.mpr hds,
    List.isEmpty_iff, if_neg hne, if_pos hrange]

/-! ## The three handlers -/

section

variable {json : UserverJson} {lower : StdString → StdString}

/-- What the two mutations do with the answer of storage. -/
def rideAnswer (json : UserverJson) (conflict : String) :
    Option Ride → Handler Response
  | none => return respond .conflict (json.toString (errorJson conflict))
  | some ride => do
      call (.invalidatePrefix (bytes "rides:"))
      return respond .ok (json.toString (makeRideJson ride))

theorem ridesComplete_eq {s : StdString} (hs : s ≠ []) :
    ridesComplete json s = orStoi (stoi s) >>= fun rideId =>
      call (.completeRide rideId) >>=
        rideAnswer json "ride cannot be completed" := by
  rw [ridesComplete, if_neg (by rwa [List.isEmpty_iff])]
  refine congrArg (orStoi (stoi s) >>= ·) (funext fun rideId => ?_)
  refine congrArg (call (.completeRide rideId) >>= ·) (funext fun ride => ?_)
  cases ride with
  | none => rfl
  | some ride => rfl

theorem ridesAccept_eq {body s : StdString} {driverId : Int} (hs : s ≠ [])
    (hfield : intField json body "driver_id" = .ok driverId)
    (hpos : 0 < driverId) :
    ridesAccept json body s = orStoi (stoi s) >>= fun rideId =>
      call (.acceptRide rideId driverId) >>=
        rideAnswer json "ride cannot be accepted" := by
  obtain ⟨value, hvalue, hfield⟩ := bind_ok hfield
  obtain ⟨member, hmember, hint⟩ := bind_ok hfield
  have hsome : ¬s.isEmpty = true := by rwa [List.isEmpty_iff]
  simp only [ridesAccept, getInt, hvalue, hmember, hint, orJson,
    Prog.pure_then, if_neg hsome]
  refine congrArg (orStoi (stoi s) >>= ·) (funext fun rideId => ?_)
  rw [if_neg (by omega)]
  refine congrArg (call (.acceptRide rideId driverId) >>= ·)
    (funext fun ride => ?_)
  cases ride with
  | none => rfl
  | some ride => rfl

/-- What a history lookup does once it knows the passenger. -/
def showHistory (json : UserverJson) (key : StdString) (userId : Int) :
    Handler Response := do
  let rides ← call (.getRidesByUserId userId)
  let body := json.toString (.array (rides.map makeRideJson))
  call (.cacheSet key body 60)
  return ⟨.ok, [contentType, xCache "MISS"], body⟩

theorem ridesGet_history_eq {s status : StdString} (hs : s ≠ []) :
    ridesGet json s status =
      call (.cacheGet (bytes "rides:history:" ++ s)) >>= fun cached =>
        match cached with
        | some cached => return ⟨.ok, [contentType, xCache "HIT"], cached⟩
        | none => orStoi (stoi s) >>=
            showHistory json (bytes "rides:history:" ++ s) := by
  cases s with
  | nil => exact absurd rfl hs
  | cons c cs =>
      refine congrArg (Prog.op _) (funext fun cached => ?_)
      cases cached with
      | some body => rfl
      | none => rfl

/-! ## Serving the three requests -/

/-- Storage is asked once, and for that number. -/
theorem storageCalls_of_stoi {p : IntParameter} {a : App} {clocks : Readings}
    {s : StdString} {n : Int} (hs : s ≠ []) (hready : p.Ready json a clocks s)
    (hstoi : stoi s = .ok n) :
    storageCalls json lower a (p.request s, clocks) = [p.storageCall n] := by
  cases p with
  | history status =>
      have hmiss : (callApp lower clocks
          (.cacheGet (bytes "rides:history:" ++ s)) a).1 = none := hready
      simp only [storageCalls, IntParameter.request, handle,
        ridesGet_history_eq hs, Prog.calls_bind, call, Prog.perform, Prog.run,
        hmiss, hstoi, orStoi]
      rfl
  | complete =>
      simp only [storageCalls, IntParameter.request, handle,
        ridesComplete_eq hs, hstoi, orStoi, Prog.pure_then, Prog.calls_bind,
        call, Prog.perform, Prog.run]
      cases (callApp lower clocks (.completeRide n) a).1 with
      | none => rfl
      | some ride => rfl
  | accept body driverId =>
      simp only [storageCalls, IntParameter.request, handle,
        ridesAccept_eq hs hready.1 hready.2, hstoi, orStoi, Prog.pure_then,
        Prog.calls_bind, call, Prog.perform, Prog.run]
      cases (callApp lower clocks (.acceptRide n driverId) a).1 with
      | none => rfl
      | some ride => rfl

/-- The exception leaves the handler. -/
theorem serve_of_stoi_error {p : IntParameter} {a : App} {clocks : Readings}
    {s : StdString} {e : StoiError} (hs : s ≠ [])
    (hready : p.Ready json a clocks s) (hstoi : stoi s = .error e) :
    (serve lower json a (p.request s, clocks)).1 = .error (.stoi e) := by
  cases p with
  | history status =>
      have hmiss : (callApp lower clocks
          (.cacheGet (bytes "rides:history:" ++ s)) a).1 = none := hready
      simp only [serve, IntParameter.request, handle, ridesGet_history_eq hs,
        Prog.run_bind, call, Prog.perform, Prog.run, hmiss, hstoi, orStoi]
  | complete =>
      simp only [serve, IntParameter.request, handle, ridesComplete_eq hs,
        hstoi, orStoi, Prog.run_bind, Prog.run]
  | accept body driverId =>
      simp only [serve, IntParameter.request, handle,
        ridesAccept_eq hs hready.1 hready.2, hstoi, orStoi, Prog.run_bind,
        Prog.run]

end

/-! ## The result -/

/-- A parameter is read as its callers may expect exactly when it is a decimal
integer of 32 bits. -/
theorem numberRead_iff (json : UserverJson) (lower : StdString → StdString)
    (a : App) (clocks : Readings) (p : IntParameter) (s : StdString)
    (hs : s ≠ []) (hready : p.Ready json a clocks s) :
    NumberRead json lower a clocks p s ↔ ∃ n, IntText s n := by
  constructor
  · rintro ⟨-, hother⟩
    by_contra hnot
    obtain ⟨⟨text, response, hok, hstatus, -⟩, hcalls, -⟩ :=
      hother fun n hn => hnot ⟨n, hn⟩
    cases hstoi : stoi s with
    | error e =>
        rw [serve_of_stoi_error hs hready hstoi] at hok
        cases hok
    | ok n =>
        rw [storageCalls_of_stoi hs hready hstoi] at hcalls
        cases hcalls
  · rintro ⟨n, hn⟩
    refine ⟨fun m hm => ?_, fun hnone => absurd hn (hnone n)⟩
    exact storageCalls_of_stoi hs hready (stoi_of_intText hm)

/-- One user, one driver, and a ride the driver has accepted. -/
def underway : App :=
  ⟨⟨reach [.createUser (bytes "anna") (bytes "secret") (bytes "Anna"),
      .createDriver 1 (bytes "Lada") (bytes "A001AA") (bytes "7700"),
      .createRide 1 (bytes "Home") (bytes "Work") 0, .acceptRide 1 1],
    .empty⟩, .empty⟩

/-- Ride 1 is completed under the number it has. -/
theorem numberRead_one : NumberRead readingJson id underway noon .complete
    (bytes "1") := by
  have hone : Denotes (bytes "1") (digitsValue (bytes "1")) :=
    .plain (by decide) (by decide +kernel)
  exact (numberRead_iff readingJson id underway noon .complete (bytes "1")
    (by decide) trivial).mpr ⟨_, hone, by decide⟩

theorem mem_of_denotes {s : StdString} {n : Int} (h : Denotes s n) :
    ∀ d ∈ s, isDigit d = true ∨ d = 43 ∨ d = 45 := by
  intro d hd
  cases h with
  | plain hne hds => exact .inl (hds d hd)
  | plus hne hds =>
      rcases List.mem_cons.mp hd with rfl | hd
      · exact .inr (.inl rfl)
      · exact .inl (hds d hd)
  | minus hne hds =>
      rcases List.mem_cons.mp hd with rfl | hd
      · exact .inr (.inr rfl)
      · exact .inl (hds d hd)

/-- `1abc` completes ride 1, and a user id without digits throws. -/
theorem trailing_text_completes :
    (serve id readingJson underway
        (.ridesComplete (bytes "1abc"), noon)).2.backend.db.rides.rows.map
      RideRow.status = [.completed] ∧
    (serve id readingJson underway (.ridesGet (bytes "abc") [], noon)).1 =
      .error (.stoi .invalidArgument) ∧
    ¬NumberRead readingJson id underway noon .complete (bytes "1abc") ∧
    ¬NumberRead readingJson id underway noon (.history []) (bytes "abc") := by
  have hthrows : (serve id readingJson underway
      (.ridesGet (bytes "abc") [], noon)).1 =
      .error (.stoi .invalidArgument) := by decide +kernel
  have hcalls : storageCalls readingJson id underway
      (.ridesComplete (bytes "1abc"), noon) = [.completeRide 1] := by
    decide +kernel
  have hnumber : ∀ s : StdString, 97 ∈ s → ∀ n, ¬IntText s n := by
    intro s hs n h
    exact absurd (mem_of_denotes h.1 97 hs) (by decide)
  refine ⟨by decide +kernel, hthrows, fun h => ?_, fun h => ?_⟩
  · obtain ⟨-, hnone, -⟩ := h.2 (hnumber _ (by decide))
    cases hcalls.symm.trans hnone
  · obtain ⟨⟨text, response, hok, -⟩, -⟩ := h.2 (hnumber _ (by decide))
    cases hthrows.symm.trans hok

end TaxiService.Proofs
