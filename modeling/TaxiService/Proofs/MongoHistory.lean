import TaxiService.Proofs.MongoDocuments
import TaxiService.Spec.MongoHistory

/-!
# One document for a login, and it stays

Handled one at a time, requests keep three things of the collection: its
documents are those of users, no two of them have one login, and each was
inserted by a request that was answered 201 (`collection_users`). It only grows.
So the look-up of a created login finds the document of that request whatever
the server picks, and the two handlers print it alike.
-/

namespace TaxiService.Proofs

open TaxiService.Lib TaxiService.Model TaxiService.Spec
open TaxiService.Model.Documents (Arrival checkUser pick serveMongo)

variable {json : MongoJson} {regex : StdString → Option (StdString → Bool)}

/-- A request is answered 201 and leaves one more document, of a login there
was none of, or it leaves the collection alone. -/
theorem serveMongo_cases (docs : List Bson) (a : Arrival) :
    (∃ response, response.status ≠ .created ∧
      serveMongo json (openServer regex) docs a = (response, docs)) ∨
    ∃ fields, requestLogin json a.request = some fields.login ∧
      fields.login ≠ [] ∧ withLogin fields.login docs = [] ∧
      serveMongo json (openServer regex) docs a =
        (⟨.created, [contentType], json.toString (createdJson fields)⟩,
          docs ++ [makeDoc fields a.now]) := by
  obtain ⟨request, now, choice⟩ := a
  cases request with
  | get login nameMask =>
      exact .inl (serveMongo_get _ docs now choice login nameMask)
  | create requestBody =>
      by_cases hpasses : ∃ fields, Passes json requestBody fields
      · obtain ⟨fields, hpasses⟩ := hpasses
        by_cases hnone : withLogin fields.login docs = []
        · exact .inr ⟨fields, requestLogin_of_passes hpasses,
            login_ne_nil_of_passes hpasses, hnone,
            serveMongo_inserted _ docs now choice hpasses hnone rfl⟩
        · exact .inl ⟨_, error_not_created _ (by decide),
            serveMongo_found _ docs now choice hpasses hnone⟩
      · exact .inl (serveMongo_unchecked _ docs now choice
          fun fields h => hpasses ⟨fields, h⟩)

theorem collectionAfter_concat (before : List Arrival) (a : Arrival) :
    collectionAfter json regex (before ++ [a]) =
      (nextAnswer json regex before a).2 := run_concat ..

/-- The three things that requests keep. -/
theorem collection_users (json : MongoJson)
    (regex : StdString → Option (StdString → Bool)) (before : List Arrival) :
    ∃ users, collectionAfter json regex before = users.map documentOf ∧
      UniqueLogins users ∧
      ∀ u ∈ users, ∃ earlier a later body, before = earlier ++ a :: later ∧
        Creates json regex earlier a u.login body := by
  induction before using List.reverseRecOn with
  | nil => exact ⟨[], rfl, List.nodup_nil, fun u hu => by cases hu⟩
  | append_singleton before a ih =>
      obtain ⟨users, hdocs, hunique, hcreated⟩ := ih
      have holder : ∀ u ∈ users, ∃ earlier b later body,
          before ++ [a] = earlier ++ b :: later ∧
          Creates json regex earlier b u.login body := by
        intro u hu
        obtain ⟨earlier, b, later, body, rfl, h⟩ := hcreated u hu
        exact ⟨earlier, b, later ++ [a], body, by simp, h⟩
      rw [collectionAfter_concat, nextAnswer]
      rcases serveMongo_cases (collectionAfter json regex before) a with
        ⟨response, -, hserve⟩ | ⟨fields, hlogin, -, hnone, hserve⟩
      · rw [hserve]
        exact ⟨users, hdocs, hunique, holder⟩
      · have hnew : ∀ u ∈ users, u.login ≠ fields.login := by
          rw [hdocs, withLogin_eq_nil] at hnone
          exact hnone
        refine ⟨users ++ [⟨fields, a.now⟩], ?_, ?_, fun u hu => ?_⟩
        · rw [hserve, hdocs, List.map_append]
          rfl
        · rw [UniqueLogins, List.map_append, List.nodup_append]
          refine ⟨hunique, List.nodup_singleton _, fun l hl m hm => ?_⟩
          obtain ⟨u, hu, rfl⟩ := List.mem_map.mp hl
          rw [List.mem_singleton.mp hm]
          exact hnew u hu
        · rcases List.mem_append.mp hu with hu | hu
          · exact holder u hu
          · rw [List.mem_singleton.mp hu]
            refine ⟨before, a, [], _, rfl, hlogin, ?_, rfl⟩
            rw [nextAnswer, hserve]

/-- What is in the collection stays there. -/
theorem mem_collection_append {before : List Arrival} {doc : Bson}
    (h : doc ∈ collectionAfter json regex before) (more : List Arrival) :
    doc ∈ collectionAfter json regex (before ++ more) := by
  induction more using List.reverseRecOn with
  | nil => rwa [List.append_nil]
  | append_singleton more a ih =>
      rw [← List.append_assoc, collectionAfter_concat, nextAnswer]
      rcases serveMongo_cases (collectionAfter json regex (before ++ more)) a with
        ⟨response, -, hserve⟩ | ⟨fields, -, -, -, hserve⟩
      · rw [hserve]
        exact ih
      · rw [hserve]
        exact List.mem_append_left _ ih

/-- A request that is answered 201 has inserted the document its body tells. -/
theorem inserted_of_creates {before : List Arrival} {a : Arrival}
    {login body : StdString} (h : Creates json regex before a login body) :
    ∃ fields, fields.login = login ∧
      body = json.toString (createdJson fields) ∧ login ≠ [] ∧
      makeDoc fields a.now ∈ collectionAfter json regex (before ++ [a]) := by
  obtain ⟨hlogin, hstatus, rfl⟩ := h
  rw [collectionAfter_concat]
  rw [nextAnswer] at hstatus ⊢
  rcases serveMongo_cases (collectionAfter json regex before) a with
    ⟨response, hne, hserve⟩ | ⟨fields, hfields, hnonempty, -, hserve⟩
  · rw [hserve] at hstatus
    exact (hne hstatus).elim
  · cases hfields.symm.trans hlogin
    rw [hserve]
    exact ⟨fields, rfl, rfl, hnonempty,
      List.mem_append_right _ List.mem_cons_self⟩

/-- The look-up of a created login finds that document and no other. -/
theorem found_of_creates {before : List Arrival} {a : Arrival}
    {login body : StdString} (h : Creates json regex before a login body)
    (between : List Arrival) : login ≠ [] ∧
      withLogin login (collectionAfter json regex (before ++ a :: between)) ≠ [] ∧
      ∀ doc ∈ withLogin login
          (collectionAfter json regex (before ++ a :: between)),
        ∃ built, Documents.makeUserJson doc = .ok built ∧
          json.toString built = body := by
  obtain ⟨fields, rfl, rfl, hne, hinserted⟩ := inserted_of_creates h
  have hmem := mem_collection_append hinserted between
  rw [List.append_assoc] at hmem
  obtain ⟨users, hdocs, hunique, -⟩ :=
    collection_users json regex (before ++ a :: between)
  replace hmem : makeDoc fields a.now ∈
    collectionAfter json regex (before ++ a :: between) := hmem
  rw [hdocs] at hmem ⊢
  obtain ⟨u, hu, hdoc⟩ := List.mem_map.mp hmem
  have hfields : u = ⟨fields, a.now⟩ := documentOf_injective hdoc
  refine ⟨hne, ?_, fun doc hd => ?_⟩
  · rw [ne_eq, withLogin_eq_nil]
    intro hnone
    exact hnone u hu (by rw [hfields])
  · rw [withLogin_documents] at hd
    obtain ⟨v, hv, rfl⟩ := List.mem_map.mp hd
    obtain ⟨hv, hlogin⟩ := List.mem_filter.mp hv
    -- No two users have one login.
    have hsame : v = u := by
      refine List.inj_on_of_nodup_map hunique hv hu ?_
      rw [hfields]
      exact eq_of_beq hlogin
    rw [hsame, hfields]
    exact ⟨_, makeUserJson_makeDoc fields a.now, rfl⟩

/-- What was created is shown as it was answered and stays taken, and nothing
else is found. -/
theorem roundTrip (json : MongoJson)
    (regex : StdString → Option (StdString → Bool)) : RoundTrip json regex where
  shown before a login body h between now choice := by
    obtain ⟨hne, hfound, hbody⟩ := found_of_creates h between
    obtain ⟨doc, hdoc⟩ := Option.ne_none_iff_exists'.mp
      (mt (pick_eq_none choice).mp hfound)
    obtain ⟨built, hbuilt, rfl⟩ := hbody doc (mem_of_pick hdoc)
    rw [nextAnswer, serveMongo_shown _ _ now choice hne hdoc hbuilt]
  taken before a login body h between requestBody fields now choice hpasses
      hlogin := by
    obtain ⟨-, hfound, -⟩ := found_of_creates h between
    rw [← hlogin] at hfound
    exact serveMongo_found _ _ now choice hpasses hfound
  missing before login hne hnever now choice := by
    obtain ⟨users, hdocs, -, hcreated⟩ :=
      collection_users json regex before
    have hnone : withLogin login (collectionAfter json regex before) = [] := by
      rw [hdocs, withLogin_eq_nil]
      rintro u hu rfl
      obtain ⟨earlier, a, later, body, hbefore, h⟩ := hcreated u hu
      exact hnever earlier a later body hbefore h
    rw [nextAnswer, serveMongo_missing _ _ now choice hne hnone]

example : ∃ body, Creates memberJson (fun _ => none) [] ⟨annRequest, 0, 0⟩
    (bytes "ann") body := ⟨_, by decide +kernel, by decide +kernel, rfl⟩

end TaxiService.Proofs
