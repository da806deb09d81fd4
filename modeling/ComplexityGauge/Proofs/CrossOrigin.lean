import ComplexityGauge.Proofs.ResponseHeaders

/-!
# Which pages may see an answer

The list of origins is written by hand, with blanks and empty entries as it comes, and a star among
the entries stands for every origin. What a page may see and whether it may send credentials is
decided from that list alone, in the same way on every answer.

A star is never answered where credentials are allowed. Without a star in the list, an answer names
the origin that asked, and only if that origin stands in the list character for character. Entries
that merely contain a star are origins like any other, and the empty origin is none.

## Main results

* `Origins.allowAll_ofText`, `Origins.mem_ofText_iff` — the origins of a list by its pieces
* `Cors.values_of_allowAll`, `Cors.values_of_listed` — what is granted under a star, and without
* `Cors.star_notMem_values` — a star and credentials are never granted together
* `Service.answer_crossOrigin` — what every answer grants
-/

namespace ComplexityGauge

open Text

/-! ### Lists of origins -/

namespace Origins

variable {list entry : Text}

/-- The pieces between the commas of a list, without the blanks around them. -/
def pieces (list : Text) : List Text := (list.splitOn ',').map trim

theorem mem_entries_iff : entry ∈ entries list ↔ entry ∈ pieces list ∧ entry ≠ [] := by
  simp only [entries, pieces, List.mem_filter, Bool.not_eq_true', List.isEmpty_eq_false_iff]

theorem contains_star_entries : (entries list).contains star = true ↔ star ∈ pieces list := by
  rw [List.contains_iff_mem, mem_entries_iff]
  exact and_iff_left (by decide)

/-- All origins are allowed if a piece of the list is a star. -/
theorem allowAll_ofText : allowAll (ofText list) = true ↔ star ∈ pieces list := by
  rw [allowAll, ofText]
  split_ifs with hstar
  · exact iff_of_true rfl (contains_star_entries.mp hstar)
  · exact contains_star_entries

/-- Without a star, the origins are the pieces that are not empty. -/
theorem mem_ofText_iff (hstar : star ∉ pieces list) :
    entry ∈ ofText list ↔ entry ∈ pieces list ∧ entry ≠ [] := by
  rw [ofText, if_neg (mt contains_star_entries.mp hstar), mem_entries_iff]

end Origins

/-! ### Grants

What is granted depends on the origins and on the origin that asks, if there is one. -/

namespace Cors

variable {origins : List Text} {origin : Text}

/-- Under a star every page may see the answer, and none may send credentials. -/
theorem values_of_allowAll (h : Origins.allowAll origins = true) (origin : Text) :
    headerValues originHeader (grants origins (some origin)) = [Origins.star] ∧
      headerValues credentialHeader (grants origins (some origin)) = [] := by
  rw [grants, credentialHeaders, originHeaders, if_pos h, if_pos h]
  exact ⟨rfl, rfl⟩

/-- Without a star a page may see the answer if its origin is listed. -/
theorem values_of_listed (h : ¬ Origins.allowAll origins = true) (origin : Text) :
    headerValues originHeader (grants origins (some origin)) =
      if origin ∈ origins then [origin] else [] := by
  have hallows : Origins.allows origins origin = true ↔ origin ∈ origins := by
    rw [Origins.allows, Bool.or_eq_true, or_iff_right h, List.contains_iff_mem]
  rw [grants, credentialHeaders, originHeaders, if_neg h, if_neg h]
  simp only [hallows]
  split_ifs <;> rfl

/-- Credentials are allowed only where there is no star. -/
theorem not_allowAll_of_values_ne_nil {asked : Option Text}
    (h : headerValues credentialHeader (grants origins asked) ≠ []) :
    ¬ Origins.allowAll origins = true := by
  intro hall
  cases asked with
  | none => exact h rfl
  | some origin => exact h (values_of_allowAll hall origin).2

/-- Without a star, what is granted is the origin that asks, if it is listed. -/
theorem mem_values_of_listed_iff (h : ¬ Origins.allowAll origins = true) {asked : Option Text} :
    origin ∈ headerValues originHeader (grants origins asked) ↔
      asked = some origin ∧ origin ∈ origins := by
  cases asked with
  | none => exact iff_of_false List.not_mem_nil (nomatch ·.1)
  | some asked =>
    rw [values_of_listed h, Option.some_inj]
    split_ifs with hlisted
    · rw [List.mem_singleton]
      exact ⟨fun heq => ⟨heq.symm, heq ▸ hlisted⟩, fun h => h.1.symm⟩
    · refine iff_of_false List.not_mem_nil ?_
      rintro ⟨rfl, hmem⟩
      exact hlisted hmem

/-- A star is not answered where credentials are allowed. -/
theorem star_notMem_values {asked : Option Text}
    (h : headerValues credentialHeader (grants origins asked) ≠ []) :
    Origins.star ∉ headerValues originHeader (grants origins asked) := by
  have hall := not_allowAll_of_values_ne_nil h
  intro hstar
  -- An origin that is granted is listed, and a listed star allows all of them.
  exact hall (List.contains_iff_mem.mpr ((mem_values_of_listed_iff hall).mp hstar).2)

end Cors

namespace Service

variable {s : Settings} {now : Text} {c : Counters} {r : Request} {o : Outcome}

/-- The origin that an answer is for: the one that asks, and none if the service failed. -/
def pageOrigin (r : Request) (response : Response) : Option Text :=
  if response.status = 500 then none else r.header? "origin".toList

theorem pageOrigin_eq_some_iff {response : Response} {origin : Text} :
    pageOrigin r response = some origin ↔
      response.status ≠ 500 ∧ r.header? "origin".toList = some origin := by
  unfold pageOrigin
  split_ifs with hfailed
  · exact iff_of_false (nomatch ·) (fun h => h.1 hfailed)
  · exact (and_iff_right hfailed).symm

/-- Every answer grants what the list of origins grants to the origin that it is for. -/
theorem AnsweredAt.values_of_grant (h : AnsweredAt s now c r o) {name : Text}
    (hname : name ∈ Cors.grantNames) :
    headerValues name o.response.headers =
      headerValues name (Cors.grants s.origins (pageOrigin r o.response)) := by
  -- Of the blocks that an answer is made of, only the grants have such a name.
  have hplain : name ∉ plainNames := notMem_plainNames (List.mem_append_right _ hname)
  cases h with
  | @question response asked =>
    have hanswered : response.status ≠ 500 := by
      rcases status_of_preflight? asked with h | h <;> rw [h] <;> decide
    rw [pageOrigin, if_neg hanswered, Cors.headerValues_preflight? hplain asked]
  | sizeLimit large => exact headerValues_tooLarge hplain _ _
  | route notAsked passed hrouted =>
    have hown := routed_own hrouted
    have hcareful : headerValues name securityHeaders = [] :=
      headerValues_securityHeaders_eq_nil fun h => disjoint_securityNames_grantNames h hname
    rw [headerValues_route hplain hown, hcareful, List.nil_append]
    exact congrArg _ (congrArg _ (if_neg hown.status_ne.2).symm)
  | failure notAsked fails => exact headerValues_failed hplain _

/-- What every answer grants. A star is never answered together with leave to send credentials, and
this leave is given only if no piece of the list is a star. Without a star, an answer that is not a
failure names the origin that asks if and only if this is a piece of the list and not empty; it
never names another one. -/
theorem answer_crossOrigin (s : Settings) (now : Text) (c : Counters) (r : Request) :
    let response := (answer s now c r).response
    let values := fun name : String => headerValues name.toList response.headers
    let listed := Origins.pieces s.allowedOrigins
    ¬ (Origins.star ∈ values "access-control-allow-origin" ∧
      "true".toList ∈ values "access-control-allow-credentials") ∧
    (values "access-control-allow-credentials" ≠ [] → Origins.star ∉ listed) ∧
    (Origins.star ∉ listed → ∀ value : Text, value ∈ values "access-control-allow-origin" ↔
      response.status ≠ 500 ∧ r.header? "origin".toList = some value ∧ value ∈ listed ∧
        value ≠ []) := by
  intro response values listed
  have hlayer := answer_answeredAt s now c r
  have horigin : values "access-control-allow-origin" =
      headerValues Cors.originHeader (Cors.grants s.origins (pageOrigin r response)) :=
    hlayer.values_of_grant (by decide)
  have hcredentials : values "access-control-allow-credentials" =
      headerValues Cors.credentialHeader (Cors.grants s.origins (pageOrigin r response)) :=
    hlayer.values_of_grant (by decide)
  rw [horigin, hcredentials]
  refine ⟨?_, ?_, ?_⟩
  · rintro ⟨hstar, htrue⟩
    exact Cors.star_notMem_values (List.ne_nil_of_mem htrue) hstar
  · intro hgiven hstar
    exact Cors.not_allowAll_of_values_ne_nil hgiven (Origins.allowAll_ofText.mpr hstar)
  · intro hstar value
    have hall : ¬ Origins.allowAll s.origins = true := mt Origins.allowAll_ofText.mp hstar
    rw [Cors.mem_values_of_listed_iff hall, pageOrigin_eq_some_iff, and_assoc]
    exact and_congr_right' (and_congr_right' (Origins.mem_ofText_iff hstar))

/-- A listed page may read the counters, although another entry of the list contains a star. -/
theorem answer_metricsQuery_listed :
    let s : Settings := { allowedOrigins := "http://a.test, http://*".toList }
    let asking := { metricsQuery with headers := [("origin".toList, "http://a.test".toList)] }
    "http://a.test".toList ∈
      headerValues "access-control-allow-origin".toList
        (answer s [] {} asking).response.headers := by
  intro s asking
  have hlisted : "http://a.test".toList ∈ Origins.pieces s.allowedOrigins := by decide
  exact ((answer_crossOrigin s [] {} asking).2.2 (by decide) _).mpr
    ⟨by decide, rfl, hlisted, by decide⟩

end Service

end ComplexityGauge
