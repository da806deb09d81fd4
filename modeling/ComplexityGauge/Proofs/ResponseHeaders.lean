import Mathlib.Data.List.Nodup
import ComplexityGauge.Proofs.Accounting
import ComplexityGauge.Proofs.DeclaredSize

/-!
# Which headers an answer carries

The headers of an answer come in blocks: those that the answer is made with, those that tell
browsers to be careful, and those that let pages of other origins see it. The names of the blocks
are distinct, so the values that an answer gives to a name are those of one block.

The size limit stands outside of the layer that tells browsers to be careful. So a request that is
turned away for its declared size gets none of these headers, and neither do the answers of the
layers further out. Every answer that comes from a route has each of them once.

## Main definitions

* `headerValues` — the values that headers give to a name
* `Cors.grants` — the headers that let a page of another origin see a response

## Main results

* `Service.headerValues_route`, `Service.headerValues_tooLarge`, `Service.headerValues_failed`,
  `Cors.headerValues_preflight?` — the blocks that each layer gives its answers
* `Service.run_securityHeaders` — the law for every sequence of requests
-/

namespace ComplexityGauge

open Text

/-! ### Values of headers -/

/-- The values that headers give to a name. -/
def headerValues (name : Text) (fields : List (Text × Text)) : List Text :=
  (fields.filter fun field => field.1 = name).map Prod.snd

variable {name : Text} {fields : List (Text × Text)}

theorem headerValues_append (name : Text) (fields more : List (Text × Text)) :
    headerValues name (fields ++ more) = headerValues name fields ++ headerValues name more := by
  simp only [headerValues, List.filter_append, List.map_append]

/-- Headers of other names give a name no value. -/
theorem headerValues_eq_nil {names : List Text} (hname : name ∉ names)
    (h : ∀ field ∈ fields, field.1 ∈ names) : headerValues name fields = [] := by
  rw [headerValues, List.map_eq_nil_iff, List.filter_eq_nil_iff]
  intro field hfield heq
  exact hname (of_decide_eq_true heq ▸ h field hfield)

/-- The names of the headers that answers are made with. -/
def plainNames : List Text :=
  [Response.contentType, "allow".toList, "location".toList, "vary".toList,
    "access-control-allow-methods".toList, "access-control-max-age".toList,
    "access-control-allow-headers".toList]

/-! ### Cross-origin headers -/

namespace Cors

variable {origins : List Text} {r : Request} {response : Response}

/-- The headers that let a page of another origin see a response. -/
def grants (origins : List Text) : Option Text → List (Text × Text)
  | none => []
  | some origin => credentialHeaders origins ++ originHeaders origins origin

/-- The name of the header that allows credentials. -/
def credentialHeader : Text := "access-control-allow-credentials".toList

/-- The names of the headers that let a page see a response. -/
def grantNames : List Text := [credentialHeader, originHeader]

theorem name_mem_of_mem_grants {origin : Option Text} {field : Text × Text}
    (h : field ∈ grants origins origin) : field.1 ∈ grantNames := by
  cases origin with
  | none => exact absurd h List.not_mem_nil
  | some origin =>
    rcases List.mem_append.mp h with h | h
    · have hname : field.1 = credentialHeader := by
        unfold credentialHeaders at h
        split at h
        · exact absurd h List.not_mem_nil
        · rw [List.mem_singleton.mp h]
          rfl
      exact hname ▸ List.mem_cons_self
    · have hname : field.1 = originHeader := by
        unfold originHeaders at h
        split_ifs at h
        · rw [List.mem_singleton.mp h]
        · rw [List.mem_singleton.mp h]
        · exact absurd h List.not_mem_nil
      exact hname ▸ List.mem_cons_of_mem _ List.mem_cons_self

theorem headers_eq (origins : List Text) (origin : Option Text) :
    Cors.headers origins origin = [("vary".toList, "Origin".toList)] ++ grants origins origin := by
  cases origin <;> rfl

theorem headers_preflight (refused : List Text) (fields : List (Text × Text)) :
    (preflight refused fields).headers =
      [(Response.contentType, "text/plain; charset=utf-8".toList)] ++ fields := by
  unfold preflight
  split <;> rfl

/-- On every answer but the one to a question asked ahead. -/
theorem headerValues_headers (hname : name ∉ plainNames) (origin : Option Text) :
    headerValues name (Cors.headers origins origin) =
      headerValues name (grants origins origin) := by
  rw [headers_eq, headerValues_append, headerValues_eq_nil hname (by simp [plainNames])]
  rfl

theorem headerValues_preflightHeaders (hname : name ∉ plainNames) (origin : Text)
    (requested : Option Text) :
    headerValues name (preflightHeaders origins origin requested) =
      headerValues name (grants origins (some origin)) := by
  cases requested with
  | none =>
    simp only [preflightHeaders, grants, headerValues_append]
    rw [headerValues_eq_nil hname (by simp [plainNames])]
    exact List.append_nil _
  | some names =>
    have hnames : headerValues name [("access-control-allow-headers".toList, names)] = [] :=
      headerValues_eq_nil hname (by simp [plainNames])
    simp only [preflightHeaders, grants, headerValues_append]
    rw [headerValues_eq_nil hname (by simp [plainNames]), hnames]
    exact List.append_nil _

/-- On the answer to a question asked ahead. -/
theorem headerValues_preflight? (hname : name ∉ plainNames)
    (h : preflight? origins r = some response) :
    headerValues name response.headers =
      headerValues name (grants origins (r.header? "origin".toList)) := by
  unfold preflight? at h
  split_ifs at h
  split at h
  · next origin method horigin hmethod =>
    obtain rfl := Option.some.inj h
    rw [headers_preflight, horigin, headerValues_append, headerValues_preflightHeaders hname,
      headerValues_eq_nil hname (by simp [plainNames])]
    rfl
  · exact nomatch h

end Cors

namespace Service

variable {s : Settings} {now : Text} {c : Counters} {r : Request} {o : Outcome}

/-! ### Blocks of an answer -/

/-- The names of the headers that tell browsers to be careful. -/
def securityNames : List Text := securityHeaders.map Prod.fst

/-- No name stands in two blocks. -/
theorem nodup_names : (plainNames ++ (securityNames ++ Cors.grantNames)).Nodup := by
  decide

theorem notMem_plainNames (h : name ∈ securityNames ++ Cors.grantNames) : name ∉ plainNames :=
  fun hplain => List.disjoint_of_nodup_append nodup_names hplain h

theorem disjoint_securityNames_grantNames : securityNames.Disjoint Cors.grantNames :=
  List.disjoint_of_nodup_append nodup_names.of_append_right

theorem headerValues_securityHeaders_eq_nil (hname : name ∉ securityNames) :
    headerValues name securityHeaders = [] :=
  headerValues_eq_nil hname fun _ => List.mem_map_of_mem

theorem headerValues_grants_eq_nil {origins : List Text} (hname : name ∉ Cors.grantNames)
    (origin : Option Text) : headerValues name (Cors.grants origins origin) = [] :=
  headerValues_eq_nil hname fun _ => Cors.name_mem_of_mem_grants

/-- On an answer from a route. -/
theorem headerValues_route {served : Outcome} (hname : name ∉ plainNames)
    (h : served.response.IsOwn) (origin : Option Text) :
    headerValues name (withHeaders (withHeaders served securityHeaders)
        (Cors.headers s.origins origin)).response.headers =
      headerValues name securityHeaders ++ headerValues name (Cors.grants s.origins origin) := by
  -- What a route names itself is a part of the plain names.
  have hserved : headerValues name served.response.headers = [] :=
    headerValues_eq_nil hname fun field hfield =>
      List.Sublist.subset (by decide) (h.headers field hfield)
  simp only [withHeaders, Response.withHeaders, headerValues_append, hserved,
    Cors.headerValues_headers hname, List.nil_append]

/-- On the answer to a request that declares more than the limit. -/
theorem headerValues_tooLarge (hname : name ∉ plainNames) (limit : Int) (origin : Option Text) :
    headerValues name (withHeaders { response := tooLarge limit, counters := c }
        (Cors.headers s.origins origin)).response.headers =
      headerValues name (Cors.grants s.origins origin) := by
  have hmade : headerValues name (tooLarge limit).headers = [] :=
    headerValues_eq_nil hname (by simp [tooLarge, Response.ofJson, plainNames])
  simp only [withHeaders, Response.withHeaders, headerValues_append, hmade,
    Cors.headerValues_headers hname, List.nil_append]

/-- On the answer to a request that the service could not deal with. -/
theorem headerValues_failed (hname : name ∉ plainNames) (cause : Failure) :
    headerValues name (failed c r cause).response.headers = [] :=
  headerValues_eq_nil hname (by simp [failed, Response.ofJson, plainNames])

/-! ### Headers that tell browsers to be careful -/

section Security

variable (hname : name ∈ securityNames)

include hname

theorem notMem_plainNames_of_security : name ∉ plainNames :=
  notMem_plainNames (List.mem_append_left _ hname)

theorem headerValues_grants_of_security {origins : List Text} (origin : Option Text) :
    headerValues name (Cors.grants origins origin) = [] :=
  headerValues_grants_eq_nil (disjoint_securityNames_grantNames hname) origin

/-- Answers that come from a route have these headers. -/
theorem AnsweredAt.security_of_route (h : AnsweredAt s now c r o)
    (hquestion : Cors.preflight? s.origins r = none) (hlarge : o.response.status ≠ 413)
    (hfailed : o.response.status ≠ 500) :
    headerValues name o.response.headers = headerValues name securityHeaders := by
  obtain ⟨served, hrouted, rfl⟩ := h.exists_routed hquestion hlarge hfailed
  rw [headerValues_route (notMem_plainNames_of_security hname) (routed_own hrouted),
    headerValues_grants_of_security hname, List.append_nil]

/-- Answers that come from the layers further out do not have them. -/
theorem AnsweredAt.security_of_outer (h : AnsweredAt s now c r o)
    (houter : Cors.preflight? s.origins r ≠ none ∨ o.response.status = 413 ∨
      o.response.status = 500) :
    headerValues name o.response.headers = [] := by
  have hplain := notMem_plainNames_of_security hname
  cases h with
  | question asked =>
    rw [Cors.headerValues_preflight? hplain asked, headerValues_grants_of_security hname]
  | sizeLimit large =>
    rw [headerValues_tooLarge hplain, headerValues_grants_of_security hname]
  | failure notAsked fails => exact headerValues_failed hplain _
  | route notAsked passed hrouted =>
    -- A route answers with neither of these statuses, and to no question asked ahead.
    obtain ⟨hlarge, hfailed⟩ := (routed_own hrouted).status_ne
    rcases houter with h | h | h
    · exact absurd notAsked h
    · exact absurd h hlarge
    · exact absurd h hfailed

end Security

/-- The law for every sequence of requests. Answers to questions asked ahead, refusals for a
declared size and failures do not tell browsers to be careful. Every other answer does, and says
each thing once. -/
theorem run_securityHeaders (s : Settings) (now : Text) (requests : List Request) :
    ∀ (k : ℕ) (r : Request) (o : Outcome),
      (requests.zip (run s now {} requests))[k]? = some (r, o) →
      let status := o.response.status
      let values := fun name : String => headerValues name.toList o.response.headers
      status ∈ [200, 307, 400, 404, 405, 413, 422, 500] ∧
      (Cors.preflight? s.origins r = none → status ≠ 413 → status ≠ 500 →
        values "x-content-type-options" = ["nosniff".toList] ∧
        values "x-frame-options" = ["DENY".toList] ∧
        values "referrer-policy" = ["strict-origin-when-cross-origin".toList]) ∧
      (Cors.preflight? s.origins r ≠ none ∨ status = 413 ∨ status = 500 →
        values "x-content-type-options" = [] ∧ values "x-frame-options" = [] ∧
        values "referrer-policy" = []) := by
  intro k r o ho
  obtain ⟨-, rfl⟩ := eq_of_getElem?_answers ho
  have hlayer := answer_answeredAt s now (countersAfter s now {} (requests.take k)) r
  refine ⟨hlayer.status_mem, ?_, ?_⟩
  · intro hquestion hlarge hfailed
    exact ⟨hlayer.security_of_route (by decide) hquestion hlarge hfailed,
      hlayer.security_of_route (by decide) hquestion hlarge hfailed,
      hlayer.security_of_route (by decide) hquestion hlarge hfailed⟩
  · intro houter
    exact ⟨hlayer.security_of_outer (by decide) houter,
      hlayer.security_of_outer (by decide) houter, hlayer.security_of_outer (by decide) houter⟩

/-- A request for the counters is answered with these headers. -/
theorem run_metricsQuery_careful :
    ∃ o, (run {} [] {} [metricsQuery])[0]? = some o ∧
      headerValues "x-frame-options".toList o.response.headers = ["DENY".toList] := by
  refine ⟨_, rfl, ?_⟩
  exact ((run_securityHeaders {} [] [metricsQuery] 0 metricsQuery _ rfl).2.1
    rfl (by decide) (by decide)).2.1

/-- Not every answer to an ordinary request tells browsers to be careful: a refusal for the declared
size does not. -/
theorem not_forall_careful :
    ¬ ∀ (environment : Variables) (file : Option Text) (s : Settings),
      Settings.load environment file = .valid s →
      ∀ (now : Text) (c : Counters) (r : Request), Cors.preflight? s.origins r = none →
        (answer s now c r).response.status ≠ 500 →
        headerValues "x-content-type-options".toList (answer s now c r).response.headers =
          ["nosniff".toList] := by
  intro h
  have hloads : Settings.load [] none = .valid {} := rfl
  have hcareful := h [] none {} hloads [] {} (declaredLoop "1048577".toList) rfl (by decide)
  exact absurd hcareful (by decide)

end Service

end ComplexityGauge
