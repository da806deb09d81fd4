import ComplexityGauge.Proofs.Submission

/-!
# Which layer answers

A request passes through layers, and each of them may answer it. Questions asked ahead are answered
first, then the size limit may stop a request, and what is left goes to its route. Whatever goes
wrong further in is answered by the outermost layer.

The headers of an answer are those that its own layer gives it and those that the layers around it
add, so they too are told by the layer. `Service.AnsweredAt` lists the layers with their answers,
`Service.answer_answeredAt` says that the list is complete, and `Service.routed_own` says what may
come from a route.

## Main definitions

* `Service.admitted` — the answer to a request that goes on to its route
* `Service.AnsweredAt` — the layers at which a request may be answered
* `Response.IsOwn` — the responses that routes give, before headers are added

## Main results

* `Service.answer_answeredAt` — every request is answered at one of these layers
* `Service.routed_own` — statuses and header names of what comes from a route
* `Service.AnsweredAt.status_mem` — the statuses of all answers
-/

namespace ComplexityGauge

open Text

/-! ### What routes answer -/

/-- A response as a route gives it: neither too large nor failed, and without the headers that the
layers around it add. -/
structure Response.IsOwn (response : Response) : Prop where
  status : response.status ∈ [200, 307, 400, 404, 405, 422]
  headers : ∀ h ∈ response.headers, h.1 ∈ [contentType, "allow".toList, "location".toList]

theorem Response.IsOwn.status_ne {response : Response} (h : response.IsOwn) :
    response.status ≠ 413 ∧ response.status ≠ 500 := by
  constructor <;> intro hstatus <;> exact absurd (hstatus ▸ h.status) (by decide)

namespace Service

variable {s : Settings} {now : Text} {c : Counters} {r : Request} {o : Outcome}

theorem isOwn_ofJson {status : ℕ} (hstatus : status ∈ [200, 307, 400, 404, 405, 422])
    (value : Json) : (Response.ofJson status value).IsOwn where
  status := hstatus
  headers := by simp [Response.ofJson]

theorem isOwn_exported {result : DisplayResult} (ho : exported c result = .ok o) :
    o.response.IsOwn := by
  unfold exported at ho
  split at ho
  · obtain rfl := Except.ok.inj ho
    exact ⟨by simp [Response.ofText], by simp [Response.ofText]⟩
  · exact nomatch ho

theorem isOwn_ofPayload {α : Type} {accepted : α → Except Failure Outcome}
    {reading : Payload.Reading α}
    (haccepted : ∀ value o, accepted value = .ok o → o.response.IsOwn)
    (ho : ofPayload c r accepted reading = .ok o) : o.response.IsOwn := by
  cases reading with
  | undecodable =>
    obtain rfl := Except.ok.inj ho
    exact isOwn_ofJson (by decide) _
  | refused first more =>
    obtain rfl := Except.ok.inj ho
    exact isOwn_ofJson (by decide) _
  | record value => exact haccepted value o ho

theorem isOwn_onRoute {route : Route} (ho : onRoute s c now r route = .ok o) :
    o.response.IsOwn := by
  cases route with
  | root | health | metrics | snippets | snippet =>
    obtain rfl := Except.ok.inj ho
    exact isOwn_ofJson (by decide) _
  | analyze =>
    refine isOwn_ofPayload (fun request o ho => ?_) ho
    obtain rfl := Except.ok.inj ho
    exact isOwn_ofJson (by decide) _
  | exportText => exact isOwn_ofPayload (fun _ _ => isOwn_exported) ho

theorem routed_own (ho : routed s c now r = .ok o) : o.response.IsOwn := by
  unfold routed at ho
  split at ho
  · split_ifs at ho
    · exact isOwn_onRoute ho
    · obtain rfl := Except.ok.inj ho
      exact ⟨by simp [Response.ofJson], by simp [Response.ofJson]⟩
  · split at ho
    · obtain rfl := Except.ok.inj ho
      exact ⟨by simp [Response.redirect], by simp [Response.redirect]⟩
    · obtain rfl := Except.ok.inj ho
      exact isOwn_ofJson (by decide) _

/-! ### Layers -/

/-- What is answered to a request that has passed the size limit and goes on to its route. -/
def admitted (s : Settings) (now : Text) (c : Counters) (r : Request) : Outcome :=
  match routed s c now r with
  | .ok o =>
    withHeaders (withHeaders o securityHeaders)
      (Cors.headers s.origins (r.header? "origin".toList))
  | .error cause => failed c r cause

/-- The layers at which a request may be answered, each with its answer. -/
inductive AnsweredAt (s : Settings) (now : Text) (c : Counters) (r : Request) : Outcome → Prop
  /-- The request is a question asked ahead. -/
  | question {response : Response} (asked : Cors.preflight? s.origins r = some response) :
    AnsweredAt s now c r { response := response, counters := c }
  /-- The request declares more than the limit. -/
  | sizeLimit (large : SizeLimit.judge s.maxRequestSize r = .tooLarge) :
    AnsweredAt s now c r
      (withHeaders { response := tooLarge s.maxRequestSize, counters := c }
        (Cors.headers s.origins (r.header? "origin".toList)))
  /-- The request is answered by its route. -/
  | route {served : Outcome} (notAsked : Cors.preflight? s.origins r = none)
    (passed : SizeLimit.judge s.maxRequestSize r = .pass)
    (routed : routed s c now r = .ok served) :
    AnsweredAt s now c r (withHeaders (withHeaders served securityHeaders)
      (Cors.headers s.origins (r.header? "origin".toList)))
  /-- The service could not deal with the request. -/
  | failure {cause : Failure} (notAsked : Cors.preflight? s.origins r = none)
    (fails : SizeLimit.judge s.maxRequestSize r = .failure cause ∨
      SizeLimit.judge s.maxRequestSize r = .pass ∧ routed s c now r = .error cause) :
    AnsweredAt s now c r (failed c r cause)

/-- Every request is answered at one of these layers. -/
theorem answer_answeredAt (s : Settings) (now : Text) (c : Counters) (r : Request) :
    AnsweredAt s now c r (answer s now c r) := by
  unfold answer
  cases hquestion : Cors.preflight? s.origins r with
  | some response => exact .question hquestion
  | none =>
    dsimp only
    cases hsize : SizeLimit.judge s.maxRequestSize r with
    | failure cause => exact .failure hquestion (Or.inl hsize)
    | tooLarge => exact .sizeLimit hsize
    | pass =>
      dsimp only
      cases hrouted : routed s c now r with
      | ok served => exact .route hquestion hsize hrouted
      | error cause => exact .failure hquestion (Or.inr ⟨hsize, hrouted⟩)

/-- Only requests that send something are judged. -/
theorem preflight?_of_judge_ne_pass (origins : List Text) {limit : Int}
    (h : SizeLimit.judge limit r ≠ .pass) : Cors.preflight? origins r = none := by
  apply preflight?_eq_none
  intro hmethod
  apply h
  rw [SizeLimit.judge, hmethod]
  exact if_neg (by decide)

theorem answer_of_failure {cause : Failure}
    (h : SizeLimit.judge s.maxRequestSize r = .failure cause) :
    answer s now c r = failed c r cause := by
  have hpreflight : Cors.preflight? s.origins r = none :=
    preflight?_of_judge_ne_pass s.origins (by rw [h]; exact nofun)
  rw [answer, hpreflight]
  simp only [h]

theorem answer_of_tooLarge (h : SizeLimit.judge s.maxRequestSize r = .tooLarge) :
    answer s now c r = withHeaders { response := tooLarge s.maxRequestSize, counters := c }
      (Cors.headers s.origins (r.header? "origin".toList)) := by
  have hpreflight : Cors.preflight? s.origins r = none :=
    preflight?_of_judge_ne_pass s.origins (by rw [h]; exact nofun)
  rw [answer, hpreflight]
  simp only [h]

theorem answer_of_pass (hquestion : Cors.preflight? s.origins r = none)
    (h : SizeLimit.judge s.maxRequestSize r = .pass) : answer s now c r = admitted s now c r := by
  unfold answer admitted
  cases routed s c now r <;> simp only [hquestion, h]

/-! ### Statuses -/

/-- A question asked ahead is granted or turned down. -/
theorem status_of_preflight? {response : Response}
    (h : Cors.preflight? s.origins r = some response) :
    response.status = 200 ∨ response.status = 400 := by
  unfold Cors.preflight? at h
  split_ifs at h
  split at h
  · obtain rfl := Option.some.inj h
    unfold Cors.preflight
    split
    · exact Or.inl rfl
    · exact Or.inr rfl
  · exact nomatch h

/-- The status of every answer is one of these. -/
theorem AnsweredAt.status_mem (h : AnsweredAt s now c r o) :
    o.response.status ∈ [200, 307, 400, 404, 405, 413, 422, 500] := by
  cases h with
  | question asked => rcases status_of_preflight? asked with h | h <;> simp [h]
  | sizeLimit large => exact show 413 ∈ _ by decide
  | route notAsked passed hrouted =>
    exact List.Sublist.subset (by decide) (routed_own hrouted).status
  | failure notAsked fails => exact show 500 ∈ _ by decide

/-- An answer that is none of the outer layers' own was given behind them, up to its headers. -/
theorem AnsweredAt.exists_routed (h : AnsweredAt s now c r o)
    (hpreflight : Cors.preflight? s.origins r = none) (hlarge : o.response.status ≠ 413)
    (hfailed : o.response.status ≠ 500) :
    ∃ served, routed s c now r = .ok served ∧
      o = withHeaders (withHeaders served securityHeaders)
        (Cors.headers s.origins (r.header? "origin".toList)) := by
  cases h with
  | question asked => exact absurd (hpreflight.symm.trans asked) nofun
  | sizeLimit large => exact absurd rfl hlarge
  | route notAsked passed hrouted => exact ⟨_, hrouted, rfl⟩
  | failure notAsked fails => exact absurd rfl hfailed

end Service

end ComplexityGauge
