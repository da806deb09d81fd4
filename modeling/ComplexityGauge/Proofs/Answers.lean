import ComplexityGauge.Proofs.Accounting
import ComplexityGauge.Proofs.Reading
import ComplexityGauge.Proofs.Records

/-!
# What an answer tells about its request

The status of an answer tells how far the request came. A status that none of the outer layers
gives was given by a route, and an analysis or a refusal was given by a route that reads a payload.
So from an analysis there is a way back to the text that was sent, and from a refusal to the
problems of its payload.

A refusal is about the payload as a whole, about a field of the record that the route reads, or
about a position in a text that is no JSON.

## Main definitions

* `Json.shownText?` — the text that a value is
* `Service.Submits` — the text that a request sends for analysis, and its language
* `Service.problems`, `Service.fieldNames` — the problems of a payload, and the fields it may have
* `Service.sending` — a request that sends an object of texts

## Main results

* `Service.Submits.unique` — a request submits one text for one language
* `Service.exists_of_isAnalysed` — an analysis is that of the text which the request submits
* `Service.exists_of_isRefused` — a refusal lists the problems of the payload
* `Service.place_of_mem_problems` — where the problems of a payload lie
-/

namespace ComplexityGauge

open Text

/-- The text that a value is, with the replacement character in the place of each half of a
surrogate pair. -/
def Json.shownText? : Json → Option Text
  | .text t => some t
  | .brokenText t => some t.shown
  | _ => none

/-! ### Reading backwards -/

section Valid

variable {α : Type} {members : List (Text × Json)} {name : Text}

theorem Validated.of_within_eq_valid {place : Place} {v : Validated α} {a : α}
    (h : v.within place = .valid a) : v = .valid a := by
  cases v with
  | valid b => exact h
  | invalid first more => exact nomatch h

theorem exists_of_required_eq_valid {f : Field α} {a : α}
    (h : required members name f = .valid a) :
    ∃ j, Json.member? name members = some j ∧ f.read j = .valid a := by
  unfold required at h
  split at h
  · next j hj => exact ⟨j, hj, Validated.of_within_eq_valid h⟩
  · exact nomatch h

theorem Field.shownText?_of_read_wideText {j : Json} {sent : WideText}
    (h : wideText.read j = .valid sent) : j.shownText? = some sent.shown := by
  cases j with
  | text t =>
    obtain rfl : WideText.ofText t = sent := Validated.valid.inj h
    rw [WideText.shown_ofText]
    rfl
  | brokenText t =>
    obtain rfl : t = sent := Validated.valid.inj h
    rfl
  | null | bool | int | real | array | object => exact nomatch h

namespace AnalysisRequest

/-- An accepted request holds the text that was sent, without the blanks at its ends. -/
theorem exists_of_read_shape {limit : Int} {request : AnalysisRequest}
    (h : (shape limit).read members = .valid request) :
    ∃ sent, (Json.member? "code".toList members).bind Json.shownText? = some sent ∧
      request.text = trim sent ∧ request.language = languageOf members := by
  rw [read_shape] at h
  obtain ⟨code, hcode, rfl⟩ := Validated.map_eq_valid_iff.mp h
  obtain ⟨j, hmember, hread⟩ := exists_of_required_eq_valid hcode
  obtain ⟨sent, hwide, hcheck⟩ := Validated.andThen_eq_valid_iff.mp hread
  obtain ⟨rfl, -⟩ := checkCode_eq_valid_iff.mp hcheck
  refine ⟨sent.shown, ?_, WideText.shown_trim sent, rfl⟩
  rw [hmember]
  exact Field.shownText?_of_read_wideText hwide

end AnalysisRequest

end Valid

/-! ### Payloads -/

namespace Payload

variable {α : Type} {shape : Shape α} {r : Request}

/-- The problems of a payload. A payload that cannot be decoded is not looked into. -/
def Reading.problems : Reading α → List Problem
  | .undecodable | .record _ => []
  | .refused first more => first :: more

/-- The ways in which a payload can be read. -/
theorem read_cases (shape : Shape α) (r : Request) :
    (∃ c, read shape r = .refused ⟨[place], c⟩ []) ∨ read shape r = .undecodable ∨
      (∃ t n, Encoding.decode? r.body = some t ∧ Json.read t = .error (.malformed n) ∧
        read shape r = .refused ⟨[place, .index n], .malformedBody⟩ []) ∨
      ∃ members, HoldsObject r members ∧ read shape r = ofJson shape (.object members) := by
  by_cases hempty : r.body.isEmpty = true
  · refine Or.inl ⟨.missing, ?_⟩
    rw [read, if_pos hempty]
    rfl
  rw [read, if_neg hempty]
  cases hheader : r.header? "content-type".toList with
  | none => exact Or.inl ⟨.notBodyObject, rfl⟩
  | some value =>
    dsimp only
    by_cases hjson : isJsonType value = true
    · rw [if_pos hjson, ofBytes]
      cases hdecode : Encoding.decode? r.body with
      | none => exact Or.inr (Or.inl rfl)
      | some t =>
        dsimp only
        cases hread : Json.read t with
        | error fault =>
          cases fault with
          | malformed n => exact Or.inr (Or.inr (Or.inl ⟨t, n, rfl, hread, rfl⟩))
          | oversizedInteger | tooDeep => exact Or.inr (Or.inl rfl)
        | ok value' =>
          cases value' with
          | object members =>
            exact Or.inr (Or.inr (Or.inr
              ⟨members, ⟨⟨value, hheader, hjson⟩, ⟨t, hdecode, hread⟩⟩, rfl⟩))
          | null | bool | int | real | text | brokenText | array =>
            exact Or.inl ⟨.notBodyObject, rfl⟩
    · rw [if_neg hjson]
      exact Or.inl ⟨.notBodyObject, rfl⟩

theorem HoldsObject.unique {members members' : List (Text × Json)} (h : HoldsObject r members)
    (h' : HoldsObject r members') : members = members' := by
  obtain ⟨t, hdecode, hread⟩ := h.written
  obtain ⟨t', hdecode', hread'⟩ := h'.written
  obtain rfl : t = t' := Option.some.inj (hdecode.symm.trans hdecode')
  exact Json.object.inj (Except.ok.inj (hread.symm.trans hread'))

/-- A record that was read stands in an object that the body writes. -/
theorem exists_of_read_eq_record {a : α} (h : read shape r = .record a) :
    ∃ members, HoldsObject r members ∧ shape.read members = .valid a := by
  rcases read_cases shape r with ⟨c, hread⟩ | hread | ⟨t, n, -, -, hread⟩ | ⟨members, hbody, hread⟩
  · cases hread.symm.trans h
  · cases hread.symm.trans h
  · cases hread.symm.trans h
  refine ⟨members, hbody, ?_⟩
  rw [hread, ofJson] at h
  cases hmembers : shape.read members with
  | valid value =>
    rw [hmembers] at h
    exact congrArg _ (Reading.record.inj h)
  | invalid first more =>
    rw [hmembers] at h
    cases h

/-- The problems of a payload lie in the payload as a whole, at the fields of its record, or at a
position of a text that is no JSON. -/
theorem place_of_mem_problems {names : List Text}
    (hshape : ∀ members, ∀ p ∈ (shape.read members).problems,
      ∃ name ∈ names, p.path = [.field name])
    {p : Problem} (h : p ∈ (read shape r).problems) :
    p.path = [place] ∨ (∃ name ∈ names, p.path = [place, .field name]) ∨
      ∃ t n, Encoding.decode? r.body = some t ∧ Json.read t = .error (.malformed n) ∧
        p.path = [place, .index n] := by
  rcases read_cases shape r with ⟨c, hread⟩ | hread | ⟨t, n, hdecode, hfault, hread⟩ |
    ⟨members, -, hread⟩
  · rw [hread] at h
    exact Or.inl (by rw [List.mem_singleton.mp h])
  · rw [hread] at h
    exact absurd h List.not_mem_nil
  · rw [hread] at h
    exact Or.inr (Or.inr ⟨t, n, hdecode, hfault, by rw [List.mem_singleton.mp h]⟩)
  · rw [hread, ofJson] at h
    have hproblems : p ∈ ((shape.read members).within place).problems := by
      cases hmembers : (shape.read members).within place with
      | valid value =>
        rw [hmembers] at h
        exact absurd h List.not_mem_nil
      | invalid first more =>
        rw [hmembers] at h
        exact h
    obtain ⟨q, hq, hpath, -⟩ := Validated.exists_of_mem_problems_within hproblems
    obtain ⟨name, hname, hq⟩ := hshape members q hq
    exact Or.inr (Or.inl ⟨name, hname, by rw [hpath, hq]⟩)

end Payload

/-! ### Answers -/

namespace Service

variable {s : Settings} {now : Text} {c : Counters} {r : Request}

/-- The request sends an object with the text `code` in it and, perhaps, a hint at `language`. -/
def Submits (r : Request) (code : Text) (language : Language) : Prop :=
  ∃ members, Payload.HoldsObject r members ∧
    (Json.member? "code".toList members).bind Json.shownText? = some code ∧
    AnalysisRequest.languageOf members = language

/-- A request submits one text for one language. -/
theorem Submits.unique {code code' : Text} {language language' : Language}
    (h : Submits r code language) (h' : Submits r code' language') :
    code = code' ∧ language = language' := by
  obtain ⟨members, hbody, hcode, hlanguage⟩ := h
  obtain ⟨members', hbody', hcode', hlanguage'⟩ := h'
  obtain rfl := hbody.unique hbody'
  exact ⟨Option.some.inj (hcode.symm.trans hcode'), hlanguage.symm.trans hlanguage'⟩

/-- What is wrong with the payload of a request, on the routes that read one. -/
def problems (s : Settings) (r : Request) : List Problem :=
  match Route.ofPath? r.path with
  | some .analyze => (Payload.read (AnalysisRequest.shape s.maxCodeLength) r).problems
  | some .exportText => (Payload.read DisplayResult.shape r).problems
  | _ => []

/-- The fields of the record that a request is expected to send. -/
def fieldNames (r : Request) : List Text :=
  match Route.ofPath? r.path with
  | some .analyze => AnalysisRequest.fieldNames
  | some .exportText => DisplayResult.fieldNames
  | _ => []

theorem place_of_mem_problems {p : Problem} (h : p ∈ problems s r) :
    p.path = [Payload.place] ∨ (∃ name ∈ fieldNames r, p.path = [Payload.place, .field name]) ∨
      ∃ t n, Encoding.decode? r.body = some t ∧ Json.read t = .error (.malformed n) ∧
        p.path = [Payload.place, .index n] := by
  unfold problems at h
  unfold fieldNames
  split at h
  · exact Payload.place_of_mem_problems (fun _ _ => AnalysisRequest.path_of_mem_problems) h
  · exact Payload.place_of_mem_problems (fun _ _ => DisplayResult.path_of_mem_problems) h
  · exact absurd h List.not_mem_nil

section OfPayload

variable {α : Type} {accepted : α → Except Failure Outcome} {reading : Payload.Reading α}
  {o : Outcome}

/-- Only a record is answered with success. -/
theorem exists_record_of_ofPayload (ho : ofPayload c r accepted reading = .ok o)
    (hstatus : o.response.status = 200) :
    ∃ value, reading = .record value ∧ accepted value = .ok o := by
  cases reading with
  | undecodable =>
    obtain rfl := Except.ok.inj ho
    exact absurd (show 400 = 200 from hstatus) (by decide)
  | refused first more =>
    obtain rfl := Except.ok.inj ho
    exact absurd (show 422 = 200 from hstatus) (by decide)
  | record value => exact ⟨value, rfl, ho⟩

/-- Only a payload with problems is answered with a refusal. -/
theorem exists_refused_of_ofPayload
    (haccepted : ∀ value o, accepted value = .ok o → o.response.status = 200)
    (ho : ofPayload c r accepted reading = .ok o) (hstatus : o.response.status = 422) :
    ∃ first more, reading = .refused first more ∧ o = refused c r first more := by
  cases reading with
  | undecodable =>
    obtain rfl := Except.ok.inj ho
    exact absurd (show 400 = 422 from hstatus) (by decide)
  | refused first more => exact ⟨first, more, rfl, (Except.ok.inj ho).symm⟩
  | record value =>
    rw [haccepted value o ho] at hstatus
    exact absurd hstatus (by decide)

end OfPayload

theorem status_of_exported {result : DisplayResult} {o : Outcome} (ho : exported c result = .ok o) :
    o.response.status = 200 := by
  unfold exported at ho
  split at ho
  · obtain rfl := Except.ok.inj ho
    rfl
  · exact nomatch ho

/-- An analysis is that of the text which the request submits. -/
theorem exists_of_isAnalysed (h : isAnalysed r (answer s now c r) = true) :
    ∃ code request, Submits r code request.language ∧ request.text = trim code ∧
      answer s now c r = withHeaders (withHeaders (analyzed c now request) securityHeaders)
        (Cors.headers s.origins (r.header? "origin".toList)) := by
  have hstatus := status_of_isAnalysed h
  simp only [isAnalysed, Bool.and_eq_true, decide_eq_true_eq] at h
  obtain ⟨⟨-, hmethod⟩, hroute⟩ := h
  obtain ⟨o, hrouted, hanswer⟩ :=
    (answer_answeredAt s now c r).exists_routed
      (preflight?_eq_none s.origins (by rw [hmethod]; decide))
      (by rw [hstatus]; decide) (by rw [hstatus]; decide)
  rw [hanswer] at hstatus
  rw [routed_of_route hroute hmethod] at hrouted
  obtain ⟨request, hread, haccepted⟩ := exists_record_of_ofPayload hrouted hstatus
  obtain rfl := Except.ok.inj haccepted
  obtain ⟨members, hbody, hmembers⟩ := Payload.exists_of_read_eq_record hread
  obtain ⟨sent, hsent, htext, hlanguage⟩ := AnalysisRequest.exists_of_read_shape hmembers
  exact ⟨sent, request, ⟨members, hbody, hsent, hlanguage.symm⟩, htext, hanswer⟩

/-- An analysis shows what the text that was submitted comes to. -/
theorem body_of_isAnalysed {code : Text} {language : Language}
    (h : isAnalysed r (answer s now c r) = true) (hsubmits : Submits r code language) :
    (answer s now c r).response.body =
      .json (analysisJson (Analysis.ofText code) language now) := by
  obtain ⟨code', request, hsubmits', htext, hanswer⟩ := exists_of_isAnalysed h
  obtain ⟨rfl, rfl⟩ := hsubmits.unique hsubmits'
  rw [hanswer, ← Analysis.ofText_trim, ← htext]
  exact body_analyzed c now _

/-- The routes that read a payload refuse it for its problems; no other route refuses a request. -/
theorem exists_of_routed_refused {o : Outcome} (ho : routed s c now r = .ok o)
    (hstatus : o.response.status = 422) :
    ∃ first more, problems s r = first :: more ∧ o = refused c r first more := by
  unfold routed at ho
  unfold problems
  split at ho
  · next route hroute =>
    rw [hroute]
    split_ifs at ho
    · cases route with
      | root | health | metrics | snippets | snippet =>
        obtain rfl := Except.ok.inj ho
        exact absurd (show 200 = 422 from hstatus) (by decide)
      | analyze =>
        obtain ⟨first, more, hread, rfl⟩ := exists_refused_of_ofPayload
          (fun request o ho => by rw [← Except.ok.inj ho]; rfl) ho hstatus
        exact ⟨first, more, congrArg Payload.Reading.problems hread, rfl⟩
      | exportText =>
        obtain ⟨first, more, hread, rfl⟩ :=
          exists_refused_of_ofPayload (fun _ _ => status_of_exported) ho hstatus
        exact ⟨first, more, congrArg Payload.Reading.problems hread, rfl⟩
    · obtain rfl := Except.ok.inj ho
      exact absurd (show 405 = 422 from hstatus) (by decide)
  · split at ho
    · obtain rfl := Except.ok.inj ho
      exact absurd (show 307 = 422 from hstatus) (by decide)
    · obtain rfl := Except.ok.inj ho
      exact absurd (show 404 = 422 from hstatus) (by decide)

/-- A refusal lists the problems of the payload. -/
theorem exists_of_isRefused (h : isRefused (answer s now c r) = true) :
    ∃ first more, problems s r = first :: more ∧
      answer s now c r = withHeaders (withHeaders (refused c r first more) securityHeaders)
        (Cors.headers s.origins (r.header? "origin".toList)) := by
  have hstatus : (answer s now c r).response.status = 422 := of_decide_eq_true h
  have hpreflight : Cors.preflight? s.origins r = none := by
    cases hcors : Cors.preflight? s.origins r with
    | none => rfl
    | some response =>
      rw [answer, hcors] at hstatus
      dsimp only at hstatus
      rcases status_of_preflight? hcors with hcors | hcors <;> omega
  obtain ⟨o, hrouted, hanswer⟩ :=
    (answer_answeredAt s now c r).exists_routed hpreflight
      (by rw [hstatus]; decide) (by rw [hstatus]; decide)
  rw [hanswer] at hstatus
  obtain ⟨first, more, hproblems, rfl⟩ := exists_of_routed_refused hrouted hstatus
  exact ⟨first, more, hproblems, hanswer⟩

/-! ### Objects of texts as payloads -/

/-- A request that sends an object whose members are texts. -/
def sending (path : Text) (members : List (Text × Text)) : Request :=
  posting path (Json.render (.object (Json.ofTexts members)))

/-- Such a request holds the object that it writes, if its bytes are found to be UTF-8. -/
theorem holdsObject_sending (path : Text) (members : List (Text × Text))
    (h : Encoding.decode? (Utf8.encode (Json.render (.object (Json.ofTexts members)))) =
      some (.ofText (Json.render (.object (Json.ofTexts members))))) :
    Payload.HoldsObject (sending path members) (Json.ofTexts members) :=
  ⟨⟨"application/json".toList, rfl, by decide⟩, ⟨_, h, Json.read_render_ofTexts members⟩⟩

end Service

end ComplexityGauge
