import ComplexityGauge.Proofs.LogLines
import Mathlib.Data.List.Forall2

/-!
# Answers that look the same

An answer is seen in two places: a client reads the response, and the log keeps the entries. Two
answers look the same if they differ in nothing but the times in the response and the path of the
request in the log.

Two requests that say the same to the same route are answered alike at any time. The counters make
a difference only to a request that asks for them. This is shown layer by layer, from what is
answered to a payload outwards.

## Main definitions

* `Json.untimed`, `Body.untimed` — what a response carries, without the times in it
* `Service.SameEntry` — entries that differ in nothing but a path
* `Service.SameCall` — requests that say the same to the same route
* `Service.Alike` — outcomes that look the same

## Main results

* `Service.alike_answer` — requests that say the same are answered alike
* `Service.counts_eq` — and their answers count as the same
-/

namespace ComplexityGauge

/-! ### Times -/

namespace Json

mutual

/-- The value with empty texts in the place of its times. These are texts that stand under the
name `timestamp`. -/
def untimed : Json → Json
  | array items => array (untimedItems items)
  | object members => object (untimedMembers members)
  | j => j

/-- The items of an array without their times. -/
def untimedItems : List Json → List Json
  | [] => []
  | j :: rest => untimed j :: untimedItems rest

/-- The members of an object without their times. -/
def untimedMembers : List (Text × Json) → List (Text × Json)
  | [] => []
  | (name, text t) :: rest =>
    (name, text (if name = "timestamp".toList then [] else t)) :: untimedMembers rest
  | (name, j) :: rest => (name, untimed j) :: untimedMembers rest

end

end Json

/-- The body without its times. -/
def Body.untimed : Body → Body
  | json value => json value.untimed
  | text value => text value

namespace Service

variable {s : Settings} {now now' : Text} {c c' : Counters} {r r' : Request} {o o' : Outcome}
  {path path' : Text} {e e' : LogEntry}

/-! ### Entries -/

/-- Entries that differ in nothing but a path, and only if they are warnings or errors. -/
inductive SameEntry (path path' : Text) : LogEntry → LogEntry → Prop
  | plain (e : LogEntry) (level : e.level = .debug ∨ e.level = .info) : SameEntry path path' e e
  | naming (level : LogLevel) (serious : level = .warning ∨ level = .error) (source : LogSource)
    (before after : Text) :
    SameEntry path path' ⟨level, source, before ++ path ++ after⟩
      ⟨level, source, before ++ path' ++ after⟩

theorem SameEntry.eq (h : SameEntry path path e e') : e = e' := by
  cases h <;> rfl

/-- What is noted on the way to an analysis is the same for any path. -/
theorem sameEntry_analysisEntries (request : AnalysisRequest) :
    List.Forall₂ (SameEntry path path') (analysisEntries request) (analysisEntries request) := by
  refine List.forall₂_same.mpr fun e he => .plain e ?_
  simp only [analysisEntries, Analyzer.entries, List.cons_append, List.nil_append, List.mem_cons,
    List.not_mem_nil, or_false] at he
  rcases he with rfl | rfl | rfl | rfl
  · exact Or.inr rfl
  · exact Or.inl rfl
  · exact Or.inl rfl
  · exact Or.inr rfl

theorem sameEntry_refusedEntry (hmethod : r.method = r'.method) (problems : List Problem) :
    SameEntry r.shownPath r'.shownPath (refusedEntry r problems) (refusedEntry r' problems) := by
  have h : SameEntry r.shownPath r'.shownPath _ _ := .naming .warning (Or.inl rfl) .service
    ("Validation error on ".toList ++ r.method ++ [' '])
    (": [".toList ++ ", ".toList.intercalate ((problems.take 5).map shownProblem) ++ [']'])
  rw [refusedEntry, refusedEntry, ← hmethod]
  simpa only [List.append_assoc] using h

theorem sameEntry_failedEntry (hmethod : r.method = r'.method) (cause : Failure) :
    SameEntry r.shownPath r'.shownPath (failedEntry r cause) (failedEntry r' cause) := by
  have h : SameEntry r.shownPath r'.shownPath _ _ := .naming .error (Or.inr rfl) .service
    ("Unhandled exception on ".toList ++ r.method ++ [' '])
    (": ".toList ++ cause.kind ++ ": ".toList ++ cause.message.take 200)
  rw [failedEntry, failedEntry, ← hmethod]
  simpa only [List.append_assoc] using h

/-! ### Requests and outcomes -/

/-- The request is one for the counters. -/
def asksMetrics (r : Request) : Bool :=
  r.method = "GET".toList && Route.ofPath? r.path = some .metrics

theorem asksMetrics_iff :
    asksMetrics r = true ↔ r.method = "GET".toList ∧ Route.ofPath? r.path = some .metrics := by
  rw [asksMetrics, Bool.and_eq_true, decide_eq_true_eq, decide_eq_true_eq]

/-- Requests that say the same to the same route. Where there is no route, a client may be sent to
another address, which is made from the path, the host and the query; so nothing is said there
about two requests. -/
structure SameCall (r r' : Request) : Prop where
  method : r.method = r'.method
  headers : r.headers = r'.headers
  body : r.body = r'.body
  route : Route.ofPath? r.path = Route.ofPath? r'.path
  stray : Route.ofPath? r.path = none → r = r'

@[refl]
theorem SameCall.refl (r : Request) : SameCall r r := ⟨rfl, rfl, rfl, rfl, fun _ => rfl⟩

theorem SameCall.header?_eq (h : SameCall r r') (name : Text) :
    r.header? name = r'.header? name := by
  rw [Request.header?, Request.header?, h.headers]

theorem SameCall.preflight?_eq (h : SameCall r r') (origins : List Text) :
    Cors.preflight? origins r = Cors.preflight? origins r' := by
  simp only [Cors.preflight?, h.method, h.header?_eq]

theorem SameCall.read_eq (h : SameCall r r') {α : Type} (shape : Shape α) :
    Payload.read shape r = Payload.read shape r' := by
  simp only [Payload.read, h.body, h.header?_eq]

theorem SameCall.asksMetrics_eq (h : SameCall r r') : asksMetrics r = asksMetrics r' := by
  rw [asksMetrics, asksMetrics, h.method, h.route]

/-- Outcomes that look the same. -/
structure Alike (r r' : Request) (o o' : Outcome) : Prop where
  status : o.response.status = o'.response.status
  headers : o.response.headers = o'.response.headers
  body : o.response.body.untimed = o'.response.body.untimed
  entries : List.Forall₂ (SameEntry r.shownPath r'.shownPath) o.entries o'.entries

/-- More headers make no difference. -/
theorem Alike.withHeaders (h : Alike r r' o o') (headers : List (Text × Text)) :
    Alike r r' (withHeaders o headers) (withHeaders o' headers) where
  status := h.status
  headers := congrArg (· ++ headers) h.headers
  body := h.body
  entries := h.entries

/-- Outcomes that look the same, or failures of one cause. -/
inductive AlikeRouted (r r' : Request) : Except Failure Outcome → Except Failure Outcome → Prop
  | ok {o o' : Outcome} (alike : Alike r r' o o') : AlikeRouted r r' (.ok o) (.ok o')
  | error (cause : Failure) : AlikeRouted r r' (.error cause) (.error cause)

/-- A response that is not noted looks the same with any counters. -/
theorem alikeRouted_quiet (response : Response) :
    AlikeRouted r r' (.ok { response := response, counters := c })
      (.ok { response := response, counters := c' }) :=
  .ok ⟨rfl, rfl, rfl, .nil⟩

/-! ### Layers -/

/-- An analysis looks the same at any time. -/
theorem alike_analyzed (request : AnalysisRequest) :
    Alike r r' (analyzed c now request) (analyzed c' now' request) where
  status := rfl
  headers := rfl
  body := by
    rw [body_analyzed, body_analyzed]
    rfl
  entries := sameEntry_analysisEntries request

theorem alikeRouted_exported (result : DisplayResult) :
    AlikeRouted r r' (exported c result) (exported c' result) := by
  unfold exported
  split
  · exact alikeRouted_quiet _
  · exact .error _

theorem alikeRouted_ofPayload {α : Type} {accepted accepted' : α → Except Failure Outcome}
    (hcall : SameCall r r') (h : ∀ value, AlikeRouted r r' (accepted value) (accepted' value))
    (reading : Payload.Reading α) :
    AlikeRouted r r' (ofPayload c r accepted reading) (ofPayload c' r' accepted' reading) := by
  cases reading with
  | undecodable => exact alikeRouted_quiet _
  | refused first more =>
    exact .ok ⟨rfl, rfl, rfl, .cons (sameEntry_refusedEntry hcall.method _) .nil⟩
  | record value => exact h value

/-- Of all routes only one shows the counters. -/
theorem alikeRouted_onRoute (hcall : SameCall r r') {route : Route}
    (hcounters : route = .metrics → c = c') :
    AlikeRouted r r' (onRoute s c now r route) (onRoute s c' now' r' route) := by
  cases route with
  | root | snippets | snippet => exact alikeRouted_quiet _
  | health => exact .ok ⟨rfl, rfl, rfl, .nil⟩
  | metrics =>
    obtain rfl := hcounters rfl
    exact .ok ⟨rfl, rfl, rfl, .nil⟩
  | analyze =>
    rw [onRoute, onRoute, ← hcall.read_eq]
    exact alikeRouted_ofPayload hcall (fun request => .ok (alike_analyzed request)) _
  | exportText =>
    rw [onRoute, onRoute, ← hcall.read_eq]
    exact alikeRouted_ofPayload hcall alikeRouted_exported _

theorem alikeRouted_routed (hcall : SameCall r r') (hcounters : asksMetrics r = true → c = c') :
    AlikeRouted r r' (routed s c now r) (routed s c' now' r') := by
  cases hroute : Route.ofPath? r.path with
  | none =>
    obtain rfl := hcall.stray hroute
    simp only [routed, hroute]
    split <;> exact alikeRouted_quiet _
  | some route =>
    simp only [routed, ← hcall.route, ← hcall.method, hroute]
    split_ifs with hmethod
    · refine alikeRouted_onRoute hcall fun hmetrics => hcounters (asksMetrics_iff.mpr ⟨?_, ?_⟩)
      · rw [hmethod, hmetrics]
        rfl
      · rw [hroute, hmetrics]
    · exact alikeRouted_quiet _

theorem alike_failed (hcall : SameCall r r') (cause : Failure) :
    Alike r r' (failed c r cause) (failed c' r' cause) :=
  ⟨rfl, rfl, rfl, .cons (sameEntry_failedEntry hcall.method cause) .nil⟩

theorem alike_admitted (hcall : SameCall r r') (hcounters : asksMetrics r = true → c = c') :
    Alike r r' (admitted s now c r) (admitted s now' c' r') := by
  have hrouted : AlikeRouted r r' (routed s c now r) (routed s c' now' r') :=
    alikeRouted_routed hcall hcounters
  unfold admitted
  rw [← hcall.header?_eq]
  generalize routed s c now r = served, routed s c' now' r' = served' at hrouted ⊢
  cases hrouted with
  | ok alike => exact (alike.withHeaders _).withHeaders _
  | error cause => exact alike_failed hcall cause

/-- Requests that say the same to the same route are answered alike, at any times, and with any
counters unless they ask for these. -/
theorem alike_answer (s : Settings) (now now' : Text) (hcall : SameCall r r')
    (hcounters : asksMetrics r = true → c = c') :
    Alike r r' (answer s now c r) (answer s now' c' r') := by
  have hquestion' := hcall.preflight?_eq s.origins
  have hsize' := judge_congr s.maxRequestSize hcall.method hcall.headers
  cases hquestion : Cors.preflight? s.origins r with
  | some response =>
    rw [hquestion] at hquestion'
    rw [answer, answer, hquestion, ← hquestion']
    exact ⟨rfl, rfl, rfl, .nil⟩
  | none =>
    rw [hquestion] at hquestion'
    cases hsize : SizeLimit.judge s.maxRequestSize r with
    | failure cause =>
      rw [answer_of_failure hsize, answer_of_failure (hsize'.symm.trans hsize)]
      exact alike_failed hcall cause
    | tooLarge =>
      rw [answer_of_tooLarge hsize, answer_of_tooLarge (hsize'.symm.trans hsize),
        ← hcall.header?_eq]
      exact ⟨rfl, rfl, rfl, .nil⟩
    | pass =>
      rw [answer_of_pass hquestion hsize,
        answer_of_pass hquestion'.symm (hsize'.symm.trans hsize)]
      exact alike_admitted hcall hcounters

/-! ### What answers count as -/

/-- Whoever asks for the counters is shown them. -/
theorem answer_of_asksMetrics (h : asksMetrics r = true) :
    answer s now c r =
      withHeaders (withHeaders { response := .ofJson 200 (metrics c now), counters := c }
        securityHeaders) (Cors.headers s.origins (r.header? "origin".toList)) := by
  obtain ⟨hmethod, hroute⟩ := asksMetrics_iff.mp h
  exact answer_of_route (judge_of_get s.maxRequestSize hmethod) hroute hmethod rfl

/-- The counters make no difference to the status of an answer. -/
theorem status_answer (s : Settings) (now now' : Text) (c c' : Counters) (hcall : SameCall r r') :
    (answer s now c r).response.status = (answer s now' c' r').response.status := by
  cases h : asksMetrics r with
  | true =>
    rw [answer_of_asksMetrics h, answer_of_asksMetrics (hcall.asksMetrics_eq.symm.trans h)]
    rfl
  | false =>
    exact (alike_answer s now now' hcall fun hasks => nomatch h.symm.trans hasks).status

theorem counts_eq (s : Settings) (now now' : Text) (c c' : Counters) (hcall : SameCall r r') :
    isAnalysed r (answer s now c r) = isAnalysed r' (answer s now' c' r') ∧
      isFailed (answer s now c r) = isFailed (answer s now' c' r') ∧
      isRefused (answer s now c r) = isRefused (answer s now' c' r') := by
  have hstatus := status_answer s now now' c c' hcall
  refine ⟨?_, ?_, ?_⟩
  · rw [isAnalysed, isAnalysed, hstatus, hcall.method, hcall.route]
  · rw [isFailed, isFailed, hstatus]
  · rw [isRefused, isRefused, hstatus]

end Service

end ComplexityGauge
