import ComplexityGauge.Proofs.Layers

/-!
# What the service counts and notes

Counters are kept in three places: where a text is analysed, where a request is refused for what it
sent, and where the service fails. Every answer comes from at most one of them, whatever the layer
at which the request was stopped, and its status tells from which one. So the counters can be read
off the answers given so far, and so can the number of entries in the log.

`Service.Answered` lists the ways in which a request may be answered, with all that the outcome may
note and change. `Service.answer_answered` says that the list is complete; everything else is read
off the list for one request, and carried through a run by induction.

## Main definitions

* `Service.Answered` — the ways in which a request may be answered
* `Service.isAnalysed`, `Service.isRefused`, `Service.isFailed` — what an answer counts as
* `Service.Accounts` — what an answer counts as and what it notes belong together
* `Service.countersAfter` — the counters after a sequence of requests

## Main results

* `Service.answer_answered`, `Service.Answered.accounts` — the law for one request
* `Service.countersAfter_eq` — the counters after a sequence of requests, by its answers
* `Service.run_accounts` — the law for every sequence of requests
-/

namespace ComplexityGauge.Service

open Text

variable {s : Settings} {now : Text} {c : Counters} {r : Request} {o : Outcome}

/-! ### The ways in which a request may be answered -/

/-- The answer is the analysis of a text. -/
def isAnalysed (r : Request) (o : Outcome) : Bool :=
  o.response.status = 200 && r.method = "POST".toList && Route.ofPath? r.path = some .analyze

/-- The request was refused for what it sent. -/
def isRefused (o : Outcome) : Bool := o.response.status = 422

/-- The service could not deal with the request. -/
def isFailed (o : Outcome) : Bool := o.response.status = 500

/-- What is noted on the way to an analysis. -/
def analysisEntries (request : AnalysisRequest) : List LogEntry :=
  [requestedEntry request] ++
    ({} : Analyzer).entries request.text (some request.language.name) ++
    [completedEntry (Analysis.ofText request.text)]

/-- The ways in which a request may be answered when the counters stand at `c`. -/
inductive Answered (c : Counters) (r : Request) (o : Outcome) : Prop
  /-- A text was analysed. -/
  | analysed (request : AnalysisRequest) (answered : isAnalysed r o = true)
    (entries : o.entries = analysisEntries request)
    (counters : o.counters = { c with analysed := c.analysed + 1 })
  /-- The request was refused for what it sent. -/
  | refused (problems : List Problem) (answered : isRefused o = true)
    (entries : o.entries = [refusedEntry r problems])
    (counters : o.counters = { c with refused := c.refused + 1 })
  /-- The service could not deal with the request. -/
  | failed (cause : Failure) (answered : isFailed o = true)
    (entries : o.entries = [failedEntry r cause])
    (counters : o.counters = { c with failed := c.failed + 1 })
  /-- Everything else. -/
  | other (notAnalysed : isAnalysed r o = false) (notRefused : isRefused o = false)
    (notFailed : isFailed o = false) (entries : o.entries = []) (counters : o.counters = c)

/-- More headers on a response are no other way to answer. -/
theorem Answered.withHeaders (h : Answered c r o) (headers : List (Text × Text)) :
    Answered c r (withHeaders o headers) := by
  cases h with
  | analysed request answered entries counters =>
    exact .analysed request answered entries counters
  | refused problems answered entries counters => exact .refused problems answered entries counters
  | failed cause answered entries counters => exact .failed cause answered entries counters
  | other notAnalysed notRefused notFailed entries counters =>
    exact .other notAnalysed notRefused notFailed entries counters

/-- A response on another route or to another method counts as nothing if its status is none of
the two that stand for a refusal and a failure. -/
theorem answered_of_status {response : Response}
    (hanalysed : isAnalysed r { response := response, counters := c } = false)
    (hstatus : response.status ≠ 422 ∧ response.status ≠ 500) :
    Answered c r { response := response, counters := c } :=
  .other hanalysed (decide_eq_false hstatus.1) (decide_eq_false hstatus.2) rfl rfl

theorem isAnalysed_of_status (h : o.response.status ≠ 200) : isAnalysed r o = false := by
  rw [isAnalysed, decide_eq_false h, Bool.false_and, Bool.false_and]

theorem isAnalysed_of_method (h : r.method ≠ "POST".toList) : isAnalysed r o = false := by
  rw [isAnalysed, decide_eq_false h, Bool.and_false, Bool.false_and]

theorem isAnalysed_of_route (h : Route.ofPath? r.path ≠ some .analyze) :
    isAnalysed r o = false := by
  rw [isAnalysed, decide_eq_false h, Bool.and_false]

theorem failed_answered (cause : Failure) : Answered c r (failed c r cause) :=
  .failed cause rfl rfl rfl

/-- What is answered to a payload, given what is answered to a record. -/
theorem ofPayload_answered {α : Type} {accepted : α → Except Failure Outcome}
    {reading : Payload.Reading α}
    (haccepted : ∀ value o, accepted value = .ok o → Answered c r o)
    (ho : ofPayload c r accepted reading = .ok o) : Answered c r o := by
  cases reading with
  | undecodable =>
    obtain rfl := Except.ok.inj ho
    exact answered_of_status (isAnalysed_of_status (by simp [Response.ofJson]))
      (by simp [Response.ofJson])
  | refused first more =>
    obtain rfl := Except.ok.inj ho
    exact .refused (first :: more) rfl rfl rfl
  | record value => exact haccepted value o ho

theorem onRoute_answered {route : Route} (hroute : Route.ofPath? r.path = some route)
    (hmethod : r.method = route.method) (ho : onRoute s c now r route = .ok o) :
    Answered c r o := by
  -- All routes but two answer without looking at a payload, with a status of success.
  have hother {response : Response} (hne : route ≠ .analyze)
      (hstatus : response.status ≠ 422 ∧ response.status ≠ 500) :
      Answered c r { response := response, counters := c } :=
    answered_of_status (isAnalysed_of_route (by rw [hroute]; simpa using hne)) hstatus
  cases route with
  | root | health | metrics | snippets | snippet =>
    obtain rfl := Except.ok.inj ho
    exact hother (by simp) (by simp [Response.ofJson])
  | analyze =>
    refine ofPayload_answered (fun request o ho => ?_) ho
    obtain rfl := Except.ok.inj ho
    refine .analysed request ?_ rfl rfl
    simp only [isAnalysed, hroute, hmethod]
    rfl
  | exportText =>
    refine ofPayload_answered (fun result o ho => ?_) ho
    -- A text that cannot be sent is a failure, which is counted further out.
    unfold exported at ho
    split at ho
    · obtain rfl := Except.ok.inj ho
      exact hother (by simp) (by simp [Response.ofText])
    · cases ho

theorem routed_answered (ho : routed s c now r = .ok o) : Answered c r o := by
  unfold routed at ho
  split at ho
  · next route hroute =>
    split_ifs at ho with hmethod
    · exact onRoute_answered hroute hmethod ho
    · obtain rfl := Except.ok.inj ho
      exact answered_of_status (isAnalysed_of_status (by simp [Response.ofJson]))
        (by simp [Response.ofJson])
  · split at ho
    · obtain rfl := Except.ok.inj ho
      exact answered_of_status (isAnalysed_of_status (by simp [Response.redirect]))
        (by simp [Response.redirect])
    · obtain rfl := Except.ok.inj ho
      exact answered_of_status (isAnalysed_of_status (by simp [Response.ofJson]))
        (by simp [Response.ofJson])

/-- A question asked ahead is no request for an analysis, and it is granted or turned down. -/
theorem preflight_answered {response : Response}
    (h : Cors.preflight? s.origins r = some response) :
    Answered c r { response := response, counters := c } := by
  have hmethod : r.method = "OPTIONS".toList := by
    by_contra hmethod
    exact absurd (h.symm.trans (preflight?_eq_none s.origins hmethod)) nofun
  have hanalysed : isAnalysed r { response := response, counters := c } = false :=
    isAnalysed_of_method (by rw [hmethod]; decide)
  refine answered_of_status hanalysed ?_
  rcases status_of_preflight? h with hstatus | hstatus <;> omega

/-- Every request is answered in one of these ways. -/
theorem answer_answered (s : Settings) (now : Text) (c : Counters) (r : Request) :
    Answered c r (answer s now c r) := by
  have hlayer := answer_answeredAt s now c r
  generalize answer s now c r = o at hlayer ⊢
  cases hlayer with
  | question asked => exact preflight_answered asked
  | sizeLimit large =>
    exact (answered_of_status (isAnalysed_of_status (by simp [tooLarge, Response.ofJson]))
      (by simp [tooLarge, Response.ofJson])).withHeaders _
  | route notAsked passed hrouted => exact ((routed_answered hrouted).withHeaders _).withHeaders _
  | failure notAsked fails => exact failed_answered _

/-! ### The log -/

/-- The start of the line that notes a request for an analysis. -/
def requestedMark : Text := "INFO complexity-analyzer: Analysis requested".toList

/-- The start of the line that notes a finished analysis. -/
def completedMark : Text := "INFO complexity-analyzer: Analysis completed".toList

/-- How many lines of the log start with a mark. -/
def countMarked (mark : Text) (log : List Text) : ℕ := log.countP mark.isPrefixOf

theorem countMarked_analysisEntries (request : AnalysisRequest)
    (hlevel : s.logLevel = .info ∨ s.logLevel = .debug) :
    countMarked requestedMark (s.logLines (analysisEntries request)) = 1 ∧
      countMarked completedMark (s.logLines (analysisEntries request)) = 1 := by
  unfold Settings.logLines
  rcases hlevel with hlevel | hlevel <;> rw [hlevel] <;> exact ⟨rfl, rfl⟩

theorem logLines_singleton (e : LogEntry) (he : LogLevel.info.rank ≤ e.level.rank)
    (hlevel : s.logLevel = .info ∨ s.logLevel = .debug) : s.logLines [e] = [e.line] := by
  have hkept : e.kept s.logLevel = true := by
    rcases hlevel with hlevel | hlevel <;> rw [hlevel, LogEntry.kept, decide_eq_true_eq]
    · exact he
    · exact Nat.zero_le _
  rw [Settings.logLines, List.filter_cons_of_pos hkept, List.filter_nil, List.map_singleton]

/-- What an answer counts as and what it notes belong together. Entries are looked for in a log
that keeps those of level `info`. -/
structure Accounts (s : Settings) (c : Counters) (r : Request) (o : Outcome) : Prop where
  counters : o.counters =
    { analysed := c.analysed + (isAnalysed r o).toNat
      failed := c.failed + (isFailed o).toNat
      refused := c.refused + (isRefused o).toNat }
  analysed : isAnalysed r o = true → s.logLevel = .info ∨ s.logLevel = .debug →
    countMarked requestedMark (s.logLines o.entries) = 1 ∧
      countMarked completedMark (s.logLines o.entries) = 1
  refused : isRefused o = true → s.logLevel = .info ∨ s.logLevel = .debug →
    ∃ e : LogEntry, e.level = .warning ∧ s.logLines o.entries = [e.line]
  failed : isFailed o = true → s.logLevel = .info ∨ s.logLevel = .debug →
    ∃ e : LogEntry, e.level = .error ∧ s.logLines o.entries = [e.line]
  other : isAnalysed r o = false → isRefused o = false → isFailed o = false →
    o.entries = [] ∧ o.counters = c

theorem status_of_isAnalysed (h : isAnalysed r o = true) : o.response.status = 200 := by
  simp only [isAnalysed, Bool.and_eq_true, decide_eq_true_eq] at h
  exact h.1.1

/-- The law for one request: whichever way it is answered, the status tells the way. -/
theorem Answered.accounts (h : Answered c r o) : Accounts s c r o := by
  cases h with
  | analysed request answered entries counters =>
    have hstatus := status_of_isAnalysed answered
    have hrefused : isRefused o = false := decide_eq_false (by rw [hstatus]; decide)
    have hfailed : isFailed o = false := decide_eq_false (by rw [hstatus]; decide)
    refine ⟨?count, ?log, by simp [hrefused], by simp [hfailed], by simp [answered]⟩
    case count =>
      rw [counters, answered, hrefused, hfailed]
      rfl
    case log =>
      intro _ hlevel
      rw [entries]
      exact countMarked_analysisEntries request hlevel
  | refused problems answered entries counters =>
    have hstatus : o.response.status = 422 := of_decide_eq_true answered
    have hanalysed : isAnalysed r o = false := isAnalysed_of_status (by rw [hstatus]; decide)
    have hfailed : isFailed o = false := decide_eq_false (by rw [hstatus]; decide)
    refine ⟨?count, by simp [hanalysed], ?log, by simp [hfailed], by simp [answered]⟩
    case count =>
      rw [counters, answered, hanalysed, hfailed]
      rfl
    case log =>
      intro _ hlevel
      refine ⟨refusedEntry r problems, rfl, ?_⟩
      rw [entries]
      exact logLines_singleton (refusedEntry r problems) (show 1 ≤ 2 by decide) hlevel
  | failed cause answered entries counters =>
    have hstatus : o.response.status = 500 := of_decide_eq_true answered
    have hanalysed : isAnalysed r o = false := isAnalysed_of_status (by rw [hstatus]; decide)
    have hrefused : isRefused o = false := decide_eq_false (by rw [hstatus]; decide)
    refine ⟨?count, by simp [hanalysed], by simp [hrefused], ?log, by simp [answered]⟩
    case count =>
      rw [counters, answered, hanalysed, hrefused]
      rfl
    case log =>
      intro _ hlevel
      refine ⟨failedEntry r cause, rfl, ?_⟩
      rw [entries]
      exact logLines_singleton (failedEntry r cause) (show 1 ≤ 3 by decide) hlevel
  | other notAnalysed notRefused notFailed entries counters =>
    refine ⟨?count, by simp [notAnalysed], by simp [notRefused], by simp [notFailed], ?log⟩
    case count =>
      rw [counters, notAnalysed, notRefused, notFailed]
      rfl
    case log => exact fun _ _ _ => ⟨entries, counters⟩

/-! ### Sequences of requests -/

/-- The counters after a sequence of requests. -/
def countersAfter (s : Settings) (now : Text) (c : Counters) (requests : List Request) : Counters :=
  requests.foldl (fun c r => (answer s now c r).counters) c

/-- The answers to a sequence of requests, each with its request. -/
def answers (s : Settings) (now : Text) (c : Counters) (requests : List Request) :
    List (Request × Outcome) :=
  requests.zip (run s now c requests)

theorem length_run (requests : List Request) : (run s now c requests).length = requests.length := by
  induction requests generalizing c with
  | nil => rfl
  | cons r rest ih => exact congrArg (· + 1) ih

theorem answers_cons (r : Request) (rest : List Request) :
    answers s now c (r :: rest) =
      (r, answer s now c r) :: answers s now (answer s now c r).counters rest := rfl

/-- A request is answered from the counters after those before it. -/
theorem getElem?_answers (requests : List Request) (k : ℕ) :
    (answers s now c requests)[k]? = requests[k]?.map fun r =>
      (r, answer s now (countersAfter s now c (requests.take k)) r) := by
  induction requests generalizing c k with
  | nil => rfl
  | cons r rest ih =>
    rw [answers_cons]
    cases k with
    | zero => rfl
    | succ k =>
      rw [List.getElem?_cons_succ, List.getElem?_cons_succ, ih]
      rfl

theorem eq_of_getElem?_answers {requests : List Request} {k : ℕ}
    (h : (answers s now c requests)[k]? = some (r, o)) :
    requests[k]? = some r ∧ o = answer s now (countersAfter s now c (requests.take k)) r := by
  rw [getElem?_answers, Option.map_eq_some_iff] at h
  obtain ⟨r', hr', hpair⟩ := h
  obtain ⟨rfl, rfl⟩ := Prod.mk.inj hpair
  exact ⟨hr', rfl⟩

/-- The first answers do not depend on the requests that follow. -/
theorem take_answers (requests : List Request) (k : ℕ) :
    (answers s now c requests).take k = answers s now c (requests.take k) := by
  induction requests generalizing c k with
  | nil =>
    rw [List.take_nil]
    exact List.take_nil
  | cons r rest ih =>
    cases k with
    | zero => rfl
    | succ k => rw [answers_cons, List.take_succ_cons, ih, List.take_succ_cons, answers_cons]

private theorem add_toNat_add (b : Bool) (m n : ℕ) :
    m + b.toNat + n = m + (n + if b = true then 1 else 0) := by
  rw [Nat.add_assoc, Nat.add_comm b.toNat]
  cases b <;> rfl

/-- The counters after a sequence of requests are told by its answers. -/
theorem countersAfter_eq (requests : List Request) :
    countersAfter s now c requests =
      { analysed := c.analysed + (answers s now c requests).countP fun a => isAnalysed a.1 a.2
        failed := c.failed + (answers s now c requests).countP fun a => isFailed a.2
        refused := c.refused + (answers s now c requests).countP fun a => isRefused a.2 } := by
  induction requests generalizing c with
  | nil => rfl
  | cons r rest ih =>
    have haccounts : Accounts s c r (answer s now c r) := (answer_answered s now c r).accounts
    -- The first request moves the counters from which the others are answered.
    have hrest : countersAfter s now c (r :: rest) =
        countersAfter s now (answer s now c r).counters rest := rfl
    rw [hrest, ih, answers_cons]
    simp only [List.countP_cons, haccounts.counters, add_toNat_add]

/-! ### The counters as the service shows them -/

/-- Both paths of the route. -/
theorem ofPath?_metrics {path : Text}
    (h : path = "/metrics".toList ∨ path = "/api/v1/metrics".toList) :
    Route.ofPath? path = some .metrics := by
  rcases h with rfl | rfl <;> decide

theorem judge_of_get (limit : Int) (h : r.method = "GET".toList) :
    SizeLimit.judge limit r = .pass := by
  rw [SizeLimit.judge, h]
  exact if_neg (by decide)

/-- The counters are shown as they stand. -/
theorem answer_metrics (s : Settings) (now : Text) (c : Counters)
    (hmethod : r.method = "GET".toList)
    (hpath : r.path = "/metrics".toList ∨ r.path = "/api/v1/metrics".toList) :
    (answer s now c r).response.status = 200 ∧
      (answer s now c r).response.body = .json (metrics c now) := by
  rw [answer_of_route (judge_of_get s.maxRequestSize hmethod) (ofPath?_metrics hpath) hmethod rfl]
  exact ⟨rfl, rfl⟩

/-- The law for every sequence of requests to a service that has just started. The counters shown
are the numbers of earlier answers of each kind. What an answer notes and changes is told by what
it counts as. -/
theorem run_accounts (s : Settings) (now : Text) (requests : List Request) :
    let answers := requests.zip (run s now {} requests)
    answers.length = requests.length ∧
      ∀ (k : ℕ) (r : Request) (o : Outcome), answers[k]? = some (r, o) →
        (r.method = "GET".toList →
          r.path = "/metrics".toList ∨ r.path = "/api/v1/metrics".toList →
          let earlier := answers.take k
          o.response.status = 200 ∧
            o.response.body = .json (.object [("success".toList, .bool true),
              ("metrics".toList, .object [
                ("requests_total".toList, .int (earlier.countP fun a => isAnalysed a.1 a.2)),
                ("requests_failed".toList, .int (earlier.countP fun a => isFailed a.2)),
                ("validation_errors".toList, .int (earlier.countP fun a => isRefused a.2))]),
              ("timestamp".toList, .text now)])) ∧
        Accounts s (countersAfter s now {} (requests.take k)) r o := by
  refine ⟨by rw [List.length_zip, length_run, Nat.min_self], ?_⟩
  intro k r o ho
  have hanswer : (answers s now {} requests)[k]? = some (r, o) := ho
  rw [getElem?_answers, Option.map_eq_some_iff] at hanswer
  obtain ⟨r', -, hr'⟩ := hanswer
  obtain ⟨rfl, rfl⟩ := Prod.mk.inj hr'
  refine ⟨?_, (answer_answered s now _ r').accounts⟩
  intro hmethod hpath
  -- The counters shown are those after the earlier requests, and these are told by their answers.
  have htake : (requests.zip (run s now {} requests)).take k =
      answers s now {} (requests.take k) := take_answers requests k
  obtain ⟨hstatus, hbody⟩ := answer_metrics s now (countersAfter s now {} (requests.take k))
    hmethod hpath
  refine ⟨hstatus, ?_⟩
  rw [hbody, countersAfter_eq, htake]
  simp only [metrics, Nat.zero_add]

/-- A request for an analysis that sends nothing. -/
def emptyPost : Request where
  method := "POST".toList
  host := "test".toList
  path := "/analyze".toList

/-- A request for the counters. -/
def metricsQuery : Request where
  method := "GET".toList
  host := "test".toList
  path := "/metrics".toList

theorem run_emptyPost_metricsQuery :
    ∃ o, (run {} [] {} [emptyPost, metricsQuery])[1]? = some o ∧
      o.response.body = .json (.object [("success".toList, .bool true),
        ("metrics".toList, .object [("requests_total".toList, .int 0),
          ("requests_failed".toList, .int 0), ("validation_errors".toList, .int 1)]),
        ("timestamp".toList, .text [])]) := by
  refine ⟨_, rfl, ?_⟩
  exact (((run_accounts {} [] [emptyPost, metricsQuery]).2 1 metricsQuery _ rfl).1 rfl
    (Or.inl rfl)).2

end ComplexityGauge.Service
