import ComplexityGauge.Proofs.Answers

/-!
# What the log does not tell

Two requests with the same method, path and headers may differ in what they send. The log shows
little of the difference. Of a text that is analysed it shows the length, the language and what
follows from the signals, and of a payload that is refused it shows where its first problems lie and
of what kind they are. It shows nothing of a result that is sent back, and nothing of what a
request sends whose declared size is judged unfavourably.

Where a problem lies is told by the name of a field of the record that the route expects, by the
word for the whole body, or by a position. So no name and no value is taken over from a payload.

## Main definitions

* `Service.LoggedPlace` — the places that the entry on a refusal may show

## Main results

* `Service.analysisEntries_congr`, `Service.refusedEntry_congr` — what the entries depend on
* `Service.exists_loggedPlace` — a refusal shows no place but these
* `Service.logLines_congr` — the lines of two requests that differ in what they send
-/

namespace ComplexityGauge.Service

open Text

variable {s : Settings} {now now' : Text} {c c' : Counters} {r r' : Request}

/-! ### Entries -/

/-- The entries on an analysis depend on the length of the text, its language and its signals. -/
theorem analysisEntries_congr {a b : AnalysisRequest} (hlength : a.text.length = b.text.length)
    (hlanguage : a.language = b.language)
    (hsignals : Signals.ofText a.text = Signals.ofText b.text) :
    analysisEntries a = analysisEntries b := by
  have hrequested : requestedEntry a = requestedEntry b := by
    rw [requestedEntry, requestedEntry, hlength, hlanguage]
  have hcompleted : completedEntry (Analysis.ofText a.text) =
      completedEntry (Analysis.ofText b.text) := by
    rw [Analysis.ofText, Analysis.ofText, hsignals]
  have hreported (hint : Option Text) :
      ({} : Analyzer).entries a.text hint = ({} : Analyzer).entries b.text hint := by
    unfold Analyzer.entries
    rw [hsignals, hlength]
  rw [analysisEntries, analysisEntries, hrequested, hcompleted, hreported, hlanguage]

/-- The last step to the place of a problem, and its kind. -/
def placeAndKind (p : Problem) : Option Place × Text := (p.path.getLast?, p.cause.kind)

/-- A place and a kind as log entries show them. -/
def shownPlaceAndKind (pair : Option Place × Text) : Text :=
  "\x7b'field': ".toList ++ (pair.1.map shownPlace).getD "'unknown'".toList ++
    ", 'type': '".toList ++ pair.2 ++ "'\x7d".toList

theorem shownProblem_eq : shownProblem = shownPlaceAndKind ∘ placeAndKind := rfl

/-- The entry on a refusal depends on the places and the kinds of the first problems. -/
theorem refusedEntry_congr (hmethod : r.method = r'.method) (hpath : r.path = r'.path)
    {problems problems' : List Problem}
    (h : (problems.take 5).map placeAndKind = (problems'.take 5).map placeAndKind) :
    refusedEntry r problems = refusedEntry r' problems' := by
  have hshown : (problems.take 5).map shownProblem = (problems'.take 5).map shownProblem := by
    rw [shownProblem_eq, ← List.map_map, h, List.map_map]
  rw [refusedEntry, refusedEntry, hshown, hmethod, Request.shownPath, Request.shownPath, hpath]

/-- The entry on a failure depends on its cause. -/
theorem failedEntry_congr (hmethod : r.method = r'.method) (hpath : r.path = r'.path)
    (cause : Failure) : failedEntry r cause = failedEntry r' cause := by
  rw [failedEntry, failedEntry, hmethod, Request.shownPath, Request.shownPath, hpath]

/-! ### Layers -/

/-- The declared size is judged by the method and the headers. -/
theorem judge_congr (limit : Int) (hmethod : r.method = r'.method)
    (hheaders : r.headers = r'.headers) : SizeLimit.judge limit r = SizeLimit.judge limit r' := by
  have hdeclared : SizeLimit.declared r = SizeLimit.declared r' := by
    rw [SizeLimit.declared, SizeLimit.declared, Request.header?, Request.header?, hheaders]
  rw [SizeLimit.judge, SizeLimit.judge, hmethod, hdeclared]

/-! ### The ways to answer -/

/-- Analyses leave the same lines if texts of one length, in one language and with the same signals
are sent. -/
theorem logLines_of_isAnalysed (h : isAnalysed r (answer s now c r) = true)
    (h' : isAnalysed r' (answer s now' c' r') = true) :
    ∃ code code' language language',
      Submits r code language ∧ Submits r' code' language' ∧
        ((trim code).length = (trim code').length → language = language' →
          Signals.ofText (trim code) = Signals.ofText (trim code') →
          s.logLines (answer s now c r).entries = s.logLines (answer s now' c' r').entries) := by
  obtain ⟨code, request, hsubmits, htext, hanswer⟩ := exists_of_isAnalysed h
  obtain ⟨code', request', hsubmits', htext', hanswer'⟩ := exists_of_isAnalysed h'
  refine ⟨code, code', request.language, request'.language, hsubmits, hsubmits', ?_⟩
  intro hlength hlanguage hsignals
  rw [hanswer, hanswer']
  rw [← htext, ← htext'] at hlength hsignals
  exact congrArg s.logLines (analysisEntries_congr hlength hlanguage hsignals)

/-- A refusal is noted with the problems of the payload, of which there is at least one. -/
theorem entries_of_isRefused (h : isRefused (answer s now c r) = true) :
    problems s r ≠ [] ∧ (answer s now c r).entries = [refusedEntry r (problems s r)] := by
  obtain ⟨first, more, hproblems, hanswer⟩ := exists_of_isRefused h
  rw [hanswer, hproblems]
  exact ⟨List.cons_ne_nil first more, rfl⟩

/-- An answer that is no analysis, no refusal and no failure is not noted. -/
theorem logLines_eq_nil {o : Outcome} (h : Answered c r o) (hanalysed : isAnalysed r o = false)
    (hrefused : o.response.status ≠ 422) (hfailed : o.response.status ≠ 500) :
    s.logLines o.entries = [] := by
  have hother := (h.accounts (s := s)).other hanalysed (decide_eq_false hrefused)
    (decide_eq_false hfailed)
  rw [hother.1]
  rfl

/-- A request that is stopped for the size that it declares leaves the same lines whatever it
sends. -/
theorem logLines_of_judge_ne_pass (hmethod : r.method = r'.method) (hpath : r.path = r'.path)
    (hheaders : r.headers = r'.headers) (hjudge : SizeLimit.judge s.maxRequestSize r ≠ .pass) :
    ((answer s now c r).response.status = 413 ∨ (answer s now c r).response.status = 500) ∧
      (answer s now c r).response.status = (answer s now' c' r').response.status ∧
      s.logLines (answer s now c r).entries = s.logLines (answer s now' c' r').entries := by
  have hsame := judge_congr s.maxRequestSize hmethod hheaders
  cases hsize : SizeLimit.judge s.maxRequestSize r with
  | pass => exact absurd hsize hjudge
  | tooLarge =>
    rw [answer_of_tooLarge hsize, answer_of_tooLarge (hsame.symm.trans hsize)]
    exact ⟨Or.inl rfl, rfl, rfl⟩
  | failure cause =>
    rw [answer_of_failure hsize, answer_of_failure (hsame.symm.trans hsize)]
    exact ⟨Or.inr rfl, rfl, congrArg (s.logLines [·]) (failedEntry_congr hmethod hpath cause)⟩

/-! ### Places -/

/-- The places that the entry on a refusal may show. -/
inductive LoggedPlace (r : Request) : Place → Prop
  /-- The body as a whole. -/
  | body : LoggedPlace r (.field "body".toList)
  /-- A field of the record that the request is expected to send. -/
  | field {name : Text} (expected : name ∈ fieldNames r) : LoggedPlace r (.field name)
  /-- The position at which the text of the body is no JSON. -/
  | offset {t : WideText} {n : ℕ} (decoded : Encoding.decode? r.body = some t)
    (malformed : Json.read t = .error (.malformed n)) : LoggedPlace r (.index n)

theorem exists_loggedPlace {p : Problem} (h : p ∈ problems s r) :
    ∃ place, p.path.getLast? = some place ∧ LoggedPlace r place := by
  rcases place_of_mem_problems h with hpath | ⟨name, hname, hpath⟩ | ⟨t, n, hdecode, hread, hpath⟩
  · exact ⟨_, by rw [hpath]; rfl, .body⟩
  · exact ⟨_, by rw [hpath]; rfl, .field hname⟩
  · exact ⟨_, by rw [hpath]; rfl, .offset hdecode hread⟩

/-! ### Lines -/

/-- The lines of two requests that differ in what they send, whatever the level of the log and the
counters. Analyses leave the same lines if texts of one length, in one language and with the same
signals are sent. Refusals leave the same lines if their first five problems have the same places
and kinds. A result that is sent back leaves no line, nor does a request that is too large. A
request that is stopped for the size that it declares leaves the same lines whatever it sends. The
places that are shown of a refusal are fields of the expected record, the body, or positions. -/
theorem logLines_congr (s : Settings) (now now' : Text) (c c' : Counters)
    (hmethod : r.method = r'.method) (hpath : r.path = r'.path)
    (hheaders : r.headers = r'.headers) :
    let o := answer s now c r
    let o' := answer s now' c' r'
    (isAnalysed r o = true → isAnalysed r' o' = true →
      ∃ code code' language language',
        Submits r code language ∧ Submits r' code' language' ∧
          ((trim code).length = (trim code').length → language = language' →
            Signals.ofText (trim code) = Signals.ofText (trim code') →
            s.logLines o.entries = s.logLines o'.entries)) ∧
    (isRefused o = true → isRefused o' = true →
      ((problems s r).take 5).map placeAndKind = ((problems s r').take 5).map placeAndKind →
      s.logLines o.entries = s.logLines o'.entries) ∧
    (Route.ofPath? r.path = some .exportText →
      o.response.status = 200 → o'.response.status = 200 →
      s.logLines o.entries = [] ∧ s.logLines o'.entries = []) ∧
    (o.response.status = 413 → o'.response.status = 413 →
      s.logLines o.entries = [] ∧ s.logLines o'.entries = []) ∧
    (SizeLimit.judge s.maxRequestSize r ≠ .pass →
      (o.response.status = 413 ∨ o.response.status = 500) ∧
        o.response.status = o'.response.status ∧
        s.logLines o.entries = s.logLines o'.entries) ∧
    (isRefused o = true →
      (problems s r ≠ [] ∧ o.entries = [refusedEntry r (problems s r)]) ∧
        ∀ p ∈ problems s r, ∃ place, p.path.getLast? = some place ∧ LoggedPlace r place) := by
  refine ⟨logLines_of_isAnalysed, ?refused, ?exported, ?large,
    logLines_of_judge_ne_pass hmethod hpath hheaders,
    fun h => ⟨entries_of_isRefused h, fun _ => exists_loggedPlace⟩⟩
  case refused =>
    intro h h' hshown
    rw [(entries_of_isRefused h).2, (entries_of_isRefused h').2,
      refusedEntry_congr hmethod hpath hshown]
  case exported =>
    intro hroute hstatus hstatus'
    have hanalysed (o : Outcome) : isAnalysed r o = false :=
      isAnalysed_of_route (by rw [hroute]; decide)
    have hanalysed' (o : Outcome) : isAnalysed r' o = false :=
      isAnalysed_of_route (by rw [← hpath, hroute]; decide)
    exact ⟨logLines_eq_nil (answer_answered s now c r) (hanalysed _) (by omega) (by omega),
      logLines_eq_nil (answer_answered s now' c' r') (hanalysed' _) (by omega) (by omega)⟩
  case large =>
    intro hstatus hstatus'
    have hanalysed : isAnalysed r (answer s now c r) = false := isAnalysed_of_status (by omega)
    have hanalysed' : isAnalysed r' (answer s now' c' r') = false :=
      isAnalysed_of_status (by omega)
    exact ⟨logLines_eq_nil (answer_answered s now c r) hanalysed (by omega) (by omega),
      logLines_eq_nil (answer_answered s now' c' r') hanalysed' (by omega) (by omega)⟩

/-- A request for the analysis of a loop over a variable. -/
def loopOver (variableName : Char) : Request :=
  sending "/analyze".toList [("code".toList, "for ".toList ++ [variableName])]

/-- The name of the variable is not shown. -/
theorem logLines_loopOver :
    let o := answer {} [] {} (loopOver 'x')
    let o' := answer {} [] {} (loopOver 'y')
    isAnalysed (loopOver 'x') o = true ∧ isAnalysed (loopOver 'y') o' = true ∧
      (loopOver 'x').body ≠ (loopOver 'y').body ∧
      ({} : Settings).logLines o.entries = ({} : Settings).logLines o'.entries := by
  have hx : isAnalysed (loopOver 'x') (answer {} [] {} (loopOver 'x')) = true := by
    decide +kernel
  have hy : isAnalysed (loopOver 'y') (answer {} [] {} (loopOver 'y')) = true := by
    decide +kernel
  refine ⟨hx, hy, by decide +kernel, ?_⟩
  have hsends : Submits (loopOver 'x') "for x".toList .auto ∧
      Submits (loopOver 'y') "for y".toList .auto :=
    ⟨⟨_, holdsObject_sending _ _ (by decide +kernel), rfl, rfl⟩,
      ⟨_, holdsObject_sending _ _ (by decide +kernel), rfl, rfl⟩⟩
  have hmethod : (loopOver 'x').method = (loopOver 'y').method := rfl
  obtain ⟨code, code', language, language', hsubmits, hsubmits', hlines⟩ :=
    (logLines_congr {} [] [] {} {} hmethod rfl rfl).1 hx hy
  obtain ⟨rfl, rfl⟩ := hsends.1.unique hsubmits
  obtain ⟨rfl, rfl⟩ := hsends.2.unique hsubmits'
  exact hlines rfl rfl (by decide +kernel)

end ComplexityGauge.Service
