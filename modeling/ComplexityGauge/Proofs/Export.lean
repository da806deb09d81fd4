import ComplexityGauge.Proofs.Answers

/-!
# Results that are sent back

A client may send the result of an analysis back and gets it as a text to copy. The result is read
member by member, so neither the order of its members nor anything else in the object matters, and
every member is read as it was written. The text is then the one that the analysis itself has for
copying: it holds no halves of surrogate pairs, so it can always be sent.

The service keeps no result. What it makes of a result depends neither on its counters nor on the
time, and it leaves no trace.

## Main results

* `DisplayResult.summary_ofAnalysis` — a shown result has the summary of its analysis
* `Service.answer_result` — the answer to a result that is sent back
* `Service.export_of_analysis` — the answer to the result of any earlier analysis
-/

namespace ComplexityGauge

open Text

theorem WideText.ofText_append (t u : Text) : ofText (t ++ u) = ofText t ++ ofText u :=
  List.map_append

/-- A text without halves can be sent. -/
theorem WideText.firstHalves?_ofText (t : Text) : (ofText t).firstHalves? = none := by
  have hbefore : (ofText t).takeWhile (fun symbol => !symbol.isHalf) = ofText t := by
    rw [List.takeWhile_eq_self_iff]
    intro symbol hsymbol
    obtain ⟨c, -, rfl⟩ := List.mem_map.mp hsymbol
    rfl
  rw [firstHalves?, hbefore, List.drop_length]
  rfl

/-- A result that is handed on as a record has the summary of the result itself. -/
theorem Analysis.summary_map (a : Analysis) :
    (a.map WideText.ofText).summary = .ofText a.exportText := by
  simp only [exportText, ComplexityGauge.exportText, ComplexityGauge.summary,
    WideText.ofText_append]
  rfl

/-- A shown result has the summary of its analysis. -/
theorem DisplayResult.summary_ofAnalysis (a : Analysis) (language : Language) (now : Text) :
    (DisplayResult.ofAnalysis a language now).summary = .ofText a.exportText :=
  a.summary_map

namespace Service

variable {s : Settings} {now : Text} {c : Counters} {r : Request} {members : List (Text × Json)}

/-- Both paths of the route. -/
theorem ofPath?_exportText {path : Text}
    (h : path = "/export".toList ∨ path = "/api/v1/export".toList) :
    Route.ofPath? path = some .exportText := by
  rcases h with rfl | rfl <;> decide

theorem exported_ofAnalysis (c : Counters) (a : Analysis) (language : Language) (now : Text) :
    exported c (.ofAnalysis a language now) =
      .ok { response := .ofText 200 a.exportText, counters := c } := by
  rw [exported, DisplayResult.summary_ofAnalysis, WideText.firstHalves?_ofText,
    WideText.shown_ofText]

/-- The answer to a result that is sent back is the text for copying. -/
theorem answer_result {a : Analysis} {language : Language} {shownAt : Text}
    (hmethod : r.method = "POST".toList)
    (hpath : r.path = "/export".toList ∨ r.path = "/api/v1/export".toList)
    (hsize : SizeLimit.judge s.maxRequestSize r = .pass) (hbody : Payload.HoldsObject r members)
    (hmembers : ∀ m ∈ DisplayResult.shape.write (.ofAnalysis a language shownAt),
      Json.member? m.1 members = some m.2) :
    answer s now c r = withHeaders (withHeaders
      { response := .ofText 200 a.exportText, counters := c } securityHeaders)
      (Cors.headers s.origins (r.header? "origin".toList)) := by
  have hread : Payload.read DisplayResult.shape r = .record (.ofAnalysis a language shownAt) := by
    rw [Payload.read_of_holdsObject hbody, Payload.ofJson,
      DisplayResult.faithful_shape _ _ hmembers]
    rfl
  have houtcome : onRoute s c now r .exportText =
      .ok { response := .ofText 200 a.exportText, counters := c } := by
    rw [onRoute, hread]
    exact exported_ofAnalysis c a language shownAt
  exact answer_of_route hsize (ofPath?_exportText hpath) hmethod houtcome

/-- The result of every analysis can be sent back, at any time and whatever was asked in between,
in an object that holds its members in any order and perhaps others besides. The answer is the text
for copying of the text that was analysed, it is noted nowhere, and it changes no counter. -/
theorem export_of_analysis (s : Settings) (now : Text) (c : Counters)
    (hmethod : r.method = "POST".toList)
    (hpath : r.path = "/analyze".toList ∨ r.path = "/api/v1/analyze".toList)
    (hstatus : (answer s now c r).response.status = 200) :
    ∃ code language result, Submits r code language ∧
      (answer s now c r).response.body = .json (.object [("success".toList, .bool true),
        ("state".toList, .text "done".toList), ("result".toList, .object result)]) ∧
      ∀ (now' : Text) (c' : Counters) (r' : Request) (members : List (Text × Json)),
        r'.method = "POST".toList →
        r'.path = "/export".toList ∨ r'.path = "/api/v1/export".toList →
        SizeLimit.judge s.maxRequestSize r' = .pass →
        Payload.HoldsObject r' members →
        (∀ m ∈ result, Json.member? m.1 members = some m.2) →
        let o := answer s now' c' r'
        o.response.status = 200 ∧
          o.response.headers.lookup Response.contentType =
            some "text/plain; charset=utf-8".toList ∧
          o.response.body = .text (Analysis.ofText code).exportText ∧
          o.counters = c' ∧ o.entries = [] := by
  have hanalysed : isAnalysed r (answer s now c r) = true := by
    rw [isAnalysed, hstatus, hmethod, ofPath?_analyze hpath]
    decide
  obtain ⟨code, request, hsubmits, -⟩ := exists_of_isAnalysed hanalysed
  refine ⟨code, request.language,
    DisplayResult.shape.write (.ofAnalysis (.ofText code) request.language now), hsubmits, ?body,
    ?sentBack⟩
  case body =>
    rw [body_of_isAnalysed hanalysed hsubmits, analysisJson, ← toJson_ofAnalysis]
    rfl
  case sentBack =>
    intro now' c' r' members hmethod' hpath' hsize hbody hmembers
    rw [answer_result hmethod' hpath' hsize hbody hmembers]
    exact ⟨rfl, rfl, rfl, rfl, rfl⟩

/-- What the service shows of the analysis of one loop, as texts. -/
def loopResult : List (Text × Text) :=
  let a := Analysis.ofSignals { maxNestedLoops := 1 }
  [("timeComplexity".toList, a.time.label), ("spaceComplexity".toList, a.space.label),
    ("timeExplanation".toList, a.timeExplanation), ("spaceExplanation".toList, a.spaceExplanation),
    ("detailedReport".toList, a.report), ("timeRating".toList, "Good".toList),
    ("spaceRating".toList, "Good".toList), ("language".toList, "auto".toList),
    ("timestamp".toList, [])]

/-- The result of a loop is sent back in another order and with one more member. -/
theorem export_loop :
    let loop := sending "/analyze".toList [("code".toList, "for x".toList)]
    let sentBack := sending "/export".toList
      (("note".toList, "mine".toList) :: loopResult.reverse)
    (answer {} [] {} loop).response.body = .json (.object [("success".toList, .bool true),
        ("state".toList, .text "done".toList),
        ("result".toList, .object (Json.ofTexts loopResult))]) ∧
      (answer {} [] {} sentBack).response.body =
        .text (Analysis.ofText "for x".toList).exportText := by
  intro loop sentBack
  have hanalysed : isAnalysed loop (answer {} [] {} loop) = true := by decide +kernel
  have hsends : Submits loop "for x".toList .auto :=
    ⟨_, holdsObject_sending _ _ (by decide +kernel), rfl, rfl⟩
  -- The answer shows the result that is sent back below.
  have hsignals : Signals.ofText "for x".toList = { maxNestedLoops := 1 } := by decide +kernel
  have hshown : (answer {} [] {} loop).response.body = .json (.object
      [("success".toList, .bool true), ("state".toList, .text "done".toList),
        ("result".toList, .object (Json.ofTexts loopResult))]) := by
    rw [body_of_isAnalysed hanalysed hsends, Analysis.ofText, hsignals]
    rfl
  obtain ⟨code, language, result, hsubmits, hbody, hsentBack⟩ :=
    export_of_analysis {} [] {} rfl (Or.inl rfl) (status_of_isAnalysed hanalysed)
  obtain ⟨rfl, rfl⟩ := hsends.unique hsubmits
  obtain rfl : Json.ofTexts loopResult = result := by
    rw [hshown] at hbody
    simpa using hbody
  refine ⟨hshown, ?_⟩
  have hread := holdsObject_sending "/export".toList
    (("note".toList, "mine".toList) :: loopResult.reverse) (by decide +kernel)
  refine (hsentBack [] {} sentBack _ rfl (Or.inl rfl) (by decide) hread ?_).2.2.1
  -- Each member is found under its name.
  simp only [Json.ofTexts, loopResult, List.map_cons, List.map_nil, List.forall_mem_cons]
  exact ⟨rfl, rfl, rfl, rfl, rfl, rfl, rfl, rfl, rfl, fun _ h => absurd h List.not_mem_nil⟩

end Service

end ComplexityGauge
