import ComplexityGauge.Proofs.Grammar
import ComplexityGauge.Proofs.Layout
import ComplexityGauge.Proofs.Reading
import ComplexityGauge.Service.Answer

/-!
# Submitted texts

What the service answers to a text that is sent to it for analysis. The text is trimmed first and
refused if nothing is left or too much, and what is left is analysed. Trimming changes no signal, so
the answer shows the analysis of the text as it was sent. The language hint shows up in one field
and nowhere else.

The text comes as a member of an object, and the object may be written in many ways. All of them
are read, unless the object goes beyond the limits of the reader. Then nothing of the body is looked
at, and the answer says so.

## Main definitions

* `Payload.Writes` — a request whose body is declared to be JSON and writes a document
* `Service.refusalJson`, `Service.analysisJson` — the two kinds of answers, written out

## Main results

* `Payload.holdsObject_iff` — the bodies that are read as objects
* `Service.answer_of_route` — a request that passes all layers is answered by its route
* `Service.onRoute_analyze` — the answer to a request for an analysis, by the check of its code
* `Service.answer_submission` — the answer to a text sent for analysis
* `Service.not_forall_submissions_answered` — a hint may be too long for an answer
-/

namespace ComplexityGauge

open Text

/-- Trimming a text does not change its analysis. -/
theorem Analysis.ofText_trim (code : Text) : ofText (trim code) = ofText code := by
  rw [ofText, Signals.ofText_trim, ofText]

/-! ### The check of a text -/

namespace AnalysisRequest

variable {limit : Int} {sent : WideText}

theorem checkCode_of_blank (h : sent.trim = []) : checkCode limit sent = .refuse .emptyCode := by
  rw [checkCode, h]
  rfl

theorem checkCode_of_oversized (h : sent.trim ≠ []) (hlimit : limit < sent.trim.length) :
    checkCode limit sent = .refuse (.oversizedCode limit) := by
  simp only [checkCode, List.isEmpty_eq_false_iff.mpr h, Bool.false_eq_true, if_false,
    if_pos hlimit]

theorem checkCode_of_fits (h : sent.trim ≠ []) (hlimit : sent.trim.length ≤ limit) :
    checkCode limit sent = .valid sent.trim := by
  simp only [checkCode, List.isEmpty_eq_false_iff.mpr h, Bool.false_eq_true, if_false,
    if_neg (Int.not_lt.mpr hlimit)]

/-- What passes the check is the trimmed text, if that is neither empty nor beyond the limit. -/
theorem checkCode_eq_valid_iff {code : WideText} :
    checkCode limit sent = .valid code ↔ sent.trim = code ∧ code ≠ [] ∧ code.length ≤ limit := by
  constructor
  · intro h
    by_cases hblank : sent.trim = []
    · rw [checkCode_of_blank hblank] at h
      exact nomatch h
    by_cases hlong : limit < sent.trim.length
    · rw [checkCode_of_oversized hblank hlong] at h
      exact nomatch h
    · rw [checkCode_of_fits hblank (Int.not_lt.mp hlong)] at h
      obtain rfl := Validated.valid.inj h
      exact ⟨rfl, hblank, Int.not_lt.mp hlong⟩
  · rintro ⟨rfl, hne, hle⟩
    exact checkCode_of_fits hne hle

end AnalysisRequest

/-! ### Bodies as they are written -/

namespace Payload

variable {r : Request} {d : Json.Document} {members : List (Text × Json)}

/-- The request declares its body to be JSON, and the body writes this document. -/
structure Writes (r : Request) (d : Json.Document) : Prop where
  declared : ∃ value, r.header? "content-type".toList = some value ∧ isJsonType value = true
  written : Encoding.decode? r.body = some d.symbols

/-- An object within the limits is read. -/
theorem Writes.holdsObject (h : Writes r d) (hd : d.Readable)
    (hobject : d.value = .object members) : HoldsObject r members :=
  ⟨h.declared, ⟨_, h.written, by rw [Json.Document.read_eq_ok hd, hobject]⟩⟩

/-- A request holds an object exactly if its body writes one, in whatever way, that keeps to the
limits. -/
theorem holdsObject_iff :
    HoldsObject r members ↔
      ∃ d : Json.Document, Writes r d ∧ d.Readable ∧ d.value = .object members := by
  constructor
  · rintro ⟨hdeclared, t, hdecode, hread⟩
    obtain ⟨d, hd, rfl, hvalue⟩ := Json.read_eq_ok_iff.mp hread
    exact ⟨d, ⟨hdeclared, hdecode⟩, hd, hvalue⟩
  · rintro ⟨d, hwrites, hd, hobject⟩
    exact hwrites.holdsObject hd hobject

/-- What goes beyond the limits cannot be decoded. -/
theorem Writes.read_eq_undecodable {α : Type} {shape : Shape α} (h : Writes r d)
    (hd : ¬ d.Readable) : read shape r = .undecodable := by
  obtain ⟨value, hvalue, hjson⟩ := h.declared
  rw [read, body_isEmpty_eq_false h.written d.symbols_ne_nil, hvalue]
  simp only [Bool.false_eq_true, if_false, hjson, if_true, ofBytes, h.written]
  rcases Json.Document.read_eq_error hd with hread | hread <;> rw [hread]

end Payload

namespace Service

variable {s : Settings} {now : Text} {c : Counters} {r : Request} {route : Route}
  {members : List (Text × Json)} {sent : WideText}

/-! ### Layers -/

theorem preflight?_eq_none (origins : List Text) (h : r.method ≠ "OPTIONS".toList) :
    Cors.preflight? origins r = none := if_neg h

theorem method_eq_or (route : Route) :
    route.method = "POST".toList ∨ route.method = "GET".toList := by
  cases route with
  | analyze | exportText => exact Or.inl rfl
  | root | health | metrics | snippets | snippet => exact Or.inr rfl

theorem method_ne_options (h : r.method = route.method) : r.method ≠ "OPTIONS".toList := by
  rw [h]
  rcases method_eq_or route with hroute | hroute <;> rw [hroute] <;> decide

theorem routed_of_route (hroute : Route.ofPath? r.path = some route)
    (hmethod : r.method = route.method) : routed s c now r = onRoute s c now r route := by
  rw [routed, hroute]
  exact if_pos hmethod

/-- A request that passes all layers is answered by its route, with headers added. -/
theorem answer_of_route {o : Outcome} (hsize : SizeLimit.judge s.maxRequestSize r = .pass)
    (hroute : Route.ofPath? r.path = some route) (hmethod : r.method = route.method)
    (ho : onRoute s c now r route = .ok o) :
    answer s now c r = withHeaders (withHeaders o securityHeaders)
      (Cors.headers s.origins (r.header? "origin".toList)) := by
  rw [answer, preflight?_eq_none _ (method_ne_options hmethod)]
  simp only [hsize, routed_of_route hroute hmethod, ho]

/-! ### Requests for an analysis -/

/-- What the service answers to a text that it refuses. -/
def refusalJson (details : Text) : Json :=
  .object [("success".toList, .bool false), ("state".toList, .text "error".toList),
    ("error".toList, .text "Invalid request format".toList), ("details".toList, .text details)]

/-- What the service shows of an analysis. -/
def resultJson (a : Analysis) (language : Language) (now : Text) : Json :=
  .object [("timeComplexity".toList, .text a.time.label),
    ("spaceComplexity".toList, .text a.space.label),
    ("timeExplanation".toList, .text a.timeExplanation),
    ("spaceExplanation".toList, .text a.spaceExplanation),
    ("detailedReport".toList, .text a.report),
    ("timeRating".toList, .text (Rating.ofTimeLabel a.time.label).name),
    ("spaceRating".toList, .text "Good".toList),
    ("language".toList, .text language.name), ("timestamp".toList, .text now)]

/-- What the service answers to a text that it analyses. -/
def analysisJson (a : Analysis) (language : Language) (now : Text) : Json :=
  .object [("success".toList, .bool true), ("state".toList, .text "done".toList),
    ("result".toList, resultJson a language now)]

/-- A result is written field by field. -/
private theorem toJson_displayResult (r : DisplayResult) :
    DisplayResult.shape.toJson r =
      .object [("timeComplexity".toList, Json.ofWide r.timeLabel),
        ("spaceComplexity".toList, Json.ofWide r.spaceLabel),
        ("timeExplanation".toList, Json.ofWide r.timeExplanation),
        ("spaceExplanation".toList, Json.ofWide r.spaceExplanation),
        ("detailedReport".toList, Json.ofWide r.report),
        ("timeRating".toList, .text r.timeRating.name),
        ("spaceRating".toList, .text r.spaceRating.name),
        ("language".toList, Json.ofWide r.language),
        ("timestamp".toList, (Field.optional .wideText).write r.timestamp)] := rfl

theorem toJson_ofAnalysis (a : Analysis) (language : Language) (now : Text) :
    DisplayResult.shape.toJson (.ofAnalysis a language now) = resultJson a language now := by
  have hnow : (Field.optional .wideText).write (some (.ofText now)) = .text now :=
    Json.ofWide_ofText now
  rw [toJson_displayResult]
  simp only [DisplayResult.ofAnalysis, Json.ofWide_ofText, hnow]
  rfl

theorem body_analyzed (c : Counters) (now : Text) (request : AnalysisRequest) :
    (analyzed c now request).response.body =
      .json (analysisJson (Analysis.ofText request.text) request.language now) := by
  rw [analysisJson, ← toJson_ofAnalysis]
  rfl

/-- The outcome of a request for an analysis is decided by the check of its code. -/
theorem onRoute_analyze (s : Settings) (now : Text) (c : Counters)
    (hbody : Payload.HoldsObject r members)
    (hcode : Json.member? "code".toList members = some (Json.ofWide sent)) :
    onRoute s c now r .analyze =
      match AnalysisRequest.checkCode s.maxCodeLength sent with
      | .valid code =>
        .ok (analyzed c now { code := code, language := AnalysisRequest.languageOf members })
      | .invalid first more =>
        let outer (p : Problem) : Problem :=
          { p with path := Payload.place :: .field "code".toList :: p.path }
        .ok (refused c r (outer first) (more.map outer)) := by
  -- First the body is replaced by its members, then its code by the text that was sent.
  rw [onRoute, Payload.read_of_holdsObject hbody, Payload.ofJson, AnalysisRequest.read_shape,
    AnalysisRequest.required_codeField _ hcode]
  cases AnalysisRequest.checkCode s.maxCodeLength sent with
  | valid code => rfl
  | invalid first more =>
    simp only [Validated.within, Validated.map, ofPayload, List.map_map]
    rfl

/-- Both paths of the route. -/
theorem ofPath?_analyze {path : Text}
    (h : path = "/analyze".toList ∨ path = "/api/v1/analyze".toList) :
    Route.ofPath? path = some .analyze := by
  rcases h with rfl | rfl <;> decide

/-- The outcome of a request whose body goes beyond the limits of the reader. -/
theorem onRoute_analyze_of_not_readable {d : Json.Document} (s : Settings) (now : Text)
    (c : Counters) (hbody : Payload.Writes r d) (hd : ¬ d.Readable) :
    onRoute s c now r .analyze = .ok (undecodable c) := by
  rw [onRoute, hbody.read_eq_undecodable hd]
  rfl

/-- The answer to a text sent for analysis in any object, however it is written. A blank text and
one that is too long without the blanks at its ends are refused. For any other text the answer
shows the analysis of the text with those blanks. The language is that of the hint, which is looked
at nowhere else.

This holds for objects that are nested no deeper than the reader goes and hold no integer of too
many digits. Other objects, even if only their hint is to blame, count as undecodable. -/
theorem answer_submission (s : Settings) (now : Text) (c : Counters) {d : Json.Document}
    (hmethod : r.method = "POST".toList)
    (hpath : r.path = "/analyze".toList ∨ r.path = "/api/v1/analyze".toList)
    (hsize : SizeLimit.judge s.maxRequestSize r = .pass) (hbody : Payload.Writes r d)
    (hobject : d.value = .object members)
    (hcode : Json.member? "code".toList members = some (Json.ofWide sent)) :
    let response := (answer s now c r).response
    (d.source.depth ≤ Json.maxDepth ∧ d.source.longestInteger ≤ Json.maxIntegerDigits →
      ∃ language,
        (∀ hint, Json.member? "language".toList members = some (Json.ofWide hint) →
          language = Language.ofHint hint.shown) ∧
        ((∀ hint, Json.member? "language".toList members ≠ some (Json.ofWide hint)) →
          language = .auto) ∧
        let trimmed := trim sent.shown
        if trimmed = [] then
          response.status = 422 ∧
            response.body = .json (refusalJson "Please enter some code to analyze.".toList)
        else if s.maxCodeLength < trimmed.length then
          response.status = 422 ∧
            response.body = .json (refusalJson
              ("Code exceeds ".toList ++ ofInt s.maxCodeLength ++ " characters".toList))
        else
          response.status = 200 ∧
            response.body = .json (analysisJson (Analysis.ofText sent.shown) language now)) ∧
    (Json.maxDepth < d.source.depth ∨ Json.maxIntegerDigits < d.source.longestInteger →
      response.status = 400 ∧
        response.body = .json (Response.detail "There was an error parsing the body") ∧
        (answer s now c r).counters = c ∧ (answer s now c r).entries = []) := by
  have hroute := ofPath?_analyze hpath
  refine ⟨fun hlimits => ?within, fun hlimits => ?beyond⟩
  case within =>
    have hholds := hbody.holdsObject ⟨hlimits.1, hlimits.2⟩ hobject
    refine ⟨AnalysisRequest.languageOf members, fun _ => AnalysisRequest.languageOf_ofWide,
      AnalysisRequest.languageOf_of_forall_ne, ?_⟩
    have houtcome := onRoute_analyze s now c hholds hcode
    -- What is said of the trimmed text is said of the wide text behind it.
    simp only [← WideText.shown_trim, WideText.shown_eq_nil_iff, WideText.length_shown]
    -- The three cases of the statement are the three outcomes of the check of the code.
    split_ifs with hblank hlimit
    · rw [AnalysisRequest.checkCode_of_blank hblank] at houtcome
      rw [answer_of_route hsize hroute hmethod houtcome]
      exact ⟨rfl, rfl⟩
    · rw [AnalysisRequest.checkCode_of_oversized hblank hlimit] at houtcome
      rw [answer_of_route hsize hroute hmethod houtcome]
      exact ⟨rfl, rfl⟩
    · rw [AnalysisRequest.checkCode_of_fits hblank (Int.not_lt.mp hlimit)] at houtcome
      rw [answer_of_route hsize hroute hmethod houtcome, ← Analysis.ofText_trim,
        ← WideText.shown_trim]
      exact ⟨rfl, body_analyzed c now _⟩
  case beyond =>
    have hd : ¬ d.Readable := fun h =>
      hlimits.elim (Nat.not_lt_of_le h.depth_le) (Nat.not_lt_of_le h.longestInteger_le)
    rw [answer_of_route hsize hroute hmethod (onRoute_analyze_of_not_readable s now c hbody hd)]
    exact ⟨rfl, rfl, rfl, rfl⟩

/-! ### Requests that send a given text -/

/-- A request that sends a text as JSON. -/
def posting (path t : Text) : Request where
  method := "POST".toList
  host := "test".toList
  path := path
  headers := [("content-type".toList, "application/json".toList)]
  body := Utf8.encode t

theorem writes_posting (path : Text) {t : Text} {d : Json.Document} (ht : IsAscii t)
    (hd : d.symbols = .ofText t) : Payload.Writes (posting path t) d :=
  ⟨⟨"application/json".toList, rfl, by decide⟩, by rw [hd]; exact Encoding.decode?_encode ht⟩

/-- An object that holds a loop with blanks around it. -/
def paddedBody : Text := "\x7b\"code\": \" for x\\n\"\x7d".toList

/-- This object as it is written. -/
def paddedDocument : Json.Document where
  before := .none
  source := .object .none
    (.last ("code".toList.map .ofChar) .none ⟨[' '], by simp⟩ (.ofText " for x\n".toList) .none)
  after := .none

/-- A request that sends this object. -/
def paddedLoop : Request := posting "/analyze".toList paddedBody

theorem symbols_paddedDocument : paddedDocument.symbols = .ofText paddedBody := rfl

theorem answer_paddedLoop :
    Payload.Writes paddedLoop paddedDocument ∧
      (answer {} [] {} paddedLoop).response.status = 200 := by
  have hbody : Payload.Writes paddedLoop paddedDocument :=
    writes_posting _ (by decide) symbols_paddedDocument
  have hobject : paddedDocument.value = .object [("code".toList, .text " for x\n".toList)] := by
    change Json.object [((Json.Piece.symbols ("code".toList.map .ofChar)).shown,
      (Json.Source.ofText " for x\n".toList).value)] = _
    rw [Json.Piece.symbols_map_ofChar, WideText.shown_ofText, Json.Source.value_ofText]
  have hcode : Json.member? "code".toList [("code".toList, .text " for x\n".toList)] =
      some (Json.ofWide (.ofText " for x\n".toList)) := by
    rw [Json.ofWide_ofText]
    rfl
  obtain ⟨language, -, -, h⟩ :=
    (answer_submission {} [] {} rfl (Or.inl rfl) (by decide) hbody hobject hcode).1
      ⟨by decide, by decide⟩
  rw [WideText.shown_ofText, if_neg (by decide), if_neg (by decide)] at h
  exact ⟨hbody, h.1⟩

/-! ### Hints of many digits -/

/-- A number of ones. -/
def ones (more : ℕ) : Json.Number where
  negative := false
  whole := {
    text := List.replicate (more + 1) '1'
    ne_nil := List.cons_ne_nil _ _
    isDigit_of_mem := fun c hc => by rw [(List.mem_replicate.mp hc).2]; rfl }
  eq_zero_of_head := fun h => absurd (Option.some.inj h) (by decide)
  fraction := none
  exponent := none

/-- An object with a text to analyse and a number for a hint. -/
def hintedDocument (n : Json.Number) : Json.Document where
  before := .none
  source := .object .none
    (.more ("code".toList.map .ofChar) .none .none (.ofText ['x']) .none .none
      (.last ("language".toList.map .ofChar) .none .none (.number n) .none))
  after := .none

/-- The characters of this object up to its hint. -/
def hintedStart : Text := "\x7b\"code\":\"x\",\"language\":".toList

/-- The characters of this object. -/
def hintedBody (n : Json.Number) : Text := hintedStart ++ (n.text ++ ['\x7d'])

theorem symbols_hintedDocument (n : Json.Number) :
    (hintedDocument n).symbols = .ofText (hintedBody n) := by
  simp only [hintedDocument, Json.Document.symbols, Json.Source.symbols, Json.Members.symbols,
    Json.memberText, Json.symbols_none, List.nil_append, List.append_nil, hintedBody,
    WideText.ofText, List.map_append]
  rfl

theorem isAscii_hintedBody (more : ℕ) : IsAscii (hintedBody (ones more)) := by
  have hopen : IsAscii hintedStart := by decide
  have htext : (ones more).text = List.replicate (more + 1) '1' := by
    simp [ones, Json.Number.text, Json.Number.fractionText, Json.Number.exponentText]
  intro c hc
  rw [hintedBody, htext, List.mem_append, List.mem_append] at hc
  rcases hc with hc | hc | hc
  · exact hopen c hc
  · rw [(List.mem_replicate.mp hc).2]
    decide
  · rw [List.mem_singleton.mp hc]
    decide

/-- Not every hint is passed over. A number may be so long that the whole body is turned away. -/
theorem not_forall_submissions_answered :
    ¬ ∀ (s : Settings) (now : Text) (c : Counters) (r : Request) (d : Json.Document)
        (members : List (Text × Json)) (sent : WideText), r.method = "POST".toList →
        (r.path = "/analyze".toList ∨ r.path = "/api/v1/analyze".toList) →
        SizeLimit.judge s.maxRequestSize r = .pass → Payload.Writes r d →
        d.value = .object members →
        Json.member? "code".toList members = some (Json.ofWide sent) →
        trim sent.shown ≠ [] → (trim sent.shown).length ≤ s.maxCodeLength →
        (answer s now c r).response.status = 200 := by
  intro h
  have hbody : Payload.Writes (posting "/analyze".toList (hintedBody (ones 4300)))
      (hintedDocument (ones 4300)) :=
    writes_posting _ (isAscii_hintedBody 4300) (symbols_hintedDocument _)
  have hlong : ¬ (hintedDocument (ones 4300)).Readable := by
    intro hreadable
    have hle : max 0 (List.replicate 4301 '1').length ≤ 4300 := hreadable.longestInteger_le
    rw [List.length_replicate] at hle
    omega
  have hanswered := h {} [] {} _ _ _ (.ofText ['x']) rfl (Or.inl rfl) rfl hbody rfl rfl
    (by decide) (by decide)
  rw [answer_of_route rfl (ofPath?_analyze (Or.inl rfl)) rfl
    (onRoute_analyze_of_not_readable {} [] {} hbody hlong)] at hanswered
  exact absurd (show 400 = 200 from hanswered) (by decide)

end Service

end ComplexityGauge
