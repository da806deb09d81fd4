import ComplexityGauge.Language
import ComplexityGauge.Rating
import ComplexityGauge.Record.Field
import ComplexityGauge.Report

/-!
# Records of the service

The shapes of what clients send to the service and of what it answers.

## Main definitions

* `AnalysisRequest` — a source text to analyse, trimmed and within the limit
* `DisplayResult` — a result as clients show it, with ratings, language and time stamp
* `AnalysisState`, `AnalysisReply`, `ExampleReply`, `ErrorReply` — the answers
-/

namespace ComplexityGauge

open Text

/-- A request to analyse a source text. -/
structure AnalysisRequest where
  code : WideText
  language : Language
  deriving DecidableEq, Repr

namespace AnalysisRequest

/-- The source text that is kept of a text sent: without blanks at its ends, not empty, and of at
most `limit` characters. -/
def checkCode (limit : Int) (sent : WideText) : Validated WideText :=
  let code := sent.trim
  if code.isEmpty then .refuse .emptyCode
  else if limit < code.length then .refuse (.oversizedCode limit)
  else .valid code

/-- The field that holds a source text. -/
def codeField (limit : Int) : Field WideText where
  read j := (Field.wideText.read j).andThen (checkCode limit)
  write := Field.wideText.write

/-- The text that is analysed. Half of a surrogate pair is part of no pattern, and neither is the
replacement character in its place. -/
def text (r : AnalysisRequest) : Text := r.code.shown

/-- The field that holds a language hint. Everything but a text is no hint. -/
def languageField : Field Language where
  read
    | .text hint => .valid (.ofHint hint)
    | _ => .valid .auto
  write l := .text l.name

/-- A request as a record, under a limit on the number of characters. -/
def shape (limit : Int) : Shape AnalysisRequest where
  name := "AnalyzeRequest".toList
  read members := AnalysisRequest.mk
    <$> required members "code".toList (codeField limit)
    <*> withDefault members "language".toList languageField .auto
  write r :=
    [("code".toList, (codeField limit).write r.code),
      ("language".toList, languageField.write r.language)]

end AnalysisRequest

/-- The field that holds a rating. -/
def Rating.field : Field Rating := .word all name .notListed

/-- A result as it is shown. Its labels may be any texts, because clients send results back,
and even halves of surrogate pairs may stand in them. -/
structure DisplayResult where
  timeLabel : WideText
  spaceLabel : WideText
  timeExplanation : WideText
  spaceExplanation : WideText
  report : WideText
  timeRating : Rating := .good
  spaceRating : Rating := .good
  language : WideText := .ofText Language.auto.name
  timestamp : Option WideText := none
  deriving DecidableEq, Repr

namespace DisplayResult

/-- A shown result as a record. -/
def shape : Shape DisplayResult where
  name := "AnalysisResult".toList
  read members := DisplayResult.mk
    <$> required members "timeComplexity".toList .wideText
    <*> required members "spaceComplexity".toList .wideText
    <*> required members "timeExplanation".toList .wideText
    <*> required members "spaceExplanation".toList .wideText
    <*> required members "detailedReport".toList .wideText
    <*> withDefault members "timeRating".toList Rating.field .good
    <*> withDefault members "spaceRating".toList Rating.field .good
    <*> withDefault members "language".toList .wideText (.ofText Language.auto.name)
    <*> withDefault members "timestamp".toList (.optional .wideText) none
  write r :=
    [("timeComplexity".toList, Field.wideText.write r.timeLabel),
      ("spaceComplexity".toList, Field.wideText.write r.spaceLabel),
      ("timeExplanation".toList, Field.wideText.write r.timeExplanation),
      ("spaceExplanation".toList, Field.wideText.write r.spaceExplanation),
      ("detailedReport".toList, Field.wideText.write r.report),
      ("timeRating".toList, Rating.field.write r.timeRating),
      ("spaceRating".toList, Rating.field.write r.spaceRating),
      ("language".toList, Field.wideText.write r.language),
      ("timestamp".toList, (Field.optional .wideText).write r.timestamp)]

/-- The summary of a shown result. -/
def summary (r : DisplayResult) : WideText :=
  ComplexityGauge.summary WideText.ofText r.timeLabel r.spaceLabel r.report

end DisplayResult

/-- How far an analysis has come, as a client sees it. -/
inductive AnalysisState | idle | analyzing | done | error
  deriving DecidableEq, Repr

namespace AnalysisState

/-- All states in order. -/
def all : List AnalysisState := [idle, analyzing, done, error]

/-- The name of a state. -/
def name : AnalysisState → Text
  | idle => "idle".toList
  | analyzing => "analyzing".toList
  | done => "done".toList
  | error => "error".toList

/-- The field that holds a state. -/
def field : Field AnalysisState := .word all name .notState

end AnalysisState

/-- The answer to a request for an analysis. -/
structure AnalysisReply where
  success : Bool := true
  state : AnalysisState := .done
  result : DisplayResult
  deriving DecidableEq, Repr

/-- The answer to a request for an analysis as a record. -/
def AnalysisReply.shape : Shape AnalysisReply where
  name := "AnalyzeResponse".toList
  read members := AnalysisReply.mk
    <$> withDefault members "success".toList .flag true
    <*> withDefault members "state".toList AnalysisState.field .done
    <*> required members "result".toList DisplayResult.shape.field
  write r :=
    [("success".toList, Field.flag.write r.success),
      ("state".toList, AnalysisState.field.write r.state),
      ("result".toList, DisplayResult.shape.field.write r.result)]

/-- The answer to a request for an example. -/
structure ExampleReply where
  language : WideText
  code : WideText
  deriving DecidableEq, Repr

/-- The answer to a request for an example as a record. -/
def ExampleReply.shape : Shape ExampleReply where
  name := "ExampleResponse".toList
  read members := ExampleReply.mk
    <$> required members "language".toList .wideText
    <*> required members "code".toList .wideText
  write r :=
    [("language".toList, Field.wideText.write r.language),
      ("code".toList, Field.wideText.write r.code)]

/-- The answer to a request that failed. -/
structure ErrorReply where
  success : Bool := false
  state : AnalysisState := .error
  error : WideText
  details : Option WideText := none
  deriving DecidableEq, Repr

/-- The answer to a request that failed as a record. -/
def ErrorReply.shape : Shape ErrorReply where
  name := "ErrorResponse".toList
  read members := ErrorReply.mk
    <$> withDefault members "success".toList .flag false
    <*> withDefault members "state".toList AnalysisState.field .error
    <*> required members "error".toList .wideText
    <*> withDefault members "details".toList (.optional .wideText) none
  write r :=
    [("success".toList, Field.flag.write r.success),
      ("state".toList, AnalysisState.field.write r.state),
      ("error".toList, Field.wideText.write r.error),
      ("details".toList, (Field.optional .wideText).write r.details)]

end ComplexityGauge
