import ComplexityGauge.Rating
import ComplexityGauge.Report
import ComplexityGauge.Verdict

/-!
# Analyses

The whole way from a source text to its result: the signals are read off the text, and verdict
and report off the signals.

## Main definitions

* `Analysis` — the result for one source text
* `Analysis.ofSignals`, `Analysis.ofText` — the result from signals, and from a text
* `Analysis.map` — a result whose sentences are written in another way
* `Analysis.exportText`, `Analysis.timeRating` — what is shown of a result
-/

namespace ComplexityGauge

/-- The result of analysing one source text. As in a verdict, its sentences are texts unless they
come from outside. -/
structure Analysis (T : Type := Text) where
  time : TimeClass
  space : SpaceClass
  timeExplanation : T
  spaceExplanation : T
  report : T
  deriving DecidableEq, Repr

namespace Analysis

/-- The result for given signals. -/
def ofSignals (s : Signals) : Analysis :=
  let v := Verdict.ofSignals s
  { time := v.time
    space := v.space
    timeExplanation := v.timeExplanation
    spaceExplanation := v.spaceExplanation
    report := s.report }

/-- The result for a source text. -/
def ofText (code : Text) : Analysis := ofSignals (Signals.ofText code)

/-- The result with its sentences written in another way. -/
def map {T U : Type} (write : T → U) (a : Analysis T) : Analysis U where
  time := a.time
  space := a.space
  timeExplanation := write a.timeExplanation
  spaceExplanation := write a.spaceExplanation
  report := write a.report

/-- The text that summarises a result. -/
def exportText (a : Analysis) : Text :=
  ComplexityGauge.exportText a.time.label a.space.label a.report

/-- The rating of the time label. -/
def timeRating (a : Analysis) : Rating := Rating.ofTimeLabel a.time.label

end Analysis

end ComplexityGauge
