import ComplexityGauge.Analysis
import ComplexityGauge.Record.Field

/-!
# Records of results

The shapes of signals, verdicts and analyses, the records in which results are handed on.

## Main definitions

* `Signals.shape`, `Verdict.shape`, `Analysis.shape` — the records
* `Analysis.summary` — the summary of a result that was handed on
-/

namespace ComplexityGauge

/-- The field that holds a kind of data structure. -/
def DataStructure.field : Field DataStructure := .word all name .notListed

/-- The field that holds a time label. -/
def TimeClass.field : Field TimeClass := .word all label .notListed

/-- The field that holds a space label. -/
def SpaceClass.field : Field SpaceClass := .word all label .notListed

/-- Signals as a record. Repeated kinds of data structure are kept. -/
def Signals.shape : Shape Signals where
  name := "Signals".toList
  read members := Signals.mk
    <$> withDefault members "max_nested_loops".toList .natural 0
    <*> withDefault members "has_recursion".toList .flag false
    <*> withDefault members "data_structures".toList DataStructure.field.many []
  write s :=
    [("max_nested_loops".toList, Field.natural.write s.maxNestedLoops),
      ("has_recursion".toList, Field.flag.write s.hasRecursion),
      ("data_structures".toList, DataStructure.field.many.write s.dataStructures)]

/-- A verdict as a record. Its explanations may be any texts, even with halves of surrogate pairs in
them. -/
def Verdict.shape : Shape (Verdict WideText) where
  name := "ComplexityVerdict".toList
  read members := Verdict.mk
    <$> required members "time_complexity".toList TimeClass.field
    <*> required members "space_complexity".toList SpaceClass.field
    <*> required members "time_explanation".toList .wideText
    <*> required members "space_explanation".toList .wideText
  write v :=
    [("time_complexity".toList, TimeClass.field.write v.time),
      ("space_complexity".toList, SpaceClass.field.write v.space),
      ("time_explanation".toList, Field.wideText.write v.timeExplanation),
      ("space_explanation".toList, Field.wideText.write v.spaceExplanation)]

/-- An analysis as a record. Its explanations and its report may be any texts, too. -/
def Analysis.shape : Shape (Analysis WideText) where
  name := "ComplexityResult".toList
  read members := Analysis.mk
    <$> required members "timeComplexity".toList TimeClass.field
    <*> required members "spaceComplexity".toList SpaceClass.field
    <*> required members "timeExplanation".toList .wideText
    <*> required members "spaceExplanation".toList .wideText
    <*> required members "detailedReport".toList .wideText
  write a :=
    [("timeComplexity".toList, TimeClass.field.write a.time),
      ("spaceComplexity".toList, SpaceClass.field.write a.space),
      ("timeExplanation".toList, Field.wideText.write a.timeExplanation),
      ("spaceExplanation".toList, Field.wideText.write a.spaceExplanation),
      ("detailedReport".toList, Field.wideText.write a.report)]

/-- The summary of a result that was handed on. -/
def Analysis.summary (a : Analysis WideText) : WideText :=
  ComplexityGauge.summary WideText.ofText (WideText.ofText a.time.label)
    (WideText.ofText a.space.label) a.report

end ComplexityGauge
