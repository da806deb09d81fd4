import ComplexityGauge.Analysis
import ComplexityGauge.Log

/-!
# Analyzers

An analyzer fixes the language that is noted where a caller gives no hint. It keeps nothing else,
so its calls do not influence each other.

## Main definitions

* `Analyzer`, `Analyzer.ofHint?` — an analyzer with its default language
* `Analyzer.entries` — what one call reports
* `Analyzer.call` — the result for a text together with those entries
-/

namespace ComplexityGauge

/-- An analyzer with its default language. -/
structure Analyzer where
  defaultLanguage : Language := .auto
  deriving DecidableEq, Repr

namespace Analyzer

/-- The analyzer whose default language is named by a hint. -/
def ofHint? (hint : Option Text) : Analyzer := ⟨Language.ofHint? hint⟩

/-- The language of a call. Only a missing or empty hint stands for the default. -/
def languageFor (a : Analyzer) : Option Text → Language
  | none | some [] => a.defaultLanguage
  | some hint => Language.ofHint hint

/-- What a call reports. -/
def entries (a : Analyzer) (code : Text) (hint : Option Text) : List LogEntry :=
  let language := a.languageFor hint
  let s := Signals.ofText code
  let v := Verdict.ofSignals s
  [.scanned language s, .analyzed code.length language v.time v.space]

/-- The result for a text, which the hint does not influence, and what the call reports. -/
def call (a : Analyzer) (code : Text) (hint : Option Text) : Analysis × List LogEntry :=
  (Analysis.ofText code, a.entries code hint)

end Analyzer

end ComplexityGauge
