import ComplexityGauge.Signals

/-!
# Reports

The text that lists the signals of a source text for a reader, and the short text that a reader
copies elsewhere. Neither is read back by the program.

## Main definitions

* `Signals.report` — a heading, one bullet for each signal, and a closing note
* `exportText` — the two labels followed by a report
* `summary` — the same over any kind of symbols
-/

namespace ComplexityGauge

open Text

namespace Report

/-- The first line of a report. -/
def heading : Text := "Analysis Details:".toList

/-- The last line of a report. -/
def note : Text :=
  ("Note: This is an automated analysis. " ++
    "For complex algorithms, manual review is recommended.").toList

/-- The bullet on loops, absent where there is none. -/
def loopsBullet (levels : Nat) : Text :=
  if levels = 0 then []
  else "• Found ".toList ++ ofNat levels ++ " level".toList ++ (if 1 < levels then ['s'] else []) ++
    " of nested loops\n".toList

/-- The bullet on recursion, absent where there is none. -/
def recursionBullet (present : Bool) : Text :=
  if present then "• Recursive function calls detected\n".toList else []

/-- The bullet on data structures, absent where there is none. -/
def structuresBullet (kinds : List DataStructure) : Text :=
  if kinds.isEmpty then []
  else "• Data structures used: ".toList ++
    ", ".toList.intercalate (kinds.map DataStructure.name) ++ ['\n']

end Report

open Report in
/-- The report on signals. -/
def Signals.report (s : Signals) : Text :=
  heading ++ "\n\n".toList ++ loopsBullet s.maxNestedLoops ++ recursionBullet s.hasRecursion ++
    structuresBullet s.dataStructures ++ ['\n'] ++ note

/-- The summary of a result: its two labels, a blank line and its report. `literal` writes the
words between them in the symbols of the summary. -/
def summary {α : Type} (literal : Text → List α) (timeLabel spaceLabel report : List α) : List α :=
  literal "Time Complexity: ".toList ++ timeLabel ++
    literal "\nSpace Complexity: ".toList ++ spaceLabel ++ literal "\n\n".toList ++ report

/-- The text that summarises a result. -/
def exportText (timeLabel spaceLabel report : Text) : Text :=
  summary id timeLabel spaceLabel report

end ComplexityGauge
