import ComplexityGauge.Language
import ComplexityGauge.Verdict

/-!
# Log lines

What the program reports about its own running. An entry says what happened and is put into words
only when it is written; entries below the level asked for are dropped.

## Main definitions

* `LogLevel`, `LogSource` — how important an entry is and which part of the program speaks
* `LogEntry` — an entry with its message
* `LogEntry.line`, `LogEntry.kept` — an entry as a line, and whether a level keeps it
-/

namespace ComplexityGauge

open Text

/-- How important a log entry is. -/
inductive LogLevel | debug | info | warning | error
  deriving DecidableEq, Repr

namespace LogLevel

/-- All levels, the least important first. -/
def all : List LogLevel := [debug, info, warning, error]

/-- The name of a level. -/
def name : LogLevel → Text
  | debug => "DEBUG".toList
  | info => "INFO".toList
  | warning => "WARNING".toList
  | error => "ERROR".toList

/-- The position of a level in the order of importance. -/
def rank : LogLevel → Nat
  | debug => 0
  | info => 1
  | warning => 2
  | error => 3

end LogLevel

/-- The part of the program that speaks. -/
inductive LogSource | service | scan | analyzer
  deriving DecidableEq, Repr

/-- The name under which a part of the program speaks. -/
def LogSource.name : LogSource → Text
  | .service => "complexity-analyzer".toList
  | .scan => "core.signals".toList
  | .analyzer => "core.analyzer".toList

/-- One thing to report. -/
structure LogEntry where
  level : LogLevel
  source : LogSource
  message : Text
  deriving DecidableEq, Repr

namespace LogEntry

/-- The entry as one line. -/
def line (e : LogEntry) : Text :=
  e.level.name ++ [' '] ++ e.source.name ++ ": ".toList ++ e.message

/-- The entry is at or above the level. -/
def kept (threshold : LogLevel) (e : LogEntry) : Bool := threshold.rank ≤ e.level.rank

/-- An entry of the service at level `info`. -/
def info (message : Text) : LogEntry := ⟨.info, .service, message⟩

/-- The kinds of data structure as a list of quoted names. -/
def quotedKinds (kinds : List DataStructure) : Text :=
  ['['] ++ ", ".toList.intercalate (kinds.map fun k => ['\''] ++ k.name ++ ['\'']) ++ [']']

/-- A text has been scanned. -/
def scanned (language : Language) (s : Signals) : LogEntry where
  level := .debug
  source := .scan
  message := "Extracted signals (language=".toList ++ language.name ++ "): loops=".toList ++
    ofNat s.maxNestedLoops ++ " recursion=".toList ++
    (if s.hasRecursion then "True".toList else "False".toList) ++ " structures=".toList ++
    quotedKinds s.dataStructures

/-- The label of each class, as log lines show them. -/
def classes (time : TimeClass) (space : SpaceClass) : Text :=
  "time=".toList ++ time.label ++ " space=".toList ++ space.label

/-- A text has been analysed. -/
def analyzed (size : Nat) (language : Language) (time : TimeClass) (space : SpaceClass) :
    LogEntry where
  level := .debug
  source := .analyzer
  message := "Analyzed ".toList ++ ofNat size ++ " chars (language=".toList ++ language.name ++
    "): ".toList ++ classes time space

end LogEntry

end ComplexityGauge
