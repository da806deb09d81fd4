import ComplexityGauge.Line

/-!
# Signals

The features that one pass over a source text collects: the deepest loop nesting, whether some
function seems to call itself, and the kinds of data structure mentioned. The text may be in any
language and is never parsed.

## Main definitions

* `Nesting` — the number of open loops, and the largest number so far
* `Signals` — the collected features
* `Signals.ofText` — the signals of a text
* `Signals.ofPrefixes` — the signals after each of its lines
-/

namespace ComplexityGauge

open Text

/-- The loops that are open, and the most that were open at once. -/
structure Nesting where
  depth : Nat := 0
  deepest : Nat := 0
  deriving DecidableEq, Repr

namespace Nesting

/-- The nesting after one more line. A closing line outside all loops changes nothing. -/
def step (n : Nesting) : LoopEffect → Nesting
  | .opens => ⟨n.depth + 1, max n.deepest (n.depth + 1)⟩
  | .closes => ⟨n.depth - 1, n.deepest⟩
  | .neutral => n

/-- The nesting after a sequence of lines, given what each does. -/
def ofEffects (effects : List LoopEffect) : Nesting := effects.foldl step {}

@[simp] theorem ofEffects_nil : ofEffects [] = {} := rfl

theorem ofEffects_concat (effects : List LoopEffect) (e : LoopEffect) :
    ofEffects (effects ++ [e]) = (ofEffects effects).step e := by
  simp [ofEffects]

end Nesting

/-- Features of a source text. -/
structure Signals where
  maxNestedLoops : Nat := 0
  hasRecursion : Bool := false
  dataStructures : List DataStructure := []
  deriving DecidableEq, Repr

namespace Signals

/-- The lines of a text in the form in which they are searched. -/
def normalLines (code : Text) : List Text := (lines code).map normalize

/-- The loop nesting after the whole text. -/
def nesting (code : Text) : Nesting :=
  Nesting.ofEffects ((normalLines code).map Line.loopEffect)

/-- The line defines a function whose name stands before an opening parenthesis somewhere in
`code`. The name comes from a lowercased line and the text keeps its case. -/
def callsItself (code line : Text) : Bool :=
  Line.definesFunction line &&
    match Line.functionName? line with
    | some name => occurs (name ++ ['(']) code
    | none => false

/-- The signals of a source text. -/
def ofText (code : Text) : Signals where
  maxNestedLoops := (nesting code).deepest
  hasRecursion := (normalLines code).any (callsItself code)
  dataStructures := ((normalLines code).flatMap Line.dataStructures).eraseDups

/-- The signals of the text up to the end of its first line, its second line, and so on. -/
def ofPrefixes (code : Text) : List Signals :=
  let ls := lines code
  (List.range ls.length).map fun k => ofText (unlines (ls.take (k + 1)))

end Signals

end ComplexityGauge
