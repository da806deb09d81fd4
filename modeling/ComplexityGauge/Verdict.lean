import ComplexityGauge.Signals

/-!
# Verdicts

The fixed decision tables from signals to complexity classes, one for time and one for space,
each with a sentence that says why. The first row that fits decides.

## Main definitions

* `TimeClass`, `SpaceClass` — the classes and their labels
* `TimeClass.ofSignals`, `SpaceClass.ofSignals` — the decision tables
* `Verdict`, `Verdict.ofSignals` — both classes with their explanations
* `Verdict.map` — a verdict whose explanations are written in another way
-/

namespace ComplexityGauge

/-- The classes of running time, from the lowest to the highest. -/
inductive TimeClass | constant | linear | quadratic | cubic | exponential
  deriving DecidableEq, Repr

/-- The classes of memory use, from the lowest to the highest. -/
inductive SpaceClass | constant | linear
  deriving DecidableEq, Repr

namespace TimeClass

/-- All classes, from the lowest to the highest. -/
def all : List TimeClass := [constant, linear, quadratic, cubic, exponential]

/-- The label of a class. -/
def label : TimeClass → Text
  | constant => "O(1)".toList
  | linear => "O(n)".toList
  | quadratic => "O(n²)".toList
  | cubic => "O(n³)".toList
  | exponential => "O(2^n)".toList

/-- The position of a class in the order of growth. -/
def rank : TimeClass → Nat
  | constant => 0
  | linear => 1
  | quadratic => 2
  | cubic => 3
  | exponential => 4

/-- The class of a nesting depth: every level is one more factor, up to three. -/
def ofDepth : Nat → TimeClass
  | 0 => constant
  | 1 => linear
  | 2 => quadratic
  | _ + 3 => cubic

/-- The time class of signals. Recursion outweighs any depth of nesting. -/
def ofSignals (s : Signals) : TimeClass :=
  if s.hasRecursion then exponential else ofDepth s.maxNestedLoops

/-- Why the time class was chosen. -/
def explanation (s : Signals) : Text :=
  match ofSignals s with
  | exponential =>
    "Exponential time - recursive calls detected (may vary based on implementation).".toList
  | cubic =>
    "Cubic time - ".toList ++ Text.ofNat s.maxNestedLoops ++ " nested loops detected.".toList
  | quadratic => "Quadratic time - 2 nested loops detected.".toList
  | linear => "Linear time - single loop detected.".toList
  | constant => "Constant time - no loops or recursion detected.".toList

end TimeClass

namespace SpaceClass

/-- All classes, from the lowest to the highest. -/
def all : List SpaceClass := [constant, linear]

/-- The label of a class. -/
def label : SpaceClass → Text
  | constant => "O(1)".toList
  | linear => "O(n)".toList

/-- The position of a class in the order of growth. -/
def rank : SpaceClass → Nat
  | constant => 0
  | linear => 1

/-- The data structure that decides the space class: a tree before a hash, a hash before an
array. -/
def deciding? (s : Signals) : Option DataStructure :=
  [DataStructure.tree, .hash, .array].find? (· ∈ s.dataStructures)

/-- The space class of signals: linear as soon as there is any data structure. -/
def ofSignals (s : Signals) : SpaceClass :=
  match deciding? s with
  | some _ => linear
  | none => constant

/-- Why the space class was chosen. -/
def explanation (s : Signals) : Text :=
  match deciding? s with
  | some .tree => "Linear space - tree/graph data structure detected.".toList
  | some .hash => "Linear space - hash map/dictionary detected.".toList
  | some .array => "Linear space - array/list detected.".toList
  | none => "Constant space - no significant data structures detected.".toList

end SpaceClass

/-- A time class and a space class, each with its explanation. The decision tables explain in texts,
but what comes from outside is first read as something wider. -/
structure Verdict (T : Type := Text) where
  time : TimeClass
  space : SpaceClass
  timeExplanation : T
  spaceExplanation : T
  deriving DecidableEq, Repr

/-- The verdict on signals. -/
def Verdict.ofSignals (s : Signals) : Verdict where
  time := .ofSignals s
  space := .ofSignals s
  timeExplanation := TimeClass.explanation s
  spaceExplanation := SpaceClass.explanation s

/-- The verdict with its explanations written in another way. -/
def Verdict.map {T U : Type} (write : T → U) (v : Verdict T) : Verdict U where
  time := v.time
  space := v.space
  timeExplanation := write v.timeExplanation
  spaceExplanation := write v.spaceExplanation

end ComplexityGauge
