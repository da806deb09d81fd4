import ComplexityGauge.Text.Lowercase

/-!
# Line patterns

What one line of source text shows. All patterns are plain searches, so a keyword counts inside
a longer word as well: `format` opens a loop and `append` closes a block.

## Main definitions

* `Line.opensLoop`, `Line.closesBlock` — the two loop patterns
* `LoopEffect` — what a line does to the loop nesting
* `Line.definesFunction`, `Line.functionName?` — a definition, and the name it introduces
* `DataStructure`, `Line.dataStructures` — the kinds of data structure that a line mentions
-/

namespace ComplexityGauge

open Text

/-- The kinds of data structure that are told apart. -/
inductive DataStructure | array | hash | tree
  deriving DecidableEq, Repr

namespace DataStructure

/-- All kinds, in the order in which one line reports them. -/
def all : List DataStructure := [array, hash, tree]

/-- The name of a kind. -/
def name : DataStructure → Text
  | array => "array".toList
  | hash => "hash".toList
  | tree => "tree".toList

/-- The words that show a data structure of this kind. -/
def keywords : DataStructure → List Text
  | array => ["array".toList, "list".toList, "[]".toList]
  | hash => ["hash".toList, "map".toList, "dict".toList, "object".toList]
  | tree => ["tree".toList, "node".toList, "graph".toList]

end DataStructure

/-- What a line does to the number of open loops. -/
inductive LoopEffect | opens | closes | neutral
  deriving DecidableEq, Repr

namespace Line

/-- The words that open a loop wherever they stand. -/
def loopKeywords : List Text := ["for".toList, "while".toList]

/-- The texts that close a block wherever they stand. -/
def blockEnds : List Text := ["\x7d".toList, "end".toList]

/-- The words that announce a function, the longest first. -/
def functionKeywords : List Text := ["function".toList, "def".toList, "func".toList]

/-- The text starts with `do`, any blanks and an opening brace. -/
def startsDoBlock (t : Text) : Bool :=
  match after? "do".toList t with
  | some rest => (rest.dropWhile isBlank).head? == some '{'
  | none => false

/-- The text holds an opening parenthesis and, behind it, a closing one. -/
def holdsGroup (t : Text) : Bool := (t.dropWhile (· ≠ '(')).contains ')'

/-- The line opens a loop: it holds a loop keyword or the start of a `do` block. -/
def opensLoop (line : Text) : Bool :=
  loopKeywords.any (occurs · line) || anySuffix startsDoBlock line

/-- The line holds a closing brace or `end`. -/
def closesBlock (line : Text) : Bool := blockEnds.any (occurs · line)

/-- A line that opens a loop never closes one too. -/
def loopEffect (line : Text) : LoopEffect :=
  if opensLoop line then .opens else if closesBlock line then .closes else .neutral

/-- The line holds a function keyword and, anywhere, a pair of parentheses between which no line
feed stands. -/
def definesFunction (line : Text) : Bool :=
  functionKeywords.any (occurs · line) && (lines line).any holdsGroup

/-- The characters of a function's name: ASCII letters and digits, and the underscore. -/
def isNameChar (c : Char) : Bool :=
  isDigit c || ('a' ≤ c && c ≤ 'z') || ('A' ≤ c && c ≤ 'Z') || c == '_'

/-- The name at the start of the text after at least one blank. -/
def nameAfterBlanks? (t : Text) : Option Text :=
  match t.takeWhile isBlank, (t.dropWhile isBlank).takeWhile isNameChar with
  | [], _ => none
  | _, [] => none
  | _, name => some name

/-- The name that a function keyword at the start of the text introduces. -/
def startingName? (t : Text) : Option Text :=
  functionKeywords.findSome? fun keyword => (after? keyword t).bind nameAfterBlanks?

/-- The name after the leftmost function keyword that is followed by one. -/
def functionName? (line : Text) : Option Text := firstSuffix? startingName? line

/-- The kinds of data structure that the line mentions. -/
def dataStructures (line : Text) : List DataStructure :=
  DataStructure.all.filter fun kind => kind.keywords.any (occurs · line)

end Line

end ComplexityGauge
