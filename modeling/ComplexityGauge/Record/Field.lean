import ComplexityGauge.Json.Value
import ComplexityGauge.Number.Numeral
import ComplexityGauge.Record.Problem

/-!
# Fields and shapes

A field says how one value of a record is read from JSON and written to it, and a shape does so
for a whole record. Reading is lenient: a text may stand for an integer, an integer for a truth
value, and unknown members of an object are passed over.

## Main definitions

* `Field` — reader and writer of one value
* `Field.wideText`, `Field.natural`, `Field.flag`, `Field.word` — single values
* `Field.optional`, `Field.many` — perhaps a value, and an array of values
* `Shape`, `Shape.field` — reader and writer of a record, and the record as a field of another
* `required`, `withDefault` — the members of an object, absent ones refused or filled in
-/

namespace ComplexityGauge

open Text

/-- How one value is read and written. -/
structure Field (α : Type) where
  read : Json → Validated α
  write : α → Json

namespace Field

variable {α : Type}

/-- A text, in which halves of surrogate pairs may stand alone. -/
def wideText : Field WideText where
  read
    | .text t => .valid (.ofText t)
    | .brokenText t => .valid t
    | _ => .refuse .notText
  write := .ofWide

/-- A value, or the null value for none. -/
def optional (f : Field α) : Field (Option α) where
  read
    | .null => .valid none
    | j => (f.read j).map some
  write
    | none => .null
    | some a => f.write a

/-- The integer that a text writes. -/
def integerOfText (t : Text) : Validated Int :=
  match Numeral.integer t with
  | .ok n => .valid n
  | .error .unreadable => .refuse .unreadableInteger
  | .error .oversized => .refuse .oversizedInteger

/-- Two to the power of 63, the limit for whole numbers that come as doubles. -/
def wordLimit : Int := 9223372036854775808

/-- The integer that a double equals. -/
def integerOfReal (x : Binary64) : Validated Int :=
  match x.toInt? with
  | some n =>
    if -wordLimit < n && n < wordLimit then .valid n else .refuse .oversizedInteger
  | none => .refuse (if x.isFinite then .fractionalInteger else .notFinite)

/-- The integer that a value stands for: truth values are one and zero. -/
def readInteger : Json → Validated Int
  | .bool b => .valid (if b then 1 else 0)
  | .int n => .valid n
  | .real x => integerOfReal x
  | .text t => integerOfText t
  | .brokenText _ => .refuse .brokenText
  | _ => .refuse .notInteger

/-- The number of an integer that is not negative. -/
def naturalOfInteger : Int → Validated Nat
  | .ofNat n => .valid n
  | .negSucc _ => .refuse .negative

/-- An integer from zero on. -/
def natural : Field Nat where
  read j := (readInteger j).andThen naturalOfInteger
  write n := .int n

/-- The words that stand for no. -/
def falseWords : List Text :=
  ["0".toList, "off".toList, "f".toList, "false".toList, "n".toList, "no".toList]

/-- The words that stand for yes. -/
def trueWords : List Text :=
  ["1".toList, "on".toList, "t".toList, "true".toList, "y".toList, "yes".toList]

/-- The truth value that a word stands for in any letter case. -/
def flagOfText (t : Text) : Validated Bool :=
  let word := t.map lowerAscii
  if falseWords.contains word then .valid false
  else if trueWords.contains word then .valid true
  else .refuse .unreadableFlag

/-- The truth value that zero or one stands for. -/
def flagOfInteger (n : Int) : Validated Bool :=
  if n = 0 then .valid false else if n = 1 then .valid true else .refuse .unreadableFlag

/-- A truth value, also as zero or one or as a word. -/
def flag : Field Bool where
  read
    | .bool b => .valid b
    | .int n => if -wordLimit ≤ n && n < wordLimit then flagOfInteger n else .refuse .notFlag
    | .real x => match integerOfReal x with
      | .valid n => flagOfInteger n
      | .invalid _ _ => .refuse .notFlag
    | .text t => flagOfText t
    | .brokenText _ => .refuse .brokenText
    | _ => .refuse .notFlag
  write := .bool

/-- The value of that name, if it is one of the values listed. -/
def named? (values : List α) (name : α → Text) (t : Text) : Option α :=
  values.find? fun v => name v = t

/-- One of the values listed, given by its exact name; anything else is refused for `cause`. -/
def word (values : List α) (name : α → Text) (cause : List Text → Cause) : Field α where
  read
    | .text t => match named? values name t with
      | some v => .valid v
      | none => .refuse (cause (values.map name))
    | .brokenText _ => .refuse .brokenText
    | _ => .refuse (cause (values.map name))
  write v := .text (name v)

/-- An array of values of one kind. -/
def many (f : Field α) : Field (List α) where
  read
    | .array items =>
      .sequence ((items.zipIdx).map fun item => (f.read item.1).within (.index item.2))
    | _ => .refuse .notArray
  write values := .array (values.map f.write)

end Field

/-- How a record is read from the members of an object, and how it is written. -/
structure Shape (α : Type) where
  name : Text
  read : List (Text × Json) → Validated α
  write : α → List (Text × Json)

namespace Shape

variable {α : Type}

/-- The record that a value stands for. -/
def ofJson (s : Shape α) : Json → Validated α
  | .object members => s.read members
  | _ => .refuse (.notRecord s.name)

/-- The record as a value. -/
def toJson (s : Shape α) (a : α) : Json := .object (s.write a)

/-- The record as a field of another record. -/
def field (s : Shape α) : Field α := ⟨s.ofJson, s.toJson⟩

end Shape

variable {α : Type}

/-- A member that must be there. -/
def required (members : List (Text × Json)) (name : Text) (f : Field α) : Validated α :=
  match Json.member? name members with
  | some j => (f.read j).within (.field name)
  | none => .invalid ⟨[.field name], .missing⟩ []

/-- A member that has a default. -/
def withDefault (members : List (Text × Json)) (name : Text) (f : Field α) (default : α) :
    Validated α :=
  match Json.member? name members with
  | some j => (f.read j).within (.field name)
  | none => .valid default

end ComplexityGauge
