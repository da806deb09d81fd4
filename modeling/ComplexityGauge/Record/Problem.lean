import ComplexityGauge.Text.Basic

/-!
# Problems

Why a value was refused. A problem names the place inside the value and the cause; its kind and
its message follow from the cause. A record with several faults is refused with all of them.

## Main definitions

* `Place`, `Cause`, `Problem` — where a value is at fault, and why
* `Cause.kind`, `Cause.message` — the cause as a short name and as a sentence
* `Validated` — a value, or at least one problem
-/

namespace ComplexityGauge

open Text

/-- One step from a value to a part of it, or an offset in an unreadable text. -/
inductive Place
  | field (name : Text)
  | index (n : Nat)
  deriving DecidableEq, Repr

/-- Why a value is refused. -/
inductive Cause
  /-- A field that must be given is absent. -/
  | missing
  /-- Only a text is accepted. -/
  | notText
  /-- A text in which half of a surrogate pair stands alone. -/
  | brokenText
  /-- Nothing of this type can be taken as an integer. -/
  | notInteger
  /-- A text that writes no integer. -/
  | unreadableInteger
  /-- An integer beyond the limit for integers that come as texts or as doubles. -/
  | oversizedInteger
  /-- A number with a fraction in the place of an integer. -/
  | fractionalInteger
  /-- An infinite number or NaN in the place of an integer. -/
  | notFinite
  /-- A number below zero. -/
  | negative
  /-- Nothing of this type can be taken as a truth value. -/
  | notFlag
  /-- A text or an integer that stands for no truth value. -/
  | unreadableFlag
  /-- A text that writes no number. -/
  | unreadableNumber
  /-- The value is none of the words allowed. -/
  | notListed (words : List Text)
  /-- The value is none of the names of a state. -/
  | notState (names : List Text)
  /-- Only an array is accepted. -/
  | notArray
  /-- Only an object is accepted, for a record of this name. -/
  | notRecord (name : Text)
  /-- The body of a request is no object. -/
  | notBodyObject
  /-- The body of a request is no JSON. -/
  | malformedBody
  /-- A source text without any character that is not blank. -/
  | emptyCode
  /-- A source text with more characters than allowed. -/
  | oversizedCode (limit : Int)
  deriving DecidableEq, Repr

/-- Words in quotes, with commas between them and `or` before the last one. -/
def quotedAlternatives : List Text → Text
  | [] => []
  | [w] => ['\''] ++ w ++ ['\'']
  | [v, w] => ['\''] ++ v ++ "' or '".toList ++ w ++ ['\'']
  | v :: rest => ['\''] ++ v ++ "', ".toList ++ quotedAlternatives rest

namespace Cause

/-- The short name of a cause. -/
def kind : Cause → Text
  | missing => "missing".toList
  | notText => "string_type".toList
  | brokenText => "string_unicode".toList
  | notInteger => "int_type".toList
  | unreadableInteger => "int_parsing".toList
  | oversizedInteger => "int_parsing_size".toList
  | fractionalInteger => "int_from_float".toList
  | notFinite => "finite_number".toList
  | negative => "greater_than_equal".toList
  | notFlag => "bool_type".toList
  | unreadableFlag => "bool_parsing".toList
  | unreadableNumber => "float_parsing".toList
  | notListed _ => "literal_error".toList
  | notState _ => "enum".toList
  | notArray => "tuple_type".toList
  | notRecord _ => "model_type".toList
  | notBodyObject => "model_attributes_type".toList
  | malformedBody => "json_invalid".toList
  | emptyCode => "value_error".toList
  | oversizedCode _ => "value_error".toList

/-- The sentence for a cause that a person reads. -/
def message : Cause → Text
  | missing => "Field required".toList
  | notText => "Input should be a valid string".toList
  | brokenText =>
    "Input should be a valid string, unable to parse raw data as a unicode string".toList
  | notInteger => "Input should be a valid integer".toList
  | unreadableInteger =>
    "Input should be a valid integer, unable to parse string as an integer".toList
  | oversizedInteger =>
    "Unable to parse input string as an integer, exceeded maximum size".toList
  | fractionalInteger =>
    "Input should be a valid integer, got a number with a fractional part".toList
  | notFinite => "Input should be a finite number".toList
  | negative => "Input should be greater than or equal to 0".toList
  | notFlag => "Input should be a valid boolean".toList
  | unreadableFlag => "Input should be a valid boolean, unable to interpret input".toList
  | unreadableNumber =>
    "Input should be a valid number, unable to parse string as a number".toList
  | notListed words => "Input should be ".toList ++ quotedAlternatives words
  | notState names => "Input should be ".toList ++ quotedAlternatives names
  | notArray => "Input should be a valid tuple".toList
  | notRecord name => "Input should be a valid dictionary or instance of ".toList ++ name
  | notBodyObject =>
    "Input should be a valid dictionary or object to extract fields from".toList
  | malformedBody => "JSON decode error".toList
  | emptyCode => "Please enter some code to analyze.".toList
  | oversizedCode limit => "Code exceeds ".toList ++ ofInt limit ++ " characters".toList

/-- The cause lies in a rule of this program and not in the type of a value. -/
def isRule : Cause → Bool
  | emptyCode | oversizedCode _ => true
  | _ => false

/-- The message with the mark that broken rules carry in a full list of problems. -/
def fullMessage (c : Cause) : Text :=
  if c.isRule then "Value error, ".toList ++ c.message else c.message

end Cause

/-- A place in a value and the cause for which the value is refused there. -/
structure Problem where
  path : List Place
  cause : Cause
  deriving DecidableEq, Repr

/-- A value that passed all checks, or the problems that were found, which are at least one. -/
inductive Validated (α : Type)
  | valid (value : α)
  | invalid (first : Problem) (more : List Problem)

namespace Validated

variable {α β : Type}

/-- A value refused for one cause, found in the value itself. -/
def refuse (c : Cause) : Validated α := invalid ⟨[], c⟩ []

/-- The problems found. -/
def problems : Validated α → List Problem
  | valid _ => []
  | invalid first more => first :: more

/-- The value changed by a function. -/
def map (f : α → β) : Validated α → Validated β
  | valid a => valid (f a)
  | invalid first more => invalid first more

/-- Two results joined; the problems of the second follow those of the first. -/
def and : Validated α → Validated β → Validated (α × β)
  | valid a, valid b => valid (a, b)
  | valid _, invalid first more => invalid first more
  | invalid first more, valid _ => invalid first more
  | invalid first more, invalid first' more' => invalid first (more ++ first' :: more')

/-- A check that needs the value of an earlier one. -/
def andThen (f : α → Validated β) : Validated α → Validated β
  | valid a => f a
  | invalid first more => invalid first more

/-- The result seen from one step further out. -/
def within (place : Place) : Validated α → Validated α
  | valid a => valid a
  | invalid first more =>
    let outer (p : Problem) : Problem := { p with path := place :: p.path }
    invalid (outer first) (more.map outer)

/-- All results joined in order. -/
def sequence : List (Validated α) → Validated (List α)
  | [] => valid []
  | v :: rest => (v.and (sequence rest)).map fun p => p.1 :: p.2

instance : Functor Validated where
  map := map

instance : Applicative Validated where
  pure := valid
  seq f a := ((f.and (a ())).map fun p => p.1 p.2)

end Validated

end ComplexityGauge
