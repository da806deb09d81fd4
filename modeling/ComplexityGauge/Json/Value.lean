import ComplexityGauge.Number.Decimal
import ComplexityGauge.Text.Wide

/-!
# JSON values

Values of the JSON data format. Integers are exact and unbounded, other numbers are doubles, and
the members of an object keep their order. A text in which half of a surrogate pair stands alone
is a value of its own kind.

## Main definitions

* `Json` — the values
* `Json.ofWide` — a wide text as a value
* `Json.member?` — the member of an object under a name, the last one if there are several
* `Json.render` — the text of a value
-/

namespace ComplexityGauge

/-- A JSON value. -/
inductive Json
  | null
  | bool (value : Bool)
  | int (value : Int)
  | real (value : Binary64)
  | text (value : Text)
  | brokenText (value : WideText)
  | array (items : List Json)
  | object (members : List (Text × Json))

namespace Json

/-- A wide text as a value: a text, unless some half of a surrogate pair stands alone. -/
def ofWide (t : WideText) : Json :=
  if t.any Symbol.isHalf then brokenText t else text t.shown

/-- The member of that name; of several members the last one counts. -/
def member? (name : Text) (members : List (Text × Json)) : Option Json :=
  (members.reverse.find? fun m => m.1 == name).map Prod.snd

/-- A hexadecimal digit. -/
def hexDigit (n : Nat) : Char := Char.ofNat (if n < 10 then 48 + n else 87 + n)

/-- A character inside a quoted text. -/
def renderChar (c : Char) : Text :=
  if c = '"' then ['\\', '"']
  else if c = '\\' then ['\\', '\\']
  else if c = '\n' then ['\\', 'n']
  else if c.toNat < 32 || c.toNat = 127 then
    "\\u00".toList ++ [hexDigit (c.toNat / 16), hexDigit (c.toNat % 16)]
  else [c]

/-- A text in quotes. -/
def renderText (t : Text) : Text := ['"'] ++ t.flatMap renderChar ++ ['"']

/-- A symbol inside a quoted text. Halves of surrogate pairs are written by their numbers. -/
def renderSymbol : Symbol → Text
  | .char c => renderChar c
  | s => "\\u".toList ++ Nat.toDigits 16 s.code

/-- A wide text in quotes. -/
def renderWide (t : WideText) : Text := ['"'] ++ t.flatMap renderSymbol ++ ['"']

/-- The words for the numbers that are not finite. -/
def renderReal (x : Binary64) : Text :=
  match x with
  | .nan => "NaN".toList
  | .infinite negative => Binary64.signText negative ++ "Infinity".toList
  | x => x.text

mutual

/-- The text of a value, without blanks. -/
def render : Json → Text
  | null => "null".toList
  | bool b => (if b then "true" else "false").toList
  | int n => Text.ofInt n
  | real x => renderReal x
  | text t => renderText t
  | brokenText t => renderWide t
  | array items => ['['] ++ renderItems items ++ [']']
  | object members => ['\x7b'] ++ renderMembers members ++ ['\x7d']

/-- The items of an array with commas between them. -/
def renderItems : List Json → Text
  | [] => []
  | [j] => render j
  | j :: rest => render j ++ [','] ++ renderItems rest

/-- The members of an object with commas between them. -/
def renderMembers : List (Text × Json) → Text
  | [] => []
  | [(name, j)] => renderText name ++ [':'] ++ render j
  | (name, j) :: rest => renderText name ++ [':'] ++ render j ++ [','] ++ renderMembers rest

end

end Json

end ComplexityGauge
