import ComplexityGauge.Json.Value

/-!
# JSON as it is written

A value can be written in many ways: with blanks between its parts, with escapes in its texts, with
an exponent in its numbers. A source is one of these ways, a tree that follows the grammar, with the
text that it writes and the value that it stands for. Besides the grammar of JSON the words `NaN`,
`Infinity` and `-Infinity` are admitted. A source may be of any size; how large it is, two measures
tell.

## Main definitions

* `Json.Number`, `Json.Piece`, `Json.Word` — numbers, parts of texts, and words
* `Json.Source`, `Json.Items`, `Json.Members` — values, items of arrays, and members of objects
* `Json.Document` — a value with blanks around it
* `text`, `value` — what each of them writes, and what it stands for
* `depth`, `longestInteger` — how deep its values are nested, and how many digits its integers have
-/

namespace ComplexityGauge.Json

open Text

/-- Any number of the four blanks of JSON. -/
structure Blanks where
  text : Text
  blank_of_mem : ∀ c ∈ text, c ∈ [' ', '\t', '\n', '\r']

/-- The symbols of blanks. -/
def Blanks.symbols (b : Blanks) : WideText := .ofText b.text

/-! ### Numbers -/

/-- At least one digit. -/
structure Digits where
  text : Text
  ne_nil : text ≠ []
  isDigit_of_mem : ∀ c ∈ text, isDigit c = true

/-- The sign of an exponent, which may be left out. -/
inductive Sign | absent | plus | minus
  deriving DecidableEq, Repr

/-- The characters of a sign. -/
def Sign.text : Sign → Text
  | absent => []
  | plus => ['+']
  | minus => ['-']

/-- A power of ten behind a number. -/
structure Exponent where
  capital : Bool
  sign : Sign
  digits : Digits

namespace Exponent

/-- The characters of an exponent. -/
def text (e : Exponent) : Text :=
  (if e.capital then 'E' else 'e') :: (e.sign.text ++ e.digits.text)

/-- The power of ten. -/
def value (e : Exponent) : Int :=
  if e.sign = .minus then -digitsValue e.digits.text else digitsValue e.digits.text

end Exponent

/-- A number. Its whole part starts with a zero only if it is zero. -/
structure Number where
  negative : Bool
  whole : Digits
  eq_zero_of_head : whole.text.head? = some '0' → whole.text = ['0']
  fraction : Option Digits
  exponent : Option Exponent

namespace Number

/-- The digits behind the point, if there are any. -/
def fractionDigits (n : Number) : Text :=
  match n.fraction with
  | some digits => digits.text
  | none => []

/-- The point and the digits behind it, if there are any. -/
def fractionText (n : Number) : Text :=
  match n.fraction with
  | some digits => '.' :: digits.text
  | none => []

/-- The exponent, if there is one. -/
def exponentText (n : Number) : Text :=
  match n.exponent with
  | some exponent => exponent.text
  | none => []

/-- The characters of a number. -/
def text (n : Number) : Text :=
  (if n.negative then ['-'] else []) ++ (n.whole.text ++ (n.fractionText ++ n.exponentText))

/-- The double that the digits and an exponent come to. -/
def double (n : Number) (exponent : Int) : Json :=
  .real (.ofDecimal n.negative (digitsValue (n.whole.text ++ n.fractionDigits))
    (exponent - n.fractionDigits.length))

/-- The integer that the whole part comes to. -/
def integer (n : Number) : Json :=
  .int (if n.negative then -digitsValue n.whole.text else digitsValue n.whole.text)

/-- The value of a number. With neither a fraction nor an exponent it is an integer. -/
def value (n : Number) : Json :=
  match n.exponent, n.fraction with
  | some exponent, _ => n.double exponent.value
  | none, some _ => n.double 0
  | none, none => n.integer

/-- The number of digits, if the number is an integer. -/
def longestInteger (n : Number) : Nat :=
  match n.exponent, n.fraction with
  | none, none => n.whole.text.length
  | _, _ => 0

end Number

/-! ### Texts -/

/-- The characters that an escape of one letter can write. -/
inductive Escape
  | quote | backslash | slash | backspace | formFeed | lineFeed | carriageReturn | tab
  deriving DecidableEq, Repr

namespace Escape

/-- The letter behind the backslash. -/
def letter : Escape → Char
  | quote => '"'
  | backslash => '\\'
  | slash => '/'
  | backspace => 'b'
  | formFeed => 'f'
  | lineFeed => 'n'
  | carriageReturn => 'r'
  | tab => 't'

/-- The character that is written. -/
def char : Escape → Char
  | quote => '"'
  | backslash => '\\'
  | slash => '/'
  | backspace => '\x08'
  | formFeed => '\x0c'
  | lineFeed => '\n'
  | carriageReturn => '\r'
  | tab => '\t'

end Escape

/-- A hexadecimal digit of either case with its value. -/
structure HexDigit where
  char : Char
  value : Nat
  value_eq : hexValue? char = some value

/-- Four hexadecimal digits. -/
structure CodeUnit where
  first : HexDigit
  second : HexDigit
  third : HexDigit
  fourth : HexDigit

namespace CodeUnit

/-- The four digits. -/
def symbols (u : CodeUnit) : WideText :=
  [.char u.first.char, .char u.second.char, .char u.third.char, .char u.fourth.char]

/-- The number that the digits write. -/
def value (u : CodeUnit) : Nat :=
  ((u.first.value * 16 + u.second.value) * 16 + u.third.value) * 16 + u.fourth.value

end CodeUnit

/-- The symbol may stand for itself in a text: it is no quote, no backslash, and no control
character. -/
def IsPlainSymbol (s : Symbol) : Prop :=
  s ≠ .char '"' ∧ s ≠ .char '\\' ∧ ∀ c, s = .char c → 32 ≤ c.toNat

/-- A part of a quoted text. -/
inductive Piece
  | plain (s : Symbol) (isPlain : IsPlainSymbol s)
  | escape (e : Escape)
  | unit (u : CodeUnit)

namespace Piece

/-- The symbols of a part. -/
def text : Piece → WideText
  | plain s _ => [s]
  | escape e => [.char '\\', .char e.letter]
  | unit u => .char '\\' :: .char 'u' :: u.symbols

/-- The symbol that a part stands for on its own. -/
def symbol : Piece → Symbol
  | plain s _ => s
  | escape e => .char e.char
  | unit u => .ofCode u.value

/-- The symbols that parts stand for. Two code units side by side write one character together if
they are the halves of a surrogate pair. -/
def symbols : List Piece → WideText
  | [] => []
  | unit high :: unit low :: rest =>
    match Symbol.joined? high.value low.value with
    | some c => .char c :: symbols rest
    | none => .ofCode high.value :: symbols (unit low :: rest)
  | p :: rest => p.symbol :: symbols rest

/-- A text in quotes. -/
def quoted (pieces : List Piece) : WideText :=
  .char '"' :: (pieces.flatMap text ++ [.char '"'])

end Piece

/-! ### Values -/

/-- The words that are values. -/
inductive Word | null | true | false | nan | infinity | minusInfinity
  deriving DecidableEq, Repr

namespace Word

/-- The characters of a word. -/
def text : Word → Text
  | null => "null".toList
  | true => "true".toList
  | false => "false".toList
  | nan => "NaN".toList
  | infinity => "Infinity".toList
  | minusInfinity => "-Infinity".toList

/-- The value of a word. -/
def value : Word → Json
  | null => .null
  | true => .bool Bool.true
  | false => .bool Bool.false
  | nan => .real .nan
  | infinity => .real (.infinite Bool.false)
  | minusInfinity => .real (.infinite Bool.true)

/-- A word for a double counts as a level of its own. -/
def depth : Word → Nat
  | null | true | false => 0
  | nan | infinity | minusInfinity => 1

end Word

mutual

/-- A value as it is written. -/
inductive Source
  | word (w : Word)
  | number (n : Number)
  | text (pieces : List Piece)
  | emptyArray (inside : Blanks)
  | array (before : Blanks) (items : Items)
  | emptyObject (inside : Blanks)
  | object (before : Blanks) (members : Members)

/-- The items of an array, at least one, with the blanks around the commas between them. -/
inductive Items
  | last (item : Source) (after : Blanks)
  | more (item : Source) (after before : Blanks) (rest : Items)

/-- The members of an object, at least one, with the blanks around colons and commas. -/
inductive Members
  | last (name : List Piece) (afterName before : Blanks) (value : Source) (after : Blanks)
  | more (name : List Piece) (afterName before : Blanks) (value : Source) (after next : Blanks)
    (rest : Members)

end

/-- A name, a colon and a value, the value given by its symbols. -/
def memberText (name : List Piece) (afterName before : Blanks) (value : WideText) : WideText :=
  Piece.quoted name ++ (afterName.symbols ++ (.char ':' :: (before.symbols ++ value)))

mutual

/-- The symbols of a value. -/
def Source.symbols : Source → WideText
  | .word w => .ofText w.text
  | .number n => .ofText n.text
  | .text pieces => Piece.quoted pieces
  | .emptyArray inside => .char '[' :: (inside.symbols ++ [.char ']'])
  | .array before items => .char '[' :: (before.symbols ++ (items.symbols ++ [.char ']']))
  | .emptyObject inside => .char '\x7b' :: (inside.symbols ++ [.char '\x7d'])
  | .object before members =>
    .char '\x7b' :: (before.symbols ++ (members.symbols ++ [.char '\x7d']))

/-- The symbols between the brackets of an array. -/
def Items.symbols : Items → WideText
  | .last item after => item.symbols ++ after.symbols
  | .more item after before rest =>
    item.symbols ++ (after.symbols ++ (.char ',' :: (before.symbols ++ rest.symbols)))

/-- The symbols between the braces of an object. -/
def Members.symbols : Members → WideText
  | .last name afterName before value after =>
    memberText name afterName before value.symbols ++ after.symbols
  | .more name afterName before value after next rest =>
    memberText name afterName before value.symbols ++
      (after.symbols ++ (.char ',' :: (next.symbols ++ rest.symbols)))

end

mutual

/-- The value that a source stands for. -/
def Source.value : Source → Json
  | .word w => w.value
  | .number n => n.value
  | .text pieces => .ofWide (Piece.symbols pieces)
  | .emptyArray _ => .array []
  | .array _ items => .array items.values
  | .emptyObject _ => .object []
  | .object _ members => .object members.values

/-- The values of the items. -/
def Items.values : Items → List Json
  | .last item _ => [item.value]
  | .more item _ _ rest => item.value :: rest.values

/-- The values of the members with their names. -/
def Members.values : Members → List (Text × Json)
  | .last name _ _ value _ => [((Piece.symbols name).shown, value.value)]
  | .more name _ _ value _ _ rest => ((Piece.symbols name).shown, value.value) :: rest.values

end

mutual

/-- The number of levels that stand inside each other. Arrays and objects are levels, and so are the
words for doubles. -/
def Source.depth : Source → Nat
  | .word w => w.depth
  | .number _ | .text _ => 0
  | .emptyArray _ | .emptyObject _ => 1
  | .array _ items => items.depth + 1
  | .object _ members => members.depth + 1

/-- The depth of the deepest item. -/
def Items.depth : Items → Nat
  | .last item _ => item.depth
  | .more item _ _ rest => max item.depth rest.depth

/-- The depth of the deepest value of a member. -/
def Members.depth : Members → Nat
  | .last _ _ _ value _ => value.depth
  | .more _ _ _ value _ _ rest => max value.depth rest.depth

end

mutual

/-- The number of digits of the longest integer. -/
def Source.longestInteger : Source → Nat
  | .number n => n.longestInteger
  | .word _ | .text _ | .emptyArray _ | .emptyObject _ => 0
  | .array _ items => items.longestInteger
  | .object _ members => members.longestInteger

/-- The number of digits of the longest integer in the items. -/
def Items.longestInteger : Items → Nat
  | .last item _ => item.longestInteger
  | .more item _ _ rest => max item.longestInteger rest.longestInteger

/-- The number of digits of the longest integer in the values of the members. -/
def Members.longestInteger : Members → Nat
  | .last _ _ _ value _ => value.longestInteger
  | .more _ _ _ value _ _ rest => max value.longestInteger rest.longestInteger

end

/-- A value with blanks around it. -/
structure Document where
  before : Blanks
  source : Source
  after : Blanks

namespace Document

/-- The symbols of a document. -/
def symbols (d : Document) : WideText :=
  d.before.symbols ++ (d.source.symbols ++ d.after.symbols)

/-- The value that a document stands for. -/
def value (d : Document) : Json := d.source.value

end Document

end ComplexityGauge.Json
