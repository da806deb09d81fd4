import ComplexityGauge.Json.Value

/-!
# Reading JSON

The reader accepts the JSON grammar and the words `NaN`, `Infinity` and `-Infinity`. Where a text
is no JSON it tells at which character, which is what a caller sees of the fault.

Every function takes the text that is still unread and returns what is left of it. Faults are
reported by the number of characters unread, from which `Json.read` computes the position. A
value inside another starts at least one character further on and is reached in at most two steps,
so fuel for two steps a character never runs out.

Values may be nested only so deep, and some work inside them counts as a level or more of its own:
naming a double by a word, and telling where a fault is.

## Main definitions

* `Json.Fault` — why a text is refused, and where
* `Json.read` — the value of a text
-/

namespace ComplexityGauge.Json

open Text

/-- The largest number of digits that an integer may have. -/
def maxIntegerDigits : Nat := 4300

/-- The largest number of arrays and objects that may stand inside each other. -/
def maxDepth : Nat := 982

/-- Why a text is refused: at a character it departs from the grammar, it holds an integer with
too many digits, or its values are nested too deep. -/
inductive Fault
  | malformed (position : Nat)
  | oversizedInteger
  | tooDeep
  deriving DecidableEq, Repr

/-- A fault met while reading, placed by the number of characters not yet read. -/
inductive Stop
  | malformed (unread : Nat)
  | oversizedInteger
  | tooDeep
  deriving DecidableEq, Repr

/-- The grammar is left at the first character of `rest`. -/
def stopAt {α : Type} (rest : WideText) : Except Stop α := .error (.malformed rest.length)

/-- The levels that telling where a fault is takes. -/
def faultLevels : Nat := 3

/-- A fault met where so many levels are left. If they do not suffice to tell where it is, the text
counts as nested too deep. -/
def Stop.within (levels : Nat) : Stop → Stop
  | .malformed unread => if levels < faultLevels then .tooDeep else .malformed unread
  | stop => stop

/-- The grammar is left inside an array or an object, where so many levels are left. -/
def stopInside {α : Type} (levels : Nat) (rest : WideText) : Except Stop α :=
  (stopAt rest).mapError (.within levels)

/-- The four blanks of JSON. -/
def isJsonBlank (c : Char) : Bool := c == ' ' || c == '\t' || c == '\n' || c == '\r'

/-- The text without JSON blanks at its start. -/
def skipBlanks (t : WideText) : WideText := t.dropWhile (Symbol.isChar isJsonBlank)

/-! ### Texts -/

/-- The code unit that four hexadecimal digits write. Some symbol must follow them. -/
def codeUnit? : WideText → Option (Nat × WideText)
  | .char a :: .char b :: .char c :: .char d :: next :: rest =>
    match hexValue? a, hexValue? b, hexValue? c, hexValue? d with
    | some a, some b, some c, some d => some (((a * 16 + b) * 16 + c) * 16 + d, next :: rest)
    | _, _, _, _ => none
  | _ => none

/-- The low half that an escape at the start of the text adds to a high one. -/
def lowHalf? (high : Nat) : WideText → Option (Char × WideText)
  | .char '\\' :: .char 'u' :: rest => do
    let (low, rest) ← codeUnit? rest
    let c ← Symbol.joined? high low
    return (c, rest)
  | _ => none

/-- The symbol that the digits after `\u` write, two such escapes together if they form a
surrogate pair. -/
def unicodeEscape? (t : WideText) : Option (Symbol × WideText) :=
  match codeUnit? t with
  | some (unit, rest) => match lowHalf? unit rest with
    | some (c, rest) => some (.char c, rest)
    | none => some (.ofCode unit, rest)
  | none => none

/-- The character that a one-letter escape writes. -/
def plainEscape? : Char → Option Char
  | '"' => some '"'
  | '\\' => some '\\'
  | '/' => some '/'
  | 'b' => some '\x08'
  | 'f' => some '\x0c'
  | 'n' => some '\n'
  | 'r' => some '\r'
  | 't' => some '\t'
  | _ => none

/-- The rest of a quoted text. `start` is the text from its opening quote on, `done` holds the
symbols read so far, the last one first. -/
def readQuoted (start done : WideText) : Nat → WideText → Except Stop (WideText × WideText)
  | 0, _ => stopAt start
  | _ + 1, [] => stopAt start
  | _ + 1, .char '"' :: rest => .ok (done.reverse, rest)
  | _ + 1, [.char '\\'] => stopAt start
  | fuel + 1, .char '\\' :: .char 'u' :: rest =>
    match unicodeEscape? rest with
    | some (s, rest) => readQuoted start (s :: done) fuel rest
    | none => stopAt (.char 'u' :: rest)
  | fuel + 1, .char '\\' :: e :: rest =>
    match e.char?.bind plainEscape? with
    | some c => readQuoted start (.char c :: done) fuel rest
    | none => stopAt (.char '\\' :: e :: rest)
  | fuel + 1, s :: rest =>
    if s.isChar fun c => c.toNat < 32 then stopAt (s :: rest)
    else readQuoted start (s :: done) fuel rest

/-- A quoted text whose opening quote has been read, where so many levels are left. -/
def readText (fuel levels : Nat) (rest : WideText) : Except Stop (WideText × WideText) :=
  (readQuoted (.char '"' :: rest) [] fuel rest).mapError (.within levels)

/-! ### Numbers -/

/-- The digits at the start of the text. -/
def leadingDigits (t : WideText) : Text :=
  (t.takeWhile (Symbol.isChar isDigit)).filterMap Symbol.char?

/-- The text behind the digits at its start. -/
def behindDigits (t : WideText) : WideText := t.dropWhile (Symbol.isChar isDigit)

/-- The digits of a whole number: a zero, or a run of digits that starts with none. -/
def wholeDigits? : WideText → Option (Text × WideText)
  | .char '0' :: rest => some (['0'], rest)
  | t => if (leadingDigits t).isEmpty then none else some (leadingDigits t, behindDigits t)

/-- The digits behind a point, if at least one stands there. -/
def fractionDigits : WideText → Text × WideText
  | .char '.' :: rest =>
    if (leadingDigits rest).isEmpty then ([], .char '.' :: rest)
    else (leadingDigits rest, behindDigits rest)
  | t => ([], t)

/-- An optional sign at the start of the text: whether it is a minus, and the text behind it. -/
def splitSign : WideText → Bool × WideText
  | .char '-' :: rest => (true, rest)
  | .char '+' :: rest => (false, rest)
  | t => (false, t)

/-- The power of ten behind the letter `e`, if at least one digit stands there. -/
def powerOfTen? : WideText → Option (Int × WideText)
  | .char e :: rest =>
    if e = 'e' || e = 'E' then
      let (negative, unsigned) := splitSign rest
      if (leadingDigits unsigned).isEmpty then none
      else
        let n : Int := digitsValue (leadingDigits unsigned)
        some (if negative then -n else n, behindDigits unsigned)
    else none
  | _ => none

/-- A number without its sign. `whole` holds the digits before the point. A number with neither a
fraction nor a power of ten is an integer. -/
def finishNumber (negative : Bool) (whole : Text) (rest : WideText) :
    Except Stop (Json × WideText) :=
  let (fraction, rest) := fractionDigits rest
  let real (exponent : Int) : Json :=
    .real (.ofDecimal negative (digitsValue (whole ++ fraction)) (exponent - fraction.length))
  match powerOfTen? rest with
  | some (exponent, rest) => .ok (real exponent, rest)
  | none =>
    if !fraction.isEmpty then .ok (real 0, rest)
    else if maxIntegerDigits < whole.length then .error .oversizedInteger
    else
      let n : Int := digitsValue whole
      .ok (.int (if negative then -n else n), rest)

/-! ### Values -/

/-- The words that are values. -/
def words : List (Text × Json) :=
  [("null".toList, .null), ("true".toList, .bool true), ("false".toList, .bool false),
    ("NaN".toList, .real .nan), ("Infinity".toList, .real (.infinite false)),
    ("-Infinity".toList, .real (.infinite true))]

/-- The word at the start of the text, if one stands there. -/
def word? (t : WideText) : Option (Json × WideText) :=
  words.findSome? fun w => (WideText.after? w.1 t).map fun rest => (w.2, rest)

/-- An optional minus at the start of the text: whether it is there, and the text behind it. -/
def splitMinus : WideText → Bool × WideText
  | .char '-' :: rest => (true, rest)
  | t => (false, t)

/-- The number at the start of the text. -/
def readNumber (t : WideText) : Except Stop (Json × WideText) :=
  match wholeDigits? (splitMinus t).2 with
  | some (whole, rest) => finishNumber (splitMinus t).1 whole rest
  | none => stopAt t

/-- A word or a number at the start of the text, where so many levels are left. A word for a
double takes one of them. -/
def readAtom (levels : Nat) (t : WideText) : Except Stop (Json × WideText) :=
  match word? t with
  | some (.real x, rest) => if levels = 0 then .error .tooDeep else .ok (.real x, rest)
  | some (j, rest) => .ok (j, rest)
  | none => readNumber t

mutual

/-- The value at the start of the text, in which at most `levels` arrays and objects may stand
inside each other. -/
def readValue : Nat → Nat → WideText → Except Stop (Json × WideText)
  | 0, _, t => stopAt t
  | fuel + 1, levels, t =>
    match t, levels with
    | .char '"' :: rest, levels => do
      let (value, rest) ← readText (fuel + 1) levels rest
      return (ofWide value, rest)
    | .char '[' :: _, 0 => .error .tooDeep
    | .char '[' :: rest, levels + 1 =>
      match skipBlanks rest with
      | .char ']' :: rest => .ok (.array [], rest)
      | rest => do
        let (items, rest) ← readItems fuel levels [] rest
        return (.array items, rest)
    | .char '\x7b' :: _, 0 => .error .tooDeep
    | .char '\x7b' :: rest, levels + 1 =>
      match skipBlanks rest with
      | .char '\x7d' :: rest => .ok (.object [], rest)
      | rest => do
        let (members, rest) ← readMembers fuel levels [] rest
        return (.object members, rest)
    | t, levels => readAtom levels t

/-- The items of an array up to its end; `done` holds those before, the last one first. -/
def readItems : Nat → Nat → List Json → WideText → Except Stop (List Json × WideText)
  | 0, _, _, t => stopAt t
  | fuel + 1, levels, done, t => do
    let (item, rest) ← readValue fuel levels t
    match skipBlanks rest with
    | .char ']' :: rest => return ((item :: done).reverse, rest)
    | .char ',' :: rest => readItems fuel levels (item :: done) (skipBlanks rest)
    | rest => stopInside levels rest

/-- The members of an object up to its end; `done` holds those before, the last one first. -/
def readMembers :
    Nat → Nat → List (Text × Json) → WideText → Except Stop (List (Text × Json) × WideText)
  | 0, _, _, t => stopAt t
  | fuel + 1, levels, done, t =>
    match t with
    | .char '"' :: rest => do
      let (name, rest) ← readText (fuel + 1) levels rest
      match skipBlanks rest with
      | .char ':' :: rest => do
        let (value, rest) ← readValue fuel levels (skipBlanks rest)
        let members := (name.shown, value) :: done
        match skipBlanks rest with
        | .char '\x7d' :: rest => return (members.reverse, rest)
        | .char ',' :: rest => readMembers fuel levels members (skipBlanks rest)
        | rest => stopInside levels rest
      | rest => stopInside levels rest
    | t => stopInside levels t

end

/-- The value of a whole text, with blanks allowed around it. -/
def read (t : WideText) : Except Fault Json :=
  let outcome : Except Stop Json := do
    let (value, rest) ← readValue (2 * t.length + 2) maxDepth (skipBlanks t)
    match skipBlanks rest with
    | [] => return value
    | rest => stopAt rest
  match outcome with
  | .ok value => .ok value
  | .error (.malformed unread) => .error (.malformed (t.length - unread))
  | .error .oversizedInteger => .error .oversizedInteger
  | .error .tooDeep => .error .tooDeep

end ComplexityGauge.Json
