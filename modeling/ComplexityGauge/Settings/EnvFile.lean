import ComplexityGauge.Text.Basic

/-!
# Environment files

A file with one `KEY=VALUE` on each line, read in place of environment variables that are not
set. Blank lines and lines with `#` in front hold nothing, `export` may stand before a key, a
value may be quoted, and a statement that does not fit this form is passed over. A value may refer
to variables by name, those of lines before it and those of the environment.

## Main definitions

* `Variables` — names with their values, if they have any
* `EnvFile.expand` — a value with its references resolved
* `EnvFile.read` — the variables of a file
-/

namespace ComplexityGauge

open Text

/-- Names and their values, in the order in which the names were first given. A name without a
value has been mentioned and not set. -/
abbrev Variables := List (Text × Option Text)

/-- A variable set anew. It keeps its place in the order. -/
def Variables.set (vars : Variables) (name : Text) (value : Option Text) : Variables :=
  if vars.any (·.1 == name) then vars.map fun v => if v.1 == name then (name, value) else v
  else vars ++ [(name, value)]

namespace EnvFile

/-- A blank that does not end a line. -/
def isInlineBlank (c : Char) : Bool := isBlank c && c != '\n' && c != '\r'

/-- The text without inline blanks at its start. -/
def skipInline (t : Text) : Text := t.dropWhile isInlineBlank

/-- The text with every line end written as one line feed. -/
def unifyLineEnds : Text → Text
  | [] => []
  | '\r' :: '\n' :: rest => '\n' :: unifyLineEnds rest
  | '\r' :: rest => '\n' :: unifyLineEnds rest
  | c :: rest => c :: unifyLineEnds rest

/-- The text behind the word `export` and the blanks after it, if it starts with them. -/
def skipExport (t : Text) : Text :=
  match after? "export".toList t with
  | some (c :: rest) => if isInlineBlank c then skipInline rest else t
  | _ => t

/-- The name that a statement starts with, and the text behind it; a comment has none. A text that
does not fit is given back from the place where it ceases to fit. -/
def readName (t : Text) : Except Text (Option Text × Text) :=
  match t with
  | '#' :: _ => .ok (none, t)
  | '\'' :: rest =>
    match rest.takeWhile (· ≠ '\''), rest.dropWhile (· ≠ '\'') with
    | [], _ => .error t
    | name, _ :: rest => .ok (some name, rest)
    | _, [] => .error t
  | _ =>
    let isNameChar (c : Char) : Bool := c != '=' && c != '#' && !isBlank c
    match t.takeWhile isNameChar with
    | [] => .error t
    | name => .ok (some name, t.dropWhile isNameChar)

/-- The text before and after the quote that closes a value; `done` holds what has been passed, the
last character first. A backslash takes the character after it along. -/
def closeQuote? (quote : Char) (done : Text) : Text → Option (Text × Text)
  | [] => none
  | '\\' :: c :: rest => closeQuote? quote (c :: '\\' :: done) rest
  | c :: rest =>
    if c = quote then some (done.reverse, rest) else closeQuote? quote (c :: done) rest

/-- The character that a backslash and a letter write between single quotes. -/
def singleEscape? : Char → Option Char
  | '\\' => some '\\'
  | '\'' => some '\''
  | _ => none

/-- The character that a backslash and a letter write between double quotes. -/
def doubleEscape? : Char → Option Char
  | '\\' => some '\\'
  | '\'' => some '\''
  | '"' => some '"'
  | 'a' => some '\x07'
  | 'b' => some '\x08'
  | 'f' => some '\x0c'
  | 'n' => some '\n'
  | 'r' => some '\r'
  | 't' => some '\t'
  | 'v' => some '\x0b'
  | _ => none

/-- The text with its escapes resolved; other backslashes stay. -/
def unescape (escape? : Char → Option Char) : Text → Text
  | '\\' :: e :: rest => match escape? e with
    | some c => c :: unescape escape? rest
    | none => '\\' :: unescape escape? (e :: rest)
  | c :: rest => c :: unescape escape? rest
  | [] => []

/-- The text up to a `#` that follows a blank. -/
def cutComment (afterBlank : Bool) : Text → Text
  | [] => []
  | c :: rest => if c = '#' && afterBlank then [] else c :: cutComment (isBlank c) rest

/-- The value at the start of the text, given whether a blank stands before it. -/
def readValue (afterBlank : Bool) (t : Text) : Except Text (Text × Text) :=
  match t with
  | '\'' :: rest => match closeQuote? '\'' [] rest with
    | some (inside, rest) => .ok (unescape singleEscape? inside, rest)
    | none => .error t
  | '"' :: rest => match closeQuote? '"' [] rest with
    | some (inside, rest) => .ok (unescape doubleEscape? inside, rest)
    | none => .error t
  | _ =>
    let value := cutComment afterBlank (t.takeWhile (· ≠ '\n'))
    .ok (dropEndWhile isBlank value, t.dropWhile (· ≠ '\n'))

/-- The text behind the end of the current line, if only a comment stands before it. -/
def readLineEnd (t : Text) : Except Text Text :=
  let behind := match skipInline t with
    | '#' :: rest => rest.dropWhile (· ≠ '\n')
    | _ => t
  match skipInline behind with
  | [] => .ok []
  | '\n' :: rest => .ok rest
  | _ => .error behind

/-- The statement at the start of the text: a name, if it is no comment, and its value, if an
equals sign follows the name. -/
def readStatement (t : Text) : Except Text (Option (Text × Option Text) × Text) := do
  let (name, rest) ← readName (skipExport t)
  let (value, rest) ← match skipInline rest with
    | '=' :: rest => do
      let afterBlank := (rest.head?.map isInlineBlank).getD false
      let (value, rest) ← readValue afterBlank (skipInline rest)
      pure (some value, rest)
    | rest => pure (none, rest)
  let rest ← readLineEnd rest
  return (name.map fun name => (name, value), rest)

/-- A reference to a variable. -/
structure Reference where
  name : Text
  default : Text := []
  deriving DecidableEq, Repr

/-- The reference whose opening `$` and brace have been read, and the text behind it. A default may
follow the name after a colon and a minus sign. -/
def reference? (t : Text) : Option (Reference × Text) :=
  let name := t.takeWhile fun c => c ≠ '\x7d' && c ≠ ':'
  match t.drop name.length with
  | '\x7d' :: rest => some ({ name := name }, rest)
  | ':' :: '-' :: more => match more.dropWhile (· ≠ '\x7d') with
    | _ :: rest => some ({ name := name, default := more.takeWhile (· ≠ '\x7d') }, rest)
    | [] => none
  | _ => none

/-- The value that a reference stands for. A variable that has been mentioned without a value
stands for the empty text. -/
def Reference.value (vars : Variables) (r : Reference) : Text :=
  match vars.find? (·.1 == r.name) with
  | some v => v.2.getD []
  | none => r.default

/-- The text with the values of its references. Every step uses up a character, so fuel for each
character is enough. -/
def expandFrom (vars : Variables) : Nat → Text → Text
  | 0, t => t
  | _ + 1, [] => []
  | fuel + 1, '$' :: '\x7b' :: rest => match reference? rest with
    | some (r, rest) => r.value vars ++ expandFrom vars fuel rest
    | none => '$' :: expandFrom vars fuel ('\x7b' :: rest)
  | fuel + 1, c :: rest => c :: expandFrom vars fuel rest

/-- The text with the values of its references. What a value brings in is not searched again. -/
def expand (vars : Variables) (t : Text) : Text := expandFrom vars t.length t

/-- The statements of a text, given the variables of the environment. After one that does not fit,
reading goes on with the next line. Every statement and every line passed over uses up a
character, so fuel for each character is enough. -/
def readStatements (environment : Variables) : Nat → Variables → Text → Variables
  | 0, vars, _ => vars
  | fuel + 1, vars, t =>
    match t.dropWhile isBlank with
    | [] => vars
    | t => match readStatement t with
      | .ok (some (name, value), rest) =>
        let expanded := value.map (expand (vars ++ environment))
        readStatements environment fuel (vars.set name expanded) rest
      | .ok (none, rest) => readStatements environment fuel vars rest
      | .error rest =>
        readStatements environment fuel vars ((rest.dropWhile (· ≠ '\n')).drop 1)

/-- The text without a byte order mark at its start. -/
def dropMark : Text → Text
  | '\uFEFF' :: rest => rest
  | t => t

/-- The variables of a file, given those of the environment. -/
def read (environment : Variables) (file : Text) : Variables :=
  let t := unifyLineEnds (dropMark file)
  readStatements environment (t.length + 1) [] t

end EnvFile

end ComplexityGauge
