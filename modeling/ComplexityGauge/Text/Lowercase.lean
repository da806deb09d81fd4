import ComplexityGauge.Text.Basic
import ComplexityGauge.Text.CaseTables

/-!
# Lowercase

Full Unicode lowercasing. All characters but two are mapped one by one: the dotted capital I
becomes two characters, and a capital sigma at the end of a word becomes the final sigma.

## Main definitions

* `Text.lowerSimple` — the lowercase form of one character, out of context
* `Text.lower` — the lowercase form of a text
* `Text.normalize` — a text trimmed and then lowercased
-/

namespace ComplexityGauge.Text

open CaseTables

/-- The dotted capital I. -/
def dottedCapitalI : Char := '\u0130'

/-- The Kelvin sign, the only character beyond ASCII whose lowercase form is one ASCII letter. -/
def kelvinSign : Char := '\u212A'

/-- The capital sigma, the only character whose lowercase form hangs on its neighbours. -/
def capitalSigma : Char := '\u03A3'

/-- A cased letter that a search for letters does not pass over. -/
def isLetter (c : Char) : Bool := inRanges letterRanges c.toNat

/-- A character that a search for letters passes over, such as an apostrophe or an accent. -/
def isIgnorable (c : Char) : Bool := inRanges ignorableRanges c.toNat

/-- The lowercase form of one character out of context. -/
def lowerSimple (c : Char) : Char :=
  if c.toNat < 128 then lowerAscii c
  else if c = kelvinSign then 'k'
  else match lowercaseRuns.find? (·.covers c.toNat) with
    | some run => Char.ofNat ((c.toNat : Int) + run.shift).toNat
    | none => c

/-- The first character of the text that is not ignorable is a letter. -/
def letterFollows (t : Text) : Bool :=
  match t.dropWhile isIgnorable with
  | [] => false
  | c :: _ => isLetter c

/-- The lowercase form of one character, given whether a letter precedes it, and the text after
it. A capital sigma is final after a letter and not before one. -/
def lowerChar (afterLetter : Bool) (c : Char) (rest : Text) : Text :=
  if c = dottedCapitalI then ['i', '\u0307']
  else if c = capitalSigma then
    [if afterLetter && !letterFollows rest then '\u03C2' else '\u03C3']
  else [lowerSimple c]

/-- Whether a letter precedes the next position once `c` has been passed. -/
def letterPrecedes (afterLetter : Bool) (c : Char) : Bool :=
  if isIgnorable c then afterLetter else isLetter c

/-- The lowercase form of a text that stands after a letter or not. -/
def lowerFrom (afterLetter : Bool) : Text → Text
  | [] => []
  | c :: rest => lowerChar afterLetter c rest ++ lowerFrom (letterPrecedes afterLetter c) rest

/-- The lowercase form of a text. -/
def lower (t : Text) : Text := lowerFrom false t

/-- The text without blanks at its ends and in lowercase. -/
def normalize (t : Text) : Text := lower (trim t)

@[simp] theorem lower_nil : lower [] = [] := rfl

end ComplexityGauge.Text
