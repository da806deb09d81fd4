import ComplexityGauge.Text.Basic

/-!
# Wide texts

A character beyond U+FFFF can be written as a pair of surrogates, and both JSON and bytes can write
half of such a pair alone. That half is no character, so what comes from outside is first read as
a wide text, in which halves may stand among the characters.

## Main definitions

* `Symbol` — a character, or half of a surrogate pair that stands alone
* `Symbol.joined?` — the character that two halves write together
* `WideText` — a sequence of symbols
* `WideText.ofText`, `WideText.shown` — a text as a wide text, and back
* `WideText.trim` — a wide text without the blanks at its ends
* `WideText.firstHalves?` — the first place where halves stand
-/

namespace ComplexityGauge

/-- A character, or half of a surrogate pair that stands alone. Halves are counted from U+D800. -/
inductive Symbol
  | char (c : Char)
  | half (index : Fin 2048)
  deriving DecidableEq, Repr

namespace Symbol

/-- The code point of a symbol. -/
def code : Symbol → Nat
  | char c => c.toNat
  | half index => 0xD800 + index.val

/-- The symbol of a code point. -/
def ofCode (code : Nat) : Symbol :=
  if h : 0xD800 ≤ code ∧ code < 0xE000 then half ⟨code - 0xD800, by omega⟩
  else char (Char.ofNat code)

/-- The character that two code units write together, if they are the halves of a pair. -/
def joined? (high low : Nat) : Option Char :=
  if 0xD800 ≤ high && high < 0xDC00 && 0xDC00 ≤ low && low < 0xE000 then
    some (Char.ofNat (0x10000 + (high - 0xD800) * 0x400 + (low - 0xDC00)))
  else none

/-- The character that a symbol is. -/
def char? : Symbol → Option Char
  | char c => some c
  | half _ => none

/-- The symbol is a character with a property. -/
def isChar (p : Char → Bool) : Symbol → Bool
  | char c => p c
  | half _ => false

/-- The symbol is half of a pair. -/
def isHalf : Symbol → Bool
  | char _ => false
  | half _ => true

/-- The character shown for a symbol; a half is shown as the replacement character. -/
def shown : Symbol → Char
  | char c => c
  | half _ => '\uFFFD'

end Symbol

/-- A text in which halves of surrogate pairs may stand alone. -/
abbrev WideText := List Symbol

namespace WideText

/-- A text as a wide text. -/
def ofText (t : Text) : WideText := t.map .char

/-- The text with a replacement character for each half. -/
def shown (t : WideText) : Text := t.map Symbol.shown

/-- The wide text without the blanks at either end. Half of a pair is no blank. -/
def trim (t : WideText) : WideText :=
  let isBlank := Symbol.isChar Text.isBlank
  ((t.dropWhile isBlank).reverse.dropWhile isBlank).reverse

/-- The position of the first half, with the code points of the run of halves that starts there. -/
def firstHalves? (t : WideText) : Option (Nat × List Nat) :=
  let before := t.takeWhile fun s => !s.isHalf
  match (t.drop before.length).takeWhile Symbol.isHalf with
  | [] => none
  | halves => some (before.length, halves.map Symbol.code)

/-- What follows the word at the start of the wide text. -/
def after? : Text → WideText → Option WideText
  | [], t => some t
  | c :: word, .char d :: t => if c = d then after? word t else none
  | _ :: _, _ => none

end WideText

end ComplexityGauge
