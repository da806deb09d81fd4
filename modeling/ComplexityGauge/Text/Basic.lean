/-!
# Texts

A text is a list of characters, one per code point. This file holds what every other file asks
of texts: blanks and trimming, the search for a word, and decimal numbers.

## Main definitions

* `Text` — a list of characters
* `Text.isBlank`, `Text.trim` — blank characters, and a text without those at its ends
* `Text.occurs` — a word stands somewhere in a text
* `Text.anySuffix`, `Text.firstSuffix?` — search at every position, the leftmost one first
* `Text.ofNat`, `Text.ofInt` — decimal numbers
-/

namespace ComplexityGauge

/-- A sequence of Unicode code points. -/
abbrev Text := List Char

namespace Text

/-- Blank characters: the Unicode white space and the four separators U+001C to U+001F. -/
def isBlank (c : Char) : Bool :=
  let code := c.toNat
  code == 0x20 || (0x09 ≤ code && code ≤ 0x0D) || (0x1C ≤ code && code ≤ 0x1F) ||
    code == 0x85 || code == 0xA0 || code == 0x1680 || (0x2000 ≤ code && code ≤ 0x200A) ||
    code == 0x2028 || code == 0x2029 || code == 0x202F || code == 0x205F || code == 0x3000

/-- The Unicode white space alone: a blank that is no separator U+001C to U+001F. -/
def isSpace (c : Char) : Bool :=
  isBlank c && !(0x1C ≤ c.toNat && c.toNat ≤ 0x1F)

/-- The text without the longest run of characters satisfying `p` at its end. -/
def dropEndWhile (p : Char → Bool) (t : Text) : Text :=
  (t.reverse.dropWhile p).reverse

/-- The text without the characters satisfying `p` at either end. -/
def trimWhile (p : Char → Bool) (t : Text) : Text :=
  dropEndWhile p (t.dropWhile p)

/-- The text without the blanks at either end. -/
def trim (t : Text) : Text := trimWhile isBlank t

/-- The lines of a text; only the line feed ends a line, and the empty text has one line. -/
def lines (t : Text) : List Text := t.splitOn '\n'

/-- Lines joined by line feeds. -/
def unlines (ls : List Text) : Text := ['\n'].intercalate ls

/-- Some suffix of the text, from the whole text to the empty one, satisfies `p`. -/
def anySuffix (p : Text → Bool) : Text → Bool
  | [] => p []
  | c :: t => p (c :: t) || anySuffix p t

/-- The first answer among those for the suffixes of the text, the longest suffix first. -/
def firstSuffix? {α : Type} (f : Text → Option α) : Text → Option α
  | [] => f []
  | c :: t => match f (c :: t) with
    | some a => some a
    | none => firstSuffix? f t

/-- The word stands somewhere in the text. -/
def occurs (word t : Text) : Bool := anySuffix (fun rest => word.isPrefixOf rest) t

/-- What follows the word at the start of the text. -/
def after? (word t : Text) : Option Text :=
  if word.isPrefixOf t then some (t.drop word.length) else none

/-- A number in decimal digits. -/
def ofNat (n : Nat) : Text := Nat.toDigits 10 n

/-- A number in decimal digits, after a minus sign if it is negative. -/
def ofInt : Int → Text
  | .ofNat n => ofNat n
  | .negSucc n => '-' :: ofNat (n + 1)

/-- The ASCII digits `0` to `9`. -/
def isDigit (c : Char) : Bool := '0' ≤ c && c ≤ '9'

/-- The number that decimal digits write; the empty text is zero. -/
def digitsValue (digits : Text) : Nat :=
  digits.foldl (fun n c => 10 * n + (c.toNat - '0'.toNat)) 0

/-- The value of a hexadecimal digit. -/
def hexValue? (c : Char) : Option Nat :=
  if '0' ≤ c && c ≤ '9' then some (c.toNat - 48)
  else if 'a' ≤ c && c ≤ 'f' then some (c.toNat - 87)
  else if 'A' ≤ c && c ≤ 'F' then some (c.toNat - 55)
  else none

/-- A capital ASCII letter as its small form, any other character as it is. -/
def lowerAscii (c : Char) : Char :=
  if 'A' ≤ c && c ≤ 'Z' then Char.ofNat (c.toNat + 32) else c

@[simp] theorem anySuffix_nil (p : Text → Bool) : anySuffix p [] = p [] := rfl

@[simp] theorem anySuffix_cons (p : Text → Bool) (c : Char) (t : Text) :
    anySuffix p (c :: t) = (p (c :: t) || anySuffix p t) := rfl

/-- Searching every position is asking for a suffix. -/
theorem anySuffix_iff {p : Text → Bool} {t : Text} :
    anySuffix p t = true ↔ ∃ rest, rest <:+ t ∧ p rest = true := by
  induction t with
  | nil => simp
  | cons c t ih =>
    rw [anySuffix_cons, Bool.or_eq_true, ih]
    constructor
    · rintro (h | ⟨rest, hrest, h⟩)
      · exact ⟨_, List.suffix_rfl, h⟩
      · exact ⟨rest, hrest.trans (List.suffix_cons c t), h⟩
    · rintro ⟨rest, hrest, h⟩
      rcases List.suffix_cons_iff.mp hrest with rfl | hrest
      · exact Or.inl h
      · exact Or.inr ⟨rest, hrest, h⟩

/-- A word occurs in a text exactly when it is an infix of it. -/
theorem occurs_iff {word t : Text} : occurs word t = true ↔ word <:+: t := by
  rw [occurs, anySuffix_iff, List.infix_iff_prefix_suffix]
  constructor
  · rintro ⟨rest, hrest, h⟩
    exact ⟨rest, List.isPrefixOf_iff_prefix.mp h, hrest⟩
  · rintro ⟨rest, h, hrest⟩
    exact ⟨rest, hrest, List.isPrefixOf_iff_prefix.mpr h⟩

end Text

end ComplexityGauge
