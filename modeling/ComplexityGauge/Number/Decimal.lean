import ComplexityGauge.Number.Binary64
import ComplexityGauge.Text.Basic

/-!
# Decimal texts of doubles

Two ways of writing a double: with the fewest digits that read back as the same double, and with
two places after the point.

## Main definitions

* `Binary64.shortestDigits` — the fewest digits that read back, and the place of the first one
* `Binary64.text` — a double with these digits
* `Binary64.fixedText` — a double rounded to hundredths
-/

namespace ComplexityGauge.Binary64

open Text

/-- The power of ten of the first significant digit of a positive finite number. The factor
`10 ^ 400` makes the smallest double large, so that its digits can be counted. -/
def leadingPlace (units : Nat) : Int :=
  ((ofNat (units * Nat.pow 10 400 / unitsPerOne)).length : Int) - 401

/-- The number over `10 ^ place` as a quotient. -/
def scaleToPlace (units : Nat) (place : Int) : Nat × Nat :=
  match place with
  | .ofNat p => (units, unitsPerOne * Nat.pow 10 p)
  | .negSucc p => (units * Nat.pow 10 (p + 1), unitsPerOne)

/-- The multiple of `10 ^ place` nearest to the number that reads back as the number, if one of
its two neighbours does. -/
def candidateAt? (units : Nat) (place : Int) : Option Nat :=
  let (num, den) := scaleToPlace units place
  let below := num / den
  let readsBack (digits : Nat) : Bool := ofDecimal false digits place == finite false units
  let nearest := roundHalfEven num den
  let other := if nearest = below then below + 1 else below
  if readsBack nearest then some nearest
  else if readsBack other then some other
  else none

/-- The fewest significant digits that read back as the number, at most `fuel` places further
down than the place given, and the place of the last digit. -/
def digitsFrom (units : Nat) (place : Int) : Nat → Nat × Int
  | 0 => ((scaleToPlace units place).1 / (scaleToPlace units place).2, place)
  | fuel + 1 => match candidateAt? units place with
    | some digits => (digits, place)
    | none => digitsFrom units (place - 1) fuel

/-- The fewest digits that read back as a positive finite number, without zeros at their end, and
the place of the first digit. -/
def shortestDigits (units : Nat) : Text × Int :=
  let (digits, place) := digitsFrom units (leadingPlace units) 17
  let written := ofNat digits
  (dropEndWhile (· == '0') written, place + written.length - 1)

/-- The digits with a point after the one whose place is zero, and at least one digit on either
side of it. -/
def positional (digits : Text) (firstPlace : Int) : Text :=
  match firstPlace with
  | .ofNat place =>
    let whole := digits.take (place + 1)
    let fraction := digits.drop (place + 1)
    whole ++ List.replicate (place + 1 - whole.length) '0' ++ ['.'] ++
      (if fraction.isEmpty then ['0'] else fraction)
  | .negSucc zeros => "0.".toList ++ List.replicate zeros '0' ++ digits

/-- The digits with a point after the first one, and a power of ten of at least two digits. -/
def scientific (digits : Text) (firstPlace : Int) : Text :=
  let power := ofNat firstPlace.natAbs
  digits.take 1 ++ (if digits.length = 1 then [] else '.' :: digits.drop 1) ++
    ['e', if firstPlace < 0 then '-' else '+'] ++ List.replicate (2 - power.length) '0' ++ power

/-- A minus sign for a negative number. -/
def signText (negative : Bool) : Text := if negative then ['-'] else []

/-- The number with the fewest digits that read back: positional from a ten-thousandth up to
below `10 ^ 16`, with a power of ten outside. -/
def text : Binary64 → Text
  | nan => "nan".toList
  | infinite negative => signText negative ++ "inf".toList
  | finite negative 0 => signText negative ++ "0.0".toList
  | finite negative units =>
    let (digits, firstPlace) := shortestDigits units
    signText negative ++
      if -4 ≤ firstPlace && firstPlace < 16 then positional digits firstPlace
      else scientific digits firstPlace

/-- The number rounded to hundredths, a tie going to the even one, with two digits after the
point. -/
def fixedText : Binary64 → Text
  | nan => "nan".toList
  | infinite negative => signText negative ++ "inf".toList
  | finite negative units =>
    let hundredths := roundHalfEven (units * 100) unitsPerOne
    let places := ofNat (hundredths % 100)
    signText negative ++ ofNat (hundredths / 100) ++ ['.'] ++
      List.replicate (2 - places.length) '0' ++ places

end ComplexityGauge.Binary64
