import ComplexityGauge.Number.Binary64
import ComplexityGauge.Text.Lowercase

/-!
# Numerals

How numbers are read from texts that people write into settings and forms: blanks around the
number do not count, and underscores may part its characters.

An integer is read as it stands if it is written in plain digits. Otherwise a plus sign, the zeros
in front, a fraction of zeros and the underscores are passed over one after the other, and what is
left has to be in plain digits. Each step looks at its own part of the text only, so zeros may also
stand before a minus sign.

## Main definitions

* `Numeral.integer` — an integer, perhaps with a fraction of zeros
* `Numeral.real?` — a double: decimal, infinite or NaN
-/

namespace ComplexityGauge.Numeral

open Text

/-- The text without its underscores, if there are some and each of them stands alone between two
other characters. -/
def dropUnderscores? (t : Text) : Option Text :=
  let groups := t.splitOn '_'
  if 1 < groups.length && groups.all (fun g => !g.isEmpty) then some groups.flatten else none

/-! ### Integers -/

/-- Why a text is not read as an integer: it writes none, or one that is too long. -/
inductive IntegerFault | unreadable | oversized
  deriving DecidableEq, Repr

/-- The largest number of digits in an integer. -/
def maxDigits : Nat := 4300

/-- The integer in plain digits: perhaps a minus sign, and then a zero or digits of which the first
is none. Digits beyond the limit are not computed, whatever stands behind them. -/
def plainInteger (t : Text) : Except IntegerFault Int :=
  let (negative, unsigned) : Bool × Text := match t with
    | '-' :: rest => (true, rest)
    | t => (false, t)
  let digits := unsigned.takeWhile isDigit
  if digits.isEmpty then .error .unreadable
  else if digits.head? = some '0' then
    if unsigned.length = 1 then .ok 0 else .error .unreadable
  else if maxDigits < digits.length then .error .oversized
  else if digits.length < unsigned.length then .error .unreadable
  else
    let n : Int := digitsValue digits
    .ok (if negative then -n else n)

/-- What follows a zero in front: the text from the first character on that is neither a zero nor
an underscore. The character before it, `last`, is kept before a point and at the end. -/
def dropZerosAfter? (last : Char) : Text → Option Text
  | [] => some [last]
  | c :: rest =>
    if c = '0' || c = '_' then dropZerosAfter? c rest
    else if c = '.' then some (last :: c :: rest)
    else if c = '-' || isDigit c then some (c :: rest)
    else none

/-- The text without the zeros in front. It has to start with a digit or a minus sign. -/
def dropZeros? : Text → Option Text
  | [] => none
  | c :: rest =>
    if c = '0' then dropZerosAfter? c rest
    else if c = '-' || isDigit c then some (c :: rest)
    else none

/-- The text before a fraction of one or more zeros; any other fraction stays. -/
def dropFraction (t : Text) : Text :=
  match t.span (· ≠ '.') with
  | (_, []) => t
  | (whole, _ :: zeros) => if !zeros.isEmpty && zeros.all (· == '0') then whole else t

/-- An unsigned number in the form that is read: without zeros in front, a fraction of zeros, and
underscores. -/
def plainForm? (t : Text) : Option Text :=
  (dropZeros? t).map fun counted =>
    let whole := dropFraction counted
    (dropUnderscores? whole).getD whole

/-- A number with an optional sign in the form that is read, where a minus sign stays. -/
def signedForm? : Text → Option Text
  | '-' :: rest => (plainForm? rest).map ('-' :: ·)
  | '+' :: '-' :: _ => none
  | '+' :: rest => plainForm? rest
  | t => plainForm? t

/-- The integer that a text writes. Only a text that is plain as it stands can be oversized. -/
def integer (t : Text) : Except IntegerFault Int :=
  let trimmed := trimWhile isSpace t
  match plainInteger trimmed with
  | .error .unreadable => match (signedForm? trimmed).map plainInteger with
    | some (.ok n) => .ok n
    | _ => .error .unreadable
  | outcome => outcome

/-! ### Doubles -/

/-- The text behind an optional sign, and whether the sign was a minus. -/
def splitSign : Text → Bool × Text
  | '-' :: rest => (true, rest)
  | '+' :: rest => (false, rest)
  | t => (false, t)

/-- The power of ten that follows the letter `e`; without the letter it is zero. -/
def exponent? : Text → Option Int
  | [] => some 0
  | _ :: rest =>
    let (negative, digits) := splitSign rest
    if digits.isEmpty || !digits.all isDigit then none
    else
      let n : Int := digitsValue digits
      some (if negative then -n else n)

/-- The double that an unsigned decimal number writes. -/
def decimal? (negative : Bool) (t : Text) : Option Binary64 :=
  let (significand, power) := t.span fun c => c ≠ 'e' && c ≠ 'E'
  let (whole, point) := significand.span (· ≠ '.')
  let fraction := point.drop 1
  let digits := whole ++ fraction
  if digits.isEmpty || !digits.all isDigit then none
  else (exponent? power).map fun exponent =>
    .ofDecimal negative (digitsValue digits) (exponent - fraction.length)

/-- The double that a text without blanks and underscores writes. -/
def plainReal? (t : Text) : Option Binary64 :=
  let (negative, unsigned) := splitSign t
  let word := unsigned.map lowerAscii
  if word = "inf".toList || word = "infinity".toList then some (.infinite negative)
  else if word = "nan".toList then some .nan
  else decimal? negative unsigned

/-- The double that a text writes. Either blanks around it or underscores in it are passed over,
and not both. -/
def real? (t : Text) : Option Binary64 :=
  (plainReal? (trimWhile isSpace t)).or ((dropUnderscores? t).bind plainReal?)

end ComplexityGauge.Numeral
