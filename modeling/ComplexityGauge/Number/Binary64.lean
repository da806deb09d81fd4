/-!
# Double precision numbers

The numbers of the 64-bit binary format, held exactly: a finite one is a whole multiple of the
smallest positive one, `2 ^ (-1074)`. Powers are written with `Nat.pow`, which means the same
whatever other theory of powers is in scope.

## Main definitions

* `Binary64` — the numbers, with both infinities and a single NaN
* `Binary64.ofDecimal` — the double nearest to a decimal number, a tie going to the even one
* `Binary64.toInt?` — the integer that a double equals
-/

namespace ComplexityGauge

/-- A number of the 64-bit binary format. A finite one is `units * 2 ^ (-1074)`. -/
inductive Binary64
  | nan
  | infinite (negative : Bool)
  | finite (negative : Bool) (units : Nat)
  deriving DecidableEq, Repr

namespace Binary64

/-- How many of the smallest positive numbers make one. -/
def unitsPerOne : Nat := Nat.pow 2 1074

/-- The largest finite number in units. -/
def maxUnits : Nat := (Nat.pow 2 53 - 1) * Nat.pow 2 2045

/-- The quotient rounded to the nearest whole number, a tie going to the even one. -/
def roundHalfEven (num den : Nat) : Nat :=
  let quotient := num / den
  let twice := 2 * (num % den)
  if den < twice || (twice == den && quotient % 2 == 1) then quotient + 1 else quotient

/-- The number of units nearest to the quotient among those with 53 significant bits. -/
def roundUnits (num den : Nat) : Nat :=
  let scaled := num * unitsPerOne
  let whole := scaled / den
  let spare := Nat.pow 2 (whole.log2 + 1 - 53)
  roundHalfEven scaled (den * spare) * spare

/-- The double nearest to a quotient, infinite beyond the largest finite one. -/
def ofRatio (negative : Bool) (num den : Nat) : Binary64 :=
  let units := roundUnits num den
  if maxUnits < units then infinite negative else finite negative units

/-- The double nearest to `digits * 10 ^ exponent`. Exponents that put the number beyond all
finite doubles, or below half of the smallest one, are settled without computing the power. -/
def ofDecimal (negative : Bool) (digits : Nat) (exponent : Int) : Binary64 :=
  let magnitude := exponent + (Nat.toDigits 10 digits).length
  if digits = 0 || magnitude < -330 then finite negative 0
  else if 310 < magnitude then infinite negative
  else match exponent with
    | .ofNat e => ofRatio negative (digits * Nat.pow 10 e) 1
    | .negSucc e => ofRatio negative digits (Nat.pow 10 (e + 1))

/-- Zero. -/
def zero : Binary64 := finite false 0

/-- The number is at least zero. Both zeros are, and NaN is not. -/
def isNonnegative : Binary64 → Bool
  | nan => false
  | infinite negative => !negative
  | finite negative units => !negative || units == 0

/-- The number is greater than zero. -/
def isPositive : Binary64 → Bool
  | nan => false
  | infinite negative => !negative
  | finite negative units => !negative && units != 0

/-- The number is neither infinite nor NaN. -/
def isFinite : Binary64 → Bool
  | finite _ _ => true
  | _ => false

/-- The integer that the number equals. -/
def toInt? : Binary64 → Option Int
  | finite negative units =>
    if units % unitsPerOne = 0 then
      let n : Int := (units / unitsPerOne : Nat)
      some (if negative then -n else n)
    else none
  | _ => none

end Binary64

end ComplexityGauge
