import ComplexityGauge.Service.Failure
import ComplexityGauge.Service.Request

/-!
# The size limit

A request that sends something is judged by the size that it declares, before anything else of it
is looked at. Sizes that are not written in digits alone are passed over. Superscript digits count
as digits here but write no number, and very long numbers are not computed; such a size cannot be
judged at all.

## Main definitions

* `DeclaredSize`, `DeclaredSize.ofText` — what a header says about the size of a body
* `SizeLimit.judge` — whether a request may pass
-/

namespace ComplexityGauge

open Text

/-- What a header says about the size of a body. -/
inductive DeclaredSize
  /-- Nothing that can be judged. -/
  | unstated
  /-- A number of bytes. -/
  | bytes (n : Nat)
  /-- Digits that write no number. -/
  | noNumber (text : Text)
  /-- A number with more digits than are computed. -/
  | tooLong (digits : Nat)
  deriving DecidableEq, Repr

namespace DeclaredSize

/-- The digits as header values may hold them, superscripts included. -/
def isAnyDigit (c : Char) : Bool :=
  isDigit c || c == '\u00B2' || c == '\u00B3' || c == '\u00B9'

/-- What the value of the header says. -/
def ofText (value : Text) : DeclaredSize :=
  if value.isEmpty || !value.all isAnyDigit then .unstated
  else
    let leading := value.takeWhile isDigit
    if Failure.maxDigits < leading.length then .tooLong leading.length
    else if value.all isDigit then .bytes (digitsValue value)
    else .noNumber value

/-- Why a size cannot be judged, if it cannot. -/
def failure? : DeclaredSize → Option Failure
  | unstated | bytes _ => none
  | noNumber text => some (.noNumber text)
  | tooLong digits => some (.numberTooLong digits)

/-- The size is stated and above a limit. -/
def exceeds (limit : Int) : DeclaredSize → Bool
  | bytes n => limit < n
  | _ => false

end DeclaredSize

/-- What the size limit makes of a request. -/
inductive SizeJudgement
  | pass
  | tooLarge
  | failure (cause : Failure)
  deriving DecidableEq, Repr

namespace SizeLimit

/-- The methods of requests that send something. -/
def sendingMethods : List Text := ["POST".toList, "PUT".toList, "PATCH".toList]

/-- The size that a request declares. -/
def declared (r : Request) : DeclaredSize :=
  match r.header? "content-length".toList with
  | some value => .ofText value
  | none => .unstated

/-- Whether a request may pass under a limit on the number of bytes. -/
def judge (limit : Int) (r : Request) : SizeJudgement :=
  if sendingMethods.contains r.method then
    match (declared r).failure? with
    | some cause => .failure cause
    | none => if (declared r).exceeds limit then .tooLarge else .pass
  else .pass

end SizeLimit

end ComplexityGauge
