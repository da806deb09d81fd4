import ComplexityGauge.Json.Value

/-!
# Failures

Why the service could not deal with a request. A client is only told that its request failed; the
log says more.

## Main definitions

* `Failure` — the causes
* `Failure.kind`, `Failure.message` — a cause as log entries show it
-/

namespace ComplexityGauge

open Text

/-- Why the service could not deal with a request. -/
inductive Failure
  /-- The digits that declare a size write no number. -/
  | noNumber (digits : Text)
  /-- A declared size has more digits than are computed. -/
  | numberTooLong (digits : Nat)
  /-- The text of a response cannot be sent, because from a position on halves of surrogate pairs
  stand in it. -/
  | unsendable (position : Nat) (halves : List Nat)
  deriving DecidableEq, Repr

namespace Failure

/-- The largest number of digits that is computed. -/
def maxDigits : Nat := 4300

/-- The kind of a failure. -/
def kind : Failure → Text
  | noNumber _ | numberTooLong _ => "ValueError".toList
  | unsendable _ _ => "UnicodeEncodeError".toList

/-- The run of halves that starts at a position: a single one with its number, and several with
the position of the last one. -/
def shownHalves (position : Nat) : List Nat → Text
  | [half] =>
    "character '\\u".toList ++ Nat.toDigits 16 half ++ "' in position ".toList ++ ofNat position
  | halves =>
    "characters in position ".toList ++ ofNat position ++ ['-'] ++
      ofNat (position + halves.length - 1)

/-- What a failure is about. -/
def message : Failure → Text
  | noNumber digits => "invalid literal for int() with base 10: '".toList ++ digits ++ ['\'']
  | numberTooLong digits => "Exceeds the limit (".toList ++ ofNat maxDigits ++
      " digits) for integer string conversion: value has ".toList ++ ofNat digits ++
      " digits; use sys.set_int_max_str_digits() to increase the limit".toList
  | unsendable position halves => "'utf-8' codec can't encode ".toList ++
      shownHalves position halves ++ ": surrogates not allowed".toList

end Failure

end ComplexityGauge
