import ComplexityGauge.Text.Utf8

/-!
# Percent encoding

The form in which addresses carry characters that they may not hold: the bytes of the character
in UTF-8, each as a percent sign and two hexadecimal digits.

## Main definitions

* `Percent.decode` — a text with all such triples resolved
* `Percent.encode` — a text with all characters escaped that `plain` does not spare
-/

namespace ComplexityGauge.Percent

open Text

/-- The bytes that a text with percent triples writes. A percent sign without two hexadecimal
digits behind it stands for itself. -/
def bytes : Text → List UInt8
  | [] => []
  | '%' :: a :: b :: rest =>
    match hexValue? a, hexValue? b with
    | some high, some low => UInt8.ofNat (high * 16 + low) :: bytes rest
    | _, _ => 0x25 :: bytes (a :: b :: rest)
  | c :: rest => String.utf8EncodeChar c ++ bytes rest

/-- The text that a text with percent triples stands for. -/
def decode (t : Text) : Text := Utf8.decodeLossy (bytes t)

/-- A hexadecimal digit, capital from ten on. -/
def capitalHexDigit (n : Nat) : Char := Char.ofNat (if n < 10 then 48 + n else 55 + n)

/-- A byte as a percent triple. -/
def triple (byte : UInt8) : Text :=
  ['%', capitalHexDigit (byte.toNat / 16), capitalHexDigit (byte.toNat % 16)]

/-- The text with percent triples for all characters that are not plain. -/
def encode (plain : Char → Bool) (t : Text) : Text :=
  t.flatMap fun c => if plain c then [c] else (String.utf8EncodeChar c).flatMap triple

end ComplexityGauge.Percent
