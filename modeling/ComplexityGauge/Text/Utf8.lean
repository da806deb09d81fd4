import ComplexityGauge.Text.Basic

/-!
# UTF-8

Texts as bytes, and bytes as code points. Bytes are read by a machine that knows how many bytes of
the current code point are still to come. Where bytes are no UTF-8, they fall into ill-formed
pieces, each as long as it could still have been the start of a code point; a strict reading
refuses them and a lossy one puts a replacement character for each. Surrogates are code points
that no character has, and a reading may admit them or not.

## Main definitions

* `Utf8.encode` — the bytes of a text
* `Utf8.Pending`, `Utf8.step` — the machine and its reaction to one byte
* `Utf8.pieces` — bytes as code points and ill-formed pieces
* `Utf8.codes?`, `Utf8.decodeLossy` — the strict and the lossy reading
-/

namespace ComplexityGauge.Utf8

/-- The bytes of a text. -/
def encode (t : Text) : List UInt8 := t.flatMap String.utf8EncodeChar

/-- A code point of which `tails` more bytes, one at least, are to come. The bits read so far are
`bits`, and the next byte lies between `low` and `high`. -/
structure Pending where
  bits : Nat
  tails : Nat
  low : Nat := 0x80
  high : Nat := 0xBF
  deriving DecidableEq, Repr

/-- Code points and, for ill-formed pieces, none; then the code point under way, if there is one. -/
abbrev Reaction := List (Option Nat) × Option Pending

/-- What the machine makes of a byte between code points. The narrower ranges of the second byte
keep out overlong forms, values beyond U+10FFFF and, unless they are admitted, surrogates. -/
def start (surrogates : Bool) (byte : Nat) : Reaction :=
  if byte < 0x80 then ([some byte], none)
  else if byte < 0xC2 then ([none], none)
  else if byte < 0xE0 then ([], some { bits := byte - 0xC0, tails := 1 })
  else if byte = 0xE0 then ([], some { bits := 0, tails := 2, low := 0xA0 })
  else if byte = 0xED && !surrogates then ([], some { bits := 0xD, tails := 2, high := 0x9F })
  else if byte < 0xF0 then ([], some { bits := byte - 0xE0, tails := 2 })
  else if byte = 0xF0 then ([], some { bits := 0, tails := 3, low := 0x90 })
  else if byte < 0xF4 then ([], some { bits := byte - 0xF0, tails := 3 })
  else if byte = 0xF4 then ([], some { bits := 4, tails := 3, high := 0x8F })
  else ([none], none)

/-- What the machine makes of the next byte. A byte that cannot go on with the code point under
way ends it and is taken as the start of another. -/
def step (surrogates : Bool) : Option Pending → Nat → Reaction
  | none, byte => start surrogates byte
  | some p, byte =>
    if p.low ≤ byte && byte ≤ p.high then
      let bits := p.bits * 64 + (byte - 0x80)
      if p.tails ≤ 1 then ([some bits], none)
      else ([], some { bits := bits, tails := p.tails - 1 })
    else (none :: (start surrogates byte).1, (start surrogates byte).2)

/-- Bytes cut into code points and ill-formed pieces, when a code point is under way. -/
def piecesFrom (surrogates : Bool) : Option Pending → List UInt8 → List (Option Nat)
  | none, [] => []
  | some _, [] => [none]
  | p, byte :: rest =>
    (step surrogates p byte.toNat).1 ++
      piecesFrom surrogates (step surrogates p byte.toNat).2 rest

/-- Bytes cut into code points and, for each ill-formed piece, none. -/
def pieces (surrogates : Bool) (bytes : List UInt8) : List (Option Nat) :=
  piecesFrom surrogates none bytes

/-- The code points that well-formed bytes write, surrogates admitted. -/
def codes? (bytes : List UInt8) : Option (List Nat) := (pieces true bytes).mapM id

/-- The text of any bytes, with U+FFFD in the place of each ill-formed piece. -/
def decodeLossy (bytes : List UInt8) : Text :=
  (pieces false bytes).map fun
    | some code => Char.ofNat code
    | none => '\uFFFD'

end ComplexityGauge.Utf8
