import ComplexityGauge.Text.Utf8
import ComplexityGauge.Text.Wide

/-!
# Encodings

The five ways in which bytes may write a JSON text. A byte order mark at the start tells which one
it is. Without a mark the zero bytes tell, because a JSON text starts with ASCII characters.

## Main definitions

* `Encoding`, `Encoding.ofBytes` — the encodings, and the one that bytes are in
* `Encoding.decode?` — the wide text that bytes write
-/

namespace ComplexityGauge

/-- Which byte of a code unit comes first. -/
inductive ByteOrder | big | little
  deriving DecidableEq, Repr

/-- How bytes write code points. -/
inductive Encoding
  | utf8
  | utf16 (order : ByteOrder)
  | utf32 (order : ByteOrder)
  deriving DecidableEq, Repr

namespace ByteOrder

/-- The number that bytes write. -/
def number (order : ByteOrder) (bytes : List UInt8) : Nat :=
  let first := match order with
    | big => bytes
    | little => bytes.reverse
  first.foldl (fun n b => 256 * n + b.toNat) 0

/-- Bytes as numbers of two bytes. -/
def pairs? (order : ByteOrder) : List UInt8 → Option (List Nat)
  | [] => some []
  | a :: b :: rest => (order.pairs? rest).map (order.number [a, b] :: ·)
  | [_] => none

/-- Bytes as numbers of four bytes. -/
def quads? (order : ByteOrder) : List UInt8 → Option (List Nat)
  | [] => some []
  | a :: b :: c :: d :: rest => (order.quads? rest).map (order.number [a, b, c, d] :: ·)
  | _ => none

end ByteOrder

namespace Encoding

/-- The byte order marks; the longer of two that start alike comes first. -/
def marks : List (List UInt8 × Encoding) :=
  [([0x00, 0x00, 0xFE, 0xFF], utf32 .big), ([0xFF, 0xFE, 0x00, 0x00], utf32 .little),
    ([0xFE, 0xFF], utf16 .big), ([0xFF, 0xFE], utf16 .little), ([0xEF, 0xBB, 0xBF], utf8)]

/-- The encoding of bytes without a mark. -/
def unmarked : List UInt8 → Encoding
  | a :: b :: c :: d :: _ =>
    if a = 0 then if b = 0 then utf32 .big else utf16 .big
    else if b = 0 then if c = 0 && d = 0 then utf32 .little else utf16 .little
    else utf8
  | [a, b] => if a = 0 then utf16 .big else if b = 0 then utf16 .little else utf8
  | _ => utf8

/-- The encoding of bytes, and the bytes behind their mark. -/
def ofBytes (bytes : List UInt8) : Encoding × List UInt8 :=
  match marks.find? fun m => m.1.isPrefixOf bytes with
  | some m => (m.2, bytes.drop m.1.length)
  | none => (unmarked bytes, bytes)

/-- The symbols of 16-bit code units; two halves side by side write one character. -/
def joinUnits : List Nat → WideText
  | [] => []
  | [unit] => [.ofCode unit]
  | high :: low :: rest => match Symbol.joined? high low with
    | some c => .char c :: joinUnits rest
    | none => .ofCode high :: joinUnits (low :: rest)

/-- The largest code point. -/
def maxCode : Nat := 0x10FFFF

/-- The wide text that bytes write in an encoding. -/
def symbols? : Encoding → List UInt8 → Option WideText
  | utf8, bytes => (Utf8.codes? bytes).map fun codes => codes.map .ofCode
  | utf16 order, bytes => (order.pairs? bytes).map joinUnits
  | utf32 order, bytes => match order.quads? bytes with
    | some codes => if codes.all (· ≤ maxCode) then some (codes.map .ofCode) else none
    | none => none

/-- The wide text that bytes write, in the encoding that they are found to be in. -/
def decode? (bytes : List UInt8) : Option WideText :=
  symbols? (ofBytes bytes).1 (ofBytes bytes).2

end Encoding

end ComplexityGauge
