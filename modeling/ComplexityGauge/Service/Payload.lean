import ComplexityGauge.Json.Reader
import ComplexityGauge.Record.Field
import ComplexityGauge.Service.Request
import ComplexityGauge.Text.Encoding

/-!
# Payloads

From the bytes that a request sends to the record that they write. Bytes count as JSON only if
the request says that they are, and everything else than an object is refused.

## Main definitions

* `Payload.isJsonType` — the content types that stand for JSON
* `Payload.Reading`, `Payload.read` — the record in the body of a request, or why there is none
-/

namespace ComplexityGauge.Payload

open Text

/-- The content type stands for JSON: it is `application/json` or ends in `+json`, whatever its
parameters. -/
def isJsonType (value : Text) : Bool :=
  match (normalize (value.takeWhile (· ≠ ';'))).splitOn '/' with
  | [main, sub] =>
    main = "application".toList && (sub = "json".toList || "+json".toList.isSuffixOf sub)
  | _ => false

/-- What the body of a request turned out to be. -/
inductive Reading (α : Type)
  /-- Bytes that write no text in their encoding, or a text with an integer or a nesting beyond
  the limits. -/
  | undecodable
  | refused (first : Problem) (more : List Problem)
  | record (value : α)

/-- The place of the body in a request. -/
def place : Place := .field "body".toList

/-- A body refused as a whole. -/
def refusal {α : Type} (c : Cause) : Reading α := .refused ⟨[place], c⟩ []

/-- The record that a value writes. The value null is refused like every other one that is no
object; it does not count as a missing body. -/
def ofJson {α : Type} (shape : Shape α) : Json → Reading α
  | .object members => match (shape.read members).within place with
    | .valid value => .record value
    | .invalid first more => .refused first more
  | _ => refusal .notBodyObject

/-- The record that bytes write. -/
def ofBytes {α : Type} (shape : Shape α) (bytes : List UInt8) : Reading α :=
  match Encoding.decode? bytes with
  | none => .undecodable
  | some t => match Json.read t with
    | .ok value => ofJson shape value
    | .error (.malformed position) =>
      .refused ⟨[place, .index position], .malformedBody⟩ []
    | .error .oversizedInteger | .error .tooDeep => .undecodable

/-- The record in the body of a request. -/
def read {α : Type} (shape : Shape α) (r : Request) : Reading α :=
  if r.body.isEmpty then refusal .missing
  else match r.header? "content-type".toList with
    | some value => if isJsonType value then ofBytes shape r.body else refusal .notBodyObject
    | none => refusal .notBodyObject

end ComplexityGauge.Payload
