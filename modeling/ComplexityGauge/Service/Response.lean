import ComplexityGauge.Json.Value
import ComplexityGauge.Log
import ComplexityGauge.Record.Message

/-!
# Responses

What the service answers, and the counters that it keeps over all requests.

## Main definitions

* `Body`, `Response` — an answer
* `Counters` — what the service counts
* `Outcome` — a response, the log entries on the way to it, and the counters afterwards
-/

namespace ComplexityGauge

open Text

/-- What a response carries. -/
inductive Body
  | json (value : Json)
  | text (value : Text)

/-- A response. -/
structure Response where
  status : Nat
  headers : List (Text × Text)
  body : Body

/-- How many requests were analysed, failed, or were refused for what they sent. -/
structure Counters where
  analysed : Nat := 0
  failed : Nat := 0
  refused : Nat := 0
  deriving DecidableEq, Repr

/-- A response, what was noted on the way to it, and the counters afterwards. -/
structure Outcome where
  response : Response
  entries : List LogEntry := []
  counters : Counters

namespace Response

/-- The name of the header that tells the kind of a body. -/
def contentType : Text := "content-type".toList

/-- A response that carries a value. -/
def ofJson (status : Nat) (value : Json) (headers : List (Text × Text) := []) : Response where
  status := status
  headers := (contentType, "application/json".toList) :: headers
  body := .json value

/-- A response that carries a text. -/
def ofText (status : Nat) (value : Text) (headers : List (Text × Text) := []) : Response where
  status := status
  headers := (contentType, "text/plain; charset=utf-8".toList) :: headers
  body := .text value

/-- The response that sends a client to another address. -/
def redirect (location : Text) : Response where
  status := 307
  headers := [("location".toList, location)]
  body := .text []

/-- The response with more headers. -/
def withHeaders (r : Response) (headers : List (Text × Text)) : Response :=
  { r with headers := r.headers ++ headers }

/-- The value that tells a client what is wrong with its request. -/
def detail (message : String) : Json := .object [("detail".toList, .text message.toList)]

/-- The members that tell a client that its request failed. -/
def failureMembers (error : Text) : List (Text × Json) :=
  [("success".toList, .bool false), ("state".toList, AnalysisState.field.write .error),
    ("error".toList, .text error)]

/-- The value that tells a client that its request failed. -/
def failure (error : Text) : Json := .object (failureMembers error)

/-- The value that tells a client that its request failed, with details. -/
def failureWith (error details : Text) : Json :=
  .object (failureMembers error ++ [("details".toList, .text details)])

end Response

end ComplexityGauge
