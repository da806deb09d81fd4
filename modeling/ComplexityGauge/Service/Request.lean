import ComplexityGauge.Text.Percent

/-!
# Requests

A request as it reaches the service. Header names are in lowercase and keep their order; of
several headers with one name the first one counts.

## Main definitions

* `Request` — method, path, query, headers and body
* `Request.ofTarget` — the request for an address as it stands in the request line
* `Request.header?` — the value of a header
* `Request.addressPath` — a path as it stands in an address
-/

namespace ComplexityGauge

open Text

/-- A request. The path has its percent triples resolved, the query keeps them. -/
structure Request where
  method : Text
  host : Text
  path : Text
  query : Text := []
  headers : List (Text × Text) := []
  body : List UInt8 := []
  deriving DecidableEq, Repr

namespace Request

/-- The request for a target: everything before the first question mark is the path. -/
def ofTarget (method host target : Text) (headers : List (Text × Text)) (body : List UInt8) :
    Request where
  method := method
  host := host
  path := Percent.decode (target.takeWhile (· ≠ '?'))
  query := (target.dropWhile (· ≠ '?')).drop 1
  headers := headers
  body := body

/-- The value of the first header of that name. -/
def header? (r : Request) (name : Text) : Option Text :=
  (r.headers.find? fun h => h.1 == name).map Prod.snd

/-- A character of a path as it stands in an address, where a question mark or a number sign would
end the path, and a backslash could be taken for a slash. -/
def addressChar (c : Char) : Text :=
  if c = '?' || c = '#' || c = '\\' then Percent.encode (fun _ => false) [c] else [c]

/-- A path as it stands in an address, where it starts with a slash unless it is empty. -/
def addressPath (path : Text) : Text :=
  (if path.isEmpty || path.head? = some '/' then path else '/' :: path).flatMap addressChar

/-- The path as log entries show it, as in an address but without tabs and line ends. -/
def shownPath (r : Request) : Text :=
  (addressPath r.path).filter fun c => c ≠ '\t' && c ≠ '\n' && c ≠ '\r'

end Request

end ComplexityGauge
