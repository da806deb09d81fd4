import ComplexityGauge.Service.Request
import ComplexityGauge.Service.Response
import ComplexityGauge.Settings.Origins

/-!
# Cross-origin requests

Browsers ask whether a page of one origin may use a service of another. A question asked ahead of
a request is answered at once, for any path; on every other response headers tell the browser
whether the page may see it.

## Main definitions

* `Cors.preflight?` — the answer to a question asked ahead
* `Cors.headers` — what is added to every other response
-/

namespace ComplexityGauge.Cors

open Text

/-- The methods that pages of other origins may use. -/
def allowedMethods : List Text := ["GET".toList, "POST".toList, "OPTIONS".toList]

/-- The header that names the origin a response may be shown to. -/
def originHeader : Text := "access-control-allow-origin".toList

/-- The header that allows a page to send credentials; only listed origins may. -/
def credentialHeaders (origins : List Text) : List (Text × Text) :=
  if Origins.allowAll origins then []
  else [("access-control-allow-credentials".toList, "true".toList)]

/-- The header that allows the origin, if it is allowed: all origins by a star, a listed one by
its name. A cookie on the request makes no difference: the star stays a star. -/
def originHeaders (origins : List Text) (origin : Text) : List (Text × Text) :=
  if Origins.allowAll origins then [(originHeader, Origins.star)]
  else if Origins.allows origins origin then [(originHeader, origin)]
  else []

/-- What is added to a response other than the answer to a question asked ahead. -/
def headers (origins : List Text) (origin : Option Text) : List (Text × Text) :=
  ("vary".toList, "Origin".toList) :: match origin with
    | none => []
    | some origin => credentialHeaders origins ++ originHeaders origins origin

/-- The headers of the answer to a question asked ahead. -/
def preflightHeaders (origins : List Text) (origin : Text) (requested : Option Text) :
    List (Text × Text) :=
  [("access-control-allow-methods".toList, ", ".toList.intercalate allowedMethods),
    ("access-control-max-age".toList, "600".toList),
    ("vary".toList, ("Origin, Access-Control-Request-Method, Access-Control-Request-Headers, " ++
      "Access-Control-Request-Private-Network").toList)] ++
    credentialHeaders origins ++ originHeaders origins origin ++
    match requested with
    | some names => [("access-control-allow-headers".toList, names)]
    | none => []

/-- What a question asked ahead about an origin and a method is refused for. Access across private
networks is never granted. -/
def refusals (origins : List Text) (origin method : Text) (privateNetwork : Bool) : List Text :=
  (if Origins.allows origins origin then [] else ["origin".toList]) ++
    (if allowedMethods.contains method then [] else ["method".toList]) ++
    (if privateNetwork then ["private-network".toList] else [])

/-- The answer to a question asked ahead, given what it is refused for. -/
def preflight (refused : List Text) (headers : List (Text × Text)) : Response :=
  match refused with
  | [] => .ofText 200 "OK".toList headers
  | _ => .ofText 400 ("Disallowed CORS ".toList ++ ", ".toList.intercalate refused) headers

/-- The answer to a request, if it is a question asked ahead. -/
def preflight? (origins : List Text) (r : Request) : Option Response :=
  if r.method = "OPTIONS".toList then
    match r.header? "origin".toList, r.header? "access-control-request-method".toList with
    | some origin, some method =>
      let privateNetwork := (r.header? "access-control-request-private-network".toList).isSome
      some (preflight (refusals origins origin method privateNetwork)
        (preflightHeaders origins origin (r.header? "access-control-request-headers".toList)))
    | _, _ => none
  else none

end ComplexityGauge.Cors
