import ComplexityGauge.Service.Request

/-!
# Routes

What the paths of the service stand for. Every route but the root can also be reached below
`/api/v1`. A line feed at the end of a path does not count.

The pages on which the service describes its own interface, `/docs`, `/docs/oauth2-redirect`,
`/redoc` and `/openapi.json`, are left out. They show nothing that a request has sent and change
nothing, and here they count as paths without a route.

## Main definitions

* `Route`, `Route.ofPath?` — the routes, and the route of a path
* `Route.method` — the only method that a route accepts
* `Route.redirection?` — the path with or without slashes at its end that has a route
-/

namespace ComplexityGauge

open Text

/-- What a path can stand for. -/
inductive Route
  | root
  | health
  | metrics
  | analyze
  | exportText
  | snippets
  | snippet (language : Text)
  deriving DecidableEq, Repr

namespace Route

/-- The prefix under which all routes but the root are offered once more. -/
def mount : Text := "/api/v1".toList

/-- The path before the name of a language. -/
def snippetPath : Text := "/examples/".toList

/-- The routes of fixed paths that are offered twice. -/
def fixed : List (Text × Route) :=
  [("/health".toList, health), ("/metrics".toList, metrics), ("/analyze".toList, analyze),
    ("/export".toList, exportText), ("/examples".toList, snippets)]

/-- The path without a line feed at its end. -/
def dropLineFeed (path : Text) : Text :=
  if path.getLast? = some '\n' then path.dropLast else path

/-- The route of a path below a mount. -/
def ofResource? (path : Text) : Option Route :=
  match fixed.find? fun f => f.1 == dropLineFeed path with
  | some f => some f.2
  | none => match after? snippetPath path with
    | some language =>
      if language.isEmpty || language.contains '/' then none else some (snippet language)
    | none => none

/-- The route of a path. -/
def ofPath? (path : Text) : Option Route :=
  if dropLineFeed path = ['/'] then some root
  else (ofResource? path).or ((after? mount path).bind ofResource?)

/-- The only method that a route accepts. -/
def method : Route → Text
  | analyze | exportText => "POST".toList
  | _ => "GET".toList

/-- The path to which a client is sent that asks for a path without a route: without the slashes
at its end, or with one more. -/
def redirection? (path : Text) : Option Text :=
  let other := if path.getLast? = some '/' then dropEndWhile (· == '/') path else path ++ ['/']
  if (ofPath? other).isSome then some other else none

/-- The characters that an address may hold as they are. -/
def isPlain (c : Char) : Bool :=
  isDigit c || ('a' ≤ c && c ≤ 'z') || ('A' ≤ c && c ≤ 'Z') ||
    "_.-~:/%#?=@[]!$&'()*+,;".toList.contains c

/-- The address of a path on the host of a request, with the query of the request. -/
def address (r : Request) (path : Text) : Text :=
  Percent.encode isPlain ("http://".toList ++ r.host ++ Request.addressPath path ++
    if r.query.isEmpty then [] else '?' :: r.query)

end Route

end ComplexityGauge
