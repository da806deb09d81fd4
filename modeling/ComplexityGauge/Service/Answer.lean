import ComplexityGauge.Analyzer
import ComplexityGauge.Launch
import ComplexityGauge.Record.Result
import ComplexityGauge.Service.Cors
import ComplexityGauge.Service.Payload
import ComplexityGauge.Service.Route
import ComplexityGauge.Service.SizeLimit

/-!
# The service

How the service answers. A request passes through layers: questions of browsers are answered
first, then the declared size is judged, and only then is the path looked at. The answer depends
on the request and the settings, and on the counters only where it shows them.

## Main definitions

* `Service.answer` — the outcome of one request
* `Service.run` — the outcomes of a sequence of requests
* `Service.startEntries`, `Service.stopEntries` — what is noted at the start and at the end
-/

namespace ComplexityGauge

open Text

/-- The result of an analysis as it is shown. -/
def DisplayResult.ofAnalysis (a : Analysis) (language : Language) (now : Text) : DisplayResult where
  timeLabel := .ofText a.time.label
  spaceLabel := .ofText a.space.label
  timeExplanation := .ofText a.timeExplanation
  spaceExplanation := .ofText a.spaceExplanation
  report := .ofText a.report
  timeRating := a.timeRating
  spaceRating := .ofSpace
  language := .ofText language.name
  timestamp := some (.ofText now)

namespace Service

/-- The version of the service. -/
def version : Text := "1.0.0".toList

/-! ### Answers without a payload -/

/-- What the root of the service shows. -/
def overview : Json :=
  .object [("name".toList, .text "Complexity Analyzer API".toList),
    ("version".toList, .text version),
    ("endpoints".toList, .object [
      ("/analyze".toList, .text "POST - Analyze code complexity".toList),
      ("/export".toList, .text "POST - Render a result as plain text".toList),
      ("/examples/\x7blanguage\x7d".toList, .text "GET - Example snippet".toList),
      ("/health".toList, .text "GET - Health check".toList)])]

/-- What the service shows about its health. -/
def health (now : Text) : Json :=
  .object [("status".toList, .text "ok".toList), ("version".toList, .text version),
    ("timestamp".toList, .text now)]

/-- What the service shows about its counters. -/
def metrics (c : Counters) (now : Text) : Json :=
  .object [("success".toList, .bool true),
    ("metrics".toList, .object [("requests_total".toList, .int c.analysed),
      ("requests_failed".toList, .int c.failed), ("validation_errors".toList, .int c.refused)]),
    ("timestamp".toList, .text now)]

/-- The list of languages with an example. -/
def exampleList : Json :=
  .object [("languages".toList, .array (Language.withExample.map fun l => .text l.name)),
    ("default".toList, .text Language.defaultExample.name)]

/-- The example for a language given by name. -/
def exampleReply (t : Text) : ExampleReply :=
  let l := Language.ofExampleName t
  { language := .ofText l.name, code := .ofText (exampleFor l.name) }

/-! ### Answers to a payload -/

/-- The place of a problem as log entries show it. -/
def shownPlace : Place → Text
  | .field name => ['\''] ++ name ++ ['\'']
  | .index n => ofNat n

/-- A problem as log entries show it: the last step to its place, and its kind. -/
def shownProblem (p : Problem) : Text :=
  let place := (p.path.getLast?.map shownPlace).getD "'unknown'".toList
  "\x7b'field': ".toList ++ place ++ ", 'type': '".toList ++ p.cause.kind ++ "'\x7d".toList

/-- The entry on a request that was refused for what it sent. At most five problems are shown. -/
def refusedEntry (r : Request) (problems : List Problem) : LogEntry where
  level := .warning
  source := .service
  message := "Validation error on ".toList ++ r.method ++ [' '] ++ r.shownPath ++ ": [".toList ++
    ", ".toList.intercalate ((problems.take 5).map shownProblem) ++ [']']

/-- The entry on a request for an analysis. -/
def requestedEntry (r : AnalysisRequest) : LogEntry :=
  .info ("Analysis requested - ".toList ++ ofNat r.text.length ++ " chars, language=".toList ++
    r.language.name)

/-- The entry on a finished analysis. -/
def completedEntry (a : Analysis) : LogEntry :=
  .info ("Analysis completed - ".toList ++ LogEntry.classes a.time a.space)

/-- The outcome for a request refused for what it sent; the answer holds the first message. -/
def refused (c : Counters) (r : Request) (first : Problem) (more : List Problem) : Outcome where
  response :=
    .ofJson 422 (Response.failureWith "Invalid request format".toList first.cause.message)
  entries := [refusedEntry r (first :: more)]
  counters := { c with refused := c.refused + 1 }

/-- The outcome for a request whose body cannot be decoded. -/
def undecodable (c : Counters) : Outcome where
  response := .ofJson 400 (Response.detail "There was an error parsing the body")
  counters := c

/-- The outcome for an accepted request for an analysis. -/
def analyzed (c : Counters) (now : Text) (r : AnalysisRequest) : Outcome :=
  let (a, entries) := ({} : Analyzer).call r.text (some r.language.name)
  let result := DisplayResult.ofAnalysis a r.language now
  { response := .ofJson 200 (AnalysisReply.shape.toJson { result := result })
    entries := [requestedEntry r] ++ entries ++ [completedEntry a]
    counters := { c with analysed := c.analysed + 1 } }

/-- The outcome for an accepted request for a text to copy. A text with halves of surrogate pairs
cannot be sent. -/
def exported (c : Counters) (r : DisplayResult) : Except Failure Outcome :=
  match r.summary.firstHalves? with
  | none => .ok { response := .ofText 200 r.summary.shown, counters := c }
  | some (position, halves) => .error (.unsendable position halves)

/-- The outcome for a payload, given the outcome for a record that is accepted. -/
def ofPayload {α : Type} (c : Counters) (r : Request) (accepted : α → Except Failure Outcome) :
    Payload.Reading α → Except Failure Outcome
  | .undecodable => .ok (undecodable c)
  | .refused first more => .ok (refused c r first more)
  | .record value => accepted value

/-! ### Layers -/

/-- The outcome on a route, for the method that it accepts. -/
def onRoute (s : Settings) (c : Counters) (now : Text) (r : Request) :
    Route → Except Failure Outcome
  | .root => .ok { response := .ofJson 200 overview, counters := c }
  | .health => .ok { response := .ofJson 200 (health now), counters := c }
  | .metrics => .ok { response := .ofJson 200 (metrics c now), counters := c }
  | .analyze =>
    ofPayload c r (fun request => .ok (analyzed c now request))
      (Payload.read (AnalysisRequest.shape s.maxCodeLength) r)
  | .exportText => ofPayload c r (exported c) (Payload.read DisplayResult.shape r)
  | .snippets => .ok { response := .ofJson 200 exampleList, counters := c }
  | .snippet language =>
    .ok { response := .ofJson 200 (ExampleReply.shape.toJson (exampleReply language))
          counters := c }

/-- The outcome of a request that has passed the size limit. -/
def routed (s : Settings) (c : Counters) (now : Text) (r : Request) : Except Failure Outcome :=
  match Route.ofPath? r.path with
  | some route =>
    if r.method = route.method then onRoute s c now r route
    else
      .ok { response := .ofJson 405 (Response.detail "Method Not Allowed")
              [("allow".toList, route.method)]
            counters := c }
  | none => match Route.redirection? r.path with
    | some path => .ok { response := .redirect (Route.address r path), counters := c }
    | none => .ok { response := .ofJson 404 (Response.detail "Not Found"), counters := c }

/-- The headers that tell browsers to be careful with a response. -/
def securityHeaders : List (Text × Text) :=
  [("x-content-type-options".toList, "nosniff".toList), ("x-frame-options".toList, "DENY".toList),
    ("referrer-policy".toList, "strict-origin-when-cross-origin".toList)]

/-- The outcome with more headers on its response. -/
def withHeaders (o : Outcome) (headers : List (Text × Text)) : Outcome :=
  { o with response := o.response.withHeaders headers }

/-- The response to a request whose declared size is above the limit. -/
def tooLarge (limit : Int) : Response :=
  .ofJson 413 (Response.failureWith "request_too_large".toList
    ("Request body exceeds ".toList ++ ofInt limit ++ " bytes".toList))

/-- The entry on a request that the service could not deal with. -/
def failedEntry (r : Request) (cause : Failure) : LogEntry where
  level := .error
  source := .service
  message := "Unhandled exception on ".toList ++ r.method ++ [' '] ++ r.shownPath ++
    ": ".toList ++ cause.kind ++ ": ".toList ++ cause.message.take 200

/-- The outcome for a request that the service could not deal with. -/
def failed (c : Counters) (r : Request) (cause : Failure) : Outcome where
  response := .ofJson 500 (Response.failure "Internal server error".toList)
  entries := [failedEntry r cause]
  counters := { c with failed := c.failed + 1 }

/-- The outcome of one request at the time `now`, given the counters before it. -/
def answer (s : Settings) (now : Text) (c : Counters) (r : Request) : Outcome :=
  match Cors.preflight? s.origins r with
  | some response => { response := response, counters := c }
  | none =>
    let cors := Cors.headers s.origins (r.header? "origin".toList)
    match SizeLimit.judge s.maxRequestSize r with
    | .failure cause => failed c r cause
    | .tooLarge =>
      withHeaders { response := tooLarge s.maxRequestSize, counters := c } cors
    | .pass => match routed s c now r with
      | .ok o => withHeaders (withHeaders o securityHeaders) cors
      | .error cause => failed c r cause

/-- The outcomes of requests one after the other. -/
def run (s : Settings) (now : Text) : Counters → List Request → List Outcome
  | _, [] => []
  | c, r :: rest =>
    let o := answer s now c r
    o :: run s now o.counters rest

/-! ### Start and end -/

/-- What the service notes at its start. -/
def startEntries (s : Settings) : List LogEntry :=
  [.info ("Complexity Analyzer v".toList ++ version ++ " starting".toList),
    .info ("Server: ".toList ++ s.address)] ++
    if s.delay.isPositive then
      [.info ("Simulated analysis delay: ".toList ++ delayText s.delay)]
    else []

/-- What the service notes at its end. -/
def stopEntries : List LogEntry := [.info "Shutting down...".toList]

end Service

end ComplexityGauge
