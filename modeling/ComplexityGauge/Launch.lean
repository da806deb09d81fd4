import ComplexityGauge.Settings.Basic

/-!
# Launching the service

What the service does when it is started from the command line: it notes where it will listen and
hands its settings to the web server.

## Main definitions

* `Launch` — what the web server is told
* `Launch.ofSettings`, `Launch.entries` — the launch that settings ask for, and what it notes
* `delayText` — a delay as log entries show it
-/

namespace ComplexityGauge

open Text

/-- What the web server is told. -/
structure Launch where
  host : Text
  portNumber : Int
  reload : Bool
  logLevel : Text
  deriving DecidableEq, Repr

/-- The place where the service listens, as log entries show it. -/
def Settings.address (s : Settings) : Text := s.host ++ [':'] ++ ofInt s.portNumber

/-- A delay as log entries show it, in seconds with two places. -/
def delayText (delay : Binary64) : Text := delay.fixedText ++ ['s']

namespace Launch

/-- The launch that settings ask for. -/
def ofSettings (s : Settings) : Launch where
  host := s.host
  portNumber := s.portNumber
  reload := s.debug
  logLevel := lower s.logLevel.name

/-- What a launch notes. -/
def entries (s : Settings) : List LogEntry :=
  [.info ("Starting Complexity Analyzer on ".toList ++ s.address),
    .info (if s.delay.isPositive then
        "Each analysis is delayed by ".toList ++ delayText s.delay
      else "Simulated analysis delay disabled".toList)]

end Launch

end ComplexityGauge
