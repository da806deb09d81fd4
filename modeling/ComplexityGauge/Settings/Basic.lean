import ComplexityGauge.Log
import ComplexityGauge.Record.Field
import ComplexityGauge.Settings.EnvFile
import ComplexityGauge.Settings.Origins

/-!
# Settings

The settings of the service. Each has a name and a default and is taken from the environment, or
from an environment file where the environment does not set it. Names are compared without regard
to letter case, and an empty value is a value.

## Main definitions

* `Settings` — the settings
* `Settings.ofVariables` — the settings that an environment and a file give
* `Settings.origins` — the origins that the settings allow
-/

namespace ComplexityGauge

open Text

/-- The settings of the service. -/
structure Settings where
  host : Text := "0.0.0.0".toList
  portNumber : Int := 8080
  debug : Bool := false
  logLevel : LogLevel := .info
  allowedOrigins : Text := Origins.star
  maxRequestSize : Int := 1048576
  maxCodeLength : Int := 50000
  delay : Binary64 := .zero
  deriving DecidableEq, Repr

/-- The value of a variable, found by its name in lowercase; of several the last one counts. -/
def Variables.value? (vars : Variables) (name : Text) : Option Text :=
  (vars.reverse.find? fun v => lower v.1 == lower name).bind Prod.snd

namespace Settings

/-- The delay that a text writes: any number from zero on, perhaps infinite. -/
def readDelay (t : Text) : Validated Binary64 :=
  match Numeral.real? t with
  | some x => if x.isNonnegative then .valid x else .refuse .negative
  | none => .refuse .unreadableNumber

/-- The field that holds a log level, by its exact name. -/
def logLevelField : Field LogLevel := .word LogLevel.all LogLevel.name .notListed

/-- The settings that an environment gives, and a file where the environment is silent. -/
def ofVariables (environment file : Variables) : Validated Settings :=
  let setting {α : Type} (name : String) (read : Text → Validated α) (default : α) :
      Validated α :=
    match (environment.value? name.toList).or (file.value? name.toList) with
    | some t => (read t).within (.field name.toList)
    | none => .valid default
  Settings.mk
    <$> setting "HOST" .valid "0.0.0.0".toList
    <*> setting "PORT" Field.integerOfText 8080
    <*> setting "DEBUG" Field.flagOfText false
    <*> setting "LOG_LEVEL" (fun t => logLevelField.read (.text t)) .info
    <*> setting "ALLOWED_ORIGINS" .valid Origins.star
    <*> setting "MAX_REQUEST_SIZE" Field.integerOfText 1048576
    <*> setting "MAX_CODE_LENGTH" Field.integerOfText 50000
    <*> setting "SIMULATED_DELAY_SECONDS" readDelay .zero

/-- The settings of an environment and, if there is one, an environment file. -/
def load (environment : Variables) (file : Option Text) : Validated Settings :=
  ofVariables environment ((file.map (EnvFile.read environment)).getD [])

/-- The origins that the settings allow. -/
def origins (s : Settings) : List Text := Origins.ofText s.allowedOrigins

/-- The lines that entries leave in the log. -/
def logLines (s : Settings) (entries : List LogEntry) : List Text :=
  (entries.filter (·.kept s.logLevel)).map LogEntry.line

end Settings

end ComplexityGauge
