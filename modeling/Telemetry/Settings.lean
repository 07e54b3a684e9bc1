import Telemetry.Assignment
import Telemetry.Reading

/-!
# Settings

Five settings, read from environment variables and from a file of assignments, the variables first.
Names are matched without regard to case and carry a common beginning; unknown names are ignored.
All settings that cannot be read are reported at once.
-/

namespace Telemetry

/-- The lowest severity that is logged. -/
inductive LogLevel where
  | debug
  | info
  | warning
  | error
  deriving DecidableEq

namespace LogLevel

/-- The name of a level. -/
def name : LogLevel → Text
  | debug => "debug"
  | info => "info"
  | warning => "warning"
  | error => "error"

/-- All levels. -/
def all : List LogLevel := [debug, info, warning, error]

end LogLevel

/-- Which sink a service has unless it is given one. -/
inductive SinkAdapter where
  | memory
  | log
  deriving DecidableEq

namespace SinkAdapter

/-- The name of an adapter. -/
def name : SinkAdapter → Text
  | memory => "memory"
  | log => "log"

/-- All adapters. -/
def all : List SinkAdapter := [memory, log]

end SinkAdapter

/-- The settings. -/
structure Settings where
  /-- The name of the deployment environment. -/
  environment : Text
  logJson : Bool
  logLevel : LogLevel
  sinkAdapter : SinkAdapter
  /-- The number of events that the default sink holds. -/
  sinkBufferSize : Int
  deriving DecidableEq

/-- What settings are read from. -/
structure Environment where
  /-- Environment variables with their values. -/
  vars : List (Text × Text)
  /-- The text of the file of assignments, if there is one. -/
  dotenv : Option Text

namespace Environment

/-- What the names of all settings begin with, in lower case. -/
def nameStart : Text := "custom_events_"

/-- What stands last under a name in any case of letters. -/
def last? {α : Type} (entries : List (Text × α)) (name : Text) : Option α :=
  (entries.reverse.find? fun e => e.1.foldCase == name).map Prod.snd

/-- The text of a setting: that of its variable, else that of the file. -/
def value? (e : Environment) (setting : Text) : Option Text :=
  let name := nameStart ++ setting.foldCase
  (last? e.vars name).orElse fun _ =>
    e.dotenv.bind fun t => (last? (Assignment.table e.vars t).entries name).join

end Environment

namespace Settings

/-- The settings where nothing is set. -/
def defaults : Settings := ⟨"dev", true, .info, .memory, 1000⟩

/-- Reads one of some texts, as it is written. -/
def readChoice {α : Type} (all : List α) (name : α → Text) (t : Text) : Except ProblemKind α :=
  match all.find? fun a => name a == t with
  | some a => .ok a
  | none => .error (.notAmong (all.map name))

/-- A setting: its text read, or the default. -/
def setting {α : Type} (e : Environment) (name : Text) (default : α)
    (read : Text → Except ProblemKind α) : Except Problem α :=
  match e.value? name with
  | none => .ok default
  | some t => (read t).mapError fun kind => ⟨[name], kind⟩

/-- Reads the settings, or reports all that cannot be read. -/
def load (e : Environment) : Except (List Problem) Settings :=
  let environment := setting e "ENV" defaults.environment .ok
  let logJson := setting e "LOG_JSON" defaults.logJson Reading.boolText
  let logLevel := setting e "LOG_LEVEL" defaults.logLevel (readChoice LogLevel.all LogLevel.name)
  let sinkAdapter :=
    setting e "SINK_ADAPTER" defaults.sinkAdapter (readChoice SinkAdapter.all SinkAdapter.name)
  let sinkBufferSize := setting e "SINK_BUFFER_SIZE" defaults.sinkBufferSize Reading.intText
  match environment, logJson, logLevel, sinkAdapter, sinkBufferSize with
  | .ok environment, .ok logJson, .ok logLevel, .ok sinkAdapter, .ok sinkBufferSize =>
    .ok { environment, logJson, logLevel, sinkAdapter, sinkBufferSize }
  | environment, logJson, logLevel, sinkAdapter, sinkBufferSize =>
    .error <| [Problem.of? environment, Problem.of? logJson, Problem.of? logLevel,
      Problem.of? sinkAdapter, Problem.of? sinkBufferSize].filterMap id

end Settings

end Telemetry
