import Telemetry.Datum.Key
import Telemetry.Journal
import Telemetry.Settings

/-!
# Log lines

A call of the logger becomes one JSON object, or nothing if it is not severe enough. Its entries are
those of the call; the context fills in what is missing, then the service and the deployment
environment do; time and severity are written over whatever the call says. `LogLine.image` is the
object as it is read back from the line: tuples have become lists, keys texts, and what JSON does
not know is shown as in a message. A call fails if a field has the name of an argument, and if the
line cannot be printed.
-/

namespace Telemetry

namespace LogLevel

/-- The severity of a level. -/
def severity : LogLevel → Severity
  | debug => .debug
  | info => .info
  | warning => .warning
  | error => .error

end LogLevel

/-- How log lines are made. -/
structure LogFormat where
  /-- The name of the service. -/
  service : Text
  /-- The deployment environment, if it is to be given. -/
  environment : Option Text
  /-- The rank of the least severity that is printed. -/
  threshold : Nat
  /-- Whether lines are JSON. -/
  json : Bool

namespace LogFormat

/-- The name of the service unless another is given. -/
def defaultService : Text := "custom-events"

/-- The code points beyond ASCII whose upper case is ASCII. -/
def asciiUpperCases : List (Nat × Text) :=
  [(0xDF, "SS"), (0x131, "I"), (0x17F, "S"), (0xFB00, "FF"), (0xFB01, "FI"), (0xFB02, "FL"),
    (0xFB03, "FFI"), (0xFB04, "FFL"), (0xFB05, "ST"), (0xFB06, "ST")]

/-- The upper case of a code point where that is ASCII, else the code point itself. -/
def upperCase (c : CodePoint) : Text :=
  if 97 ≤ c.val ∧ c.val ≤ 122 then [Fin.ofNat 0x110000 (c.val - 32)]
  else (asciiUpperCases.lookup c.val).getD [c]

/-- The ranks that have a name. -/
def namedRanks : List (Text × Nat) :=
  [("NOTSET", 0), ("DEBUG", 10), ("INFO", 20), ("WARNING", 30), ("WARN", 30), ("ERROR", 40),
    ("CRITICAL", 50), ("FATAL", 50)]

/-- The name that stands for the plain layout of a line. -/
def layoutName : Text := "BASIC_FORMAT"

/-- The plain layout of a line, which is no rank. -/
def layout : Text := "%(levelname)s:%(name)s:%(message)s"

/-- The name that stands for a dictionary of styles, which is no rank either. -/
def stylesName : Text := "_STYLES"

/--
The rank with a name in any case of letters; a name that stands for nothing gives that of `info`.
-/
def rankOf (level : Text) : Except Fault Nat :=
  let name := level.flatMap upperCase
  if name = layoutName then .error (.noRank layout)
  else if name = stylesName then .error (.unhashable (Datum.dict []).kindName)
  else .ok ((namedRanks.lookup name).getD 20)

/-- The JSON format with a level by its name. -/
def ofLevel (service level : Text) (environment : Option Text) : Except Fault LogFormat :=
  (rankOf level).map fun threshold => { service, environment, threshold, json := true }

/-- The format that settings ask for. -/
def ofSettings (s : Settings) : LogFormat where
  service := defaultService
  environment := some s.environment
  threshold := s.logLevel.severity.rank
  json := s.logJson

end LogFormat

namespace LogLine

/-- The entries of a line in the making. -/
abbrev Entries := List (Text × Datum)

/-- There is an entry under a key. -/
def has (key : Text) (entries : Entries) : Bool := entries.any fun e => e.1 == key

/-- Adds an entry unless there is one under the key. -/
def fillIn (key : Text) (value : Datum) (entries : Entries) : Entries :=
  if has key entries then entries else entries ++ [(key, value)]

/-- Sets an entry, in place if there is one under the key. -/
def set (key : Text) (value : Datum) (entries : Entries) : Entries :=
  if has key entries then entries.map fun e => if e.1 == key then (key, value) else e
  else entries ++ [(key, value)]

/-- Fills in the service, and the deployment environment if it is given. -/
def fillInService (service : Text) (environment : Option Text) (entries : Entries) : Entries :=
  let entries := fillIn "service" (.text service) entries
  match environment with
  | some name => fillIn "env" (.text name) entries
  | none => entries

/-- Fills in every entry of a context. -/
def fillInAll (context entries : Entries) : Entries :=
  context.foldl (fun entries e => fillIn e.1 e.2 entries) entries

/-- The keys that tell the place of the call; no entry of the caller stays under them. -/
def placeKeys : List Text := ["module", "function", "line"]

/-- The keys that ask for a stack or an exception, which are no entries themselves. -/
def requestKeys : List Text := ["stack_info", "exc_info"]

/-- The entries of a call as they go into a line, at a time. -/
def entriesOf (f : LogFormat) (time : Text) (context : Entries) (severity : Severity)
    (event : Datum) (fields : Entries) : Entries :=
  let entries := match event with
    | .null => fields
    | event => set "event" event fields
  let entries := fillInAll context entries
  let entries := fillInService f.service f.environment entries
  let entries := set "ts" (.text time) entries
  let entries := set "level" (.text severity.name) entries
  entries.filter fun e => !placeKeys.contains e.1 && !requestKeys.contains e.1

/-- A severity is printed. -/
def isPrinted (f : LogFormat) (severity : Severity) : Bool := decide (f.threshold ≤ severity.rank)

/-- The arguments of a call. -/
def callArguments : List Text := ["self", "event"]

/-- The argument of the function that a printed call is passed on to. -/
def passedArgument : Text := "method_name"

/-- Why a call with these fields fails before anything is made of it. -/
def refusal? (printed : Bool) (fields : Entries) : Option Fault :=
  let function : Text :=
    if printed then "_make_filtering_bound_logger.<locals>.make_method.<locals>.meth" else "_nop"
  match fields.find? fun e => callArguments.contains e.1 with
  | some e => some (.reservedField function e.1)
  | none =>
    if printed && has passedArgument fields then
      some (.reservedField "BoundLoggerBase._proxy_to_logger" passedArgument)
    else none

/-- The line of a call, at a time; nothing if the call is below the threshold. -/
def ofCall (f : LogFormat) (time : Text) (context : Entries) (severity : Severity) (event : Datum)
    (fields : Entries) : Except Fault (Option Entries) :=
  let printed := isPrinted f severity
  match refusal? printed fields with
  | some fault => .error fault
  | none => .ok (if printed then some (entriesOf f time context severity event fields) else none)

/-- The function that takes the call of an exception and passes it on as an error. -/
def exceptionFunction : Text := "exception"

/-- The line of the call of an exception, at a time. -/
def ofException (f : LogFormat) (time : Text) (context : Entries) (event : Datum)
    (fields : Entries) : Except Fault (Option Entries) :=
  match fields.find? fun e => callArguments.contains e.1 with
  | some e => .error (.reservedField exceptionFunction e.1)
  | none => ofCall f time context .error event fields

/-- The line of a journal entry, at a time. -/
def ofEntry (f : LogFormat) (time : Text) (e : Entry) : Option Entries :=
  if isPrinted f e.severity then some (entriesOf f time [] e.severity (.text e.event) e.fields)
  else none

/-- An integer in a line, if it can be written at all. -/
def imageInt (i : Int) : Except Fault Int := if Datum.isLongInt i then .error .longInt else .ok i

/-- A float as the key of an entry in a line. -/
def floatKey (x : Binary64) : Text :=
  if x.isFinite then x.text
  else if x.isNaN then "NaN"
  else if x.negative then "-Infinity"
  else "Infinity"

mutual

/-- A datum as it is read back from a line. -/
def image : Datum → Except Fault Datum
  | .text t => .ok (.text t.joinPairs)
  | .list items => (imageItems items).map Datum.list
  | .tuple items => (imageItems items).map Datum.list
  | .dict entries => (imageEntries entries).map fun entries => .dict (Datum.dictOf entries)
  | .null => .ok .null
  | .bool b => .ok (.bool b)
  | .int i => (imageInt i).map Datum.int
  | .float x => .ok (.float x.canonical)
  | d => .ok (.text d.quoted.joinPairs)

/-- Items as they are read back. -/
def imageItems : List Datum → Except Fault (List Datum)
  | [] => .ok []
  | d :: rest => do
    let d ← image d
    let rest ← imageItems rest
    return d :: rest

/-- Entries as they are read back: their keys are texts. -/
def imageEntries : List (Datum × Datum) → Except Fault (List (Datum × Datum))
  | [] => .ok []
  | (key, value) :: rest => do
    let key ← match key with
      | .text t => .ok t.joinPairs
      | .null => .ok "null"
      | .bool b => .ok (if b then "true" else "false")
      | .int i => (imageInt i).map Text.ofInt
      | .float x => .ok (floatKey x)
      | d => .error (.logKey d.qualifiedKindName)
    let value ← image value
    let rest ← imageEntries rest
    return (.text key, value) :: rest

end

/-- The entries of a line as they are read back. -/
def readBack (entries : Entries) : Except Fault Datum :=
  image (Payload.dictionary entries)

/-- Fails where the line of a journal entry cannot be printed. A line that is not JSON shows every
datum. -/
def check (f : LogFormat) (e : Entry) : Except Fault Unit :=
  match ofEntry f [] e with
  | none => .ok ()
  | some entries =>
    if f.json then (readBack entries).map fun _ => ()
    else if entries.any fun e => e.2.hasLongInt then .error .longInt
    else .ok ()

end LogLine

end Telemetry
