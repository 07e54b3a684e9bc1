import Telemetry.EventRecord

/-!
# The journal

Every log entry that the library writes, by what it reports. The fields of an entry and the name of
its event are given here; a line of output is made of them elsewhere.
-/

namespace Telemetry

/-- How serious an entry is. -/
inductive Severity where
  | debug
  | info
  | warning
  | error
  | critical
  deriving DecidableEq

namespace Severity

/-- The name of a severity. -/
def name : Severity → Text
  | debug => "debug"
  | info => "info"
  | warning => "warning"
  | error => "error"
  | critical => "critical"

/-- The rank of a severity; a threshold is a rank. -/
def rank : Severity → Nat
  | debug => 10
  | info => 20
  | warning => 30
  | error => 40
  | critical => 50

end Severity

/-- Where the send id of an event comes from. -/
inductive Credit where
  | explicit
  | conversion
  | lastReceived
  deriving DecidableEq

namespace Credit

/-- The name of an origin. -/
def name : Credit → Text
  | explicit => "explicit"
  | conversion => "conversion"
  | lastReceived => "last_received"

end Credit

/-- A log entry. -/
inductive Entry where
  | validationFailed (field : Field) (kind : RejectionClass) (message : Text)
  /-- The send id that is credited and its origin, or none. -/
  | attributionResolved (credited : Option (Credit × Datum))
  | eventCreated (eventId eventName : Text)
  | eventAdded (eventId eventName : Text)
  /-- The default sink writes to the log. -/
  | logSinkSelected
  /-- The default sink holds this many events. -/
  | memorySinkSelected (maxEvents : Int)
  /-- A memory sink has taken an event. -/
  | kept (eventId eventName : Text) (sessionId : Datum)
  /-- A log sink has taken an event. -/
  | written (payload : Payload)
  /-- A shared service was set up. -/
  | started (environment sink : Text) (sessionId : Datum)

/-- The version that is reported at the start. -/
def version : Text := "0.1.0"

namespace Entry

/-- The severity of an entry. -/
def severity : Entry → Severity
  | validationFailed .. => .warning
  | attributionResolved _ | eventAdded .. => .debug
  | _ => .info

/-- The name of what happened. -/
def event : Entry → Text
  | validationFailed .. => "event.validation_failed"
  | attributionResolved _ => "attribution.resolved"
  | eventCreated .. => "event.created"
  | eventAdded .. => "event.added"
  | logSinkSelected | memorySinkSelected _ => "sink.selected"
  | kept .. | written _ => "sink.added"
  | started .. => "custom_events.initialized"

/-- What the entry says about it. -/
def fields : Entry → List (Text × Datum)
  | validationFailed field kind message =>
    [("field", .text field.key), ("error", .text kind.name), ("message", .text message)]
  | attributionResolved (some (credit, sendId)) =>
    [("source", .text credit.name), ("send_id", sendId)]
  | attributionResolved none => [("source", .null)]
  | eventCreated eventId eventName | eventAdded eventId eventName =>
    [("event_id", .text eventId), ("event_name", .text eventName)]
  | logSinkSelected => [("type", .text "log")]
  | memorySinkSelected maxEvents =>
    [("type", .text "memory"), ("max_events", .int maxEvents)]
  | kept eventId eventName sessionId =>
    [("event_id", .text eventId), ("event_name", .text eventName), ("session_id", sessionId),
      ("sink", .text "memory")]
  | written payload =>
    [("event_id", .text payload.eventId), ("type", .text payload.kind),
      ("time", .text payload.time), ("data", Payload.dictionary payload.data),
      ("sink", .text "log")]
  | started environment sink sessionId =>
    [("version", .text version), ("env", .text environment), ("sink", .text sink),
      ("session_id", sessionId)]

end Entry

end Telemetry
