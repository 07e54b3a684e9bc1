import Telemetry.EventValue
import Telemetry.Reading

/-!
# Event records

A record is a finished event. Its model checks every field on its own and then that not both send
ids are set; a failure names every field that does not fit, in order of declaration, and the send
ids only if all fields fit. `EventRecord.payload` is the envelope in which an event is uploaded: its
data hold the fields that are set, and the session id, if there is one, comes last.
-/

namespace Telemetry

/-- A finished event. -/
structure EventRecord where
  eventName : Text
  /-- The value in millionths. -/
  eventValue : Option Int
  transactionId : Option Text
  interactionId : Option Text
  interactionType : Option Text
  conversionSendId : Option Text
  lastReceivedSendId : Option Text
  eventId : Text
  /-- Seconds since the epoch. -/
  ts : Binary64
  deriving DecidableEq

/-- The fields that a record is made of, each as it is passed, or absent. -/
structure RecordFields where
  eventName : Option Datum
  eventValue : Option Datum
  transactionId : Option Datum
  interactionId : Option Datum
  interactionType : Option Datum
  conversionSendId : Option Datum
  lastReceivedSendId : Option Datum
  eventId : Option Datum
  ts : Option Datum

namespace RecordFields

/-- The key of the identifier of an event. -/
def eventIdKey : Text := "event_id"

/-- The key of the time of an event. -/
def tsKey : Text := "ts"

/-- The fields among some entries, by their keys; an entry under any other key does not count. -/
def ofEntries (entries : List (Text × Datum)) : RecordFields where
  eventName := entries.lookup Field.eventName.key
  eventValue := entries.lookup Field.eventValue.key
  transactionId := entries.lookup Field.transactionId.key
  interactionId := entries.lookup Field.interactionId.key
  interactionType := entries.lookup Field.interactionType.key
  conversionSendId := entries.lookup Field.conversionSendId.key
  lastReceivedSendId := entries.lookup Field.lastReceivedSendId.key
  eventId := entries.lookup eventIdKey
  ts := entries.lookup tsKey

end RecordFields

namespace EventRecord

/-- Checks the length of a text for the field. -/
def checkLength (field : Field) (t : Text) : Except ProblemKind Text :=
  if Field.maxLength < t.fieldLength then .error (.tooLong field) else .ok t

/-- Reads the name of an event. -/
def readName (d : Datum) : Except ProblemKind Text :=
  match Reading.text d with
  | .error kind => .error kind
  | .ok t => if t.fieldLength = 0 then .error (.empty .eventName) else checkLength .eventName t

/-- Reads a text of bounded length that may be absent. -/
def readBounded (field : Field) (d : Datum) : Except ProblemKind (Option Text) :=
  match Reading.optional Reading.text d with
  | .error kind => .error kind
  | .ok none => .ok none
  | .ok (some t) => (checkLength field t).map some

/-- Reads a stored event value, which may be absent. -/
def readValue (d : Datum) : Except ProblemKind (Option Int) :=
  match Reading.optional Reading.int d with
  | .error kind => .error kind
  | .ok none => .ok none
  | .ok (some i) =>
    if EventValue.minStored ≤ i ∧ i ≤ EventValue.maxStored then .ok (some i)
    else .error .valueOutOfRange

/--
The record with these fields, or all that is wrong with them. An identifier and a time stand ready
for a record that comes without its own.
-/
def ofFields (freshId : Text) (now : Binary64) (f : RecordFields) :
    Except (List Problem) EventRecord :=
  let eventName := Reading.field Field.eventName.key (.error .missing) readName f.eventName
  let eventValue := Reading.field Field.eventValue.key (.ok none) readValue f.eventValue
  let transactionId :=
    Reading.field Field.transactionId.key (.ok none) (readBounded .transactionId) f.transactionId
  let interactionId :=
    Reading.field Field.interactionId.key (.ok none) (readBounded .interactionId) f.interactionId
  let interactionType :=
    Reading.field Field.interactionType.key (.ok none) (readBounded .interactionType)
      f.interactionType
  let conversionSendId :=
    Reading.field Field.conversionSendId.key (.ok none) (Reading.optional Reading.text)
      f.conversionSendId
  let lastReceivedSendId :=
    Reading.field Field.lastReceivedSendId.key (.ok none) (Reading.optional Reading.text)
      f.lastReceivedSendId
  let eventId := Reading.field RecordFields.eventIdKey (.ok freshId) Reading.text f.eventId
  let ts := Reading.field RecordFields.tsKey (.ok now) Reading.float f.ts
  match eventName, eventValue, transactionId, interactionId, interactionType, conversionSendId,
    lastReceivedSendId, eventId, ts with
  | .ok eventName, .ok eventValue, .ok transactionId, .ok interactionId, .ok interactionType,
    .ok conversionSendId, .ok lastReceivedSendId, .ok eventId, .ok ts =>
    if conversionSendId.isSome && lastReceivedSendId.isSome then .error [⟨[], .bothSendIds⟩]
    else
      .ok { eventName, eventValue, transactionId, interactionId, interactionType,
            conversionSendId, lastReceivedSendId, eventId, ts }
  | eventName, eventValue, transactionId, interactionId, interactionType, conversionSendId,
    lastReceivedSendId, eventId, ts =>
    .error <| [Problem.of? eventName, Problem.of? eventValue, Problem.of? transactionId,
      Problem.of? interactionId, Problem.of? interactionType, Problem.of? conversionSendId,
      Problem.of? lastReceivedSendId, Problem.of? eventId, Problem.of? ts].filterMap id

/-- The datum of a field; an unset field has none. -/
def get? (r : EventRecord) : Field → Option Datum
  | .eventName => some (.text r.eventName)
  | .eventValue => r.eventValue.map Datum.int
  | .transactionId => r.transactionId.map Datum.text
  | .interactionId => r.interactionId.map Datum.text
  | .interactionType => r.interactionType.map Datum.text
  | .conversionSendId => r.conversionSendId.map Datum.text
  | .lastReceivedSendId => r.lastReceivedSendId.map Datum.text

/-- The fields that are set, in the order of writing. -/
def data (r : EventRecord) : List (Text × Datum) :=
  Field.all.filterMap fun field => (r.get? field).map fun d => (field.key, d)

end EventRecord

/-- The envelope in which an event is uploaded. -/
structure Payload where
  kind : Text
  eventId : Text
  /-- Seconds since the epoch, to the millisecond. -/
  time : Text
  data : List (Text × Datum)

namespace EventRecord

/-- The key of the session id in the data of a payload. -/
def sessionIdKey : Text := "session_id"

/-- The envelope of an event, for a session or for none. -/
def payload (r : EventRecord) (sessionId : Datum) : Payload where
  kind := eventKind
  eventId := r.eventId
  time := r.ts.fixed 3
  data :=
    match sessionId with
    | .null => r.data
    | sessionId => r.data ++ [(sessionIdKey, sessionId)]

end EventRecord

namespace Payload

/-- Entries with texts for keys, as a dictionary. -/
def dictionary (entries : List (Text × Datum)) : Datum :=
  .dict (entries.map fun e => (.text e.1, e.2))

/-- The envelope as a dictionary. -/
def entries (p : Payload) : List (Text × Datum) :=
  [("type", .text p.kind), (RecordFields.eventIdKey, .text p.eventId), ("time", .text p.time),
    ("data", dictionary p.data)]

end Payload

end Telemetry
