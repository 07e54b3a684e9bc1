import Telemetry.Text.Utf16

/-!
# Event fields

The seven data fields of an event, in the order in which they are written, and the bounds that hold
for them wherever they are checked.
-/

namespace Telemetry

/-- A data field of an event. -/
inductive Field where
  | eventName
  | eventValue
  | transactionId
  | interactionId
  | interactionType
  | conversionSendId
  | lastReceivedSendId
  deriving DecidableEq

namespace Field

/-- The key of a field in the data of an event. -/
def key : Field → Text
  | eventName => "event_name"
  | eventValue => "event_value"
  | transactionId => "transaction_id"
  | interactionId => "interaction_id"
  | interactionType => "interaction_type"
  | conversionSendId => "conversion_send_id"
  | lastReceivedSendId => "last_received_send_id"

/-- All fields in the order of writing. -/
def all : List Field :=
  [eventName, eventValue, transactionId, interactionId, interactionType, conversionSendId,
    lastReceivedSendId]

/-- The largest length of a field, in UTF-16 code units. -/
def maxLength : Nat := 255

end Field

/-- The kind of every event, as its payload gives it. -/
def eventKind : Text := "custom_event"

/-- The interaction type of an event that belongs to an inbox message. -/
def inboxInteractionType : Text := "ua_mcrap"

/-- The key under which the extras of a push hold its send id. -/
def pushSendIdKey : Text := "com.urbanairship.push.PUSH_ID"

end Telemetry
