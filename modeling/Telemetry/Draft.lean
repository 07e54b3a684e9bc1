import Telemetry.Attribution
import Telemetry.Message

/-!
# Drafts

A draft gathers the fields of an event. Every setter checks its input when it is called and leaves
the draft as it was if the input is refused; the two parts of an interaction are set together or not
at all. Only the send id of a push is taken as it is; it is checked when the event is created. A
draft creates one event, and after that it refuses everything.
-/

namespace Telemetry

/-- The handle of a service: chosen by whoever opens it, or counted for one made by itself. -/
inductive ServiceId where
  | named (n : Nat)
  | automatic (n : Nat)
  deriving DecidableEq

/-- The handle of a resolver that belongs to no service. -/
structure ResolverId where
  n : Nat
  deriving DecidableEq

/-- A place where sources are: with a service, or with a resolver that belongs to none. -/
inductive SourcesId where
  | service (id : ServiceId)
  | resolver (id : ResolverId)
  deriving DecidableEq

/-- The handle of a draft. -/
structure DraftId where
  n : Nat
  deriving DecidableEq

/-- An event in the making. -/
structure Draft where
  eventName : Text
  eventValue : Option Int
  transactionId : Option Text
  interactionId : Option Text
  interactionType : Option Text
  /-- The send id that was set, as it was given: a text or nothing if a push was passed. -/
  explicitSendId : Datum
  /-- The service of its own, if it has one; else the shared one serves. -/
  service : Option ServiceId
  /-- Where the resolver of its own asks, if it has one; else that of the service resolves. -/
  resolver : Option SourcesId
  /-- Whether the event was created. -/
  finalized : Bool

namespace Draft

/-- Checks that a text is no longer than a field may be. -/
def checkLength (field : Field) (t : Text) : Except Fault Text :=
  if Field.maxLength < t.fieldLength then
    .error (.rejected ⟨field, .text t, .tooLong t.fieldLength⟩)
  else .ok t

/-- Checks a field that may be absent. -/
def checkOptional (field : Field) (d : Datum) : Except Fault (Option Text) :=
  match d with
  | .null => .ok none
  | .text t => (checkLength field t).map some
  | d => .error (.notText field d.kindName)

/-- Checks a field that must be there and not be empty. -/
def checkRequired (field : Field) (d : Datum) : Except Fault Text :=
  match d with
  | .null => .error (.rejected ⟨field, .null, .required⟩)
  | .text t =>
    if t.fieldLength = 0 then .error (.rejected ⟨field, .text t, .empty⟩)
    else checkLength field t
  | d => .error (.notText field d.kindName)

/-- A draft of an event with this name. -/
def ofName (name : Datum) (service : Option ServiceId) (resolver : Option SourcesId) :
    Except Fault Draft :=
  match checkRequired .eventName name with
  | .error fault => .error fault
  | .ok eventName =>
    .ok { eventName, eventValue := none, transactionId := none, interactionId := none,
          interactionType := none, explicitSendId := .null, service, resolver,
          finalized := false }

/-- The draft, as long as it is open. -/
def ensureOpen (d : Draft) : Except Fault Draft :=
  if d.finalized then .error .finalized else .ok d

/-- Sets or clears the transaction id. -/
def setTransactionId (d : Draft) (transactionId : Datum) : Except Fault Draft := do
  let d ← d.ensureOpen
  let transactionId ← checkOptional .transactionId transactionId
  return { d with transactionId }

/-- Sets or clears the type and the id of the interaction. -/
def setInteraction (d : Draft) (interactionType interactionId : Datum) : Except Fault Draft := do
  let d ← d.ensureOpen
  let interactionType ← checkOptional .interactionType interactionType
  let interactionId ← checkOptional .interactionId interactionId
  return { d with interactionType, interactionId }

/-- Makes an inbox message the interaction; its id is looked up before anything is checked. -/
def setInteractionFromMessage (d : Draft) (m : MessageArgument InboxMessage) :
    Except Fault Draft := do
  let messageId ← m.messageId
  d.setInteraction (.text inboxInteractionType) messageId

/-- Sets or clears the value. -/
def setEventValue (d : Draft) (value : Datum) : Except Fault Draft := do
  let d ← d.ensureOpen
  let eventValue ← EventValue.normalize .standard value
  return { d with eventValue }

/-- Attributes the event to a push, or to none. The send id is not checked. -/
def setAttribution (d : Draft) (m : Option (MessageArgument PushMessage)) : Except Fault Draft := do
  let d ← d.ensureOpen
  match m with
  | some m =>
    let explicitSendId ← m.sendId
    return { d with explicitSendId }
  | none => return { d with explicitSendId := .null }

/-- The fields of the event of a draft, given its attribution. -/
def fields (d : Draft) (a : Attribution) : RecordFields where
  eventName := some (.text d.eventName)
  eventValue := some (.ofInt? d.eventValue)
  transactionId := some (.ofText? d.transactionId)
  interactionId := some (.ofText? d.interactionId)
  interactionType := some (.ofText? d.interactionType)
  conversionSendId := some (.ofText? a.conversionSendId)
  lastReceivedSendId := some (.ofText? a.lastReceivedSendId)
  eventId := none
  ts := none

/-- The event of a draft. -/
def record (d : Draft) (a : Attribution) (freshId : Text) (now : Binary64) :
    Except Fault EventRecord :=
  (EventRecord.ofFields freshId now (d.fields a)).mapError Fault.invalid

end Draft

end Telemetry
