import Telemetry.World.Draft

/-!
# Steps

The operations on a world as data, so that runs can be spoken of: `World.step` performs one step
and `World.run` a list of them.
-/

namespace Telemetry

/-- An operation that a caller asks for. -/
inductive Step where
  /-- Replaces the environment variables. -/
  | setVariables (vars : List (Text × Text))
  /-- Drops the settings that were read. -/
  | reloadSettings
  | readSettings
  | openService (id : ServiceId) (sink : Option SinkSpec) (session push : Option Source)
      (sessionId : Datum)
  | share (id : Option ServiceId)
  | lookUpShared
  | start (id : ServiceId) (sink : Option SinkSpec) (session push : Option Source)
  | makeRecord (fields : RecordFields)
  | openResolver (id : ResolverId) (sources : Sources)
  | openDraft (id : DraftId) (name : Datum) (service : Option ServiceId)
      (resolver : Option SourcesId)
  | setTransactionId (id : DraftId) (transactionId : Datum)
  | setInteraction (id : DraftId) (interactionType interactionId : Datum)
  | setInteractionFromMessage (id : DraftId) (m : MessageArgument InboxMessage)
  | setEventValue (id : DraftId) (value : Datum)
  | setAttribution (id : DraftId) (m : Option (MessageArgument PushMessage))
  | create (id : DraftId)
  | add (id : DraftId)
  | setConversion (id : ServiceId) (sendId : Datum)
  | setLastReceived (id : ServiceId) (sendId : Datum)
  | sendIds (id : ServiceId)
  | resolve (id : ServiceId) (explicit : Datum)
  | submit (id : ServiceId) (r : EventRecord)
  | recent (id : ServiceId) (limit : Option Int)
  | checkHealth (id : ServiceId)

/-- What a step that succeeds answers. -/
inductive Outcome where
  | done
  | settings (s : Settings)
  | service (id : ServiceId)
  /-- A record and its number. -/
  | record (n : Nat) (r : EventRecord)
  | sendIds (conversion lastReceived : Datum)
  | attribution (a : Attribution)
  | records (rs : List EventRecord)
  | health (ok : Bool)

namespace Step

/-- The operation that a step asks for. -/
def perform : Step → Action Outcome
  | setVariables vars => do
    Action.update fun w => { w with environment := { w.environment with vars } }
    return .done
  | reloadSettings => do
    Action.update fun w => { w with snapshot := none }
    return .done
  | readSettings => do
    let s ← Action.settings
    return .settings s
  | openService id sink session push sessionId => do
    let id ← Action.openService id sink session push sessionId
    return .service id
  | share id => do
    Action.share id
    return .done
  | lookUpShared => do
    let id ← Action.sharedService
    return .service id
  | start id sink session push => do
    let id ← Action.start id sink session push
    return .service id
  | makeRecord fields => do
    let (n, r) ← Action.makeRecord fields
    return .record n r
  | openResolver id sources => do
    Action.openResolver id sources
    return .done
  | openDraft id name service resolver => do
    Action.openDraft id name service resolver
    return .done
  | setTransactionId id transactionId => do
    Action.edit id fun d => d.setTransactionId transactionId
    return .done
  | setInteraction id interactionType interactionId => do
    Action.edit id fun d => d.setInteraction interactionType interactionId
    return .done
  | setInteractionFromMessage id m => do
    Action.edit id fun d => d.setInteractionFromMessage m
    return .done
  | setEventValue id value => do
    Action.edit id fun d => d.setEventValue value
    return .done
  | setAttribution id m => do
    Action.edit id fun d => d.setAttribution m
    return .done
  | create id => do
    let (n, r) ← Action.create id
    return .record n r
  | add id => do
    let (n, r) ← Action.add id
    return .record n r
  | setConversion id sendId => do
    Action.setSendId id .conversion sendId
    return .done
  | setLastReceived id sendId => do
    Action.setSendId id .lastReceived sendId
    return .done
  | sendIds id => do
    let (conversion, lastReceived) ← Action.sendIds id
    return .sendIds conversion lastReceived
  | resolve id explicit => do
    let a ← Action.resolve (.service id) explicit
    return .attribution a
  | submit id r => do
    Action.submit id r
    return .done
  | recent id limit => do
    let rs ← Action.recent id limit
    return .records rs
  | checkHealth id => do
    let ok ← Action.isHealthy id
    return .health ok

end Step

namespace World

/-- Performs a step. -/
def step (w : World) (s : Step) : Except Fault Outcome × World := s.perform w

/-- The world after some steps. -/
def run (w : World) (steps : List Step) : World := steps.foldl (fun w s => (w.step s).2) w

end World

end Telemetry
