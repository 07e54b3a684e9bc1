import Telemetry.World.Service

/-!
# Drafts in the world

A rejection is logged and counted once, wherever it comes from, and no other fault is. Creating an
event resolves its attribution and commits at the very end: until then the draft is as it was.
Adding an event creates it and hands it to the service of the draft, or to the one that is shared
at that moment.
-/

namespace Telemetry

namespace Action

/-- Reports a rejection, and passes on every result. -/
def report {α : Type} (e : Except Fault α) : Action α :=
  match e with
  | .error (.rejected r) => do
    log (.validationFailed r.field r.kind r.message)
    update fun w => { w with metrics := w.metrics.recordRejection r.field.key r.kind.name }
    fail (.rejected r)
  | e => lift e

/-- The draft with a handle. -/
def draft (id : DraftId) : Action Draft := expect .unknownHandle fun w => w.drafts.get? id

/-- Enters a resolver that belongs to no service, under a handle that is free. -/
def openResolver (id : ResolverId) (sources : Sources) : Action Unit := do
  ensureFree fun w => (w.resolvers.get? id).isNone
  update fun w => { w with resolvers := w.resolvers.put id sources }

/--
Opens a draft under a handle that is free. The service that it is to have and the place where its
resolver asks must be there already.
-/
def openDraft (id : DraftId) (name : Datum) (service : Option ServiceId)
    (resolver : Option SourcesId) : Action Unit := do
  ensureFree fun w => (w.drafts.get? id).isNone
  ensureKnown fun w => service.all fun s => (w.services.get? s).isSome
  ensureKnown fun w => resolver.all fun place => (w.sources? place).isSome
  let d ← report (Draft.ofName name service resolver)
  update fun w => { w with drafts := w.drafts.put id d }

/-- Changes a draft by one of its setters. -/
def edit (id : DraftId) (setter : Draft → Except Fault Draft) : Action Unit := do
  let d ← draft id
  let d ← report (setter d)
  update fun w => { w with drafts := w.drafts.put id d }

/-- The service that a draft hands its event to. -/
def serviceOf (d : Draft) : Action ServiceId :=
  match d.service with
  | some id => return id
  | none => sharedService

/-- Where the sources of a draft are: where its own resolver asks, else with its service. -/
def placeOf (d : Draft) : Action SourcesId :=
  match d.resolver with
  | some place => return place
  | none => do
    let id ← serviceOf d
    return .service id

/-- Resolves the attribution of a draft. -/
def attributionOf (d : Draft) : Action Attribution := do
  let place ← placeOf d
  resolve place d.explicitSendId

/-- Makes a record with the next id and at the present time. -/
def stamp (make : (freshId : Text) → (now : Binary64) → Except Fault EventRecord) :
    Action EventRecord := fun w =>
  (make (w.host.eventId w.records.length) (w.host.clock w.records.length), w)

/-- Keeps a record; its number tells how many were kept before. -/
def keep (r : EventRecord) : Action Nat := fun w =>
  (.ok w.records.length, { w with records := w.records ++ [r] })

/-- A record of the caller's own making. -/
def makeRecord (f : RecordFields) : Action (Nat × EventRecord) := do
  let r ← stamp fun freshId now => (EventRecord.ofFields freshId now f).mapError Fault.invalid
  let n ← keep r
  return (n, r)

/-- Creates the event of a draft. -/
def create (id : DraftId) : Action (Nat × EventRecord) := do
  let d ← draft id
  let d ← lift d.ensureOpen
  let a ← attributionOf d
  let r ← stamp (d.record a)
  update fun w => { w with drafts := w.drafts.put id { d with finalized := true } }
  update fun w => { w with metrics := w.metrics.recordCreated r.eventValue }
  log (.eventCreated r.eventId r.eventName)
  let n ← keep r
  return (n, r)

/-- Hands the event of a draft over to the service of the draft. -/
def handOver (id : DraftId) (r : EventRecord) : Action Unit := do
  let d ← draft id
  let service ← serviceOf d
  submit service r

/-- Creates the event of a draft and hands it over. -/
def add (id : DraftId) : Action (Nat × EventRecord) := do
  let (n, r) ← create id
  handOver id r
  return (n, r)

end Action

end Telemetry
