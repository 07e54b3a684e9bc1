import Telemetry.Draft
import Telemetry.Logging
import Telemetry.Metrics
import Telemetry.Registry
import Telemetry.Settings
import Telemetry.Sink

/-!
# The world

Everything that operations share: services with their sinks and sources, drafts, the shared service,
the settings once they were read, the metrics and the journal. An operation is an `Action`: it ends
with a result or a fault, and either way the world afterwards is known.

Handles are chosen by whoever opens something and are never used twice. A sink is kept with the
service that it was made for; other services can be given it, and what is added on behalf of one is
then listed by all. Identifiers and times come from the host.
-/

namespace Telemetry

/-- What the surroundings supply. -/
structure Host where
  /-- The id of the event that is made after so many others. -/
  eventId : Nat → Text
  /-- The session id that is generated after so many others. -/
  sessionId : Nat → Text
  /-- The time at which the event is made that comes after so many others. -/
  clock : Nat → Binary64

/-- The sink of a service. -/
inductive ServiceSink where
  /-- One that was made for the service and is kept with it. -/
  | own (sink : Sink)
  /-- One that is kept with another service. -/
  | of (keeper : ServiceId)

namespace ServiceSink

/-- The sink, if it is kept with the service itself. -/
def kept? : ServiceSink → Option Sink
  | own sink => some sink
  | of _ => none

end ServiceSink

/-- A service: a sink, the sources for attribution, and the session that events belong to. -/
structure Service where
  sink : ServiceSink
  sources : Sources
  sessionId : Datum

namespace Service

/-- The service that keeps the sink of a service, of which the handle is given. -/
def keeper (service : Service) (id : ServiceId) : ServiceId :=
  match service.sink with
  | .own _ => id
  | .of keeper => keeper

end Service

/-- The state of everything. -/
structure World where
  host : Host
  environment : Environment
  /-- The settings as they were read first, until they are dropped. -/
  snapshot : Option Settings
  services : Registry ServiceId Service
  /-- Sources that belong to no service. -/
  resolvers : Registry ResolverId Sources
  drafts : Registry DraftId Draft
  /-- The service that serves drafts without one of their own. -/
  shared : Option ServiceId
  /-- The events that were made, in order. -/
  records : List EventRecord
  metrics : Metrics
  /-- The log entries that were made, in order. -/
  journal : List Entry
  /-- The questions put to sources, in order, and where these are. -/
  inquiries : List (SourcesId × Inquiry)
  /-- The events handed to sinks, in order, and which services keep these. -/
  deliveries : List (ServiceId × EventRecord)
  /-- The number of generated session ids. -/
  sessions : Nat
  logging : Logging

namespace World

/-- The world before anything happened. -/
def fresh (host : Host) (environment : Environment) : World where
  host := host
  environment := environment
  snapshot := none
  services := .empty
  resolvers := .empty
  drafts := .empty
  shared := none
  records := []
  metrics := .fresh
  journal := []
  inquiries := []
  deliveries := []
  sessions := 0
  logging := .unset

/-- The questions put to external sources, in order. -/
def questions (w : World) : List Question :=
  (w.inquiries.filter (·.2.external)).map (·.2.question)

/-- The sources at a place. -/
def sources? (w : World) : SourcesId → Option Sources
  | .service id => (w.services.get? id).map (·.sources)
  | .resolver id => w.resolvers.get? id

/-- The world with other sources at a place. -/
def withSources (w : World) (place : SourcesId) (sources : Sources) : World :=
  match place with
  | .service id =>
    match w.services.get? id with
    | some service => { w with services := w.services.put id { service with sources } }
    | none => w
  | .resolver id => { w with resolvers := w.resolvers.put id sources }

/-- The sink that is kept with a service. -/
def keptSink? (w : World) (keeper : ServiceId) : Option Sink :=
  (w.services.get? keeper).bind (·.sink.kept?)

/-- The sink of a service, and which service keeps it. -/
def sink? (w : World) (id : ServiceId) : Option (ServiceId × Sink) :=
  (w.services.get? id).bind fun service =>
    (w.keptSink? (service.keeper id)).map fun sink => (service.keeper id, sink)

/-- The world with another sink kept with a service. -/
def withSink (w : World) (keeper : ServiceId) (sink : Sink) : World :=
  match w.services.get? keeper with
  | some service => { w with services := w.services.put keeper { service with sink := .own sink } }
  | none => w

/-- The world after an entry was written. -/
def logged (w : World) (e : Entry) : World :=
  { w with journal := w.journal ++ w.logging.made e, logging := w.logging.use e }

end World

/-- An operation on the world. -/
def Action (α : Type) : Type := World → Except Fault α × World

namespace Action

variable {α β : Type}

/-- Runs an operation. -/
def run (a : Action α) (w : World) : Except Fault α × World := a w

instance : Monad Action where
  pure a := fun w => (.ok a, w)
  bind a f := fun w =>
    match a w with
    | (.ok x, w) => f x w
    | (.error fault, w) => (.error fault, w)

/-- Ends with a fault. -/
def fail (fault : Fault) : Action α := fun w => (.error fault, w)

/-- Reads something off the world. -/
def read (f : World → α) : Action α := fun w => (.ok (f w), w)

/-- Changes the world. -/
def update (f : World → World) : Action Unit := fun w => (.ok (), f w)

/-- Ends with a result that is at hand. -/
def lift (e : Except Fault α) : Action α := fun w => (e, w)

/-- The value that is there, or a fault. -/
def expect (fault : Fault) (f : World → Option α) : Action α := fun w =>
  match f w with
  | some x => (.ok x, w)
  | none => (.error fault, w)

/-- A fault unless a handle is free. -/
def ensureFree (isFree : World → Bool) : Action Unit := fun w =>
  (if isFree w then .ok () else .error .takenHandle, w)

/-- A fault unless a handle names something. -/
def ensureKnown (isKnown : World → Bool) : Action Unit := fun w =>
  (if isKnown w then .ok () else .error .unknownHandle, w)

theorem run_bind (a : Action α) (f : α → Action β) (w : World) :
    run (a >>= f) w = match run a w with
      | (.ok x, w) => run (f x) w
      | (.error fault, w) => (.error fault, w) := rfl

@[simp] theorem run_update (f : World → World) (w : World) : run (update f) w = (.ok (), f w) := rfl

@[simp] theorem run_lift (e : Except Fault α) (w : World) : run (lift e) w = (e, w) := rfl

end Action

end Telemetry
