import Telemetry.World.Basic

/-!
# Services in the world

Opening a service, finding the shared one, and handing events over. A service that is given no sink
has one as the settings ask for; the settings are read once and kept until they are dropped,
and a failed attempt is not kept. The shared service is made when it is first needed, and it becomes
the shared one only after it was made.
-/

namespace Telemetry

/-- The sink that a service is to have. -/
inductive SinkSpec where
  | log
  | memory (capacity : Option Int)
  /-- The sink that another service has. -/
  | sharedWith (other : ServiceId)

namespace World

/-- A handle that is beyond those of all services that were made by themselves. -/
def nextAutomatic (w : World) : ServiceId :=
  let after : ServiceId → Nat
    | .automatic n => n + 1
    | .named _ => 0
  .automatic (w.services.entries.foldr (fun e n => max (after e.1) n) 0)

end World

namespace Action

/-- Writes an entry. Whether or not its line can be printed, its logger is in use then. -/
def log (e : Entry) : Action Unit := fun w =>
  match w.logging.check e with
  | .ok () => (.ok (), w.logged e)
  | .error fault => (.error fault, { w with logging := w.logging.use e })

/-- The settings: as they were read before, else as the environment has them now. -/
def settings : Action Settings := fun w =>
  match w.snapshot with
  | some s => (.ok s, w)
  | none =>
    match Settings.load w.environment with
    | .ok s => (.ok s, { w with snapshot := some s })
    | .error problems => (.error (.invalid problems), w)

/-- The sink that the settings ask for. -/
def defaultSink : Action Sink := do
  let s ← settings
  match s.sinkAdapter with
  | .log => do
    log .logSinkSelected
    return .log
  | .memory => do
    log (.memorySinkSelected s.sinkBufferSize)
    lift (Sink.ofCapacity (some s.sinkBufferSize))

/-- The sink of a service, and which service keeps it. -/
def sinkOf (id : ServiceId) : Action (ServiceId × Sink) :=
  expect .unknownHandle fun w => w.sink? id

/-- A sink that a service is given, or one as the settings ask for. -/
def sinkFor (spec : Option SinkSpec) : Action ServiceSink :=
  match spec with
  | some .log => return .own .log
  | some (.memory capacity) => do
    let sink ← lift (Sink.ofCapacity capacity)
    return .own sink
  | some (.sharedWith other) => do
    let (keeper, _) ← sinkOf other
    return .of keeper
  | none => do
    let sink ← defaultSink
    return .own sink

/-- A session id that was given, or a new one in place of a void one. -/
def sessionIdOr (given : Datum) : Action Datum := fun w =>
  if given.isVoid then
    (.ok (.text (w.host.sessionId w.sessions)), { w with sessions := w.sessions + 1 })
  else (.ok given, w)

/-- Makes a service; a source that is not given is one that is set from outside. -/
def makeService (sink : Option SinkSpec) (session push : Option Source) (sessionId : Datum) :
    Action Service := do
  let sink ← sinkFor sink
  let sessionId ← sessionIdOr sessionId
  return { sink, sessionId,
           sources := ⟨session.getD (.held .null), push.getD (.held .null)⟩ }

/-- Enters a service under a handle. -/
def enterService (id : ServiceId) (service : Service) : Action Unit :=
  update fun w => { w with services := w.services.put id service }

/-- Opens a service under a handle that is free. -/
def openService (id : ServiceId) (sink : Option SinkSpec) (session push : Option Source)
    (sessionId : Datum) : Action ServiceId := do
  ensureFree fun w => (w.services.get? id).isNone
  let service ← makeService sink session push sessionId
  enterService id service
  return id

/-- The service with a handle. -/
def service (id : ServiceId) : Action Service := expect .unknownHandle fun w => w.services.get? id

/-- Makes a service the shared one, or none. -/
def share (id : Option ServiceId) : Action Unit := do
  match id with
  | some id => do
    let _ ← service id
    update fun w => { w with shared := some id }
  | none => update fun w => { w with shared := none }

/-- Makes a service as the settings ask for, enters it under a handle and shares it. -/
def makeShared (id : ServiceId) : Action ServiceId := do
  let service ← makeService none none none .null
  enterService id service
  share (some id)
  return id

/-- The shared service; if there is none it is made now. -/
def sharedService : Action ServiceId := fun w =>
  match w.shared with
  | some id => (.ok id, w)
  | none => makeShared w.nextAutomatic w

/-- Reports the start of a service. -/
def announce (s : Settings) (id : ServiceId) : Action Unit := do
  let service ← service id
  let (_, sink) ← sinkOf id
  log (.started s.environment sink.className service.sessionId)

/-- Sets up logging and the shared service as the settings ask for, and reports the start. -/
def start (id : ServiceId) (sink : Option SinkSpec) (session push : Option Source) :
    Action ServiceId := do
  let s ← settings
  update fun w => { w with logging := w.logging.setUp (.ofSettings s) }
  let id ← openService id sink session push .null
  share (some id)
  announce s id
  return id

/-- Hands an event to the sink of a service. -/
def submit (id : ServiceId) (r : EventRecord) : Action Unit := do
  let service ← service id
  let (keeper, sink) ← sinkOf id
  update fun w => { w.withSink keeper (sink.take r) with
                    deliveries := w.deliveries ++ [(keeper, r)] }
  log (sink.report r service.sessionId)
  update fun w => { w with metrics := w.metrics.recordAdded sink.className }
  log (.eventAdded r.eventId r.eventName)

/-- The newest events that a service lists. -/
def recent (id : ServiceId) (limit : Option Int) : Action (List EventRecord) := do
  let (_, sink) ← sinkOf id
  return sink.recent limit

/-- Whether the sink of a service can take events. -/
def isHealthy (id : ServiceId) : Action Bool := do
  let (_, sink) ← sinkOf id
  return sink.isHealthy

/-- The sources at a place. -/
def sourcesAt (place : SourcesId) : Action Sources :=
  expect .unknownHandle fun w => w.sources? place

/-- Replaces the sources at a place. -/
def putSources (place : SourcesId) (sources : Sources) : Action Unit :=
  update fun w => w.withSources place sources

/-- Why the answer to a question cannot be set: its source is none that is set from outside. -/
def ownedFault : Question → Fault
  | .conversion => .conversionOwned
  | .lastReceived => .lastReceivedOwned

/-- Sets the answer to a question, if its source is one that is set from outside. -/
def setSendId (id : ServiceId) (q : Question) (sendId : Datum) : Action Unit := do
  let sources ← sourcesAt (.service id)
  match sources.source q with
  | .held _ => putSources (.service id) (sources.withSource q (.held sendId))
  | .external .. | .lacking _ => fail (ownedFault q)

/-- Notes the questions that were put to the sources at a place. -/
def note (place : SourcesId) (inquiries : List Inquiry) : Action Unit :=
  update fun w => { w with inquiries := w.inquiries ++ inquiries.map fun i => (place, i) }

/-- Puts a question to the sources of a service. -/
def ask (id : ServiceId) (q : Question) : Action Datum := do
  let sources ← sourcesAt (.service id)
  let (inquiry, sources) := sources.ask q
  putSources (.service id) sources
  note (.service id) [inquiry]
  match inquiry.answer with
  | .value sendId => return sendId
  | .failure f => fail (q.fault f)

/-- Both send ids of a service, the one of the conversion first. -/
def sendIds (id : ServiceId) : Action (Datum × Datum) := do
  let conversion ← ask id .conversion
  let lastReceived ← ask id .lastReceived
  return (conversion, lastReceived)

/-- Ends as resolving an attribution ended, with its entry in the journal. -/
def conclude (r : Resolution) : Action Attribution :=
  match r.entry with
  | some e => do
    log e
    lift r.outcome
  | none => lift r.outcome

/-- Resolves an attribution with the sources at a place. -/
def resolve (place : SourcesId) (explicit : Datum) : Action Attribution := do
  let sources ← sourcesAt place
  let resolution := sources.resolve explicit
  putSources place resolution.sources
  note place resolution.inquiries
  conclude resolution

end Action

end Telemetry
