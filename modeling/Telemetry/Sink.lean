import Telemetry.Journal

/-!
# Sinks

A sink takes finished events. A memory sink holds the newest of them, as many as its capacity, and
lists them with the newest first. A log sink writes the payload of each event to the log and holds
nothing.
-/

namespace Telemetry

/-- A destination of events. -/
inductive Sink where
  /-- Events held in memory, the newest first, at most `capacity` of them if it is given. -/
  | memory (capacity : Option Nat) (held : List EventRecord)
  | log

namespace Sink

/-- The number of events that a memory sink holds unless it is told otherwise. -/
def defaultCapacity : Int := 1000

/-- The largest capacity. -/
def maxCapacity : Int := 0x7FFFFFFFFFFFFFFF

/-- An empty memory sink; without a number it is unbounded. -/
def ofCapacity (capacity : Option Int) : Except Fault Sink :=
  match capacity with
  | none => .ok (memory none [])
  | some n =>
    if n < -maxCapacity - 1 ∨ maxCapacity < n then .error .hugeCapacity
    else if n < 0 then .error .negativeCapacity
    else .ok (memory (some n.toNat) [])

/-- The name of the class of a sink, as metrics give it. -/
def className : Sink → Text
  | memory .. => "InMemorySink"
  | log => "LogSink"

/-- The newest events of a list, as many as the capacity allows. -/
def newest (capacity : Option Nat) (events : List EventRecord) : List EventRecord :=
  match capacity with
  | none => events
  | some n => events.take n

/-- The sink after it took an event. -/
def take (sink : Sink) (r : EventRecord) : Sink :=
  match sink with
  | memory capacity held => memory capacity (newest capacity (r :: held))
  | log => log

/-- What a sink reports of an event that it took on behalf of a session. -/
def report (sink : Sink) (r : EventRecord) (sessionId : Datum) : Entry :=
  match sink with
  | memory .. => .kept r.eventId r.eventName sessionId
  | log => .written (r.payload sessionId)

/-- The events that a sink holds, the newest first. -/
def events : Sink → List EventRecord
  | memory _ held => held
  | log => []

/-- The number of events that are listed unless a limit is given. -/
def defaultLimit : Int := 50

/--
The newest events up to a limit, or all of them without one. A negative limit leaves out as many of
the oldest events.
-/
def recent (sink : Sink) (limit : Option Int) : List EventRecord :=
  match limit with
  | none => sink.events
  | some n =>
    if 0 ≤ n then sink.events.take n.toNat
    else sink.events.take (sink.events.length - n.natAbs)

/-- A sink can always take events. -/
def isHealthy : Sink → Bool
  | memory .. => true
  | log => true

end Sink

end Telemetry
