import Telemetry.Journal

/-!
# Attribution

An event is credited to at most one send id: one that is given explicitly, else the one of a pending
conversion, else the one that was last received. The latter two come from sources, which are asked
anew each time, in this order, at most once, and only as long as nothing is found. A source may
answer with anything; what is no text is refused when the attribution is made. Where something else
stands in the place of a source, asking fails.
-/

namespace Telemetry

/-- What a source says when it is asked. -/
inductive Answer where
  | value (sendId : Datum)
  | failure (f : Failure)

/-- A source of send ids. -/
inductive Source where
  /-- A send id that is set from outside. -/
  | held (sendId : Datum)
  /-- A source of its own, by its answers to the questions in turn and how many were put. -/
  | external (answers : Nat → Answer) (asked : Nat)
  /-- No source, but something of this kind in its place. -/
  | lacking (kind : Text)

namespace Source

/-- Asks a source; an external one goes on to its next answer. -/
def ask : Source → Answer × Source
  | held sendId => (.value sendId, held sendId)
  | external answers asked => (answers asked, external answers (asked + 1))
  | lacking kind => (.failure (.lacking kind), lacking kind)

/-- Whether the source is one of its own. -/
def isExternal : Source → Bool
  | external .. => true
  | held _ | lacking _ => false

end Source

/-- The two kinds of sources that may be asked. -/
inductive Question where
  | conversion
  | lastReceived
  deriving DecidableEq

namespace Question

/-- The operation of a source that answers a question. -/
def operation : Question → Text
  | conversion => "pending_conversion_reference"
  | lastReceived => "last_received_reference"

/-- The fault that a question without an answer ends with. -/
def fault (q : Question) (f : Failure) : Fault := f.fault q.operation

end Question

/-- A question that was put to a source, and what the source said. -/
structure Inquiry where
  question : Question
  answer : Answer
  /-- Whether the source is one of its own. -/
  external : Bool

/-- A source for pending conversions and one for received pushes. -/
structure Sources where
  session : Source
  push : Source

/-- The send id that an event is credited to. -/
structure Attribution where
  conversionSendId : Option Text
  lastReceivedSendId : Option Text
  deriving DecidableEq

namespace Attribution

/-- A send id read, or its problem. -/
def readSendId (field : Field) (d : Option Datum) : Except Problem (Option Text) :=
  Reading.field field.key (.ok none) (Reading.optional Reading.text) d

/-- The attribution with these send ids, or what is wrong with them. -/
def ofFields (conversion lastReceived : Option Datum) : Except (List Problem) Attribution :=
  match readSendId .conversionSendId conversion, readSendId .lastReceivedSendId lastReceived with
  | .ok conversionSendId, .ok lastReceivedSendId => .ok { conversionSendId, lastReceivedSendId }
  | conversion, lastReceived =>
    .error ([Problem.of? conversion, Problem.of? lastReceived].filterMap id)

/-- No send id. -/
def none : Attribution := ⟨.none, .none⟩

/-- The attribution that credits a send id. -/
def credit (origin : Credit) (sendId : Datum) : Except Fault Attribution :=
  let made := match origin with
    | .explicit | .conversion => ofFields (some sendId) .none
    | .lastReceived => ofFields .none (some sendId)
  made.mapError Fault.invalid

end Attribution

/-- All that resolving an attribution does. -/
structure Resolution where
  outcome : Except Fault Attribution
  /-- The sources afterwards. -/
  sources : Sources
  /-- The questions that were put, in order, with their answers. -/
  inquiries : List Inquiry
  /-- What is logged; nothing if a source failed. -/
  entry : Option Entry

namespace Sources

/-- The source that a question goes to. -/
def source (s : Sources) : Question → Source
  | .conversion => s.session
  | .lastReceived => s.push

/-- Replaces the source that a question goes to. -/
def withSource (s : Sources) (q : Question) (source : Source) : Sources :=
  match q with
  | .conversion => { s with session := source }
  | .lastReceived => { s with push := source }

/-- Puts a question to the source that it goes to. -/
def ask (s : Sources) (q : Question) : Inquiry × Sources :=
  (⟨q, (s.source q).ask.1, (s.source q).isExternal⟩, s.withSource q (s.source q).ask.2)

/-- Credits a send id that was found. -/
def credited (s : Sources) (inquiries : List Inquiry) (origin : Credit) (sendId : Datum) :
    Resolution where
  outcome := Attribution.credit origin sendId
  sources := s
  inquiries := inquiries
  entry := some (.attributionResolved (some (origin, sendId)))

/-- Asks for the send id that was last received. -/
def resolveLastReceived (s : Sources) (inquiries : List Inquiry) : Resolution :=
  let (inquiry, s) := s.ask .lastReceived
  let inquiries := inquiries ++ [inquiry]
  match inquiry.answer with
  | .failure f => ⟨.error (Question.lastReceived.fault f), s, inquiries, none⟩
  | .value .null => ⟨.ok Attribution.none, s, inquiries, some (.attributionResolved none)⟩
  | .value sendId => s.credited inquiries .lastReceived sendId

/-- Asks for the send id of a pending conversion, and for the one last received if there is none. -/
def resolveConversion (s : Sources) : Resolution :=
  let (inquiry, s) := s.ask .conversion
  match inquiry.answer with
  | .failure f => ⟨.error (Question.conversion.fault f), s, [inquiry], none⟩
  | .value .null => s.resolveLastReceived [inquiry]
  | .value sendId => s.credited [inquiry] .conversion sendId

/-- Resolves an attribution; a given send id makes all questions needless. -/
def resolve (s : Sources) (explicit : Datum) : Resolution :=
  match explicit with
  | .null => s.resolveConversion
  | sendId => s.credited [] .explicit sendId

end Sources

end Telemetry
