import Telemetry.Proofs.LogLine
import Telemetry.World.Step

/-!
# Up to ids and times

The ids and times of events and the ids of sessions are generated, so they differ from run to run.
`unstamped` leaves them out, of a record and of all that has records. Nothing but them depends on
what is generated: whether a record is made, and of what fields, does not depend on the id and the
time that stand ready (`EventRecord.ofFields_unstamped`), and sinks hold, list and report the same
events (`Sink.take_unstamped`, `Sink.recent_unstamped`, `Sink.writtenLike_report`).
-/

namespace Telemetry

/-- The record without its id and its time. -/
def EventRecord.unstamped (r : EventRecord) : EventRecord :=
  { r with eventId := [], ts := Binary64.zero false }

def Sink.unstamped : Sink → Sink
  | memory capacity held => memory capacity (held.map EventRecord.unstamped)
  | log => log

def ServiceSink.unstamped : ServiceSink → ServiceSink
  | own sink => own sink.unstamped
  | of keeper => of keeper

/-- The datum, but for the text that it may be. -/
def Datum.wordless : Datum → Datum
  | text _ => text []
  | d => d

/-- The service with its events unstamped and without the text of its session id. -/
def Service.unstamped (s : Service) : Service :=
  { s with sink := s.sink.unstamped, sessionId := s.sessionId.wordless }

/-- The answer with its records unstamped, and without the number of one, as all events count. -/
def Outcome.unstamped : Outcome → Outcome
  | record _ r => record 0 r.unstamped
  | records rs => records (rs.map EventRecord.unstamped)
  | o => o

theorem Datum.cases_of_wordless {d d' : Datum} (h : d.wordless = d'.wordless) :
    d = d' ∨ ∃ t t', d = text t ∧ d' = text t' := by
  cases d with
  | text t =>
    cases d' with
    | text t' => exact .inr ⟨t, t', rfl, rfl⟩
    | _ => cases h
  | _ =>
    cases d' with
    | text t' => cases h
    | _ => exact .inl h

theorem Datum.writtenLike_of_wordless {d d' : Datum} (h : d.wordless = d'.wordless) :
    d.WrittenLike d' := by
  rcases cases_of_wordless h with rfl | ⟨t, t', rfl, rfl⟩
  · exact .refl d
  · exact writtenLike_text t t'

namespace EventRecord

theorem data_unstamped (r : EventRecord) : r.unstamped.data = r.data := rfl

/-- The id and the time that stand ready decide on nothing else in a record. -/
theorem ofFields_unstamped (freshId freshId' : Text) (now now' : Binary64) (f : RecordFields) :
    (ofFields freshId now f).map unstamped = (ofFields freshId' now' f).map unstamped := by
  unfold ofFields
  dsimp only
  generalize Reading.field Field.eventName.key _ _ _ = eventName
  generalize Reading.field Field.eventValue.key _ _ _ = eventValue
  generalize Reading.field Field.transactionId.key _ _ _ = transactionId
  generalize Reading.field Field.interactionId.key _ _ _ = interactionId
  generalize Reading.field Field.interactionType.key _ _ _ = interactionType
  generalize Reading.field Field.conversionSendId.key _ _ _ = conversionSendId
  generalize Reading.field Field.lastReceivedSendId.key _ _ _ = lastReceivedSendId
  have heventId : Problem.of? (Reading.field RecordFields.eventIdKey (.ok freshId) Reading.text
      f.eventId) = Problem.of? (Reading.field RecordFields.eventIdKey (.ok freshId') Reading.text
        f.eventId) := by
    cases f.eventId <;> rfl
  have hts : Problem.of? (Reading.field RecordFields.tsKey (.ok now) Reading.float f.ts) =
      Problem.of? (Reading.field RecordFields.tsKey (.ok now') Reading.float f.ts) := by
    cases f.ts <;> rfl
  generalize Reading.field RecordFields.eventIdKey (.ok freshId) _ _ = eventId at heventId
  generalize Reading.field RecordFields.eventIdKey (.ok freshId') _ _ = eventId' at heventId
  generalize Reading.field RecordFields.tsKey (.ok now) _ _ = ts at hts
  generalize Reading.field RecordFields.tsKey (.ok now') _ _ = ts' at hts
  obtain p | eventName := eventName
  · simp only [Except.map, heventId, hts]
  obtain p | eventValue := eventValue
  · simp only [Except.map, heventId, hts]
  obtain p | transactionId := transactionId
  · simp only [Except.map, heventId, hts]
  obtain p | interactionId := interactionId
  · simp only [Except.map, heventId, hts]
  obtain p | interactionType := interactionType
  · simp only [Except.map, heventId, hts]
  obtain p | conversionSendId := conversionSendId
  · simp only [Except.map, heventId, hts]
  obtain p | lastReceivedSendId := lastReceivedSendId
  · simp only [Except.map, heventId, hts]
  cases eventId <;> cases eventId' <;> cases heventId
  · simp only [Except.map, hts]
  cases ts <;> cases ts' <;> cases hts
  · rfl
  cases conversionSendId <;> cases lastReceivedSendId <;> rfl

theorem writtenLike_payload {r r' : EventRecord} {sessionId sessionId' : Datum}
    (hr : r.unstamped = r'.unstamped) (hsession : sessionId.wordless = sessionId'.wordless) :
    LogLine.WrittenLike (r.payload sessionId).data (r'.payload sessionId').data := by
  have hdata : r.unstamped.data = r'.unstamped.data := congrArg data hr
  rw [data_unstamped, data_unstamped] at hdata
  rcases Datum.cases_of_wordless hsession with rfl | ⟨t, t', rfl, rfl⟩
  · unfold payload
    rw [hdata]
    exact .refl _
  · have hsame : LogLine.WrittenLike r.data r'.data := hdata ▸ .refl _
    exact hsame.append_one sessionIdKey (Datum.writtenLike_text t t')

end EventRecord

namespace Sink

variable {sink sink' : Sink} {r r' : EventRecord} {sessionId sessionId' : Datum}

theorem className_unstamped (sink : Sink) : sink.unstamped.className = sink.className := by
  cases sink <;> rfl

theorem events_unstamped (sink : Sink) :
    sink.unstamped.events = sink.events.map EventRecord.unstamped := by
  cases sink <;> rfl

theorem recent_unstamped (sink : Sink) (limit : Option Int) :
    sink.unstamped.recent limit = (sink.recent limit).map EventRecord.unstamped := by
  unfold recent
  rw [events_unstamped, List.length_map]
  cases limit with
  | none => rfl
  | some n =>
    dsimp only
    split <;> rw [List.map_take]

theorem take_unstamped (hsink : sink.unstamped = sink'.unstamped)
    (hr : r.unstamped = r'.unstamped) : (sink.take r).unstamped = (sink'.take r').unstamped := by
  have htake (sink : Sink) (r : EventRecord) :
      (sink.take r).unstamped = sink.unstamped.take r.unstamped := by
    cases sink with
    | log => rfl
    | memory capacity held => cases capacity <;> simp [take, unstamped, newest, List.map_take]
  rw [htake, htake, hsink, hr]

/-- What sinks report of the same event is written alike, on behalf of any sessions. -/
theorem writtenLike_report (hsink : sink.unstamped = sink'.unstamped)
    (hr : r.unstamped = r'.unstamped) (hsession : sessionId.wordless = sessionId'.wordless) :
    (sink.report r sessionId).WrittenLike (sink'.report r' sessionId') := by
  have hnil : LogLine.WrittenLike [] [] := .nil
  have hid := hnil.append_one "event_id" (Datum.writtenLike_text r.eventId r'.eventId)
  cases sink with
  | memory capacity held =>
    cases sink' with
    | log => cases hsink
    | memory capacity' held' =>
      have hname := hid.append_one "event_name" (Datum.writtenLike_text r.eventName r'.eventName)
      have hboth := hname.append_one "session_id" (Datum.writtenLike_of_wordless hsession)
      exact ⟨rfl, rfl, rfl, hboth.append_one "sink" (.refl _)⟩
  | log =>
    cases sink' with
    | memory => cases hsink
    | log =>
      have hdata := (EventRecord.writtenLike_payload hr hsession).dictionary
      have htype := hid.append_one "type" (.refl (.text eventKind))
      have htime := htype.append_one "time" (Datum.writtenLike_text (r.ts.fixed 3) (r'.ts.fixed 3))
      exact ⟨rfl, rfl, rfl, (htime.append_one "data" hdata).append_one "sink" (.refl _)⟩

end Sink

theorem ServiceSink.kept?_unstamped (sink : ServiceSink) :
    sink.unstamped.kept? = sink.kept?.map Sink.unstamped := by
  cases sink <;> rfl

theorem Service.keeper_unstamped (s : Service) (id : ServiceId) :
    s.unstamped.keeper id = s.keeper id := by
  unfold Service.keeper Service.unstamped
  cases s.sink <;> rfl

theorem Service.unstamped_eq_iff {s s' : Service} :
    s.unstamped = s'.unstamped ↔ s.sink.unstamped = s'.sink.unstamped ∧ s.sources = s'.sources ∧
      s.sessionId.wordless = s'.sessionId.wordless := by
  simp [unstamped]

end Telemetry
