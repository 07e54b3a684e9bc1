import Telemetry.Proofs.Attribution
import Telemetry.World.Step

/-!
# Operations apart from drafts

Operations of services and sources neither read nor change the drafts, the records and the metrics,
what they write to the journal does not depend on what it holds, and they do not write with the
logger that entries about drafts are written with. `Action.Apart` says all of this in one equation:
in front of any `Backdrop` such an operation does the same and leaves the backdrop as it is. It is
closed under sequencing (`Apart.bind`), and it holds of every operation that creating an event goes
through before the event is made (`apart_attributionOf`).
-/

namespace Telemetry

/-- What operations of services work in front of. -/
structure Backdrop where
  drafts : Registry DraftId Draft
  records : List EventRecord
  metrics : Metrics
  /-- The entries that were made before. -/
  journal : List Entry
  /-- The format that the logger keeps which entries about drafts are written with. -/
  format : Option LogFormat

namespace World

/-- The world in front of a backdrop: its own entries follow those that were made before. -/
def before (w : World) (b : Backdrop) : World :=
  { w with drafts := b.drafts, records := b.records, metrics := b.metrics,
           journal := b.journal ++ w.journal,
           logging := w.logging.keep .drafts b.format }

/-- The backdrop of a world. -/
def backdrop (w : World) : Backdrop :=
  ⟨w.drafts, w.records, w.metrics, w.journal, w.logging.kept .drafts⟩

/-- The world without its journal. -/
def bare (w : World) : World := { w with journal := [] }

theorem bare_before (w : World) : w.bare.before w.backdrop = w := by
  simp [bare, before, backdrop, Logging.keep_kept]

end World

namespace Action

variable {α β : Type}

/-- The operation has no part in the backdrop. -/
structure Apart (a : Action α) : Prop where
  run_before : ∀ (b : Backdrop) (w : World),
    run a (w.before b) = ((run a w).1, (run a w).2.before b)

namespace Apart

theorem pure (x : α) : Apart (pure x : Action α) := ⟨fun _ _ => rfl⟩

theorem bind {a : Action α} {f : α → Action β} (ha : Apart a) (hf : ∀ x, Apart (f x)) :
    Apart (a >>= f) := by
  constructor
  intro b w
  rw [run_bind, run_bind, ha.run_before]
  rcases run a w with ⟨fault | x, w'⟩
  · rfl
  · exact (hf x).run_before b w'

theorem fail (fault : Fault) : Apart (fail fault : Action α) := ⟨fun _ _ => rfl⟩

theorem lift (e : Except Fault α) : Apart (lift e) := ⟨fun _ _ => rfl⟩

theorem update {f : World → World} (hf : ∀ b w, f (w.before b) = (f w).before b) :
    Apart (update f) := by
  constructor
  intro b w
  rw [run_update, run_update, hf]

theorem expect (fault : Fault) {f : World → Option α} (hf : ∀ b w, f (w.before b) = f w) :
    Apart (expect fault f) := by
  constructor
  intro b w
  unfold run Action.expect
  rw [hf]
  cases f w <;> rfl

theorem ensureFree {isFree : World → Bool} (h : ∀ b w, isFree (w.before b) = isFree w) :
    Apart (ensureFree isFree) := by
  constructor
  intro b w
  unfold run Action.ensureFree
  rw [h]

variable {a : Action α} (h : Apart a) (w : World)

include h

/-- From any world, the operation does what it does from the bare one. -/
theorem run_eq : run a w = ((run a w.bare).1, (run a w.bare).2.before w.backdrop) := by
  have hrun := h.run_before w.backdrop w.bare
  rwa [w.bare_before] at hrun

theorem drafts : (run a w).2.drafts = w.drafts := by
  rw [h.run_eq w]
  rfl

theorem records : (run a w).2.records = w.records := by
  rw [h.run_eq w]
  rfl

theorem metrics : (run a w).2.metrics = w.metrics := by
  rw [h.run_eq w]
  rfl

end Apart

/-! ## Services -/

theorem run_log (e : Entry) (w : World) :
    run (log e) w =
      match w.logging.check e with
      | .ok () => (.ok (), w.logged e)
      | .error fault => (.error fault, { w with logging := w.logging.use e }) := rfl

theorem apart_log {e : Entry} (he : e.IsBackground) : Apart (log e) := by
  constructor
  intro b w
  have hne := he.logger?_ne
  have hcheck : (w.before b).logging.check e = w.logging.check e :=
    w.logging.check_keep_of_ne hne b.format
  rw [run_log, run_log, hcheck]
  cases w.logging.check e with
  | error fault => simp [World.before, Logging.use_keep_of_ne _ hne]
  | ok _ =>
    simp [World.before, World.logged, Logging.use_keep_of_ne _ hne, Logging.made_keep_of_ne _ hne]

theorem run_settings (w : World) :
    run settings w =
      match w.snapshot with
      | some s => (.ok s, w)
      | none =>
        match Settings.load w.environment with
        | .ok s => (.ok s, { w with snapshot := some s })
        | .error problems => (.error (.invalid problems), w) := rfl

theorem apart_settings : Apart settings := by
  constructor
  intro b w
  have hsnapshot : (w.before b).snapshot = w.snapshot := rfl
  have henvironment : (w.before b).environment = w.environment := rfl
  rw [run_settings, run_settings, hsnapshot, henvironment]
  cases w.snapshot with
  | some s => rfl
  | none => cases Settings.load w.environment <;> rfl

theorem apart_defaultSink : Apart defaultSink := by
  refine apart_settings.bind fun s => ?_
  cases s.sinkAdapter with
  | log => exact (apart_log (e := .logSinkSelected) trivial).bind fun _ => .pure _
  | memory => exact (apart_log (e := .memorySinkSelected _) trivial).bind fun _ => .lift _

theorem apart_sessionIdOr (given : Datum) : Apart (sessionIdOr given) := by
  constructor
  intro b w
  unfold run sessionIdOr
  split <;> rfl

theorem apart_sinkOf (id : ServiceId) : Apart (sinkOf id) := .expect _ fun _ _ => rfl

theorem apart_sinkFor (spec : Option SinkSpec) : Apart (sinkFor spec) := by
  rcases spec with _ | _ | capacity | other
  · exact apart_defaultSink.bind fun _ => .pure _
  · exact .pure _
  · exact (Apart.lift _).bind fun _ => .pure _
  · exact (apart_sinkOf other).bind fun _ => .pure _

theorem apart_makeService (sink : Option SinkSpec) (session push : Option Source)
    (sessionId : Datum) : Apart (makeService sink session push sessionId) :=
  (apart_sinkFor sink).bind fun _ => (apart_sessionIdOr _).bind fun _ => .pure _

theorem apart_enterService (id : ServiceId) (service : Service) :
    Apart (enterService id service) := .update fun _ _ => rfl

theorem apart_openService (id : ServiceId) (sink : Option SinkSpec)
    (session push : Option Source) (sessionId : Datum) :
    Apart (openService id sink session push sessionId) :=
  (Apart.ensureFree fun _ _ => rfl).bind fun _ =>
    (apart_makeService ..).bind fun _ => (apart_enterService ..).bind fun _ => .pure _

theorem apart_service (id : ServiceId) : Apart (service id) := .expect _ fun _ _ => rfl

theorem apart_share (id : Option ServiceId) : Apart (share id) := by
  cases id with
  | some id => exact (apart_service id).bind fun _ => .update fun _ _ => rfl
  | none => exact .update fun _ _ => rfl

theorem run_sharedService (w : World) :
    run sharedService w =
      match w.shared with
      | some id => (.ok id, w)
      | none => run (makeShared w.nextAutomatic) w := by
  unfold run sharedService
  cases w.shared <;> rfl

theorem apart_makeShared (id : ServiceId) : Apart (makeShared id) :=
  (apart_makeService ..).bind fun _ => (apart_enterService ..).bind fun _ =>
    (apart_share _).bind fun _ => .pure _

theorem apart_sharedService : Apart sharedService := by
  constructor
  intro b w
  have hshared : (w.before b).shared = w.shared := rfl
  have hnext : (w.before b).nextAutomatic = w.nextAutomatic := rfl
  rw [run_sharedService, run_sharedService, hshared, hnext]
  cases w.shared with
  | some id => rfl
  | none => exact (apart_makeShared _).run_before b w

theorem apart_announce (s : Settings) (id : ServiceId) : Apart (announce s id) :=
  (apart_service _).bind fun _ => (apart_sinkOf _).bind fun _ =>
    apart_log (e := .started ..) trivial

theorem apart_start (id : ServiceId) (sink : Option SinkSpec) (session push : Option Source) :
    Apart (start id sink session push) :=
  apart_settings.bind fun s => (Apart.update fun _ _ => rfl).bind fun _ =>
    (apart_openService ..).bind fun _ => (apart_share _).bind fun _ =>
      (apart_announce s _).bind fun _ => .pure _

theorem apart_recent (id : ServiceId) (limit : Option Int) : Apart (recent id limit) :=
  (apart_sinkOf id).bind fun _ => .pure _

theorem apart_isHealthy (id : ServiceId) : Apart (isHealthy id) :=
  (apart_sinkOf id).bind fun _ => .pure _

/-! ## Sources -/

theorem sources?_before (b : Backdrop) (w : World) (place : SourcesId) :
    (w.before b).sources? place = w.sources? place := by
  cases place <;> rfl

theorem apart_sourcesAt (place : SourcesId) : Apart (sourcesAt place) :=
  .expect _ fun b w => sources?_before b w place

theorem apart_putSources (place : SourcesId) (sources : Sources) :
    Apart (putSources place sources) := by
  refine .update fun b w => ?_
  cases place with
  | resolver id => rfl
  | service id =>
    have hservices : (w.before b).services = w.services := rfl
    unfold World.withSources
    dsimp only
    rw [hservices]
    cases w.services.get? id <;> rfl

theorem apart_note (place : SourcesId) (inquiries : List Inquiry) : Apart (note place inquiries) :=
  .update fun _ _ => rfl

theorem apart_setSendId (id : ServiceId) (q : Question) (sendId : Datum) :
    Apart (setSendId id q sendId) := by
  refine (apart_sourcesAt _).bind fun sources => ?_
  cases sources.source q with
  | held _ => exact apart_putSources ..
  | external _ _ | lacking _ => exact .fail _

theorem apart_ask (id : ServiceId) (q : Question) : Apart (ask id q) := by
  refine (apart_sourcesAt _).bind fun sources => ?_
  rcases sources.ask q with ⟨⟨_, answer, _⟩, asked⟩
  refine (apart_putSources ..).bind fun _ => (apart_note ..).bind fun _ => ?_
  cases answer with
  | value sendId => exact .pure _
  | failure f => exact .fail _

theorem apart_sendIds (id : ServiceId) : Apart (sendIds id) :=
  (apart_ask ..).bind fun _ => (apart_ask ..).bind fun _ => .pure _

theorem apart_conclude {r : Resolution} (h : ∀ e ∈ r.entry, e.IsBackground) :
    Apart (conclude r) := by
  unfold conclude
  cases hentry : r.entry with
  | some e => exact (apart_log (h e hentry)).bind fun _ => .lift _
  | none => exact .lift _

theorem apart_resolve (place : SourcesId) (explicit : Datum) : Apart (resolve place explicit) :=
  (apart_sourcesAt _).bind fun s => (apart_putSources ..).bind fun _ =>
    (apart_note ..).bind fun _ => apart_conclude (s.isBackground_resolve explicit)

theorem apart_openResolver (id : ResolverId) (sources : Sources) :
    Apart (openResolver id sources) :=
  (Apart.ensureFree fun _ _ => rfl).bind fun _ => .update fun _ _ => rfl

/-! ## The services of a draft -/

theorem apart_serviceOf (d : Draft) : Apart (serviceOf d) := by
  unfold serviceOf
  cases d.service with
  | some id => exact .pure _
  | none => exact apart_sharedService

theorem apart_placeOf (d : Draft) : Apart (placeOf d) := by
  unfold placeOf
  cases d.resolver with
  | some place => exact .pure _
  | none => exact (apart_serviceOf d).bind fun _ => .pure _

theorem apart_attributionOf (d : Draft) : Apart (attributionOf d) :=
  (apart_placeOf d).bind fun _ => apart_resolve ..

end Action

end Telemetry
