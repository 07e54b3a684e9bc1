import Telemetry.Proofs.World.Changes

/-!
# What operations write

Operations of services and sources write about themselves only: that an attribution was resolved,
that a sink was selected, that a service was set up. None of these entries speaks of a draft or of
an event (`Entry.IsBackground`). Whatever else such an operation does, it keeps all that was written
(`World.Murmured`), and unless it sets logging up it leaves the formats of all loggers as they are
(`Action.Murmurs`).
-/

namespace Telemetry

/-- Entries in the background have been made and no others. -/
def World.Murmured (w w' : World) : Prop :=
  ∃ entries, w'.journal = w.journal ++ entries ∧ ∀ e ∈ entries, e.IsBackground

namespace World.Murmured

variable {w w' w'' : World}

theorem of_same (h : w'.journal = w.journal) : w.Murmured w' :=
  ⟨[], by rw [h, List.append_nil], nofun⟩

theorem trans (h : w.Murmured w') (h' : w'.Murmured w'') : w.Murmured w'' := by
  obtain ⟨entries, hjournal, hentries⟩ := h
  obtain ⟨entries', hjournal', hentries'⟩ := h'
  refine ⟨entries ++ entries', ?_, fun e he => ?_⟩
  · rw [hjournal', hjournal, List.append_assoc]
  · exact (List.mem_append.mp he).elim (hentries e) (hentries' e)

end World.Murmured

namespace Action

variable {α β : Type}

/-- The operation writes entries in the background and no others, and it sets nothing up. -/
structure Murmurs (a : Action α) : Prop where
  journal : ∀ w : World, w.Murmured (run a w).2
  formats : ∀ w, (run a w).2.logging.Agrees w.logging

namespace Murmurs

theorem of_same {a : Action α} (hjournal : ∀ w, (run a w).2.journal = w.journal)
    (hlogging : ∀ w, (run a w).2.logging = w.logging) : Murmurs a :=
  ⟨fun w => .of_same (hjournal w), fun w => hlogging w ▸ .refl _⟩

theorem pure (x : α) : Murmurs (pure x : Action α) := of_same (fun _ => rfl) fun _ => rfl

theorem lift (e : Except Fault α) : Murmurs (lift e) := of_same (fun _ => rfl) fun _ => rfl

theorem fail (fault : Fault) : Murmurs (fail fault : Action α) :=
  of_same (fun _ => rfl) fun _ => rfl

theorem update {f : World → World} (hjournal : ∀ w, (f w).journal = w.journal)
    (hlogging : ∀ w, (f w).logging = w.logging) : Murmurs (update f) :=
  of_same hjournal hlogging

theorem ensureFree (isFree : World → Bool) : Murmurs (ensureFree isFree) :=
  of_same (fun _ => rfl) fun _ => rfl

theorem expect (fault : Fault) (f : World → Option α) : Murmurs (expect fault f) := by
  constructor <;> intro w <;> rw [run_expect]
  · exact .of_same rfl
  · exact .refl _

theorem bind {a : Action α} {f : α → Action β} (ha : Murmurs a) (hf : ∀ x, Murmurs (f x)) :
    Murmurs (a >>= f) where
  journal w := rel_run_bind .trans (ha.journal w) fun x w' _ => (hf x).journal w'
  formats w := rel_run_bind (R := fun w w' => w'.logging.Agrees w.logging)
    (fun h h' => h'.trans h) (ha.formats w) fun x w' _ => (hf x).formats w'

theorem log {e : Entry} (he : e.IsBackground) : Murmurs (log e) := by
  constructor <;> intro w <;> rw [run_log] <;> cases w.logging.check e
  case journal.error fault => exact .of_same rfl
  case journal.ok =>
    exact ⟨w.logging.made e, rfl, fun e' he' => w.logging.eq_of_mem_made he' ▸ he⟩
  all_goals exact w.logging.agrees_use e

end Murmurs

/-! ## Services -/

theorem murmurs_settings : Murmurs settings := by
  refine .of_same (fun w => ?_) fun w => ?_
  all_goals
    rw [run_settings]
    cases w.snapshot with
    | some s => rfl
    | none => cases Settings.load w.environment <;> rfl

theorem murmurs_sinkFor (spec : Option SinkSpec) : Murmurs (sinkFor spec) := by
  have hdefault : Murmurs defaultSink := by
    refine murmurs_settings.bind fun s => ?_
    cases s.sinkAdapter with
    | log => exact (Murmurs.log (e := .logSinkSelected) trivial).bind fun _ => .pure _
    | memory => exact (Murmurs.log (e := .memorySinkSelected _) trivial).bind fun _ => .lift _
  rcases spec with _ | _ | capacity | other
  · exact hdefault.bind fun _ => .pure _
  · exact .pure _
  · exact (Murmurs.lift _).bind fun _ => .pure _
  · exact (Murmurs.expect _ _).bind fun _ => .pure _

theorem murmurs_makeService (sink : Option SinkSpec) (session push : Option Source)
    (sessionId : Datum) : Murmurs (makeService sink session push sessionId) := by
  have hsession : Murmurs (sessionIdOr sessionId) := by
    refine .of_same (fun w => ?_) fun w => ?_
    all_goals
      unfold run sessionIdOr
      split <;> rfl
  exact (murmurs_sinkFor sink).bind fun _ => hsession.bind fun _ => .pure _

theorem murmurs_enterService (id : ServiceId) (service : Service) :
    Murmurs (enterService id service) := .update (fun _ => rfl) fun _ => rfl

theorem murmurs_openService (id : ServiceId) (sink : Option SinkSpec)
    (session push : Option Source) (sessionId : Datum) :
    Murmurs (openService id sink session push sessionId) :=
  (Murmurs.ensureFree _).bind fun _ => (murmurs_makeService ..).bind fun _ =>
    (murmurs_enterService ..).bind fun _ => .pure _

theorem murmurs_share (id : Option ServiceId) : Murmurs (share id) := by
  cases id with
  | some id => exact (Murmurs.expect _ _).bind fun _ => .update (fun _ => rfl) fun _ => rfl
  | none => exact .update (fun _ => rfl) fun _ => rfl

theorem murmurs_sharedService : Murmurs sharedService := by
  have hmake (id : ServiceId) : Murmurs (makeShared id) :=
    (murmurs_makeService ..).bind fun _ => (murmurs_enterService ..).bind fun _ =>
      (murmurs_share _).bind fun _ => .pure _
  constructor <;> intro w <;> rw [run_sharedService] <;> cases w.shared
  case journal.some id => exact .of_same rfl
  case journal.none => exact (hmake _).journal w
  case formats.some id => exact .refl _
  case formats.none => exact (hmake _).formats w

/-- A start writes as other operations do, but it is the one that sets logging up. -/
theorem murmurs_announce (s : Settings) (id : ServiceId) : Murmurs (announce s id) :=
  (Murmurs.expect _ _).bind fun _ => (Murmurs.expect _ _).bind fun _ =>
    Murmurs.log (e := .started ..) trivial

theorem murmured_start (id : ServiceId) (sink : Option SinkSpec) (session push : Option Source)
    (w : World) : w.Murmured (run (start id sink session push) w).2 := by
  have hrest (s : Settings) : Murmurs (do
      let id ← openService id sink session push .null
      share (some id)
      announce s id
      return id) :=
    (murmurs_openService ..).bind fun _ => (murmurs_share _).bind fun _ =>
      (murmurs_announce s _).bind fun _ => .pure _
  refine rel_run_bind .trans (murmurs_settings.journal w) fun s w₁ _ => ?_
  exact rel_run_bind .trans (.of_same rfl) fun _ w₂ _ => (hrest s).journal w₂

theorem murmurs_recent (id : ServiceId) (limit : Option Int) : Murmurs (recent id limit) :=
  (Murmurs.expect _ _).bind fun _ => .pure _

theorem murmurs_isHealthy (id : ServiceId) : Murmurs (isHealthy id) :=
  (Murmurs.expect _ _).bind fun _ => .pure _

/-! ## Sources -/

theorem murmurs_putSources (place : SourcesId) (sources : Sources) :
    Murmurs (putSources place sources) := by
  refine .update (fun w => ?_) fun w => ?_
  all_goals
    obtain ⟨services, resolvers, heq⟩ := World.withSources_eq w place sources
    rw [heq]

theorem murmurs_note (place : SourcesId) (inquiries : List Inquiry) :
    Murmurs (note place inquiries) := .update (fun _ => rfl) fun _ => rfl

theorem murmurs_setSendId (id : ServiceId) (q : Question) (sendId : Datum) :
    Murmurs (setSendId id q sendId) := by
  refine (Murmurs.expect _ _).bind fun sources => ?_
  cases sources.source q with
  | held _ => exact murmurs_putSources ..
  | external _ _ | lacking _ => exact .fail _

theorem murmurs_ask (id : ServiceId) (q : Question) : Murmurs (ask id q) := by
  refine (Murmurs.expect _ _).bind fun sources => ?_
  rcases sources.ask q with ⟨⟨_, answer, _⟩, asked⟩
  refine (murmurs_putSources ..).bind fun _ => (murmurs_note ..).bind fun _ => ?_
  cases answer with
  | value sendId => exact .pure _
  | failure f => exact .fail _

theorem murmurs_sendIds (id : ServiceId) : Murmurs (sendIds id) :=
  (murmurs_ask ..).bind fun _ => (murmurs_ask ..).bind fun _ => .pure _

theorem murmurs_conclude {r : Resolution} (h : ∀ e ∈ r.entry, e.IsBackground) :
    Murmurs (conclude r) := by
  unfold conclude
  cases hentry : r.entry with
  | some e => exact (Murmurs.log (h e hentry)).bind fun _ => .lift _
  | none => exact .lift _

theorem murmurs_resolve (place : SourcesId) (explicit : Datum) :
    Murmurs (resolve place explicit) :=
  (Murmurs.expect _ _).bind fun s => (murmurs_putSources ..).bind fun _ =>
    (murmurs_note ..).bind fun _ => murmurs_conclude (s.isBackground_resolve explicit)

theorem murmurs_openResolver (id : ResolverId) (sources : Sources) :
    Murmurs (openResolver id sources) :=
  (Murmurs.ensureFree _).bind fun _ => .update (fun _ => rfl) fun _ => rfl

/-! ## The services of a draft -/

theorem murmurs_serviceOf (d : Draft) : Murmurs (serviceOf d) := by
  unfold serviceOf
  cases d.service with
  | some id => exact .pure _
  | none => exact murmurs_sharedService

theorem murmurs_attributionOf (d : Draft) : Murmurs (attributionOf d) := by
  have hplace : Murmurs (placeOf d) := by
    unfold placeOf
    cases d.resolver with
    | some id => exact .pure _
    | none => exact (murmurs_serviceOf d).bind fun _ => .pure _
  exact hplace.bind fun _ => murmurs_resolve ..

end Action

end Telemetry
