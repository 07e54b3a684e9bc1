import Telemetry.Proofs.World.DefaultSink

/-!
# Operations that ask for the settings

Most operations have nothing to do with the settings (`Action.KeepsSettings`). Those that make a
service without a given sink ask for them, and so do the start and whoever reads them.
`World.Consults` says what that means, whether they can be read or not, and `World.consults_step`
says for each step when it asks. A service that came with a step has the sink of the settings
unless it was given one.
-/

namespace Telemetry

namespace Sink

/-- The sink without the events that it holds: its kind and its bound. -/
def emptied : Sink → Sink
  | memory capacity _ => memory capacity []
  | log => log

theorem emptied_take (sink : Sink) (r : EventRecord) : (sink.take r).emptied = sink.emptied := by
  cases sink <;> rfl

end Sink

/-- The sink that the settings ask for. -/
def Settings.sink (s : Settings) : Except Fault Sink :=
  match s.sinkAdapter with
  | .log => .ok .log
  | .memory => Sink.ofCapacity (some s.sinkBufferSize)

namespace World

/-- The kind and the bound of the sink that a service keeps. -/
def kindOf (w : World) (id : ServiceId) : Option Sink := (w.keptSink? id).map Sink.emptied

/-- The worlds agree in the settings, in what they are read from, and in the kinds of sinks. -/
structure SameSettings (w w' : World) : Prop where
  environment : w'.environment = w.environment
  snapshot : w'.snapshot = w.snapshot
  kinds : ∀ id, w'.kindOf id = w.kindOf id

variable {w w' w'' : World}

theorem SameSettings.refl (w : World) : w.SameSettings w := ⟨rfl, rfl, fun _ => rfl⟩

theorem SameSettings.trans (h : w.SameSettings w') (h' : w'.SameSettings w'') :
    w.SameSettings w'' where
  environment := h'.environment.trans h.environment
  snapshot := h'.snapshot.trans h.snapshot
  kinds id := (h'.kinds id).trans (h.kinds id)

theorem sameSettings_withSources (w : World) (place : SourcesId) (s : Sources) :
    w.SameSettings (w.withSources place s) := by
  obtain ⟨services, resolvers, heq⟩ := withSources_eq w place s
  refine ⟨by rw [heq], by rw [heq], fun id => ?_⟩
  rw [kindOf, kindOf, keptSink?, keptSink?, get?_withSources, Option.bind_map]
  rfl

theorem sameSettings_delivered {keeper : ServiceId} {sink : Sink}
    (hkept : w.keptSink? keeper = some sink) (r : EventRecord) :
    w.SameSettings (w.delivered keeper sink r) := by
  obtain ⟨services, heq⟩ := w.delivered_eq keeper sink r
  refine ⟨by rw [heq], by rw [heq], fun other => ?_⟩
  obtain ⟨service, hs, -⟩ := keptSink?_eq_some_iff.mp hkept
  have hafter : (w.delivered keeper sink r).services.get? other = _ :=
    get?_withSink hs (sink.take r) other
  by_cases hid : other = keeper
  · subst hid
    rw [if_pos rfl] at hafter
    rw [kindOf, keptSink?_eq_some_iff.mpr ⟨_, hafter, rfl⟩, kindOf, hkept, Option.map_some,
      Option.map_some, sink.emptied_take]
  · rw [if_neg hid] at hafter
    rw [kindOf, kindOf, keptSink?, keptSink?, hafter]

end World

namespace Action

open World (SameSettings sameSettings_withSources sameSettings_delivered)

variable {α β : Type}

/-! ## Operations that have nothing to do with the settings -/

/-- The operation leaves the settings alone, and the kinds of sinks. -/
structure KeepsSettings (a : Action α) : Prop where
  same : ∀ w : World, w.SameSettings (run a w).2

namespace KeepsSettings

theorem of_eq {a : Action α} (h : ∀ w, (run a w).2 = w) : KeepsSettings a := by
  constructor
  intro w
  rw [h w]
  exact .refl w

theorem pure (x : α) : KeepsSettings (pure x : Action α) := of_eq fun _ => rfl

theorem lift (e : Except Fault α) : KeepsSettings (lift e) := of_eq fun _ => rfl

theorem ensureFree (isFree : World → Bool) : KeepsSettings (ensureFree isFree) :=
  of_eq fun _ => rfl

theorem expect (fault : Fault) (f : World → Option α) : KeepsSettings (expect fault f) :=
  of_eq fun w => by rw [run_expect]

theorem update {f : World → World} (h : ∀ w : World, w.SameSettings (f w)) :
    KeepsSettings (update f) := ⟨h⟩

theorem bind {a : Action α} {f : α → Action β} (ha : KeepsSettings a)
    (hf : ∀ x, KeepsSettings (f x)) : KeepsSettings (a >>= f) :=
  ⟨fun w => rel_run_bind .trans (ha.same w) fun x w' _ => (hf x).same w'⟩

end KeepsSettings

theorem keepsSettings_log (e : Entry) : KeepsSettings (log e) := by
  constructor
  intro w
  rw [run_log]
  cases w.logging.check e <;> exact ⟨rfl, rfl, fun _ => rfl⟩

theorem keepsSettings_report (e : Except Fault α) : KeepsSettings (report e) := by
  constructor
  intro w
  rw [run_report]
  unfold World.afterReport
  split
  · exact ⟨rfl, rfl, fun _ => rfl⟩
  · exact .refl w

theorem keepsSettings_edit (id : DraftId) (setter : Draft → Except Fault Draft) :
    KeepsSettings (edit id setter) :=
  (KeepsSettings.expect _ _).bind fun _ => (keepsSettings_report _).bind fun _ =>
    .update fun _ => ⟨rfl, rfl, fun _ => rfl⟩

theorem keepsSettings_openDraft (id : DraftId) (name : Datum) (service : Option ServiceId)
    (resolver : Option SourcesId) : KeepsSettings (openDraft id name service resolver) := by
  have hknown (isKnown : World → Bool) : KeepsSettings (ensureKnown isKnown) := .of_eq fun _ => rfl
  exact (KeepsSettings.ensureFree _).bind fun _ => (hknown _).bind fun _ => (hknown _).bind fun _ =>
    (keepsSettings_report _).bind fun _ => .update fun _ => ⟨rfl, rfl, fun _ => rfl⟩

theorem keepsSettings_stamp (make : Text → Binary64 → Except Fault EventRecord) :
    KeepsSettings (stamp make) := .of_eq fun _ => rfl

theorem keepsSettings_keep (r : EventRecord) : KeepsSettings (keep r) :=
  ⟨fun _ => ⟨rfl, rfl, fun _ => rfl⟩⟩

theorem keepsSettings_makeRecord (fields : RecordFields) : KeepsSettings (makeRecord fields) :=
  (keepsSettings_stamp _).bind fun r => (keepsSettings_keep r).bind fun _ => .pure _

theorem keepsSettings_sessionIdOr (given : Datum) : KeepsSettings (sessionIdOr given) := by
  constructor
  intro w
  unfold run sessionIdOr
  split
  · exact ⟨rfl, rfl, fun _ => rfl⟩
  · exact .refl w

theorem keepsSettings_share (id : Option ServiceId) : KeepsSettings (share id) := by
  constructor
  intro w
  rw [run_share]
  split
  · exact ⟨rfl, rfl, fun _ => rfl⟩
  · exact .refl w

theorem keepsSettings_openResolver (id : ResolverId) (s : Sources) :
    KeepsSettings (openResolver id s) :=
  (KeepsSettings.ensureFree _).bind fun _ => .update fun _ => ⟨rfl, rfl, fun _ => rfl⟩

theorem keepsSettings_putSources (place : SourcesId) (s : Sources) :
    KeepsSettings (putSources place s) :=
  .update fun w => sameSettings_withSources w place s

theorem keepsSettings_note (place : SourcesId) (inquiries : List Inquiry) :
    KeepsSettings (note place inquiries) := .update fun _ => ⟨rfl, rfl, fun _ => rfl⟩

theorem keepsSettings_setSendId (id : ServiceId) (q : Question) (sendId : Datum) :
    KeepsSettings (setSendId id q sendId) := by
  refine (KeepsSettings.expect _ _).bind fun s => ?_
  cases s.source q with
  | held _ => exact keepsSettings_putSources ..
  | external _ _ | lacking _ => exact .of_eq fun _ => rfl

theorem keepsSettings_ask (id : ServiceId) (q : Question) : KeepsSettings (ask id q) := by
  refine (KeepsSettings.expect _ _).bind fun s => ?_
  rcases s.ask q with ⟨⟨_, answer, _⟩, asked⟩
  refine (keepsSettings_putSources ..).bind fun _ => (keepsSettings_note ..).bind fun _ => ?_
  cases answer <;> exact .of_eq fun _ => rfl

theorem keepsSettings_sendIds (id : ServiceId) : KeepsSettings (sendIds id) :=
  (keepsSettings_ask ..).bind fun _ => (keepsSettings_ask ..).bind fun _ => .pure _

theorem keepsSettings_conclude (r : Resolution) : KeepsSettings (conclude r) := by
  unfold conclude
  cases r.entry with
  | some e => exact (keepsSettings_log e).bind fun _ => .lift _
  | none => exact .lift _

theorem keepsSettings_resolve (place : SourcesId) (explicit : Datum) :
    KeepsSettings (resolve place explicit) :=
  (KeepsSettings.expect _ _).bind fun _ => (keepsSettings_putSources ..).bind fun _ =>
    (keepsSettings_note ..).bind fun _ => keepsSettings_conclude _

theorem keepsSettings_submit (id : ServiceId) (r : EventRecord) : KeepsSettings (submit id r) := by
  constructor
  intro w
  cases hsink : w.sink? id with
  | none =>
    rw [run_submit_none w hsink]
    exact .refl w
  | some found =>
    obtain ⟨keeper, sink⟩ := found
    obtain ⟨service, hs, -, hkept⟩ := World.sink?_eq_some_iff.mp hsink
    have hdelivered := sameSettings_delivered hkept r
    rw [run_submit w hs hsink]
    split <;> exact hdelivered.trans ⟨rfl, rfl, fun _ => rfl⟩

theorem keepsSettings_recent (id : ServiceId) (limit : Option Int) :
    KeepsSettings (recent id limit) := (KeepsSettings.expect _ _).bind fun _ => .pure _

theorem keepsSettings_isHealthy (id : ServiceId) : KeepsSettings (isHealthy id) :=
  (KeepsSettings.expect _ _).bind fun _ => .pure _

end Action

/-! ## Asking for the settings -/

namespace World

variable {α β : Type} {w w' : World} {asks asks' gives gives' : Prop}

/--
What becomes of the settings, and of the kinds of sinks, in an operation that ends so and asks for
the settings in this case only. If they cannot be read the operation fails, and nothing is kept of
the attempt. In the case `gives` a new service may have any sink.
-/
structure Consults (asks gives : Prop) (w : World) (result : Except Fault α × World) : Prop where
  environment : result.2.environment = w.environment
  kept : ¬asks → result.2.snapshot = w.snapshot
  read : asks → ∀ s, w.currentSettings = .ok s → result.2.snapshot = some s
  failed : asks → ∀ problems, w.currentSettings = .error problems →
    result.1 = .error (.invalid problems) ∧ result.2.snapshot = w.snapshot
  kinds : ∀ id sink, result.2.kindOf id = some sink → w.kindOf id = some sink ∨
    (∃ s, result.2.snapshot = some s ∧ s.sink = .ok sink) ∨ gives

theorem currentSettings_of_snapshot {s : Settings} (h : w.snapshot = some s) :
    w.currentSettings = .ok s := by
  rw [currentSettings, h]

theorem SameSettings.consults {result : Except Fault α × World} (h : w.SameSettings result.2)
    (hasks : ¬asks) : Consults asks gives w result where
  environment := h.environment
  kept _ := h.snapshot
  read h := absurd h hasks
  failed h := absurd h hasks
  kinds id sink hkind := .inl (by rw [← h.kinds id, hkind])

namespace Consults

variable {result : Except Fault α × World}

theorem congr (h : Consults asks gives w result) (hiff : asks ↔ asks') :
    Consults asks' gives w result :=
  propext hiff ▸ h

theorem mono (h : Consults asks gives w result) (himp : gives → gives') :
    Consults asks gives' w result :=
  { h with kinds := fun id sink hkind => (h.kinds id sink hkind).imp_right (.imp_right himp) }

/-- Settings that were read stay. -/
theorem snapshot_eq_some (h : Consults asks gives w result) {s : Settings}
    (hs : w.snapshot = some s) : result.2.snapshot = some s := by
  by_cases hasks : asks
  · exact h.read hasks s (currentSettings_of_snapshot hs)
  · rw [h.kept hasks, hs]

theorem current_of_not (h : Consults asks gives w result) (hasks : ¬asks) :
    result.2.currentSettings = w.currentSettings := by
  rw [currentSettings, currentSettings, h.environment, h.kept hasks]

end Consults

end World

namespace Action

open World (Consults)

variable {α β : Type} {w : World} {p g : Prop}

theorem KeepsSettings.consults {a : Action α} (h : KeepsSettings a) (hasks : ¬p) :
    Consults p g w (run a w) := (h.same w).consults hasks

/-- The first operation asks, or it ends well and the second one asks. -/
theorem consults_bind {a : Action α} {f : α → Action β} {q : α → World → Prop}
    (ha : Consults p g w (run a w))
    (hf : ∀ x w', run a w = (.ok x, w') → Consults (q x w') g w' (run (f x) w')) :
    Consults (p ∨ ∃ x w', run a w = (.ok x, w') ∧ q x w') g w (run (a >>= f) w) := by
  rcases hrun : run a w with ⟨fault | x, w'⟩
  · rw [hrun] at ha
    rw [run_bind_error _ hrun]
    refine Consults.congr ⟨ha.environment, ha.kept, ha.read, ?_, ha.kinds⟩ (by simp)
    intro h problems hproblems
    exact ⟨congrArg _ (Except.error.inj (ha.failed h problems hproblems).1),
      (ha.failed h problems hproblems).2⟩
  · have hf := hf x w' hrun
    rw [hrun] at ha
    rw [run_bind_ok _ hrun]
    have hiff : (p ∨ q x w') ↔ p ∨ ∃ x₁ w₁,
        (Except.ok (ε := Fault) x, w') = (.ok x₁, w₁) ∧ q x₁ w₁ := by
      simp
    refine Consults.congr ?_ hiff
    refine ⟨hf.environment.trans ha.environment, fun hnot => ?_, fun h s hs => ?_,
      fun h problems hproblems => ?_, fun id sink hkind => ?_⟩
    · rw [not_or] at hnot
      exact (hf.kept hnot.2).trans (ha.kept hnot.1)
    · by_cases hasks : p
      · exact hf.snapshot_eq_some (ha.read hasks s hs)
      · exact hf.read (h.resolve_left hasks) s ((ha.current_of_not hasks).trans hs)
    · -- Had the first operation asked, it would have failed.
      by_cases hasks : p
      · cases (ha.failed hasks problems hproblems).1
      · have hfailed := hf.failed (h.resolve_left hasks) problems
          ((ha.current_of_not hasks).trans hproblems)
        exact ⟨hfailed.1, hfailed.2.trans (ha.kept hasks)⟩
    · rcases hf.kinds id sink hkind with hkind | hmade | hgives
      · rcases ha.kinds id sink hkind with hkind | ⟨s, hs, hsink⟩ | hgives
        · exact .inl hkind
        · exact .inr (.inl ⟨s, hf.snapshot_eq_some hs, hsink⟩)
        · exact .inr (.inr hgives)
      · exact .inr (.inl hmade)
      · exact .inr (.inr hgives)

theorem consults_bind_keeps {a : Action α} {f : α → Action β} (ha : Consults p g w (run a w))
    (hf : ∀ x, KeepsSettings (f x)) : Consults p g w (run (a >>= f) w) :=
  (consults_bind (q := fun _ _ => False) ha fun x _ _ => (hf x).consults id).congr (by simp)

theorem consults_settings (w : World) : Consults True g w (run settings w) := by
  rw [run_settings]
  cases hsnapshot : w.snapshot with
  | some s =>
    refine ⟨rfl, fun h => absurd trivial h, fun _ s' hs' => ?_, fun _ problems hproblems => ?_,
      fun _ _ => .inl⟩
    · rw [World.currentSettings_of_snapshot hsnapshot] at hs'
      cases hs'
      exact hsnapshot
    · rw [World.currentSettings_of_snapshot hsnapshot] at hproblems
      cases hproblems
  | none =>
    have hcurrent : w.currentSettings = Settings.load w.environment := by
      rw [World.currentSettings, hsnapshot]
    cases hload : Settings.load w.environment with
    | ok s =>
      refine ⟨rfl, fun h => absurd trivial h, fun _ s' hs' => ?_, fun _ problems hproblems => ?_,
        fun _ _ => .inl⟩
      · rw [hcurrent, hload] at hs'
        cases hs'
        rfl
      · rw [hcurrent, hload] at hproblems
        cases hproblems
    | error problems =>
      refine ⟨rfl, fun h => absurd trivial h, fun _ s' hs' => ?_, fun _ problems' hproblems => ?_,
        fun _ _ => .inl⟩
      · rw [hcurrent, hload] at hs'
        cases hs'
      · rw [hcurrent, hload] at hproblems
        cases hproblems
        exact ⟨rfl, rfl⟩

theorem emptied_of_settings {s : Settings} {sink : Sink} (h : s.sink = .ok sink) :
    sink.emptied = sink := by
  unfold Settings.sink at h
  cases hadapter : s.sinkAdapter with
  | log =>
    rw [hadapter] at h
    cases h
    rfl
  | memory =>
    rw [hadapter] at h
    have hempty := Sink.events_of_ofCapacity h
    cases sink with
    | memory capacity held =>
      cases hempty
      rfl
    | log => rfl

/-- A default sink that was made is the one of the settings, which are kept from then on. -/
theorem sink_of_run_defaultSink {w' : World} {sink : Sink}
    (h : run defaultSink w = (.ok sink, w')) :
    ∃ s, w'.snapshot = some s ∧ s.sink = .ok sink := by
  obtain ⟨s, w₁, hread, h⟩ := run_bind_eq_ok_iff.mp h
  have hs : w₁.snapshot = some s := by
    have hconsults : Consults True False w (run settings w) := consults_settings w
    rw [hread] at hconsults
    exact hconsults.read trivial s (World.run_settings_eq_ok_iff.mp ⟨w₁, hread⟩)
  have hlogged {e : Entry} {w₂ : World} (hlog : run (log e) w₁ = (.ok (), w₂)) :
      w₂.snapshot = some s := by
    have hkept := (keepsSettings_log e).same w₁
    rw [hlog] at hkept
    exact hkept.snapshot.trans hs
  unfold Settings.sink
  refine ⟨s, ?_⟩
  cases hadapter : s.sinkAdapter with
  | log =>
    rw [hadapter] at h
    obtain ⟨_, w₂, hlog, h⟩ := run_bind_eq_ok_iff.mp h
    cases h
    exact ⟨hlogged hlog, rfl⟩
  | memory =>
    rw [hadapter] at h
    obtain ⟨_, w₂, hlog, h⟩ := run_bind_eq_ok_iff.mp h
    obtain rfl : w₂ = w' := congrArg Prod.snd h
    exact ⟨hlogged hlog, congrArg Prod.fst h⟩

theorem consults_defaultSink (w : World) : Consults True g w (run defaultSink w) := by
  refine consults_bind_keeps (consults_settings w) fun s => ?_
  cases s.sinkAdapter with
  | log => exact (keepsSettings_log _).bind fun _ => .pure _
  | memory => exact (keepsSettings_log _).bind fun _ => .lift _

theorem consults_makeService (sink : Option SinkSpec) (session push : Option Source)
    (sessionId : Datum) (w : World) :
    Consults (sink = none) g w (run (makeService sink session push sessionId) w) := by
  refine consults_bind_keeps ?_ fun _ =>
    (keepsSettings_sessionIdOr sessionId).bind fun _ => .pure _
  rcases sink with _ | _ | capacity | other
  · exact (consults_bind_keeps (consults_defaultSink w) fun _ => .pure _).congr (by simp)
  · exact (KeepsSettings.pure _).consults nofun
  · exact ((KeepsSettings.lift _).bind fun _ => .pure _).consults nofun
  · exact ((KeepsSettings.expect _ _).bind fun _ => .pure _).consults nofun

/-- A service that was given no sink has that of the settings when it is entered. -/
theorem consults_enter (id : ServiceId) (sink : Option SinkSpec) (session push : Option Source)
    (sessionId : Datum) {f : Unit → Action β} (hf : ∀ u, KeepsSettings (f u)) (w : World) :
    Consults (sink = none) (sink ≠ none) w
      (run (makeService sink session push sessionId >>= fun service =>
        enterService id service >>= f) w) := by
  refine (consults_bind (q := fun _ _ => False) (consults_makeService ..)
    fun service w' hmake => ?_).congr (by simp)
  refine consults_bind_keeps (a := enterService id service) ?_ hf
  refine ⟨rfl, fun _ => rfl, False.elim, False.elim, fun other kind hkind => ?_⟩
  by_cases hid : other = id
  · subst hid
    cases sink with
    | some spec => exact .inr (.inr (Option.some_ne_none spec))
    | none =>
      obtain ⟨w₁, hsinkFor, hsession, -⟩ := exists_sink_of_run_makeService hmake
      obtain ⟨made, w₂, hdefault, hanswer⟩ := run_bind_eq_ok_iff.mp hsinkFor
      obtain ⟨hown, rfl⟩ := Prod.mk.inj hanswer
      have hown : .own made = service.sink := Except.ok.inj hown
      obtain rfl : made.emptied = kind := by
        simpa [World.kindOf, World.keptSink?, enterService, ← hown, ServiceSink.kept?] using hkind
      obtain ⟨s, hs, hmade⟩ := sink_of_run_defaultSink hdefault
      have hkept := (keepsSettings_sessionIdOr sessionId).same w₂
      rw [hsession] at hkept
      refine .inr (.inl ⟨s, hkept.snapshot.trans hs, ?_⟩)
      rw [emptied_of_settings hmade, hmade]
  · refine .inl ?_
    rwa [World.kindOf, World.keptSink?, enterService, run_update,
      Registry.get?_put_of_ne _ hid] at hkind

theorem consults_openService (id : ServiceId) (sink : Option SinkSpec)
    (session push : Option Source) (sessionId : Datum) (w : World) :
    Consults (sink = none ∧ w.services.get? id = none) (sink ≠ none) w
      (run (openService id sink session push sessionId) w) := by
  by_cases hfree : w.services.get? id = none
  · have hensure : run (ensureFree fun w => (w.services.get? id).isNone) w = (.ok (), w) := by
      simp [run, ensureFree, hfree]
    have hopen : run (openService id sink session push sessionId) w = _ := run_bind_ok _ hensure
    rw [hopen]
    exact (consults_enter id sink session push sessionId (fun _ => .pure id) w).congr
      (by simp [hfree])
  · have hensure : run (ensureFree fun w => (w.services.get? id).isNone) w =
        (.error .takenHandle, w) := by
      simp [run, ensureFree, hfree]
    have hopen : run (openService id sink session push sessionId) w = _ := run_bind_error _ hensure
    rw [hopen]
    exact (World.SameSettings.refl w).consults fun h => hfree h.2

theorem consults_sharedService (w : World) :
    Consults (w.shared = none) g w (run sharedService w) := by
  rw [run_sharedService]
  cases hshared : w.shared with
  | some id => exact (World.SameSettings.refl w).consults nofun
  | none =>
    have hmake : Consults _ _ w (run (makeShared w.nextAutomatic) w) :=
      consults_enter w.nextAutomatic none none none .null
        (fun _ => (keepsSettings_share (some w.nextAutomatic)).bind fun _ => .pure _) w
    exact (hmake.congr (by simp)).mono fun h => absurd rfl h

/-- The start reads the settings first, and has them when it opens its service. -/
theorem keepsSettings_announce (s : Settings) (id : ServiceId) : KeepsSettings (announce s id) :=
  (KeepsSettings.expect _ _).bind fun _ => (KeepsSettings.expect _ _).bind fun _ =>
    keepsSettings_log _

theorem consults_start (id : ServiceId) (sink : Option SinkSpec) (session push : Option Source)
    (w : World) : Consults True (sink ≠ none) w (run (start id sink session push) w) := by
  have hrest (i : ServiceId) (s : Settings) : KeepsSettings (do
      share (some i)
      announce s i
      return i) :=
    (keepsSettings_share _).bind fun _ => (keepsSettings_announce s _).bind fun _ => .pure _
  -- Whether the service has to ask again makes no difference.
  refine (consults_bind (q := fun _ w' => sink = none ∧ w'.services.get? id = none)
    (consults_settings w) fun s w' _ => ?_).congr (by simp)
  have hopen := consults_openService id sink session push .null
    { w' with logging := w'.logging.setUp (.ofSettings s) }
  have hopened := consults_bind_keeps hopen fun i => hrest i s
  exact ⟨hopened.environment, hopened.kept, hopened.read, hopened.failed, hopened.kinds⟩

/-! ## Drafts -/

theorem consults_serviceOf (d : Draft) (w : World) :
    Consults (d.service = none ∧ w.shared = none) g w (run (serviceOf d) w) := by
  unfold serviceOf
  cases d.service with
  | some id => exact (KeepsSettings.pure id).consults nofun
  | none => exact (consults_sharedService w).congr (by simp)

theorem consults_attributionOf (d : Draft) (w : World) :
    Consults (d.resolver = none ∧ d.service = none ∧ w.shared = none) g w
      (run (attributionOf d) w) := by
  refine consults_bind_keeps (a := placeOf d) ?_ fun place => keepsSettings_resolve place _
  unfold placeOf
  cases d.resolver with
  | some id => exact (KeepsSettings.pure _).consults nofun
  | none =>
    exact (consults_bind_keeps (consults_serviceOf d w) fun _ => .pure _).congr (by simp)

theorem consults_create (id : DraftId) (w : World) :
    Consults (w.shared = none ∧ w.Needs (.create id)) g w (run (create id) w) := by
  have hdrafts (d : Draft) : KeepsSettings
      (update fun w => { w with drafts := w.drafts.put id { d with finalized := true } }) :=
    .update fun _ => ⟨rfl, rfl, fun _ => rfl⟩
  have hmetrics (r : EventRecord) : KeepsSettings
      (update fun w => { w with metrics := w.metrics.recordCreated r.eventValue }) :=
    .update fun _ => ⟨rfl, rfl, fun _ => rfl⟩
  cases hd : w.drafts.get? id with
  | none =>
    rw [run_create_none w hd]
    exact (World.SameSettings.refl w).consults fun h => by simp [World.Needs, hd] at h
  | some d =>
    cases hopen : d.finalized with
    | true =>
      rw [run_create_finalized w hd hopen]
      exact (World.SameSettings.refl w).consults fun h => by simp [World.Needs, hd, hopen] at h
    | false =>
      have hensure : run (lift d.ensureOpen) w = (.ok d, w) := by
        simp [Draft.ensureOpen, hopen]
      have hcreate : run (create id) w = _ :=
        (run_bind_ok _ (run_expect_some _ hd)).trans (run_bind_ok _ hensure)
      rw [hcreate]
      refine (consults_bind_keeps (consults_attributionOf d w) fun a => ?_).congr ?_
      · exact (keepsSettings_stamp _).bind fun r => (hdrafts d).bind fun _ =>
          (hmetrics r).bind fun _ => (keepsSettings_log _).bind fun _ =>
            (keepsSettings_keep r).bind fun _ => .pure _
      · simp [World.Needs, hd, hopen]
        tauto

theorem consults_handOver {id : DraftId} {d : Draft} (hd : w.drafts.get? id = some d)
    (r : EventRecord) :
    Consults (d.service = none ∧ w.shared = none) g w (run (handOver id r) w) := by
  have hhandOver : run (handOver id r) w = _ := run_bind_ok _ (run_expect_some _ hd)
  rw [hhandOver]
  exact consults_bind_keeps (consults_serviceOf d w) fun i => keepsSettings_submit i r

/-- Adding an event asks when creating it does, or else when there is an event to hand over. -/
theorem consults_add (id : DraftId) (w : World) :
    Consults (w.shared = none ∧ (w.Needs (.create id) ∨
      w.Needs (.add id) ∧ ∃ x, (run (create id) w).1 = .ok x)) g w (run (add id) w) := by
  have hcreate : Consults (w.shared = none ∧ w.Needs (.create id)) g w (run (create id) w) :=
    consults_create id w
  have hadd : add id = create id >>= fun x => handOver id x.2 >>= fun _ => pure x := rfl
  rw [hadd]
  refine (consults_bind (q := fun x w' => ∃ d, w'.drafts.get? id = some d ∧ d.service = none ∧
    w'.shared = none) hcreate fun x w' hrun => ?_).congr ?_
  · obtain ⟨d, -, -, hd'⟩ := World.exists_draft_of_run_create hrun
    refine (consults_bind_keeps (consults_handOver hd' x.2) fun _ => .pure _).congr ?_
    simp [hd']
  · have hsettles := World.maySettle_create w id
    constructor
    · rintro (⟨hnone, hneeds⟩ | ⟨x, w', hrun, d, hd, hservice, hnone⟩)
      · exact ⟨hnone, .inl hneeds⟩
      · obtain ⟨d₀, hd₀, hopen, hd'⟩ := World.exists_draft_of_run_create hrun
        obtain rfl := Option.some.inj (hd'.symm.trans hd)
        rw [hrun] at hsettles ⊢
        cases hsettles with
        | kept h => exact ⟨h ▸ hnone, .inr ⟨⟨d₀, hd₀, hopen, hservice⟩, x, rfl⟩⟩
        | made _ _ _ h => cases h.symm.trans hnone
    · rintro ⟨hnone, hneeds | ⟨⟨d₀, hd₀, -, hservice⟩, x, hx⟩⟩
      · exact .inl ⟨hnone, hneeds⟩
      · rcases hrun : run (create id) w with ⟨result, w'⟩
        rw [hrun] at hx hsettles
        obtain rfl : result = .ok x := hx
        obtain ⟨d, hd, -, hd'⟩ := World.exists_draft_of_run_create hrun
        obtain rfl := Option.some.inj (hd₀.symm.trans hd)
        cases hsettles with
        | kept h => exact .inr ⟨x, w', rfl, _, hd', hservice, h.trans hnone⟩
        | made hneeds => exact .inl ⟨hnone, hneeds⟩

end Action

/-! ## Steps -/

/-- The step makes a service with a sink that it is given. -/
def Step.GivesSink : Step → Prop
  | openService _ sink .. | start _ sink .. => sink ≠ none
  | _ => False

namespace World

open Telemetry.Action

/--
The step asks for the settings: it reads them, or makes a service with their sink. Creating and
adding do so where they need the shared service and there is none, and a draft with its own resolver
does not need it before its event is handed over.
-/
def AsksSettings (w : World) : Step → Prop
  | .readSettings | .start .. => True
  | .openService id sink .. => sink = none ∧ w.services.get? id = none
  | .lookUpShared => w.shared = none
  | .create id => w.shared = none ∧ w.Needs (.create id)
  | .add id => w.shared = none ∧ (w.Needs (.create id) ∨
      w.Needs (.add id) ∧ ∃ x, (Action.run (create id) w).1 = .ok x)
  | _ => False

/-- Steps other than those that change or drop what is read ask for the settings just then. -/
theorem consults_step (w : World) {s : Step} (hvars : ∀ vars, s ≠ .setVariables vars)
    (hdrops : s ≠ .reloadSettings) : Consults (w.AsksSettings s) s.GivesSink w (w.step s) := by
  have hends {α : Type} {a : Action α} (f : α → Outcome)
      (ha : Consults (w.AsksSettings s) s.GivesSink w (Action.run a w)) :
      Consults (w.AsksSettings s) s.GivesSink w (Action.run (a >>= fun x => pure (f x)) w) :=
    consults_bind_keeps ha fun _ => .pure _
  have hkeeps {α : Type} {a : Action α} (f : α → Outcome) (ha : KeepsSettings a)
      (hasks : ¬w.AsksSettings s) :
      Consults (w.AsksSettings s) s.GivesSink w (Action.run (a >>= fun x => pure (f x)) w) :=
    hends f (ha.consults hasks)
  cases s with
  | setVariables vars => exact absurd rfl (hvars vars)
  | reloadSettings => exact absurd rfl hdrops
  | readSettings => exact hends _ (consults_settings w)
  | openService => exact hends _ (consults_openService ..)
  | lookUpShared => exact hends _ (consults_sharedService w)
  | start => exact hends _ (consults_start ..)
  | create id => exact hends (fun x => .record x.1 x.2) (consults_create id w)
  | add id => exact hends (fun x => .record x.1 x.2) (consults_add id w)
  | share => exact hkeeps _ (keepsSettings_share _) id
  | makeRecord => exact hkeeps (fun x => .record x.1 x.2) (keepsSettings_makeRecord _) id
  | openResolver => exact hkeeps _ (keepsSettings_openResolver ..) id
  | openDraft => exact hkeeps _ (keepsSettings_openDraft ..) id
  | setTransactionId => exact hkeeps _ (keepsSettings_edit ..) id
  | setInteraction => exact hkeeps _ (keepsSettings_edit ..) id
  | setInteractionFromMessage => exact hkeeps _ (keepsSettings_edit ..) id
  | setEventValue => exact hkeeps _ (keepsSettings_edit ..) id
  | setAttribution => exact hkeeps _ (keepsSettings_edit ..) id
  | setConversion => exact hkeeps _ (keepsSettings_setSendId ..) id
  | setLastReceived => exact hkeeps _ (keepsSettings_setSendId ..) id
  | sendIds => exact hkeeps (fun x => .sendIds x.1 x.2) (keepsSettings_sendIds _) id
  | resolve => exact hkeeps _ (keepsSettings_resolve ..) id
  | submit => exact hkeeps _ (keepsSettings_submit ..) id
  | recent => exact hkeeps _ (keepsSettings_recent ..) id
  | checkHealth => exact hkeeps _ (keepsSettings_isHealthy _) id

end World

end Telemetry
