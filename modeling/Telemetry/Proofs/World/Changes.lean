import Telemetry.Proofs.Attribution
import Telemetry.Proofs.World.Drafts

/-!
# What operations do to services and sources

Every operation is a sequence of a few changes (`World.Change`): a service or a resolver is entered
under a free handle, a service is shared, a send id is set, questions are put, an event is handed
over, or neither services nor sources are touched. Which operation can set send ids, put questions
or hand events over is said with it (`Action.Makes`), once for each operation, and so for each step
(`World.changes_step`).
-/

namespace Telemetry

open Relation (ReflTransGen)

/-! ## Changes -/

namespace World

/-- The worlds agree in services and sources, and in what is noted of them. -/
structure SameServices (w w' : World) : Prop where
  services : w'.services = w.services
  resolvers : w'.resolvers = w.resolvers
  shared : w'.shared = w.shared
  inquiries : w'.inquiries = w.inquiries
  deliveries : w'.deliveries = w.deliveries

theorem SameServices.refl (w : World) : w.SameServices w := ⟨rfl, rfl, rfl, rfl, rfl⟩

theorem SameServices.trans {w w' w'' : World} (h : w.SameServices w') (h' : w'.SameServices w'') :
    w.SameServices w'' where
  services := h'.services.trans h.services
  resolvers := h'.resolvers.trans h.resolvers
  shared := h'.shared.trans h.shared
  inquiries := h'.inquiries.trans h.inquiries
  deliveries := h'.deliveries.trans h.deliveries

theorem withSources_service {w : World} {id : ServiceId} {service : Service}
    (h : w.services.get? id = some service) (s : Sources) :
    w.withSources (.service id) s =
      { w with services := w.services.put id { service with sources := s } } := by
  simp only [withSources, h]

theorem withSources_service_none {w : World} {id : ServiceId} (h : w.services.get? id = none)
    (s : Sources) : w.withSources (.service id) s = w := by
  simp only [withSources, h]

theorem withSources_eq (w : World) (place : SourcesId) (s : Sources) :
    ∃ services resolvers,
      w.withSources place s = { w with services := services, resolvers := resolvers } := by
  cases place with
  | resolver id => exact ⟨_, _, rfl⟩
  | service id =>
    cases hservice : w.services.get? id with
    | none => exact ⟨_, _, withSources_service_none hservice s⟩
    | some service => exact ⟨_, _, withSources_service hservice s⟩

/-- Other sources at a place leave everything else of every service as it is. -/
theorem get?_withSources (w : World) (place : SourcesId) (s : Sources) (id : ServiceId) :
    (w.withSources place s).services.get? id = (w.services.get? id).map fun service =>
      { service with sources := if place = .service id then s else service.sources } := by
  cases place with
  | resolver _ => simp [withSources]
  | service other =>
    by_cases hid : other = id
    · subst hid
      cases hservice : w.services.get? other with
      | none => simp [withSources_service_none hservice, hservice]
      | some service => simp [withSources_service hservice]
    · have hkept : (w.withSources (.service other) s).services.get? id = w.services.get? id := by
        cases hother : w.services.get? other with
        | none => rw [withSources_service_none hother]
        | some service =>
          rw [withSources_service hother]
          exact Registry.get?_put_of_ne _ (Ne.symm hid) _
      simp [hkept, hid]

theorem sources?_withSources {w : World} {place : SourcesId} {s₀ : Sources}
    (h : w.sources? place = some s₀) (s : Sources) (other : SourcesId) :
    (w.withSources place s).sources? other =
      if other = place then some s else w.sources? other := by
  cases place with
  | resolver id =>
    cases other with
    | service _ => simp [sources?, withSources]
    | resolver other =>
      by_cases hid : other = id
      · simp [sources?, withSources, hid]
      · simp [sources?, withSources, hid, Registry.get?_put_of_ne _ hid]
  | service id =>
    obtain ⟨service, hservice, rfl⟩ := Option.map_eq_some_iff.mp h
    rw [withSources_service hservice]
    cases other with
    | resolver _ => simp [sources?]
    | service other =>
      by_cases hid : other = id
      · simp [sources?, hid]
      · simp [sources?, hid, Registry.get?_put_of_ne _ hid]

/-! ### Sinks of services -/

section

variable {w : World} {id keeper : ServiceId} {sink : Sink}

theorem keptSink?_eq_some_iff :
    w.keptSink? keeper = some sink ↔
      ∃ service, w.services.get? keeper = some service ∧ service.sink = .own sink := by
  unfold keptSink?
  rw [Option.bind_eq_some_iff]
  refine exists_congr fun service => and_congr_right fun _ => ?_
  cases service.sink <;> simp [ServiceSink.kept?]

theorem sink?_eq_some_iff :
    w.sink? id = some (keeper, sink) ↔
      ∃ service, w.services.get? id = some service ∧ service.keeper id = keeper ∧
        w.keptSink? keeper = some sink := by
  unfold sink?
  rw [Option.bind_eq_some_iff]
  refine exists_congr fun service => and_congr_right fun _ => ?_
  rw [Option.map_eq_some_iff]
  constructor
  · rintro ⟨sink', hkept, heq⟩
    obtain ⟨rfl, rfl⟩ := Prod.mk.inj heq
    exact ⟨rfl, hkept⟩
  · rintro ⟨rfl, hkept⟩
    exact ⟨sink, hkept, rfl⟩

/-- A service that keeps its sink has that sink. -/
theorem sink?_of_own {service : Service} (hs : w.services.get? id = some service)
    (hsink : service.sink = .own sink) : w.sink? id = some (id, sink) := by
  refine sink?_eq_some_iff.mpr ⟨service, hs, ?_, keptSink?_eq_some_iff.mpr ⟨service, hs, hsink⟩⟩
  rw [Service.keeper, hsink]

theorem withSink_of_get? {service : Service} (hs : w.services.get? keeper = some service)
    (sink : Sink) :
    w.withSink keeper sink =
      { w with services := w.services.put keeper { service with sink := .own sink } } := by
  simp only [withSink, hs]

/-- Another sink at a service leaves every other service as it is. -/
theorem get?_withSink {service : Service} (hs : w.services.get? keeper = some service)
    (sink : Sink) (id : ServiceId) :
    (w.withSink keeper sink).services.get? id =
      if id = keeper then some { service with sink := .own sink } else w.services.get? id := by
  rw [withSink_of_get? hs]
  exact Registry.get?_put ..

theorem isSome_withSink (w : World) (keeper : ServiceId) (sink : Sink) (id : ServiceId) :
    ((w.withSink keeper sink).services.get? id).isSome = (w.services.get? id).isSome := by
  cases hs : w.services.get? keeper with
  | none => simp only [withSink, hs]
  | some service =>
    rw [get?_withSink hs]
    split
    · next hid => rw [hid, hs, Option.isSome_some, Option.isSome_some]
    · rfl

/-- Another sink at a service leaves the sources at every place as they are. -/
theorem sources?_withSink (w : World) (keeper : ServiceId) (sink : Sink) (place : SourcesId) :
    (w.withSink keeper sink).sources? place = w.sources? place := by
  cases hs : w.services.get? keeper with
  | none => simp only [withSink, hs]
  | some service =>
    cases place with
    | resolver _ => rw [withSink_of_get? hs]; rfl
    | service id =>
      rw [sources?, get?_withSink hs, sources?]
      by_cases hid : id = keeper
      · rw [if_pos hid, hid, hs]
        rfl
      · rw [if_neg hid]

end

/-- A service may be entered with this sink: it holds nothing yet, or another service keeps it. -/
def Fits (w : World) : ServiceSink → Prop
  | .own sink => sink.events = []
  | .of keeper => (w.keptSink? keeper).isSome

theorem Fits.events_of_kept {w : World} {sink : ServiceSink} (h : w.Fits sink) :
    ∀ kept ∈ sink.kept?, kept.events = [] := by
  cases sink with
  | own sink =>
    rintro kept ⟨⟩
    exact h
  | of keeper => exact nofun

theorem Fits.of_services {w w' : World} {sink : ServiceSink} (h : w.Fits sink)
    (hservices : w'.services = w.services) : w'.Fits sink := by
  cases sink with
  | own sink => exact h
  | of keeper =>
    unfold Fits keptSink? at h ⊢
    rwa [hservices]

/-- A change of services or sources, or of neither. -/
inductive Change (asks sets delivers : Bool) (w : World) : World → Prop where
  | other {w' : World} (h : w.SameServices w') : Change asks sets delivers w w'
  | enter {id : ServiceId} (hfree : w.services.get? id = none) {service : Service}
    (hsink : w.Fits service.sink) :
    Change asks sets delivers w { w with services := w.services.put id service }
  | openResolver {id : ResolverId} (hfree : w.resolvers.get? id = none) (sources : Sources) :
    Change asks sets delivers w { w with resolvers := w.resolvers.put id sources }
  | share {id : Option ServiceId} (hknown : ∀ i ∈ id, (w.services.get? i).isSome) :
    Change asks sets delivers w { w with shared := id }
  | set (hsets : sets = true) {id : ServiceId} {s : Sources} {q : Question} {old : Datum}
    (hs : w.sources? (.service id) = some s) (hheld : s.source q = .held old) (sendId : Datum) :
    Change asks sets delivers w (w.withSources (.service id) (s.withSource q (.held sendId)))
  | ask (hasks : asks = true) {place : SourcesId} {s s' : Sources} {inquiries : List Inquiry}
    (hs : w.sources? place = some s) (hasked : s.Asked inquiries s') :
    Change asks sets delivers w (w.asked place inquiries s')
  | deliver (hdelivers : delivers = true) {keeper : ServiceId} {sink : Sink}
    (hkept : w.keptSink? keeper = some sink) (r : EventRecord) :
    Change asks sets delivers w (w.delivered keeper sink r)

/-- Changes one after another. -/
abbrev Changes (asks sets delivers : Bool) : World → World → Prop :=
  ReflTransGen (Change asks sets delivers)

end World

/-- A sink that was made holds nothing yet. -/
theorem Sink.events_of_ofCapacity {capacity : Option Int} {sink : Sink}
    (h : Sink.ofCapacity capacity = .ok sink) : sink.events = [] := by
  unfold Sink.ofCapacity at h
  split at h
  · cases h
    rfl
  · split at h
    · cases h
    · split at h
      · cases h
      · cases h
        rfl

namespace Action

open World (Change Changes SameServices)

variable {α β : Type}

/-! ## Operations that touch neither services nor sources -/

/-- The operation touches neither services nor sources. -/
structure KeepsServices (a : Action α) : Prop where
  same : ∀ w : World, w.SameServices (run a w).2

namespace KeepsServices

theorem of_eq {a : Action α} (h : ∀ w, (run a w).2 = w) : KeepsServices a := by
  constructor
  intro w
  rw [h w]
  exact .refl w

theorem pure (x : α) : KeepsServices (pure x : Action α) := of_eq fun _ => rfl

theorem lift (e : Except Fault α) : KeepsServices (lift e) := of_eq fun _ => rfl

theorem expect (fault : Fault) (f : World → Option α) : KeepsServices (expect fault f) :=
  of_eq fun w => by rw [run_expect]

theorem bind {a : Action α} {f : α → Action β} (ha : KeepsServices a)
    (hf : ∀ x, KeepsServices (f x)) : KeepsServices (a >>= f) :=
  ⟨fun w => rel_run_bind .trans (ha.same w) fun x w' _ => (hf x).same w'⟩

end KeepsServices

theorem keepsServices_log (e : Entry) : KeepsServices (log e) := by
  constructor
  intro w
  rw [run_log]
  cases w.logging.check e <;> exact ⟨rfl, rfl, rfl, rfl, rfl⟩

theorem keepsServices_settings : KeepsServices settings := by
  constructor
  intro w
  rw [run_settings]
  cases w.snapshot with
  | some s => exact .refl w
  | none =>
    cases Settings.load w.environment with
    | ok s => exact ⟨rfl, rfl, rfl, rfl, rfl⟩
    | error problems => exact .refl w

theorem keepsServices_defaultSink : KeepsServices defaultSink := by
  refine keepsServices_settings.bind fun s => ?_
  cases s.sinkAdapter with
  | log => exact (keepsServices_log _).bind fun _ => .pure _
  | memory => exact (keepsServices_log _).bind fun _ => .lift _

theorem keepsServices_sessionIdOr (given : Datum) : KeepsServices (sessionIdOr given) := by
  constructor
  intro w
  unfold run sessionIdOr
  split
  · exact ⟨rfl, rfl, rfl, rfl, rfl⟩
  · exact .refl w

theorem keepsServices_sinkFor (spec : Option SinkSpec) : KeepsServices (sinkFor spec) := by
  rcases spec with _ | _ | capacity | other
  · exact keepsServices_defaultSink.bind fun _ => .pure _
  · exact .pure _
  · exact (KeepsServices.lift _).bind fun _ => .pure _
  · exact (KeepsServices.expect _ _).bind fun _ => .pure _

theorem keepsServices_makeService (sink : Option SinkSpec) (session push : Option Source)
    (sessionId : Datum) : KeepsServices (makeService sink session push sessionId) :=
  (keepsServices_sinkFor sink).bind fun _ => (keepsServices_sessionIdOr _).bind fun _ => .pure _

theorem keepsServices_report (e : Except Fault α) : KeepsServices (report e) := by
  constructor
  intro w
  rw [run_report]
  unfold World.afterReport
  split
  · exact ⟨rfl, rfl, rfl, rfl, rfl⟩
  · exact .refl w

theorem keepsServices_edit (id : DraftId) (setter : Draft → Except Fault Draft) :
    KeepsServices (edit id setter) := by
  refine (KeepsServices.expect _ _).bind fun d => (keepsServices_report _).bind fun d' => ?_
  exact ⟨fun w => ⟨rfl, rfl, rfl, rfl, rfl⟩⟩

theorem keepsServices_openDraft (id : DraftId) (name : Datum) (service : Option ServiceId)
    (resolver : Option SourcesId) : KeepsServices (openDraft id name service resolver) := by
  have hfree : KeepsServices (ensureFree fun w => (w.drafts.get? id).isNone) := .of_eq fun _ => rfl
  have hservice : KeepsServices
      (ensureKnown fun w => service.all fun s => (w.services.get? s).isSome) :=
    .of_eq fun _ => rfl
  have hresolver : KeepsServices
      (ensureKnown fun w => resolver.all fun place => (w.sources? place).isSome) :=
    .of_eq fun _ => rfl
  refine hfree.bind fun _ => hservice.bind fun _ => hresolver.bind fun _ =>
    (keepsServices_report _).bind fun d => ?_
  exact ⟨fun w => ⟨rfl, rfl, rfl, rfl, rfl⟩⟩

theorem keepsServices_makeRecord (fields : RecordFields) : KeepsServices (makeRecord fields) := by
  have hstamp : KeepsServices (stamp fun freshId now =>
      (EventRecord.ofFields freshId now fields).mapError Fault.invalid) := .of_eq fun _ => rfl
  have hkeep (r : EventRecord) : KeepsServices (keep r) := ⟨fun _ => ⟨rfl, rfl, rfl, rfl, rfl⟩⟩
  exact hstamp.bind fun r => (hkeep r).bind fun _ => .pure _

theorem keepsServices_conclude (r : Resolution) : KeepsServices (conclude r) := by
  unfold conclude
  cases r.entry with
  | some e => exact (keepsServices_log e).bind fun _ => .lift _
  | none => exact .lift _

theorem keepsServices_recent (id : ServiceId) (limit : Option Int) :
    KeepsServices (recent id limit) := (KeepsServices.expect _ _).bind fun _ => .pure _

theorem keepsServices_isHealthy (id : ServiceId) : KeepsServices (isHealthy id) :=
  (KeepsServices.expect _ _).bind fun _ => .pure _

theorem events_of_run_defaultSink {w w' : World} {sink : Sink}
    (h : run defaultSink w = (.ok sink, w')) : sink.events = [] := by
  obtain ⟨s, w₁, -, h⟩ := run_bind_eq_ok_iff.mp h
  cases hadapter : s.sinkAdapter with
  | log =>
    rw [hadapter] at h
    obtain ⟨_, w₂, -, h⟩ := run_bind_eq_ok_iff.mp h
    cases h
    rfl
  | memory =>
    rw [hadapter] at h
    obtain ⟨_, w₂, -, h⟩ := run_bind_eq_ok_iff.mp h
    have hmake : Sink.ofCapacity (some s.sinkBufferSize) = .ok sink := congrArg Prod.fst h
    exact Sink.events_of_ofCapacity hmake

/-- A service can be entered with the sink that was found for it. -/
theorem fits_of_run_sinkFor {spec : Option SinkSpec} {w w' : World} {sink : ServiceSink}
    (h : run (sinkFor spec) w = (.ok sink, w')) : w.Fits sink := by
  rcases spec with _ | _ | capacity | other
  · obtain ⟨made, w₁, hmake, h⟩ := run_bind_eq_ok_iff.mp h
    cases h
    exact events_of_run_defaultSink hmake
  · cases h
    exact rfl
  · obtain ⟨made, w₁, hmake, h⟩ := run_bind_eq_ok_iff.mp h
    cases h
    exact Sink.events_of_ofCapacity (congrArg Prod.fst hmake)
  · obtain ⟨⟨keeper, shared⟩, w₁, hlookup, hanswer⟩ := run_bind_eq_ok_iff.mp h
    obtain ⟨hfound, rfl⟩ := run_expect_eq_ok_iff.mp hlookup
    cases hanswer
    obtain ⟨-, -, -, hkept⟩ := World.sink?_eq_some_iff.mp hfound
    exact Option.isSome_of_eq_some hkept

/-- A service is made of its sink, its session id and the sources that were given. -/
theorem exists_sink_of_run_makeService {sink : Option SinkSpec} {session push : Option Source}
    {sessionId : Datum} {w w' : World} {service : Service}
    (h : run (makeService sink session push sessionId) w = (.ok service, w')) :
    ∃ w₁, run (sinkFor sink) w = (.ok service.sink, w₁) ∧
      run (sessionIdOr sessionId) w₁ = (.ok service.sessionId, w') ∧
      service.sources = ⟨session.getD (.held .null), push.getD (.held .null)⟩ := by
  obtain ⟨made, w₁, hmake, h⟩ := run_bind_eq_ok_iff.mp h
  obtain ⟨_, w₂, hsession, h⟩ := run_bind_eq_ok_iff.mp h
  cases h
  exact ⟨w₁, hmake, hsession, rfl⟩

/-- A service that is given no sink keeps the one that the settings ask for. -/
theorem exists_own_of_run_makeService {session push : Option Source} {sessionId : Datum}
    {w w' : World} {service : Service}
    (h : run (makeService none session push sessionId) w = (.ok service, w')) :
    ∃ sink w₁, run defaultSink w = (.ok sink, w₁) ∧ service.sink = .own sink := by
  obtain ⟨w₂, hsink, -, -⟩ := exists_sink_of_run_makeService h
  obtain ⟨sink, w₁, hdefault, hanswer⟩ := run_bind_eq_ok_iff.mp hsink
  exact ⟨sink, w₁, hdefault, (Except.ok.inj (congrArg Prod.fst hanswer)).symm⟩

/-- A service that was made can be entered, and it has the sources that were given. -/
theorem makeService_spec {sink : Option SinkSpec} {session push : Option Source}
    {sessionId : Datum} {w w' : World} {service : Service}
    (h : run (makeService sink session push sessionId) w = (.ok service, w')) :
    w'.Fits service.sink ∧
      service.sources = ⟨session.getD (.held .null), push.getD (.held .null)⟩ := by
  obtain ⟨w₁, hsink, -, hsources⟩ := exists_sink_of_run_makeService h
  have hsame := (keepsServices_makeService sink session push sessionId).same w
  rw [h] at hsame
  exact ⟨(fits_of_run_sinkFor hsink).of_services hsame.services, hsources⟩

/-! ## Operations as sequences of changes -/

/-- The operation makes no changes but these, of the noted ones only those that it may. -/
structure Makes (asks sets delivers : Bool) (a : Action α) : Prop where
  changes : ∀ w, Changes asks sets delivers w (run a w).2

variable {asks sets delivers : Bool}

theorem KeepsServices.makes {a : Action α} (h : KeepsServices a) : Makes asks sets delivers a :=
  ⟨fun w => .single (.other (h.same w))⟩

/-- What the first operation ends with may be relied on by what follows. -/
theorem changes_bind {a : Action α} {f : α → Action β} {w : World}
    (ha : Changes asks sets delivers w (run a w).2)
    (hf : ∀ x w', run a w = (.ok x, w') → Changes asks sets delivers w' (run (f x) w').2) :
    Changes asks sets delivers w (run (a >>= f) w).2 := rel_run_bind .trans ha hf

theorem Makes.bind {a : Action α} {f : α → Action β} (ha : Makes asks sets delivers a)
    (hf : ∀ x, Makes asks sets delivers (f x)) : Makes asks sets delivers (a >>= f) :=
  ⟨fun w => changes_bind (ha.changes w) fun x w' _ => (hf x).changes w'⟩

theorem Makes.pure (x : α) : Makes asks sets delivers (pure x : Action α) :=
  (KeepsServices.pure x).makes

/-- What was looked up is there when the next operation begins. -/
theorem changes_expect_bind {fault : Fault} {f : World → Option α} {g : α → Action β} {w : World}
    (h : ∀ x, f w = some x → Changes asks sets delivers w (run (g x) w).2) :
    Changes asks sets delivers w (run (expect fault f >>= g) w).2 := by
  refine changes_bind ((KeepsServices.expect fault f).makes.changes w) fun x w' hrun => ?_
  obtain ⟨hx, rfl⟩ := run_expect_eq_ok_iff.mp hrun
  exact h x hx

/-- Entering a service under a handle that is free, after it was made. -/
theorem changes_enter {id : ServiceId} (sink : Option SinkSpec) (session push : Option Source)
    (sessionId : Datum) {f : Unit → Action β} {w : World} (hfree : w.services.get? id = none)
    (hf : ∀ w', (w'.services.get? id).isSome → Changes asks sets delivers w' (run (f ()) w').2) :
    Changes asks sets delivers w (run (makeService sink session push sessionId >>= fun service =>
      enterService id service >>= f) w).2 := by
  have hmake := keepsServices_makeService sink session push sessionId
  refine changes_bind (hmake.makes.changes w) fun service w' hrun => ?_
  have hsame := hmake.same w
  rw [hrun] at hsame
  have hfree' : w'.services.get? id = none := by rw [hsame.services, hfree]
  have hfits := (makeService_spec hrun).1
  refine changes_bind (.single (.enter hfree' hfits)) fun _ w'' hrun' => ?_
  cases hrun'
  refine hf _ ?_
  dsimp only
  rw [Registry.get?_put_self]
  rfl

theorem makes_openService (id : ServiceId) (sink : Option SinkSpec) (session push : Option Source)
    (sessionId : Datum) :
    Makes asks sets delivers (openService id sink session push sessionId) := by
  constructor
  intro w
  refine changes_bind .refl fun _ w' hrun => ?_
  unfold run ensureFree at hrun
  split at hrun
  · next hfree =>
    cases hrun
    exact changes_enter sink session push sessionId (Option.isNone_iff_eq_none.mp hfree)
      fun w' _ => .refl
  · cases hrun

theorem makes_share (id : Option ServiceId) : Makes asks sets delivers (share id) := by
  constructor
  intro w
  cases id with
  | none => exact .single (.share (by simp))
  | some id =>
    refine changes_expect_bind fun service hservice => .single (.share ?_)
    rintro i ⟨⟩
    rw [hservice]
    rfl

theorem le_foldr_max {α : Type} (f : α → Nat) {l : List α} {x : α} (h : x ∈ l) :
    f x ≤ l.foldr (fun y n => max (f y) n) 0 := by
  induction l with
  | nil => cases h
  | cons first rest ih =>
    rw [List.foldr_cons]
    rcases List.mem_cons.mp h with rfl | hrest
    · exact le_max_left ..
    · exact (ih hrest).trans (le_max_right ..)

/-- The handle that the shared service is entered under is free. -/
theorem get?_nextAutomatic (w : World) : w.services.get? w.nextAutomatic = none := by
  refine Registry.get?_eq_none fun e he heq => ?_
  unfold World.nextAutomatic at heq
  extract_lets after at heq
  have hbound : after e.1 ≤ _ := le_foldr_max (fun e : ServiceId × Service => after e.1) he
  rw [heq] at hbound
  exact Nat.not_succ_le_self _ hbound

theorem makes_sharedService : Makes asks sets delivers sharedService := by
  constructor
  intro w
  rw [run_sharedService]
  cases w.shared with
  | some id => exact .refl
  | none =>
    exact changes_enter none none none .null (get?_nextAutomatic w) fun w' _ =>
      ((makes_share _).bind fun _ => .pure _).changes w'

theorem keepsServices_announce (s : Settings) (id : ServiceId) : KeepsServices (announce s id) :=
  (KeepsServices.expect _ _).bind fun _ => (KeepsServices.expect _ _).bind fun _ =>
    keepsServices_log _

theorem makes_start (id : ServiceId) (sink : Option SinkSpec) (session push : Option Source) :
    Makes asks sets delivers (start id sink session push) := by
  have hsetUp (s : Settings) : KeepsServices
      (update fun w => { w with logging := w.logging.setUp (.ofSettings s) }) :=
    ⟨fun _ => ⟨rfl, rfl, rfl, rfl, rfl⟩⟩
  exact keepsServices_settings.makes.bind fun s => (hsetUp s).makes.bind fun _ =>
    (makes_openService ..).bind fun _ => (makes_share _).bind fun _ =>
      (keepsServices_announce s _).makes.bind fun _ => .pure _

theorem makes_openResolver (id : ResolverId) (sources : Sources) :
    Makes asks sets delivers (openResolver id sources) := by
  constructor
  intro w
  refine changes_bind .refl fun _ w' hrun => ?_
  unfold run ensureFree at hrun
  split at hrun
  · next hfree =>
    cases hrun
    exact .single (.openResolver (Option.isNone_iff_eq_none.mp hfree) sources)
  · cases hrun

/-! ## Operations of sources -/

theorem makes_setSendId (hsets : sets = true) (id : ServiceId) (q : Question) (sendId : Datum) :
    Makes asks sets delivers (setSendId id q sendId) := by
  constructor
  intro w
  refine changes_expect_bind fun s hs => ?_
  cases hsource : s.source q with
  | held old => exact .single (.set hsets hs hsource sendId)
  | external answers asked => exact .refl
  | lacking kind => exact .refl

theorem keepsServices_answered (q : Question) (answer : Answer) :
    KeepsServices (match answer with
      | .value sendId => (return sendId : Action Datum)
      | .failure f => fail (q.fault f)) := by
  cases answer <;> exact .of_eq fun _ => rfl

theorem makes_ask (hasks : asks = true) (id : ServiceId) (q : Question) :
    Makes asks sets delivers (ask id q) := by
  constructor
  intro w
  refine changes_expect_bind fun s hs => ?_
  -- Putting the sources back and noting the question is one change.
  refine .trans (.single (.ask hasks hs (s.asked_one q))) ?_
  exact (keepsServices_answered q (s.ask q).1.answer).makes.changes _

theorem makes_sendIds (hasks : asks = true) (id : ServiceId) :
    Makes asks sets delivers (sendIds id) :=
  (makes_ask hasks id _).bind fun _ => (makes_ask hasks id _).bind fun _ => .pure _

theorem makes_resolve (hasks : asks = true) (place : SourcesId) (explicit : Datum) :
    Makes asks sets delivers (resolve place explicit) := by
  constructor
  intro w
  refine changes_expect_bind fun s hs => ?_
  refine .trans (.single (.ask hasks hs (s.asked_resolve explicit))) ?_
  exact (keepsServices_conclude _).makes.changes _

/-! ## Operations of drafts -/

theorem makes_serviceOf (d : Draft) : Makes asks sets delivers (serviceOf d) := by
  unfold serviceOf
  cases d.service with
  | some id => exact .pure _
  | none => exact makes_sharedService

theorem makes_placeOf (d : Draft) : Makes asks sets delivers (placeOf d) := by
  unfold placeOf
  cases d.resolver with
  | some place => exact .pure _
  | none => exact (makes_serviceOf d).bind fun _ => .pure _

theorem makes_create (hasks : asks = true) (id : DraftId) :
    Makes asks sets delivers (create id) := by
  have hstamp (d : Draft) (a : Attribution) : KeepsServices (stamp (d.record a)) :=
    .of_eq fun _ => rfl
  have hdrafts (d : Draft) : KeepsServices
      (update fun w => { w with drafts := w.drafts.put id { d with finalized := true } }) :=
    ⟨fun _ => ⟨rfl, rfl, rfl, rfl, rfl⟩⟩
  have hmetrics (r : EventRecord) : KeepsServices
      (update fun w => { w with metrics := w.metrics.recordCreated r.eventValue }) :=
    ⟨fun _ => ⟨rfl, rfl, rfl, rfl, rfl⟩⟩
  have hkeep (r : EventRecord) : KeepsServices (keep r) := ⟨fun _ => ⟨rfl, rfl, rfl, rfl, rfl⟩⟩
  refine (KeepsServices.expect _ _).makes.bind fun d => ?_
  refine (KeepsServices.lift _).makes.bind fun d' => ?_
  refine ((makes_placeOf d').bind fun place => makes_resolve hasks place _).bind fun a => ?_
  exact (hstamp d' a).makes.bind fun r => (hdrafts d').makes.bind fun _ =>
    (hmetrics r).makes.bind fun _ => (keepsServices_log _).makes.bind fun _ =>
      (hkeep r).makes.bind fun _ => .pure _

theorem makes_submit (hdelivers : delivers = true) (id : ServiceId) (r : EventRecord) :
    Makes asks sets delivers (submit id r) := by
  constructor
  intro w
  refine changes_expect_bind fun service hservice => ?_
  refine changes_expect_bind fun ⟨keeper, sink⟩ hsink => ?_
  obtain ⟨-, -, -, hkept⟩ := World.sink?_eq_some_iff.mp hsink
  have hmetrics (sink : Sink) : KeepsServices
      (update fun w => { w with metrics := w.metrics.recordAdded sink.className }) :=
    ⟨fun _ => ⟨rfl, rfl, rfl, rfl, rfl⟩⟩
  have hreport (sink : Sink) (e : Entry) : KeepsServices (do
      log e
      update fun w => { w with metrics := w.metrics.recordAdded sink.className }
      log (.eventAdded r.eventId r.eventName)) :=
    (keepsServices_log e).bind fun _ => (hmetrics sink).bind fun _ => keepsServices_log _
  refine .trans (.single (.deliver hdelivers hkept r)) ?_
  exact (hreport sink (sink.report r service.sessionId)).makes.changes _

theorem makes_handOver (hdelivers : delivers = true) (id : DraftId) (r : EventRecord) :
    Makes asks sets delivers (handOver id r) :=
  (KeepsServices.expect _ _).makes.bind fun d => (makes_serviceOf d).bind fun service =>
    makes_submit hdelivers service r

theorem makes_add (hasks : asks = true) (hdelivers : delivers = true) (id : DraftId) :
    Makes asks sets delivers (add id) :=
  (makes_create hasks id).bind fun x => (makes_handOver hdelivers id x.2).bind fun _ => .pure _

end Action

/-! ## Steps -/

namespace Step

/-- The step may put questions. -/
def asks : Step → Bool
  | create _ | add _ | sendIds _ | resolve .. => true
  | _ => false

/-- The step may set a send id. -/
def sets : Step → Bool
  | setConversion .. | setLastReceived .. => true
  | _ => false

/-- The step may hand events over. -/
def delivers : Step → Bool
  | add _ | submit .. => true
  | _ => false

end Step

namespace World

open Telemetry.Action

theorem changes_step (w : World) (s : Step) : Changes s.asks s.sets s.delivers w (w.step s).2 := by
  have hends {α : Type} {a : Action α} (ha : Makes s.asks s.sets s.delivers a) (f : α → Outcome) :
      Changes s.asks s.sets s.delivers w (Action.run (a >>= fun x => pure (f x)) w).2 :=
    (ha.bind fun _ => .pure _).changes w
  cases s with
  | setVariables => exact .single (.other ⟨rfl, rfl, rfl, rfl, rfl⟩)
  | reloadSettings => exact .single (.other ⟨rfl, rfl, rfl, rfl, rfl⟩)
  | readSettings => exact hends keepsServices_settings.makes _
  | openService => exact hends (makes_openService ..) _
  | share => exact hends (makes_share _) _
  | lookUpShared => exact hends makes_sharedService _
  | start => exact hends (makes_start ..) _
  | makeRecord => exact hends (keepsServices_makeRecord _).makes _
  | openResolver => exact hends (makes_openResolver ..) _
  | openDraft => exact hends (keepsServices_openDraft ..).makes _
  | setTransactionId => exact hends (keepsServices_edit ..).makes _
  | setInteraction => exact hends (keepsServices_edit ..).makes _
  | setInteractionFromMessage => exact hends (keepsServices_edit ..).makes _
  | setEventValue => exact hends (keepsServices_edit ..).makes _
  | setAttribution => exact hends (keepsServices_edit ..).makes _
  | create id => exact hends (makes_create rfl id) _
  | add id => exact hends (makes_add rfl rfl id) _
  | setConversion => exact hends (makes_setSendId rfl _ _ _) _
  | setLastReceived => exact hends (makes_setSendId rfl _ _ _) _
  | sendIds id => exact hends (makes_sendIds rfl id) _
  | resolve => exact hends (makes_resolve rfl _ _) _
  | submit => exact hends (makes_submit rfl _ _) _
  | recent => exact hends (keepsServices_recent ..).makes _
  | checkHealth => exact hends (keepsServices_isHealthy _).makes _

end World

end Telemetry
