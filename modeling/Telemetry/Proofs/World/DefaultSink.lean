import Telemetry.Proofs.World.Shared

/-!
# Services with the sink of the settings

A service that is given no sink has the one that the settings ask for. The settings are read without
a look at what can be made of them: the capacity of a memory sink is any integer there. So where
the settings can be read, a service is opened, looked up or started just if their sink can be made
(`World.defaultEnds_of_makesDefault`). Once it is there it takes every event for good
(`World.TakesAll`), and where it is not, services are as before.
-/

namespace Telemetry

/-- A sink can be made as the settings ask for it. -/
def Settings.HasSink (s : Settings) : Prop :=
  s.sinkAdapter = .memory → 0 ≤ s.sinkBufferSize ∧ s.sinkBufferSize ≤ Sink.maxCapacity

namespace World

/-- The step is to make a service with the sink that the settings ask for. -/
inductive MakesDefault (w : World) : Step → Prop where
  | opens {id : ServiceId} (hfree : w.services.get? id = none) (session push : Option Source)
    (sessionId : Option Text) :
    MakesDefault w (.openService id none session push (.ofText? sessionId))
  | looksUp (hnone : w.shared = none) : MakesDefault w .lookUpShared
  | starts {id : ServiceId} (hfree : w.services.get? id = none) (session push : Option Source) :
    MakesDefault w (.start id none session push)

/-- Whatever happens, every event that is handed to the service is taken. -/
def TakesAll (w : World) (id : ServiceId) : Prop :=
  ∀ (later : List Step) (r : EventRecord), r.Valid →
    ∃ w', (w.run later).step (.submit id r) = (.ok .done, w') ∧
      w'.deliveries = (w.run later).deliveries ++ [(id, r)]

/-- How a step ends that is to make a service with the sink that the settings ask for. -/
inductive DefaultEnds (w : World) (s : Settings) (step : Step) :
    Except Fault Outcome × World → Prop where
  | made {id : ServiceId} {w' : World} (hsink : s.HasSink) (hfree : w.services.get? id = none)
    (hshared : step.ConcernsShared → w'.shared = some id) (htakes : w'.TakesAll id) :
    DefaultEnds w s step (.ok (.service id), w')
  | failed {fault : Fault} {w' : World} (hsink : ¬s.HasSink) (hsame : w.SameServices w') :
    DefaultEnds w s step (.error fault, w')

end World

namespace Action

variable {w w' : World} {s : Settings}

/-! ## Making a service -/

theorem currentSettings_of_run_settings (h : run settings w = (.ok s, w')) :
    w'.currentSettings = .ok s := by
  rw [run_settings] at h
  unfold World.currentSettings
  cases hsnapshot : w.snapshot with
  | some s' =>
    rw [hsnapshot] at h
    cases h
    rw [hsnapshot]
  | none =>
    rw [hsnapshot] at h
    cases hload : Settings.load w.environment with
    | ok s' =>
      rw [hload] at h
      cases h
      rfl
    | error problems =>
      rw [hload] at h
      cases h

/-- Nothing but the sink can keep a service from being made. -/
theorem run_makeService_eq_ok_iff (session push : Option Source) (sessionId : Datum)
    (hs : w.currentSettings = .ok s) :
    (∃ service w', run (makeService none session push sessionId) w = (.ok service, w')) ↔
      s.HasSink := by
  have hsink : w.HasDefaultSink ↔ s.HasSink := by
    simp [World.HasDefaultSink, Settings.HasSink, hs]
  rw [← hsink, ← World.run_defaultSink_eq_ok_iff]
  constructor
  · rintro ⟨service, w', h⟩
    obtain ⟨sink, w₁, hrun, -⟩ := exists_own_of_run_makeService h
    exact ⟨sink, w₁, hrun⟩
  · rintro ⟨sink, w₁, hrun⟩
    have hsinkFor : run (sinkFor none) w = (.ok (.own sink), w₁) := run_bind_ok _ hrun
    have hmake : run (makeService none session push sessionId) w = _ := run_bind_ok _ hsinkFor
    rw [hmake]
    by_cases hvoid : sessionId.isVoid
    · have hsession : run (sessionIdOr sessionId) w₁ =
          (.ok (.text (w₁.host.sessionId w₁.sessions)),
            { w₁ with sessions := w₁.sessions + 1 }) := if_pos hvoid
      exact ⟨_, _, run_bind_ok _ hsession⟩
    · have hsession : run (sessionIdOr sessionId) w₁ = (.ok sessionId, w₁) := if_neg hvoid
      exact ⟨_, _, run_bind_ok _ hsession⟩

theorem run_openService {id : ServiceId} (hfree : w.services.get? id = none)
    (sink : Option SinkSpec) (session push : Option Source) (sessionId : Datum) :
    run (openService id sink session push sessionId) w =
      match run (makeService sink session push sessionId) w with
      | (.error fault, w') => (.error fault, w')
      | (.ok service, w') => (.ok id, { w' with services := w'.services.put id service }) := by
  have hensure : run (ensureFree fun w => (w.services.get? id).isNone) w = (.ok (), w) := by
    simp [run, ensureFree, hfree]
  refine (run_bind_ok _ hensure).trans ?_
  rcases hmake : run (makeService sink session push sessionId) w with ⟨fault | service, w'⟩
  · exact run_bind_error _ hmake
  · exact run_bind_ok _ hmake

end Action

namespace World

open Telemetry.Action

variable {w : World} {s : Settings} {step : Step} {id : ServiceId}

/-! ## How the steps end -/

/-- A service stays with its session and its sink, and a text can always be written. -/
theorem takesAll_of_text {service : Service} {sink : Sink} {t : Text}
    (hs : w.services.get? id = some service) (hsink : service.sink = .own sink)
    (ht : service.sessionId = .text t) : w.TakesAll id := by
  intro later r hr
  obtain ⟨trace, hhanded⟩ := handed_run w later
  obtain ⟨service', hs', -, hsession, -⟩ := hhanded.get?_services hs
  have hsink' := hhanded.sink? (sink?_of_own hs hsink)
  generalize sink.takeAll (handedTo id trace) = sink' at hsink'
  have hplain : service'.sessionId.IsPlain := by
    rw [hsession, ht]
    exact Datum.isPlain_text t
  rw [step_submit, run_submit _ hs' hsink', Logging.check_eq_ok _ (sink'.isPlain_report hr hplain)]
  exact ⟨_, rfl, rfl⟩

/-- A step that makes a service ends as the making does, and with the service that was made. -/
theorem defaultEnds_of_make {w₀ : World} (session push : Option Source) (sessionId : Option Text)
    (hs : w₀.currentSettings = .ok s) (hsame : w.SameServices w₀)
    (hfree : w.services.get? id = none)
    (hmake : match Action.run (makeService none session push (.ofText? sessionId)) w₀ with
      | (.error fault, w') => w.step step = (.error fault, w')
      | (.ok service, w') => ∃ w'', w.step step = (.ok (.service id), w'') ∧
          w''.services = w'.services.put id service ∧
          (step.ConcernsShared → w''.shared = some id)) :
    DefaultEnds w s step (w.step step) := by
  have hsink := run_makeService_eq_ok_iff session push (.ofText? sessionId) hs
  have hkept := (keepsServices_makeService none session push (.ofText? sessionId)).same w₀
  rcases hrun : Action.run (makeService none session push (.ofText? sessionId)) w₀
    with ⟨fault | service, w'⟩
  · rw [hrun] at hmake hkept hsink
    rw [hmake]
    exact .failed (by simpa using hsink) (hsame.trans hkept)
  · rw [hrun] at hmake
    obtain ⟨w'', hstep, hentered, hshared⟩ := hmake
    obtain ⟨t, ht⟩ := sessionId_of_run_makeService hrun
    rw [hstep]
    obtain ⟨sink, -, -, hown⟩ := exists_own_of_run_makeService hrun
    refine .made (hsink.mp ⟨service, w', hrun⟩) hfree hshared (takesAll_of_text ?_ hown ht)
    rw [hentered]
    exact Registry.get?_put_self ..

theorem defaultEnds_openService (hs : w.currentSettings = .ok s)
    (hfree : w.services.get? id = none) (session push : Option Source) (sessionId : Option Text) :
    DefaultEnds w s (.openService id none session push (.ofText? sessionId))
      (w.step (.openService id none session push (.ofText? sessionId))) := by
  have hstep := w.step_openService id none session push (.ofText? sessionId)
  rw [run_openService hfree] at hstep
  refine defaultEnds_of_make session push sessionId hs (.refl w) hfree ?_
  rw [hstep]
  rcases Action.run (makeService none session push (.ofText? sessionId)) w
    with ⟨fault | service, w'⟩
  · rfl
  · exact ⟨_, rfl, rfl, False.elim⟩

theorem defaultEnds_lookUpShared (hs : w.currentSettings = .ok s) (hnone : w.shared = none) :
    DefaultEnds w s .lookUpShared (w.step .lookUpShared) := by
  have hstep := w.step_lookUpShared
  rw [run_sharedService, hnone] at hstep
  dsimp only at hstep
  rw [run_makeShared] at hstep
  refine defaultEnds_of_make none none none hs (.refl w) (get?_nextAutomatic w) ?_
  rw [hstep, Datum.ofText?]
  rcases Action.run (makeService none none none .null) w with ⟨fault | service, w'⟩
  · rfl
  · exact ⟨_, rfl, rfl, fun _ => rfl⟩

theorem defaultEnds_start (hs : w.currentSettings = .ok s) (hfree : w.services.get? id = none)
    (session push : Option Source) :
    DefaultEnds w s (.start id none session push) (w.step (.start id none session push)) := by
  have hstep := w.step_start id none session push
  obtain ⟨w₁, hread⟩ := run_settings_eq_ok_iff.mpr hs
  have hkept := keepsServices_settings.same w
  rw [hread] at hkept
  have hstart := run_start id none session push hread
  have hread := currentSettings_of_run_settings hread
  -- Logging is set up before the service is made, which changes neither settings nor services.
  generalize hw₂ : { w₁ with logging := w₁.logging.setUp (.ofSettings s) } = w₂ at hstart
  have hcurrent : w₂.currentSettings = .ok s := by
    rw [← hw₂]
    exact hread
  have hsame : w.SameServices w₂ := by
    rw [← hw₂]
    exact ⟨hkept.services, hkept.resolvers, hkept.shared, hkept.inquiries, hkept.deliveries⟩
  have hfree₂ : w₂.services.get? id = none := by rw [hsame.services, hfree]
  rw [run_openService hfree₂] at hstart
  refine defaultEnds_of_make session push none hcurrent hsame hfree ?_
  rw [hstep, Datum.ofText?]
  rcases hrun : Action.run (makeService none session push .null) w₂ with ⟨fault | service, w'⟩
  · rw [hrun] at hstart
    rw [hstart]
    rfl
  · rw [hrun] at hstart
    obtain ⟨e, hstart⟩ := hstart
    rw [hstart]
    exact ⟨_, rfl, rfl, fun _ => rfl⟩

/--
Where the settings can be read, a step that is to make a service with their sink makes one if and
only if the sink can be made, and this service takes every event from then on, whatever happens. If
the sink cannot be made the step fails, and services and what is shared are as before.
-/
theorem defaultEnds_of_makesDefault (hs : w.currentSettings = .ok s) (h : w.MakesDefault step) :
    DefaultEnds w s step (w.step step) := by
  cases h with
  | opens hfree session push sessionId =>
    exact defaultEnds_openService hs hfree session push sessionId
  | looksUp hnone => exact defaultEnds_lookUpShared hs hnone
  | starts hfree session push => exact defaultEnds_start hs hfree session push

/-- With room for no event at all there is still a sink. -/
theorem defaultEnds_of_makesDefault_zero :
    let host : Host := ⟨fun _ => "event", fun _ => "session", fun _ => Binary64.zero false⟩
    let w := fresh host ⟨[("CUSTOM_EVENTS_SINK_BUFFER_SIZE", "0")], none⟩
    (w.step .lookUpShared).1 = .ok (.service (.automatic 0)) ∧
      (w.step .lookUpShared).2.TakesAll (.automatic 0) := by
  intro host w
  have hstep : (w.step .lookUpShared).1 = .ok (.service (.automatic 0)) := rfl
  have hs : w.currentSettings = .ok { Settings.defaults with sinkBufferSize := 0 } := rfl
  have hends := defaultEnds_of_makesDefault hs (.looksUp rfl)
  generalize w.step .lookUpShared = result at hends hstep ⊢
  cases hends with
  | made _ _ _ htakes =>
    cases hstep
    exact ⟨rfl, htakes⟩
  | failed => cases hstep

/--
The settings are read with a capacity of less than nothing, and no service can be made with their
sink, however it is asked for.
-/
theorem settings_without_sink :
    let host : Host := ⟨fun _ => "event", fun _ => "session", fun _ => Binary64.zero false⟩
    let environment : Environment := ⟨[("CUSTOM_EVENTS_SINK_BUFFER_SIZE", "-1")], none⟩
    let w := fresh host environment
    Settings.load environment = .ok { Settings.defaults with sinkBufferSize := -1 } ∧
      (w.step (.openService (.named 0) none none none .null)).1 = .error .negativeCapacity ∧
      (w.step .lookUpShared).1 = .error .negativeCapacity ∧
      ∃ fault, (w.step (.start (.named 0) none none none)).1 = .error fault := by
  intro host environment w
  refine ⟨rfl, rfl, rfl, ?_⟩
  have hs : w.currentSettings = .ok { Settings.defaults with sinkBufferSize := -1 } := rfl
  have hfree : w.services.get? (.named 0) = none := rfl
  have hends := defaultEnds_start hs hfree none none
  generalize w.step (.start (.named 0) none none none) = result at hends ⊢
  cases hends with
  | made hsink => exact absurd (hsink rfl).1 (by decide)
  | failed => exact ⟨_, rfl⟩

end World

end Telemetry
