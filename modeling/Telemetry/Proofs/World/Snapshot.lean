import Telemetry.Proofs.World.Consulting

/-!
# Settings that were read stay

Settings are read when they are first asked for, and stay until they are dropped: whatever becomes
of the environment, everyone who asks gets what was read first (`World.FirstRead`). An attempt that
fails leaves no trace, so the next one reads the environment as it is then
(`World.settings_of_run`).
-/

namespace Telemetry

namespace World

open Telemetry.Action

variable {w : World} {s : Step} {steps : List Step} {x : Settings}

/-- These are the settings at the first of some steps that asks for them where they can be read. -/
inductive FirstRead : World → List Step → Settings → Prop where
  | here {w : World} {s : Step} {x : Settings} (hasks : w.AsksSettings s)
    (hload : Settings.load w.environment = .ok x) (later : List Step) : FirstRead w (s :: later) x
  | later {w : World} {s : Step} {later : List Step} {x : Settings}
    (hfails : w.AsksSettings s → ∃ problems, Settings.load w.environment = .error problems)
    (hlater : FirstRead (w.step s).2 later x) : FirstRead w (s :: later) x

/-- A step that gives no sink has made a service with this one. -/
structure DefaultSink (w : World) (s : Step) (id : ServiceId) (sink : Sink) : Prop where
  default : ¬s.GivesSink
  absent : w.kindOf id = none
  entered : (w.step s).2.kindOf id = some sink

/--
Whoever asks for the settings in a world gets these, which are kept then, or the report of what
cannot be read, and then nothing is kept.
-/
structure Answers (w : World) (answer : Except (List Problem) Settings) : Prop where
  read : (w.step .readSettings).1 = (answer.map Outcome.settings).mapError Fault.invalid
  logging : ∀ x, answer = .ok x → ∀ id sink session push,
    (w.step (.start id sink session push)).2.logging.newest = some (.ofSettings x)
  sinks : ∀ s id sink, w.DefaultSink s id sink → ∃ x, answer = .ok x ∧ x.sink = .ok sink
  kept : ∀ s, w.AsksSettings s → ∀ x, answer = .ok x → (w.step s).2.snapshot = some x
  failed : ∀ s, w.AsksSettings s → ∀ problems, answer = .error problems →
    (w.step s).1 = .error (.invalid problems) ∧ (w.step s).2.snapshot = none

/-! ## What is kept -/

theorem snapshot_eq_none_of_error {problems : List Problem}
    (h : w.currentSettings = .error problems) : w.snapshot = none := by
  unfold currentSettings at h
  cases hsnapshot : w.snapshot with
  | none => rfl
  | some x =>
    rw [hsnapshot] at h
    cases h

theorem snapshot_step_of_some (hdrops : s ≠ .reloadSettings) (hx : w.snapshot = some x) :
    (w.step s).2.snapshot = some x := by
  by_cases hvars : ∃ vars, s = .setVariables vars
  · obtain ⟨vars, rfl⟩ := hvars
    exact hx
  · exact (w.consults_step (not_exists.mp hvars) hdrops).snapshot_eq_some hx

theorem snapshot_run_of_some (hdrops : Step.reloadSettings ∉ steps) (hx : w.snapshot = some x) :
    (w.run steps).snapshot = some x := by
  induction steps generalizing w with
  | nil => exact hx
  | cons s steps ih =>
    rw [List.mem_cons, not_or] at hdrops
    exact ih hdrops.2 (snapshot_step_of_some (Ne.symm hdrops.1) hx)

theorem snapshot_step_eq_some_iff (hdrops : s ≠ .reloadSettings) (hnone : w.snapshot = none) :
    (w.step s).2.snapshot = some x ↔
      w.AsksSettings s ∧ Settings.load w.environment = .ok x := by
  have hcurrent : w.currentSettings = Settings.load w.environment := by
    rw [currentSettings, hnone]
  by_cases hvars : ∃ vars, s = .setVariables vars
  · obtain ⟨vars, rfl⟩ := hvars
    have hkept : (w.step (.setVariables vars)).2.snapshot = none := hnone
    simp [hkept, AsksSettings]
  · have hconsults := w.consults_step (not_exists.mp hvars) hdrops
    rw [← hcurrent]
    by_cases hasks : w.AsksSettings s
    · cases hload : w.currentSettings with
      | ok y => simp [hconsults.read hasks y hload, hasks]
      | error problems => simp [(hconsults.failed hasks problems hload).2, hnone]
    · simp [hconsults.kept hasks, hnone, hasks]

/-- Where nothing was read before, just what is read first is kept. -/
theorem snapshot_run_eq_some_iff (hdrops : Step.reloadSettings ∉ steps)
    (hnone : w.snapshot = none) :
    (w.run steps).snapshot = some x ↔ w.FirstRead steps x := by
  induction steps generalizing w with
  | nil =>
    have hrun : w.run [] = w := rfl
    rw [hrun, hnone]
    exact ⟨nofun, nofun⟩
  | cons s steps ih =>
    rw [List.mem_cons, not_or] at hdrops
    have hstep (y : Settings) := snapshot_step_eq_some_iff (x := y) (Ne.symm hdrops.1) hnone
    have hrun : w.run (s :: steps) = (w.step s).2.run steps := rfl
    rw [hrun]
    cases hsnapshot : (w.step s).2.snapshot with
    | some y =>
      -- The first step has read them, and they stay.
      obtain ⟨hasks, hload⟩ := (hstep y).mp hsnapshot
      rw [snapshot_run_of_some hdrops.2 hsnapshot]
      constructor
      · rintro ⟨⟩
        exact .here hasks hload steps
      · intro h
        cases h with
        | here _ hload' => exact congrArg some (Except.ok.inj (hload.symm.trans hload'))
        | later hfails =>
          obtain ⟨problems, hproblems⟩ := hfails hasks
          cases hload.symm.trans hproblems
    | none =>
      rw [ih hdrops.2 hsnapshot]
      constructor
      · intro h
        refine .later (fun hasks => ?_) h
        cases hload : Settings.load w.environment with
        | ok y => cases hsnapshot.symm.trans ((hstep y).mpr ⟨hasks, hload⟩)
        | error problems => exact ⟨problems, rfl⟩
      · intro h
        cases h with
        | here hasks hload => cases hsnapshot.symm.trans ((hstep x).mpr ⟨hasks, hload⟩)
        | later _ hlater => exact hlater

/-! ## What is answered -/

/-- A default sink is that of the settings at that moment, which are kept from then on. -/
theorem DefaultSink.exists_settings {id : ServiceId} {sink : Sink} (h : w.DefaultSink s id sink) :
    ∃ x, w.currentSettings = .ok x ∧ (w.step s).2.snapshot = some x ∧ x.sink = .ok sink := by
  have hnew : (w.step s).2.kindOf id ≠ w.kindOf id := by
    rw [h.absent, h.entered]
    exact nofun
  have hvars : ∀ vars, s ≠ .setVariables vars := by
    rintro vars rfl
    exact hnew rfl
  have hdrops : s ≠ .reloadSettings := by
    rintro rfl
    exact hnew rfl
  have hconsults := w.consults_step hvars hdrops
  rcases hconsults.kinds id sink h.entered with hkind | ⟨x, hx, hsink⟩ | hgives
  · cases h.absent.symm.trans hkind
  · refine ⟨x, ?_, hx, hsink⟩
    by_cases hasks : w.AsksSettings s
    · cases hcurrent : w.currentSettings with
      | ok y =>
        obtain rfl := Option.some.inj (hx.symm.trans (hconsults.read hasks y hcurrent))
        rfl
      | error problems =>
        have hnone := snapshot_eq_none_of_error hcurrent
        rw [(hconsults.failed hasks problems hcurrent).2, hnone] at hx
        cases hx
    · rw [hconsults.kept hasks] at hx
      exact currentSettings_of_snapshot hx
  · exact absurd hgives h.default

theorem consults_of_asks (hasks : w.AsksSettings s) :
    Consults (w.AsksSettings s) s.GivesSink w (w.step s) := by
  refine w.consults_step ?_ ?_
  · rintro vars rfl
    exact hasks
  · rintro rfl
    exact hasks

/-- Everyone gets the settings as they are or would be read. -/
theorem answers_currentSettings (w : World) : w.Answers w.currentSettings where
  read := by
    rw [step_readSettings, run_settings, currentSettings]
    cases w.snapshot with
    | some x => rfl
    | none => cases Settings.load w.environment <;> rfl
  logging x hx id sink session push := by
    obtain ⟨w₁, hread⟩ := run_settings_eq_ok_iff.mpr hx
    have hstart := run_start id sink session push hread
    -- How lines are made is settled before a service is opened.
    have hopen := murmurs_openService id sink session push .null
    have hlogging := (hopen.formats { w₁ with logging := w₁.logging.setUp (.ofSettings x) }).newest
    rw [step_start]
    generalize Action.run (openService id sink session push .null)
      { w₁ with logging := w₁.logging.setUp (.ofSettings x) } = result at hstart hlogging
    obtain ⟨fault | i, w'⟩ := result
    · rw [hstart]
      exact hlogging
    · obtain ⟨e, hstart⟩ := hstart
      rw [hstart]
      exact (w'.logging.newest_use e).trans hlogging
  sinks s id sink h := by
    obtain ⟨x, hx, -, hsink⟩ := h.exists_settings
    exact ⟨x, hx, hsink⟩
  kept s hasks x hx := (consults_of_asks hasks).read hasks x hx
  failed s hasks problems hproblems := by
    obtain ⟨hresult, hkept⟩ := (consults_of_asks hasks).failed hasks problems hproblems
    exact ⟨hresult, hkept.trans (snapshot_eq_none_of_error hproblems)⟩

/--
Between two times at which settings are dropped, everyone who asks gets the settings as the
environment had them when they could be read first, and as long as they could not, as it has them
now. So all default sinks that are made in between have one kind and one bound.
-/
theorem settings_of_run (host : Host) (environment : Environment) (before since : List Step)
    (hbefore : before = [] ∨ ∃ earlier, before = earlier ++ [.reloadSettings])
    (hsince : Step.reloadSettings ∉ since) :
    let dropped := (fresh host environment).run before
    let w := dropped.run since
    (∀ x, dropped.FirstRead since x → w.Answers (.ok x)) ∧
    ((∀ x, ¬dropped.FirstRead since x) → w.Answers (Settings.load w.environment)) ∧
    ∀ earlier s later, since = earlier ++ s :: later →
      ∀ id sink, (dropped.run earlier).DefaultSink s id sink →
      ∀ s' id' sink', w.DefaultSink s' id' sink' → sink' = sink := by
  intro dropped w
  have hnone : dropped.snapshot = none := by
    rcases hbefore with rfl | ⟨earlier, rfl⟩
    · rfl
    · have hrun : dropped = (((fresh host environment).run earlier).step .reloadSettings).2 :=
        (fresh host environment).run_append earlier [.reloadSettings]
      rw [hrun]
      rfl
  have hiff (x : Settings) := snapshot_run_eq_some_iff (x := x) hsince hnone
  refine ⟨?_, ?_, ?_⟩
  · intro x hx
    rw [← currentSettings_of_snapshot ((hiff x).mpr hx)]
    exact w.answers_currentSettings
  · intro hno
    have hunread : w.snapshot = none :=
      Option.eq_none_iff_forall_ne_some.mpr fun x hx => hno x ((hiff x).mp hx)
    have hcurrent : w.currentSettings = Settings.load w.environment := by
      rw [currentSettings, hunread]
    rw [← hcurrent]
    exact w.answers_currentSettings
  · intro earlier s later heq id sink h s' id' sink' h'
    obtain ⟨x, -, hx, hsink⟩ := h.exists_settings
    obtain ⟨x', hcurrent, -, hsink'⟩ := h'.exists_settings
    -- What the first of them has read is still there when the second one is made.
    have hw : w = ((dropped.run earlier).step s).2.run later := by
      have hrun : w = dropped.run (earlier ++ s :: later) := congrArg dropped.run heq
      rw [hrun]
      exact dropped.run_append earlier (s :: later)
    have hlater : Step.reloadSettings ∉ later := by
      intro hmem
      refine hsince ?_
      rw [heq]
      exact List.mem_append_right _ (List.mem_cons_of_mem _ hmem)
    have hkept := snapshot_run_of_some hlater hx
    rw [← hw] at hkept
    obtain rfl := Except.ok.inj (hcurrent.symm.trans (currentSettings_of_snapshot hkept))
    exact Except.ok.inj (hsink'.symm.trans hsink)

/-- An attempt that fails is followed by one that is kept, whatever the variables are later. -/
theorem settings_of_run_changed_variables :
    let host : Host := ⟨fun _ => "event", fun _ => "session", fun _ => Binary64.zero false⟩
    let before : List Step := [.lookUpShared, .share none, .reloadSettings]
    let since : List Step := [.setVariables [("CUSTOM_EVENTS_SINK_BUFFER_SIZE", "many")],
      .lookUpShared, .setVariables [("CUSTOM_EVENTS_SINK_BUFFER_SIZE", "2")], .lookUpShared,
      .setVariables [("CUSTOM_EVENTS_SINK_ADAPTER", "log")]]
    let w := ((fresh host ⟨[], none⟩).run before).run since
    (w.step .readSettings).1 = .ok (.settings { Settings.defaults with sinkBufferSize := 2 }) ∧
      ∀ sink, w.DefaultSink (.openService (.named 0) none none none .null) (.named 0) sink →
        sink = .memory (some 2) [] := by
  intro host before since w
  have hbefore : before = [] ∨ ∃ earlier, before = earlier ++ [.reloadSettings] :=
    .inr ⟨[.lookUpShared, .share none], rfl⟩
  have hsince : Step.reloadSettings ∉ since := by simp [since]
  obtain ⟨hread, -, hsinks⟩ := settings_of_run host ⟨[], none⟩ before since hbefore hsince
  have hfirst : ((fresh host ⟨[], none⟩).run before).FirstRead since
      { Settings.defaults with sinkBufferSize := 2 } := by
    refine .later False.elim <| .later (fun _ => ⟨_, rfl⟩) <| .later False.elim <| .here ?_ rfl _
    change World.shared _ = none
    rfl
  refine ⟨(hread _ hfirst).read, fun sink hsink => ?_⟩
  exact hsinks (since.take 3) .lookUpShared (since.drop 4) rfl (.automatic 1) _ ⟨id, rfl, rfl⟩
    _ _ _ hsink

end World

end Telemetry
