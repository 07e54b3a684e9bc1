import Telemetry.Proofs.World.Finalized

/-!
# Drafts with a service of their own

A draft with its own service works without the surroundings that all services have in common: the
shared service, the settings and the environment that these are read from. `Action.SelfContained`
says it in one equation. With any other surroundings the operation does the same, and it leaves them
as they are; no service is made either. Opening a draft and setting its fields is like this for
every draft, and creating and adding the event is if the draft has its own service
(`World.selfContained_step`).
-/

namespace Telemetry

/-- What services have in common. -/
structure Surroundings where
  environment : Environment
  snapshot : Option Settings
  shared : Option ServiceId

namespace World

/-- The world within other surroundings. -/
def within (w : World) (around : Surroundings) : World :=
  { w with environment := around.environment, snapshot := around.snapshot,
           shared := around.shared }

end World

namespace Action

variable {α β : Type} {w : World}

/-- Run here, the operation has no part in the surroundings and makes no service. -/
structure SelfContained (a : Action α) (w : World) : Prop where
  run_within : ∀ around, run a (w.within around) = ((run a w).1, (run a w).2.within around)
  services : ∀ id, ((run a w).2.services.get? id).isSome = (w.services.get? id).isSome

namespace SelfContained

theorem pure (x : α) : SelfContained (pure x : Action α) w := ⟨fun _ => rfl, fun _ => rfl⟩

theorem lift (e : Except Fault α) : SelfContained (lift e) w := ⟨fun _ => rfl, fun _ => rfl⟩

theorem fail (fault : Fault) : SelfContained (fail fault : Action α) w :=
  ⟨fun _ => rfl, fun _ => rfl⟩

theorem expect (fault : Fault) {f : World → Option α} (h : ∀ around, f (w.within around) = f w) :
    SelfContained (expect fault f) w := by
  refine ⟨fun around => ?_, fun _ => ?_⟩
  · rw [run_expect, run_expect, h]
  · rw [run_expect]

theorem update {f : World → World} (h : ∀ around, f (w.within around) = (f w).within around)
    (hservices : ∀ id, ((f w).services.get? id).isSome = (w.services.get? id).isSome) :
    SelfContained (update f) w := by
  refine ⟨fun around => ?_, hservices⟩
  rw [run_update, run_update, h]

/-- What comes after has to be looked at in the worlds that it is run in only. -/
theorem bind {a : Action α} {f : α → Action β} (ha : SelfContained a w)
    (hf : ∀ x w', run a w = (.ok x, w') → SelfContained (f x) w') :
    SelfContained (a >>= f) w := by
  constructor
  · intro around
    rw [run_bind, run_bind, ha.run_within]
    cases hrun : run a w with
    | mk result w' =>
      cases result with
      | error fault => rfl
      | ok x => exact (hf x w' hrun).run_within around
  · intro id
    refine rel_run_bind
      (R := fun w w' => (w'.services.get? id).isSome = (w.services.get? id).isSome)
      (fun h h' => h'.trans h) (ha.services id) fun x w' hrun => (hf x w' hrun).services id

end SelfContained

variable (w)

/-! ## Reports and sources -/

theorem selfContained_log (e : Entry) : SelfContained (log e) w := by
  have hlogging (around : Surroundings) : (w.within around).logging = w.logging := rfl
  constructor
  · intro around
    rw [run_log, run_log, hlogging]
    cases w.logging.check e <;> rfl
  · intro id
    rw [run_log]
    cases w.logging.check e <;> rfl

theorem selfContained_report (e : Except Fault α) : SelfContained (report e) w := by
  cases e with
  | ok x => exact .lift _
  | error fault =>
    cases fault with
    | rejected r =>
      exact (selfContained_log w _).bind fun _ _ _ =>
        (SelfContained.update (fun _ => rfl) fun _ => rfl).bind fun _ _ _ => .fail _
    | _ => exact .lift _

theorem selfContained_resolve (place : SourcesId) (explicit : Datum) :
    SelfContained (resolve place explicit) w := by
  have hput (w : World) (s : Sources) : SelfContained (putSources place s) w := by
    refine .update (fun around => ?_) fun id => ?_
    · cases place with
      | resolver _ => rfl
      | service id =>
        have hservices : (w.within around).services = w.services := rfl
        unfold World.withSources
        dsimp only
        rw [hservices]
        cases w.services.get? id <;> rfl
    · rw [World.get?_withSources, Option.isSome_map]
  have hconclude (w : World) (r : Resolution) : SelfContained (conclude r) w := by
    unfold conclude
    cases r.entry with
    | some e => exact (selfContained_log w e).bind fun _ _ _ => .lift _
    | none => exact .lift _
  refine (SelfContained.expect _ fun around => by cases place <;> rfl).bind fun s _ _ => ?_
  exact (hput _ _).bind fun _ _ _ =>
    (SelfContained.update (fun _ => rfl) fun _ => rfl).bind fun _ _ _ => hconclude _ _

/-! ## Drafts -/

theorem selfContained_edit (id : DraftId) (setter : Draft → Except Fault Draft) :
    SelfContained (edit id setter) w :=
  (SelfContained.expect _ fun _ => rfl).bind fun _ _ _ =>
    (selfContained_report _ _).bind fun _ _ _ => .update (fun _ => rfl) fun _ => rfl

/-- Opening a draft does not look for the shared service, whether or not it will be needed. -/
theorem selfContained_openDraft (id : DraftId) (name : Datum) (service : Option ServiceId)
    (resolver : Option SourcesId) : SelfContained (openDraft id name service resolver) w := by
  have hfree (w : World) : SelfContained (ensureFree fun w => (w.drafts.get? id).isNone) w :=
    ⟨fun _ => rfl, fun _ => rfl⟩
  have hservice (w : World) :
      SelfContained (ensureKnown fun w => service.all fun s => (w.services.get? s).isSome) w :=
    ⟨fun _ => rfl, fun _ => rfl⟩
  have hresolver (w : World) :
      SelfContained (ensureKnown fun w => resolver.all fun place => (w.sources? place).isSome) w :=
    ⟨fun _ => rfl, fun _ => rfl⟩
  exact (hfree _).bind fun _ _ _ => (hservice _).bind fun _ _ _ => (hresolver _).bind fun _ _ _ =>
    (selfContained_report _ _).bind fun _ _ _ => .update (fun _ => rfl) fun _ => rfl

variable {w} {d : Draft} {id : DraftId}

theorem selfContained_serviceOf (hown : d.service.isSome) : SelfContained (serviceOf d) w := by
  obtain ⟨own, hown⟩ := Option.isSome_iff_exists.mp hown
  unfold serviceOf
  rw [hown]
  exact .pure own

theorem selfContained_attributionOf (hown : d.service.isSome) :
    SelfContained (attributionOf d) w := by
  have hplace : SelfContained (placeOf d) w := by
    unfold placeOf
    cases d.resolver with
    | some place => exact .pure _
    | none => exact (selfContained_serviceOf hown).bind fun _ _ _ => .pure _
  exact hplace.bind fun _ _ _ => selfContained_resolve _ _ _

theorem selfContained_create (hd : w.drafts.get? id = some d) (hown : d.service.isSome) :
    SelfContained (create id) w := by
  refine (SelfContained.expect _ fun _ => rfl).bind fun d₁ w₁ hdraft => ?_
  obtain ⟨hd₁, rfl⟩ := run_expect_eq_ok_iff.mp hdraft
  obtain rfl := Option.some.inj (hd.symm.trans hd₁)
  refine (SelfContained.lift _).bind fun d₂ w₂ hopen => ?_
  have hown₂ : d₂.service.isSome := by
    unfold Draft.ensureOpen at hopen
    split at hopen
    · cases hopen
    · cases hopen
      exact hown
  refine (selfContained_attributionOf hown₂).bind fun a w₃ _ => ?_
  have hstamp : SelfContained (stamp (d₂.record a)) w₃ := ⟨fun _ => rfl, fun _ => rfl⟩
  refine hstamp.bind fun r _ _ => ?_
  refine (SelfContained.update (fun _ => rfl) fun _ => rfl).bind fun _ _ _ => ?_
  refine (SelfContained.update (fun _ => rfl) fun _ => rfl).bind fun _ _ _ => ?_
  refine (selfContained_log _ _).bind fun _ w₄ _ => ?_
  have hkeep : SelfContained (keep r) w₄ := ⟨fun _ => rfl, fun _ => rfl⟩
  exact hkeep.bind fun _ _ _ => .pure _

theorem selfContained_submit (service : ServiceId) (r : EventRecord) :
    SelfContained (submit service r) w := by
  refine (SelfContained.expect _ fun _ => rfl).bind fun s w₁ hfound => ?_
  obtain ⟨-, rfl⟩ := run_expect_eq_ok_iff.mp hfound
  refine (SelfContained.expect _ fun _ => rfl).bind fun ⟨keeper, sink⟩ w₂ hlookup => ?_
  obtain ⟨hsink, rfl⟩ := run_expect_eq_ok_iff.mp hlookup
  obtain ⟨-, -, -, hkept⟩ := World.sink?_eq_some_iff.mp hsink
  obtain ⟨kept, hkeeper, -⟩ := World.keptSink?_eq_some_iff.mp hkept
  -- The service that keeps the sink takes the place that it had already.
  have hdeliver : SelfContained (update fun w => w.delivered keeper sink r) w₂ := by
    refine .update (fun around => ?_) fun other => w₂.isSome_withSink ..
    rw [World.delivered, World.delivered, World.withSink_of_get? hkeeper,
      World.withSink_of_get? (w := w₂.within around) hkeeper]
    rfl
  refine hdeliver.bind fun _ _ _ => (selfContained_log _ _).bind fun _ _ _ => ?_
  exact (SelfContained.update (fun _ => rfl) fun _ => rfl).bind fun _ _ _ => selfContained_log _ _

theorem selfContained_add (hd : w.drafts.get? id = some d) (hown : d.service.isSome) :
    SelfContained (add id) w := by
  refine (selfContained_create hd hown).bind fun x w₁ hcreate => ?_
  have hd₁ : ∃ d₁, w₁.drafts.get? id = some d₁ ∧ d₁.service.isSome := by
    have hdrafts := drafts_run_create id w
    rw [hcreate] at hdrafts
    rcases hdrafts with hsame | ⟨d', hd', -, hput⟩
    · exact ⟨d, hsame ▸ hd, hown⟩
    · obtain rfl := Option.some.inj (hd.symm.trans hd')
      exact ⟨{ d with finalized := true }, by rw [hput, Registry.get?_put_self], hown⟩
  obtain ⟨d₁, hd₁, hown₁⟩ := hd₁
  have hhandOver : SelfContained (handOver id x.2) w₁ := by
    refine (SelfContained.expect _ fun _ => rfl).bind fun d₂ w₂ hdraft => ?_
    obtain ⟨hd₂, rfl⟩ := run_expect_eq_ok_iff.mp hdraft
    obtain rfl := Option.some.inj (hd₁.symm.trans hd₂)
    exact (selfContained_serviceOf hown₁).bind fun _ _ _ => selfContained_submit _ _
  exact hhandOver.bind fun _ _ _ => .pure _

end Action

namespace World

open Telemetry.Action

theorem step_within {w : World} {s : Step} (h : SelfContained s.perform w)
    (around : Surroundings) :
    (w.within around).step s = ((w.step s).1, (w.step s).2.within around) := h.run_within around

/-- Whatever is done to a draft with its own service is done without the surroundings. -/
theorem selfContained_step {w : World} {id : DraftId} {d : Draft}
    (hd : w.drafts.get? id = some d) (hown : d.service.isSome) {s : Step}
    (hs : s.draft? = some id) : SelfContained s.perform w := by
  have hedit (setter : Draft → Except Fault Draft) :
      SelfContained (edit id setter >>= fun _ => pure Outcome.done) w :=
    (selfContained_edit w id setter).bind fun _ _ _ => .pure _
  cases s with
  | create =>
    cases hs
    exact (selfContained_create hd hown).bind fun _ _ _ => .pure _
  | add =>
    cases hs
    exact (selfContained_add hd hown).bind fun _ _ _ => .pure _
  | setTransactionId | setInteraction | setEventValue | setAttribution =>
    cases hs
    exact hedit _
  | setInteractionFromMessage id' m =>
    obtain ⟨⟨_, write⟩, hwrite, rfl⟩ := Option.map_eq_some_iff.mp hs
    obtain ⟨-, -, rfl, -⟩ := Step.exists_messageId_of_write? hwrite
    exact hedit _
  | _ => cases hs

end World

end Telemetry
