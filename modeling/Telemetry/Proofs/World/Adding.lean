import Telemetry.Proofs.World.Attribution
import Telemetry.Proofs.World.Finalized

/-!
# What adding an event leaves behind

Creating an event leaves drafts, metrics and sinks alone if it fails (`World.create_cases`), and an
event that reaches the sink of a service is taken there (`World.submit_cases`). Between the two the
service of the draft is looked up. That cannot fail any more if creating the event looked for it
already, or if there is one; it can if the draft has its own resolver, no service of its own, and
the shared service has yet to be made. Then the event is lost: its draft is used up, it is counted
as created, and no sink has taken it (`World.add_of_run`).
-/

namespace Telemetry

namespace World

open Telemetry.Action

/-- No draft, record or metric was changed, and no sink has taken anything. -/
structure Untouched (w w' : World) : Prop where
  drafts : w'.drafts = w.drafts
  records : w'.records = w.records
  metrics : w'.metrics = w.metrics
  handed : Handed w [] w'

/-- No event was made, and no draft was changed. -/
structure SameEvents (w w' : World) : Prop where
  drafts : w'.drafts = w.drafts
  records : w'.records = w.records
  created : w'.metrics.created = w.metrics.created

theorem SameEvents.trans {w w' w'' : World} (h : SameEvents w w') (h' : SameEvents w' w'') :
    SameEvents w w'' where
  drafts := h'.drafts.trans h.drafts
  records := h'.records.trans h.records
  created := h'.created.trans h.created

/-- The record of a draft was made and counted, and the draft is finalized. -/
structure Spent (w : World) (id : DraftId) (r : EventRecord) (w' : World) : Prop where
  drafts : ∃ d, w.drafts.get? id = some d ∧ d.finalized = false ∧
    w'.drafts = w.drafts.put id { d with finalized := true }
  records : w'.records = w.records ++ [r]
  created : w'.metrics.created = w.metrics.created + 1

variable {w w' w'' : World} {id : DraftId} {d : Draft} {r : EventRecord}

theorem Spent.of_same (h : Spent w id r w') (hsame : SameEvents w' w'') : Spent w id r w'' where
  drafts := hsame.drafts ▸ h.drafts
  records := hsame.records.trans h.records
  created := hsame.created.trans h.created

/-! ## The shared service -/

theorem shared_run_resolve (w : World) (place : SourcesId) (explicit : Datum) :
    (Action.run (resolve place explicit) w).2.shared = w.shared := by
  cases hs : w.sources? place with
  | none =>
    have hunknown : Action.run (resolve place explicit) w = (.error .unknownHandle, w) :=
      run_bind_error _ (run_expect_none _ hs)
    rw [hunknown]
  | some s =>
    obtain ⟨services, resolvers, heq⟩ := withSources_eq w place (s.resolve explicit).sources
    rw [run_resolve w hs, ((keepsServices_conclude _).same _).shared, asked, heq]

/-- Resolving an attribution finds the shared service if the draft has no resolver of its own. -/
theorem shared_run_attributionOf {a : Attribution} (hservice : d.service = none)
    (hshared : d.resolver = none ∨ w.shared.isSome)
    (h : Action.run (attributionOf d) w = (.ok a, w')) : w'.shared.isSome := by
  obtain ⟨place, w₁, hplace, hresolve⟩ := run_bind_eq_ok_iff.mp h
  have hkept := shared_run_resolve w₁ place d.explicitSendId
  rw [hresolve] at hkept
  rw [hkept]
  unfold placeOf at hplace
  cases hresolver : d.resolver with
  | some own =>
    rw [hresolver] at hplace hshared
    cases hplace
    exact hshared.resolve_left nofun
  | none =>
    rw [hresolver] at hplace
    obtain ⟨id, w₂, hfound, hplace⟩ := run_bind_eq_ok_iff.mp hplace
    cases hplace
    rcases serviceOf_cases hfound with ⟨hown, -⟩ | ⟨-, hbefore, rfl⟩ | ⟨-, -, -, hmade, -⟩
    · rw [hservice] at hown
      cases hown
    · exact Option.isSome_of_eq_some hbefore
    · exact Option.isSome_of_eq_some hmade

/-- The service that is found for a draft is there. -/
theorem isSome_of_run_serviceOf {service : ServiceId} (hw : w.SharedKnown) (hd : w.Knows d)
    (h : Action.run (serviceOf d) w = (.ok service, w')) :
    (w'.services.get? service).isSome := by
  obtain ⟨s, hs, -⟩ := serviceOf_spec hw hd h
  obtain ⟨found, hfound, -⟩ := Option.map_eq_some_iff.mp hs
  rw [hfound]
  rfl

/-- The service of a draft is found at once if it has its own or there is a shared one. -/
theorem run_serviceOf_of_isSome (h : d.service.isSome ∨ w.shared.isSome) :
    ∃ service, Action.run (serviceOf d) w = (.ok service, w) := by
  unfold serviceOf
  cases hown : d.service with
  | some own => exact ⟨own, rfl⟩
  | none =>
    rw [hown] at h
    obtain ⟨shared, hshared⟩ := Option.isSome_iff_exists.mp (h.resolve_left nofun)
    refine ⟨shared, ?_⟩
    dsimp only
    rw [run_sharedService, hshared]

/-! ## Creating, and handing over -/

/-- Creating an event fails without a trace, or it is made and yet to be handed over. -/
theorem create_cases (w : World) (id : DraftId)
    (hvalid : ∀ d, w.drafts.get? id = some d → d.Valid) :
    match Action.run (create id) w with
    | (.error _, w') => Untouched w w'
    | (.ok (_, r), w') => ∃ d, w.drafts.get? id = some d ∧ Spent w id r w' ∧ Handed w [] w' ∧
        r.Valid ∧ (d.service = none → d.resolver = none ∨ w.shared.isSome → w'.shared.isSome) := by
  have hhanded := handed_create w id
  cases hd : w.drafts.get? id with
  | none =>
    rw [run_create_none w hd]
    exact ⟨rfl, rfl, rfl, .of_eq rfl rfl⟩
  | some d =>
    cases hopen : d.finalized with
    | true =>
      rw [run_create_finalized w hd hopen]
      exact ⟨rfl, rfl, rfl, .of_eq rfl rfl⟩
    | false =>
      -- Resolving an attribution works on services and sources only; all else comes after it.
      have hdrafts := (apart_attributionOf d).drafts w
      have hrecords := (apart_attributionOf d).records w
      have hmetrics := (apart_attributionOf d).metrics w
      rw [run_create w hd hopen] at hhanded ⊢
      cases ha : Action.run (attributionOf d) w with
      | mk result w' =>
        rw [ha] at hdrafts hrecords hmetrics hhanded
        cases result with
        | error fault => exact ⟨hdrafts, hrecords, hmetrics, hhanded⟩
        | ok a =>
          dsimp only at hdrafts hrecords hmetrics hhanded ⊢
          cases hr : d.record a (w'.host.eventId w'.records.length)
              (w'.host.clock w'.records.length) with
          | error fault =>
            rw [hr] at hhanded
            exact ⟨hdrafts, hrecords, hmetrics, hhanded⟩
          | ok r =>
            rw [hr] at hhanded
            obtain ⟨-, hsendIds, rfl⟩ := Draft.record_eq_ok_iff.mp hr
            refine ⟨d, rfl, ⟨⟨d, hd, hopen, ?_⟩, ?_, ?_⟩, hhanded,
              (hvalid d hd).toRecord hsendIds _ _, fun hservice hshared => ?_⟩
            · rw [committed, hdrafts]
            · rw [committed, hrecords]
            · rw [committed, hmetrics]
              rfl
            · have hfound := shared_run_attributionOf hservice hshared ha
              exact hfound

/-- The session id of a service whose sink is kept there cannot be written in a log line. -/
def Unwritable (w : World) (service keeper : ServiceId) : Prop :=
  ∃ s, w.services.get? service = some s ∧ s.keeper service = keeper ∧ ¬ s.sessionId.IsPlain

/-- A sink takes an event before that is reported, and only an odd session id can keep it from being
reported. -/
theorem submit_cases (w : World) {service : ServiceId} (hsink : (w.sink? service).isSome)
    (hr : r.Valid) :
    ∃ keeper, Handed w [(keeper, r)] (Action.run (submit service r) w).2 ∧
      SameEvents w (Action.run (submit service r) w).2 ∧
      ∀ fault, (Action.run (submit service r) w).1 = .error fault →
        (Action.run (submit service r) w).2.Unwritable service keeper := by
  obtain ⟨⟨keeper, sink⟩, hsink⟩ := Option.isSome_iff_exists.mp hsink
  obtain ⟨s, hs, hkeeper, hkept⟩ := sink?_eq_some_iff.mp hsink
  have hdelivered := handed_delivered hkept r
  obtain ⟨services, heq⟩ := w.delivered_eq keeper sink r
  have hsame : SameEvents w (w.delivered keeper sink r) := by
    rw [heq]
    exact ⟨rfl, rfl, rfl⟩
  refine ⟨keeper, ?_⟩
  rw [run_submit w hs hsink]
  -- The entry of the sink is the only one that holds data from outside, the session id.
  cases hlog : w.logging.check (sink.report r s.sessionId) with
  | ok _ => exact ⟨hdelivered.trans (.of_eq rfl rfl), hsame.trans ⟨rfl, rfl, rfl⟩, nofun⟩
  | error fault =>
    refine ⟨hdelivered.trans (.of_eq rfl rfl), hsame.trans ⟨rfl, rfl, rfl⟩, fun _ _ => ?_⟩
    obtain ⟨s', hs', -, hsession, hkeeper'⟩ := hdelivered.get?_services hs
    refine ⟨s', hs', hkeeper'.trans hkeeper, fun hplain => ?_⟩
    rw [hsession] at hplain
    rw [w.logging.check_eq_ok (sink.isPlain_report hr hplain)] at hlog
    cases hlog

/-- An event that is handed over is taken, unless there is no service for it. -/
theorem handOver_cases (hw : w.SharedKnown) (hsinks : w.SinksKnown)
    (hd : w.drafts.get? id = some d) (hknown : w.Knows d) (hr : r.Valid) :
    SameEvents w (Action.run (handOver id r) w).2 ∧
      match Action.run (handOver id r) w with
      | (.ok _, w') => ∃ keeper, Handed w [(keeper, r)] w'
      | (.error fault, w') =>
        (∃ service keeper, Handed w [(keeper, r)] w' ∧ w'.Unwritable service keeper) ∨
          d.service = none ∧ w.shared = none ∧ Handed w [] w' ∧
            Action.run sharedService w = (.error fault, w') := by
  have hquiet := handed_serviceOf w d
  have hsinks₁ :=
    ((makes_serviceOf d : Makes false false false (serviceOf d)).changes w).sinksKnown hsinks
  have hsame : SameEvents w (Action.run (serviceOf d) w).2 :=
    ⟨(apart_serviceOf d).drafts w, (apart_serviceOf d).records w,
      congrArg Metrics.created ((apart_serviceOf d).metrics w)⟩
  rw [run_handOver w hd]
  cases hfound : Action.run (serviceOf d) w with
  | mk result w₁ =>
    rw [hfound] at hquiet hsame hsinks₁
    cases result with
    | error fault =>
      have hnone : ¬ (d.service.isSome ∨ w.shared.isSome) := by
        intro h
        obtain ⟨service, hok⟩ := run_serviceOf_of_isSome h
        rw [hok] at hfound
        cases hfound
      simp only [not_or, Option.not_isSome_iff_eq_none] at hnone
      obtain ⟨hservice, hshared⟩ := hnone
      rw [serviceOf, hservice] at hfound
      exact ⟨hsame, .inr ⟨hservice, hshared, hquiet, hfound⟩⟩
    | ok service =>
      have hthere := isSome_of_run_serviceOf hw hknown hfound
      dsimp only at hquiet hsame hsinks₁ ⊢
      obtain ⟨keeper, hhanded, hsame', hfault⟩ := submit_cases w₁ (hsinks₁ service hthere) hr
      cases hsubmit : Action.run (submit service r) w₁ with
      | mk result w' =>
        rw [hsubmit] at hhanded hsame' hfault
        refine ⟨hsame.trans hsame', ?_⟩
        cases result with
        | error fault => exact .inl ⟨service, keeper, hquiet.trans hhanded, hfault fault rfl⟩
        | ok _ => exact ⟨keeper, hquiet.trans hhanded⟩

/-! ## Adding -/

/--
How adding the event of a draft can end. It fails without a trace, or the event is handed to one
sink, once. Two things can fail after the draft was used up: the event was taken, but its service
has a session id that cannot be written; or it was not, because the draft resolves on its own, has
no service of its own, and the shared service cannot be made.
-/
inductive AddEnds (w : World) (id : DraftId) : Except Fault Outcome → World → Prop where
  | failed (fault : Fault) {w' : World} (h : Untouched w w') : AddEnds w id (.error fault) w'
  | added (n : Nat) {r : EventRecord} {keeper : ServiceId} {w' : World} (h : Spent w id r w')
    (hhanded : Handed w [(keeper, r)] w') : AddEnds w id (.ok (.record n r)) w'
  | unreported (fault : Fault) {r : EventRecord} {service keeper : ServiceId} {w' : World}
    (h : Spent w id r w') (hhanded : Handed w [(keeper, r)] w')
    (hsession : w'.Unwritable service keeper) : AddEnds w id (.error fault) w'
  | lost {fault : Fault} {d : Draft} {r : EventRecord} {w₁ w' : World}
    (hd : w.drafts.get? id = some d) (hresolver : d.resolver.isSome) (hservice : d.service = none)
    (hshared : w.shared = none) (hmake : Action.run sharedService w₁ = (.error fault, w'))
    (h : Spent w id r w') (hhanded : Handed w [] w') : AddEnds w id (.error fault) w'

theorem Linked.addEnds (hw : w.Linked) (hvalid : ∀ d, w.drafts.get? id = some d → d.Valid) :
    AddEnds w id (w.step (.add id)).1 (w.step (.add id)).2 := by
  have hcreate := w.create_cases id hvalid
  have hchanges := (makes_create rfl id : Makes true false false (create id)).changes w
  rw [step_add, run_add]
  cases hrun : Action.run (create id) w with
  | mk result w₁ =>
    rw [hrun] at hcreate hchanges
    cases result with
    | error fault => exact .failed fault hcreate
    | ok x =>
      obtain ⟨n, r⟩ := x
      obtain ⟨d, hd, hspent, hquiet, hr, hfound⟩ := hcreate
      have hd₁ : w₁.drafts.get? id = some { d with finalized := true } := by
        obtain ⟨d', hd', -, hput⟩ := hspent.drafts
        obtain rfl := Option.some.inj (hd.symm.trans hd')
        rw [hput, Registry.get?_put_self]
      have hknows : w₁.Knows { d with finalized := true } := by
        have hkept := hchanges.knows (hw.drafts id d hd)
        exact ⟨hkept.service, hkept.resolver⟩
      have hhand := handOver_cases (hchanges.sharedKnown hw.shared) (hchanges.sinksKnown hw.sinks)
        hd₁ hknows hr
      dsimp only
      cases hrun' : Action.run (handOver id r) w₁ with
      | mk result w' =>
        rw [hrun'] at hhand
        obtain ⟨hsame, hends⟩ := hhand
        have hspent' := hspent.of_same hsame
        cases result with
        | ok _ =>
          obtain ⟨keeper, hhanded⟩ := hends
          exact .added n hspent' (hquiet.trans hhanded)
        | error fault =>
          rcases hends with ⟨service, keeper, hhanded, hsession⟩ | ⟨hservice, hnone, hhanded, hmake⟩
          · exact .unreported fault hspent' (hquiet.trans hhanded) hsession
          · -- Had creating the event found the shared service, there would be one now.
            have hneither : ¬ (d.resolver = none ∨ w.shared.isSome) := by
              intro h
              have hsome := hfound hservice h
              rw [hnone] at hsome
              cases hsome
            rw [not_or, ← ne_eq, ← Option.isSome_iff_ne_none, Option.not_isSome_iff_eq_none]
              at hneither
            exact .lost hd hneither.1 hservice hneither.2 hmake hspent' (hquiet.trans hhanded)

/--
In every run, adding the event of a draft either fails without a trace or hands it to one sink,
once, unless the draft resolves on its own and the shared service cannot be made for it, or the
session id of its service cannot be written.
-/
theorem add_of_run (host : Host) (environment : Environment) (steps : List Step) (id : DraftId) :
    let w := (fresh host environment).run steps
    AddEnds w id (w.step (.add id)).1 (w.step (.add id)).2 :=
  (linked_run host environment steps).addEnds fun _ hd => valid_of_run hd

/-- With settings that no sink can be made of, a draft that resolves on its own loses its event. -/
theorem add_loses_event :
    let host : Host := ⟨fun _ => "event", fun _ => "session", fun _ => Binary64.zero false⟩
    let w := (fresh host ⟨[("CUSTOM_EVENTS_SINK_BUFFER_SIZE", "-1")], none⟩).run [
      .openResolver ⟨0⟩ ⟨.held .null, .held .null⟩,
      .openDraft ⟨0⟩ (.text "purchase") none (some (.resolver ⟨0⟩))]
    let w' := (w.step (.add ⟨0⟩)).2
    (w.step (.add ⟨0⟩)).1 = .error .negativeCapacity ∧ ¬ w.IsFinalized ⟨0⟩ ∧ w'.IsFinalized ⟨0⟩ ∧
      w.metrics.created = 0 ∧ w'.metrics.created = 1 ∧ w'.deliveries = [] := by
  intro host w w'
  have hbefore : w.drafts.get? ⟨0⟩ = some _ := rfl
  refine ⟨rfl, ?_, ⟨_, rfl, rfl⟩, rfl, rfl, rfl⟩
  rintro ⟨d, hd, hfinalized⟩
  obtain rfl := Option.some.inj (hbefore.symm.trans hd)
  cases hfinalized

end World

end Telemetry
