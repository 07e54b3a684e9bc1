import Telemetry.Proofs.World.Adding
import Telemetry.Proofs.World.Calls
import Telemetry.Proofs.World.Journal
import Telemetry.Proofs.World.SelfContained

/-!
# Where events go

An event that is added goes to the service that its draft was given, else to the one that is shared
when it is added (`World.Serves`). The service may be looked up twice, for the attribution and for
handing the event over, and what was found once is found again (`World.Serves.again`). So both come
from the same service unless the draft resolves on its own, and every sink but that of the service
holds what it held before. `World.Routed` puts this together, and `World.routing_of_run` says it of
every run.
-/

namespace Telemetry

/-- Where the sources of a draft are, if this is its service. -/
def Draft.placeWith (d : Draft) (service : ServiceId) : SourcesId :=
  d.resolver.getD (.service service)

namespace World

open Telemetry.Action

/-- The events that the sink of a service holds, the newest first. -/
def heldBy (w : World) (id : ServiceId) : List EventRecord := (w.sink? id).elim [] (·.2.events)

/--
The service that a draft finds: its own, else the shared one, else one that is made and shared as
there is none.
-/
inductive Serves (w : World) (d : Draft) (w' : World) (id : ServiceId) : Prop where
  | own (hown : d.service = some id) (hshared : w'.shared = w.shared)
  | shared (hown : d.service = none) (hbefore : w.shared = some id) (hshared : w'.shared = some id)
  | made (hown : d.service = none) (hbefore : w.shared = none) (hshared : w'.shared = some id)
    (hnew : w.services.get? id = none)

/-- The sink that a service has, or an empty one of its own if the service is yet to come. -/
inductive BeginsWith (w : World) (service keeper : ServiceId) (sink : Sink) : Prop where
  | had (hsink : w.sink? service = some (keeper, sink))
  | new (hnew : w.services.get? service = none) (hown : keeper = service)
    (hempty : sink.events = [])

/-- What adding the event of a draft does when it returns. -/
structure Routed (w : World) (d : Draft) (r : EventRecord) (service keeper : ServiceId)
    (w' : World) : Prop where
  serves : Serves w d w' service
  deliveries : w'.deliveries = w.deliveries ++ [(keeper, r)]
  /-- The sink of the service takes the event, and it is reported once, with the session of the
  service, as far as such entries are made. -/
  taken : ∃ s sink before between, BeginsWith w service keeper sink ∧
    (∀ s₀ ∈ w.services.get? service, s.sessionId = s₀.sessionId) ∧
    w'.services.get? service = some s ∧ w'.sink? service = some (keeper, sink.take r) ∧
    w'.journal = w.journal ++ before ++ w.logging.made (.eventCreated r.eventId r.eventName) ++
      between ++ w.logging.made (sink.report r s.sessionId) ++
        w.logging.made (.eventAdded r.eventId r.eventName) ∧
    ∀ e ∈ before ++ between, e.IsBackground
  /-- Services with the same sink list the same. -/
  sharing : ∀ other s, w'.services.get? other = some s → s.keeper other = keeper →
    w'.heldBy other = w'.heldBy service
  others : ∀ other, (∀ s ∈ w'.services.get? other, s.keeper other ≠ keeper) →
    w'.heldBy other = w.heldBy other
  /-- The event is credited to what the sources of the draft say, and no others are asked. -/
  credited : ∃ s : Sources,
    (w.sources? (d.placeWith service) = some s ∨
      w.sources? (d.placeWith service) = none ∧ s = ⟨.held .null, .held .null⟩) ∧
    (s.resolve d.explicitSendId).outcome =
      .ok ⟨r.conversionSendId, r.lastReceivedSendId⟩ ∧
    w'.inquiries = w.inquiries ++
      (s.resolve d.explicitSendId).inquiries.map fun i => (d.placeWith service, i)

variable {w w₁ w₂ w' : World} {id : DraftId} {d : Draft} {r : EventRecord}
  {service keeper : ServiceId}

/-! ## The service of a draft -/

theorem serves_serviceOf (h : Action.run (serviceOf d) w = (.ok service, w')) :
    Serves w d w' service := by
  rcases serviceOf_cases h with ⟨hown, rfl⟩ | ⟨hown, hbefore, rfl⟩ |
    ⟨hown, hbefore, hnew, hshared, -⟩
  · exact .own hown rfl
  · exact .shared hown hbefore hbefore
  · exact .made hown hbefore hshared hnew

/-- A service that was found is found again, as long as the shared one is not replaced. -/
theorem Serves.again (h : Serves w d w₁ service) (hsame : w₂.shared = w₁.shared) :
    Action.run (serviceOf d) w₂ = (.ok service, w₂) := by
  have hfound (hown : d.service = none) (hshared : w₁.shared = some service) :
      Action.run (serviceOf d) w₂ = (.ok service, w₂) := by
    unfold serviceOf
    rw [hown]
    dsimp only
    rw [run_sharedService, hsame, hshared]
  cases h with
  | own hown =>
    unfold serviceOf
    rw [hown]
    rfl
  | shared hown _ hshared => exact hfound hown hshared
  | made hown _ hshared => exact hfound hown hshared

theorem Serves.of_same_shared (h : Serves w₁ d w₂ service) (hbefore : w₁.shared = w.shared)
    (hafter : w'.shared = w₂.shared)
    (hnew : w₁.services.get? service = none → w.services.get? service = none) :
    Serves w d w' service := by
  cases h with
  | own hown hshared => exact .own hown (hafter.trans (hshared.trans hbefore))
  | shared hown hfound hshared => exact .shared hown (hbefore ▸ hfound) (hafter.trans hshared)
  | made hown hnone hshared hfree =>
    exact .made hown (hbefore ▸ hnone) (hafter.trans hshared) (hnew hfree)

/-- Services that are there stay, so what is missing afterwards was missing before. -/
theorem Handed.get?_eq_none {trace : List (ServiceId × EventRecord)} (h : Handed w trace w')
    (hnone : w'.services.get? service = none) : w.services.get? service = none := by
  rw [← Option.not_isSome_iff_eq_none] at hnone ⊢
  exact fun hsome => hnone (h.isSome_services hsome)

/-- A sink holds what it held before if it has taken nothing. -/
theorem Handed.heldBy_eq {trace : List (ServiceId × EventRecord)} (h : Handed w trace w')
    {sink : Sink} (hsink : w.sink? service = some (keeper, sink))
    (hnone : handedTo keeper trace = []) : w'.heldBy service = w.heldBy service := by
  rw [heldBy, h.sink? hsink, heldBy, hsink, hnone]
  rfl

/-- No service has come but this one, and it keeps its sink. -/
structure Brings (w : World) (service : ServiceId) (w' : World) : Prop where
  others : ∀ other ≠ service, w.services.get? other = none → w'.services.get? other = none
  kept : w.services.get? service = none → (w'.services.get? service).isSome →
    (w'.keptSink? service).isSome

/-- In both worlds there are services under the same handles. -/
def SameHandles (w w' : World) : Prop :=
  ∀ id, (w'.services.get? id).isSome = (w.services.get? id).isSome

theorem SameHandles.get?_eq_none (h : w.SameHandles w') {id : ServiceId} :
    w'.services.get? id = none ↔ w.services.get? id = none := by
  rw [← Option.not_isSome_iff_eq_none, h, Option.not_isSome_iff_eq_none]

theorem SameHandles.brings (h : w.SameHandles w') (service : ServiceId) :
    w.Brings service w' where
  others other _ hnone := h.get?_eq_none.mpr hnone
  kept hnone hsome := by
    rw [h.get?_eq_none.mpr hnone] at hsome
    cases hsome

theorem Brings.of_before (h : w₁.Brings service w') (hsame : w.SameHandles w₁) :
    w.Brings service w' where
  others other hother hnone := h.others other hother (hsame.get?_eq_none.mpr hnone)
  kept hnone := h.kept (hsame.get?_eq_none.mpr hnone)

theorem Brings.of_after (h : w.Brings service w₁) (hsame : w₁.SameHandles w')
    {trace : List (ServiceId × EventRecord)} (hhanded : Handed w₁ trace w') :
    w.Brings service w' where
  others other hother hnone := hsame.get?_eq_none.mpr (h.others other hother hnone)
  kept hnone hsome := by
    rw [hsame] at hsome
    obtain ⟨sink, hkept⟩ := Option.isSome_iff_exists.mp (h.kept hnone hsome)
    exact Option.isSome_of_eq_some (hhanded.keptSink? hkept)

theorem brings_serviceOf (h : Action.run (serviceOf d) w = (.ok service, w')) :
    w.Brings service w' := by
  have hsame : w.Brings service w := SameHandles.brings (fun _ => rfl) service
  rcases serviceOf_cases h with ⟨-, rfl⟩ | ⟨-, -, rfl⟩ | ⟨-, -, -, -, s, sink, hservices, hown, -⟩
  · exact hsame
  · exact hsame
  · constructor
    case others =>
      intro other hother hnone
      rwa [hservices, Registry.get?_put_of_ne _ hother]
    case kept =>
      intro _ _
      refine Option.isSome_of_eq_some (keptSink?_eq_some_iff.mpr ⟨s, ?_, hown⟩)
      rw [hservices, Registry.get?_put_self]

/-! ## The parts of adding an event

Each operation on the way, where it comes to an end: what it was made of, and what it left. -/

theorem exists_sources_of_run_attributionOf {a : Attribution}
    (h : Action.run (attributionOf d) w = (.ok a, w')) :
    ∃ place s w₁, Action.run (placeOf d) w = (.ok place, w₁) ∧ w₁.sources? place = some s ∧
      (s.resolve d.explicitSendId).outcome = .ok a ∧ w'.shared = w₁.shared ∧
      w₁.SameHandles w' ∧ Handed w₁ [] w' ∧ w'.inquiries = w.inquiries ++
        (s.resolve d.explicitSendId).inquiries.map fun i => (place, i) := by
  obtain ⟨place, w₁, hplace, h⟩ := run_bind_eq_ok_iff.mp h
  obtain ⟨s, _, hs, -⟩ := run_bind_eq_ok_iff.mp h
  obtain ⟨hs, -⟩ := run_expect_eq_ok_iff.mp hs
  have hshared := shared_run_resolve w₁ place d.explicitSendId
  have hhandles := (selfContained_resolve w₁ place d.explicitSendId).services
  have hhanded := (makes_resolve rfl place d.explicitSendId :
    Makes true false false (resolve place d.explicitSendId)).changes w₁ |>.handed_nil
  have hquiet : w₁.inquiries = w.inquiries := by
    have hchanges := (makes_placeOf d : Makes false false false (placeOf d)).changes w
    rw [hplace] at hchanges
    exact hchanges.inquiries_eq
  rw [h] at hshared hhandles hhanded
  rw [run_resolve w₁ hs] at h
  refine ⟨place, s, w₁, hplace, hs, outcome_of_run_conclude h, hshared, hhandles, hhanded, ?_⟩
  generalize s.resolve d.explicitSendId = resolution at h ⊢
  have hkept := ((keepsServices_conclude resolution).same
    (w₁.asked place resolution.inquiries resolution.sources)).inquiries
  obtain ⟨services, resolvers, heq⟩ := withSources_eq w₁ place resolution.sources
  rw [h] at hkept
  rw [hkept, asked, heq, hquiet]

theorem exists_attribution_of_run_create {n : Nat} (hd : w.drafts.get? id = some d)
    (h : Action.run (create id) w = (.ok (n, r), w')) :
    ∃ a w₁, Action.run (attributionOf d) w = (.ok a, w₁) ∧ w' = w₁.committed id d r ∧
      r.conversionSendId = a.conversionSendId ∧ r.lastReceivedSendId = a.lastReceivedSendId := by
  cases hopen : d.finalized with
  | true =>
    rw [run_create_finalized w hd hopen] at h
    cases h
  | false =>
    rw [run_create w hd hopen] at h
    cases hattribution : Action.run (attributionOf d) w with
    | mk result w₁ =>
      rw [hattribution] at h
      cases result with
      | error fault => cases h
      | ok a =>
        dsimp only at h
        split at h
        · cases h
        · next hr =>
          cases h
          obtain ⟨-, -, rfl⟩ := Draft.record_eq_ok_iff.mp hr
          exact ⟨a, w₁, rfl, rfl, rfl, rfl⟩

/-- What a sink reports is written in the formats that were kept before. -/
theorem journal_acknowledged (w : World) (sink : Sink) (e : Entry) (r : EventRecord) :
    (w.acknowledged sink e r).journal =
      w.journal ++ w.logging.made e ++ w.logging.made (.eventAdded r.eventId r.eventName) := by
  rw [← (w.logging.agrees_use e).made (.eventAdded r.eventId r.eventName)]
  rfl

/-- A service receives an event: its sink takes it, and that is reported. -/
structure Received (w : World) (service keeper : ServiceId) (sink : Sink) (r : EventRecord)
    (w' : World) : Prop where
  had : w.sink? service = some (keeper, sink)
  takes : w'.sink? service = some (keeper, sink.take r)
  handed : Handed w [(keeper, r)] w'
  handles : w.SameHandles w'
  shared : w'.shared = w.shared
  inquiries : w'.inquiries = w.inquiries
  reported : ∃ s, w'.services.get? service = some s ∧ s.keeper service = keeper ∧
    w'.journal = w.journal ++ w.logging.made (sink.report r s.sessionId) ++
      w.logging.made (.eventAdded r.eventId r.eventName)

theorem received_acknowledged {s : Service} {sink : Sink}
    (hs : w.services.get? service = some s) (hsink : w.sink? service = some (keeper, sink))
    (r : EventRecord) :
    w.Received service keeper sink r
      ((w.delivered keeper sink r).acknowledged sink (sink.report r s.sessionId) r) := by
  obtain ⟨t, ht, hkeeper, hkept⟩ := sink?_eq_some_iff.mp hsink
  obtain rfl := Option.some.inj (hs.symm.trans ht)
  have hhanded : Handed w [(keeper, r)]
      ((w.delivered keeper sink r).acknowledged sink (sink.report r s.sessionId) r) :=
    (handed_delivered hkept r).trans (.of_eq rfl rfl)
  obtain ⟨s', hs', -, hsession, hkeeper'⟩ := hhanded.get?_services hs
  have htakes := hhanded.sink? hsink
  rw [handedTo_self] at htakes
  obtain ⟨services, heq⟩ := w.delivered_eq keeper sink r
  constructor
  case had => exact hsink
  case takes => exact htakes
  case handed => exact hhanded
  case handles => exact fun other => w.isSome_withSink ..
  case shared =>
    rw [heq]
    rfl
  case inquiries =>
    rw [heq]
    rfl
  case reported =>
    refine ⟨s', hs', hkeeper'.trans hkeeper, ?_⟩
    rw [journal_acknowledged, heq, hsession]

theorem exists_received_of_run_handOver (hd : w.drafts.get? id = some d)
    (h : Action.run (handOver id r) w = (.ok (), w')) :
    ∃ service keeper sink w₁, Action.run (serviceOf d) w = (.ok service, w₁) ∧
      w₁.Received service keeper sink r w' := by
  rw [run_handOver w hd] at h
  cases hfound : Action.run (serviceOf d) w with
  | mk result w₁ =>
    rw [hfound] at h
    cases result with
    | error fault => cases h
    | ok service =>
      dsimp only at h
      cases hsink : w₁.sink? service with
      | none =>
        rw [run_submit_none w₁ hsink] at h
        cases h
      | some found =>
        obtain ⟨keeper, sink⟩ := found
        obtain ⟨s, hs, -, -⟩ := sink?_eq_some_iff.mp hsink
        rw [run_submit w₁ hs hsink] at h
        split at h
        · cases h
        · cases h
          exact ⟨service, keeper, sink, w₁, rfl, received_acknowledged hs hsink r⟩

/-- The service that serves a draft is the one that its attribution came from, if one was asked. -/
theorem serves_of_run {place : SourcesId} (hplace : Action.run (placeOf d) w = (.ok place, w₁))
    {w₃ : World} (hshared : w₂.shared = w₁.shared) (hhandles : w₁.SameHandles w₂)
    (hhanded : Handed w₁ [] w₂) (hfound : Action.run (serviceOf d) w₂ = (.ok service, w₃)) :
    Serves w d w₃ service ∧ place = d.placeWith service ∧ w.Brings service w₃ := by
  unfold placeOf at hplace
  unfold Draft.placeWith
  cases hresolver : d.resolver with
  | some own =>
    rw [hresolver] at hplace
    cases hplace
    exact ⟨(serves_serviceOf hfound).of_same_shared hshared rfl hhanded.get?_eq_none, rfl,
      (brings_serviceOf hfound).of_before hhandles⟩
  | none =>
    rw [hresolver] at hplace
    obtain ⟨id, w₀, hfirst, hplace⟩ := run_bind_eq_ok_iff.mp hplace
    cases hplace
    have hserves := serves_serviceOf hfirst
    rw [hserves.again hshared] at hfound
    cases hfound
    exact ⟨hserves.of_same_shared rfl hshared fun hnone => hnone, rfl,
      (brings_serviceOf hfirst).of_after hhandles hhanded⟩

/-- What is written until an event is handed over is in the background, but for its creation. -/
theorem journal_of_run {a : Attribution}
    (hattribution : Action.run (attributionOf d) w = (.ok a, w₁))
    (hfound : Action.run (serviceOf d) (w₁.committed id d r) = (.ok service, w₂)) :
    w₂.logging.Agrees w.logging ∧
      ∃ before between, w₂.journal = w.journal ++ before ++
        w.logging.made (.eventCreated r.eventId r.eventName) ++ between ∧
        ∀ e ∈ before ++ between, e.IsBackground := by
  have hfirst := murmurs_attributionOf d
  have hlast := murmurs_serviceOf d
  obtain ⟨before, hbefore, hbackground⟩ := hfirst.journal w
  obtain ⟨between, hbetween, hbackground'⟩ := hlast.journal (w₁.committed id d r)
  have hformats := hfirst.formats w
  have hformats' := hlast.formats (w₁.committed id d r)
  rw [hattribution] at hbefore hformats
  rw [hfound] at hbetween hformats'
  have hbefore : w₁.journal = w.journal ++ before := hbefore
  have hformats : w₁.logging.Agrees w.logging := hformats
  have hcommitted : (w₁.committed id d r).logging.Agrees w₁.logging := w₁.logging.agrees_use _
  refine ⟨hformats'.trans (hcommitted.trans hformats), before, between, ?_, fun e he => ?_⟩
  · rw [← hbefore, ← hformats.made]
    exact hbetween
  · exact (List.mem_append.mp he).elim (hbackground e) (hbackground' e)

theorem exists_add_of_step {o : Outcome} (h : (w.step (.add id)).1 = .ok o) :
    ∃ n r w₁, o = .record n r ∧ Action.run (create id) w = (.ok (n, r), w₁) ∧
      Action.run (handOver id r) w₁ = (.ok (), (w.step (.add id)).2) := by
  have hstep := w.step_add id
  rw [run_add] at hstep
  cases hcreate : Action.run (create id) w with
  | mk result w₁ =>
    rw [hcreate] at hstep
    cases result with
    | error fault =>
      rw [hstep] at h
      cases h
    | ok x =>
      obtain ⟨n, r⟩ := x
      dsimp only at hstep
      cases hhand : Action.run (handOver id r) w₁ with
      | mk result w' =>
        rw [hhand] at hstep
        rw [hstep] at h ⊢
        cases result with
        | error fault => cases h
        | ok _ =>
          cases h
          exact ⟨n, r, w₁, rfl, rfl, hhand⟩

/-- The sink that an event is handed to is the one that the service had, or it came with it. -/
theorem Linked.beginsWith (hw : w.Linked) (hhanded : Handed w [] w₂) (hbrings : w.Brings service w₂)
    {sink : Sink} (hsink : w₂.sink? service = some (keeper, sink)) :
    BeginsWith w service keeper sink := by
  obtain ⟨s, hs, hkeeper, hkept⟩ := sink?_eq_some_iff.mp hsink
  cases hbefore : w.services.get? service with
  | none =>
    obtain ⟨own, hown⟩ := Option.isSome_iff_exists.mp
      (hbrings.kept hbefore (Option.isSome_of_eq_some hs))
    obtain ⟨s', hs', hsink'⟩ := keptSink?_eq_some_iff.mp hown
    have hfound := sink?_of_own hs' hsink'
    obtain ⟨rfl, rfl⟩ := Prod.mk.inj (Option.some.inj (hsink.symm.trans hfound))
    obtain ⟨sink₀, hempty, rfl⟩ := hhanded.events_of_new hbefore hown
    exact .new hbefore rfl hempty
  | some s₀ =>
    obtain ⟨⟨keeper₀, sink₀⟩, hsink₀⟩ := Option.isSome_iff_exists.mp
      (hw.sinks service (Option.isSome_of_eq_some hbefore))
    have hkept := hhanded.sink? hsink₀
    obtain ⟨rfl, rfl⟩ := Prod.mk.inj (Option.some.inj (hsink.symm.trans hkept))
    exact .had hsink₀

/-- All sinks but one hold what they held, whatever services they belong to. -/
theorem Linked.heldBy_eq (hw : w.Linked) (hhanded : Handed w [(keeper, r)] w')
    (hbrings : w.Brings service w') {s : Service} (hs : w'.services.get? service = some s)
    (hkeeper : s.keeper service = keeper) {other : ServiceId}
    (hother : ∀ s ∈ w'.services.get? other, s.keeper other ≠ keeper) :
    w'.heldBy other = w.heldBy other := by
  cases hbefore : w.services.get? other with
  | none =>
    have hne : other ≠ service := by
      rintro rfl
      exact hother s hs hkeeper
    have hafter := hbrings.others other hne hbefore
    simp [heldBy, sink?, hbefore, hafter]
  | some s₀ =>
    obtain ⟨⟨keeper₀, sink₀⟩, hsink₀⟩ := Option.isSome_iff_exists.mp
      (hw.sinks other (Option.isSome_of_eq_some hbefore))
    obtain ⟨s₁, hs₁, hkeeper₁, -⟩ := sink?_eq_some_iff.mp (hhanded.sink? hsink₀)
    have hne : keeper₀ ≠ keeper := hkeeper₁ ▸ hother s₁ hs₁
    exact hhanded.heldBy_eq hsink₀ (handedTo_of_ne hne r)

theorem Linked.routed (hw : w.Linked) {o : Outcome} (hd : w.drafts.get? id = some d)
    (h : (w.step (.add id)).1 = .ok o) :
    ∃ n r service keeper, o = .record n r ∧
      Routed w d r service keeper (w.step (.add id)).2 := by
  obtain ⟨n, r, w₁, ho, hcreate, hhand⟩ := exists_add_of_step h
  have hcreated : Handed w [] w₁ := by
    have hhanded := handed_create w id
    rwa [hcreate] at hhanded
  obtain ⟨a, w₀, hattribution, rfl, hconversion, hlast⟩ :=
    exists_attribution_of_run_create hd hcreate
  obtain ⟨place, s, wₛ, hplace, hs, houtcome, hshared, hhandles, hresolved, hasked⟩ :=
    exists_sources_of_run_attributionOf hattribution
  have hd₁ : (w₀.committed id d r).drafts.get? id = some { d with finalized := true } :=
    Registry.get?_put_self ..
  obtain ⟨service, keeper, sink, w₂, hfound, hreceived⟩ :=
    exists_received_of_run_handOver hd₁ hhand
  -- The draft is finalized by now, and its service is what it was.
  have hshared : (w₀.committed id d r).shared = wₛ.shared := hshared
  have hfound : Action.run (serviceOf d) (w₀.committed id d r) = (.ok service, w₂) := hfound
  have hresolved : Handed wₛ [] (w₀.committed id d r) := hresolved.trans (.of_eq rfl rfl)
  obtain ⟨hserves, rfl, hbrings⟩ := serves_of_run hplace hshared hhandles hresolved hfound
  have hquiet := handed_serviceOf (w₀.committed id d r) d
  have hchanges : Changes false false false _ _ :=
    (makes_serviceOf d).changes (w₀.committed id d r)
  rw [hfound] at hquiet hchanges
  obtain ⟨hformats, before, between, hjournal, hbackground⟩ :=
    journal_of_run hattribution hfound
  have hbefore : Handed w [] w₂ := hcreated.trans hquiet
  have hhanded : Handed w [(keeper, r)] (w.step (.add id)).2 := hbefore.trans hreceived.handed
  have hall := hbrings.of_after hreceived.handles hreceived.handed
  obtain ⟨t, ht, hkeeper, hentries⟩ := hreceived.reported
  obtain ⟨-, -, -, hkept⟩ := sink?_eq_some_iff.mp hreceived.takes
  obtain ⟨s', hs', horigin⟩ := placeOf_spec hw.shared (hw.drafts id d hd) hplace
  obtain rfl := Option.some.inj (hs.symm.trans hs')
  refine ⟨n, r, service, keeper, ho, ?_⟩
  constructor
  case serves => exact hserves.of_same_shared rfl hreceived.shared fun hnone => hnone
  case deliveries => exact hhanded.deliveries
  case taken =>
    refine ⟨t, sink, before, between, hw.beginsWith hbefore hbrings hreceived.had,
      fun s₀ hs₀ => ?_, ht, hreceived.takes, ?_, hbackground⟩
    · obtain ⟨t₀, ht₀, -, hsession₀, -⟩ := hhanded.get?_services hs₀
      obtain rfl := Option.some.inj (ht.symm.trans ht₀)
      exact hsession₀
    · rw [hentries, ← hjournal, ← hformats.made, ← hformats.made]
  case sharing =>
    intro other s hs hsame
    rw [heldBy, sink?_eq_some_iff.mpr ⟨s, hs, hsame, hkept⟩, heldBy, hreceived.takes]
  case others => exact fun other => hw.heldBy_eq hhanded hall ht hkeeper
  case credited =>
    refine ⟨s, horigin, ?_, ?_⟩
    · rw [houtcome, hconversion, hlast]
    · rw [hreceived.inquiries, ← hasked]
      exact hchanges.inquiries_eq

/-! ## Drafts keep what they name -/

/-- Whatever is done, a draft stays with the service and the resolver that it was opened with. -/
theorem exists_draft_of_step (hd : w.drafts.get? id = some d) (s : Step) :
    ∃ d', (w.step s).2.drafts.get? id = some d' ∧ d'.service = d.service ∧
      d'.resolver = d.resolver := by
  rcases w.step_drafts s with hsame | ⟨changed, d', hchange, -, hput⟩
  · exact ⟨d, hsame ▸ hd, rfl, rfl⟩
  · rw [hput]
    by_cases hid : id = changed
    · subst hid
      rw [Registry.get?_put_self]
      rw [hd] at hchange
      cases hchange with
      | @written _ x =>
        have hblank := Draft.blank_apply x d
        exact ⟨_, rfl, (congrArg Draft.service hblank :), (congrArg Draft.resolver hblank :)⟩
      | finalized => exact ⟨_, rfl, rfl, rfl⟩
    · rw [Registry.get?_put_of_ne _ hid]
      exact ⟨d, hd, rfl, rfl⟩

theorem exists_draft_of_run (hd : w.drafts.get? id = some d) (steps : List Step) :
    ∃ d', (w.run steps).drafts.get? id = some d' ∧ d'.service = d.service ∧
      d'.resolver = d.resolver := by
  induction steps generalizing w d with
  | nil => exact ⟨d, hd, rfl, rfl⟩
  | cons s steps ih =>
    obtain ⟨d₁, hd₁, hservice₁, hresolver₁⟩ := exists_draft_of_step hd s
    obtain ⟨d₂, hd₂, hservice₂, hresolver₂⟩ := ih hd₁
    exact ⟨d₂, hd₂, hservice₂.trans hservice₁, hresolver₂.trans hresolver₁⟩

theorem exists_draft_of_openDraft {name : Datum} {own : Option ServiceId}
    {resolver : Option SourcesId} {o : Outcome}
    (h : (w.step (.openDraft id name own resolver)).1 = .ok o) :
    ∃ d, (w.step (.openDraft id name own resolver)).2.drafts.get? id = some d ∧
      d.service = own ∧ d.resolver = resolver := by
  obtain ⟨d, hname, hopened⟩ := exists_ofName_of_step h
  obtain ⟨-, -, hservice, hresolver, -, -⟩ := Draft.ofName_eq_ok_iff.mp hname
  rw [hopened]
  exact ⟨d, Registry.get?_put_self .., hservice, hresolver⟩

/--
In every run, an event whose addition returns was handed once to one sink, that of one service: the
one that its draft was opened with, else the one that is shared at that moment. All other sinks
hold what they held. Its attribution comes from the resolver that the draft was opened with, else
from the same service, unless the draft has a send id of its own. Every service has a sink, and
sinks hold nothing but what was handed to them. Opening a draft does not look for a service, and a
draft that has its own does without the shared one and the settings from then on.
-/
theorem routing_of_run (host : Host) (environment : Environment) (steps : List Step) :
    let w := (fresh host environment).run steps
    (∀ id d o, w.drafts.get? id = some d → (w.step (.add id)).1 = .ok o →
      ∃ n r service keeper, o = .record n r ∧
        Routed w d r service keeper (w.step (.add id)).2) ∧
    (∀ id name own resolver o later, (w.step (.openDraft id name own resolver)).1 = .ok o →
      ∃ d, ((w.step (.openDraft id name own resolver)).2.run later).drafts.get? id = some d ∧
        d.service = own ∧ d.resolver = resolver) ∧
    (∀ id, (w.services.get? id).isSome → ∃ keeper, ∃ sink : Sink, sink.events = [] ∧
      w.sink? id = some (keeper, sink.takeAll (handedTo keeper w.deliveries))) ∧
    (∀ id name own resolver,
      SelfContained (Step.openDraft id name own resolver).perform w) ∧
    ∀ id d (s : Step), w.drafts.get? id = some d → d.service.isSome → s.draft? = some id →
      SelfContained s.perform w := by
  intro w
  have hlinked : w.Linked := linked_run host environment steps
  refine ⟨fun id d o hd h => hlinked.routed hd h, fun id name own resolver o later h => ?_,
    fun id hs => ?_, fun id name own resolver => ?_,
    fun id d s hd hown hs => selfContained_step hd hown hs⟩
  · obtain ⟨d, hd, hservice, hresolver⟩ := exists_draft_of_openDraft h
    obtain ⟨d', hd', hservice', hresolver'⟩ := exists_draft_of_run hd later
    exact ⟨d', hd', hservice'.trans hservice, hresolver'.trans hresolver⟩
  · obtain ⟨⟨keeper, sink⟩, hsink⟩ := Option.isSome_iff_exists.mp (hlinked.sinks id hs)
    obtain ⟨-, -, -, hkept⟩ := sink?_eq_some_iff.mp hsink
    obtain ⟨sink₀, hempty, rfl⟩ := exists_sink_of_run host environment steps hkept
    exact ⟨keeper, sink₀, hempty, hsink⟩
  · exact (selfContained_openDraft w id name own resolver).bind fun _ _ _ => .pure _

/-- A draft that was opened while one service was shared, and one of that service itself. -/
def sharedLater : List Step :=
  [.openService (.named 0) (some (.memory none)) none none .null,
    .openService (.named 1) (some (.memory none)) none none .null,
    .share (some (.named 0)),
    .openDraft ⟨0⟩ (.text "purchase") none none,
    .openDraft ⟨1⟩ (.text "purchase") (some (.named 0)) none,
    .share (some (.named 1))]

/--
What counts is which service is shared when the event is added. A draft with its own service can do
without one, even where none could be made.
-/
theorem routing_of_run_sharedLater :
    let host : Host := ⟨fun _ => "event", fun _ => "session", fun _ => Binary64.zero false⟩
    let w := (fresh host ⟨[], none⟩).run sharedLater
    let bare : Surroundings := ⟨⟨[("CUSTOM_EVENTS_SINK_BUFFER_SIZE", "-1")], none⟩, none, none⟩
    (∃ r, (w.step (.add ⟨0⟩)).2.deliveries = [(.named 1, r)]) ∧
      (w.step (.add ⟨0⟩)).2.heldBy (.named 0) = [] ∧
      ((w.within bare).step (.add ⟨1⟩)).1 = (w.step (.add ⟨1⟩)).1 ∧
      ((w.within bare).step (.add ⟨1⟩)).2.shared = none := by
  dsimp only
  obtain ⟨hrouted, -, -, -, hcontained⟩ := routing_of_run
    ⟨fun _ => "event", fun _ => "session", fun _ => Binary64.zero false⟩ ⟨[], none⟩ sharedLater
  obtain ⟨n, r, service, keeper, -, hadded⟩ := hrouted ⟨0⟩ _ _ rfl rfl
  have hservice : some service = some (.named 1) := by
    cases hadded.serves with
    | own hown => cases hown
    | shared _ hbefore => exact hbefore.symm.trans rfl
    | made _ hbefore => cases hbefore
  obtain rfl := Option.some.inj hservice
  obtain ⟨s, sink, before, between, hbegins, -⟩ := hadded.taken
  have hkeeper : some keeper = some (.named 1) := by
    cases hbegins with
    | had hsink => exact (congrArg (Option.map Prod.fst) hsink).symm.trans rfl
    | new hnew => cases hnew
  obtain rfl := Option.some.inj hkeeper
  refine ⟨⟨r, hadded.deliveries⟩, ?_, ?_, ?_⟩
  · rw [hadded.others (.named 0) fun s hs => ?_]
    · rfl
    · cases hs
      exact nofun
  · rw [step_within (hcontained ⟨1⟩ _ (.add ⟨1⟩) rfl rfl rfl)]
  · rw [step_within (hcontained ⟨1⟩ _ (.add ⟨1⟩) rfl rfl rfl)]
    rfl

/-- Two services with one sink. The draft of one of them has a send id of its own. -/
def sharedSink : List Step :=
  [.openService (.named 0) (some (.memory none)) (some (.held (.text "session"))) none .null,
    .openService (.named 1) (some (.sharedWith (.named 0))) none none .null,
    .openDraft ⟨0⟩ (.text "purchase") (some (.named 0)) none,
    .setAttribution ⟨0⟩ (some (.message ⟨[(pushSendIdKey, .text "push")]⟩))]

/--
The event of a draft shows up at a service that is not the one of the draft, if both have one sink,
and it is credited to the send id of the draft, whatever the sources of the service say.
-/
theorem add_reaches_other_service :
    let host : Host := ⟨fun _ => "event", fun _ => "session", fun _ => Binary64.zero false⟩
    let w := (fresh host ⟨[], none⟩).run sharedSink
    let w' := (w.step (.add ⟨0⟩)).2
    w.heldBy (.named 1) = [] ∧
      ∃ r, (w.step (.add ⟨0⟩)).1 = .ok (.record 0 r) ∧ w'.heldBy (.named 1) = [r] ∧
        r.conversionSendId = some "push" ∧
        w.sources? (.service (.named 0)) = some ⟨.held (.text "session"), .held .null⟩ := by
  exact ⟨rfl, _, rfl, rfl, rfl, rfl⟩

end World

end Telemetry
