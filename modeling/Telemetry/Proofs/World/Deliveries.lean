import Telemetry.Proofs.World.Changes

/-!
# Sinks take what is handed over

Whatever steps are taken, a service that is there stays with its session and its sink, and a sink
takes the events that are handed to it, in order, and nothing else (`World.handed_run`). A service
that comes begins with an empty sink or with the sink of another, so from the beginning every sink
holds just what it took (`World.exists_sink_of_run`). What an operation hands over is therefore all
that has to be known of it (`World.Changes.handed`).
-/

namespace Telemetry

/-! ## What becomes of a service -/

namespace Sink

/-- The sink after it took some events. -/
def takeAll (sink : Sink) (rs : List EventRecord) : Sink := rs.foldl take sink

theorem takeAll_append (sink : Sink) (rs rs' : List EventRecord) :
    sink.takeAll (rs ++ rs') = (sink.takeAll rs).takeAll rs' := List.foldl_append

end Sink

namespace ServiceSink

/-- The sink after it took some events, if it is kept with the service. -/
def takeAll (sink : ServiceSink) (rs : List EventRecord) : ServiceSink :=
  match sink with
  | own sink => own (sink.takeAll rs)
  | of keeper => of keeper

@[simp] theorem takeAll_nil (sink : ServiceSink) : sink.takeAll [] = sink := by
  cases sink <;> rfl

theorem takeAll_append (sink : ServiceSink) (rs rs' : List EventRecord) :
    sink.takeAll (rs ++ rs') = (sink.takeAll rs).takeAll rs' := by
  cases sink with
  | own sink => exact congrArg own (sink.takeAll_append rs rs')
  | of keeper => rfl

theorem kept?_takeAll (sink : ServiceSink) (rs : List EventRecord) :
    (sink.takeAll rs).kept? = sink.kept?.map (·.takeAll rs) := by
  cases sink <;> rfl

end ServiceSink

namespace Service

/-- What becomes of a service, or of none, while these events are handed to the sink it keeps. -/
inductive Takes : Option Service → List EventRecord → Option Service → Prop where
  | absent : Takes none [] none
  | comes (service : Service) (hempty : ∀ sink ∈ service.sink.kept?, sink.events = [])
    (rs : List EventRecord) : Takes none rs (some { service with sink := service.sink.takeAll rs })
  | stays (service : Service) (rs : List EventRecord) (sources : Sources) :
    Takes (some service) rs (some { service with sources, sink := service.sink.takeAll rs })

theorem Takes.of_sources (service : Service) (sources : Sources) :
    Takes (some service) [] (some { service with sources }) := by
  have hstays := Takes.stays service [] sources
  rwa [ServiceSink.takeAll_nil] at hstays

theorem Takes.refl (service : Option Service) : Takes service [] service := by
  cases service with
  | none => exact .absent
  | some service => exact .of_sources service service.sources

theorem Takes.trans {s s' s'' : Option Service} {rs rs' : List EventRecord} (h : Takes s rs s')
    (h' : Takes s' rs' s'') : Takes s (rs ++ rs') s'' := by
  cases h with
  | absent => exact h'
  | comes service hempty rs =>
    cases h' with
    | stays _ _ sources =>
      dsimp only
      rw [← ServiceSink.takeAll_append]
      exact .comes { service with sources } hempty (rs ++ rs')
  | stays service rs =>
    cases h' with
    | stays _ _ sources =>
      dsimp only
      rw [← ServiceSink.takeAll_append]
      exact .stays service (rs ++ rs') sources

theorem keeper_takeAll (service : Service) (rs : List EventRecord) (sources : Sources)
    (id : ServiceId) :
    keeper { service with sources, sink := service.sink.takeAll rs } id = service.keeper id := by
  unfold keeper ServiceSink.takeAll
  cases service.sink <;> rfl

end Service

/-- The events that were handed to the sink that a service keeps. -/
def handedTo (id : ServiceId) (trace : List (ServiceId × EventRecord)) : List EventRecord :=
  (trace.filter fun e => e.1 = id).map (·.2)

theorem handedTo_append (id : ServiceId) (trace trace' : List (ServiceId × EventRecord)) :
    handedTo id (trace ++ trace') = handedTo id trace ++ handedTo id trace' := by
  simp [handedTo]

theorem handedTo_self (id : ServiceId) (r : EventRecord) : handedTo id [(id, r)] = [r] := by
  simp [handedTo]

theorem handedTo_of_ne {id keeper : ServiceId} (h : id ≠ keeper) (r : EventRecord) :
    handedTo id [(keeper, r)] = [] := by
  simp [handedTo, Ne.symm h]

/-! ## Deliveries along a run -/

namespace World

/-- These events were handed over, each to a sink, and sinks took nothing else. -/
structure Handed (w : World) (trace : List (ServiceId × EventRecord)) (w' : World) : Prop where
  deliveries : w'.deliveries = w.deliveries ++ trace
  takes : ∀ id, Service.Takes (w.services.get? id) (handedTo id trace) (w'.services.get? id)

section

variable {w w' w'' : World} {trace trace' : List (ServiceId × EventRecord)}

theorem Handed.of_eq (hdeliveries : w'.deliveries = w.deliveries)
    (hservices : w'.services = w.services) : Handed w [] w' where
  deliveries := by rw [hdeliveries, List.append_nil]
  takes id := by
    rw [hservices]
    exact .refl _

theorem Handed.trans (h : Handed w trace w') (h' : Handed w' trace' w'') :
    Handed w (trace ++ trace') w'' where
  deliveries := by rw [h'.deliveries, h.deliveries, List.append_assoc]
  takes id := by
    rw [handedTo_append]
    exact (h.takes id).trans (h'.takes id)

/-- Services stay, with the session and the sink that they have. -/
theorem Handed.get?_services (h : Handed w trace w') {id : ServiceId} {service : Service}
    (hs : w.services.get? id = some service) :
    ∃ service', w'.services.get? id = some service' ∧
      service'.sink = service.sink.takeAll (handedTo id trace) ∧
      service'.sessionId = service.sessionId ∧ service'.keeper id = service.keeper id := by
  have htakes := h.takes id
  rw [hs] at htakes
  generalize hs' : w'.services.get? id = s' at htakes
  cases htakes with
  | stays _ _ sources => exact ⟨_, rfl, rfl, rfl, service.keeper_takeAll _ sources id⟩

theorem Handed.keptSink? (h : Handed w trace w') {keeper : ServiceId} {sink : Sink}
    (hkept : w.keptSink? keeper = some sink) :
    w'.keptSink? keeper = some (sink.takeAll (handedTo keeper trace)) := by
  obtain ⟨service, hs, hsink⟩ := keptSink?_eq_some_iff.mp hkept
  obtain ⟨service', hs', hsink', -⟩ := h.get?_services hs
  rw [hsink] at hsink'
  exact keptSink?_eq_some_iff.mpr ⟨service', hs', hsink'⟩

/-- A service goes on with its sink, and that has taken what was handed to it. -/
theorem Handed.sink? (h : Handed w trace w') {id keeper : ServiceId} {sink : Sink}
    (hsink : w.sink? id = some (keeper, sink)) :
    w'.sink? id = some (keeper, sink.takeAll (handedTo keeper trace)) := by
  obtain ⟨service, hs, hkeeper, hkept⟩ := sink?_eq_some_iff.mp hsink
  obtain ⟨service', hs', -, -, hkeeper'⟩ := h.get?_services hs
  exact sink?_eq_some_iff.mpr ⟨service', hs', hkeeper'.trans hkeeper, h.keptSink? hkept⟩

theorem Handed.isSome_services (h : Handed w trace w') {id : ServiceId}
    (hs : (w.services.get? id).isSome) : (w'.services.get? id).isSome := by
  obtain ⟨service, hservice⟩ := Option.isSome_iff_exists.mp hs
  obtain ⟨service', hservice', -⟩ := h.get?_services hservice
  rw [hservice']
  rfl

/-- A sink that has come with its service begins empty. -/
theorem Handed.events_of_new {trace : List (ServiceId × EventRecord)} (h : Handed w trace w')
    {keeper : ServiceId} (hnew : w.services.get? keeper = none) {sink : Sink}
    (hkept : w'.keptSink? keeper = some sink) :
    ∃ sink₀ : Sink, sink₀.events = [] ∧ sink = sink₀.takeAll (handedTo keeper trace) := by
  have htakes := h.takes keeper
  obtain ⟨s, hs, hsink⟩ := keptSink?_eq_some_iff.mp hkept
  rw [hnew, hs] at htakes
  generalize handedTo keeper trace = rs at htakes ⊢
  cases htakes with
  | comes service₀ hempty =>
    have hmade : (service₀.sink.takeAll rs).kept? = some sink := congrArg ServiceSink.kept? hsink
    rw [ServiceSink.kept?_takeAll] at hmade
    obtain ⟨sink₀, hsink₀, rfl⟩ := Option.map_eq_some_iff.mp hmade
    exact ⟨sink₀, hempty sink₀ hsink₀, rfl⟩

theorem handed_withSources (w : World) (place : SourcesId) (s : Sources) :
    Handed w [] (w.withSources place s) where
  deliveries := by
    obtain ⟨services, resolvers, heq⟩ := withSources_eq w place s
    rw [heq, List.append_nil]
  takes id := by
    rw [get?_withSources]
    cases w.services.get? id with
    | none => exact .absent
    | some service => exact .of_sources service _

theorem handed_delivered {keeper : ServiceId} {sink : Sink}
    (hkept : w.keptSink? keeper = some sink) (r : EventRecord) :
    Handed w [(keeper, r)] (w.delivered keeper sink r) := by
  obtain ⟨service, hs, hsink⟩ := keptSink?_eq_some_iff.mp hkept
  constructor
  case deliveries => rfl
  case takes =>
    intro id
    have hafter : (w.delivered keeper sink r).services.get? id = _ :=
      get?_withSink hs (sink.take r) id
    rw [hafter]
    by_cases hid : id = keeper
    · subst hid
      have htaken : ServiceSink.own (sink.take r) = service.sink.takeAll [r] := by
        rw [hsink]
        rfl
      rw [if_pos rfl, hs, handedTo_self, htaken]
      exact .stays service [r] service.sources
    · rw [if_neg hid, handedTo_of_ne hid]
      exact .refl _

variable {asks sets delivers : Bool}

theorem Change.handed (h : Change asks sets delivers w w') :
    ∃ trace, Handed w trace w' ∧ (delivers = false → trace = []) := by
  cases h with
  | other h => exact ⟨[], .of_eq h.deliveries h.services, fun _ => rfl⟩
  | @enter id hfree service hfits =>
    refine ⟨[], ⟨(List.append_nil _).symm, fun other => ?_⟩, fun _ => rfl⟩
    by_cases hid : other = id
    · subst hid
      have hcomes := Service.Takes.comes service hfits.events_of_kept []
      rw [ServiceSink.takeAll_nil] at hcomes
      rw [hfree, Registry.get?_put_self]
      exact hcomes
    · rw [Registry.get?_put_of_ne _ hid]
      exact .refl _
  | openResolver => exact ⟨[], .of_eq rfl rfl, fun _ => rfl⟩
  | share => exact ⟨[], .of_eq rfl rfl, fun _ => rfl⟩
  | set => exact ⟨[], handed_withSources .., fun _ => rfl⟩
  | @ask _ place s s' inquiries =>
    have hasked : Handed (w.withSources place s') [] (w.asked place inquiries s') := .of_eq rfl rfl
    exact ⟨[], (handed_withSources w place s').trans hasked, fun _ => rfl⟩
  | @deliver hdelivers keeper sink hkept r =>
    refine ⟨[(keeper, r)], handed_delivered hkept r, fun h => ?_⟩
    rw [hdelivers] at h
    cases h

theorem Changes.handed (h : Changes asks sets delivers w w') :
    ∃ trace, Handed w trace w' ∧ (delivers = false → trace = []) := by
  induction h with
  | refl => exact ⟨[], .of_eq rfl rfl, fun _ => rfl⟩
  | tail _ hlast ih =>
    obtain ⟨trace, hhanded, hnone⟩ := ih
    obtain ⟨trace', hhanded', hnone'⟩ := hlast.handed
    exact ⟨trace ++ trace', hhanded.trans hhanded', fun h => by rw [hnone h, hnone' h]; rfl⟩

/-- Where nothing may be handed over, nothing is. -/
theorem Changes.handed_nil (h : Changes asks sets false w w') : Handed w [] w' := by
  obtain ⟨trace, hhanded, hnone⟩ := h.handed
  rwa [hnone rfl] at hhanded

/-! ## What operations hand over -/

open Telemetry.Action

/-- An event is handed to the sink of its service, if that is there. -/
theorem handed_submit (w : World) (id : ServiceId) (r : EventRecord) :
    ∃ trace, Handed w trace (Action.run (submit id r) w).2 ∧
      (trace = [] ∨ ∃ keeper, trace = [(keeper, r)]) := by
  cases hsink : w.sink? id with
  | none =>
    rw [run_submit_none w hsink]
    exact ⟨[], .of_eq rfl rfl, .inl rfl⟩
  | some found =>
    obtain ⟨keeper, sink⟩ := found
    obtain ⟨service, hs, -, hkept⟩ := sink?_eq_some_iff.mp hsink
    refine ⟨[(keeper, r)], ?_, .inr ⟨keeper, rfl⟩⟩
    rw [run_submit w hs hsink]
    have hdelivered := handed_delivered hkept r
    split <;> exact hdelivered.trans (.of_eq rfl rfl)

theorem handed_serviceOf (w : World) (d : Draft) : Handed w [] (Action.run (serviceOf d) w).2 :=
  ((makes_serviceOf d : Makes false false false (serviceOf d)).changes w).handed_nil

theorem handed_create (w : World) (id : DraftId) : Handed w [] (Action.run (create id) w).2 :=
  ((makes_create rfl id : Makes true false false (create id)).changes w).handed_nil

/-- The event of a draft is handed to one sink at most. -/
theorem handed_handOver (w : World) (id : DraftId) (r : EventRecord) :
    ∃ trace, Handed w trace (Action.run (handOver id r) w).2 ∧
      (trace = [] ∨ ∃ keeper, trace = [(keeper, r)]) := by
  cases hd : w.drafts.get? id with
  | none =>
    have hunknown : Action.run (handOver id r) w = (.error .unknownHandle, w) :=
      run_bind_error _ (run_expect_none _ hd)
    rw [hunknown]
    exact ⟨[], .of_eq rfl rfl, .inl rfl⟩
  | some d =>
    have hquiet := handed_serviceOf w d
    rw [run_handOver w hd]
    generalize Action.run (serviceOf d) w = result at hquiet ⊢
    obtain ⟨fault | service, w'⟩ := result
    · exact ⟨[], hquiet, .inl rfl⟩
    · obtain ⟨trace, hhanded, htrace⟩ := handed_submit w' service r
      exact ⟨trace, hquiet.trans hhanded, htrace⟩

end

/-- In every run, sinks take what is handed over and nothing else. -/
theorem handed_run (w : World) (steps : List Step) : ∃ trace, Handed w trace (w.run steps) := by
  induction steps generalizing w with
  | nil => exact ⟨[], .of_eq rfl rfl⟩
  | cons s steps ih =>
    obtain ⟨trace, hstep, -⟩ := (w.changes_step s).handed
    obtain ⟨trace', hrun⟩ := ih (w.step s).2
    exact ⟨trace ++ trace', hstep.trans hrun⟩

/-- From the beginning, every sink was empty and has taken what was handed to it. -/
theorem exists_sink_of_run (host : Host) (environment : Environment) (steps : List Step)
    {keeper : ServiceId} {sink : Sink}
    (hkept : ((fresh host environment).run steps).keptSink? keeper = some sink) :
    ∃ sink₀ : Sink, sink₀.events = [] ∧
      sink = sink₀.takeAll (handedTo keeper ((fresh host environment).run steps).deliveries) := by
  obtain ⟨trace, hhanded⟩ := handed_run (fresh host environment) steps
  have htrace : ((fresh host environment).run steps).deliveries = trace := hhanded.deliveries
  rw [htrace]
  exact hhanded.events_of_new rfl hkept

end World

end Telemetry
