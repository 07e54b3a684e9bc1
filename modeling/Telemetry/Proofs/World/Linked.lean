import Telemetry.Proofs.World.Deliveries

/-!
# What changes of services and sources keep

Shown change by change, and so for every operation: a place with sources keeps having some
(`World.Changes.isSome_sources?`), the shared service is one that is there
(`World.Changes.sharedKnown`), every service has a sink (`World.Changes.sinksKnown`), and without a
question none is noted (`World.Changes.inquiries_eq`). So in a run everything that drafts name is
there, and the shared service and all sinks too (`World.linked_run`).
-/

namespace Telemetry

/-! ## What changes keep -/

namespace World

section

variable {asks sets delivers : Bool} {w w' : World}

theorem Change.isSome_services (h : Change asks sets delivers w w') {id : ServiceId}
    (hs : (w.services.get? id).isSome) : (w'.services.get? id).isSome := by
  obtain ⟨trace, hhanded, -⟩ := h.handed
  exact hhanded.isSome_services hs

/-- What is known at a place stays known. -/
theorem Change.isSome_sources? (h : Change asks sets delivers w w') {place : SourcesId}
    (hs : (w.sources? place).isSome) : (w'.sources? place).isSome := by
  cases place with
  | service id =>
    unfold sources? at hs ⊢
    rw [Option.isSome_map] at hs ⊢
    exact h.isSome_services hs
  | resolver id =>
    have hput {place : SourcesId} {s₀ : Sources} (hplace : w.sources? place = some s₀)
        (s : Sources) : ((w.withSources place s).sources? (.resolver id)).isSome := by
      rw [sources?_withSources hplace]
      split
      · rfl
      · exact hs
    cases h with
    | other h =>
      rw [sources?, h.resolvers]
      exact hs
    | enter => exact hs
    | @openResolver other hfree sources =>
      by_cases hid : id = other
      · rw [sources?, hid, Registry.get?_put_self]
        rfl
      · rw [sources?, Registry.get?_put_of_ne _ hid]
        exact hs
    | share => exact hs
    | set _ hset => exact hput hset _
    | ask _ hask => exact hput hask _
    | @deliver _ keeper sink _ r =>
      obtain ⟨services, heq⟩ := w.delivered_eq keeper sink r
      rw [heq]
      exact hs

theorem Changes.isSome_sources? (h : Changes asks sets delivers w w') {place : SourcesId}
    (hs : (w.sources? place).isSome) : (w'.sources? place).isSome := by
  induction h with
  | refl => exact hs
  | tail _ hlast ih => exact hlast.isSome_sources? ih

theorem Change.inquiries_eq (h : Change false sets delivers w w') : w'.inquiries = w.inquiries := by
  cases h with
  | other h => exact h.inquiries
  | set =>
    obtain ⟨services, resolvers, heq⟩ := withSources_eq w (.service _) _
    rw [heq]
  | ask hasks => cases hasks
  | @deliver _ keeper sink _ r =>
    obtain ⟨services, heq⟩ := w.delivered_eq keeper sink r
    rw [heq]
  | _ => rfl

/-- Without a question none is noted. -/
theorem Changes.inquiries_eq (h : Changes false sets delivers w w') :
    w'.inquiries = w.inquiries := by
  induction h with
  | refl => rfl
  | tail _ hlast ih => exact hlast.inquiries_eq.trans ih

/-- The shared service is one that is there. -/
def SharedKnown (w : World) : Prop := ∀ id ∈ w.shared, (w.services.get? id).isSome

theorem Change.sharedKnown (h : Change asks sets delivers w w') (hw : w.SharedKnown) :
    w'.SharedKnown := by
  have hsame (hshared : w'.shared = w.shared) : w'.SharedKnown := by
    intro id hid
    rw [hshared] at hid
    exact h.isSome_services (hw id hid)
  cases h with
  | other h => exact hsame h.shared
  | share hknown => exact hknown
  | @set _ id s q old _ _ sendId =>
    obtain ⟨services, resolvers, heq⟩ :=
      withSources_eq w (.service id) (s.withSource q (.held sendId))
    exact hsame (by rw [heq])
  | @ask _ place s s' =>
    obtain ⟨services, resolvers, heq⟩ := withSources_eq w place s'
    exact hsame (by rw [asked, heq])
  | @deliver _ keeper sink _ r =>
    obtain ⟨services, heq⟩ := w.delivered_eq keeper sink r
    exact hsame (by rw [heq])
  | _ => exact hsame rfl

theorem Changes.sharedKnown (h : Changes asks sets delivers w w') (hw : w.SharedKnown) :
    w'.SharedKnown := by
  induction h with
  | refl => exact hw
  | tail _ hlast ih => exact hlast.sharedKnown ih

/-- Every service has a sink, kept with it or with another. -/
def SinksKnown (w : World) : Prop :=
  ∀ id, (w.services.get? id).isSome → (w.sink? id).isSome

theorem Change.isSome_sink? (h : Change asks sets delivers w w') {id : ServiceId}
    (hsink : (w.sink? id).isSome) : (w'.sink? id).isSome := by
  obtain ⟨trace, hhanded, -⟩ := h.handed
  obtain ⟨⟨keeper, sink⟩, hfound⟩ := Option.isSome_iff_exists.mp hsink
  exact Option.isSome_of_eq_some (hhanded.sink? hfound)

/-- A service that was entered has a sink. -/
theorem isSome_sink?_of_enter {id : ServiceId} {service : Service}
    (hfree : w.services.get? id = none) (hfits : w.Fits service.sink) :
    ({ w with services := w.services.put id service }.sink? id).isSome := by
  have hs : (w.services.put id service).get? id = some service := Registry.get?_put_self ..
  cases hsink : service.sink with
  | own sink => exact Option.isSome_of_eq_some (sink?_of_own hs hsink)
  | of keeper =>
    rw [hsink] at hfits
    obtain ⟨sink, hkept⟩ := Option.isSome_iff_exists.mp hfits
    obtain ⟨keeping, hkeeping, hown⟩ := keptSink?_eq_some_iff.mp hkept
    have hne : keeper ≠ id := by
      rintro rfl
      rw [hfree] at hkeeping
      cases hkeeping
    have hkeeping : (w.services.put id service).get? keeper = some keeping :=
      (Registry.get?_put_of_ne _ hne _).trans hkeeping
    refine Option.isSome_of_eq_some (sink?_eq_some_iff.mpr ⟨service, hs, ?_,
      keptSink?_eq_some_iff.mpr ⟨keeping, hkeeping, hown⟩⟩)
    rw [Service.keeper, hsink]

theorem Change.sinksKnown (h : Change asks sets delivers w w') (hw : w.SinksKnown) :
    w'.SinksKnown := by
  intro id hid
  -- A service that was there before goes on with its sink, and only one can be new.
  have hstays (hsome : (w.services.get? id).isSome) : (w'.sink? id).isSome :=
    h.isSome_sink? (hw id hsome)
  have hsources (place : SourcesId) (s : Sources)
      (hsome : ((w.withSources place s).services.get? id).isSome) :
      (w.services.get? id).isSome := by
    rwa [get?_withSources, Option.isSome_map] at hsome
  cases h with
  | other h => exact hstays (h.services ▸ hid)
  | @enter entered hfree service hfits =>
    by_cases heq : id = entered
    · subst heq
      exact isSome_sink?_of_enter hfree hfits
    · dsimp only at hid
      rw [Registry.get?_put_of_ne _ heq] at hid
      exact hstays hid
  | openResolver => exact hstays hid
  | share => exact hstays hid
  | set => exact hstays (hsources _ _ hid)
  | ask => exact hstays (hsources _ _ hid)
  | @deliver _ keeper sink hkept r =>
    obtain ⟨service, hs, -⟩ := keptSink?_eq_some_iff.mp hkept
    have hafter : (w.delivered keeper sink r).services.get? id = _ :=
      get?_withSink hs (sink.take r) id
    rw [hafter] at hid
    split at hid
    · next heq => exact hstays (heq ▸ Option.isSome_of_eq_some hs)
    · exact hstays hid

theorem Changes.sinksKnown (h : Changes asks sets delivers w w') (hw : w.SinksKnown) :
    w'.SinksKnown := by
  induction h with
  | refl => exact hw
  | tail _ hlast ih => exact hlast.sinksKnown ih

theorem Changes.knows (h : Changes asks sets delivers w w') {d : Draft} (hd : w.Knows d) :
    w'.Knows d where
  service id hid := by
    have hstays : (w.sources? (.service id)).isSome → (w'.sources? (.service id)).isSome :=
      h.isSome_sources?
    unfold sources? at hstays
    rw [Option.isSome_map, Option.isSome_map] at hstays
    exact hstays (hd.service id hid)
  resolver place hplace := h.isSome_sources? (hd.resolver place hplace)

end

/-! ## Everything that is named is there -/

/-- The shared service is there, and so are the sinks of all services and all that drafts name. -/
structure Linked (w : World) : Prop where
  shared : w.SharedKnown
  sinks : w.SinksKnown
  drafts : ∀ id d, w.drafts.get? id = some d → w.Knows d

/-- A draft that is changed names what it named before. -/
theorem knows_of_change {w : World} {before d : Draft} (h : Draft.Change (some before) d)
    (hbefore : w.Knows before) : w.Knows d := by
  generalize hsome : some before = b at h
  cases h with
  | opened => cases hsome
  | @written d' x hopen hx =>
    obtain rfl := Option.some.inj hsome
    have hblank := Draft.blank_apply x before
    have hservice : (x.apply before).service = before.service := (congrArg Draft.service hblank :)
    have hresolver : (x.apply before).resolver = before.resolver :=
      (congrArg Draft.resolver hblank :)
    exact ⟨hservice ▸ hbefore.service, hresolver ▸ hbefore.resolver⟩
  | finalized hopen =>
    obtain rfl := Option.some.inj hsome
    exact ⟨hbefore.service, hbefore.resolver⟩

theorem Linked.step {w : World} (h : w.Linked) (s : Step) : (w.step s).2.Linked := by
  have hchanges := w.changes_step s
  refine ⟨hchanges.sharedKnown h.shared, hchanges.sinksKnown h.sinks,
    fun id d hd => hchanges.knows ?_⟩
  rcases w.step_drafts s with hsame | ⟨changed, d', hd', hnew, hput⟩
  · rw [hsame] at hd
    exact h.drafts id d hd
  · rw [hput] at hd
    by_cases hid : id = changed
    · subst hid
      rw [Registry.get?_put_self] at hd
      obtain rfl := Option.some.inj hd
      cases hbefore : w.drafts.get? id with
      | none => exact hnew hbefore
      | some before =>
        rw [hbefore] at hd'
        exact knows_of_change hd' (h.drafts id before hbefore)
    · rw [Registry.get?_put_of_ne _ hid] at hd
      exact h.drafts id d hd

theorem Linked.run {w : World} (h : w.Linked) (steps : List Step) : (w.run steps).Linked := by
  induction steps generalizing w with
  | nil => exact h
  | cons s steps ih => exact ih (h.step s)

theorem linked_run (host : Host) (environment : Environment) (steps : List Step) :
    ((fresh host environment).run steps).Linked := by
  refine Linked.run ⟨?_, ?_, ?_⟩ steps
  · rintro id ⟨⟩
  · rintro id ⟨⟩
  · rintro id d ⟨⟩

end World

end Telemetry
