import Mathlib.Data.Set.Basic
import Telemetry.Proofs.Metrics
import Telemetry.Proofs.Unstamped
import Telemetry.Proofs.World.Changes

/-!
# Worlds that agree on what belongs to a party

A party has services, resolvers and drafts of its own. Two worlds that agree on these
(`World.Alike`) may differ in everything else: in what belongs to others, in all that is kept of
earlier events, in what the host generates next. `World.Moved` says that both have gone on in the
same way. They agree again, nothing else was touched, the same questions were put to sources and the
same was recorded. Each change of a world that an operation on the party's own can make is of this
kind, and changes can be put together (`World.Moved.trans`).
-/

namespace Telemetry

/-- What belongs to a party. -/
structure Belongings where
  services : Set ServiceId
  resolvers : Set ResolverId
  drafts : Set DraftId

namespace Belongings

/-- The sources at a place are those of the party. -/
def Owns (mine : Belongings) : SourcesId → Prop
  | .service id => id ∈ mine.services
  | .resolver id => id ∈ mine.resolvers

/-- If the sink is kept with another service, that one belongs to the party. -/
def Keeps (mine : Belongings) : ServiceSink → Prop
  | .own _ => True
  | .of keeper => keeper ∈ mine.services

/-- The draft has its own service, and that and what its resolver asks belong to the party. -/
structure Equips (mine : Belongings) (d : Draft) : Prop where
  service : ∃ id ∈ mine.services, d.service = some id
  resolver : ∀ place ∈ d.resolver, mine.Owns place

theorem Equips.of_blank {mine : Belongings} {d d' : Draft} (h : mine.Equips d)
    (hblank : d'.blank = d.blank) : mine.Equips d' := by
  have hservice : d'.blank.service = d.blank.service := congrArg Draft.service hblank
  have hresolver : d'.blank.resolver = d.blank.resolver := congrArg Draft.resolver hblank
  exact ⟨hservice ▸ h.service, hresolver ▸ h.resolver⟩

/-- What the services and the drafts of the party name belongs to it as well. -/
structure Closed (mine : Belongings) (w : World) : Prop where
  services : ∀ id ∈ mine.services, ∀ s ∈ w.services.get? id, mine.Keeps s.sink
  drafts : ∀ id ∈ mine.drafts, ∀ d ∈ w.drafts.get? id, mine.Equips d

theorem Keeps.keeper_mem {mine : Belongings} {s : Service} (h : mine.Keeps s.sink) {id : ServiceId}
    (hid : id ∈ mine.services) : s.keeper id ∈ mine.services := by
  unfold Service.keeper
  cases hsink : s.sink with
  | own _ => exact hid
  | of keeper =>
    rw [hsink] at h
    exact h

end Belongings

namespace World

variable {mine : Belongings} {u v u' v' u'' v'' w w' w'' : World}

/-- The worlds agree on what belongs to a party, up to ids and times. -/
structure Alike (mine : Belongings) (u v : World) : Prop where
  logging : u.logging.Agrees v.logging
  services : ∀ id ∈ mine.services,
    (u.services.get? id).map Service.unstamped = (v.services.get? id).map Service.unstamped
  resolvers : ∀ id ∈ mine.resolvers, u.resolvers.get? id = v.resolvers.get? id
  drafts : ∀ id ∈ mine.drafts, u.drafts.get? id = v.drafts.get? id
  closed : mine.Closed u

/-- What does not belong to the party is as it was. -/
structure Spares (mine : Belongings) (w w' : World) : Prop where
  logging : w'.logging.Agrees w.logging
  services : ∀ id ∉ mine.services, w'.services.get? id = w.services.get? id
  resolvers : ∀ id ∉ mine.resolvers, w'.resolvers.get? id = w.resolvers.get? id
  drafts : ∀ id ∉ mine.drafts, w'.drafts.get? id = w.drafts.get? id

theorem Spares.refl (w : World) : Spares mine w w :=
  ⟨.refl _, fun _ _ => rfl, fun _ _ => rfl, fun _ _ => rfl⟩

theorem Spares.trans (h : Spares mine w w') (h' : Spares mine w' w'') : Spares mine w w'' where
  logging := h'.logging.trans h.logging
  services id hid := (h'.services id hid).trans (h.services id hid)
  resolvers id hid := (h'.resolvers id hid).trans (h.resolvers id hid)
  drafts id hid := (h'.drafts id hid).trans (h.drafts id hid)

/-- The party has gone on in two worlds in the same way. -/
structure Moved (mine : Belongings) (u v u' v' : World) : Prop where
  alike : Alike mine u' v'
  spares : Spares mine u u'
  inquiries : ∃ trace, u'.inquiries = u.inquiries ++ trace ∧ v'.inquiries = v.inquiries ++ trace
  metrics : ∃ recordings, u'.metrics = u.metrics.recordAll recordings ∧
    v'.metrics = v.metrics.recordAll recordings

theorem Moved.trans (h : Moved mine u v u' v') (h' : Moved mine u' v' u'' v'') :
    Moved mine u v u'' v'' where
  alike := h'.alike
  spares := h.spares.trans h'.spares
  inquiries := by
    obtain ⟨trace, hu, hv⟩ := h.inquiries
    obtain ⟨trace', hu', hv'⟩ := h'.inquiries
    exact ⟨trace ++ trace', by rw [hu', hu, List.append_assoc], by rw [hv', hv, List.append_assoc]⟩
  metrics := by
    obtain ⟨recordings, hu, hv⟩ := h.metrics
    obtain ⟨recordings', hu', hv'⟩ := h'.metrics
    exact ⟨recordings ++ recordings', by rw [hu', hu, Metrics.recordAll_append],
      by rw [hv', hv, Metrics.recordAll_append]⟩

namespace Alike

variable (h : Alike mine u v)

include h

/-- No party can tell what is kept of events or how many sessions there are. -/
theorem moved_background (records records' : List EventRecord) (journal journal' : List Entry)
    (deliveries deliveries' : List (ServiceId × EventRecord)) (sessions sessions' : Nat) :
    Moved mine u v { u with records, journal, deliveries, sessions }
      { v with records := records', journal := journal', deliveries := deliveries',
               sessions := sessions' } where
  alike := { h with closed := { h.closed with } }
  spares := { Spares.refl u with }
  inquiries := ⟨[], (List.append_nil _).symm, (List.append_nil _).symm⟩
  metrics := ⟨[], rfl, rfl⟩

theorem moved_refl : Moved mine u v u v := h.moved_background ..

/-- Writing entries leaves the formats of all loggers as they are. -/
theorem moved_written (e e' : Entry) (journal journal' : List Entry) :
    Moved mine u v { u with journal, logging := u.logging.use e }
      { v with journal := journal', logging := v.logging.use e' } where
  alike := { h with
    logging := (u.logging.agrees_use e).trans (h.logging.trans (v.logging.agrees_use e').symm)
    closed := { h.closed with } }
  spares := { Spares.refl u with logging := u.logging.agrees_use e }
  inquiries := ⟨[], (List.append_nil _).symm, (List.append_nil _).symm⟩
  metrics := ⟨[], rfl, rfl⟩

theorem moved_service {id : ServiceId} (hid : id ∈ mine.services) {s s' : Service}
    (hs : s.unstamped = s'.unstamped) (hkeeps : mine.Keeps s.sink) :
    Moved mine u v { u with services := u.services.put id s }
      { v with services := v.services.put id s' } where
  alike := by
    refine { h with services := fun other hother => ?_, closed := { h.closed with
      services := fun other hother s hother' => ?_ } }
    · rw [Registry.get?_put, Registry.get?_put]
      split
      · exact congrArg some hs
      · exact h.services other hother
    · rw [Registry.get?_put] at hother'
      split at hother'
      · exact Option.some.inj hother' ▸ hkeeps
      · exact h.closed.services other hother s hother'
  spares := { Spares.refl u with
    services := fun _ hother =>
      Registry.get?_put_of_ne _ (ne_of_mem_of_not_mem hid hother).symm _ }
  inquiries := h.moved_refl.inquiries
  metrics := h.moved_refl.metrics

theorem moved_resolver {id : ResolverId} (hid : id ∈ mine.resolvers) (s : Sources) :
    Moved mine u v { u with resolvers := u.resolvers.put id s }
      { v with resolvers := v.resolvers.put id s } where
  alike := by
    refine { h with resolvers := fun other hother => ?_, closed := { h.closed with } }
    rw [Registry.get?_put, Registry.get?_put, h.resolvers other hother]
  spares := { Spares.refl u with
    resolvers := fun _ hother =>
      Registry.get?_put_of_ne _ (ne_of_mem_of_not_mem hid hother).symm _ }
  inquiries := h.moved_refl.inquiries
  metrics := h.moved_refl.metrics

theorem moved_draft {id : DraftId} (hid : id ∈ mine.drafts) {d : Draft} (hd : mine.Equips d) :
    Moved mine u v (u.withDraft id d) (v.withDraft id d) where
  alike := by
    refine { h with drafts := fun other hother => ?_, closed := { h.closed with
      drafts := fun other hother d' hd' => ?_ } }
    · rw [withDraft, withDraft, Registry.get?_put, Registry.get?_put, h.drafts other hother]
    · rw [withDraft, Registry.get?_put] at hd'
      split at hd'
      · exact Option.some.inj hd' ▸ hd
      · exact h.closed.drafts other hother d' hd'
  spares := { Spares.refl u with
    drafts := fun _ hother =>
      Registry.get?_put_of_ne _ (ne_of_mem_of_not_mem hid hother).symm _ }
  inquiries := h.moved_refl.inquiries
  metrics := h.moved_refl.metrics

theorem moved_note (place : SourcesId) (inquiries : List Inquiry) :
    Moved mine u v { u with inquiries := u.inquiries ++ inquiries.map fun i => (place, i) }
      { v with inquiries := v.inquiries ++ inquiries.map fun i => (place, i) } where
  alike := { h with closed := { h.closed with } }
  spares := { Spares.refl u with }
  inquiries := ⟨_, rfl, rfl⟩
  metrics := h.moved_refl.metrics

theorem moved_record (recording : Recording) :
    Moved mine u v { u with metrics := u.metrics.record recording }
      { v with metrics := v.metrics.record recording } where
  alike := { h with closed := { h.closed with } }
  spares := { Spares.refl u with }
  inquiries := h.moved_refl.inquiries
  metrics := ⟨[recording], rfl, rfl⟩

/-! ## What is found in both worlds -/

theorem cases_service {id : ServiceId} (hid : id ∈ mine.services) :
    u.services.get? id = none ∧ v.services.get? id = none ∨
      ∃ s s', u.services.get? id = some s ∧ v.services.get? id = some s' ∧
        s.unstamped = s'.unstamped := by
  have hservice := h.services id hid
  cases hv : v.services.get? id with
  | none =>
    rw [hv] at hservice
    exact .inl ⟨Option.map_eq_none_iff.mp hservice, rfl⟩
  | some s' =>
    rw [hv] at hservice
    obtain ⟨s, hu, hs⟩ := Option.map_eq_some_iff.mp hservice
    exact .inr ⟨s, s', hu, rfl, hs⟩

theorem map_keptSink? {keeper : ServiceId} (hkeeper : keeper ∈ mine.services) :
    (u.keptSink? keeper).map Sink.unstamped = (v.keptSink? keeper).map Sink.unstamped := by
  have hkept (w : World) : (w.keptSink? keeper).map Sink.unstamped =
      ((w.services.get? keeper).map Service.unstamped).bind (·.sink.kept?) := by
    unfold keptSink?
    cases w.services.get? keeper with
    | none => rfl
    | some s => exact s.sink.kept?_unstamped.symm
  rw [hkept, hkept, h.services keeper hkeeper]

theorem isSome_service {id : ServiceId} (hid : id ∈ mine.services) :
    (u.services.get? id).isSome = (v.services.get? id).isSome := by
  have hsome := congrArg Option.isSome (h.services id hid)
  rwa [Option.isSome_map, Option.isSome_map] at hsome

/-- The sink of a service of the party is the same in both, and the party has what keeps it. -/
theorem cases_sink {id : ServiceId} (hid : id ∈ mine.services) :
    u.sink? id = none ∧ v.sink? id = none ∨
      ∃ keeper ∈ mine.services, ∃ sink sink', u.sink? id = some (keeper, sink) ∧
        v.sink? id = some (keeper, sink') ∧ sink.unstamped = sink'.unstamped := by
  rcases h.cases_service hid with ⟨hu, hv⟩ | ⟨s, s', hu, hv, hs⟩
  · exact .inl ⟨by rw [sink?, hu]; rfl, by rw [sink?, hv]; rfl⟩
  · have hkeeper : s.keeper id = s'.keeper id := by
      rw [← s.keeper_unstamped, hs, s'.keeper_unstamped]
    have hmine := (h.closed.services id hid s hu).keeper_mem hid
    have hkept := h.map_keptSink? hmine
    cases hkept' : v.keptSink? (s.keeper id) with
    | none =>
      rw [hkept'] at hkept
      have hnone := Option.map_eq_none_iff.mp hkept
      refine .inl ⟨?_, ?_⟩
      · simp [sink?, hu, hnone]
      · simp [sink?, hv, ← hkeeper, hkept']
    | some sink' =>
      rw [hkept'] at hkept
      obtain ⟨sink, hsink, heq⟩ := Option.map_eq_some_iff.mp hkept
      exact .inr ⟨s.keeper id, hmine, sink, sink', sink?_eq_some_iff.mpr ⟨s, hu, rfl, hsink⟩,
        sink?_eq_some_iff.mpr ⟨s', hv, hkeeper.symm, hkept'⟩, heq⟩

theorem sources?_eq {place : SourcesId} (hplace : mine.Owns place) :
    u.sources? place = v.sources? place := by
  cases place with
  | resolver id => exact h.resolvers id hplace
  | service id =>
    have hsources := congrArg (Option.map Service.sources) (h.services id hplace)
    rwa [Option.map_map, Option.map_map] at hsources

theorem check_eq {e e' : Entry} (he : e.WrittenLike e') :
    u.logging.check e = v.logging.check e' :=
  (h.logging.check e).trans (v.logging.check_eq_of_writtenLike he)

theorem moved_withSources {place : SourcesId} (hplace : mine.Owns place) (s : Sources) :
    Moved mine u v (u.withSources place s) (v.withSources place s) := by
  cases place with
  | resolver id => exact h.moved_resolver hplace s
  | service id =>
    rcases h.cases_service hplace with ⟨hu, hv⟩ | ⟨service, service', hu, hv, hservice⟩
    · rw [withSources_service_none hu, withSources_service_none hv]
      exact h.moved_refl
    · rw [withSources_service hu, withSources_service hv]
      exact h.moved_service hplace
        (congrArg (fun service : Service => { service with sources := s }) hservice)
        (h.closed.services id hplace service hu)

theorem moved_withSink {keeper : ServiceId} (hkeeper : keeper ∈ mine.services) {sink sink' : Sink}
    (hsink : sink.unstamped = sink'.unstamped) :
    Moved mine u v (u.withSink keeper sink) (v.withSink keeper sink') := by
  rcases h.cases_service hkeeper with ⟨hu, hv⟩ | ⟨s, s', hu, hv, hs⟩
  · simp only [withSink, hu, hv]
    exact h.moved_refl
  · obtain ⟨-, hsources, hsession⟩ := Service.unstamped_eq_iff.mp hs
    rw [withSink_of_get? hu, withSink_of_get? hv]
    exact h.moved_service hkeeper
      (Service.unstamped_eq_iff.mpr ⟨congrArg ServiceSink.own hsink, hsources, hsession⟩) trivial

end Alike

end World

end Telemetry
