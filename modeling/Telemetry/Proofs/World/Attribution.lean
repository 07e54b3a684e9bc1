import Telemetry.Proofs.World.Inquiries

/-!
# Attribution is decided when an event is created

Creating an event puts the questions that its attribution takes to the sources at the place of the
draft, as they are at that moment, and credits what they answer (`World.create_decided`). No other
use of a draft puts a question (`World.inquiries_step`). With the sources being asked in turn this
is `World.attribution_of_run`.
-/

namespace Telemetry

namespace Action

/-! ## The place of a draft -/

/-- A service that was made and shared keeps a sink of its own and holds no send ids. -/
theorem makeShared_spec {id id' : ServiceId} {w w' : World}
    (h : run (makeShared id) w = (.ok id', w')) :
    id' = id ∧ w'.shared = some id ∧ ∃ service sink, w'.services = w.services.put id service ∧
      service.sink = .own sink ∧ service.sources = ⟨.held .null, .held .null⟩ := by
  obtain ⟨service, w₁, hmake, h⟩ := run_bind_eq_ok_iff.mp h
  obtain ⟨_, w₂, henter, h⟩ := run_bind_eq_ok_iff.mp h
  cases henter
  obtain ⟨_, w₃, hshare, h⟩ := run_bind_eq_ok_iff.mp h
  obtain ⟨_, w₄, hfind, hupdate⟩ := run_bind_eq_ok_iff.mp hshare
  obtain ⟨-, rfl⟩ := run_expect_eq_ok_iff.mp hfind
  cases hupdate
  cases h
  have hservices := ((keepsServices_makeService none none none .null).same w).services
  rw [hmake] at hservices
  obtain ⟨sink, -, -, hown⟩ := exists_own_of_run_makeService hmake
  refine ⟨rfl, rfl, service, sink, ?_, hown, (makeService_spec hmake).2⟩
  exact congrArg (Registry.put · id service) hservices

/-- The service of a draft is its own, else the shared one, else one that is made and shared. -/
theorem serviceOf_cases {w w' : World} {d : Draft} {id : ServiceId}
    (h : run (serviceOf d) w = (.ok id, w')) :
    (d.service = some id ∧ w' = w) ∨ (d.service = none ∧ w.shared = some id ∧ w' = w) ∨
      (d.service = none ∧ w.shared = none ∧ w.services.get? id = none ∧ w'.shared = some id ∧
        ∃ service sink, w'.services = w.services.put id service ∧ service.sink = .own sink ∧
          service.sources = ⟨.held .null, .held .null⟩) := by
  unfold serviceOf at h
  cases hown : d.service with
  | some own =>
    rw [hown] at h
    cases h
    exact .inl ⟨rfl, rfl⟩
  | none =>
    rw [hown] at h
    dsimp only at h
    rw [run_sharedService] at h
    cases hbefore : w.shared with
    | some shared =>
      rw [hbefore] at h
      cases h
      exact .inr (.inl ⟨rfl, rfl, rfl⟩)
    | none =>
      rw [hbefore] at h
      obtain ⟨rfl, hshared, service, sink, hservices, hsink, hsources⟩ := makeShared_spec h
      exact .inr (.inr ⟨rfl, rfl, get?_nextAutomatic w, hshared, service, sink, hservices, hsink,
        hsources⟩)

/-- A service that is found for a draft has sources, those of before unless it had to be made. -/
theorem serviceOf_spec {w w' : World} {d : Draft} {id : ServiceId} (hw : w.SharedKnown)
    (hd : w.Knows d) (h : run (serviceOf d) w = (.ok id, w')) :
    ∃ s, w'.sources? (.service id) = some s ∧
      (w.sources? (.service id) = some s ∨
        w.sources? (.service id) = none ∧ s = ⟨.held .null, .held .null⟩) := by
  have hknown {id : ServiceId} (hid : (w.services.get? id).isSome) :
      ∃ s, w.sources? (.service id) = some s ∧ (w.sources? (.service id) = some s ∨
        w.sources? (.service id) = none ∧ s = ⟨.held .null, .held .null⟩) := by
    obtain ⟨service, hservice⟩ := Option.isSome_iff_exists.mp hid
    have hs : w.sources? (.service id) = some service.sources := by
      rw [World.sources?, hservice]
      rfl
    exact ⟨_, hs, .inl hs⟩
  rcases serviceOf_cases h with ⟨hown, rfl⟩ | ⟨-, hshared, rfl⟩ |
    ⟨-, -, hnew, -, service, sink, hservices, -, hsources⟩
  · exact hknown (hd.service id hown)
  · exact hknown (hw id hshared)
  · refine ⟨⟨.held .null, .held .null⟩, ?_, .inr ⟨?_, rfl⟩⟩
    · rw [World.sources?, hservices, Registry.get?_put_self, Option.map_some, hsources]
    · rw [World.sources?, hnew]
      rfl

/-- Where a draft has its sources there are some, those of before unless they had to be made. -/
theorem placeOf_spec {w w' : World} {d : Draft} {place : SourcesId} (hw : w.SharedKnown)
    (hd : w.Knows d) (h : run (placeOf d) w = (.ok place, w')) :
    ∃ s, w'.sources? place = some s ∧
      (w.sources? place = some s ∨ w.sources? place = none ∧ s = ⟨.held .null, .held .null⟩) := by
  unfold placeOf at h
  cases hresolver : d.resolver with
  | some own =>
    rw [hresolver] at h
    cases h
    obtain ⟨s, hs⟩ := Option.isSome_iff_exists.mp (hd.resolver _ hresolver)
    exact ⟨s, hs, .inl hs⟩
  | none =>
    rw [hresolver] at h
    obtain ⟨id, w₁, hservice, h⟩ := run_bind_eq_ok_iff.mp h
    cases h
    exact serviceOf_spec hw hd hservice

end Action

namespace World

open Telemetry.Action

variable {w w' : World} {id : DraftId} {d : Draft}

/-! ## What creating an event asks -/

/-- Finding the sources of a draft puts no question. -/
theorem inquiries_run_placeOf {result : Except Fault SourcesId}
    (hplace : Action.run (placeOf d) w = (result, w')) : w'.inquiries = w.inquiries := by
  have hchanges := (makes_placeOf d : Makes false false false (placeOf d)).changes w
  rw [hplace] at hchanges
  exact hchanges.inquiries_eq

/-- The event is created with the send ids of an attribution, or it fails as that failed. -/
def Credits : Except Fault Attribution → Except Fault Outcome → Prop
  | .error fault, result => result = .error fault
  | .ok a, result => ∃ n r, result = .ok (.record n r) ∧
      r.conversionSendId = a.conversionSendId ∧ r.lastReceivedSendId = a.lastReceivedSendId

/-- Creating an event credits what the sources at the place of the draft answer at that moment. -/
theorem create_decided {place : SourcesId} {s : Sources} {explicit : Option Text}
    (hd : w.drafts.get? id = some d) (hvalid : d.Valid)
    (hexplicit : d.explicitSendId = .ofText? explicit) (hopen : d.finalized = false)
    (hplace : Action.run (placeOf d) w = (.ok place, w')) (hs : w'.sources? place = some s)
    (hsession : s.session.ask.1.IsProper) (hpush : s.push.ask.1.IsProper) :
    ∃ asked outcome, s.Decides explicit asked outcome ∧
      (w.step (.create id)).2.inquiries = w.inquiries ++ asked.map (fun i => (place, i)) ∧
      Credits outcome (w.step (.create id)).1 := by
  obtain ⟨hdecides, hplain⟩ := Sources.decides_resolve hsession hpush explicit
  refine ⟨_, _, hdecides, ?_⟩
  generalize hr : s.resolve (.ofText? explicit) = r at hdecides hplain
  have hquiet := inquiries_run_placeOf hplace
  obtain ⟨journal, logging, hconclude⟩ :=
    run_conclude_of_isPlain (w'.asked place r.inquiries r.sources) hplain
  have hresolve := run_resolve w' hs d.explicitSendId
  rw [hexplicit, hr, hconclude] at hresolve
  have hattribution : Action.run (attributionOf d) w = _ :=
    (run_bind_ok _ hplace).trans (hexplicit.symm ▸ hresolve)
  have hasked : (w'.asked place r.inquiries r.sources).inquiries =
      w.inquiries ++ r.inquiries.map fun i => (place, i) := by
    obtain ⟨services, resolvers, heq⟩ := withSources_eq w' place r.sources
    rw [asked, heq, hquiet]
  rw [step_create, run_create w hd hopen, hattribution]
  cases houtcome : r.outcome with
  | error fault => exact ⟨hasked, rfl⟩
  | ok a =>
    rw [houtcome] at hdecides
    dsimp only
    rw [Draft.record_eq_ok_iff.mpr ⟨hvalid, hdecides.sendIds, rfl⟩]
    exact ⟨hasked, _, _, rfl, rfl, rfl⟩

/-- Where a send id was set nobody is asked, whatever it is. -/
theorem inquiries_create_of_explicit {place : SourcesId} {s : Sources}
    (hd : w.drafts.get? id = some d) (hopen : d.finalized = false)
    (hexplicit : d.explicitSendId ≠ .null)
    (hplace : Action.run (placeOf d) w = (.ok place, w')) (hs : w'.sources? place = some s) :
    (w.step (.create id)).2.inquiries = w.inquiries := by
  have hquiet := inquiries_run_placeOf hplace
  have hattribution : (Action.run (attributionOf d) w).2.inquiries = w.inquiries := by
    obtain ⟨services, resolvers, heq⟩ := withSources_eq w' place (s.resolve d.explicitSendId).sources
    rw [attributionOf, run_bind_ok _ hplace, run_resolve w' hs,
      ((keepsServices_conclude _).same _).inquiries, asked, heq,
      Sources.inquiries_resolve hexplicit, List.map_nil, List.append_nil, hquiet]
  rw [step_create, run_create w hd hopen]
  rcases hrun : Action.run (attributionOf d) w with ⟨fault | a, w₁⟩
  · rw [hrun] at hattribution
    exact hattribution
  · rw [hrun] at hattribution
    dsimp only
    cases d.record a (w₁.host.eventId w₁.records.length) (w₁.host.clock w₁.records.length) <;>
      exact hattribution

theorem create_failed {fault : Fault} (hd : w.drafts.get? id = some d)
    (hopen : d.finalized = false) (hplace : Action.run (placeOf d) w = (.error fault, w')) :
    (w.step (.create id)).2.inquiries = w.inquiries ∧ (w.step (.create id)).1 = .error fault := by
  have hattribution : Action.run (attributionOf d) w = (.error fault, w') := run_bind_error _ hplace
  rw [step_create, run_create w hd hopen, hattribution]
  exact ⟨inquiries_run_placeOf hplace, rfl⟩

/-- Handing an event over asks nothing more than creating it, and answers nothing else. -/
theorem add_asks (w : World) (id : DraftId) :
    (w.step (.add id)).2.inquiries = (w.step (.create id)).2.inquiries ∧
      ∀ o, (w.step (.add id)).1 = .ok o → (w.step (.create id)).1 = .ok o := by
  rw [step_add, step_create]
  unfold add
  cases hcreate : Action.run (create id) w with
  | mk result w' =>
    cases result with
    | error fault =>
      rw [run_bind_error _ hcreate]
      exact ⟨rfl, fun o h => h⟩
    | ok x =>
      rw [run_bind_ok _ hcreate, run_bind]
      have hquiet : Changes false false true w' (Action.run (handOver id x.2) w').2 :=
        (makes_handOver rfl id x.2).changes w'
      cases hhand : Action.run (handOver id x.2) w' with
      | mk result w'' =>
        rw [hhand] at hquiet
        cases result with
        | error fault => exact ⟨hquiet.inquiries_eq, nofun⟩
        | ok _ => exact ⟨hquiet.inquiries_eq, fun o h => h⟩

/-- The step creates the event of an open draft, or it asks for send ids itself. -/
def Asks (w : World) : Step → Prop
  | .create id | .add id => ∃ d, w.drafts.get? id = some d ∧ d.finalized = false
  | .sendIds _ | .resolve .. => True
  | _ => False

/-- No other use of a draft puts a question. -/
theorem inquiries_step {s : Step} (h : ¬ w.Asks s) : (w.step s).2.inquiries = w.inquiries := by
  have hquiet {s : Step} (hs : s.asks = false) : (w.step s).2.inquiries = w.inquiries := by
    have hchanges := w.changes_step s
    rw [hs] at hchanges
    exact hchanges.inquiries_eq
  have hcreate {id : DraftId} (h : ¬ w.Asks (.create id)) :
      (w.step (.create id)).2.inquiries = w.inquiries := by
    rw [step_create]
    cases hd : w.drafts.get? id with
    | none => rw [run_create_none w hd]
    | some d =>
      cases hopen : d.finalized with
      | true => rw [run_create_finalized w hd hopen]
      | false => exact absurd ⟨d, hd, hopen⟩ h
  cases s with
  | create id => exact hcreate h
  | add id => exact (add_asks w id).1.trans (hcreate h)
  | sendIds | resolve => exact absurd trivial h
  | _ => exact hquiet rfl

/--
In every run, creating the event of an open draft asks the sources at the place of the draft for
just what its attribution takes, and credits what they say at that moment; if a send id was set they
are not asked. Adding it asks the same. Nothing else that is done to a draft asks, so every source is
asked in turn, from any moment on.
-/
theorem attribution_of_run (host : Host) (environment : Environment) (steps : List Step) :
    let w := (fresh host environment).run steps
    (∀ id d, w.drafts.get? id = some d → d.finalized = false →
      match Action.run (placeOf d) w with
      | (.error fault, _) =>
        (w.step (.create id)).2.inquiries = w.inquiries ∧ (w.step (.create id)).1 = .error fault
      | (.ok place, w') => ∃ s, w'.sources? place = some s ∧
        (w.sources? place = some s ∨
          w.sources? place = none ∧ s = ⟨.held .null, .held .null⟩) ∧
        (d.explicitSendId ≠ .null → (w.step (.create id)).2.inquiries = w.inquiries) ∧
        ∀ explicit, d.explicitSendId = .ofText? explicit →
          s.session.ask.1.IsProper → s.push.ask.1.IsProper →
          ∃ asked outcome, s.Decides explicit asked outcome ∧
            (w.step (.create id)).2.inquiries = w.inquiries ++ asked.map (fun i => (place, i)) ∧
            Credits outcome (w.step (.create id)).1) ∧
    (∀ id, (w.step (.add id)).2.inquiries = (w.step (.create id)).2.inquiries ∧
      ∀ o, (w.step (.add id)).1 = .ok o → (w.step (.create id)).1 = .ok o) ∧
    (∀ s, ¬ w.Asks s → (w.step s).2.inquiries = w.inquiries) ∧
    ∀ later, InTurn (later.any Step.sets) w (w.run later) := by
  intro w
  refine ⟨fun id d hd hopen => ?_, add_asks w, fun s h => inquiries_step h, inTurn_run w⟩
  have hlinked : w.Linked := linked_run host environment steps
  split
  · next fault w' hplace => exact create_failed hd hopen hplace
  · next place w' hplace =>
    obtain ⟨s, hs, horigin⟩ := placeOf_spec hlinked.shared (hlinked.drafts id d hd) hplace
    refine ⟨s, hs, horigin, fun hexplicit =>
      inquiries_create_of_explicit hd hopen hexplicit hplace hs,
      fun explicit hexplicit hsession hpush => ?_⟩
    exact create_decided hd (valid_of_run hd) hexplicit hopen hplace hs hsession hpush

/-- Without a pending conversion an event is credited to what was last received, be it empty. -/
theorem attribution_of_run_last_received :
    let host : Host := ⟨fun _ => "event", fun _ => "session", fun _ => Binary64.zero false⟩
    let session : Source :=
      .external (fun n => if n = 0 then .value .null else .failure (.raised "down")) 0
    let push : Source := .external (fun _ => .value (.text [])) 0
    let steps : List Step := [
      .openService (.named 0) (some .log) (some session) (some push) (.text "session"),
      .openDraft ⟨0⟩ (.text "purchase") (some (.named 0)) none]
    let w := (fresh host ⟨[], none⟩).run steps
    (w.step (.create ⟨0⟩)).2.inquiries =
        [(.service (.named 0), ⟨.conversion, .value .null, true⟩),
          (.service (.named 0), ⟨.lastReceived, .value (.text []), true⟩)] ∧
      ∃ n r, (w.step (.create ⟨0⟩)).1 = .ok (.record n r) ∧ r.conversionSendId = none ∧
        r.lastReceivedSendId = some [] := by
  intro host session push steps w
  have hdraft : w.drafts.get? ⟨0⟩ = some _ := rfl
  obtain ⟨s, hs, -, -, hdecided⟩ := (attribution_of_run host ⟨[], none⟩ steps).1 _ _ hdraft rfl
  obtain rfl := Option.some.inj hs
  obtain ⟨asked, outcome, hdecides, hasked, hcredits⟩ :=
    hdecided none rfl (.value none) (.value (some []))
  cases hdecides with
  | lastReceived hsession hpush =>
    cases hpush
    exact ⟨hasked, hcredits⟩
  | sessionFailed h | conversion h | pushFailed _ h | nothing _ h => cases h

end World

end Telemetry
