import Telemetry.Proofs.World.Routing

/-!
# The shared service

The shared service is given by hand, set up at the start, or made when it is first needed and there
is none; nothing else changes it, and no operation that fails on the way replaces it
(`World.step_shared`). It is entered before it is shared, so what is shared can always be found.
Between two replacements every lookup comes to one and the same service
(`World.shared_run_of_undisturbed`). While there is none, a lookup makes one as soon as the settings
can be read and have a sink (`World.isOk_lookUpShared_iff`).

No operation on the way can fail after the service is shared (`Action.shared_run_makeShared`,
`Action.shared_run_start`).
-/

namespace Telemetry

namespace Step

/-- The step puts a service in the place of the shared one, if it returns. -/
def Replaces : Step → Prop
  | share _ | start .. => True
  | _ => False

/-- The step gives, makes or looks up the shared service and does nothing else. -/
def ConcernsShared : Step → Prop
  | share _ | start .. | lookUpShared => True
  | _ => False

end Step

namespace World

/--
The step looks up the shared service for a draft: it creates or adds the event of an open one that
has no service of its own. Creating alone can do without if the draft has its own resolver.
-/
def Needs (w : World) : Step → Prop
  | .create id => ∃ d, w.drafts.get? id = some d ∧ d.finalized = false ∧ d.service = none ∧
      d.resolver = none
  | .add id => ∃ d, w.drafts.get? id = some d ∧ d.finalized = false ∧ d.service = none
  | _ => False

/-- What becomes of the shared service in a step that ends so. -/
inductive SharedChange (w : World) : Step → Except Fault Outcome → Option ServiceId → Prop where
  | given (id : Option ServiceId) : SharedChange w (.share id) (.ok .done) id
  | started {id : ServiceId} {sink : Option SinkSpec} {session push : Option Source}
    (hfree : w.services.get? id = none) :
    SharedChange w (.start id sink session push) (.ok (.service id)) (some id)
  | found {id : ServiceId} (h : w.shared = some id) :
    SharedChange w .lookUpShared (.ok (.service id)) (some id)
  | made {id : ServiceId} (hnone : w.shared = none) (hfree : w.services.get? id = none) :
    SharedChange w .lookUpShared (.ok (.service id)) (some id)
  | needed {s : Step} {outcome : Except Fault Outcome} {id : ServiceId} (hs : w.Needs s)
    (hnone : w.shared = none) (hfree : w.services.get? id = none) :
    SharedChange w s outcome (some id)
  | failed {s : Step} {fault : Fault} (hs : s.ConcernsShared) :
    SharedChange w s (.error fault) w.shared
  | kept {s : Step} {outcome : Except Fault Outcome} (hs : ¬ s.ConcernsShared) :
    SharedChange w s outcome w.shared

end World

namespace Action

variable {α β : Type}

/-! ## Operations that leave the shared service alone -/

/-- The operation leaves the shared service as it is. -/
structure KeepsShared (a : Action α) : Prop where
  shared_run : ∀ w, (run a w).2.shared = w.shared

theorem KeepsServices.keepsShared {a : Action α} (h : KeepsServices a) : KeepsShared a :=
  ⟨fun w => (h.same w).shared⟩

namespace KeepsShared

theorem update {f : World → World} (hf : ∀ w, (f w).shared = w.shared) : KeepsShared (update f) :=
  ⟨hf⟩

theorem expect (fault : Fault) (f : World → Option α) : KeepsShared (expect fault f) :=
  (KeepsServices.expect fault f).keepsShared

theorem bind {a : Action α} {f : α → Action β} (ha : KeepsShared a) (hf : ∀ x, KeepsShared (f x)) :
    KeepsShared (a >>= f) :=
  ⟨fun w => rel_run_bind (R := fun w w' => w'.shared = w.shared) (fun h h' => h'.trans h)
    (ha.shared_run w) fun x w' _ => (hf x).shared_run w'⟩

end KeepsShared

theorem keepsShared_putSources (place : SourcesId) (s : Sources) :
    KeepsShared (putSources place s) := by
  refine .update fun w => ?_
  obtain ⟨services, resolvers, heq⟩ := World.withSources_eq w place s
  rw [heq]

theorem keepsShared_setSendId (id : ServiceId) (q : Question) (sendId : Datum) :
    KeepsShared (setSendId id q sendId) := by
  refine (KeepsShared.expect _ _).bind fun s => ?_
  cases s.source q with
  | held _ => exact keepsShared_putSources ..
  | external _ _ | lacking _ => exact ⟨fun _ => rfl⟩

theorem keepsShared_ask (id : ServiceId) (q : Question) : KeepsShared (ask id q) := by
  refine (KeepsShared.expect _ _).bind fun s => (keepsShared_putSources _ _).bind fun _ => ?_
  have hnote : KeepsShared (note (.service id) [(s.ask q).1]) := .update fun _ => rfl
  exact hnote.bind fun _ => (keepsServices_answered _ _).keepsShared

theorem keepsShared_sendIds (id : ServiceId) : KeepsShared (sendIds id) :=
  (keepsShared_ask ..).bind fun _ => (keepsShared_ask ..).bind fun _ =>
    (KeepsServices.pure _).keepsShared

theorem keepsShared_resolve (place : SourcesId) (explicit : Datum) :
    KeepsShared (resolve place explicit) := ⟨fun w => w.shared_run_resolve place explicit⟩

theorem keepsShared_submit (id : ServiceId) (r : EventRecord) : KeepsShared (submit id r) := by
  refine (KeepsShared.expect _ _).bind fun service => (KeepsShared.expect _ _).bind
    fun ⟨keeper, sink⟩ => ?_
  have hdelivered : KeepsShared (update fun w => w.delivered keeper sink r) := by
    refine .update fun w => ?_
    obtain ⟨services, heq⟩ := w.delivered_eq keeper sink r
    rw [heq]
  exact hdelivered.bind fun _ => (keepsServices_log _).keepsShared.bind fun _ =>
    .bind (.update fun _ => rfl) fun _ => (keepsServices_log _).keepsShared

theorem keepsShared_openResolver (id : ResolverId) (s : Sources) :
    KeepsShared (openResolver id s) := by
  have hfree : KeepsShared (ensureFree fun w => (w.resolvers.get? id).isNone) := ⟨fun _ => rfl⟩
  exact hfree.bind fun _ => .update fun _ => rfl

theorem keepsShared_openService (id : ServiceId) (sink : Option SinkSpec)
    (session push : Option Source) (sessionId : Datum) :
    KeepsShared (openService id sink session push sessionId) := by
  have hfree : KeepsShared (ensureFree fun w => (w.services.get? id).isNone) := ⟨fun _ => rfl⟩
  have henter (service : Service) : KeepsShared (enterService id service) := .update fun _ => rfl
  exact hfree.bind fun _ => (keepsServices_makeService ..).keepsShared.bind fun service =>
    (henter service).bind fun _ => (KeepsServices.pure id).keepsShared

/-! ## New services -/

/-- A service that is opened was made, and it was entered under a handle that was free. -/
theorem exists_service_of_run_openService {id i : ServiceId} {sink : Option SinkSpec}
    {session push : Option Source} {sessionId : Datum} {w w' : World}
    (h : run (openService id sink session push sessionId) w = (.ok i, w')) :
    i = id ∧ w.services.get? id = none ∧
      ∃ service w₁, run (makeService sink session push sessionId) w = (.ok service, w₁) ∧
        w' = { w₁ with services := w₁.services.put id service } := by
  obtain ⟨_, w₀, hfree, h⟩ := run_bind_eq_ok_iff.mp h
  obtain ⟨service, w₁, hmake, h⟩ := run_bind_eq_ok_iff.mp h
  obtain ⟨_, w₂, henter, h⟩ := run_bind_eq_ok_iff.mp h
  cases henter
  cases h
  unfold run ensureFree at hfree
  split at hfree
  · next hnone =>
    cases hfree
    exact ⟨rfl, Option.isNone_iff_eq_none.mp hnone, service, w₁, hmake, rfl⟩
  · cases hfree

section

variable (w : World)

theorem run_share (id : Option ServiceId) :
    run (share id) w =
      if id.all fun i => (w.services.get? i).isSome then (.ok (), { w with shared := id })
      else (.error .unknownHandle, w) := by
  cases id with
  | none => rfl
  | some i =>
    cases hi : w.services.get? i with
    | none =>
      have hunknown : run (share (some i)) w = _ := run_bind_error _ (run_expect_none _ hi)
      simp [hunknown, hi]
    | some s =>
      have hknown : run (share (some i)) w = _ := run_bind_ok _ (run_expect_some _ hi)
      simp [hknown, hi]

theorem run_share_entered (id : ServiceId) (service : Service) :
    run (share (some id)) { w with services := w.services.put id service } =
      (.ok (), { w with services := w.services.put id service, shared := some id }) := by
  rw [run_share]
  simp

theorem run_makeShared (id : ServiceId) :
    run (makeShared id) w =
      match run (makeService none none none .null) w with
      | (.error fault, w') => (.error fault, w')
      | (.ok service, w') =>
        (.ok id, { w' with services := w'.services.put id service, shared := some id }) := by
  rcases hmake : run (makeService none none none .null) w with ⟨fault | service, w'⟩
  · exact run_bind_error _ hmake
  · refine (run_bind_ok _ hmake).trans ((run_bind_ok _ (run_update _ _)).trans ?_)
    exact run_bind_ok _ (run_share_entered w' id service)

end

/-- A service that is given a text or nothing for its session has a text there. -/
theorem sessionId_of_run_makeService {sink : Option SinkSpec} {session push : Option Source}
    {o : Option Text} {w w' : World} {service : Service}
    (h : run (makeService sink session push (.ofText? o)) w = (.ok service, w')) :
    ∃ t, service.sessionId = .text t := by
  obtain ⟨w₁, -, hsession, -⟩ := exists_sink_of_run_makeService h
  unfold run sessionIdOr at hsession
  cases o with
  | none => exact ⟨_, (Except.ok.inj (congrArg Prod.fst hsession)).symm⟩
  | some t => split at hsession <;> exact ⟨_, (Except.ok.inj (congrArg Prod.fst hsession)).symm⟩

/-- Making the shared service fails before it is shared, or not at all. -/
theorem shared_run_makeShared (id : ServiceId) (w : World) :
    match run (makeShared id) w with
    | (.error _, w') => w'.shared = w.shared
    | (.ok i, w') => i = id ∧ w'.shared = some id := by
  have hkept := ((keepsServices_makeService none none none .null).same w).shared
  rw [run_makeShared]
  rcases hmake : run (makeService none none none .null) w with ⟨fault | service, w'⟩
  · rw [hmake] at hkept
    exact hkept
  · exact ⟨rfl, rfl⟩

/-- The report of the start of a service with a text for its session id can be printed. -/
theorem run_announce (s : Settings) {id keeper : ServiceId} {service : Service} {sink : Sink}
    {w : World} (hservice : w.services.get? id = some service)
    (hsink : w.sink? id = some (keeper, sink)) {t : Text} (ht : service.sessionId = .text t) :
    run (announce s id) w =
      (.ok (), w.logged (.started s.environment sink.className (.text t))) := by
  have hfound : run (Action.service id) w = _ := run_expect_some _ hservice
  have hhad : run (sinkOf id) w = _ := run_expect_some _ hsink
  have hannounce : run (announce s id) w = _ :=
    (run_bind_ok _ hfound).trans (run_bind_ok _ hhad)
  rw [hannounce, ht]
  exact run_log_of_isPlain (Entry.isPlain_started _ _ t) w

/--
The start reads the settings, sets logging up and opens its service. All that follows cannot fail:
the service is shared, and the report of the start can be printed.
-/
theorem run_start (id : ServiceId) (sink : Option SinkSpec) (session push : Option Source)
    {w w₁ : World} {s : Settings} (hread : run settings w = (.ok s, w₁)) :
    match run (openService id sink session push .null)
        { w₁ with logging := w₁.logging.setUp (.ofSettings s) } with
    | (.error fault, w') => run (start id sink session push) w = (.error fault, w')
    | (.ok _, w') => ∃ e,
        run (start id sink session push) w = (.ok id, { w' with shared := some id }.logged e) := by
  have hstart : run (start id sink session push) w = _ :=
    (run_bind_ok _ hread).trans (run_bind_ok _ (run_update _ _))
  rw [hstart]
  rcases hopen : run (openService id sink session push .null)
    { w₁ with logging := w₁.logging.setUp (.ofSettings s) } with ⟨fault | i, w₂⟩
  · exact run_bind_error _ hopen
  · rw [run_bind_ok _ hopen]
    obtain ⟨rfl, hfree, service, w₃, hmake, rfl⟩ := exists_service_of_run_openService hopen
    obtain ⟨t, ht⟩ := sessionId_of_run_makeService (o := none) hmake
    rw [run_bind_ok _ (run_share_entered w₃ i service)]
    have hservices := ((keepsServices_makeService sink session push .null).same
      { w₁ with logging := w₁.logging.setUp (.ofSettings s) }).services
    rw [hmake] at hservices
    obtain ⟨⟨keeper, kept⟩, hkept⟩ := Option.isSome_iff_exists.mp <|
      World.isSome_sink?_of_enter (hservices ▸ hfree) (makeService_spec hmake).1
    rw [run_bind_ok _ (run_announce s (Registry.get?_put_self ..) (by exact hkept) ht)]
    exact ⟨_, rfl⟩

theorem shared_run_start (id : ServiceId) (sink : Option SinkSpec) (session push : Option Source)
    (w : World) :
    match run (start id sink session push) w with
    | (.error _, w') => w'.shared = w.shared
    | (.ok i, w') => i = id ∧ w.services.get? id = none ∧ w'.shared = some id := by
  have hsettings := keepsServices_settings.same w
  rcases hread : run settings w with ⟨fault | s, w₁⟩
  · rw [hread] at hsettings
    have hstart : run (start id sink session push) w = _ := run_bind_error _ hread
    rw [hstart]
    exact hsettings.shared
  · rw [hread] at hsettings
    have hstart := run_start id sink session push hread
    generalize hw₂ : { w₁ with logging := w₁.logging.setUp (.ofSettings s) } = w₂ at hstart
    have hservices : w₂.services = w.services := by rw [← hw₂, ← hsettings.services]
    have hshared : w₂.shared = w.shared := by rw [← hw₂, ← hsettings.shared]
    have hkept := (keepsShared_openService id sink session push .null).shared_run w₂
    rcases hopen : run (openService id sink session push .null) w₂ with ⟨fault | i, w₃⟩
    · rw [hopen] at hstart hkept
      rw [hstart]
      exact hkept.trans hshared
    · rw [hopen] at hstart
      obtain ⟨e, hstart⟩ := hstart
      obtain ⟨-, hfree, -⟩ := exists_service_of_run_openService hopen
      rw [hstart]
      exact ⟨rfl, hservices ▸ hfree, rfl⟩

end Action

namespace World

open Telemetry.Action

variable {w w' w'' : World} {id : ServiceId} {p q : Prop}

/-! ## Lookups for drafts -/

/-- The shared service is as it was, or it was needed and made, as there was none. -/
inductive MaySettle (needs : Prop) (w w' : World) : Prop where
  | kept (h : w'.shared = w.shared)
  | made {id : ServiceId} (hneeds : needs) (hnone : w.shared = none)
    (hfree : w.services.get? id = none) (h : w'.shared = some id)

theorem MaySettle.mono (h : MaySettle p w w') (hpq : p → q) : MaySettle q w w' := by
  cases h with
  | kept h => exact .kept h
  | made hneeds hnone hfree h => exact .made (hpq hneeds) hnone hfree h

theorem MaySettle.of_same_shared (h : MaySettle p w w') (hsame : w''.shared = w'.shared) :
    MaySettle p w w'' := by
  cases h with
  | kept h => exact .kept (hsame.trans h)
  | made hneeds hnone hfree h => exact .made hneeds hnone hfree (hsame.trans h)

theorem MaySettle.trans (h : MaySettle p w w') (h' : MaySettle p w' w'')
    (hhanded : Handed w [] w') : MaySettle p w w'' := by
  cases h' with
  | kept hsame => exact h.of_same_shared hsame
  | made hneeds hnone hfree hshared =>
    cases h with
    | kept hsame => exact .made hneeds (hsame ▸ hnone) (hhanded.get?_eq_none hfree) hshared
    | made _ _ _ hbefore =>
      rw [hbefore] at hnone
      cases hnone

theorem maySettle_serviceOf (d : Draft) (w : World) :
    MaySettle (d.service = none) w (Action.run (serviceOf d) w).2 := by
  unfold serviceOf
  cases d.service with
  | some own => exact .kept rfl
  | none =>
    dsimp only
    rw [run_sharedService]
    cases hshared : w.shared with
    | some shared => exact .kept rfl
    | none =>
      have hmake := shared_run_makeShared w.nextAutomatic w
      dsimp only
      generalize Action.run (makeShared w.nextAutomatic) w = result at hmake ⊢
      obtain ⟨fault | made, w'⟩ := result
      · exact .kept hmake
      · exact .made rfl hshared (get?_nextAutomatic w) hmake.2

theorem maySettle_attributionOf (d : Draft) (w : World) :
    MaySettle (d.service = none ∧ d.resolver = none) w (Action.run (attributionOf d) w).2 := by
  have hplace : MaySettle (d.service = none ∧ d.resolver = none) w
      (Action.run (placeOf d) w).2 := by
    unfold placeOf
    cases d.resolver with
    | some own => exact .kept rfl
    | none =>
      have hservice := maySettle_serviceOf d w
      dsimp only
      rw [run_bind_pure]
      exact hservice.mono fun h => ⟨h, rfl⟩
  unfold attributionOf
  rcases hrun : Action.run (placeOf d) w with ⟨fault | place, w'⟩
  · rw [hrun] at hplace
    rwa [run_bind_error _ hrun]
  · rw [hrun] at hplace
    rw [run_bind_ok _ hrun]
    exact hplace.of_same_shared (w'.shared_run_resolve place _)

theorem maySettle_create (w : World) (id : DraftId) :
    MaySettle (w.Needs (.create id)) w (Action.run (create id) w).2 := by
  cases hd : w.drafts.get? id with
  | none =>
    rw [run_create_none w hd]
    exact .kept rfl
  | some d =>
    cases hopen : d.finalized with
    | true =>
      rw [run_create_finalized w hd hopen]
      exact .kept rfl
    | false =>
      have hlookup := (maySettle_attributionOf d w).mono (q := w.Needs (.create id))
        fun h => ⟨d, hd, hopen, h⟩
      rw [run_create w hd hopen]
      generalize Action.run (attributionOf d) w = result at hlookup ⊢
      obtain ⟨fault | a, w'⟩ := result
      · exact hlookup
      · dsimp only at hlookup ⊢
        split
        · exact hlookup
        · exact hlookup.of_same_shared rfl

/-- Adding an event looks the shared service up twice at most. -/
theorem maySettle_add (w : World) (id : DraftId) :
    MaySettle (w.Needs (.add id)) w (Action.run (add id) w).2 := by
  have hcreate : MaySettle (w.Needs (.add id)) w (Action.run (create id) w).2 :=
    (maySettle_create w id).mono fun ⟨d, hd, hopen, hservice, _⟩ => ⟨d, hd, hopen, hservice⟩
  have hhanded := handed_create w id
  rw [run_add]
  rcases hrun : Action.run (create id) w with ⟨fault | ⟨n, r⟩, w'⟩
  · rw [hrun] at hcreate
    exact hcreate
  · rw [hrun] at hcreate hhanded
    obtain ⟨d, hd, hopen, hd'⟩ := exists_draft_of_run_create hrun
    have hlookup := (maySettle_serviceOf { d with finalized := true } w').mono
      (q := w.Needs (.add id)) fun h => ⟨d, hd, hopen, h⟩
    refine hcreate.trans ?_ hhanded
    dsimp only
    rw [run_handOver w' hd']
    generalize Action.run (serviceOf { d with finalized := true }) w' = result at hlookup ⊢
    obtain ⟨fault | service, w''⟩ := result
    · exact hlookup
    · exact hlookup.of_same_shared ((keepsShared_submit service r).shared_run w'')

/-! ## Steps -/

/-- Nothing but these changes happens to the shared service in a step. -/
theorem step_shared (w : World) (s : Step) :
    SharedChange w s (w.step s).1 (w.step s).2.shared := by
  have hkeeps {α : Type} {a : Action α} (ha : KeepsShared a) (f : α → Outcome)
      (hs : ¬ s.ConcernsShared) :
      SharedChange w s (Action.run (a >>= fun x => pure (f x)) w).1
        (Action.run (a >>= fun x => pure (f x)) w).2.shared := by
    rw [run_bind_pure, ha.shared_run w]
    exact .kept hs
  have hsettles {w' : World} {outcome : Except Fault Outcome} (h : MaySettle (w.Needs s) w w')
      (hs : ¬ s.ConcernsShared) : SharedChange w s outcome w'.shared := by
    cases h with
    | kept h => exact h ▸ .kept hs
    | made hneeds hnone hfree h => exact h ▸ .needed hneeds hnone hfree
  cases s with
  | share id =>
    have hstep : w.step (.share id) = _ := run_bind_pure (a := share id) fun _ => Outcome.done
    rw [hstep, run_share]
    split
    · exact .given id
    · exact .failed trivial
  | lookUpShared =>
    rw [step_lookUpShared, run_sharedService]
    cases hshared : w.shared with
    | some id =>
      dsimp only
      rw [hshared]
      exact .found hshared
    | none =>
      have hmake := shared_run_makeShared w.nextAutomatic w
      dsimp only
      generalize Action.run (makeShared w.nextAutomatic) w = result at hmake ⊢
      obtain ⟨fault | id, w'⟩ := result
      · exact hmake ▸ .failed trivial
      · obtain ⟨rfl, hsettled⟩ := hmake
        exact hsettled ▸ .made hshared (get?_nextAutomatic w)
  | start id sink session push =>
    have hstart := shared_run_start id sink session push w
    rw [step_start]
    generalize Action.run (start id sink session push) w = result at hstart ⊢
    obtain ⟨fault | i, w'⟩ := result
    · exact hstart ▸ .failed trivial
    · obtain ⟨rfl, hfree, hsettled⟩ := hstart
      exact hsettled ▸ .started hfree
  | create id =>
    rw [step_create]
    exact hsettles (maySettle_create w id) fun h => h
  | add id =>
    rw [step_add]
    exact hsettles (maySettle_add w id) fun h => h
  | setVariables => exact .kept id
  | reloadSettings => exact .kept id
  | readSettings => exact hkeeps keepsServices_settings.keepsShared _ id
  | openService => exact hkeeps (keepsShared_openService ..) _ id
  | makeRecord => exact hkeeps (keepsServices_makeRecord _).keepsShared _ id
  | openResolver => exact hkeeps (keepsShared_openResolver ..) _ id
  | openDraft => exact hkeeps (keepsServices_openDraft ..).keepsShared _ id
  | setTransactionId => exact hkeeps (keepsServices_edit ..).keepsShared _ id
  | setInteraction => exact hkeeps (keepsServices_edit ..).keepsShared _ id
  | setInteractionFromMessage => exact hkeeps (keepsServices_edit ..).keepsShared _ id
  | setEventValue => exact hkeeps (keepsServices_edit ..).keepsShared _ id
  | setAttribution => exact hkeeps (keepsServices_edit ..).keepsShared _ id
  | setConversion => exact hkeeps (keepsShared_setSendId ..) _ id
  | setLastReceived => exact hkeeps (keepsShared_setSendId ..) _ id
  | sendIds => exact hkeeps (keepsShared_sendIds _) _ id
  | resolve => exact hkeeps (keepsShared_resolve ..) _ id
  | submit => exact hkeeps (keepsShared_submit ..) _ id
  | recent => exact hkeeps (keepsServices_recent ..).keepsShared _ id
  | checkHealth => exact hkeeps (keepsServices_isHealthy _).keepsShared _ id

/-! ## Runs -/

/-- Whatever would replace the shared service fails. -/
def Undisturbed : World → List Step → Prop :=
  Along fun w s => s.Replaces → ∃ fault, (w.step s).1 = .error fault

/-- What is shared stays so as long as nothing replaces it. -/
theorem SharedChange.stays {s : Step} {outcome : Except Fault Outcome} {shared : Option ServiceId}
    (h : SharedChange w s outcome shared) (hshared : w.shared = some id)
    (hfails : s.Replaces → ∃ fault, outcome = .error fault) : shared = some id := by
  cases h with
  | given | started =>
    obtain ⟨fault, hfault⟩ := hfails trivial
    cases hfault
  | found h => exact h.symm.trans hshared
  | made hnone | needed _ hnone =>
    rw [hshared] at hnone
    cases hnone
  | failed | kept => exact hshared

theorem shared_run_of_undisturbed {steps : List Step} (hshared : w.shared = some id)
    (h : w.Undisturbed steps) : (w.run steps).shared = some id := by
  induction steps generalizing w with
  | nil => exact hshared
  | cons s steps ih =>
    obtain ⟨hfails, hrest⟩ := along_cons.mp h
    exact ih ((w.step_shared s).stays hshared hfails) hrest

/-- The service that is shared is found wherever one is looked up. -/
theorem lookups_of_shared (hshared : w.shared = some id) :
    w.step .lookUpShared = (.ok (.service id), w) ∧
      ∀ d : Draft, d.service = none → Action.run (serviceOf d) w = (.ok id, w) := by
  refine ⟨?_, fun d hservice => (Serves.shared hservice hshared hshared).again rfl⟩
  have hfound : Action.run sharedService w = (.ok id, w) := by
    rw [run_sharedService, hshared]
  exact run_bind_ok _ hfound

/-! ## Where there is none -/

/-- The settings as they are or would be read. -/
def currentSettings (w : World) : Except (List Problem) Settings :=
  match w.snapshot with
  | some s => .ok s
  | none => Settings.load w.environment

/-- The settings can be read, and the sink that they ask for can be made. -/
def HasDefaultSink (w : World) : Prop :=
  ∃ s, w.currentSettings = .ok s ∧
    (s.sinkAdapter = .memory → 0 ≤ s.sinkBufferSize ∧ s.sinkBufferSize ≤ Sink.maxCapacity)

theorem run_settings_eq_ok_iff {s : Settings} :
    (∃ w', Action.run settings w = (.ok s, w')) ↔ w.currentSettings = .ok s := by
  rw [run_settings, currentSettings]
  cases w.snapshot with
  | some s' => simp
  | none => cases Settings.load w.environment <;> simp

theorem ofCapacity_eq_memory_iff {bound : Option Int} {sink : Sink} :
    Sink.ofCapacity bound = .ok sink ↔
      (∀ n ∈ bound, 0 ≤ n ∧ n ≤ Sink.maxCapacity) ∧ sink = .memory (bound.map Int.toNat) [] := by
  cases bound with
  | none => simp [Sink.ofCapacity, eq_comm]
  | some n =>
    unfold Sink.ofCapacity Sink.maxCapacity
    dsimp only
    split
    · simp
      omega
    · split
      · simp
        omega
      · have hfits : 0 ≤ n ∧ n ≤ 0x7FFFFFFFFFFFFFFF := by omega
        simp [hfits, eq_comm]

theorem ofCapacity_eq_ok_iff {n : Int} :
    (∃ sink, Sink.ofCapacity (some n) = .ok sink) ↔ 0 ≤ n ∧ n ≤ Sink.maxCapacity := by
  simp [ofCapacity_eq_memory_iff]

theorem run_defaultSink_eq_ok_iff :
    (∃ sink w', Action.run defaultSink w = (.ok sink, w')) ↔ w.HasDefaultSink := by
  constructor
  · rintro ⟨sink, w', h⟩
    obtain ⟨s, w₁, hs, h⟩ := run_bind_eq_ok_iff.mp h
    refine ⟨s, run_settings_eq_ok_iff.mp ⟨w₁, hs⟩, fun hmemory => ?_⟩
    rw [hmemory] at h
    obtain ⟨_, w₂, -, h⟩ := run_bind_eq_ok_iff.mp h
    exact ofCapacity_eq_ok_iff.mp ⟨sink, congrArg Prod.fst h⟩
  · rintro ⟨s, hs, hsink⟩
    obtain ⟨w₁, hs⟩ := run_settings_eq_ok_iff.mpr hs
    have hdefault : Action.run defaultSink w = _ := run_bind_ok _ hs
    rw [hdefault]
    cases hadapter : s.sinkAdapter with
    | log => exact ⟨_, _, run_bind_ok _ (run_log_of_isPlain Entry.isPlain_logSinkSelected w₁)⟩
    | memory =>
      have hbounds := hsink hadapter
      obtain ⟨sink, hmake⟩ := ofCapacity_eq_ok_iff.mpr hbounds
      have hlong : Datum.isLongInt s.sinkBufferSize = false := by
        unfold Sink.maxCapacity at hbounds
        exact Datum.isLongInt_of_lt (by omega)
      have hlog := run_log_of_isPlain (Entry.isPlain_memorySinkSelected hlong) w₁
      dsimp only
      rw [run_bind_ok _ hlog, run_lift, hmake]
      exact ⟨_, _, rfl⟩

/-- Every lookup tries anew to make a service, and only the settings can keep it from doing so. -/
theorem isOk_lookUpShared_iff (hnone : w.shared = none) :
    (∃ id, (w.step .lookUpShared).1 = .ok (.service id)) ↔ w.HasDefaultSink := by
  rw [← run_defaultSink_eq_ok_iff, step_lookUpShared, run_sharedService, hnone]
  dsimp only
  rw [run_makeShared]
  rcases hrun : Action.run defaultSink w with ⟨fault | sink, w'⟩
  · have hmake : Action.run (makeService none none none .null) w = (.error fault, w') :=
      run_bind_error _ (run_bind_error _ hrun)
    rw [hmake]
    simp [Except.map]
  · refine ⟨fun _ => ⟨_, _, rfl⟩, fun _ => ⟨w.nextAutomatic, ?_⟩⟩
    have hsink : Action.run (sinkFor none) w = (.ok (.own sink), w') := run_bind_ok _ hrun
    have hmake : Action.run (makeService none none none .null) w = _ := run_bind_ok _ hsink
    rw [hmake]
    rfl

/--
In every run the shared service is replaced only where one is given or the start returns, and made
only where it is needed and there is none; where any of this fails it is what it was. It is always
one that is there, and until the next replacement every lookup finds it. While there is none, every
lookup tries to make one.
-/
theorem shared_of_run (host : Host) (environment : Environment) (steps : List Step) :
    let w := (fresh host environment).run steps
    (∀ s, SharedChange w s (w.step s).1 (w.step s).2.shared) ∧
    (∀ id, w.shared = some id → (w.services.get? id).isSome ∧
      ∀ later, w.Undisturbed later →
        (w.run later).shared = some id ∧
        (w.run later).step .lookUpShared = (.ok (.service id), w.run later) ∧
        ∀ d : Draft, d.service = none →
          Action.run (serviceOf d) (w.run later) = (.ok id, w.run later)) ∧
    (w.shared = none →
      ((∃ id, (w.step .lookUpShared).1 = .ok (.service id)) ↔ w.HasDefaultSink)) := by
  intro w
  have hlinked : w.Linked := linked_run host environment steps
  refine ⟨w.step_shared, fun id hshared => ⟨hlinked.shared id hshared, fun later h => ?_⟩,
    isOk_lookUpShared_iff⟩
  have hstays := shared_run_of_undisturbed hshared h
  exact ⟨hstays, lookups_of_shared hstays⟩

/-- Sharing a service that is not there fails, and so does a start under a handle that is taken. -/
theorem shared_of_run_failed_replacements :
    let host : Host := ⟨fun _ => "event", fun _ => "session", fun _ => Binary64.zero false⟩
    let unusable : List Step :=
      [.setVariables [("CUSTOM_EVENTS_SINK_BUFFER_SIZE", "-1")], .lookUpShared]
    let mended : List Step := unusable ++ [.setVariables [], .reloadSettings, .lookUpShared]
    let failing : List Step :=
      [.share (some (.named 7)), .start (.automatic 0) none none none, .reloadSettings]
    ¬ ((fresh host ⟨[], none⟩).run unusable).HasDefaultSink ∧
      (((fresh host ⟨[], none⟩).run mended).run failing).shared = some (.automatic 0) := by
  intro host unusable mended failing
  have hnone : ((fresh host ⟨[], none⟩).run unusable).shared = none := rfl
  have hretried := (shared_of_run host ⟨[], none⟩ unusable).2.2 hnone
  refine ⟨fun h => ?_, ?_⟩
  · obtain ⟨id, hid⟩ := hretried.mpr h
    cases hid
  · refine (((shared_of_run host ⟨[], none⟩ mended).2.1 (.automatic 0) rfl).2 failing ?_).1
    exact along_cons.mpr ⟨fun _ => ⟨.unknownHandle, rfl⟩, along_cons.mpr
      ⟨fun _ => ⟨.takenHandle, rfl⟩, along_cons.mpr ⟨nofun, along_nil _ _⟩⟩⟩

end World

end Telemetry
