import Telemetry.Proofs.World.Equations

/-!
# Drafts along a run

A step can do three things to a draft, and only to one: open it, store what a setter makes of its
arguments, and finalize it when its event is created (`World.step_drafts`). So whatever these three
keep holds of every draft at any time (`World.forall_drafts_run`), `Draft.Valid` for one
(`World.valid_of_run`).
-/

namespace Telemetry

/-! ## Operations that leave drafts alone -/

namespace Action

variable {α β : Type}

/-- The operation leaves every draft as it is. -/
structure KeepsDrafts (a : Action α) : Prop where
  drafts_run : ∀ w, (run a w).2.drafts = w.drafts

theorem Apart.keepsDrafts {a : Action α} (h : Apart a) : KeepsDrafts a := ⟨h.drafts⟩

namespace KeepsDrafts

theorem pure (x : α) : KeepsDrafts (pure x : Action α) := ⟨fun _ => rfl⟩

theorem update {f : World → World} (hf : ∀ w, (f w).drafts = w.drafts) :
    KeepsDrafts (update f) := ⟨hf⟩

/-- What follows an operation adds nothing to what that does to drafts. -/
theorem drafts_run_bind (a : Action α) {f : α → Action β} (hf : ∀ x, KeepsDrafts (f x))
    (w : World) : (run (a >>= f) w).2.drafts = (run a w).2.drafts := by
  rw [run_bind]
  rcases run a w with ⟨fault | x, w'⟩
  · rfl
  · exact (hf x).drafts_run w'

theorem bind {a : Action α} {f : α → Action β} (ha : KeepsDrafts a)
    (hf : ∀ x, KeepsDrafts (f x)) : KeepsDrafts (a >>= f) :=
  ⟨fun w => (drafts_run_bind a hf w).trans (ha.drafts_run w)⟩

end KeepsDrafts

theorem keepsDrafts_log (e : Entry) : KeepsDrafts (log e) := by
  constructor
  intro w
  rw [run_log]
  cases w.logging.check e <;> rfl

theorem keepsDrafts_submit (id : ServiceId) (r : EventRecord) : KeepsDrafts (submit id r) := by
  refine (apart_service id).keepsDrafts.bind fun service =>
    (apart_sinkOf id).keepsDrafts.bind fun ⟨keeper, sink⟩ => ?_
  refine .bind (.update fun w => ?_) fun _ => (keepsDrafts_log _).bind fun _ =>
    .bind (.update fun _ => rfl) fun _ => keepsDrafts_log _
  obtain ⟨services, heq⟩ := w.withSink_eq keeper (sink.take r)
  rw [heq]

theorem keepsDrafts_makeRecord (fields : RecordFields) : KeepsDrafts (makeRecord fields) := by
  have hstamp : KeepsDrafts (stamp fun freshId now =>
      (EventRecord.ofFields freshId now fields).mapError Fault.invalid) := ⟨fun _ => rfl⟩
  have hkeep (r : EventRecord) : KeepsDrafts (keep r) := ⟨fun _ => rfl⟩
  exact hstamp.bind fun r => (hkeep r).bind fun _ => .pure _

theorem keepsDrafts_draft (id : DraftId) : KeepsDrafts (draft id) := by
  constructor
  intro w
  rw [draft, run_expect]

theorem keepsDrafts_handOver (id : DraftId) (r : EventRecord) : KeepsDrafts (handOver id r) :=
  (keepsDrafts_draft id).bind fun d => (apart_serviceOf d).keepsDrafts.bind fun service =>
    keepsDrafts_submit service r

/-- Creating an event finalizes its draft if it does anything to drafts. -/
theorem drafts_run_create (id : DraftId) (w : World) :
    (run (create id) w).2.drafts = w.drafts ∨
      ∃ d, w.drafts.get? id = some d ∧ d.finalized = false ∧
        (run (create id) w).2.drafts = w.drafts.put id { d with finalized := true } := by
  cases hd : w.drafts.get? id with
  | none => exact .inl (by rw [run_create_none w hd])
  | some d =>
    cases hopen : d.finalized with
    | true => exact .inl (by rw [run_create_finalized w hd hopen])
    | false =>
      have hdrafts := (apart_attributionOf d).drafts w
      rw [run_create w hd hopen]
      generalize run (attributionOf d) w = result at hdrafts ⊢
      obtain ⟨fault | a, w'⟩ := result
      · exact .inl hdrafts
      · dsimp only at hdrafts ⊢
        split
        · exact .inl hdrafts
        · exact .inr ⟨d, rfl, hopen, by rw [World.committed, hdrafts]⟩

end Action

/-! ## What a step does to drafts -/

/-- What a step can make of a draft, or of a handle without one. -/
inductive Draft.Change : Option Draft → Draft → Prop where
  | opened {name : Datum} {service : Option ServiceId} {resolver : Option SourcesId} {d : Draft}
    (h : ofName name service resolver = .ok d) : Change none d
  | written {d : Draft} {x : Write} (hopen : d.finalized = false) (hx : x.Fits) :
    Change (some d) (x.apply d)
  | finalized {d : Draft} (hopen : d.finalized = false) :
    Change (some d) { d with finalized := true }

namespace World

open Telemetry.Action

variable (w : World)

/-- The service that a draft names is there, and so are sources where its resolver asks. -/
structure Knows (d : Draft) : Prop where
  service : ∀ id ∈ d.service, (w.services.get? id).isSome
  resolver : ∀ place ∈ d.resolver, (w.sources? place).isSome

/--
The drafts afterwards are those before, or a single one of them was changed, or one was added that
names what is there.
-/
def DraftsChange (drafts : Registry DraftId Draft) : Prop :=
  drafts = w.drafts ∨ ∃ id d, Draft.Change (w.drafts.get? id) d ∧
    (w.drafts.get? id = none → w.Knows d) ∧ drafts = w.drafts.put id d

theorem draftsChange_of_write? {s : Step} {id : DraftId} {write : Except Fault Draft.Write}
    (h : s.write? = some (id, write)) : w.DraftsChange (w.step s).2.drafts := by
  rw [w.step_of_write? h]
  cases hd : w.drafts.get? id with
  | none => exact .inl rfl
  | some d =>
    dsimp only
    cases hput : d.put write with
    | error fault => exact .inl (w.afterReport_drafts _)
    | ok d' =>
      obtain ⟨hopen, x, hx, rfl⟩ := Draft.put_eq_ok_iff.mp hput
      refine .inr ⟨id, _, ?_, by simp [hd], rfl⟩
      rw [hd]
      exact .written hopen (Step.fits_of_write? h hx)

theorem knows_of_checkHandles {w : World} {id : DraftId} {name : Datum}
    {service : Option ServiceId} {resolver : Option SourcesId} {d : Draft}
    (h : w.checkHandles id service resolver = .ok ())
    (hd : Draft.ofName name service resolver = .ok d) : w.Knows d := by
  obtain ⟨-, -, rfl, rfl, -, -⟩ := Draft.ofName_eq_ok_iff.mp hd
  unfold checkHandles at h
  split at h
  · split at h
    · next hservice =>
      split at h
      · next hresolver =>
        refine ⟨fun s hs => ?_, fun r hr => ?_⟩
        · rw [Option.mem_def.mp hs] at hservice
          exact hservice
        · rw [Option.mem_def.mp hr] at hresolver
          exact hresolver
      · cases h
    · cases h
  · cases h

/--
The drafts afterwards are those before, or one was opened that names what is there, or the event of
an open one was created.
-/
inductive DraftsAdvance : Registry DraftId Draft → Prop where
  | kept : DraftsAdvance w.drafts
  | opened {id : DraftId} {d : Draft} (hfree : w.drafts.get? id = none)
    (hd : Draft.Change none d) (hknows : w.Knows d) : DraftsAdvance (w.drafts.put id d)
  | finalized {id : DraftId} {d : Draft} (hd : w.drafts.get? id = some d)
    (hopen : d.finalized = false) : DraftsAdvance (w.drafts.put id { d with finalized := true })

theorem DraftsAdvance.draftsChange {w : World} {drafts : Registry DraftId Draft}
    (h : w.DraftsAdvance drafts) : w.DraftsChange drafts := by
  cases h with
  | kept => exact .inl rfl
  | opened hfree hd hknows => exact .inr ⟨_, _, hfree ▸ hd, fun _ => hknows, rfl⟩
  | finalized hd hopen => exact .inr ⟨_, _, hd ▸ .finalized hopen, by simp [hd], rfl⟩

theorem draftsAdvance_openDraft (id : DraftId) (name : Datum) (service : Option ServiceId)
    (resolver : Option SourcesId) :
    w.DraftsAdvance (Action.run (openDraft id name service resolver) w).2.drafts := by
  rw [run_openDraft]
  cases hcheck : w.checkHandles id service resolver with
  | error fault => exact .kept
  | ok _ =>
    dsimp only
    cases hname : Draft.ofName name service resolver with
    | error fault =>
      rw [w.afterReport_drafts]
      exact .kept
    | ok d =>
      exact .opened (get?_eq_none_of_checkHandles hcheck) (.opened hname)
        (knows_of_checkHandles hcheck hname)

theorem draftsAdvance_create (id : DraftId) :
    w.DraftsAdvance (Action.run (create id) w).2.drafts := by
  rcases drafts_run_create id w with hsame | ⟨d, hd, hopen, hput⟩
  · exact hsame ▸ .kept
  · exact hput ▸ .finalized hd hopen

/-- No step but a setter writes into a draft. -/
theorem draftsAdvance_step {s : Step} (hs : s.write? = none) :
    w.DraftsAdvance (w.step s).2.drafts := by
  -- A step ends in its answer, so the operation before decides.
  have hends {α : Type} {a : Action α} {f : α → Outcome}
      (ha : w.DraftsAdvance (Action.run a w).2.drafts) :
      w.DraftsAdvance (Action.run (a >>= fun x => pure (f x)) w).2.drafts := by
    rwa [KeepsDrafts.drafts_run_bind a fun x => .pure (f x)]
  have hkeeps {α : Type} {a : Action α} (ha : KeepsDrafts a) (f : α → Outcome) :
      w.DraftsAdvance (Action.run (a >>= fun x => pure (f x)) w).2.drafts :=
    hends (ha.drafts_run w ▸ .kept)
  cases s with
  | setVariables vars => exact .kept
  | reloadSettings => exact .kept
  | readSettings => exact hkeeps apart_settings.keepsDrafts _
  | openService => exact hkeeps (apart_openService ..).keepsDrafts _
  | share => exact hkeeps (apart_share _).keepsDrafts _
  | lookUpShared => exact hkeeps apart_sharedService.keepsDrafts _
  | start => exact hkeeps (apart_start ..).keepsDrafts _
  | makeRecord => exact hkeeps (keepsDrafts_makeRecord _) _
  | openResolver => exact hkeeps (apart_openResolver ..).keepsDrafts _
  | openDraft => exact hends (w.draftsAdvance_openDraft ..)
  | setInteractionFromMessage id m =>
    obtain ⟨fault, hfault⟩ := Step.exists_fault_of_write? hs
    rw [w.step_of_messageId_error hfault]
    exact .kept
  | setTransactionId | setInteraction | setEventValue | setAttribution => cases hs
  | create id => exact hends (w.draftsAdvance_create id)
  | add id =>
    have hadd : (Action.run (add id) w).2.drafts = (Action.run (create id) w).2.drafts :=
      KeepsDrafts.drafts_run_bind (create id) (fun x =>
        (keepsDrafts_handOver id x.2).bind fun _ => .pure x) w
    exact hends (hadd ▸ w.draftsAdvance_create id)
  | setConversion => exact hkeeps (apart_setSendId ..).keepsDrafts _
  | setLastReceived => exact hkeeps (apart_setSendId ..).keepsDrafts _
  | sendIds => exact hkeeps (apart_sendIds _).keepsDrafts _
  | resolve => exact hkeeps (apart_resolve ..).keepsDrafts _
  | submit => exact hkeeps (keepsDrafts_submit ..) _
  | recent => exact hkeeps (apart_recent ..).keepsDrafts _
  | checkHealth => exact hkeeps (apart_isHealthy _).keepsDrafts _

/-- A step leaves all drafts as they are, or it changes a single one. -/
theorem step_drafts (s : Step) : w.DraftsChange (w.step s).2.drafts := by
  cases hs : s.write? with
  | none => exact (w.draftsAdvance_step hs).draftsChange
  | some write => exact w.draftsChange_of_write? hs

end World

/-! ## What every change keeps -/

theorem Draft.Change.valid {before : Option Draft} {d : Draft} (h : Change before d)
    (hbefore : ∀ d ∈ before, d.Valid) : d.Valid := by
  cases h with
  | opened hname => exact valid_of_ofName hname
  | written _ hx => exact (hbefore _ rfl).apply hx
  | finalized _ => exact { hbefore _ rfl with }

namespace World

variable {w : World}

/-- What every change of a single draft keeps holds of all drafts after a step. -/
theorem forall_drafts_step {P : Draft → Prop}
    (hchange : ∀ {before d}, Draft.Change before d → (∀ d ∈ before, P d) → P d)
    (hw : ∀ id d, w.drafts.get? id = some d → P d) (s : Step) :
    ∀ id d, (w.step s).2.drafts.get? id = some d → P d := by
  intro id d hd
  rcases w.step_drafts s with hsame | ⟨changed, d', hd', -, hput⟩
  · rw [hsame] at hd
    exact hw id d hd
  · rw [hput] at hd
    by_cases hid : id = changed
    · subst hid
      rw [Registry.get?_put_self] at hd
      obtain rfl := Option.some.inj hd
      exact hchange hd' fun d hd => hw id d hd
    · rw [Registry.get?_put_of_ne _ hid] at hd
      exact hw id d hd

/-- What every change of a single draft keeps holds of all drafts at any time. -/
theorem forall_drafts_run {P : Draft → Prop}
    (hchange : ∀ {before d}, Draft.Change before d → (∀ d ∈ before, P d) → P d)
    (hw : ∀ id d, w.drafts.get? id = some d → P d) (steps : List Step) :
    ∀ id d, (w.run steps).drafts.get? id = some d → P d := by
  induction steps generalizing w with
  | nil => exact hw
  | cons s steps ih => exact ih (forall_drafts_step hchange hw s)

theorem valid_of_run {host : Host} {environment : Environment} {steps : List Step} {id : DraftId}
    {d : Draft} (hd : ((fresh host environment).run steps).drafts.get? id = some d) : d.Valid :=
  forall_drafts_run (fun h => h.valid) (fun _ _ hd => by cases hd) steps id d hd

/-! ## Runs, step by step -/

theorem run_append (w : World) (steps steps' : List Step) :
    w.run (steps ++ steps') = (w.run steps).run steps' := List.foldl_append

/-- Of every step of a run this holds where it is taken. -/
def Along (P : World → Step → Prop) (w : World) (steps : List Step) : Prop :=
  ∀ earlier s later, steps = earlier ++ s :: later → P (w.run earlier) s

theorem along_nil (P : World → Step → Prop) (w : World) : Along P w [] := by
  intro earlier s later heq
  simp at heq

theorem along_cons {P : World → Step → Prop} {s : Step} {steps : List Step} :
    Along P w (s :: steps) ↔ P w s ∧ Along P (w.step s).2 steps := by
  constructor
  · intro h
    exact ⟨h [] s steps rfl, fun earlier t later heq =>
      h (s :: earlier) t later (congrArg (s :: ·) heq)⟩
  · rintro ⟨hfirst, hrest⟩ earlier t later heq
    cases earlier with
    | nil =>
      obtain ⟨rfl, -⟩ := List.cons.inj heq
      exact hfirst
    | cons first earlier =>
      obtain ⟨rfl, hsteps⟩ := List.cons.inj heq
      exact hrest earlier t later hsteps

end World

end Telemetry
