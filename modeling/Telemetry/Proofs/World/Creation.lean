import Telemetry.Proofs.Attribution
import Telemetry.Proofs.World.Drafts

/-!
# Creating an event cannot be refused by the model

Every draft of a run is valid, so the model of records has nothing against its event. What can still
fail is its attribution: there may be no sources, a source may fail or answer with something that is
no text, and something else than a push may have been passed for one. Where none of this happens the
event is created, and its record is valid (`World.create_of_run`).
-/

namespace Telemetry

namespace Action

/-! ## Attributions for a draft -/

/-- The sources that the attribution of a draft is resolved with: those that its own resolver asks,
else those of its service. -/
def sourcesOf (d : Draft) : Action Sources :=
  match d.resolver with
  | some place => sourcesAt place
  | none => do
    let id ← serviceOf d
    let service ← service id
    return service.sources

/-- The sources of a draft are those at its place. -/
theorem exists_place_of_run_sourcesOf {d : Draft} {w w' : World} {s : Sources}
    (hs : run (sourcesOf d) w = (.ok s, w')) :
    ∃ place, run (placeOf d) w = (.ok place, w') ∧ w'.sources? place = some s := by
  unfold sourcesOf at hs
  unfold placeOf
  cases hresolver : d.resolver with
  | some place =>
    rw [hresolver] at hs
    obtain ⟨hs, rfl⟩ := run_expect_eq_ok_iff.mp hs
    exact ⟨place, rfl, hs⟩
  | none =>
    rw [hresolver] at hs
    obtain ⟨id, w₁, hid, hsources⟩ := run_bind_eq_ok_iff.mp hs
    obtain ⟨service, w₂, hknown, hanswer⟩ := run_bind_eq_ok_iff.mp hsources
    obtain ⟨hservice, rfl⟩ := run_expect_eq_ok_iff.mp hknown
    cases hanswer
    exact ⟨.service id, run_bind_ok _ hid, congrArg (Option.map _) hservice⟩

/-- A settled resolution ends with its attribution. -/
theorem exists_run_conclude {r : Resolution} (h : r.IsSettled) (w : World) :
    ∃ a w', run (conclude r) w = (.ok a, w') ∧
      (a.conversionSendId = none ∨ a.lastReceivedSendId = none) := by
  obtain ⟨a, ha, hsendIds⟩ := h.outcome
  obtain ⟨journal, logging, hconclude⟩ := run_conclude_of_isPlain w h.entry
  exact ⟨a, _, by rw [hconclude, ha], hsendIds⟩

theorem outcome_of_run_conclude {r : Resolution} {w w' : World} {a : Attribution}
    (h : run (conclude r) w = (.ok a, w')) : r.outcome = .ok a := by
  rw [run_conclude] at h
  cases hentry : r.entry with
  | none =>
    rw [hentry] at h
    exact congrArg Prod.fst h
  | some e =>
    rw [hentry] at h
    dsimp only at h
    split at h
    · exact congrArg Prod.fst h
    · cases h

/-- An attribution that is made comes from resolving with some sources. -/
theorem exists_outcome_of_run_attributionOf {d : Draft} {w w' : World} {a : Attribution}
    (h : run (attributionOf d) w = (.ok a, w')) :
    ∃ s : Sources, (s.resolve d.explicitSendId).outcome = .ok a := by
  obtain ⟨place, w₁, -, h⟩ := run_bind_eq_ok_iff.mp h
  obtain ⟨s, w₂, -, h⟩ := run_bind_eq_ok_iff.mp h
  obtain ⟨_, w₃, -, h⟩ := run_bind_eq_ok_iff.mp h
  obtain ⟨_, w₄, -, h⟩ := run_bind_eq_ok_iff.mp h
  exact ⟨s, outcome_of_run_conclude h⟩

/-- A valid open draft creates its event if its sources answer with texts or nothing: the record has
the fields of the draft and is credited to what they answer. -/
theorem exists_run_create_toRecord {id : DraftId} {d : Draft} {w w' : World} {s : Sources}
    (hd : w.drafts.get? id = some d) (hvalid : d.Valid) (hsendId : d.HasTextSendId)
    (hopen : d.finalized = false) (hs : run (sourcesOf d) w = (.ok s, w'))
    (htexts : s.AnswerTexts) :
    ∃ n a freshId now w'', run (create id) w = (.ok (n, d.toRecord a freshId now), w'') ∧
      (s.resolve d.explicitSendId).outcome = .ok a ∧
      (a.conversionSendId = none ∨ a.lastReceivedSendId = none) := by
  obtain ⟨place, hplace, hsources⟩ := exists_place_of_run_sourcesOf hs
  have hattribution := (run_bind_ok (fun place => resolve place d.explicitSendId)
    hplace).trans (run_resolve _ hsources _)
  have hsettled : (s.resolve d.explicitSendId).IsSettled := by
    obtain ⟨explicit, hexplicit⟩ := hsendId
    rw [hexplicit]
    exact Sources.isSettled_resolve htexts explicit
  obtain ⟨a, w₂, hconclude, hsendIds⟩ := exists_run_conclude hsettled _
  have hrecord (freshId : Text) (now : Binary64) :
      d.record a freshId now = .ok (d.toRecord a freshId now) :=
    Draft.record_eq_ok_iff.mpr ⟨hvalid, hsendIds, rfl⟩
  rw [run_create w hd hopen, attributionOf, hattribution, hconclude]
  dsimp only
  rw [hrecord]
  exact ⟨_, a, _, _, _, rfl, outcome_of_run_conclude hconclude, hsendIds⟩

theorem exists_run_create {id : DraftId} {d : Draft} {w w' : World} {s : Sources}
    (hd : w.drafts.get? id = some d) (hvalid : d.Valid) (hsendId : d.HasTextSendId)
    (hopen : d.finalized = false) (hs : run (sourcesOf d) w = (.ok s, w'))
    (htexts : s.AnswerTexts) :
    ∃ n r w'', run (create id) w = (.ok (n, r), w'') ∧ r.Valid := by
  obtain ⟨n, a, freshId, now, w'', hcreate, -, hsendIds⟩ :=
    exists_run_create_toRecord hd hvalid hsendId hopen hs htexts
  exact ⟨n, _, w'', hcreate, hvalid.toRecord hsendIds freshId now⟩

/-- An event that is created has the fields of its draft, and at most one send id. -/
theorem exists_toRecord_of_run_create {id : DraftId} {d : Draft} {w w' : World} {n : Nat}
    {r : EventRecord} (hd : w.drafts.get? id = some d) (hopen : d.finalized = false)
    (h : run (create id) w = (.ok (n, r), w')) :
    ∃ s : Sources, ∃ a freshId now, (s.resolve d.explicitSendId).outcome = .ok a ∧
      (a.conversionSendId = none ∨ a.lastReceivedSendId = none) ∧
      r = d.toRecord a freshId now := by
  rw [run_create w hd hopen] at h
  rcases hattribution : run (attributionOf d) w with ⟨fault | a, w₁⟩
  · rw [hattribution] at h
    cases h
  · rw [hattribution] at h
    dsimp only at h
    split at h
    · cases h
    · next hrecord =>
      cases h
      obtain ⟨s, hs⟩ := exists_outcome_of_run_attributionOf hattribution
      obtain ⟨-, hsendIds, rfl⟩ := Draft.record_eq_ok_iff.mp hrecord
      exact ⟨s, a, _, _, hs, hsendIds, rfl⟩

/-- The send id of a draft is credited, read as a text. -/
theorem exists_text_of_run_create {id : DraftId} {d : Draft} {w w' : World} {n : Nat}
    {r : EventRecord} (hd : w.drafts.get? id = some d) (hopen : d.finalized = false)
    (h : run (create id) w = (.ok (n, r), w')) (hexplicit : d.explicitSendId ≠ .null) :
    ∃ t, Reading.text d.explicitSendId = .ok t ∧ r.conversionSendId = some t ∧
      r.lastReceivedSendId = none := by
  obtain ⟨s, a, freshId, now, hs, -, rfl⟩ := exists_toRecord_of_run_create hd hopen h
  obtain ⟨t, ht, rfl⟩ := Sources.exists_text_of_resolve hexplicit hs
  exact ⟨t, ht, rfl, rfl⟩

end Action

/-- Nothing but a push is passed as one. -/
def Step.PassesPush : Step → Prop
  | setAttribution _ (some (.other _)) => False
  | _ => True

/-! ## Send ids of drafts -/

namespace Draft

theorem HasTextSendId.apply {d : Draft} {x : Write} (h : d.HasTextSendId)
    (hx : x.slot = .attribution → ∃ t : Option Text, x = .attribution (.ofText? t)) :
    (x.apply d).HasTextSendId := by
  cases x with
  | attribution sendId =>
    obtain ⟨t, ht⟩ := hx rfl
    exact ⟨t, Write.attribution.inj ht⟩
  | _ => exact h

end Draft

namespace World

open Telemetry.Action

/-- The send id of a push is a text. -/
theorem exists_text_of_write? {s : Step} {id : DraftId} {x : Draft.Write}
    (hs : s.write? = some (id, .ok x)) (hpush : s.PassesPush) (hx : x.slot = .attribution) :
    ∃ t : Option Text, x = .attribution (.ofText? t) := by
  have hinteraction {type interactionId : Datum}
      (hwrite : Draft.Write.ofInteraction type interactionId = .ok x) :
      x.slot = .interaction := by
    obtain ⟨_, _, -, -, rfl⟩ := Draft.Write.ofInteraction_eq_ok_iff.mp hwrite
    rfl
  cases s
  case setInteractionFromMessage id' m =>
    obtain ⟨messageId, -, -, hwrite⟩ := Step.exists_messageId_of_write? hs
    exact nomatch (hinteraction hwrite).symm.trans hx
  case setAttribution id' m =>
    have hwrite : Draft.Write.ofPush m = .ok x := (Prod.mk.inj (Option.some.inj hs)).2
    cases m with
    | none => exact ⟨none, (Except.ok.inj hwrite).symm⟩
    | some m =>
      obtain ⟨sendId, hsendId, rfl⟩ := Except.map_eq_ok_iff.mp hwrite
      cases m with
      | other id => exact hpush.elim
      | message m =>
        obtain ⟨t, -, rfl⟩ := Except.map_eq_ok_iff.mp hsendId
        exact ⟨t, rfl⟩
  case setTransactionId id' value =>
    have hwrite : Draft.Write.ofTransactionId value = .ok x := (Prod.mk.inj (Option.some.inj hs)).2
    obtain ⟨t, -, rfl⟩ := Except.map_eq_ok_iff.mp hwrite
    cases hx
  case setEventValue id' value =>
    have hwrite : Draft.Write.ofEventValue value = .ok x := (Prod.mk.inj (Option.some.inj hs)).2
    obtain ⟨i, -, rfl⟩ := Except.map_eq_ok_iff.mp hwrite
    cases hx
  case setInteraction id' type interactionId =>
    have hwrite := (Prod.mk.inj (Option.some.inj hs)).2
    exact nomatch (hinteraction hwrite).symm.trans hx
  all_goals cases hs

theorem hasTextSendId_step {w : World} {s : Step} (hpush : s.PassesPush)
    (hw : ∀ id d, w.drafts.get? id = some d → d.HasTextSendId) :
    ∀ id d, (w.step s).2.drafts.get? id = some d → d.HasTextSendId := by
  have hput {changed : DraftId} {d' : Draft} (hd' : d'.HasTextSendId) :
      ∀ id d, (w.drafts.put changed d').get? id = some d → d.HasTextSendId := by
    intro id d hd
    rw [Registry.get?_put] at hd
    split at hd
    · obtain rfl := Option.some.inj hd
      exact hd'
    · exact hw id d hd
  cases hs : s.write? with
  | none =>
    have hadvance := w.draftsAdvance_step hs
    generalize (w.step s).2.drafts = drafts at hadvance ⊢
    cases hadvance with
    | kept => exact hw
    | opened _ hnew =>
      cases hnew with
      | opened hname =>
        obtain ⟨-, -, -, -, -, hblank⟩ := Draft.ofName_eq_ok_iff.mp hname
        exact hput ⟨none, (congrArg Draft.explicitSendId hblank).symm⟩
    | @finalized _ d hd =>
      have hsame : d.HasTextSendId := hw _ _ hd
      exact hput hsame
  | some call =>
    obtain ⟨changed, write⟩ := call
    rw [w.step_of_write? hs]
    cases hd : w.drafts.get? changed with
    | none => exact hw
    | some d =>
      dsimp only
      cases hwritten : d.put write with
      | error fault =>
        dsimp only
        rw [w.afterReport_drafts]
        exact hw
      | ok d' =>
        obtain ⟨-, x, rfl, rfl⟩ := Draft.put_eq_ok_iff.mp hwritten
        exact hput ((hw _ _ hd).apply (exists_text_of_write? hs hpush))

/-- Where only pushes are passed for pushes, the send ids of all drafts are texts. -/
theorem hasTextSendId_run {w : World} {steps : List Step} (hpush : ∀ s ∈ steps, s.PassesPush)
    (hw : ∀ id d, w.drafts.get? id = some d → d.HasTextSendId) :
    ∀ id d, (w.run steps).drafts.get? id = some d → d.HasTextSendId := by
  induction steps generalizing w with
  | nil => exact hw
  | cons s steps ih =>
    exact ih (fun t ht => hpush t (List.mem_cons_of_mem _ ht))
      (hasTextSendId_step (hpush s List.mem_cons_self) hw)

/--
In every run, whatever is passed to the setters, all fields of a draft fit. Its send id is a text or
nothing unless something else than a push was passed for one. If it is, the event is created as soon
as there are sources and they answer with texts or nothing. And however an event comes to be created,
its record is one that the model of records lets pass, with the send id of its draft read as a text.
-/
theorem create_of_run (host : Host) (environment : Environment) (steps : List Step)
    (id : DraftId) (d : Draft)
    (hd : ((fresh host environment).run steps).drafts.get? id = some d) :
    let w := (fresh host environment).run steps
    d.Valid ∧
    ((∀ s ∈ steps, s.PassesPush) → d.HasTextSendId) ∧
    (d.finalized = false → d.HasTextSendId →
      ∀ s w', Action.run (sourcesOf d) w = (.ok s, w') → s.AnswerTexts →
        ∃ n r, (w.step (.create id)).1 = .ok (.record n r) ∧ r.Valid) ∧
    ∀ o, (w.step (.create id)).1 = .ok o → ∃ n r, o = .record n r ∧ r.Valid ∧
      (d.explicitSendId ≠ .null → ∃ t, Reading.text d.explicitSendId = .ok t ∧
        r.conversionSendId = some t ∧ r.lastReceivedSendId = none) := by
  have hvalid := valid_of_run hd
  refine ⟨hvalid, fun hpush => ?_, fun hopen hsendId s w' hs htexts => ?_, fun o ho => ?_⟩
  · exact hasTextSendId_run hpush (fun _ _ hd => by cases hd) id d hd
  · obtain ⟨n, r, w'', hcreate, hr⟩ := exists_run_create hd hvalid hsendId hopen hs htexts
    refine ⟨n, r, ?_, hr⟩
    have hstep := run_bind_ok (fun x => pure (Outcome.record x.1 x.2)) hcreate
    exact congrArg Prod.fst hstep
  · rw [step_create] at ho
    obtain ⟨⟨n, r⟩, hcreate, rfl⟩ := Except.map_eq_ok_iff.mp ho
    have hrun : Action.run (create id) _ = (.ok (n, r), _) := Prod.ext hcreate rfl
    cases hopen : d.finalized with
    | true =>
      rw [run_create_finalized _ hd hopen] at hcreate
      cases hcreate
    | false =>
      obtain ⟨_, a, freshId, now, -, hsendIds, hr⟩ := exists_toRecord_of_run_create hd hopen hrun
      exact ⟨n, r, rfl, hr ▸ hvalid.toRecord hsendIds freshId now,
        exists_text_of_run_create hd hopen hrun⟩

/-- A draft with one accepted and one refused value, and a pending conversion to credit. -/
theorem create_of_run_pending_conversion :
    let host : Host := ⟨fun _ => "event", fun _ => "session", fun _ => Binary64.zero false⟩
    let pending : Source := .external (fun _ => .value (.text "push-1")) 0
    ∃ n r, (((fresh host ⟨[], none⟩).run [
      .openService (.named 0) (some .log) (some pending) none (.text "session"),
      .openDraft ⟨0⟩ (.text "purchase") (some (.named 0)) none,
      .setEventValue ⟨0⟩ (.int 5),
      .setTransactionId ⟨0⟩ (.int 7)]).step (.create ⟨0⟩)).1 = .ok (.record n r) ∧ r.Valid :=
  (create_of_run _ _ _ _ _ rfl).2.2.1 rfl ⟨none, rfl⟩ _ _ rfl ⟨⟨some "push-1", rfl⟩, ⟨none, rfl⟩⟩

/--
Something that is no push is taken for one with a number as its send id, and then the event cannot
be created, though the sources answer with nothing. Nor can it be with a resolver without sources.
-/
theorem create_fails_on_odd_arguments :
    let host : Host := ⟨fun _ => "event", fun _ => "session", fun _ => Binary64.zero false⟩
    let odd : Step := .setAttribution ⟨0⟩ (some (.other (.ok (.int 5))))
    let w := (fresh host ⟨[], none⟩).run [
      .openService (.named 0) (some .log) none none (.text "session"),
      .openDraft ⟨0⟩ (.text "purchase") (some (.named 0)) none]
    let unsourced := (fresh host ⟨[], none⟩).run [
      .openResolver ⟨0⟩ ⟨.lacking "NoneType", .lacking "NoneType"⟩,
      .openDraft ⟨0⟩ (.text "purchase") none (some (.resolver ⟨0⟩))]
    ((w.step odd).1 = .ok .done ∧
      ∃ d s, (w.step odd).2.drafts.get? ⟨0⟩ = some d ∧ d.finalized = false ∧
        d.explicitSendId = .int 5 ∧ ¬ d.HasTextSendId ∧
        (Action.run (sourcesOf d) (w.step odd).2).1 = .ok s ∧ s.AnswerTexts ∧
        ((w.step odd).2.step (.create ⟨0⟩)).1 =
          .error (.invalid [⟨["conversion_send_id"], .notText⟩])) ∧
    (unsourced.step (.create ⟨0⟩)).1 =
      .error (.noAttribute "NoneType" "pending_conversion_reference") := by
  refine ⟨⟨rfl, _, _, rfl, rfl, rfl, ?_, rfl, ⟨⟨none, rfl⟩, ⟨none, rfl⟩⟩, rfl⟩, rfl⟩
  rintro ⟨t, ht⟩
  cases t <;> cases ht

end World

end Telemetry
