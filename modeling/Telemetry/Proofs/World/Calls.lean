import Telemetry.Proofs.Draft.Calls
import Telemetry.Proofs.World.Creation

/-!
# The last accepted call wins

A draft is opened and then its setters are called, in any order and with any arguments, some of them
accepted and some refused. What it holds in the end is decided by the last accepted call for each
slot, and its event has just these fields (`World.last_call_wins`). So refused calls leave no trace
in the event, and calls for different slots may be made in any order.
-/

namespace Telemetry

open Draft (Call Slot Write)

namespace Draft

/-- The slot of a draft holds what the last of some calls for it says, or nothing. -/
def HoldsLast (d : Draft) (s : Slot) (accepted : List Call) : Prop :=
  match (accepted.filter fun c => c.slot = s).getLast? with
  | some c => Call.IsHeldBy d c
  | none => d.content s = .nothing s

/-- The fields of a record are those of a draft; a send id that the draft has is credited, read as a
text if it is none. -/
structure IsCarriedBy (d : Draft) (r : EventRecord) : Prop where
  eventName : r.eventName = d.eventName
  eventValue : r.eventValue = d.eventValue
  transactionId : r.transactionId = d.transactionId
  interactionId : r.interactionId = d.interactionId
  interactionType : r.interactionType = d.interactionType
  explicitSendId : d.explicitSendId ≠ .null → ∃ t, Reading.text d.explicitSendId = .ok t ∧
    r.conversionSendId = some t ∧ r.lastReceivedSendId = none

namespace Call

/-- The step that a call asks for; there is none if the message of the call cannot be made. -/
def toStep (id : DraftId) : Call → Except Fault Step
  | transactionId value => .ok (.setTransactionId id value)
  | interaction type interactionId => .ok (.setInteraction id type interactionId)
  | message m => m.message.map (.setInteractionFromMessage id)
  | eventValue value => .ok (.setEventValue id value)
  | attribution none => .ok (.setAttribution id none)
  | attribution (some m) => m.push.map fun m => .setAttribution id (some m)

end Call

end Draft

namespace World

/-- Makes a call on a draft. -/
def call (w : World) (id : DraftId) (c : Call) : Except Fault Outcome × World :=
  match c.toStep id with
  | .ok s => w.step s
  | .error fault => (.error fault, w)

/-- The world after some calls on a draft. -/
def calls (w : World) (id : DraftId) (cs : List Call) : World :=
  cs.foldl (fun w c => (w.call id c).2) w

/-- Those of some calls on a draft that do not fail, in order. -/
def accepted (w : World) (id : DraftId) : List Call → List Call
  | [] => []
  | c :: cs =>
    if (w.call id c).1.isOk then c :: accepted (w.call id c).2 id cs
    else accepted (w.call id c).2 id cs

/-- Calls on a draft with some refused ones left out, and calls for different slots exchanged. -/
inductive Rearranged (w : World) (id : DraftId) : List Call → List Call → Prop where
  | refl (cs : List Call) : Rearranged w id cs cs
  | erase (before after : List Call) {c : Call} {fault : Fault}
    (h : ((w.calls id before).call id c).1 = .error fault) :
    Rearranged w id (before ++ c :: after) (before ++ after)
  | swap (before after : List Call) {c c' : Call} (h : c.slot ≠ c'.slot) :
    Rearranged w id (before ++ c :: c' :: after) (before ++ c' :: c :: after)
  | trans {cs cs' cs'' : List Call} (h : Rearranged w id cs cs')
    (h' : Rearranged w id cs' cs'') : Rearranged w id cs cs''

/-! ## A call on an open draft -/

/-- The second world differs from the first in its drafts, of which one is known, and in what
rejections leave behind. -/
def Edited (w : World) (id : DraftId) (d : Draft) (w' : World) : Prop :=
  ∃ b : Backdrop, w' = w.bare.before b ∧ b.records = w.records ∧ b.drafts.get? id = some d

section

variable {w w' : World} {id : DraftId} {d : Draft}

theorem Edited.refl (hd : w.drafts.get? id = some d) : Edited w id d w :=
  ⟨w.backdrop, w.bare_before.symm, rfl, hd⟩

theorem Edited.get? (h : Edited w id d w') : w'.drafts.get? id = some d := by
  obtain ⟨b, rfl, -, hd⟩ := h
  exact hd

theorem Edited.withDraft (h : Edited w id d w') (d' : Draft) :
    Edited w id d' (w'.withDraft id d') := by
  obtain ⟨b, rfl, hrecords, -⟩ := h
  exact ⟨{ b with drafts := b.drafts.put id d' }, rfl, hrecords, Registry.get?_put_self ..⟩

theorem Edited.afterReport {α : Type} (h : Edited w id d w') (e : Except Fault α) :
    Edited w id d (w'.afterReport e) := by
  unfold World.afterReport
  split
  · next r =>
    obtain ⟨b, rfl, hrecords, hd⟩ := h
    let l := w.logging.keep .drafts b.format
    let e : Entry := .validationFailed r.field r.kind r.message
    have huse : l.use e = w.logging.keep .drafts (l.formatOf e) := w.logging.use_keep rfl b.format
    refine ⟨⟨b.drafts, b.records, b.metrics.recordRejection r.field.key r.kind.name,
      b.journal ++ l.made e, l.formatOf e⟩, ?_, hrecords, hd⟩
    simp [reported, logged, before, bare, ← huse, l, e]
  · exact h

/-- A call fails before it comes to its draft, or it asks for a setter with what it writes. -/
theorem call_cases (w : World) (id : DraftId) (c : Call) :
    (∃ fault fault', w.call id c = (.error fault, w) ∧ c.write = .error fault') ∨
      ∃ s, w.call id c = w.step s ∧ s.write? = some (id, c.write) := by
  cases c with
  | transactionId | interaction | eventValue => exact .inr ⟨_, rfl, rfl⟩
  | message m =>
    simp only [call, Call.toStep, Call.write]
    cases m.message with
    | error fault => exact .inl ⟨fault, fault, rfl, rfl⟩
    | ok passed =>
      have hwrite : (Except.ok passed >>= fun m => m.messageId >>= Write.ofMessageId) =
          passed.messageId >>= Write.ofMessageId := rfl
      rw [hwrite]
      cases hid : passed.messageId with
      | error fault => exact .inl ⟨_, fault, w.step_of_messageId_error hid, rfl⟩
      | ok messageId =>
        refine .inr ⟨_, rfl, ?_⟩
        rw [Step.write?, hid]
        rfl
  | attribution m =>
    cases m with
    | none => exact .inr ⟨_, rfl, rfl⟩
    | some m =>
      simp only [call, Call.toStep, Call.write]
      cases m.push with
      | error fault => exact .inl ⟨fault, fault, rfl, rfl⟩
      | ok passed => exact .inr ⟨_, rfl, rfl⟩

/-- A call on an open draft is accepted just if it writes something, and then it writes that. -/
theorem call_spec (h : Edited w id d w') (hopen : d.finalized = false) (c : Call) :
    (w'.call id c).1.isOk = c.isAccepted ∧ Edited w id (c.apply d) (w'.call id c).2 := by
  unfold Call.isAccepted Call.apply
  rcases w'.call_cases id c with ⟨fault, fault', hcall, hwrite⟩ | ⟨s, hcall, hs⟩
  · rw [hcall, hwrite]
    exact ⟨rfl, h⟩
  · rw [hcall, w'.step_of_write? hs, h.get?]
    dsimp only
    rw [Draft.put_of_open hopen]
    cases c.write with
    | error fault => exact ⟨rfl, h.afterReport _⟩
    | ok x => exact ⟨rfl, h.withDraft _⟩

/-- After some calls the draft is what they make of it one by one. -/
theorem Edited.calls (h : Edited w id d w') (hopen : d.finalized = false) (cs : List Call) :
    Edited w id (Call.applyAll cs d) (w'.calls id cs) := by
  induction cs generalizing d w' with
  | nil => exact h
  | cons c cs ih => exact ih (call_spec h hopen c).2 ((c.finalized_apply d).trans hopen)

theorem accepted_eq_filter (h : Edited w id d w') (hopen : d.finalized = false) (cs : List Call) :
    w'.accepted id cs = cs.filter Call.isAccepted := by
  induction cs generalizing d w' with
  | nil => rfl
  | cons c cs ih =>
    obtain ⟨hok, hcall⟩ := call_spec h hopen c
    rw [accepted, ih hcall ((c.finalized_apply d).trans hopen), hok]
    by_cases hc : c.isAccepted = true
    · rw [if_pos hc, List.filter_cons_of_pos hc]
    · rw [if_neg hc, List.filter_cons_of_neg hc]

/-- The last accepted call for a slot is the last of those for it among the accepted ones. -/
theorem getLast?_accepted (h : Edited w id d w') (hopen : d.finalized = false) (s : Slot)
    (cs : List Call) :
    ((w'.accepted id cs).filter fun c => c.slot = s).getLast? = Call.lastFor s cs := by
  rw [accepted_eq_filter h hopen, List.filter_filter, Call.lastFor]
  simp only [Bool.and_comm]
  rfl

/-- What is left out was refused and what is exchanged is not for the same slot. -/
theorem Rearranged.lastFor_eq {cs cs' : List Call} (hcs : Rearranged w' id cs cs')
    (h : Edited w id d w') (hopen : d.finalized = false) (s : Slot) :
    Call.lastFor s cs' = Call.lastFor s cs := by
  unfold Call.lastFor
  induction hcs with
  | refl cs => rfl
  | @erase before after c fault hfault =>
    -- A refusal depends on the call alone, so the call is none that writes.
    obtain ⟨hok, -⟩ := call_spec (h.calls hopen before)
      ((Call.finalized_applyAll d before).trans hopen) c
    have hwrites : ¬ c.writes s = true := by
      rw [hfault] at hok
      simp [Call.writes, ← hok, Except.isOk, Except.toBool]
    rw [List.filter_append, List.filter_append, List.filter_cons_of_neg hwrites]
  | @swap before after c c' hslot =>
    -- At most one of the two is for the slot, and the other is filtered out on both sides.
    have hwrites : ¬ c.writes s = true ∨ ¬ c'.writes s = true := by
      by_cases hc : c.slot = s
      · have hc' : c'.slot ≠ s := fun hc' => hslot (hc.trans hc'.symm)
        exact .inr (by simp [Call.writes, hc'])
      · exact .inl (by simp [Call.writes, hc])
    rcases hwrites with hc | hc <;> simp [List.filter_cons, hc]
  | trans _ _ ih ih' => exact ih'.trans ih

end

section

variable {w w' : World} {id : DraftId} {d : Draft}

open Telemetry.Action

/-- How creating the event ends is seen from the world before the draft was edited. -/
theorem fst_run_create (h : Edited w id d w') (hopen : d.finalized = false) :
    (Action.run (create id) w').1 =
      match Action.run (attributionOf d) w.bare with
      | (.error fault, _) => .error fault
      | (.ok a, v) =>
        (d.record a (v.host.eventId w.records.length) (v.host.clock w.records.length)).map
          fun r => (w.records.length, r) := by
  rw [run_create w' h.get? hopen]
  obtain ⟨b, rfl, hrecords, -⟩ := h
  -- What the setters have left behind is backdrop, and resolving has no part in it.
  rw [(apart_attributionOf d).run_before]
  rcases Action.run (attributionOf d) w.bare with ⟨fault | a, v⟩
  · rfl
  · have hcount : (v.before b).records.length = w.records.length := congrArg List.length hrecords
    have hhost : (v.before b).host = v.host := rfl
    dsimp only
    rw [hcount, hhost]
    cases d.record a (v.host.eventId w.records.length) (v.host.clock w.records.length) <;> rfl

theorem fst_step_create (w : World) (id : DraftId) :
    (w.step (.create id)).1 = (Action.run (create id) w).1.map fun x => .record x.1 x.2 :=
  congrArg Prod.fst (w.step_create id)

theorem create_ok_of_step {n : Nat} {r : EventRecord}
    (h : (w.step (.create id)).1 = .ok (.record n r)) :
    ∃ w', Action.run (create id) w = (.ok (n, r), w') := by
  rw [fst_step_create] at h
  obtain ⟨⟨m, r'⟩, hcreate, houtcome⟩ := Except.map_eq_ok_iff.mp h
  obtain ⟨rfl, rfl⟩ := Outcome.record.inj houtcome
  exact ⟨_, Prod.ext hcreate rfl⟩

/-- The event of a draft has its fields. -/
theorem isCarriedBy_of_create {n : Nat} {r : EventRecord} (hd : w.drafts.get? id = some d)
    (hopen : d.finalized = false) (h : Action.run (create id) w = (.ok (n, r), w')) :
    d.IsCarriedBy r := by
  have hexplicit := exists_text_of_run_create hd hopen h
  obtain ⟨s, a, freshId, now, -, -, rfl⟩ := exists_toRecord_of_run_create hd hopen h
  exact ⟨rfl, rfl, rfl, rfl, rfl, hexplicit⟩

/-- A draft that was opened is the one that its name gives. -/
theorem exists_ofName_of_step {name : Datum} {service : Option ServiceId}
    {resolver : Option SourcesId} {o : Outcome}
    (h : (w.step (.openDraft id name service resolver)).1 = .ok o) :
    ∃ d, Draft.ofName name service resolver = .ok d ∧
      (w.step (.openDraft id name service resolver)).2 = w.withDraft id d := by
  rw [step_openDraft] at h ⊢
  cases hcheck : w.checkHandles id service resolver with
  | error fault =>
    rw [hcheck] at h
    cases h
  | ok _ =>
    cases hname : Draft.ofName name service resolver with
    | error fault =>
      rw [hcheck, hname] at h
      cases h
    | ok d => exact ⟨d, rfl, rfl⟩

/-- After some calls on an open draft without content, every slot holds the last of them. -/
theorem holdsLast_applyAll (h : Edited w id d w') (hopen : d.finalized = false)
    (hblank : d.blank = d) (cs : List Call) (s : Slot) :
    (Call.applyAll cs d).HoldsLast s (w'.accepted id cs) := by
  have hcontent := Call.content_applyAll d s cs
  unfold Draft.HoldsLast
  rw [getLast?_accepted h hopen]
  cases hlast : Call.lastFor s cs with
  | none =>
    rw [hlast] at hcontent
    rw [← hblank, Draft.content_blank] at hcontent
    rwa [hblank] at hcontent
  | some c =>
    rw [hlast] at hcontent
    obtain ⟨rfl, hwrite⟩ := hcontent
    exact Call.isHeldBy_of_write hwrite

end

/--
After a draft was opened and its setters were called in any way, it has the name that it was opened
with, and each of its slots holds what the last accepted call for it said. Its event, if it is
created, has just these fields. And creating it ends in the same way if refused calls are left out
or calls for different slots are exchanged.
-/
theorem last_call_wins (w : World) (id : DraftId) (name : Datum) (service : Option ServiceId)
    (resolver : Option SourcesId) (cs : List Call)
    (hopened : (w.step (.openDraft id name service resolver)).1 = .ok .done) :
    let opened := (w.step (.openDraft id name service resolver)).2
    ∃ d, (opened.calls id cs).drafts.get? id = some d ∧ d.finalized = false ∧
      name = .text d.eventName ∧ (∀ s, d.HoldsLast s (opened.accepted id cs)) ∧
      (∀ n r, ((opened.calls id cs).step (.create id)).1 = .ok (.record n r) →
        d.IsCarriedBy r) ∧
      ∀ cs', opened.Rearranged id cs cs' →
        (opened.calls id cs').drafts.get? id = some d ∧
          ((opened.calls id cs').step (.create id)).1 =
            ((opened.calls id cs).step (.create id)).1 := by
  obtain ⟨d₀, hname, hworld⟩ := exists_ofName_of_step hopened
  obtain ⟨hname, -, -, -, hopen₀, hblank⟩ := Draft.ofName_eq_ok_iff.mp hname
  intro opened
  -- Both lists of calls lead to the same draft in worlds that differ in nothing that creating the
  -- event looks at.
  have hedited : Edited opened id d₀ opened :=
    .refl ((congrArg (·.drafts.get? id) hworld).trans (Registry.get?_put_self ..))
  have hopen : (Call.applyAll cs d₀).finalized = false :=
    (Call.finalized_applyAll d₀ cs).trans hopen₀
  have hcalls := hedited.calls hopen₀ cs
  refine ⟨Call.applyAll cs d₀, hcalls.get?, hopen, ?_, ?_, ?_, ?_⟩
  · rw [hname]
    exact congrArg (Datum.text ·.eventName) (Call.blank_applyAll d₀ cs).symm
  · exact holdsLast_applyAll hedited hopen₀ hblank cs
  · intro n r hcreate
    obtain ⟨w', hrun⟩ := create_ok_of_step hcreate
    exact isCarriedBy_of_create hcalls.get? hopen hrun
  · intro cs' hcs
    have hcalls' := hedited.calls hopen₀ cs'
    rw [Call.applyAll_congr d₀ fun s => hcs.lastFor_eq hedited hopen₀ s] at hcalls'
    refine ⟨hcalls'.get?, ?_⟩
    rw [fst_step_create, fst_step_create, fst_run_create hcalls hopen, fst_run_create hcalls' hopen]

/-- A number is no transaction id: the call leaves the id before it in place and no trace. -/
theorem last_call_wins_over_refused :
    let host : Host := ⟨fun _ => "event", fun _ => "session", fun _ => Binary64.zero false⟩
    let opened :=
      ((fresh host ⟨[], none⟩).step (.openDraft ⟨0⟩ (.text "purchase") none none)).2
    let first : Call := .transactionId (.text "order-1")
    let refused : Call := .transactionId (.int 2)
    ∃ d, (opened.calls ⟨0⟩ [first, refused]).drafts.get? ⟨0⟩ = some d ∧
      Datum.text "order-1" = .ofText? d.transactionId ∧
      ((opened.calls ⟨0⟩ [first]).step (.create ⟨0⟩)).1 =
        ((opened.calls ⟨0⟩ [first, refused]).step (.create ⟨0⟩)).1 := by
  intro host opened first refused
  obtain ⟨d, hd, -, -, hlast, -, hsame⟩ := last_call_wins (fresh host ⟨[], none⟩) ⟨0⟩
    (.text "purchase") none none [first, refused] rfl
  exact ⟨d, hd, hlast .transactionId, (hsame _ (.erase [first] [] rfl)).2⟩

end World

end Telemetry
