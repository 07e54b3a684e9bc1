import Mathlib.Data.List.Induction
import Telemetry.Proofs.Draft.Valid

/-!
# Calls of the setters

A `Draft.Call` is the call of a setter with its arguments as they are passed. Whether it is accepted
and what it writes is decided by the arguments alone. So after any calls a slot holds what the last
accepted call for it has written (`Draft.Call.content_applyAll`), and calls that agree in the last
one for each slot make the same draft of the same draft (`Draft.Call.applyAll_congr`).
-/

namespace Telemetry

namespace Draft

/-- What a caller passes as a message: one that is made of a datum, or something else. -/
inductive Passed where
  | made (content : Datum)
  | other (id : Except Failure Datum)

namespace Passed

/-- What is passed as an inbox message, unless none can be made of the id. -/
def message : Passed → Except Fault (MessageArgument InboxMessage)
  | made messageId => (InboxMessage.ofId messageId).map .message
  | other id => .ok (.other id)

/-- What is passed as a push, unless none can be made of the extras. -/
def push : Passed → Except Fault (MessageArgument PushMessage)
  | made extras => (PushMessage.ofExtras extras).map .message
  | other id => .ok (.other id)

end Passed

/-- A call of a setter. -/
inductive Call where
  | transactionId (value : Datum)
  | interaction (type id : Datum)
  | message (m : Passed)
  | eventValue (value : Datum)
  | attribution (m : Option Passed)

namespace Call

/-- The slot that a call writes if it is accepted. -/
def slot : Call → Slot
  | transactionId _ => .transactionId
  | interaction .. | message _ => .interaction
  | eventValue _ => .eventValue
  | attribution _ => .attribution

/-- What a call writes, unless it is refused. -/
def write : Call → Except Fault Write
  | transactionId value => Write.ofTransactionId value
  | interaction type id => Write.ofInteraction type id
  | message m => m.message >>= fun m => m.messageId >>= Write.ofMessageId
  | eventValue value => Write.ofEventValue value
  | attribution none => Write.ofPush none
  | attribution (some m) => m.push >>= fun m => Write.ofPush (some m)

/-- The call is not refused. -/
def isAccepted (c : Call) : Bool := c.write.isOk

/-- The call writes a slot. -/
def writes (s : Slot) (c : Call) : Bool := c.isAccepted && c.slot = s

/-- The draft after a call. -/
def apply (c : Call) (d : Draft) : Draft :=
  match c.write with
  | .ok x => x.apply d
  | .error _ => d

/-- The draft after one call after another. -/
def applyAll (cs : List Call) (d : Draft) : Draft := cs.foldl (fun d c => c.apply d) d

/-- The last accepted call for a slot. -/
def lastFor (s : Slot) (cs : List Call) : Option Call :=
  (cs.filter (writes s)).getLast?

/-- The draft holds the arguments of a call in its fields. -/
def IsHeldBy (d : Draft) : Call → Prop
  | transactionId value => value = .ofText? d.transactionId
  | interaction type id => type = .ofText? d.interactionType ∧ id = .ofText? d.interactionId
  | message m =>
    d.interactionType = some inboxInteractionType ∧
      ∃ passed, m.message = .ok passed ∧ passed.messageId = .ok (.ofText? d.interactionId)
  | eventValue value => EventValue.normalize .standard value = .ok d.eventValue
  | attribution none => d.explicitSendId = .null
  | attribution (some m) =>
    ∃ passed, m.push = .ok passed ∧ passed.sendId = .ok d.explicitSendId

theorem slot_of_write {c : Call} {x : Write} (h : c.write = .ok x) : x.slot = c.slot := by
  have hinteraction {type id : Datum} (h : Write.ofInteraction type id = .ok x) :
      x.slot = .interaction := by
    obtain ⟨t, u, -, -, rfl⟩ := Write.ofInteraction_eq_ok_iff.mp h
    rfl
  cases c with
  | transactionId value =>
    obtain ⟨t, -, rfl⟩ := Except.map_eq_ok_iff.mp h
    rfl
  | interaction type id => exact hinteraction h
  | message m =>
    obtain ⟨passed, -, h⟩ := Except.bind_eq_ok_iff.mp h
    obtain ⟨id, -, h⟩ := Except.bind_eq_ok_iff.mp h
    exact hinteraction h
  | eventValue value =>
    obtain ⟨i, -, rfl⟩ := Except.map_eq_ok_iff.mp h
    rfl
  | attribution m =>
    cases m with
    | none =>
      obtain rfl := Except.ok.inj h
      rfl
    | some m =>
      obtain ⟨passed, -, h⟩ := Except.bind_eq_ok_iff.mp h
      obtain ⟨sendId, -, rfl⟩ := Except.map_eq_ok_iff.mp h
      rfl

theorem eq_some_of_checkOptional_text {field : Field} {t : Text} {o : Option Text}
    (h : checkOptional field (.text t) = .ok o) : o = some t := by
  obtain ⟨h, -⟩ := checkOptional_eq_ok_iff.mp h
  cases o with
  | none => cases h
  | some u => rw [Datum.text.inj h]

/-- A draft that holds what a call writes holds the arguments of the call. -/
theorem isHeldBy_of_write {c : Call} {d : Draft} (h : c.write = .ok (d.content c.slot)) :
    IsHeldBy d c := by
  cases c with
  | transactionId value =>
    obtain ⟨t, ht, hcontent⟩ := Except.map_eq_ok_iff.mp h
    obtain rfl := Write.transactionId.inj hcontent
    exact (checkOptional_eq_ok_iff.mp ht).1
  | interaction type id =>
    obtain ⟨t, u, ht, hu, hcontent⟩ := Write.ofInteraction_eq_ok_iff.mp h
    obtain ⟨rfl, rfl⟩ := Write.interaction.inj hcontent
    exact ⟨(checkOptional_eq_ok_iff.mp ht).1, (checkOptional_eq_ok_iff.mp hu).1⟩
  | message m =>
    obtain ⟨passed, hpassed, h⟩ := Except.bind_eq_ok_iff.mp h
    obtain ⟨id, hid, h⟩ := Except.bind_eq_ok_iff.mp h
    obtain ⟨t, u, ht, hu, hcontent⟩ := Write.ofInteraction_eq_ok_iff.mp h
    obtain ⟨htype, rfl⟩ := Write.interaction.inj hcontent
    rw [eq_some_of_checkOptional_text ht] at htype
    exact ⟨htype, passed, hpassed, (checkOptional_eq_ok_iff.mp hu).1 ▸ hid⟩
  | eventValue value =>
    obtain ⟨i, hi, hcontent⟩ := Except.map_eq_ok_iff.mp h
    obtain rfl := Write.eventValue.inj hcontent
    exact hi
  | attribution m =>
    cases m with
    | none =>
      exact (Write.attribution.inj (Except.ok.inj h)).symm
    | some m =>
      obtain ⟨passed, hpassed, h⟩ := Except.bind_eq_ok_iff.mp h
      obtain ⟨sendId, hsendId, hcontent⟩ := Except.map_eq_ok_iff.mp h
      obtain rfl := Write.attribution.inj hcontent
      exact ⟨passed, hpassed, hsendId⟩

/-! ## After some calls -/

variable (c : Call) (d : Draft)

theorem blank_apply : (c.apply d).blank = d.blank := by
  unfold apply
  split
  · exact Draft.blank_apply ..
  · rfl

theorem blank_applyAll (cs : List Call) : (applyAll cs d).blank = d.blank := by
  induction cs generalizing d with
  | nil => rfl
  | cons c cs ih => exact (ih _).trans (c.blank_apply d)

theorem finalized_apply : (c.apply d).finalized = d.finalized := by
  unfold apply
  split
  · exact Draft.finalized_apply ..
  · rfl

theorem finalized_applyAll (cs : List Call) : (applyAll cs d).finalized = d.finalized :=
  (congrArg Draft.finalized (blank_applyAll d cs) :)

theorem lastFor_append_one (s : Slot) (cs : List Call) :
    lastFor s (cs ++ [c]) = if c.writes s then some c else lastFor s cs := by
  unfold lastFor
  rw [List.filter_append]
  split
  · next h => rw [List.filter_cons_of_pos h, List.filter_nil, List.getLast?_concat]
  · next h => rw [List.filter_cons_of_neg h, List.filter_nil, List.append_nil]

/-- After some calls each slot holds what the last accepted call for it has written. -/
theorem content_applyAll (s : Slot) (cs : List Call) :
    match lastFor s cs with
    | some c => c.slot = s ∧ c.write = .ok ((applyAll cs d).content s)
    | none => (applyAll cs d).content s = d.content s := by
  -- From the end, since the last call decides.
  induction cs using List.reverseRecOn with
  | nil => rfl
  | append_singleton cs c ih =>
    have hlast : applyAll (cs ++ [c]) d = c.apply (applyAll cs d) := by
      rw [applyAll, List.foldl_append]
      rfl
    rw [lastFor_append_one, hlast, apply, writes, isAccepted]
    cases hwrite : c.write with
    | error fault => exact ih
    | ok x =>
      have hslot := slot_of_write hwrite
      dsimp only
      rw [content_apply, hslot]
      by_cases hs : c.slot = s
      · simp [Except.isOk, Except.toBool, hs, hwrite]
      · simpa [Except.isOk, Except.toBool, hs] using ih

/-- Calls that agree in the last accepted one for each slot make the same draft. -/
theorem applyAll_congr {cs cs' : List Call} (h : ∀ s, lastFor s cs = lastFor s cs') :
    applyAll cs d = applyAll cs' d := by
  refine eq_of_content ((blank_applyAll d cs).trans (blank_applyAll d cs').symm) fun s => ?_
  have hcontent := content_applyAll d s cs
  have hcontent' := content_applyAll d s cs'
  rw [h s] at hcontent
  cases hlast : lastFor s cs' with
  | none =>
    rw [hlast] at hcontent hcontent'
    exact hcontent.trans hcontent'.symm
  | some c =>
    rw [hlast] at hcontent hcontent'
    exact Except.ok.inj (hcontent.2.symm.trans hcontent'.2)

end Call

end Draft

end Telemetry
