import Telemetry.Draft
import Telemetry.Proofs.Result

/-!
# Setters as writes

A setter first makes a `Draft.Write` of its arguments, which does not depend on the draft, and then
stores it in one of four slots; the type and the id of an interaction share a slot.

* `Draft.setTransactionId_eq` and its neighbours: every setter is `Draft.put` of a write, once the id
  of a message was looked up.
* `Draft.content_apply`: a write replaces what its slot holds and leaves the other slots alone.
* `Draft.eq_of_content`: a draft is known by what its slots hold and by what no setter changes.
-/

namespace Telemetry

/-- An id that cannot be looked up is no fault of a draft. -/
theorem MessageArgument.exists_failure_of_messageId {m : MessageArgument InboxMessage}
    {fault : Fault} (h : m.messageId = .error fault) :
    ∃ f : Failure, fault = f.fault "message_id" := by
  cases m with
  | message m => cases h
  | other id =>
    cases id with
    | error f => exact ⟨f, (Except.error.inj h).symm⟩
    | ok id => cases h

namespace Draft

/-- A part of a draft that is written as a whole. -/
inductive Slot where
  | transactionId
  | interaction
  | eventValue
  | attribution
  deriving DecidableEq

/-- What goes into a slot. -/
inductive Write where
  | transactionId (t : Option Text)
  | interaction (type id : Option Text)
  | eventValue (i : Option Int)
  | attribution (sendId : Datum)

namespace Write

/-- The slot that is written. -/
def slot : Write → Slot
  | transactionId _ => .transactionId
  | interaction .. => .interaction
  | eventValue _ => .eventValue
  | attribution _ => .attribution

/-- The draft with the slot written. -/
def apply : Write → Draft → Draft
  | transactionId t, d => { d with transactionId := t }
  | interaction type id, d => { d with interactionType := type, interactionId := id }
  | eventValue i, d => { d with eventValue := i }
  | attribution sendId, d => { d with explicitSendId := sendId }

/-- Nothing, in a slot. -/
def nothing : Slot → Write
  | .transactionId => transactionId none
  | .interaction => interaction none none
  | .eventValue => eventValue none
  | .attribution => attribution .null

/-! ## Writes that setters make of their arguments -/

/-- The write of a transaction id. -/
def ofTransactionId (value : Datum) : Except Fault Write :=
  (checkOptional .transactionId value).map transactionId

/-- The write of an interaction; its type is checked first. -/
def ofInteraction (type id : Datum) : Except Fault Write := do
  let type ← checkOptional .interactionType type
  let id ← checkOptional .interactionId id
  return interaction type id

/-- The write of an interaction with the inbox message of an id. -/
def ofMessageId (messageId : Datum) : Except Fault Write :=
  ofInteraction (.text inboxInteractionType) messageId

/-- The write of an event value. -/
def ofEventValue (value : Datum) : Except Fault Write :=
  (EventValue.normalize .standard value).map eventValue

/-- The write of an attribution to a push, or to none. -/
def ofPush : Option (MessageArgument PushMessage) → Except Fault Write
  | some m => m.sendId.map attribution
  | none => .ok (attribution .null)

end Write

/-- What a slot of a draft holds. -/
def content (d : Draft) : Slot → Write
  | .transactionId => .transactionId d.transactionId
  | .interaction => .interaction d.interactionType d.interactionId
  | .eventValue => .eventValue d.eventValue
  | .attribution => .attribution d.explicitSendId

/-- The draft with nothing written. -/
def blank (d : Draft) : Draft :=
  { d with eventValue := none, transactionId := none, interactionId := none,
           interactionType := none, explicitSendId := .null }

/-- Stores a write, if there is one and the draft is open. -/
def put (d : Draft) (write : Except Fault Write) : Except Fault Draft :=
  if d.finalized then .error .finalized else write.map fun w => w.apply d

theorem put_of_open {d : Draft} (hopen : d.finalized = false) (write : Except Fault Write) :
    d.put write = write.map fun w => w.apply d := by
  rw [put, if_neg (by simp [hopen])]

theorem put_eq_ok_iff {d d' : Draft} {write : Except Fault Write} :
    d.put write = .ok d' ↔ d.finalized = false ∧ ∃ w, write = .ok w ∧ w.apply d = d' := by
  unfold put
  cases d.finalized with
  | true => simp
  | false => simp [Except.map_eq_ok_iff]

/-! ## Every setter stores a write -/

section

variable (d : Draft)

theorem setTransactionId_eq (value : Datum) :
    d.setTransactionId value = d.put (Write.ofTransactionId value) := by
  unfold setTransactionId ensureOpen put Write.ofTransactionId
  cases d.finalized with
  | true => rfl
  | false => cases checkOptional .transactionId value <;> rfl

theorem setInteraction_eq (type id : Datum) :
    d.setInteraction type id = d.put (Write.ofInteraction type id) := by
  unfold setInteraction ensureOpen put Write.ofInteraction
  cases d.finalized with
  | true => rfl
  | false =>
    cases checkOptional .interactionType type with
    | error fault => rfl
    | ok type => cases checkOptional .interactionId id <;> rfl

/-- The id of a message is looked up even if the draft is no longer open. -/
theorem setInteractionFromMessage_eq (m : MessageArgument InboxMessage) :
    d.setInteractionFromMessage m = m.messageId >>= fun id => d.put (Write.ofMessageId id) := by
  unfold setInteractionFromMessage
  cases m.messageId with
  | error fault => rfl
  | ok id => exact d.setInteraction_eq ..

theorem setEventValue_eq (value : Datum) :
    d.setEventValue value = d.put (Write.ofEventValue value) := by
  unfold setEventValue ensureOpen put Write.ofEventValue
  cases d.finalized with
  | true => rfl
  | false => cases EventValue.normalize .standard value <;> rfl

theorem setAttribution_eq (m : Option (MessageArgument PushMessage)) :
    d.setAttribution m = d.put (Write.ofPush m) := by
  unfold setAttribution ensureOpen put Write.ofPush
  cases d.finalized with
  | true => rfl
  | false =>
    cases m with
    | none => rfl
    | some m =>
      show (m.sendId >>= fun sendId => pure { d with explicitSendId := sendId }) =
        (m.sendId.map Write.attribution).map fun w => w.apply d
      cases m.sendId <;> rfl

end

/-! ## What the slots hold -/

theorem content_blank (d : Draft) (s : Slot) : d.blank.content s = .nothing s := by
  cases s <;> rfl

theorem content_apply (w : Write) (d : Draft) (s : Slot) :
    (w.apply d).content s = if w.slot = s then w else d.content s := by
  cases w <;> cases s <;> rfl

@[simp] theorem blank_apply (w : Write) (d : Draft) : (w.apply d).blank = d.blank := by
  cases w <;> rfl

@[simp] theorem finalized_apply (w : Write) (d : Draft) :
    (w.apply d).finalized = d.finalized := by
  cases w <;> rfl

theorem blank_of_put {d d' : Draft} {write : Except Fault Write} (h : d.put write = .ok d') :
    d'.blank = d.blank := by
  obtain ⟨-, w, -, rfl⟩ := put_eq_ok_iff.mp h
  exact blank_apply w d

/-- Two drafts that no setter tells apart, neither by their slots nor by the rest, are the same. -/
theorem eq_of_content {d d' : Draft} (hblank : d.blank = d'.blank)
    (hcontent : ∀ s, d.content s = d'.content s) : d = d' := by
  have htransaction := Write.transactionId.inj (hcontent .transactionId)
  have hinteraction := Write.interaction.inj (hcontent .interaction)
  have hvalue := Write.eventValue.inj (hcontent .eventValue)
  have hsendId := Write.attribution.inj (hcontent .attribution)
  obtain ⟨htype, hid⟩ := hinteraction
  cases d
  cases d'
  simp_all [blank]

end Draft

end Telemetry
