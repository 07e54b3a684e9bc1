import Telemetry.Proofs.EventValue.Outcome
import Telemetry.Proofs.Metrics
import Telemetry.Proofs.World.Drafts

/-!
# What becomes of a refused event value

Setting the event value of an open draft stores what is made of the value, or fails and leaves all
drafts alone (`World.valueEnds_setEventValue`). Which of the two happens is decided by the kind of
the value and by its number (`EventValue.StoredForm`, `EventValue.Refusal`). A refusal is counted
once, under its field and class, its entry is made once if the level lets it pass, and nothing else
happens to the world (`World.Reported`). The fault for a value of another kind leaves no trace.

An integer that is too long to be written is the one exception: the wording of its refusal fails,
and that fault takes the place of the refusal (`World.setEventValue_of_isUnwritableInt`).
-/

namespace Telemetry

namespace World

/-- A rejection was counted once, its entry was made if such entries are, and nothing else
happened. -/
structure Reported (w : World) (r : Rejection) (w' : World) : Prop where
  journal : w'.journal =
    w.journal ++ w.logging.made (.validationFailed r.field r.kind r.message)
  counts : ∀ field kind, w'.metrics.rejections.count (field, kind) =
    w.metrics.rejections.count (field, kind) +
      if (r.field.key, r.kind.name) = (field, kind) then 1 else 0
  logging : w'.logging.Agrees w.logging
  others : w' = { w with journal := w'.journal, logging := w'.logging,
                         metrics := { w.metrics with rejections := w'.metrics.rejections } }

theorem reported_reported (w : World) (r : Rejection) : w.Reported r (w.reported r) :=
  ⟨rfl, fun _ _ => w.metrics.rejections.count_add .., w.logging.agrees_use _, rfl⟩

/-- How setting the event value of an open draft ends, unless the value is an integer that is too
long to be written. -/
inductive ValueEnds (w : World) (id : DraftId) (d : Draft) (value : Datum) :
    Except Fault Outcome × World → Prop where
  | stored (hkind : value.IsEventValueKind) {o : Option Int} (h : EventValue.StoredForm value o) :
    ValueEnds w id d value (.ok .done, w.withDraft id { d with eventValue := o })
  | otherKind (hkind : ¬value.IsEventValueKind) :
    ValueEnds w id d value (.error (.notNumber value.kindName), w)
  | refused (hkind : value.IsEventValueKind) {r : Rejection} {w' : World}
    (hfield : r.field = .eventValue) (hvalue : r.value = value)
    (h : EventValue.Refusal value r.kind) (hreported : w.Reported r w') :
    ValueEnds w id d value (.error (.rejected r), w')

variable {w : World} {id : DraftId} {d : Draft}

theorem step_setEventValue (hd : w.drafts.get? id = some d) (hopen : d.finalized = false)
    (value : Datum) :
    w.step (.setEventValue id value) =
      match EventValue.normalize .standard value with
      | .ok o => (.ok .done, w.withDraft id { d with eventValue := o })
      | .error fault => (.error fault, w.afterReport (.error fault : Except Fault Draft)) := by
  have hwrite : (Step.setEventValue id value).write? = some (id, Draft.Write.ofEventValue value) :=
    rfl
  rw [w.step_of_write? hwrite, hd]
  dsimp only
  rw [Draft.put_of_open hopen, Draft.Write.ofEventValue]
  cases EventValue.normalize .standard value <;> rfl

/--
Whatever is passed but an integer that is too long to be written, setting the event value of an open
draft stores what is made of the value, or it fails: for a value of another kind than a number, and
of another kind only, without a trace; for a value that is no number, or whose number is beyond the
range, with a refusal that names the field and carries the value. The refusal is counted once, and
its entry is made once or, if its severity is below the level, not at all.
-/
theorem valueEnds_setEventValue (hd : w.drafts.get? id = some d) (hopen : d.finalized = false)
    {value : Datum} (hwritable : ¬value.IsUnwritableInt) :
    ValueEnds w id d value (w.step (.setEventValue id value)) := by
  have hends := EventValue.normalize_ends .standard value
  rw [step_setEventValue hd hopen]
  generalize EventValue.normalize .standard value = result at hends ⊢
  cases hends with
  | stored hkind _ h => exact .stored hkind h
  | otherKind hkind => exact .otherKind hkind
  | refused hkind _ hfield hvalue h =>
    exact .refused hkind hfield hvalue h (w.reported_reported _)
  | unwritable h => exact absurd h hwritable

/-- A word is refused as no number, and one such refusal is counted. -/
theorem valueEnds_setEventValue_word :
    let host : Host := ⟨fun _ => "event", fun _ => "session", fun _ => Binary64.zero false⟩
    let w := (fresh host ⟨[], none⟩).run [.openDraft ⟨0⟩ (.text "purchase") none none]
    ∃ d, w.drafts.get? ⟨0⟩ = some d ∧ d.finalized = false ∧
      ValueEnds w ⟨0⟩ d (.text "abc") (w.step (.setEventValue ⟨0⟩ (.text "abc"))) ∧
      (w.step (.setEventValue ⟨0⟩ (.text "abc"))).2.metrics.rejections.counts =
        [((Field.eventValue.key, RejectionClass.notANumber.name), 1)] := by
  intro host w
  exact ⟨_, rfl, rfl, valueEnds_setEventValue rfl rfl id, rfl⟩

/-- With the level above that of refusals, one is counted and no entry is made of it. -/
theorem refusal_without_entry :
    let host : Host := ⟨fun _ => "event", fun _ => "session", fun _ => Binary64.zero false⟩
    let w := (fresh host ⟨[("CUSTOM_EVENTS_LOG_LEVEL", "error")], none⟩).run
      [.start (.named 0) none none none, .openDraft ⟨0⟩ (.text "purchase") none none]
    let w' := (w.step (.setEventValue ⟨0⟩ (.text "abc"))).2
    (w.step (.setEventValue ⟨0⟩ (.text "abc"))).1 =
        .error (.rejected ⟨.eventValue, .text "abc", .notANumber⟩) ∧
      w'.metrics.rejections.counts =
        [((Field.eventValue.key, RejectionClass.notANumber.name), 1)] ∧
      w.journal.length = 0 ∧ w'.journal.length = 0 := by
  exact ⟨rfl, by decide +kernel⟩

/--
The refusal of an integer that is too long to be written ends in another fault: the value is of the
right kind and beyond the range, and it is not stored, but nothing is logged or counted of it.
-/
theorem setEventValue_of_isUnwritableInt (hd : w.drafts.get? id = some d)
    (hopen : d.finalized = false) {i : Int} (h : (Datum.int i).IsUnwritableInt) :
    ¬EventValue.InRange i ∧ w.step (.setEventValue id (.int i)) = (.error .longInt, w) := by
  refine ⟨EventValue.not_inRange_of_isLongInt h, ?_⟩
  rw [step_setEventValue hd hopen, EventValue.normalize_of_isUnwritableInt _ h]
  rfl

end World

end Telemetry
