import Telemetry.EventRecord
import Telemetry.Proofs.Result

/-!
# Records whose fields fit

`EventRecord.Valid` is what the model of records promises of a record.
`EventRecord.ofFields_eq_ok_iff` opens the model once: a record is made if and only if every field
reads as that of the record and not both send ids are set. The lemmas before it say what the readers
make of fields that are texts, integers or nothing already, as those of a draft are. The lemmas
after it say that nothing else gets past the readers, so that every record is valid
(`EventRecord.valid_of_ofFields`).
-/

namespace Telemetry

/-- The text is no longer than a field may be. -/
def Text.FitsField (t : Text) : Prop := t.fieldLength ≤ Field.maxLength

/-- The text may be the name of an event: it has between 1 and 255 code units. -/
def Text.IsEventName (t : Text) : Prop := 1 ≤ t.fieldLength ∧ t.FitsField

/-- The integer is the stored form of an event value. -/
def EventValue.IsStored (i : Int) : Prop := minStored ≤ i ∧ i ≤ maxStored

instance (t : Text) : Decidable t.FitsField := inferInstanceAs (Decidable (_ ≤ _))

instance (t : Text) : Decidable t.IsEventName := inferInstanceAs (Decidable (_ ∧ _))

instance (i : Int) : Decidable (EventValue.IsStored i) := inferInstanceAs (Decidable (_ ∧ _))

theorem Reading.field_eq_ok_iff {α : Type} {name : Text} {absent : Except ProblemKind α}
    {read : Datum → Except ProblemKind α} {d : Option Datum} {x : α} :
    field name absent read d = .ok x ↔ d.elim absent read = .ok x := by
  unfold field
  cases d <;> exact Except.mapError_eq_ok_iff

namespace EventRecord

/-- What holds of every record that the model lets pass. -/
structure Valid (r : EventRecord) : Prop where
  eventName : r.eventName.IsEventName
  eventValue : ∀ i ∈ r.eventValue, EventValue.IsStored i
  transactionId : ∀ t ∈ r.transactionId, t.FitsField
  interactionId : ∀ t ∈ r.interactionId, t.FitsField
  interactionType : ∀ t ∈ r.interactionType, t.FitsField
  /-- At most one send id is set. -/
  sendIds : r.conversionSendId = none ∨ r.lastReceivedSendId = none

/-! ## Reading fields that are read already -/

theorem checkLength_eq_ok_iff {field : Field} {t t' : Text} :
    checkLength field t = .ok t' ↔ t.FitsField ∧ t' = t := by
  unfold checkLength Text.FitsField
  split
  · next h => simp [Nat.not_le.mpr h]
  · next h => simp [Nat.not_lt.mp h, eq_comm]

theorem readName_text_eq_ok_iff {t t' : Text} :
    readName (.text t) = .ok t' ↔ t.IsEventName ∧ t' = t := by
  unfold readName Reading.text Text.IsEventName
  dsimp only
  split
  · next h => simp [h]
  · next h => rw [checkLength_eq_ok_iff, and_iff_right (Nat.one_le_iff_ne_zero.mpr h)]

theorem optional_ofText? (o : Option Text) :
    Reading.optional Reading.text (.ofText? o) = .ok o := by
  cases o <;> rfl

theorem readBounded_ofText?_eq_ok_iff {field : Field} {o o' : Option Text} :
    readBounded field (.ofText? o) = .ok o' ↔ (∀ t ∈ o, t.FitsField) ∧ o' = o := by
  unfold readBounded
  rw [optional_ofText?]
  cases o with
  | none => simp [eq_comm]
  | some t =>
    dsimp only
    rw [Except.map_eq_ok_iff]
    simp only [checkLength_eq_ok_iff]
    grind

theorem readValue_ofInt?_eq_ok_iff {o o' : Option Int} :
    readValue (.ofInt? o) = .ok o' ↔ (∀ i ∈ o, EventValue.IsStored i) ∧ o' = o := by
  cases o with
  | none => simp [readValue, Reading.optional, Datum.ofInt?, eq_comm]
  | some i =>
    show (if EventValue.IsStored i then Except.ok (some i)
      else Except.error ProblemKind.valueOutOfRange) = _ ↔ _
    split
    · next h => simp [h, eq_comm]
    · next h => simp [h]

/-! ## What the model makes of its fields -/

/-- A record is made exactly of fields that read as its own, and of one send id at most. -/
theorem ofFields_eq_ok_iff {freshId : Text} {now : Binary64} {f : RecordFields}
    {r : EventRecord} :
    ofFields freshId now f = .ok r ↔
      Reading.field Field.eventName.key (.error .missing) readName f.eventName =
        .ok r.eventName ∧
      Reading.field Field.eventValue.key (.ok none) readValue f.eventValue = .ok r.eventValue ∧
      Reading.field Field.transactionId.key (.ok none) (readBounded .transactionId)
        f.transactionId = .ok r.transactionId ∧
      Reading.field Field.interactionId.key (.ok none) (readBounded .interactionId)
        f.interactionId = .ok r.interactionId ∧
      Reading.field Field.interactionType.key (.ok none) (readBounded .interactionType)
        f.interactionType = .ok r.interactionType ∧
      Reading.field Field.conversionSendId.key (.ok none) (Reading.optional Reading.text)
        f.conversionSendId = .ok r.conversionSendId ∧
      Reading.field Field.lastReceivedSendId.key (.ok none) (Reading.optional Reading.text)
        f.lastReceivedSendId = .ok r.lastReceivedSendId ∧
      Reading.field RecordFields.eventIdKey (.ok freshId) Reading.text f.eventId =
        .ok r.eventId ∧
      Reading.field RecordFields.tsKey (.ok now) Reading.float f.ts = .ok r.ts ∧
      (r.conversionSendId = none ∨ r.lastReceivedSendId = none) := by
  unfold ofFields
  dsimp only
  -- The match looks at the fields in order, so they are split in that order.
  generalize Reading.field Field.eventName.key _ _ _ = eventName
  generalize Reading.field Field.eventValue.key _ _ _ = eventValue
  generalize Reading.field Field.transactionId.key _ _ _ = transactionId
  generalize Reading.field Field.interactionId.key _ _ _ = interactionId
  generalize Reading.field Field.interactionType.key _ _ _ = interactionType
  generalize Reading.field Field.conversionSendId.key _ _ _ = conversionSendId
  generalize Reading.field Field.lastReceivedSendId.key _ _ _ = lastReceivedSendId
  generalize Reading.field RecordFields.eventIdKey _ _ _ = eventId
  generalize Reading.field RecordFields.tsKey _ _ _ = ts
  obtain p | eventName := eventName
  · simp
  obtain p | eventValue := eventValue
  · simp
  obtain p | transactionId := transactionId
  · simp
  obtain p | interactionId := interactionId
  · simp
  obtain p | interactionType := interactionType
  · simp
  obtain p | conversionSendId := conversionSendId
  · simp
  obtain p | lastReceivedSendId := lastReceivedSendId
  · simp
  obtain p | eventId := eventId
  · simp
  obtain p | ts := ts
  · simp
  obtain ⟨⟩ := r
  cases conversionSendId <;> cases lastReceivedSendId <;> simp <;> grind

/-! ## Whatever is read fits -/

theorem isEventName_of_readName {d : Datum} {t : Text} (h : readName d = .ok t) :
    t.IsEventName := by
  unfold readName at h
  split at h
  · cases h
  · next t' _ =>
    obtain ⟨hname, rfl⟩ := readName_text_eq_ok_iff.mp (show readName (.text t') = .ok t from h)
    exact hname

theorem fitsField_of_readBounded {field : Field} {d : Datum} {o : Option Text}
    (h : readBounded field d = .ok o) : ∀ t ∈ o, t.FitsField := by
  unfold readBounded at h
  split at h
  · cases h
  · cases h
    simp
  · obtain ⟨t, ht, rfl⟩ := Except.map_eq_ok_iff.mp h
    obtain ⟨hfits, rfl⟩ := checkLength_eq_ok_iff.mp ht
    simpa using hfits

theorem isStored_of_readValue {d : Datum} {o : Option Int} (h : readValue d = .ok o) :
    ∀ i ∈ o, EventValue.IsStored i := by
  unfold readValue at h
  split at h
  · cases h
  · cases h
    simp
  · split at h
    · next hstored =>
      cases h
      rintro i ⟨⟩
      exact hstored
    · cases h

/-- Every record that the model lets pass is valid. -/
theorem valid_of_ofFields {freshId : Text} {now : Binary64} {f : RecordFields} {r : EventRecord}
    (h : ofFields freshId now f = .ok r) : r.Valid := by
  obtain ⟨hname, hvalue, htransaction, hinteraction, htype, -, -, -, -, hsend⟩ :=
    ofFields_eq_ok_iff.mp h
  rw [Reading.field_eq_ok_iff] at hname hvalue htransaction hinteraction htype
  have hbounded {field : Field} {d : Option Datum} {o : Option Text}
      (h : d.elim (.ok none) (readBounded field) = .ok o) : ∀ t ∈ o, t.FitsField := by
    cases d with
    | none =>
      cases h
      simp
    | some d => exact fitsField_of_readBounded h
  refine ⟨?_, ?_, hbounded htransaction, hbounded hinteraction, hbounded htype, hsend⟩
  · cases hd : f.eventName with
    | none => simp [hd] at hname
    | some d => exact isEventName_of_readName (by simpa [hd] using hname)
  · cases hd : f.eventValue with
    | none =>
      have hnone : none = r.eventValue := by simpa [hd] using hvalue
      simp [← hnone]
    | some d => exact isStored_of_readValue (by simpa [hd] using hvalue)

end EventRecord

end Telemetry
