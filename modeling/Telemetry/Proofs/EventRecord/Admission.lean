import Telemetry.Proofs.EventRecord.Valid

/-!
# What the model of records admits

The fields of a record are read one by one, and only the send ids are looked at together. So
replacing one of the other fields in what is admitted is a matter of this field alone, and fields
that are texts, integers or nothing are admitted just if they are those of a valid record, which has
them as they are (`FieldValues.ofFields_eq_ok_iff`).
-/

namespace Telemetry

namespace EventRecord

variable {freshId : Text} {now : Binary64} {f : RecordFields}

/-- The model of records lets the fields pass. -/
def Admits (freshId : Text) (now : Binary64) (f : RecordFields) : Prop :=
  ∃ r, ofFields freshId now f = .ok r

/-- Both send ids can be read, and one of them at most is set. -/
def AtMostOne (conversion lastReceived : Option Datum) : Prop :=
  ∃ c l, conversion.elim (.ok none) (Reading.optional Reading.text) = .ok c ∧
    lastReceived.elim (.ok none) (Reading.optional Reading.text) = .ok l ∧ (c = none ∨ l = none)

/-- The fields are admitted if each of them can be read and not both send ids are set. -/
theorem admits_iff : Admits freshId now f ↔
    (∃ t, f.eventName.elim (.error .missing) readName = .ok t) ∧
    (∃ i, f.eventValue.elim (.ok none) readValue = .ok i) ∧
    (∃ t, f.transactionId.elim (.ok none) (readBounded .transactionId) = .ok t) ∧
    (∃ t, f.interactionId.elim (.ok none) (readBounded .interactionId) = .ok t) ∧
    (∃ t, f.interactionType.elim (.ok none) (readBounded .interactionType) = .ok t) ∧
    AtMostOne f.conversionSendId f.lastReceivedSendId ∧
    (∃ t, f.eventId.elim (.ok freshId) Reading.text = .ok t) ∧
    ∃ x, f.ts.elim (.ok now) Reading.float = .ok x := by
  unfold Admits
  simp only [ofFields_eq_ok_iff, Reading.field_eq_ok_iff]
  constructor
  · rintro ⟨r, hname, hvalue, htransaction, hid, htype, hconversion, hlast, heventId, hts, hone⟩
    exact ⟨⟨_, hname⟩, ⟨_, hvalue⟩, ⟨_, htransaction⟩, ⟨_, hid⟩, ⟨_, htype⟩,
      ⟨_, _, hconversion, hlast, hone⟩, ⟨_, heventId⟩, ⟨_, hts⟩⟩
  · rintro ⟨⟨eventName, hname⟩, ⟨eventValue, hvalue⟩, ⟨transactionId, htransaction⟩,
      ⟨interactionId, hid⟩, ⟨interactionType, htype⟩,
      ⟨conversionSendId, lastReceivedSendId, hconversion, hlast, hone⟩, ⟨eventId, heventId⟩,
      ⟨ts, hts⟩⟩
    exact ⟨⟨eventName, eventValue, transactionId, interactionId, interactionType,
      conversionSendId, lastReceivedSendId, eventId, ts⟩, hname, hvalue, htransaction, hid, htype,
      hconversion, hlast, heventId, hts, hone⟩

section

variable (h : Admits freshId now f)

include h

theorem Admits.eventName_iff (t : Text) :
    Admits freshId now { f with eventName := some (.text t) } ↔ t.IsEventName := by
  rw [admits_iff] at h ⊢
  simp [h, readName_text_eq_ok_iff]

theorem Admits.eventValue_iff (o : Option Int) :
    Admits freshId now { f with eventValue := some (.ofInt? o) } ↔
      ∀ i ∈ o, EventValue.IsStored i := by
  rw [admits_iff] at h ⊢
  simp [h, readValue_ofInt?_eq_ok_iff]

theorem Admits.transactionId_iff (o : Option Text) :
    Admits freshId now { f with transactionId := some (.ofText? o) } ↔ ∀ t ∈ o, t.FitsField := by
  rw [admits_iff] at h ⊢
  simp [h, readBounded_ofText?_eq_ok_iff]

theorem Admits.interactionId_iff (o : Option Text) :
    Admits freshId now { f with interactionId := some (.ofText? o) } ↔ ∀ t ∈ o, t.FitsField := by
  rw [admits_iff] at h ⊢
  simp [h, readBounded_ofText?_eq_ok_iff]

theorem Admits.interactionType_iff (o : Option Text) :
    Admits freshId now { f with interactionType := some (.ofText? o) } ↔ ∀ t ∈ o, t.FitsField := by
  rw [admits_iff] at h ⊢
  simp [h, readBounded_ofText?_eq_ok_iff]

end

end EventRecord

/-- A text, an integer or nothing for each of the seven data fields of an event. -/
structure FieldValues where
  eventName : Option Text
  eventValue : Option Int
  transactionId : Option Text
  interactionId : Option Text
  interactionType : Option Text
  conversionSendId : Option Text
  lastReceivedSendId : Option Text

/-- What a record has in its data fields. -/
def EventRecord.values (r : EventRecord) : FieldValues where
  eventName := some r.eventName
  eventValue := r.eventValue
  transactionId := r.transactionId
  interactionId := r.interactionId
  interactionType := r.interactionType
  conversionSendId := r.conversionSendId
  lastReceivedSendId := r.lastReceivedSendId

namespace FieldValues

/-- The fields of a record that is to have these values; its identifier and its time are new. -/
def fields (v : FieldValues) : RecordFields where
  eventName := some (.ofText? v.eventName)
  eventValue := some (.ofInt? v.eventValue)
  transactionId := some (.ofText? v.transactionId)
  interactionId := some (.ofText? v.interactionId)
  interactionType := some (.ofText? v.interactionType)
  conversionSendId := some (.ofText? v.conversionSendId)
  lastReceivedSendId := some (.ofText? v.lastReceivedSendId)
  eventId := none
  ts := none

/-- A valid record is made of its values, and of no others, whatever else comes with them. -/
theorem ofFields_with_eq_ok_iff {freshId : Text} {now : Binary64} {v : FieldValues}
    {r : EventRecord} (eventId ts : Option Datum) :
    EventRecord.ofFields freshId now { v.fields with eventId, ts } = .ok r ↔
      r.values = v ∧ r.Valid ∧ eventId.elim (.ok freshId) Reading.text = .ok r.eventId ∧
        ts.elim (.ok now) Reading.float = .ok r.ts := by
  have hname : EventRecord.readName (.ofText? v.eventName) = .ok r.eventName ↔
      v.eventName = some r.eventName ∧ r.eventName.IsEventName := by
    cases v.eventName with
    | none => simp [EventRecord.readName, Datum.ofText?, Reading.text]
    | some t =>
      rw [Datum.ofText?, EventRecord.readName_text_eq_ok_iff, Option.some.injEq]
      grind
  rw [EventRecord.ofFields_eq_ok_iff]
  simp only [Reading.field_eq_ok_iff, fields, Option.elim_some, hname,
    EventRecord.readValue_ofInt?_eq_ok_iff, EventRecord.readBounded_ofText?_eq_ok_iff,
    EventRecord.optional_ofText?]
  obtain ⟨⟩ := r
  obtain ⟨⟩ := v
  constructor
  · clear hname
    rintro ⟨⟨rfl, hname⟩, ⟨hvalue, rfl⟩, ⟨htransaction, rfl⟩, ⟨hid, rfl⟩, ⟨htype, rfl⟩, ⟨⟩, ⟨⟩,
      heventId, hts, hone⟩
    exact ⟨rfl, ⟨hname, hvalue, htransaction, hid, htype, hone⟩, heventId, hts⟩
  · rintro ⟨⟨⟩, h, heventId, hts⟩
    exact ⟨⟨rfl, h.eventName⟩, ⟨h.eventValue, rfl⟩, ⟨h.transactionId, rfl⟩, ⟨h.interactionId, rfl⟩,
      ⟨h.interactionType, rfl⟩, rfl, rfl, heventId, hts, h.sendIds⟩

theorem ofFields_eq_ok_iff {freshId : Text} {now : Binary64} {v : FieldValues} {r : EventRecord} :
    EventRecord.ofFields freshId now v.fields = .ok r ↔
      r.values = v ∧ r.Valid ∧ r.eventId = freshId ∧ r.ts = now :=
  (ofFields_with_eq_ok_iff none none).trans (by simp [eq_comm])

end FieldValues

end Telemetry
