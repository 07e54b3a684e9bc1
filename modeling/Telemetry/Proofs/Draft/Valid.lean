import Telemetry.Proofs.Draft.Write
import Telemetry.Proofs.EventRecord.Valid
import Telemetry.Proofs.EventValue.Exact
import Telemetry.Proofs.Result

/-!
# Drafts whose fields fit

A draft checks every field when it is set, and the model of records checks all of them again. The
two layers agree at every bound: `Draft.Valid` holds of a new draft (`Draft.valid_of_ofName`), what
a setter writes keeps it (`Draft.Valid.apply`), and it is just what the model asks for
(`Draft.record_eq_ok_iff`).
-/

namespace Telemetry

namespace Draft

/-- What holds of a draft at any time. -/
structure Valid (d : Draft) : Prop where
  eventName : d.eventName.IsEventName
  eventValue : ∀ i ∈ d.eventValue, EventValue.IsStored i
  transactionId : ∀ t ∈ d.transactionId, t.FitsField
  interactionId : ∀ t ∈ d.interactionId, t.FitsField
  interactionType : ∀ t ∈ d.interactionType, t.FitsField

/-- The send id that was set is a text, or none was set. -/
def HasTextSendId (d : Draft) : Prop := ∃ t : Option Text, d.explicitSendId = .ofText? t

/-! ## The checks of a draft -/

theorem checkLength_eq_ok_iff {field : Field} {t t' : Text} :
    checkLength field t = .ok t' ↔ t.FitsField ∧ t' = t := by
  unfold checkLength Text.FitsField
  split
  · next h => simp [Nat.not_le.mpr h]
  · next h => simp [Nat.not_lt.mp h, eq_comm]

theorem checkOptional_eq_ok_iff {field : Field} {d : Datum} {o : Option Text} :
    checkOptional field d = .ok o ↔ d = .ofText? o ∧ ∀ t ∈ o, t.FitsField := by
  unfold checkOptional
  split
  · cases o <;> simp [Datum.ofText?]
  · next t =>
    rw [Except.map_eq_ok_iff]
    simp only [checkLength_eq_ok_iff]
    cases o <;> grind [Datum.ofText?]
  · cases o <;> simp_all [Datum.ofText?]

theorem checkRequired_eq_ok_iff {field : Field} {d : Datum} {t : Text} :
    checkRequired field d = .ok t ↔ d = .text t ∧ t.IsEventName := by
  unfold checkRequired Text.IsEventName
  split
  · simp
  · next t' =>
    split
    · next h => grind
    · next h =>
      rw [checkLength_eq_ok_iff]
      grind
  · simp_all

/-! ## New drafts and setters -/

/-- A new draft has the name it was given and nothing else. -/
theorem ofName_eq_ok_iff {name : Datum} {service : Option ServiceId}
    {resolver : Option SourcesId} {d : Draft} :
    ofName name service resolver = .ok d ↔
      name = .text d.eventName ∧ d.eventName.IsEventName ∧ d.service = service ∧
        d.resolver = resolver ∧ d.finalized = false ∧ d.blank = d := by
  unfold ofName
  cases hcheck : checkRequired .eventName name with
  | error fault =>
    refine ⟨nofun, fun ⟨hname, hfits, _⟩ => ?_⟩
    rw [checkRequired_eq_ok_iff.mpr ⟨hname, hfits⟩] at hcheck
    cases hcheck
  | ok eventName =>
    obtain ⟨rfl, hfits⟩ := checkRequired_eq_ok_iff.mp hcheck
    constructor
    · rintro ⟨⟩
      exact ⟨rfl, hfits, rfl, rfl, rfl, rfl⟩
    · rintro ⟨hname, -, rfl, rfl, hopen, hblank⟩
      rw [← hblank]
      obtain rfl := Datum.text.inj hname
      simp [blank, hopen]

theorem valid_of_ofName {name : Datum} {service : Option ServiceId}
    {resolver : Option SourcesId} {d : Draft} (h : ofName name service resolver = .ok d) :
    d.Valid := by
  obtain ⟨-, hname, -, -, -, hblank⟩ := ofName_eq_ok_iff.mp h
  rw [← hblank]
  exact ⟨hname, nofun, nofun, nofun, nofun⟩

namespace Write

/-- What a write puts into its slot fits. -/
def Fits : Write → Prop
  | transactionId t => ∀ u ∈ t, u.FitsField
  | interaction type id => (∀ u ∈ type, u.FitsField) ∧ ∀ u ∈ id, u.FitsField
  | eventValue i => ∀ j ∈ i, EventValue.IsStored j
  | attribution _ => True

variable {w : Write}

theorem fits_ofTransactionId {value : Datum} (h : ofTransactionId value = .ok w) : w.Fits := by
  obtain ⟨t, ht, rfl⟩ := Except.map_eq_ok_iff.mp h
  exact (checkOptional_eq_ok_iff.mp ht).2

theorem ofInteraction_eq_ok_iff {type id : Datum} :
    ofInteraction type id = .ok w ↔
      ∃ t u, checkOptional .interactionType type = .ok t ∧
        checkOptional .interactionId id = .ok u ∧ w = interaction t u := by
  unfold ofInteraction
  simp only [Except.bind_eq_ok_iff]
  constructor
  · rintro ⟨t, ht, u, hu, ⟨⟩⟩
    exact ⟨t, u, ht, hu, rfl⟩
  · rintro ⟨t, u, ht, hu, rfl⟩
    exact ⟨t, ht, u, hu, rfl⟩

theorem fits_ofInteraction {type id : Datum} (h : ofInteraction type id = .ok w) : w.Fits := by
  obtain ⟨t, u, ht, hu, rfl⟩ := ofInteraction_eq_ok_iff.mp h
  exact ⟨(checkOptional_eq_ok_iff.mp ht).2, (checkOptional_eq_ok_iff.mp hu).2⟩

theorem fits_ofEventValue {value : Datum} (h : ofEventValue value = .ok w) : w.Fits := by
  obtain ⟨i, hi, rfl⟩ := Except.map_eq_ok_iff.mp h
  rintro j rfl
  exact EventValue.mem_of_normalize hi

theorem fits_ofPush {m : Option (MessageArgument PushMessage)} (h : ofPush m = .ok w) : w.Fits := by
  cases m with
  | none =>
    obtain rfl := Except.ok.inj h
    trivial
  | some m =>
    obtain ⟨sendId, -, rfl⟩ := Except.map_eq_ok_iff.mp h
    trivial

end Write

theorem Valid.apply {d : Draft} (h : d.Valid) {w : Write} (hw : w.Fits) :
    (w.apply d).Valid := by
  cases w with
  | transactionId t => exact { h with transactionId := hw }
  | interaction type id => exact { h with interactionType := hw.1, interactionId := hw.2 }
  | eventValue i => exact { h with eventValue := hw }
  | attribution sendId => exact { h with }

/-! ## The record of a draft -/

/-- The record with the fields of a draft and the send ids of an attribution. -/
def toRecord (d : Draft) (a : Attribution) (freshId : Text) (now : Binary64) : EventRecord where
  eventName := d.eventName
  eventValue := d.eventValue
  transactionId := d.transactionId
  interactionId := d.interactionId
  interactionType := d.interactionType
  conversionSendId := a.conversionSendId
  lastReceivedSendId := a.lastReceivedSendId
  eventId := freshId
  ts := now

/-- The model of records accepts a draft just if it is valid, and takes its fields as they are. -/
theorem record_eq_ok_iff {d : Draft} {a : Attribution} {freshId : Text} {now : Binary64}
    {r : EventRecord} :
    d.record a freshId now = .ok r ↔
      d.Valid ∧ (a.conversionSendId = none ∨ a.lastReceivedSendId = none) ∧
        r = d.toRecord a freshId now := by
  unfold record
  rw [Except.mapError_eq_ok_iff, EventRecord.ofFields_eq_ok_iff]
  simp only [Reading.field_eq_ok_iff, fields, Option.elim,
    EventRecord.readName_text_eq_ok_iff, EventRecord.readValue_ofInt?_eq_ok_iff,
    EventRecord.readBounded_ofText?_eq_ok_iff, EventRecord.optional_ofText?]
  obtain ⟨⟩ := r
  constructor
  · rintro ⟨⟨hname, rfl⟩, ⟨hvalue, rfl⟩, ⟨htransaction, rfl⟩, ⟨hid, rfl⟩, ⟨htype, rfl⟩, ⟨⟩, ⟨⟩,
      ⟨⟩, ⟨⟩, hsendIds⟩
    exact ⟨⟨hname, hvalue, htransaction, hid, htype⟩, hsendIds, rfl⟩
  · rintro ⟨h, hsendIds, ⟨⟩⟩
    exact ⟨⟨h.eventName, rfl⟩, ⟨h.eventValue, rfl⟩, ⟨h.transactionId, rfl⟩, ⟨h.interactionId, rfl⟩,
      ⟨h.interactionType, rfl⟩, rfl, rfl, rfl, rfl, hsendIds⟩

theorem Valid.toRecord {d : Draft} (h : d.Valid) {a : Attribution}
    (hsendIds : a.conversionSendId = none ∨ a.lastReceivedSendId = none) (freshId : Text)
    (now : Binary64) : (d.toRecord a freshId now).Valid where
  eventName := h.eventName
  eventValue := h.eventValue
  transactionId := h.transactionId
  interactionId := h.interactionId
  interactionType := h.interactionType
  sendIds := hsendIds

end Draft

end Telemetry
