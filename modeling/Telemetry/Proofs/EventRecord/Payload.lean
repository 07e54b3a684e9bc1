import Mathlib.Data.List.Nodup
import Telemetry.Proofs.EventRecord.Admission

/-!
# The data of a payload

The data of a payload have a key for every field that is set, in the order of writing, and one for
the session behind them. The keys differ, so each field is found under its own as it is, whatever
the session (`EventRecord.lookup_payload`). Nothing is lost, then: made of these data anew, with its
identifier and its time, a valid record is the same record (`EventRecord.payload_restores`).
-/

namespace Telemetry

namespace Field

theorem mem_all (field : Field) : field ∈ all := by
  cases field <;> decide

theorem key_injective : Function.Injective key := by
  have hkeys : (all.map key).Nodup := by decide
  exact fun a b h => List.inj_on_of_nodup_map hkeys (mem_all a) (mem_all b) h

/-- The keys that are no fields: of the identifier, of the time, and of the session. -/
def otherKeys : List Text := [RecordFields.eventIdKey, RecordFields.tsKey, EventRecord.sessionIdKey]

theorem key_ne_of_mem_otherKeys {key : Text} (hkey : key ∈ otherKeys) (field : Field) :
    field.key ≠ key := by
  have hkeys : ∀ field ∈ all, ∀ key ∈ otherKeys, field.key ≠ key := by decide
  exact hkeys field (mem_all field) key hkey

end Field

namespace EventRecord

variable (r : EventRecord) (sessionId : Option Text)

/-! ## Keys -/

/-- The field of the record is set, be it to zero or to an empty text. -/
def isSet : Field → Bool
  | .eventName => true
  | .eventValue => r.eventValue.isSome
  | .transactionId => r.transactionId.isSome
  | .interactionId => r.interactionId.isSome
  | .interactionType => r.interactionType.isSome
  | .conversionSendId => r.conversionSendId.isSome
  | .lastReceivedSendId => r.lastReceivedSendId.isSome

theorem isSome_get? (field : Field) : (r.get? field).isSome = r.isSet field := by
  cases field <;> simp [get?, isSet]

theorem keys_data : r.data.map Prod.fst = (Field.all.filter r.isSet).map Field.key := by
  unfold data
  induction Field.all with
  | nil => rfl
  | cons field rest ih =>
    rw [List.filterMap_cons, List.filter_cons, ← isSome_get?]
    cases r.get? field <;> simp [ih]

theorem payload_data : (r.payload (.ofText? sessionId)).data =
    r.data ++ (sessionId.map fun id => (sessionIdKey, Datum.text id)).toList := by
  cases sessionId with
  | none => exact (List.append_nil _).symm
  | some id => rfl

theorem keys_payload : (r.payload (.ofText? sessionId)).data.map Prod.fst =
    (Field.all.filter r.isSet).map Field.key ++ (sessionId.map fun _ => sessionIdKey).toList := by
  rw [payload_data, List.map_append, keys_data]
  cases sessionId <;> rfl

/-! ## Fields under their keys -/

theorem lookup_filterMap (get : Field → Option Datum) (fields : List Field) (field : Field) :
    (fields.filterMap fun f => (get f).map fun d => (f.key, d)).lookup field.key =
      if field ∈ fields then get field else none := by
  induction fields with
  | nil => rfl
  | cons first rest ih =>
    rw [List.filterMap_cons]
    by_cases h : field = first
    · subst h
      cases hfield : get field <;> simp [hfield, ih]
    · have hkey : (field.key == first.key) = false :=
        beq_false_of_ne fun hkey => h (Field.key_injective hkey)
      cases get first <;> simp [List.lookup_cons, hkey, h, ih]

theorem lookup_data (field : Field) : r.data.lookup field.key = r.get? field := by
  rw [data, lookup_filterMap, if_pos (Field.mem_all field)]

theorem lookup_data_sessionIdKey : r.data.lookup sessionIdKey = none := by
  rw [List.lookup_eq_none_iff]
  intro e he
  obtain ⟨field, -, hfield⟩ := List.mem_filterMap.mp he
  obtain ⟨d, -, rfl⟩ := Option.map_eq_some_iff.mp hfield
  simpa using (Field.key_ne_of_mem_otherKeys (by decide) field).symm

/-- The session leaves every field alone. -/
theorem lookup_payload (field : Field) :
    (r.payload (.ofText? sessionId)).data.lookup field.key = r.get? field := by
  have hother : (field.key == sessionIdKey) = false :=
    beq_false_of_ne (Field.key_ne_of_mem_otherKeys (by decide) field)
  rw [payload_data, List.lookup_append, lookup_data]
  cases sessionId <;> simp [List.lookup_cons, hother]

theorem lookup_payload_sessionIdKey :
    (r.payload (.ofText? sessionId)).data.lookup sessionIdKey = sessionId.map Datum.text := by
  rw [payload_data, List.lookup_append, lookup_data_sessionIdKey]
  cases sessionId <;> simp

/-- Records with the same data agree in all their fields. -/
theorem values_eq_of_data {r r' : EventRecord} (h : r.data = r'.data) : r.values = r'.values := by
  have hget (field : Field) : r.get? field = r'.get? field := by
    rw [← lookup_data, ← lookup_data, h]
  have htext {o o' : Option Text} (h : o.map Datum.text = o'.map Datum.text) : o = o' :=
    Option.map_injective (fun _ _ => Datum.text.inj) h
  have hname : r.eventName = r'.eventName := Datum.text.inj (Option.some.inj (hget .eventName))
  have hvalue : r.eventValue = r'.eventValue :=
    Option.map_injective (fun _ _ => Datum.int.inj) (hget .eventValue)
  unfold values
  rw [hname, hvalue, htext (hget .transactionId), htext (hget .interactionId),
    htext (hget .interactionType), htext (hget .conversionSendId),
    htext (hget .lastReceivedSendId)]

/-! ## Making a record of its payload -/

/-- What a record is made of anew: its identifier, its time and the data of its payload. -/
def restored : List (Text × Datum) :=
  (RecordFields.eventIdKey, .text r.eventId) :: (RecordFields.tsKey, .float r.ts) ::
    (r.payload (.ofText? sessionId)).data

theorem lookup_restored (field : Field) :
    (r.restored sessionId).lookup field.key = r.get? field := by
  have hid : (field.key == RecordFields.eventIdKey) = false :=
    beq_false_of_ne (Field.key_ne_of_mem_otherKeys (by decide) field)
  have hts : (field.key == RecordFields.tsKey) = false :=
    beq_false_of_ne (Field.key_ne_of_mem_otherKeys (by decide) field)
  simp [restored, List.lookup_cons, hid, hts, lookup_payload]

theorem keys_restored_nodup : ((r.restored sessionId).map Prod.fst).Nodup := by
  have hkeys : (RecordFields.eventIdKey :: RecordFields.tsKey ::
      (Field.all.map Field.key ++ [sessionIdKey])).Nodup := by decide
  refine hkeys.sublist (.cons_cons _ (.cons_cons _ ?_))
  rw [keys_payload]
  refine .append (List.filter_sublist.map _) ?_
  cases sessionId <;> simp

/-- A field that is left out if it is unset is read as it was. -/
theorem elim_map_eq_ok {α : Type} {f : α → Datum} {read : Datum → Except ProblemKind (Option α)}
    {o : Option α} (h : ∀ x ∈ o, read (f x) = .ok (some x)) :
    (o.map f).elim (.ok none) read = .ok o := by
  cases o with
  | none => rfl
  | some x => exact h x rfl

variable {r}

theorem ofFields_restored (hr : r.Valid) (freshId : Text) (now : Binary64) :
    ofFields freshId now (.ofEntries (r.restored sessionId)) = .ok r := by
  have hbounded {field : Field} {o : Option Text} (h : ∀ t ∈ o, t.FitsField) :
      (o.map Datum.text).elim (.ok none) (readBounded field) = .ok o := by
    refine elim_map_eq_ok fun t ht => (readBounded_ofText?_eq_ok_iff (o := some t)).mpr ⟨?_, rfl⟩
    rintro _ ⟨⟩
    exact h t ht
  have hsendId (o : Option Text) :
      (o.map Datum.text).elim (.ok none) (Reading.optional Reading.text) = .ok o :=
    elim_map_eq_ok fun _ _ => rfl
  have hvalue : (r.eventValue.map Datum.int).elim (.ok none) readValue = .ok r.eventValue := by
    refine elim_map_eq_ok fun i hi => (readValue_ofInt?_eq_ok_iff (o := some i)).mpr ⟨?_, rfl⟩
    rintro _ ⟨⟩
    exact hr.eventValue i hi
  rw [ofFields_eq_ok_iff]
  simp only [Reading.field_eq_ok_iff, RecordFields.ofEntries, lookup_restored]
  exact ⟨readName_text_eq_ok_iff.mpr ⟨hr.eventName, rfl⟩, hvalue, hbounded hr.transactionId,
    hbounded hr.interactionId, hbounded hr.interactionType, hsendId _, hsendId _, rfl, rfl,
    hr.sendIds⟩

/--
The data of the payload of a valid record have the keys of the fields that are set, in order, and
behind them that of the session, if there is one. Each of them holds what the record has there, and
made of them anew, with its identifier and its time, it is the same record.
-/
theorem payload_restores (hr : r.Valid) (sessionId : Option Text) :
    let data := (r.payload (.ofText? sessionId)).data
    data.map Prod.fst = (Field.all.filter r.isSet).map Field.key ++
      (sessionId.map fun _ => sessionIdKey).toList ∧
    (∀ field : Field, data.lookup field.key = r.get? field) ∧
    data.lookup sessionIdKey = sessionId.map Datum.text ∧
    ((r.restored sessionId).map Prod.fst).Nodup ∧
    (∀ freshId now, ofFields freshId now (.ofEntries (r.restored sessionId)) = .ok r) ∧
    ∀ r' : EventRecord, r'.data = r.data → r'.values = r.values :=
  ⟨r.keys_payload sessionId, r.lookup_payload sessionId, r.lookup_payload_sessionIdKey sessionId,
    r.keys_restored_nodup sessionId, ofFields_restored sessionId hr, fun _ => values_eq_of_data⟩

/-- A value of zero and an empty text are fields that are set. -/
theorem payload_restores_zero : ∃ r : EventRecord, r.Valid ∧
    (r.payload (.text "session")).data.map Prod.fst =
      [Field.eventName.key, Field.eventValue.key, Field.transactionId.key, sessionIdKey] ∧
    ∀ freshId now, ofFields freshId now (.ofEntries (r.restored (some "session"))) = .ok r := by
  let r : EventRecord :=
    ⟨"refund", some 0, some [], none, none, none, none, "event", Binary64.zero true⟩
  have hr : r.Valid := by
    refine ⟨by decide, ?_, ?_, nofun, nofun, .inl rfl⟩
    · rintro _ ⟨⟩
      decide
    · rintro _ ⟨⟩
      decide
  obtain ⟨hkeys, -, -, -, hrestored, -⟩ := payload_restores hr (some "session")
  exact ⟨r, hr, hkeys, hrestored⟩

end EventRecord

end Telemetry
