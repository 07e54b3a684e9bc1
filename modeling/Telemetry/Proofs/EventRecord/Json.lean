import Telemetry.Proofs.EventRecord.Valid
import Telemetry.Proofs.Json.RoundTrip

/-!
# The payload of a record in JSON

The payload is a dictionary of texts and of one dictionary of texts and an integer. Its keys are
different texts, so that none takes the place of another, and the integer is far within 64 bits:
nothing but a surrogate can keep it from being written, and whatever is written is read back.
-/

namespace Telemetry

namespace EventRecord

variable {r : EventRecord}

/-- JSON has a form of its own for the datum, and it is written on every level. -/
def IsWritten (d : Datum) : Prop := Json.Native d ∧ ∀ level, Json.Fits level d

theorem isWritten_text (t : Text) : IsWritten (.text t) := ⟨trivial, fun _ => trivial⟩

theorem isWritten_int {i : Int} (hi : EventValue.IsStored i) : IsWritten (.int i) := by
  have hbounds : -2147483648000000 ≤ i ∧ i ≤ 2147483647000000 := hi
  refine ⟨trivial, fun _ => ?_⟩
  show -0x8000000000000000 ≤ i ∧ i ≤ 0xFFFFFFFFFFFFFFFF
  omega

theorem isWritten_get? (hr : r.Valid) {field : Field} {d : Datum} (h : r.get? field = some d) :
    IsWritten d := by
  cases field with
  | eventName =>
    cases h
    exact isWritten_text _
  | eventValue =>
    obtain ⟨i, hi, rfl⟩ := Option.map_eq_some_iff.mp h
    exact isWritten_int (hr.eventValue i hi)
  | _ =>
    obtain ⟨t, -, rfl⟩ := Option.map_eq_some_iff.mp h
    exact isWritten_text t

/-- What comes with the fields of a record is the id of the session, if there is one. -/
theorem mem_payload_data {sessionId : Option Text} {e : Text × Datum}
    (h : e ∈ (r.payload (.ofText? sessionId)).data) :
    (∃ field, r.get? field = some e.2) ∨ ∃ id, e.2 = .text id := by
  have hdata : e ∈ r.data → ∃ field, r.get? field = some e.2 := by
    intro h
    obtain ⟨field, -, h⟩ := List.mem_filterMap.mp h
    obtain ⟨d, hd, rfl⟩ := Option.map_eq_some_iff.mp h
    exact ⟨field, hd⟩
  cases sessionId with
  | none => exact .inl (hdata h)
  | some id =>
    rcases List.mem_append.mp h with h | h
    · exact .inl (hdata h)
    · obtain rfl := List.mem_singleton.mp h
      exact .inr ⟨id, rfl⟩

theorem keys_data_sublist (r : EventRecord) :
    (r.data.map Prod.fst).Sublist (Field.all.map Field.key) := by
  unfold data
  induction Field.all with
  | nil => exact .slnil
  | cons field fields ih =>
    rw [List.filterMap_cons, List.map_cons]
    cases r.get? field with
    | none => exact ih.cons _
    | some d => exact ih.cons_cons _

theorem keys_payload_nodup (r : EventRecord) (sessionId : Option Text) :
    ((r.payload (.ofText? sessionId)).data.map Prod.fst).Nodup := by
  have hkeys : (Field.all.map Field.key ++ [sessionIdKey]).Nodup := by decide
  refine hkeys.sublist ?_
  cases sessionId with
  | none => exact r.keys_data_sublist.trans (List.sublist_append_left _ _)
  | some id =>
    show ((r.data ++ [(sessionIdKey, Datum.text id)]).map Prod.fst).Sublist _
    rw [List.map_append]
    exact r.keys_data_sublist.append (.refl _)

/-- The envelope of a valid record is nothing that JSON would write otherwise or not at all. -/
theorem payload_isWritten (hr : r.Valid) (sessionId : Option Text) :
    Json.Native (Payload.dictionary (r.payload (.ofText? sessionId)).entries) ∧
      Json.Fits 1 (Payload.dictionary (r.payload (.ofText? sessionId)).entries) := by
  have hdata : ∀ e ∈ (r.payload (.ofText? sessionId)).data, IsWritten e.2 := by
    intro e he
    rcases mem_payload_data he with ⟨field, hfield⟩ | ⟨id, hid⟩
    · exact isWritten_get? hr hfield
    · rw [hid]
      exact isWritten_text id
  have hnative := Json.native_dictionary (r.keys_payload_nodup sessionId) fun e he => (hdata e he).1
  have hfits : Json.Fits 2 (Payload.dictionary (r.payload (.ofText? sessionId)).data) :=
    Json.fits_dictionary (by decide) fun e he => (hdata e he).2 3
  constructor
  · refine Json.native_dictionary (by simp only [Payload.entries, List.map]; decide) ?_
    simp only [Payload.entries, List.forall_mem_cons]
    exact ⟨trivial, trivial, trivial, hnative, by simp⟩
  · refine Json.fits_dictionary (by decide) ?_
    simp only [Payload.entries, List.forall_mem_cons]
    exact ⟨trivial, trivial, trivial, hfits, by simp⟩

variable {freshId : Text} {now : Binary64} {f : RecordFields}

/--
The payload of a record that the model lets pass is read back from its JSON as it is, whatever its
texts hold, unless one of them holds a surrogate: then there is no JSON.
-/
theorem json_round_trip (h : ofFields freshId now f = .ok r) (sessionId : Option Text) :
    let payload := Payload.dictionary (r.payload (.ofText? sessionId)).entries
    ((∀ t ∈ Json.texts payload, ∀ c ∈ t, c.isSurrogate = false) →
      ∃ bytes, r.json (.ofText? sessionId) = .ok bytes ∧ Json.decode? bytes = some payload) ∧
    ((∃ t ∈ Json.texts payload, ∃ c ∈ t, c.isSurrogate = true) →
      r.json (.ofText? sessionId) = .error .surrogate) := by
  intro payload
  obtain ⟨hnative, hfits⟩ := payload_isWritten (valid_of_ofFields h) sessionId
  have hencode := Json.encode_of_fits hfits hnative
  constructor
  · intro hscalar
    rwa [if_pos (by simpa [Text.isScalar] using hscalar)] at hencode
  · intro hsurrogate
    rwa [if_neg (by simpa [Text.isScalar] using hsurrogate)] at hencode

/-- Fields with a quote, a backslash, a line feed, a code point of four bytes and an empty text. -/
def escapedFields : RecordFields where
  eventName := some (.text "say \"a\\b\"\n")
  eventValue := some (.int (-5000000))
  transactionId := some (.text "😀")
  interactionId := some (.text [])
  interactionType := none
  conversionSendId := none
  lastReceivedSendId := some (.text "push")
  eventId := some (.text "event")
  ts := some (.int 1700000000)

theorem json_round_trip_escapedFields : ∃ r,
    ofFields "fresh" (Binary64.zero false) escapedFields = .ok r ∧
    (∃ bytes, r.json (.text "session") = .ok bytes ∧ Json.decode? bytes =
      some (Payload.dictionary (r.payload (.text "session")).entries)) ∧
    r.json (.text [0xD83D]) = .error .surrogate := by
  obtain ⟨r, hr⟩ : ∃ r, ofFields "fresh" (Binary64.zero false) escapedFields = .ok r :=
    ⟨_, rfl⟩
  have hscalar : (Json.texts (Payload.dictionary
      (r.payload (.text "session")).entries)).all Text.isScalar = true := by
    cases hr
    decide +kernel
  have hsurrogate : (Json.texts (Payload.dictionary
      (r.payload (.text [0xD83D])).entries)).all Text.isScalar = false := by
    cases hr
    decide +kernel
  exact ⟨r, hr,
    (json_round_trip hr (some "session")).1 (by simpa [Text.isScalar, Datum.ofText?] using hscalar),
    (json_round_trip hr (some [0xD83D])).2
      (by simpa [Text.isScalar, Datum.ofText?] using hsurrogate)⟩

end EventRecord

end Telemetry
