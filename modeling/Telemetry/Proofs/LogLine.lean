import Mathlib.Algebra.GroupWithZero.Nat
import Mathlib.Data.List.Forall2
import Telemetry.Logging
import Telemetry.Proofs.EventRecord.Valid
import Telemetry.Sink

/-!
# Entries that can always be printed

The line of an entry can fail to be printed, and then the operation that logs it fails in its
middle. That takes a datum that JSON has no text for, or an integer that is too long to be written.
An entry without such data is printed in every format (`LogLine.check_eq_ok`). Such are all entries
about drafts and events (`Entry.isPlain_validationFailed` and its neighbours), and what a sink
reports of an event unless the session id cannot be written (`Sink.isPlain_report`).

Whether a line can be printed does not depend on the texts in it: entries whose fields are written
alike are printed alike (`LogLine.check_eq_of_writtenLike`).
-/

namespace Telemetry

/-- The datum can be written in a line of every format. -/
structure Datum.IsPlain (d : Datum) : Prop where
  hasLongInt : d.hasLongInt = false
  image : ∃ read, LogLine.image d = .ok read

theorem Datum.isPlain_text (t : Text) : (Datum.text t).IsPlain := ⟨rfl, _, rfl⟩

theorem Datum.isPlain_null : Datum.null.IsPlain := ⟨rfl, _, rfl⟩

theorem Datum.isLongInt_of_lt {i : Int} (h : i.natAbs < 10 ^ 19) : isLongInt i = false := by
  have hpow {n : Nat} (hn : 19 ≤ n) : 10 ^ 19 ≤ pow10 n := Nat.pow_le_pow_right (by decide) hn
  exact decide_eq_false (Nat.not_le.mpr (Nat.lt_of_lt_of_le h (hpow (by decide))))

theorem EventValue.IsStored.not_long {i : Int} (h : IsStored i) : Datum.isLongInt i = false := by
  have hmin : -(10 ^ 16 : Int) < minStored := by decide
  have hmax : maxStored < (10 ^ 16 : Int) := by decide
  obtain ⟨hlow, hhigh⟩ := h
  exact Datum.isLongInt_of_lt (by omega)

theorem Datum.isPlain_of_not_long {i : Int} (h : isLongInt i = false) : (Datum.int i).IsPlain := by
  refine ⟨h, .int i, ?_⟩
  rw [LogLine.image, LogLine.imageInt, h]
  rfl

theorem Datum.isPlain_int {i : Int} (h : EventValue.IsStored i) : (Datum.int i).IsPlain :=
  isPlain_of_not_long h.not_long

namespace LogLine

/-- Every value of a line in the making can be written. -/
def ArePlain (entries : Entries) : Prop := ∀ e ∈ entries, e.2.IsPlain

variable {entries : Entries}

theorem ArePlain.append_one (h : ArePlain entries) {key : Text} {value : Datum}
    (hvalue : value.IsPlain) : ArePlain (entries ++ [(key, value)]) := by
  intro e he
  rcases List.mem_append.mp he with h' | h'
  · exact h e h'
  · rw [List.mem_singleton.mp h']
    exact hvalue

theorem ArePlain.fillIn (h : ArePlain entries) (key : Text) {value : Datum}
    (hvalue : value.IsPlain) : ArePlain (fillIn key value entries) := by
  unfold LogLine.fillIn
  split
  · exact h
  · exact h.append_one hvalue

theorem ArePlain.set (h : ArePlain entries) (key : Text) {value : Datum}
    (hvalue : value.IsPlain) : ArePlain (set key value entries) := by
  unfold LogLine.set
  split
  · intro e he
    obtain ⟨e', he', rfl⟩ := List.mem_map.mp he
    split
    · exact hvalue
    · exact h e' he'
  · exact h.append_one hvalue

theorem ArePlain.entriesOf (h : ArePlain entries) (f : LogFormat) (time : Text)
    (severity : Severity) (event : Text) :
    ArePlain (entriesOf f time [] severity (.text event) entries) := by
  have hservice := (h.set "event" (Datum.isPlain_text event)).fillIn "service"
    (Datum.isPlain_text f.service)
  have henvironment : ArePlain (fillInService f.service f.environment
      (LogLine.set "event" (.text event) entries)) := by
    unfold fillInService
    cases f.environment with
    | none => exact hservice
    | some name => exact hservice.fillIn "env" (Datum.isPlain_text name)
  have hlevel := (henvironment.set "ts" (Datum.isPlain_text time)).set "level"
    (Datum.isPlain_text severity.name)
  exact fun e he => hlevel e (List.mem_filter.mp he).1

/-- An entry is read back from a JSON line as another. -/
structure ReadAs (e o : Text × Datum) : Prop where
  key_eq : o.1 = e.1.joinPairs
  value_eq : image e.2 = .ok o.2

/-- Entries whose values can be written are read back one by one. -/
theorem exists_imageEntries (h : ∀ e ∈ entries, ∃ d, image e.2 = .ok d) :
    ∃ read : Entries, imageEntries (entries.map fun e => (.text e.1, e.2)) =
      .ok (read.map fun e => (.text e.1, e.2)) ∧ List.Forall₂ ReadAs entries read := by
  induction entries with
  | nil => exact ⟨[], rfl, .nil⟩
  | cons e rest ih =>
    obtain ⟨read, hread, hrest⟩ := ih fun e' he' => h e' (List.mem_cons_of_mem _ he')
    obtain ⟨value, hvalue⟩ := h e List.mem_cons_self
    refine ⟨(e.1.joinPairs, value) :: read, ?_, .cons ⟨rfl, hvalue⟩ hrest⟩
    rw [List.map_cons, imageEntries, hread, hvalue]
    rfl

theorem any_hasLongInt (h : ArePlain entries) :
    (entries.any fun e => e.2.hasLongInt) = false := by
  rw [List.any_eq_false]
  intro e he
  simp [(h e he).hasLongInt]

/-- A dictionary can be written if its values can be. -/
theorem ArePlain.dictionary (h : ArePlain entries) : (Payload.dictionary entries).IsPlain where
  hasLongInt := by
    unfold Payload.dictionary Datum.hasLongInt
    induction entries with
    | nil => rfl
    | cons e rest ih =>
      have hrest := ih fun e' he' => h e' (List.mem_cons_of_mem _ he')
      have hvalue := (h e List.mem_cons_self).hasLongInt
      simp [Datum.entriesHaveLongInt, Datum.hasLongInt, hvalue, hrest]
  image := by
    obtain ⟨read, hread, -⟩ := exists_imageEntries fun e he => (h e he).image
    unfold Payload.dictionary
    rw [image, hread]
    exact ⟨_, rfl⟩

end LogLine

namespace Entry

/-- The fields of an entry can be written. -/
def IsPlain (e : Entry) : Prop := LogLine.ArePlain e.fields

theorem isPlain_of_texts {e : Entry} (fields : List (Text × Text))
    (h : e.fields = fields.map fun field => (field.1, .text field.2)) : e.IsPlain := by
  intro field hfield
  rw [h] at hfield
  obtain ⟨⟨key, t⟩, -, rfl⟩ := List.mem_map.mp hfield
  exact Datum.isPlain_text t

theorem isPlain_validationFailed (field : Field) (kind : RejectionClass) (message : Text) :
    (validationFailed field kind message).IsPlain :=
  isPlain_of_texts [("field", field.key), ("error", kind.name), ("message", message)] rfl

theorem isPlain_eventCreated (eventId eventName : Text) :
    (eventCreated eventId eventName).IsPlain :=
  isPlain_of_texts [("event_id", eventId), ("event_name", eventName)] rfl

theorem isPlain_eventAdded (eventId eventName : Text) :
    (eventAdded eventId eventName).IsPlain :=
  isPlain_of_texts [("event_id", eventId), ("event_name", eventName)] rfl

theorem isPlain_attributionResolved (origin : Credit) (sendId : Text) :
    (attributionResolved (some (origin, .text sendId))).IsPlain :=
  isPlain_of_texts [("source", origin.name), ("send_id", sendId)] rfl

theorem isPlain_attributionResolved_none : (attributionResolved none).IsPlain := by
  intro field hfield
  rw [List.mem_singleton.mp hfield]
  exact Datum.isPlain_null

theorem isPlain_logSinkSelected : logSinkSelected.IsPlain := isPlain_of_texts [("type", "log")] rfl

theorem isPlain_memorySinkSelected {maxEvents : Int} (h : Datum.isLongInt maxEvents = false) :
    (memorySinkSelected maxEvents).IsPlain := by
  have hnil : LogLine.ArePlain [] := nofun
  exact (hnil.append_one (Datum.isPlain_text _)).append_one (Datum.isPlain_of_not_long h)

theorem isPlain_started (environment sink sessionId : Text) :
    (started environment sink (.text sessionId)).IsPlain :=
  isPlain_of_texts [("version", version), ("env", environment), ("sink", sink),
    ("session_id", sessionId)] rfl

end Entry

/-! ## What sinks report -/

theorem EventRecord.Valid.arePlain_data {r : EventRecord} (h : r.Valid) :
    LogLine.ArePlain r.data := by
  intro e he
  obtain ⟨field, -, hfield⟩ := List.mem_filterMap.mp he
  obtain ⟨d, hd, rfl⟩ := Option.map_eq_some_iff.mp hfield
  dsimp only
  have htext {t : Option Text} (hd : t.map Datum.text = some d) : d.IsPlain := by
    obtain ⟨t, -, rfl⟩ := Option.map_eq_some_iff.mp hd
    exact Datum.isPlain_text t
  cases field with
  | eventName =>
    cases hd
    exact Datum.isPlain_text r.eventName
  | eventValue =>
    obtain ⟨i, hi, rfl⟩ := Option.map_eq_some_iff.mp hd
    exact Datum.isPlain_int (h.eventValue i hi)
  | _ => exact htext hd

theorem EventRecord.Valid.arePlain_payload {r : EventRecord} (h : r.Valid) {sessionId : Datum}
    (hsession : sessionId.IsPlain) : LogLine.ArePlain (r.payload sessionId).data := by
  unfold payload
  dsimp only
  split
  · exact h.arePlain_data
  · exact h.arePlain_data.append_one hsession

/-- What a sink reports of an event can be printed if the session id can be written. -/
theorem Sink.isPlain_report (sink : Sink) {r : EventRecord} (h : r.Valid) {sessionId : Datum}
    (hsession : sessionId.IsPlain) : (sink.report r sessionId).IsPlain := by
  have hnil : LogLine.ArePlain [] := nofun
  cases sink with
  | memory capacity held =>
    exact (((hnil.append_one (Datum.isPlain_text r.eventId)).append_one
      (Datum.isPlain_text r.eventName)).append_one hsession).append_one (Datum.isPlain_text _)
  | log =>
    exact ((((hnil.append_one (Datum.isPlain_text _)).append_one (Datum.isPlain_text _)).append_one
      (Datum.isPlain_text _)).append_one (h.arePlain_payload hsession).dictionary).append_one
        (Datum.isPlain_text _)

/-- An entry whose fields can be written can be printed in every format. -/
theorem LogLine.check_eq_ok {e : Entry} (h : e.IsPlain) (f : LogFormat) : check f e = .ok () := by
  have hplain := h.entriesOf f [] e.severity e.event
  obtain ⟨read, hread, -⟩ := exists_imageEntries fun e he => (hplain e he).image
  unfold check ofEntry
  split
  · rfl
  · next entries hentries =>
    obtain rfl : entriesOf f [] [] e.severity (.text e.event) e.fields = entries := by
      split at hentries
      · exact Option.some.inj hentries
      · cases hentries
    split
    · unfold readBack Payload.dictionary
      rw [image, hread]
      rfl
    · rw [any_hasLongInt hplain]
      rfl

/-! ## Entries that are written alike -/

/-- Where one of the data cannot be written, the other cannot, for the same reason. -/
structure Datum.WrittenLike (d d' : Datum) : Prop where
  hasLongInt : d.hasLongInt = d'.hasLongInt
  image : (LogLine.image d).map (fun _ => ()) = (LogLine.image d').map fun _ => ()

theorem Datum.WrittenLike.refl (d : Datum) : d.WrittenLike d := ⟨rfl, rfl⟩

theorem Datum.writtenLike_text (t t' : Text) : (Datum.text t).WrittenLike (.text t') := ⟨rfl, rfl⟩

namespace LogLine

/-- The same keys, and values that are written alike. -/
def WrittenLike : Entries → Entries → Prop :=
  List.Forall₂ fun e e' => e.1 = e'.1 ∧ e.2.WrittenLike e'.2

theorem WrittenLike.refl (entries : Entries) : WrittenLike entries entries :=
  List.forall₂_same.mpr fun e _ => ⟨rfl, .refl e.2⟩

section

variable {entries entries' : Entries} (h : WrittenLike entries entries') {value value' : Datum}

include h

theorem WrittenLike.has_eq (key : Text) : has key entries = has key entries' := by
  induction h with
  | nil => rfl
  | cons hfirst _ ih =>
    unfold has at ih ⊢
    rw [List.any_cons, List.any_cons, ih, hfirst.1]

theorem WrittenLike.append_one (key : Text) (hvalue : value.WrittenLike value') :
    WrittenLike (entries ++ [(key, value)]) (entries' ++ [(key, value')]) :=
  List.rel_append h (.cons ⟨rfl, hvalue⟩ .nil)

theorem WrittenLike.fillIn (key : Text) (value : Datum) :
    WrittenLike (fillIn key value entries) (LogLine.fillIn key value entries') := by
  unfold LogLine.fillIn
  rw [← h.has_eq key]
  split
  · exact h
  · exact h.append_one key (.refl value)

theorem WrittenLike.set (key : Text) (value : Datum) :
    WrittenLike (set key value entries) (LogLine.set key value entries') := by
  unfold LogLine.set
  rw [← h.has_eq key]
  split
  · refine List.rel_map (fun e e' he => ?_) h
    rw [← he.1]
    split
    · exact ⟨rfl, .refl value⟩
    · exact he
  · exact h.append_one key (.refl value)

theorem WrittenLike.entriesOf (f : LogFormat) (time : Text) (severity : Severity) (event : Text) :
    WrittenLike (entriesOf f time [] severity (.text event) entries)
      (LogLine.entriesOf f time [] severity (.text event) entries') := by
  have hservice := (h.set "event" (.text event)).fillIn "service" (.text f.service)
  have henvironment : WrittenLike (fillInService f.service f.environment
      (LogLine.set "event" (.text event) entries)) (fillInService f.service f.environment
        (LogLine.set "event" (.text event) entries')) := by
    unfold fillInService
    cases f.environment with
    | none => exact hservice
    | some name => exact hservice.fillIn "env" (.text name)
  have hlevel := (henvironment.set "ts" (.text time)).set "level" (.text severity.name)
  refine List.rel_filter (fun e e' he => ?_) hlevel
  dsimp only
  rw [he.1]

theorem WrittenLike.any_hasLongInt :
    (entries.any fun e => e.2.hasLongInt) = entries'.any fun e => e.2.hasLongInt := by
  induction h with
  | nil => rfl
  | cons hfirst _ ih => rw [List.any_cons, List.any_cons, ih, hfirst.2.hasLongInt]

theorem WrittenLike.imageEntries :
    (imageEntries (entries.map fun e => (.text e.1, e.2))).map (fun _ => ()) =
      (LogLine.imageEntries (entries'.map fun e => (.text e.1, e.2))).map fun _ => () := by
  induction h with
  | nil => rfl
  | @cons e e' rest rest' hfirst _ ih =>
    have hvalue := hfirst.2.image
    rw [List.map_cons, List.map_cons, LogLine.imageEntries, LogLine.imageEntries]
    generalize LogLine.imageEntries (rest.map fun e => (.text e.1, e.2)) = read at ih
    generalize LogLine.imageEntries (rest'.map fun e => (.text e.1, e.2)) = read' at ih
    generalize LogLine.image e.2 = value at hvalue
    generalize LogLine.image e'.2 = value' at hvalue
    cases value <;> cases value' <;> cases hvalue
    · rfl
    · cases read <;> cases read' <;> cases ih <;> rfl

theorem WrittenLike.dictionary :
    (Payload.dictionary entries).WrittenLike (Payload.dictionary entries') where
  hasLongInt := by
    unfold Payload.dictionary Datum.hasLongInt
    induction h with
    | nil => rfl
    | cons hfirst _ ih =>
      simp [Datum.entriesHaveLongInt, Datum.hasLongInt, hfirst.2.hasLongInt, ih]
  image := by
    have himage := h.imageEntries
    unfold Payload.dictionary
    rw [LogLine.image, LogLine.image]
    generalize LogLine.imageEntries (entries.map fun e => (.text e.1, e.2)) = read at himage
    generalize LogLine.imageEntries (entries'.map fun e => (.text e.1, e.2)) = read' at himage
    cases read <;> cases read' <;> cases himage <;> rfl

end

end LogLine

/-- Entries of one kind whose fields are written alike. -/
structure Entry.WrittenLike (e e' : Entry) : Prop where
  logger : e.logger? = e'.logger?
  severity : e.severity = e'.severity
  event : e.event = e'.event
  fields : LogLine.WrittenLike e.fields e'.fields

theorem Entry.WrittenLike.refl (e : Entry) : e.WrittenLike e := ⟨rfl, rfl, rfl, .refl e.fields⟩

theorem Entry.writtenLike_eventCreated (eventId eventId' eventName eventName' : Text) :
    (eventCreated eventId eventName).WrittenLike (eventCreated eventId' eventName') :=
  have hid := LogLine.WrittenLike.append_one (.refl []) "event_id"
    (Datum.writtenLike_text eventId eventId')
  ⟨rfl, rfl, rfl, hid.append_one "event_name" (Datum.writtenLike_text eventName eventName')⟩

theorem Entry.writtenLike_eventAdded (eventId eventId' eventName eventName' : Text) :
    (eventAdded eventId eventName).WrittenLike (eventAdded eventId' eventName') :=
  ⟨rfl, rfl, rfl, (writtenLike_eventCreated eventId eventId' eventName eventName').fields⟩

/-- Entries that are written alike are printed alike. -/
theorem LogLine.check_eq_of_writtenLike {e e' : Entry} (h : e.WrittenLike e') (f : LogFormat) :
    check f e = check f e' := by
  have hentries := h.fields.entriesOf f [] e'.severity e'.event
  unfold check ofEntry
  rw [h.severity, h.event]
  cases isPrinted f e'.severity with
  | false => rfl
  | true =>
    simp only [if_true, readBack]
    rw [hentries.dictionary.image, hentries.any_hasLongInt]

end Telemetry
