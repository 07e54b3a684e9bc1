import Telemetry.Proofs.EventRecord.Payload

/-!
# What is wrong with a record

An `EventRecord` is a choice of values for all fields, be they fit for a record or not. What the
model of records makes of such values is the record or a list of problems. Each field is looked at
on its own (`EventRecord.fieldProblems`), and a fault of the send ids is only reported if there is
nothing else to report (`EventRecord.problems_of_ofFields`). So the faulty fields are named, all of
them and in order (`EventRecord.ofFields_names_faults`).
-/

namespace Telemetry

theorem Problem.of?_eq_none_iff {α : Type} {x : Except Problem α} :
    of? x = none ↔ ∃ a, x = .ok a := by
  cases x <;> simp [of?]

namespace EventRecord

/-! ## Problems of any fields -/

/-- What is wrong with the fields, each on its own. -/
def fieldProblems (freshId : Text) (now : Binary64) (f : RecordFields) : List Problem :=
  [Problem.of? (Reading.field Field.eventName.key (.error .missing) readName f.eventName),
    Problem.of? (Reading.field Field.eventValue.key (.ok none) readValue f.eventValue),
    Problem.of? (Reading.field Field.transactionId.key (.ok none) (readBounded .transactionId)
      f.transactionId),
    Problem.of? (Reading.field Field.interactionId.key (.ok none) (readBounded .interactionId)
      f.interactionId),
    Problem.of? (Reading.field Field.interactionType.key (.ok none) (readBounded .interactionType)
      f.interactionType),
    Problem.of? (Reading.field Field.conversionSendId.key (.ok none)
      (Reading.optional Reading.text) f.conversionSendId),
    Problem.of? (Reading.field Field.lastReceivedSendId.key (.ok none)
      (Reading.optional Reading.text) f.lastReceivedSendId),
    Problem.of? (Reading.field RecordFields.eventIdKey (.ok freshId) Reading.text f.eventId),
    Problem.of? (Reading.field RecordFields.tsKey (.ok now) Reading.float f.ts)].filterMap id

/-- The model reports all problems of the fields, or, if they have none, that of the send ids. -/
theorem problems_of_ofFields {freshId : Text} {now : Binary64} {f : RecordFields}
    {problems : List Problem} (h : ofFields freshId now f = .error problems) :
    problems = if fieldProblems freshId now f = [] then [⟨[], .bothSendIds⟩]
      else fieldProblems freshId now f := by
  unfold ofFields at h
  unfold fieldProblems
  dsimp only at h
  -- What the fields are does not matter, only which of them are not read.
  generalize Reading.field Field.eventName.key _ _ _ = eventName at h ⊢
  generalize Reading.field Field.eventValue.key _ _ _ = eventValue at h ⊢
  generalize Reading.field Field.transactionId.key _ _ _ = transactionId at h ⊢
  generalize Reading.field Field.interactionId.key _ _ _ = interactionId at h ⊢
  generalize Reading.field Field.interactionType.key _ _ _ = interactionType at h ⊢
  generalize Reading.field Field.conversionSendId.key _ _ _ = conversionSendId at h ⊢
  generalize Reading.field Field.lastReceivedSendId.key _ _ _ = lastReceivedSendId at h ⊢
  generalize Reading.field RecordFields.eventIdKey _ _ _ = eventId at h ⊢
  generalize Reading.field RecordFields.tsKey _ _ _ = ts at h ⊢
  split at h
  · split at h
    · cases h
      rfl
    · cases h
  · next hsome =>
    cases h
    rw [if_neg]
    intro hnone
    simp only [List.filterMap_eq_nil_iff, List.forall_mem_cons, id, Problem.of?_eq_none_iff]
      at hnone
    obtain ⟨⟨_, rfl⟩, ⟨_, rfl⟩, ⟨_, rfl⟩, ⟨_, rfl⟩, ⟨_, rfl⟩, ⟨_, rfl⟩, ⟨_, rfl⟩, ⟨_, rfl⟩,
      ⟨_, rfl⟩, -⟩ := hnone
    exact hsome _ _ _ _ _ _ _ _ _ rfl rfl rfl rfl rfl rfl rfl rfl rfl

/-! ## Problems of values -/

variable (r : EventRecord)

/-- The value in the field is one that a record may have there. -/
def Fits : Field → Prop
  | .eventName => r.eventName.IsEventName
  | .eventValue => ∀ i ∈ r.eventValue, EventValue.IsStored i
  | .transactionId => ∀ t ∈ r.transactionId, t.FitsField
  | .interactionId => ∀ t ∈ r.interactionId, t.FitsField
  | .interactionType => ∀ t ∈ r.interactionType, t.FitsField
  | .conversionSendId | .lastReceivedSendId => True

instance : DecidablePred r.Fits
  | .eventName => inferInstanceAs (Decidable r.eventName.IsEventName)
  | .eventValue => inferInstanceAs (Decidable (∀ i ∈ r.eventValue, EventValue.IsStored i))
  | .transactionId => inferInstanceAs (Decidable (∀ t ∈ r.transactionId, t.FitsField))
  | .interactionId => inferInstanceAs (Decidable (∀ t ∈ r.interactionId, t.FitsField))
  | .interactionType => inferInstanceAs (Decidable (∀ t ∈ r.interactionType, t.FitsField))
  | .conversionSendId | .lastReceivedSendId => inferInstanceAs (Decidable True)

/-- What is wrong with the value in a field, if it does not fit. -/
def problemKind : Field → ProblemKind
  | .eventName => if r.eventName.fieldLength = 0 then .empty .eventName else .tooLong .eventName
  | .eventValue => .valueOutOfRange
  | field => .tooLong field

/-- The report of a field whose value does not fit. -/
def problem (field : Field) : Problem := ⟨[field.key], r.problemKind field⟩

/-- The report of a field, if its value does not fit. -/
def problem? (field : Field) : Option Problem :=
  if r.Fits field then none else some (r.problem field)

/-- The fields whose values do not fit, in order of declaration. -/
def faultyFields : List Field := Field.all.filter fun field => ¬r.Fits field

def HasBothSendIds : Prop := r.conversionSendId.isSome ∧ r.lastReceivedSendId.isSome

instance : Decidable r.HasBothSendIds := inferInstanceAs (Decidable (_ ∧ _))

/-- All fields with their values, as they are passed. -/
def fields : RecordFields :=
  { r.values.fields with eventId := some (.text r.eventId), ts := some (.float r.ts) }

theorem faultyFields_eq_nil_iff : r.faultyFields = [] ↔ ∀ field, r.Fits field := by
  simp [faultyFields, Field.mem_all]

theorem faultyFields_nodup : r.faultyFields.Nodup :=
  .filter _ (by decide)

theorem places_nodup : ((r.faultyFields.map r.problem).map Problem.place).Nodup := by
  rw [List.map_map]
  refine r.faultyFields_nodup.map fun a b h => Field.key_injective ?_
  simpa [problem] using h

theorem valid_iff : r.Valid ↔ r.faultyFields = [] ∧ ¬r.HasBothSendIds := by
  have hsendIds : ¬r.HasBothSendIds ↔ r.conversionSendId = none ∨ r.lastReceivedSendId = none := by
    simp [HasBothSendIds, imp_iff_not_or]
  rw [faultyFields_eq_nil_iff, hsendIds]
  constructor
  · intro h
    refine ⟨fun field => ?_, h.sendIds⟩
    cases field with
    | eventName => exact h.eventName
    | eventValue => exact h.eventValue
    | transactionId => exact h.transactionId
    | interactionId => exact h.interactionId
    | interactionType => exact h.interactionType
    | conversionSendId | lastReceivedSendId => trivial
  · rintro ⟨h, hone⟩
    exact ⟨h .eventName, h .eventValue, h .transactionId, h .interactionId, h .interactionType,
      hone⟩

/-! ## The readers on values that do not fit -/

theorem readName_text (t : Text) :
    readName (.text t) = if t.IsEventName then .ok t
      else .error (if t.fieldLength = 0 then .empty .eventName else .tooLong .eventName) := by
  unfold readName checkLength Text.IsEventName Text.FitsField
  grind [Reading.text]

theorem readValue_ofInt? (o : Option Int) :
    readValue (.ofInt? o) =
      if ∀ i ∈ o, EventValue.IsStored i then .ok o else .error .valueOutOfRange := by
  cases o with
  | none => rfl
  | some i =>
    simp [readValue, Datum.ofInt?, Reading.optional, Reading.int, EventValue.IsStored, Except.map]

theorem readBounded_ofText? (field : Field) (o : Option Text) :
    readBounded field (.ofText? o) =
      if ∀ t ∈ o, t.FitsField then .ok o else .error (.tooLong field) := by
  unfold readBounded
  rw [optional_ofText?]
  cases o with
  | none => rfl
  | some t =>
    dsimp only
    by_cases h : t.FitsField
    · rw [checkLength_eq_ok_iff.mpr ⟨h, rfl⟩, if_pos (by simpa using h)]
      rfl
    · rw [checkLength, if_pos (Nat.not_le.mp h), if_neg (by simpa using h)]
      rfl

/-- A field is reported just if its datum is not read. -/
theorem of?_field {α : Type} {name : Text} {absent : Except ProblemKind α}
    {read : Datum → Except ProblemKind α} {d : Datum} {x : α} {kind : ProblemKind} {p : Prop}
    [Decidable p] (h : read d = if p then .ok x else .error kind) :
    Problem.of? (Reading.field name absent read (some d)) =
      if p then none else some ⟨[name], kind⟩ := by
  unfold Reading.field
  dsimp only
  rw [h]
  split <;> rfl

theorem eq_of_values {r r' : EventRecord} (hvalues : r.values = r'.values)
    (heventId : r.eventId = r'.eventId) (hts : r.ts = r'.ts) : r = r' := by
  obtain ⟨⟩ := r
  obtain ⟨⟩ := r'
  cases hvalues
  cases heventId
  cases hts
  rfl

theorem ofFields_fields_eq_ok_iff {freshId : Text} {now : Binary64} {r r' : EventRecord} :
    ofFields freshId now r.fields = .ok r' ↔ r.Valid ∧ r' = r := by
  have hmade : ofFields freshId now r.fields = .ok r' ↔ _ :=
    FieldValues.ofFields_with_eq_ok_iff (some (.text r.eventId)) (some (.float r.ts))
  rw [hmade]
  constructor
  · rintro ⟨hvalues, hvalid, heventId, hts⟩
    have hsame : r' = r :=
      eq_of_values hvalues (Except.ok.inj heventId).symm (Except.ok.inj hts).symm
    exact ⟨hsame ▸ hvalid, hsame⟩
  · rintro ⟨hvalid, rfl⟩
    exact ⟨rfl, hvalid, rfl, rfl⟩

theorem fieldProblems_fields (freshId : Text) (now : Binary64) (r : EventRecord) :
    fieldProblems freshId now r.fields = r.faultyFields.map r.problem := by
  have hname : Problem.of? (Reading.field Field.eventName.key (.error .missing) readName
      r.fields.eventName) = r.problem? .eventName := of?_field (readName_text r.eventName)
  have hvalue : Problem.of? (Reading.field Field.eventValue.key (.ok none) readValue
      r.fields.eventValue) = r.problem? .eventValue := of?_field (readValue_ofInt? r.eventValue)
  have htransaction : Problem.of? (Reading.field Field.transactionId.key (.ok none)
      (readBounded .transactionId) r.fields.transactionId) = r.problem? .transactionId :=
    of?_field (readBounded_ofText? _ r.transactionId)
  have hinteraction : Problem.of? (Reading.field Field.interactionId.key (.ok none)
      (readBounded .interactionId) r.fields.interactionId) = r.problem? .interactionId :=
    of?_field (readBounded_ofText? _ r.interactionId)
  have htype : Problem.of? (Reading.field Field.interactionType.key (.ok none)
      (readBounded .interactionType) r.fields.interactionType) = r.problem? .interactionType :=
    of?_field (readBounded_ofText? _ r.interactionType)
  have hsendId {name : Text} (o : Option Text) : Problem.of? (Reading.field name (.ok none)
      (Reading.optional Reading.text) (some (.ofText? o))) = none := by
    cases o <;> rfl
  have hconversion : Problem.of? (Reading.field Field.conversionSendId.key (.ok none)
      (Reading.optional Reading.text) r.fields.conversionSendId) = r.problem? .conversionSendId :=
    hsendId r.conversionSendId
  have hlast : Problem.of? (Reading.field Field.lastReceivedSendId.key (.ok none)
      (Reading.optional Reading.text) r.fields.lastReceivedSendId) =
        r.problem? .lastReceivedSendId :=
    hsendId r.lastReceivedSendId
  calc fieldProblems freshId now r.fields
    _ = Field.all.filterMap r.problem? := by
      unfold fieldProblems
      rw [hname, hvalue, htransaction, hinteraction, htype, hconversion, hlast]
      rfl
    _ = r.faultyFields.map r.problem := by
      rw [faultyFields, ← List.filterMap_eq_map, List.filterMap_filter]
      refine List.filterMap_congr fun field _ => ?_
      simp [problem?]

/--
Made of any values, a record is one with just these values if they are those of a valid record.
Otherwise all faulty fields are reported, in order and each under its key. If no field is faulty,
the send ids are, and they alone are reported; they never are beside a field.
-/
theorem ofFields_names_faults (freshId : Text) (now : Binary64) (r : EventRecord) :
    match ofFields freshId now r.fields with
    | .ok r' => r.Valid ∧ r' = r
    | .error problems =>
      ¬r.Valid ∧
      problems = (if r.faultyFields = [] then [⟨[], .bothSendIds⟩]
        else r.faultyFields.map r.problem) ∧
      (⟨[], .bothSendIds⟩ ∈ problems ↔ r.HasBothSendIds ∧ r.faultyFields = []) ∧
      (problems.map Problem.place).Nodup := by
  cases h : ofFields freshId now r.fields with
  | ok r' => exact ofFields_fields_eq_ok_iff.mp h
  | error problems =>
    have hinvalid : ¬r.Valid := by
      intro hr
      rw [ofFields_fields_eq_ok_iff.mpr ⟨hr, rfl⟩] at h
      cases h
    have hproblems := problems_of_ofFields h
    simp only [fieldProblems_fields, List.map_eq_nil_iff] at hproblems
    refine ⟨hinvalid, hproblems, ?_⟩
    by_cases hfaulty : r.faultyFields = []
    · have hboth : r.HasBothSendIds := by
        by_contra hone
        exact hinvalid (r.valid_iff.mpr ⟨hfaulty, hone⟩)
      simp [hproblems, hfaulty, hboth]
    · rw [if_neg hfaulty] at hproblems
      subst hproblems
      refine ⟨?_, r.places_nodup⟩
      simp [hfaulty, problem]

/-- With faulty fields beside them, the send ids are not reported. -/
example : faultyFields ⟨"", some (10 ^ 20), none, none, none, some "sent", some "received",
    "event", Binary64.zero true⟩ = [.eventName, .eventValue] := by
  decide

end EventRecord

end Telemetry
