import Telemetry.Attribution
import Telemetry.Proofs.Logging

/-!
# How attributions are resolved

Resolving puts at most one question to each of the two sources, the one for conversions first, and
each goes on to its next answer as often as it was asked (`Sources.asked_resolve`). The answers
decide alone what the event is credited to (`Sources.decides_resolve`).

Sources that answer with texts, or with nothing, lead to an attribution in every case
(`Sources.isSettled_resolve`): it has one send id at most, and what is logged about it can be
printed.
-/

namespace Telemetry

namespace Source

/-- The next answer of a source is a text or nothing. -/
def AnswersText (s : Source) : Prop := ∃ t : Option Text, s.ask.1 = .value (.ofText? t)

end Source

namespace Attribution

/-- The attribution that credits a text. -/
def ofText : Credit → Text → Attribution
  | .explicit, t => ⟨some t, .none⟩
  | .conversion, t => ⟨some t, .none⟩
  | .lastReceived, t => ⟨.none, some t⟩

theorem credit_text (origin : Credit) (t : Text) :
    credit origin (.text t) = .ok (ofText origin t) := by
  cases origin <;> rfl

theorem exists_text_of_readSendId {field : Field} {sendId : Datum} {o : Option Text}
    (hsendId : sendId ≠ .null) (h : readSendId field (some sendId) = .ok o) :
    ∃ t, Reading.text sendId = .ok t ∧ o = some t := by
  have hread : Reading.optional Reading.text sendId = .ok o := Reading.field_eq_ok_iff.mp h
  unfold Reading.optional at hread
  split at hread
  · exact absurd rfl hsendId
  · obtain ⟨t, ht, rfl⟩ := Except.map_eq_ok_iff.mp hread
    exact ⟨t, ht, rfl⟩

theorem ofFields_eq_ok_iff {conversion lastReceived : Option Datum} {a : Attribution} :
    ofFields conversion lastReceived = .ok a ↔
      readSendId .conversionSendId conversion = .ok a.conversionSendId ∧
        readSendId .lastReceivedSendId lastReceived = .ok a.lastReceivedSendId := by
  unfold ofFields
  cases readSendId .conversionSendId conversion with
  | error p => exact ⟨nofun, fun h => nomatch h.1⟩
  | ok o =>
    cases readSendId .lastReceivedSendId lastReceived with
    | error p => exact ⟨nofun, fun h => nomatch h.2⟩
    | ok o' =>
      constructor
      · rintro ⟨⟩
        exact ⟨rfl, rfl⟩
      · rintro ⟨⟨⟩, ⟨⟩⟩
        rfl

/-- A send id is credited only if it is read as a text, and then as that text. -/
theorem exists_text_of_credit {origin : Credit} {sendId : Datum} {a : Attribution}
    (hsendId : sendId ≠ .null) (h : credit origin sendId = .ok a) :
    ∃ t, Reading.text sendId = .ok t ∧ a = ofText origin t := by
  obtain ⟨conversionSendId, lastReceivedSendId⟩ := a
  have hmade := Except.mapError_eq_ok_iff.mp h
  cases origin with
  | explicit | conversion =>
    obtain ⟨hread, ⟨⟩⟩ := ofFields_eq_ok_iff.mp hmade
    obtain ⟨t, ht, rfl⟩ := exists_text_of_readSendId hsendId hread
    exact ⟨t, ht, rfl⟩
  | lastReceived =>
    obtain ⟨⟨⟩, hread⟩ := ofFields_eq_ok_iff.mp hmade
    obtain ⟨t, ht, rfl⟩ := exists_text_of_readSendId hsendId hread
    exact ⟨t, ht, rfl⟩

end Attribution

namespace Resolution

/-- The attribution is made, with one send id at most, and its entry can be printed. -/
structure IsSettled (r : Resolution) : Prop where
  outcome : ∃ a, r.outcome = .ok a ∧ (a.conversionSendId = none ∨ a.lastReceivedSendId = none)
  entry : ∀ e ∈ r.entry, e.IsPlain

end Resolution

namespace Sources

variable (s : Sources)

/-- Both sources answer with a text or nothing next. -/
def AnswerTexts : Prop := s.session.AnswersText ∧ s.push.AnswersText

theorem isSettled_credited (inquiries : List Inquiry) (origin : Credit) (t : Text) :
    (s.credited inquiries origin (.text t)).IsSettled where
  outcome := by
    refine ⟨.ofText origin t, Attribution.credit_text origin t, ?_⟩
    cases origin
    · exact .inr rfl
    · exact .inr rfl
    · exact .inl rfl
  entry := by
    rintro e ⟨⟩
    exact Entry.isPlain_attributionResolved origin t

variable {s}

theorem isSettled_resolveLastReceived (h : s.push.AnswersText) (inquiries : List Inquiry) :
    (s.resolveLastReceived inquiries).IsSettled := by
  obtain ⟨t, ht⟩ := h
  have hanswer : (s.ask .lastReceived).1.answer = .value (.ofText? t) := ht
  unfold resolveLastReceived
  dsimp only
  rw [hanswer]
  cases t with
  | none =>
    refine ⟨⟨.none, rfl, .inl rfl⟩, ?_⟩
    rintro e ⟨⟩
    exact Entry.isPlain_attributionResolved_none
  | some t => exact isSettled_credited _ _ .lastReceived t

theorem isSettled_resolveConversion (h : s.AnswerTexts) : s.resolveConversion.IsSettled := by
  obtain ⟨⟨t, ht⟩, hpush⟩ := h
  have hanswer : (s.ask .conversion).1.answer = .value (.ofText? t) := ht
  unfold resolveConversion
  dsimp only
  rw [hanswer]
  cases t with
  | none =>
    have hasked : (s.ask .conversion).2.push.AnswersText := hpush
    exact isSettled_resolveLastReceived hasked _
  | some t => exact isSettled_credited _ _ .conversion t

theorem isSettled_resolve (h : s.AnswerTexts) (explicit : Option Text) :
    (s.resolve (.ofText? explicit)).IsSettled := by
  cases explicit with
  | none => exact isSettled_resolveConversion h
  | some t => exact isSettled_credited s [] .explicit t

/-- A send id that is given is the one that is credited. -/
theorem exists_text_of_resolve {s : Sources} {explicit : Datum} {a : Attribution}
    (hexplicit : explicit ≠ .null) (h : (s.resolve explicit).outcome = .ok a) :
    ∃ t, Reading.text explicit = .ok t ∧ a = .ofText .explicit t := by
  unfold resolve at h
  split at h
  · exact absurd rfl hexplicit
  · exact Attribution.exists_text_of_credit hexplicit h

/-- What is logged speaks of the sources alone. -/
theorem isBackground_resolve (s : Sources) (explicit : Datum) :
    ∀ e ∈ (s.resolve explicit).entry, e.IsBackground := by
  have hlast (s : Sources) (inquiries : List Inquiry) :
      ∀ e ∈ (s.resolveLastReceived inquiries).entry, e.IsBackground := by
    unfold resolveLastReceived
    dsimp only
    split
    · exact nofun
    all_goals
      rintro e ⟨⟩
      trivial
  unfold resolve
  split
  · unfold resolveConversion
    dsimp only
    split
    · exact nofun
    · exact hlast _ _
    · rintro e ⟨⟩
      trivial
  · rintro e ⟨⟩
    trivial

/-! ## What is asked -/

/-- A send id that is given makes all questions needless. -/
theorem inquiries_resolve {s : Sources} {explicit : Datum} (hexplicit : explicit ≠ .null) :
    (s.resolve explicit).inquiries = [] := by
  unfold resolve
  split
  · exact absurd rfl hexplicit
  · rfl

/-- Questions that are put to sources one after another. -/
inductive Asked : Sources → List Inquiry → Sources → Prop where
  | nil (s : Sources) : Asked s [] s
  | cons {s s' : Sources} (q : Question) {inquiries : List Inquiry}
    (h : Asked (s.ask q).2 inquiries s') : Asked s ((s.ask q).1 :: inquiries) s'

theorem asked_one (s : Sources) (q : Question) : Asked s [(s.ask q).1] (s.ask q).2 :=
  .cons q (.nil _)

theorem asked_resolveLastReceived {s s' : Sources} {inquiries : List Inquiry}
    (h : ∀ i s'', Asked s' [i] s'' → Asked s (inquiries ++ [i]) s'') :
    Asked s (s'.resolveLastReceived inquiries).inquiries
      (s'.resolveLastReceived inquiries).sources := by
  have hasked := h _ _ (asked_one s' .lastReceived)
  unfold resolveLastReceived
  dsimp only
  split
  · exact hasked
  · exact hasked
  · exact hasked

theorem asked_resolve (s : Sources) (explicit : Datum) :
    Asked s (s.resolve explicit).inquiries (s.resolve explicit).sources := by
  unfold resolve
  split
  · unfold resolveConversion
    dsimp only
    split
    · exact asked_one s .conversion
    · exact asked_resolveLastReceived fun i s'' h => .cons .conversion h
    · exact asked_one s .conversion
  · exact .nil s

end Sources

/-! ## What the answers decide -/

namespace Answer

/-- A text, nothing, or a failure. -/
inductive IsProper : Answer → Prop where
  | value (t : Option Text) : IsProper (.value (.ofText? t))
  | failure (f : Failure) : IsProper (.failure f)

end Answer

namespace Sources

/--
What is asked for the attribution of an event and what the answers make of it: the conversion goes
before what was last received, and nobody is asked more than that takes.
-/
inductive Decides (s : Sources) : Option Text → List Inquiry → Except Fault Attribution → Prop where
  | explicit (t : Text) : Decides s (some t) [] (.ok ⟨some t, none⟩)
  | sessionFailed {f : Failure} (h : s.session.ask.1 = .failure f) :
    Decides s none [(s.ask .conversion).1] (.error (Question.conversion.fault f))
  | conversion {t : Text} (h : s.session.ask.1 = .value (.text t)) :
    Decides s none [(s.ask .conversion).1] (.ok ⟨some t, none⟩)
  | pushFailed {f : Failure} (hsession : s.session.ask.1 = .value .null)
    (h : s.push.ask.1 = .failure f) :
    Decides s none [(s.ask .conversion).1, (s.ask .lastReceived).1]
      (.error (Question.lastReceived.fault f))
  | lastReceived {t : Text} (hsession : s.session.ask.1 = .value .null)
    (h : s.push.ask.1 = .value (.text t)) :
    Decides s none [(s.ask .conversion).1, (s.ask .lastReceived).1] (.ok ⟨none, some t⟩)
  | nothing (hsession : s.session.ask.1 = .value .null) (h : s.push.ask.1 = .value .null) :
    Decides s none [(s.ask .conversion).1, (s.ask .lastReceived).1] (.ok ⟨none, none⟩)

/-- The answers decide, and what is logged about it can be printed. -/
theorem decides_resolve {s : Sources} (hsession : s.session.ask.1.IsProper)
    (hpush : s.push.ask.1.IsProper) (explicit : Option Text) :
    s.Decides explicit (s.resolve (.ofText? explicit)).inquiries
        (s.resolve (.ofText? explicit)).outcome ∧
      ∀ e ∈ (s.resolve (.ofText? explicit)).entry, e.IsPlain := by
  cases explicit with
  | some t => exact ⟨.explicit t, (isSettled_credited s [] .explicit t).entry⟩
  | none =>
    have hresolve : s.resolve (.ofText? none) = s.resolveConversion := rfl
    have hfirst : (s.ask .conversion).1.answer = s.session.ask.1 := rfl
    have hsecond : ((s.ask .conversion).2.ask .lastReceived).1.answer = s.push.ask.1 := rfl
    rw [hresolve, resolveConversion]
    dsimp only
    rw [hfirst]
    generalize hsaid : s.session.ask.1 = answer at hsession
    cases hsession with
    | failure f => exact ⟨.sessionFailed hsaid, nofun⟩
    | value t =>
      cases t with
      | some t => exact ⟨.conversion hsaid, (isSettled_credited _ _ .conversion t).entry⟩
      | none =>
        dsimp only [Datum.ofText?]
        rw [resolveLastReceived]
        dsimp only
        rw [hsecond]
        generalize hreceived : s.push.ask.1 = answer at hpush
        cases hpush with
        | failure f => exact ⟨.pushFailed hsaid hreceived, nofun⟩
        | value t =>
          cases t with
          | some t =>
            exact ⟨.lastReceived hsaid hreceived, (isSettled_credited _ _ .lastReceived t).entry⟩
          | none =>
            refine ⟨.nothing hsaid hreceived, ?_⟩
            rintro e ⟨⟩
            exact Entry.isPlain_attributionResolved_none

/-- One send id at most is credited. -/
theorem Decides.sendIds {s : Sources} {explicit : Option Text} {inquiries : List Inquiry}
    {a : Attribution} (h : s.Decides explicit inquiries (.ok a)) :
    a.conversionSendId = none ∨ a.lastReceivedSendId = none := by
  cases h with
  | explicit | conversion => exact .inr rfl
  | lastReceived | nothing => exact .inl rfl

end Sources

end Telemetry
