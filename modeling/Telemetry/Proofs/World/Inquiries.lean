import Telemetry.Proofs.World.Creation
import Telemetry.Proofs.World.Linked

/-!
# Sources are asked in turn

Whatever steps are taken, an external source goes on by one answer for each question that was put
to it, and all these questions are noted; a source that is set from outside gives what it holds
(`World.inTurn_run`). So the answers that are noted of a source are its answers in turn, and no
answer is kept for later.
-/

namespace Telemetry

/-! ## How a source goes on -/

namespace Source

/--
How a source goes on while it gives some answers. One of its own gives its next ones; one that is
set from outside gives what it holds, or is set; where there is none, asking fails each time.
-/
inductive Moves (sets : Bool) : Source → List Answer → Source → Prop where
  | held (sendId : Datum) (n : Nat) :
    Moves sets (held sendId) (List.replicate n (.value sendId)) (held sendId)
  | set (hsets : sets = true) (old : Datum) (given : List Answer) (new : Datum) :
    Moves sets (held old) given (held new)
  | external (answers : Nat → Answer) (asked n : Nat) :
    Moves sets (external answers asked) ((List.range' asked n).map answers)
      (external answers (asked + n))
  | lacking (kind : Text) (n : Nat) :
    Moves sets (lacking kind) (List.replicate n (.failure (.lacking kind))) (lacking kind)

theorem Moves.refl {sets : Bool} (s : Source) : Moves sets s [] s := by
  cases s with
  | held sendId => exact .held sendId 0
  | external answers asked => exact .external answers asked 0
  | lacking kind => exact .lacking kind 0

theorem Moves.trans {sets : Bool} {s s' s'' : Source} {given given' : List Answer}
    (h : Moves sets s given s') (h' : Moves sets s' given' s'') :
    Moves sets s (given ++ given') s'' := by
  cases h with
  | held sendId n =>
    cases h' with
    | held _ m =>
      rw [List.replicate_append_replicate]
      exact .held ..
    | set hsets => exact .set hsets ..
  | set hsets =>
    cases h' with
    | held => exact .set hsets ..
    | set => exact .set hsets ..
  | external answers asked n =>
    cases h' with
    | external _ _ m =>
      rw [← List.map_append, List.range'_append_1, Nat.add_assoc]
      exact .external ..
  | lacking kind n =>
    cases h' with
    | lacking _ m =>
      rw [List.replicate_append_replicate]
      exact .lacking ..

theorem Moves.mono {sets sets' : Bool} {s s' : Source} {given : List Answer}
    (h : Moves sets s given s') (hsets : sets = true → sets' = true) : Moves sets' s given s' := by
  cases h with
  | held sendId n => exact .held sendId n
  | set hset => exact .set (hsets hset) ..
  | external answers asked n => exact .external answers asked n
  | lacking kind n => exact .lacking kind n

theorem moves_ask {sets : Bool} (s : Source) : Moves sets s [s.ask.1] s.ask.2 := by
  cases s with
  | held sendId => exact .held sendId 1
  | external answers asked => exact .external answers asked 1
  | lacking kind => exact .lacking kind 1

end Source

/-- The answers to a question. -/
def answersTo (q : Question) (inquiries : List Inquiry) : List Answer :=
  (inquiries.filter fun i => i.question = q).map (·.answer)

theorem answersTo_cons (q : Question) (i : Inquiry) (inquiries : List Inquiry) :
    answersTo q (i :: inquiries) = answersTo q [i] ++ answersTo q inquiries := by
  unfold answersTo
  rw [← List.map_append, ← List.filter_append]
  rfl

namespace Sources

theorem source_withSource (s : Sources) (q : Question) (source : Source) (other : Question) :
    (s.withSource q source).source other = if other = q then source else s.source other := by
  cases q <;> cases other <;> rfl

theorem moves_ask {sets : Bool} (s : Sources) (asked q : Question) :
    (s.source q).Moves sets (answersTo q [(s.ask asked).1]) ((s.ask asked).2.source q) := by
  have hsource : (s.ask asked).2.source q =
      if q = asked then (s.source asked).ask.2 else s.source q := s.source_withSource ..
  rw [hsource]
  by_cases h : q = asked
  · subst h
    rw [if_pos rfl]
    have hanswers : answersTo q [(s.ask q).1] = [(s.source q).ask.1] := by simp [answersTo, ask]
    rw [hanswers]
    exact (s.source q).moves_ask
  · rw [if_neg h]
    have hanswers : answersTo q [(s.ask asked).1] = [] := by simp [answersTo, ask, Ne.symm h]
    rw [hanswers]
    exact .refl _

theorem Asked.moves {sets : Bool} {s s' : Sources} {inquiries : List Inquiry}
    (h : s.Asked inquiries s') (q : Question) :
    (s.source q).Moves sets (answersTo q inquiries) (s'.source q) := by
  induction h with
  | nil s => exact .refl _
  | @cons s s' asked inquiries _ ih =>
    rw [answersTo_cons]
    exact (s.moves_ask asked q).trans ih

end Sources

/-! ## Questions along a run -/

namespace World

/-- The answers that a source at a place gave, in order. -/
def answersAt (place : SourcesId) (q : Question) (trace : List (SourcesId × Inquiry)) :
    List Answer :=
  answersTo q ((trace.filter fun i => i.1 = place).map (·.2))

theorem answersAt_append (place : SourcesId) (q : Question)
    (trace trace' : List (SourcesId × Inquiry)) :
    answersAt place q (trace ++ trace') = answersAt place q trace ++ answersAt place q trace' := by
  simp [answersAt, answersTo]

theorem answersAt_map (place other : SourcesId) (q : Question) (inquiries : List Inquiry) :
    answersAt other q (inquiries.map fun i => (place, i)) =
      if other = place then answersTo q inquiries else [] := by
  unfold answersAt
  rw [List.filter_map]
  by_cases h : other = place
  · simp [h, Function.comp_def]
  · simp [h, Ne.symm h, Function.comp_def, answersTo]

/-- More was noted, and every source that was there has gone on by just what was noted of it. -/
def InTurn (sets : Bool) (w w' : World) : Prop :=
  ∃ trace, w'.inquiries = w.inquiries ++ trace ∧
    ∀ place s, w.sources? place = some s → ∃ s', w'.sources? place = some s' ∧
      ∀ q, (s.source q).Moves sets (answersAt place q trace) (s'.source q)

section

variable {sets : Bool} {w w' w'' : World}

theorem InTurn.of_same (hinquiries : w'.inquiries = w.inquiries)
    (h : ∀ place s, w.sources? place = some s → w'.sources? place = some s) : InTurn sets w w' :=
  ⟨[], by simp [hinquiries], fun place s hs => ⟨s, h place s hs, fun q => .refl _⟩⟩

theorem InTurn.mono {sets' : Bool} (h : InTurn sets w w') (hsets : sets = true → sets' = true) :
    InTurn sets' w w' := by
  obtain ⟨trace, hinquiries, hmoves⟩ := h
  refine ⟨trace, hinquiries, fun place s hs => ?_⟩
  obtain ⟨s', hs', hmove⟩ := hmoves place s hs
  exact ⟨s', hs', fun q => (hmove q).mono hsets⟩

theorem InTurn.trans (h : InTurn sets w w') (h' : InTurn sets w' w'') : InTurn sets w w'' := by
  obtain ⟨trace, hinquiries, hmoves⟩ := h
  obtain ⟨trace', hinquiries', hmoves'⟩ := h'
  refine ⟨trace ++ trace', by rw [hinquiries', hinquiries, List.append_assoc], ?_⟩
  intro place s hs
  obtain ⟨s', hs', hmove⟩ := hmoves place s hs
  obtain ⟨s'', hs'', hmove'⟩ := hmoves' place s' hs'
  refine ⟨s'', hs'', fun q => ?_⟩
  rw [answersAt_append]
  exact (hmove q).trans (hmove' q)

theorem Change.inTurn {asks delivers : Bool} (h : Change asks sets delivers w w') :
    InTurn sets w w' := by
  cases h with
  | other h =>
    refine .of_same h.inquiries fun place s hs => ?_
    cases place with
    | service id => rwa [sources?, h.services]
    | resolver id => rwa [sources?, h.resolvers]
  | @enter id hfree =>
    refine .of_same rfl fun place s hs => ?_
    cases place with
    | resolver _ => exact hs
    | service other =>
      have hne : other ≠ id := by
        rintro rfl
        rw [sources?, hfree] at hs
        cases hs
      rwa [sources?, Registry.get?_put_of_ne _ hne]
  | @openResolver id hfree sources =>
    refine .of_same rfl fun place s hs => ?_
    cases place with
    | service _ => exact hs
    | resolver other =>
      have hne : other ≠ id := by
        rintro rfl
        rw [sources?, hfree] at hs
        cases hs
      rwa [sources?, Registry.get?_put_of_ne _ hne]
  | share => exact .of_same rfl fun place s hs => hs
  | @set hsets id s q old hs hheld sendId =>
    obtain ⟨services, resolvers, heq⟩ :=
      withSources_eq w (.service id) (s.withSource q (.held sendId))
    refine ⟨[], by simp [heq], fun place s₀ hs₀ => ?_⟩
    rw [sources?_withSources hs]
    by_cases hplace : place = .service id
    · subst hplace
      obtain rfl := Option.some.inj (hs.symm.trans hs₀)
      refine ⟨_, if_pos rfl, fun other => ?_⟩
      rw [Sources.source_withSource]
      by_cases hq : other = q
      · rw [if_pos hq, hq, hheld]
        exact .set hsets ..
      · rw [if_neg hq]
        exact .refl _
    · exact ⟨s₀, (if_neg hplace).trans hs₀, fun q => .refl _⟩
  | @ask _ place s s' inquiries hs hasked =>
    obtain ⟨services, resolvers, heq⟩ := withSources_eq w place s'
    refine ⟨inquiries.map fun i => (place, i), by rw [asked, heq], fun other s₀ hs₀ => ?_⟩
    have hsources : (w.asked place inquiries s').sources? other =
        (w.withSources place s').sources? other := by cases other <;> rfl
    rw [hsources, sources?_withSources hs]
    by_cases hplace : other = place
    · subst hplace
      obtain rfl := Option.some.inj (hs.symm.trans hs₀)
      refine ⟨s', if_pos rfl, fun q => ?_⟩
      rw [answersAt_map, if_pos rfl]
      exact hasked.moves q
    · refine ⟨s₀, (if_neg hplace).trans hs₀, fun q => ?_⟩
      rw [answersAt_map, if_neg hplace]
      exact .refl _
  | @deliver _ keeper sink _ r =>
    obtain ⟨services, heq⟩ := w.delivered_eq keeper sink r
    refine .of_same (by rw [heq]) fun place s hs => ?_
    have hsources := sources?_withSink w keeper (sink.take r) place
    have hsame : (w.delivered keeper sink r).sources? place =
        (w.withSink keeper (sink.take r)).sources? place := by cases place <;> rfl
    rw [hsame, hsources, hs]

theorem Changes.inTurn {asks delivers : Bool} (h : Changes asks sets delivers w w') :
    InTurn sets w w' := by
  induction h with
  | refl => exact .of_same rfl fun _ _ hs => hs
  | tail _ hlast ih => exact ih.trans hlast.inTurn

/-- Sources are asked in turn in every run; only setting a send id moves one otherwise. -/
theorem inTurn_run (w : World) (steps : List Step) :
    InTurn (steps.any Step.sets) w (w.run steps) := by
  induction steps generalizing w with
  | nil => exact .of_same rfl fun _ _ hs => hs
  | cons s steps ih =>
    have hstep := (w.changes_step s).inTurn
    refine (hstep.mono fun h => ?_).trans ((ih _).mono fun h => ?_)
    · simp [h]
    · rw [List.any_cons, h, Bool.or_true]

end

end World

end Telemetry
