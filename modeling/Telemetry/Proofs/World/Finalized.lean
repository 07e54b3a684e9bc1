import Telemetry.Proofs.World.Creation
import Telemetry.Proofs.World.Deliveries

/-!
# A draft makes one event at most

A finalized draft refuses every call and nothing changes, whatever the call is given
(`World.step_of_finalized`), and no step reopens it (`World.get?_drafts_run`). A call that makes an
event finalizes the draft, so it is the last one that does anything (`World.taken_cases`). Over a
whole run this is `World.one_event_of_run`.
-/

namespace Telemetry

/-- The draft that a step is called on; a setter with a message that has no id comes to none. -/
def Step.draft? : Step → Option DraftId
  | create id | add id => some id
  | s => s.write?.map (·.1)

namespace World

open Telemetry.Action

/-- There is a draft under the handle, and it is finalized. -/
def IsFinalized (w : World) (id : DraftId) : Prop :=
  ∃ d, w.drafts.get? id = some d ∧ d.finalized = true

variable {w w' : World} {id : DraftId}

theorem IsFinalized.of_get? (h : w.IsFinalized id)
    (hsame : w'.drafts.get? id = w.drafts.get? id) : w'.IsFinalized id := by
  obtain ⟨d, hd, hfinalized⟩ := h
  exact ⟨d, hsame.trans hd, hfinalized⟩

/-! ## Finalized drafts -/

/-- A call on a finalized draft is refused, and nothing at all is changed. -/
theorem step_of_finalized (h : w.IsFinalized id) {s : Step} (hs : s.draft? = some id) :
    w.step s = (.error .finalized, w) := by
  obtain ⟨d, hd, hfinalized⟩ := h
  have hcreate := run_create_finalized w hd hfinalized
  -- A setter looks at the draft before it looks at what it is given.
  have hsetter (h : s.write?.map (·.1) = some id) : w.step s = (.error .finalized, w) := by
    obtain ⟨⟨_, write⟩, hwrite, rfl⟩ := Option.map_eq_some_iff.mp h
    have hput : d.put write = .error .finalized := by rw [Draft.put, if_pos hfinalized]
    rw [w.step_of_write? hwrite, hd]
    dsimp only
    rw [hput]
    rfl
  cases s with
  | create _ =>
    obtain rfl := Option.some.inj hs
    rw [step_create, hcreate]
    rfl
  | add _ =>
    obtain rfl := Option.some.inj hs
    rw [step_add, run_add, hcreate]
    rfl
  | _ => exact hsetter hs

theorem get?_drafts_step (h : w.IsFinalized id) (s : Step) :
    (w.step s).2.drafts.get? id = w.drafts.get? id := by
  obtain ⟨d, hd, hfinalized⟩ := h
  rcases w.step_drafts s with hsame | ⟨changed, d', hchange, -, hput⟩
  · rw [hsame]
  · have hid : id ≠ changed := by
      rintro rfl
      rw [hd] at hchange
      cases hchange with
      | written hopen => simp [hfinalized] at hopen
      | finalized hopen => simp [hfinalized] at hopen
    rw [hput, Registry.get?_put_of_ne _ hid]

theorem IsFinalized.step (h : w.IsFinalized id) (s : Step) : (w.step s).2.IsFinalized id :=
  h.of_get? (get?_drafts_step h s)

theorem get?_drafts_run (h : w.IsFinalized id) (steps : List Step) :
    (w.run steps).drafts.get? id = w.drafts.get? id := by
  induction steps generalizing w with
  | nil => rfl
  | cons s steps ih => exact (ih (h.step s)).trans (get?_drafts_step h s)

theorem IsFinalized.run (h : w.IsFinalized id) (steps : List Step) :
    (w.run steps).IsFinalized id := h.of_get? (get?_drafts_run h steps)

/-! ## Calls that make an event -/

/-- A draft whose event was created is finalized, and else it is as it was. -/
theorem exists_draft_of_run_create {x : Nat × EventRecord}
    (h : Action.run (create id) w = (.ok x, w')) :
    ∃ d, w.drafts.get? id = some d ∧ d.finalized = false ∧
      w'.drafts.get? id = some { d with finalized := true } := by
  cases hd : w.drafts.get? id with
  | none =>
    rw [run_create_none w hd] at h
    cases h
  | some d =>
    cases hopen : d.finalized with
    | true =>
      rw [run_create_finalized w hd hopen] at h
      cases h
    | false =>
      rw [run_create w hd hopen] at h
      split at h
      · cases h
      · split at h
        · cases h
        · cases h
          exact ⟨d, rfl, hopen, Registry.get?_put_self ..⟩

theorem isFinalized_of_run_create {x : Nat × EventRecord}
    (h : Action.run (create id) w = (.ok x, w')) : w'.IsFinalized id := by
  obtain ⟨d, -, -, hd⟩ := exists_draft_of_run_create h
  exact ⟨_, hd, rfl⟩

/-- Adding an event hands it to one service at most, and that only after the draft was finalized. -/
theorem handed_add (w : World) (id : DraftId) :
    (∃ fault, (Action.run (add id) w).1 = .error fault ∧
        Handed w [] (Action.run (add id) w).2) ∨
      (Action.run (add id) w).2.IsFinalized id ∧
        ∃ trace, Handed w trace (Action.run (add id) w).2 ∧ trace.length ≤ 1 := by
  have hquiet := handed_create w id
  rw [run_add]
  cases hcreate : Action.run (create id) w with
  | mk result w' =>
    rw [hcreate] at hquiet
    cases result with
    | error fault => exact .inl ⟨fault, rfl, hquiet⟩
    | ok x =>
      obtain ⟨trace, hhanded, htrace⟩ := handed_handOver w' id x.2
      have hdrafts := (keepsDrafts_handOver id x.2).drafts_run w'
      have hfinalized := (isFinalized_of_run_create hcreate).of_get? (by rw [hdrafts])
      refine .inr ⟨hfinalized, trace, hquiet.trans hhanded, ?_⟩
      rcases htrace with rfl | ⟨service, rfl⟩ <;> simp

/-! ## All calls of a run -/

/-- A step that was taken: the world before it, how it ended, and the world after it. -/
structure Taken where
  before : World
  outcome : Except Fault Outcome
  after : World

namespace Taken

/-- The record that a call answers with, if it does. -/
def records (c : Taken) : List EventRecord :=
  match c.outcome with
  | .ok (.record _ r) => [r]
  | _ => []

/-- The events that were handed over in a call. -/
def deliveries (c : Taken) : List (ServiceId × EventRecord) :=
  c.after.deliveries.drop c.before.deliveries.length

theorem deliveries_of_handed {c : Taken} {trace : List (ServiceId × EventRecord)}
    (h : Handed c.before trace c.after) : c.deliveries = trace := by
  rw [deliveries, h.deliveries, List.drop_left]

theorem length_records_le (c : Taken) : c.records.length ≤ 1 := by
  unfold records
  split <;> simp

end Taken

/-- The step as a call in a world. -/
def taken (w : World) (s : Step) : Taken := ⟨w, (w.step s).1, (w.step s).2⟩

/-- The calls on a draft in a run. -/
def takenOn (id : DraftId) (w : World) : List Step → List Taken
  | [] => []
  | s :: rest =>
    if s.draft? = some id then w.taken s :: takenOn id (w.step s).2 rest
    else takenOn id (w.step s).2 rest

/-- Sinks take nothing in a call but what is handed over in it. -/
theorem handed_taken (w : World) (s : Step) :
    Handed w (w.taken s).deliveries (w.step s).2 := by
  obtain ⟨trace, hhanded, -⟩ := (w.changes_step s).handed
  have hdeliveries : (w.taken s).deliveries = trace := Taken.deliveries_of_handed hhanded
  rwa [hdeliveries]

theorem records_taken_of_error {s : Step} {fault : Fault} (h : (w.step s).1 = .error fault) :
    (w.taken s).records = [] := by
  unfold taken Taken.records
  rw [h]

theorem taken_of_write? {s : Step} {write : Except Fault Draft.Write}
    (h : s.write? = some (id, write)) :
    (w.taken s).records = [] ∧ (w.taken s).deliveries = [] := by
  have hdelivers : s.delivers = false := by
    cases s with
    | add | submit => cases h
    | _ => rfl
  have hchanges := w.changes_step s
  rw [hdelivers] at hchanges
  refine ⟨?_, Taken.deliveries_of_handed hchanges.handed_nil⟩
  have hstep := w.step_of_write? h
  unfold taken Taken.records
  rw [hstep]
  cases w.drafts.get? id with
  | none => rfl
  | some d =>
    dsimp only
    cases d.put write <;> rfl

/-- A call on a draft makes nothing, or it is the last that does: the draft is finalized. -/
theorem taken_cases (w : World) {s : Step} (hs : s.draft? = some id) :
    (w.taken s).records = [] ∧ (w.taken s).deliveries = [] ∨
      (w.step s).2.IsFinalized id ∧ (w.taken s).records.length ≤ 1 ∧
        (w.taken s).deliveries.length ≤ 1 := by
  have hsetter (h : s.write?.map (·.1) = some id) :
      (w.taken s).records = [] ∧ (w.taken s).deliveries = [] := by
    obtain ⟨⟨_, write⟩, hwrite, rfl⟩ := Option.map_eq_some_iff.mp h
    exact taken_of_write? hwrite
  cases s with
  | create id =>
    obtain rfl := Option.some.inj hs
    have hquiet : (w.taken (.create id)).deliveries = [] := by
      refine Taken.deliveries_of_handed ?_
      have hhanded := handed_create w id
      unfold taken
      rwa [step_create]
    cases hcreate : Action.run (create id) w with
    | mk result w' =>
      have hstep := w.step_create id
      rw [hcreate] at hstep
      cases result with
      | error fault => exact .inl ⟨records_taken_of_error (congrArg Prod.fst hstep), hquiet⟩
      | ok x =>
        refine .inr ⟨?_, Taken.length_records_le _, by simp [hquiet]⟩
        rw [hstep]
        exact isFinalized_of_run_create hcreate
  | add id =>
    obtain rfl := Option.some.inj hs
    have hstep := w.step_add id
    have hdeliveries {trace : List (ServiceId × EventRecord)}
        (hhanded : Handed w trace (Action.run (add id) w).2) :
        (w.taken (.add id)).deliveries = trace := by
      refine Taken.deliveries_of_handed ?_
      unfold taken
      rwa [hstep]
    rcases handed_add w id with ⟨fault, herror, hhanded⟩ | ⟨hfinalized, trace, hhanded, htrace⟩
    · have hfault : (w.step (.add id)).1 = .error fault := by
        rw [hstep, herror]
        rfl
      exact .inl ⟨records_taken_of_error hfault, hdeliveries hhanded⟩
    · refine .inr ⟨?_, Taken.length_records_le _, by rwa [hdeliveries hhanded]⟩
      rwa [hstep]
  | _ => exact .inl (hsetter hs)

theorem takenOn_of_finalized (h : w.IsFinalized id) (steps : List Step) :
    ∀ c ∈ takenOn id w steps, c.records = [] ∧ c.deliveries = [] := by
  induction steps generalizing w with
  | nil => simp [takenOn]
  | cons s steps ih =>
    intro c hc
    unfold takenOn at hc
    split at hc
    · next hs =>
      have hstep := step_of_finalized h hs
      rcases List.mem_cons.mp hc with rfl | hc
      · refine ⟨records_taken_of_error (congrArg Prod.fst hstep), Taken.deliveries_of_handed ?_⟩
        unfold taken
        rw [hstep]
        exact .of_eq rfl rfl
      · exact ih (h.step s) c hc
    · exact ih (h.step s) c hc

/-- All calls on a draft together make one event at most. -/
theorem length_takenOn_le (id : DraftId) (w : World) (steps : List Step) :
    ((takenOn id w steps).flatMap Taken.records).length ≤ 1 ∧
      ((takenOn id w steps).flatMap Taken.deliveries).length ≤ 1 := by
  induction steps generalizing w with
  | nil => simp [takenOn]
  | cons s steps ih =>
    unfold takenOn
    split
    · next hs =>
      -- A call that makes nothing leaves it to the rest; after one that does, all is over.
      rcases w.taken_cases hs with ⟨hrecords, hdeliveries⟩ | ⟨hfinalized, hrecords, hdeliveries⟩
      · simp only [List.flatMap_cons, hrecords, hdeliveries, List.nil_append]
        exact ih _
      · have hrest := takenOn_of_finalized hfinalized steps
        have hnone : (takenOn id (w.step s).2 steps).flatMap Taken.records = [] :=
          List.flatMap_eq_nil_iff.mpr fun c hc => (hrest c hc).1
        have hnone' : (takenOn id (w.step s).2 steps).flatMap Taken.deliveries = [] :=
          List.flatMap_eq_nil_iff.mpr fun c hc => (hrest c hc).2
        simp only [List.flatMap_cons, hnone, hnone', List.append_nil]
        exact ⟨hrecords, hdeliveries⟩
    · exact ih _

theorem handed_of_mem_takenOn {c : Taken} (w : World) {steps : List Step}
    (hc : c ∈ takenOn id w steps) : Handed c.before c.deliveries c.after := by
  induction steps generalizing w with
  | nil => cases hc
  | cons s steps ih =>
    unfold takenOn at hc
    split at hc
    · rcases List.mem_cons.mp hc with rfl | hc
      · exact w.handed_taken s
      · exact ih _ hc
    · exact ih _ hc

theorem isFinalized_of_record {s : Step} (hs : s.draft? = some id) {n : Nat} {r : EventRecord}
    (h : (w.step s).1 = .ok (.record n r)) : (w.step s).2.IsFinalized id := by
  rcases w.taken_cases hs with ⟨hrecords, -⟩ | ⟨hfinalized, -⟩
  · unfold taken Taken.records at hrecords
    rw [h] at hrecords
    cases hrecords
  · exact hfinalized

/--
A call that answers with the event of a draft finalizes it. From then on the draft stays as it is,
every call on it is refused and changes nothing. So in every run all calls on a draft together
answer with one record at most, and hand one at most to all sinks together.
-/
theorem one_event_of_run (w : World) (id : DraftId) :
    (∀ s n r, s.draft? = some id → (w.step s).1 = .ok (.record n r) →
      (w.step s).2.IsFinalized id) ∧
    (w.IsFinalized id → ∀ later,
      (w.run later).drafts.get? id = w.drafts.get? id ∧
      ∀ s, s.draft? = some id → (w.run later).step s = (.error .finalized, w.run later)) ∧
    ∀ steps,
      (∀ c ∈ takenOn id w steps, Handed c.before c.deliveries c.after) ∧
      ((takenOn id w steps).flatMap Taken.records).length ≤ 1 ∧
      ((takenOn id w steps).flatMap Taken.deliveries).length ≤ 1 := by
  refine ⟨fun s n r hs h => isFinalized_of_record hs h, fun h later => ?_, fun steps => ?_⟩
  · exact ⟨get?_drafts_run h later, fun s hs => step_of_finalized (h.run later) hs⟩
  · exact ⟨fun c hc => handed_of_mem_takenOn w hc, length_takenOn_le id w steps⟩

/-- Once its event was created, a draft refuses a value that it would have rejected anyway. -/
theorem one_event_of_run_rejected_value :
    let host : Host := ⟨fun _ => "event", fun _ => "session", fun _ => Binary64.zero false⟩
    let w := (fresh host ⟨[], none⟩).run [
      .openService (.named 0) (some .log) none none (.text "session"),
      .openDraft ⟨0⟩ (.text "purchase") (some (.named 0)) none]
    let w' := (w.step (.create ⟨0⟩)).2
    ∃ n r, (w.step (.create ⟨0⟩)).1 = .ok (.record n r) ∧ w'.IsFinalized ⟨0⟩ ∧
      w'.step (.setEventValue ⟨0⟩ (.text "many")) = (.error .finalized, w') := by
  intro host w w'
  have hdraft : w.drafts.get? ⟨0⟩ = some _ := rfl
  obtain ⟨n, r, w'', hcreate, -⟩ := exists_run_create hdraft (valid_of_run hdraft) ⟨none, rfl⟩ rfl rfl
    ⟨⟨none, rfl⟩, ⟨none, rfl⟩⟩
  have hrecord : (w.step (.create ⟨0⟩)).1 = .ok (.record n r) := by
    rw [step_create, hcreate]
    rfl
  have hfinalized := (one_event_of_run w ⟨0⟩).1 _ n r rfl hrecord
  exact ⟨n, r, hrecord, hfinalized, ((one_event_of_run w' ⟨0⟩).2.1 hfinalized []).2 _ rfl⟩

end World

end Telemetry
