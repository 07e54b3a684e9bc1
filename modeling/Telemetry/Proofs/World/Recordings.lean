import Mathlib.Data.List.Perm.Basic
import Telemetry.Proofs.Samples
import Telemetry.Proofs.World.Drafts

/-!
# What a run records

Operations write to the metrics in three places: an event is created, it is acknowledged by a sink,
a rejection is reported. `World.Records` says that what is recorded from one world to another as the
values of created events are the values of the drafts that were finalized in between, and that these
are stored values. It is closed under sequencing (`Records.trans`). So after any run the histogram
is exact for the events that were created in it (`World.values_of_run`).
-/

namespace Telemetry

open Recording (eventValues)

/-- What is put under a key comes in place of what was there. -/
theorem Registry.values_put_perm {κ α : Type} [DecidableEq κ] (r : Registry κ α) (key : κ)
    (value : α) :
    ((r.get? key).toList ++ (r.put key value).values).Perm (value :: r.values) := by
  obtain ⟨l⟩ := r
  unfold put get? values
  dsimp only
  induction l with
  | nil => exact .refl _
  | cons e rest ih =>
    obtain ⟨k, v⟩ := e
    by_cases hk : k = key
    · simp only [replace, find, if_pos hk, List.map_cons, Option.toList_some]
      exact .swap ..
    · simp only [replace, find, if_neg hk, List.map_cons]
      exact List.perm_middle.trans ((ih.cons v).trans (.swap ..))

namespace World

/-- The values of the events that were created, in the order in which their drafts were opened. -/
def createdValues (w : World) : List Int :=
  (w.drafts.values.filter Draft.finalized).filterMap Draft.eventValue

/-- The metrics have recorded the values of just those events that were created in between. -/
def Records (w w' : World) : Prop :=
  ∃ recordings, w'.metrics = w.metrics.recordAll recordings ∧
    (∀ i ∈ eventValues recordings, EventValue.IsStored i) ∧
    w'.createdValues.Perm (w.createdValues ++ eventValues recordings)

variable {w w' w'' : World}

theorem Records.trans (h : w.Records w') (h' : w'.Records w'') : w.Records w'' := by
  obtain ⟨recordings, hmetrics, hstored, hvalues⟩ := h
  obtain ⟨recordings', hmetrics', hstored', hvalues'⟩ := h'
  refine ⟨recordings ++ recordings', ?_, ?_, ?_⟩
  · rw [hmetrics', hmetrics, Metrics.recordAll_append]
  · rw [Recording.eventValues_append]
    exact List.forall_mem_append.mpr ⟨hstored, hstored'⟩
  · rw [Recording.eventValues_append, ← List.append_assoc]
    exact hvalues'.trans (hvalues.append_right _)

/-- Drafts stay, and nothing or something else than a created event is recorded. -/
theorem Records.of_drafts (recordings : List Recording) (hdrafts : w'.drafts = w.drafts)
    (hmetrics : w'.metrics = w.metrics.recordAll recordings) (hnone : eventValues recordings = []) :
    w.Records w' := by
  refine ⟨recordings, hmetrics, by simp [hnone], ?_⟩
  rw [hnone, List.append_nil, createdValues, hdrafts]
  exact .refl _

theorem Records.of_same (hdrafts : w'.drafts = w.drafts) (hmetrics : w'.metrics = w.metrics) :
    w.Records w' := .of_drafts [] hdrafts hmetrics rfl

theorem Records.refl (w : World) : w.Records w := .of_same rfl rfl

theorem createdValues_withDraft (w : World) (id : DraftId) (d : Draft) :
    ((((w.drafts.get? id).toList.filter Draft.finalized).filterMap Draft.eventValue) ++
      (w.withDraft id d).createdValues).Perm
      (([d].filter Draft.finalized).filterMap Draft.eventValue ++ w.createdValues) := by
  have hperm := ((w.drafts.values_put_perm id d).filter Draft.finalized).filterMap Draft.eventValue
  rwa [List.filter_append, List.filterMap_append, ← List.singleton_append, List.filter_append,
    List.filterMap_append] at hperm

/-- Where a draft is put that is open, as is one that was there, no event was created. -/
theorem records_withDraft {id : DraftId} {d : Draft} (hopen : d.finalized = false)
    (hbefore : ∀ d' ∈ w.drafts.get? id, d'.finalized = false) : w.Records (w.withDraft id d) := by
  have hperm := w.createdValues_withDraft id d
  have hnone : (w.drafts.get? id).toList.filter Draft.finalized = [] := by
    simpa [List.filter_eq_nil_iff] using hbefore
  rw [hnone, List.filter_cons_of_neg (by simp [hopen])] at hperm
  exact ⟨[], rfl, by simp [eventValues], by simpa [eventValues] using hperm⟩

/-- The event of an open draft is recorded with the value of the draft. -/
theorem records_committed {id : DraftId} {d : Draft} (hd : w.drafts.get? id = some d)
    (hopen : d.finalized = false) {r : EventRecord} (hvalue : r.eventValue = d.eventValue)
    (hstored : ∀ i ∈ d.eventValue, EventValue.IsStored i) : w.Records (w.committed id d r) := by
  have hrecorded : eventValues [.created d.eventValue] = [d].filterMap Draft.eventValue := by
    cases hvalue : d.eventValue <;> simp [eventValues, Recording.value?, hvalue]
  have hperm := w.createdValues_withDraft id { d with finalized := true }
  rw [hd, Option.toList_some, List.filter_cons_of_neg (by simp [hopen])] at hperm
  refine ⟨[.created d.eventValue], by rw [← hvalue]; rfl, ?_, ?_⟩
  · rw [hrecorded]
    simpa using hstored
  · rw [hrecorded]
    exact hperm.trans List.perm_append_comm

/-! ## Operations -/

end World

namespace Action

open World (Records)

variable {α β : Type}

/-- The operation records what it does. -/
structure Recorded (a : Action α) : Prop where
  records : ∀ w : World, w.Records (run a w).2

theorem Apart.recorded {a : Action α} (h : Apart a) : Recorded a :=
  ⟨fun w => .of_same (h.drafts w) (h.metrics w)⟩

namespace Recorded

theorem pure (x : α) : Recorded (pure x : Action α) := ⟨fun w => .refl w⟩

theorem bind {a : Action α} {f : α → Action β} (ha : Recorded a) (hf : ∀ x, Recorded (f x)) :
    Recorded (a >>= f) :=
  ⟨fun w => rel_run_bind .trans (ha.records w) fun x w' _ => (hf x).records w'⟩

/-- An update that leaves drafts and metrics as they are. -/
theorem update {f : World → World} (hdrafts : ∀ w, (f w).drafts = w.drafts)
    (hmetrics : ∀ w, (f w).metrics = w.metrics) : Recorded (update f) :=
  ⟨fun w => .of_same (hdrafts w) (hmetrics w)⟩

end Recorded

theorem recorded_log (e : Entry) : Recorded (log e) := by
  constructor
  intro w
  rw [run_log]
  cases w.logging.check e <;> exact .of_same rfl rfl

theorem recorded_submit (id : ServiceId) (r : EventRecord) : Recorded (submit id r) := by
  refine (apart_service id).recorded.bind fun service =>
    (apart_sinkOf id).recorded.bind fun ⟨keeper, sink⟩ => ?_
  refine .bind (.update (fun w => ?_) fun w => ?_) fun _ => (recorded_log _).bind
    fun _ => .bind ?_ fun _ => recorded_log _
  · obtain ⟨services, heq⟩ := w.withSink_eq keeper (sink.take r)
    rw [heq]
  · obtain ⟨services, heq⟩ := w.withSink_eq keeper (sink.take r)
    rw [heq]
  · exact ⟨fun w => .of_drafts [.added sink.className] rfl rfl rfl⟩

theorem recorded_handOver (id : DraftId) (r : EventRecord) : Recorded (handOver id r) := by
  have hdraft : Recorded (draft id) := by
    constructor
    intro w
    rw [draft, run_expect]
    exact .refl w
  exact hdraft.bind fun d => (apart_serviceOf d).recorded.bind fun service =>
    recorded_submit service r

theorem recorded_makeRecord (fields : RecordFields) : Recorded (makeRecord fields) := by
  have hstamp : Recorded (stamp fun freshId now =>
      (EventRecord.ofFields freshId now fields).mapError Fault.invalid) := ⟨fun w => .refl w⟩
  have hkeep (r : EventRecord) : Recorded (keep r) := ⟨fun _ => .of_same rfl rfl⟩
  exact hstamp.bind fun r => (hkeep r).bind fun _ => .pure _

theorem recorded_create (id : DraftId) : Recorded (create id) := by
  constructor
  intro w
  cases hd : w.drafts.get? id with
  | none =>
    rw [run_create_none w hd]
    exact .refl w
  | some d =>
    cases hopen : d.finalized with
    | true =>
      rw [run_create_finalized w hd hopen]
      exact .refl w
    | false =>
      have hquiet := (apart_attributionOf d).recorded.records w
      have hdrafts := (apart_attributionOf d).drafts w
      rw [run_create w hd hopen]
      generalize run (attributionOf d) w = result at hquiet hdrafts ⊢
      obtain ⟨fault | a, w'⟩ := result
      · exact hquiet
      · dsimp only at hquiet hdrafts ⊢
        split
        · exact hquiet
        · next r hrecord =>
          obtain ⟨hvalid, -, rfl⟩ := Draft.record_eq_ok_iff.mp hrecord
          exact hquiet.trans (World.records_committed (hdrafts ▸ hd) hopen rfl hvalid.eventValue)

theorem recorded_add (id : DraftId) : Recorded (add id) :=
  (recorded_create id).bind fun x => (recorded_handOver id x.2).bind fun _ => .pure x

end Action

namespace World

open Telemetry.Action

variable {w : World}

theorem records_afterReport {α : Type} (w : World) (e : Except Fault α) :
    w.Records (w.afterReport e) := by
  unfold afterReport
  split
  · next r => exact .of_drafts [.rejected r.field.key r.kind.name] rfl rfl rfl
  · exact .refl w

/-! ## Steps -/

theorem records_step_openDraft (w : World) (id : DraftId) (name : Datum)
    (service : Option ServiceId) (resolver : Option SourcesId) :
    w.Records (w.step (.openDraft id name service resolver)).2 := by
  rw [step_openDraft]
  cases hcheck : w.checkHandles id service resolver with
  | error fault => exact .refl w
  | ok _ =>
    dsimp only
    cases hname : Draft.ofName name service resolver with
    | error fault => exact w.records_afterReport _
    | ok d =>
      obtain ⟨-, -, -, -, hopen, -⟩ := Draft.ofName_eq_ok_iff.mp hname
      exact records_withDraft hopen (by simp [get?_eq_none_of_checkHandles hcheck])

theorem records_of_write? (w : World) {s : Step} {id : DraftId} {write : Except Fault Draft.Write}
    (hs : s.write? = some (id, write)) : w.Records (w.step s).2 := by
  rw [w.step_of_write? hs]
  cases hd : w.drafts.get? id with
  | none => exact .refl w
  | some d =>
    dsimp only
    cases hput : d.put write with
    | error fault => exact w.records_afterReport _
    | ok d' =>
      obtain ⟨hopen, x, -, rfl⟩ := Draft.put_eq_ok_iff.mp hput
      exact records_withDraft (by simpa using hopen) (by simpa [hd] using hopen)

theorem records_step (w : World) (s : Step) : w.Records (w.step s).2 := by
  -- A step ends in its answer, so the operation before decides.
  have hends {α : Type} {a : Action α} (ha : Recorded a) (f : α → Outcome) :
      w.Records (Action.run (a >>= fun x => pure (f x)) w).2 :=
    (ha.bind fun _ => .pure _).records w
  cases s with
  | setVariables | reloadSettings => exact .of_same rfl rfl
  | readSettings => exact hends apart_settings.recorded _
  | openService => exact hends (apart_openService ..).recorded _
  | share => exact hends (apart_share _).recorded _
  | lookUpShared => exact hends apart_sharedService.recorded _
  | start => exact hends (apart_start ..).recorded _
  | makeRecord fields => exact hends (recorded_makeRecord fields) _
  | openResolver => exact hends (apart_openResolver ..).recorded _
  | openDraft => exact w.records_step_openDraft ..
  | setInteractionFromMessage id m =>
    cases hs : (Step.setInteractionFromMessage id m).write? with
    | some call => exact w.records_of_write? hs
    | none =>
      obtain ⟨fault, hfault⟩ := Step.exists_fault_of_write? hs
      rw [w.step_of_messageId_error hfault]
      exact .refl w
  | setTransactionId | setInteraction | setEventValue | setAttribution =>
    exact w.records_of_write? rfl
  | create id => exact hends (recorded_create id) _
  | add id => exact hends (recorded_add id) _
  | setConversion | setLastReceived => exact hends (apart_setSendId ..).recorded _
  | sendIds => exact hends (apart_sendIds _).recorded _
  | resolve => exact hends (apart_resolve ..).recorded _
  | submit id r => exact hends (recorded_submit id r) _
  | recent => exact hends (apart_recent ..).recorded _
  | checkHealth => exact hends (apart_isHealthy _).recorded _

theorem records_run (w : World) (steps : List Step) : w.Records (w.run steps) := by
  induction steps generalizing w with
  | nil => exact .refl w
  | cons s steps ih => exact (w.records_step s).trans (ih (w.step s).2)

/-- What a run records, and what it goes on to record when it is continued. -/
theorem exists_recordings_of_run (host : Host) (environment : Environment)
    (steps later : List Step) :
    let w := (fresh host environment).run steps
    ∃ recordings recordings',
      (∀ i ∈ eventValues recordings, EventValue.IsStored i) ∧
      (∀ i ∈ eventValues recordings', EventValue.IsStored i) ∧
      w.metrics = Metrics.fresh.recordAll recordings ∧
      (w.run later).metrics = Metrics.fresh.recordAll (recordings ++ recordings') ∧
      w.createdValues.Perm (eventValues recordings) ∧
      (w.run later).createdValues.Perm (eventValues (recordings ++ recordings')) := by
  intro w
  obtain ⟨recordings, hmetrics, hstored, hvalues⟩ := (fresh host environment).records_run steps
  obtain ⟨recordings', hmetrics', hstored', hvalues'⟩ := w.records_run later
  refine ⟨recordings, recordings', hstored, hstored', hmetrics, ?_, hvalues, ?_⟩
  · rw [hmetrics', Metrics.recordAll_append]
    exact congrArg (·.recordAll recordings') hmetrics
  · rw [Recording.eventValues_append]
    exact hvalues'.trans (hvalues.append_right _)

/--
The histogram of the values is exact, whatever was recorded in whatever order: metrics publish the
number of the events with a value, for each bound the number of those whose size is no larger, and
the sum of the sizes as long as it is at most `2 ^ 53`; and nothing that is published becomes
smaller. In a run the values are those of the events that were created.
-/
theorem values_of_run :
    (∀ recordings later : List Recording,
      (∀ i ∈ eventValues (recordings ++ later), EventValue.IsStored i) →
        (Metrics.fresh.recordAll recordings).ExactAlong (eventValues recordings)
          (Metrics.fresh.recordAll (recordings ++ later)) (eventValues (recordings ++ later))) ∧
    ∀ host environment steps later,
      let w := (fresh host environment).run steps
      w.metrics.ExactAlong w.createdValues (w.run later).metrics (w.run later).createdValues := by
  refine ⟨?_, ?_⟩
  · intro recordings later h
    rw [Recording.eventValues_append, List.forall_mem_append] at h
    exact Metrics.exactAlong_recordAll h.1 h.2
  · intro host environment steps later
    obtain ⟨recordings, recordings', hstored, hstored', hmetrics, hmetrics', hvalues, hvalues'⟩ :=
      exists_recordings_of_run host environment steps later
    dsimp only
    rw [hmetrics, hmetrics']
    obtain ⟨samples, samples', hnow, hlater, hgrown⟩ :=
      Metrics.exactAlong_recordAll hstored hstored'
    exact ⟨samples, samples', hnow.of_perm hvalues.symm, hlater.of_perm hvalues'.symm, hgrown⟩

/-- The smallest value there is, no value, and a value that is just at a bound. -/
def extremeRecordings : List Recording :=
  [.created (some EventValue.minStored), .added "LogSink", .created none,
    .created (some 1000000)]

/-- The value of the one event that is created is just at a bound too. -/
def boundRun : World :=
  (fresh ⟨fun _ => "event", fun _ => "session", fun _ => .zero false⟩ ⟨[], none⟩).run
    [.openService (.named 0) (some .log) none none (.text "session"),
      .openDraft ⟨0⟩ (.text "purchase") (some (.named 0)) none,
      .setEventValue ⟨0⟩ (.int (-10)),
      .create ⟨0⟩]

theorem values_of_run_extremes :
    (∃ samples, (Metrics.fresh.recordAll extremeRecordings).publish = .ok samples ∧
      Sample.bucket "0.0" 0 ∈ samples ∧ Sample.bucket "1e+06" 1 ∈ samples ∧
      Sample.bucket "1e+15" 1 ∈ samples ∧ Sample.bucket "+Inf" 2 ∈ samples ∧
      Sample.sum 2147483649000000 ∈ samples) ∧
    ∃ samples, boundRun.metrics.publish = .ok samples ∧ Sample.bucket "1e+06" 0 ∈ samples ∧
      Sample.bucket "1e+07" 1 ∈ samples ∧ Sample.sum 10000000 ∈ samples := by
  obtain ⟨hrecorded, hrun⟩ := values_of_run
  obtain ⟨samples, -, h, -⟩ := hrecorded extremeRecordings [] (by decide)
  have hvalues : boundRun.createdValues = [-10000000] := rfl
  obtain ⟨samples', -, h', -⟩ : boundRun.metrics.ExactAlong boundRun.createdValues _ _ :=
    hrun _ _ _ []
  rw [hvalues] at h'
  exact ⟨⟨samples, h.publish, h.upTo (0, "0.0") (by decide), h.upTo (1000000, "1e+06") (by decide),
    h.upTo (1000000000000000, "1e+15") (by decide), h.beyond, (h.sum (by decide)).1⟩,
    samples', h'.publish, h'.upTo (1000000, "1e+06") (by decide),
    h'.upTo (10000000, "1e+07") (by decide), (h'.sum (by decide)).1⟩

end World

end Telemetry
