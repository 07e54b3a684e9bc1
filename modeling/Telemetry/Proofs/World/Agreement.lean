import Telemetry.Proofs.EventRecord.Admission
import Telemetry.Proofs.World.Adding
import Telemetry.Proofs.World.Calls

/-!
# Drafts and records check the same

A draft checks its fields when they are set, and the model of records checks them once more. Here
the two are compared field by field: what a draft takes is what the model admits
(`World.isOk_step_of_write?` and the `iff` lemmas of both sides). So nothing that a draft holds is
refused later. The converse needs a run for every valid record: its service holds the send ids, and
its value is set as a decimal in millionths (`World.exists_run_of_valid`).
-/

namespace Telemetry

/-! ## What a draft takes -/

namespace Draft

theorem isOk_ofName_iff {t : Text} {service : Option ServiceId} {resolver : Option SourcesId} :
    (ofName (.text t) service resolver).isOk ↔ t.IsEventName := by
  unfold ofName
  cases hcheck : checkRequired .eventName (.text t) with
  | error fault =>
    refine ⟨nofun, fun ht => ?_⟩
    rw [checkRequired_eq_ok_iff.mpr ⟨rfl, ht⟩] at hcheck
    cases hcheck
  | ok eventName =>
    obtain ⟨htext, hname⟩ := checkRequired_eq_ok_iff.mp hcheck
    obtain rfl := Datum.text.inj htext
    exact ⟨fun _ => hname, fun _ => rfl⟩

theorem checkOptional_ofText? {field : Field} {o : Option Text} (h : ∀ t ∈ o, t.FitsField) :
    checkOptional field (.ofText? o) = .ok o := checkOptional_eq_ok_iff.mpr ⟨rfl, h⟩

theorem isOk_checkOptional_iff (field : Field) {o : Option Text} :
    (checkOptional field (.ofText? o)).isOk ↔ ∀ t ∈ o, t.FitsField := by
  constructor
  · intro h
    cases hcheck : checkOptional field (.ofText? o) with
    | error fault =>
      rw [hcheck] at h
      cases h
    | ok o' =>
      obtain ⟨ho, hfits⟩ := checkOptional_eq_ok_iff.mp hcheck
      cases o <;> cases o' <;> simp_all [Datum.ofText?]
  · intro h
    rw [checkOptional_ofText? h]
    rfl

theorem isOk_ofTransactionId_iff {o : Option Text} :
    (Write.ofTransactionId (.ofText? o)).isOk ↔ ∀ t ∈ o, t.FitsField := by
  rw [← isOk_checkOptional_iff .transactionId]
  unfold Write.ofTransactionId
  cases checkOptional .transactionId (.ofText? o) <;> exact Iff.rfl

theorem isOk_ofInteraction_iff {type id : Option Text} :
    (Write.ofInteraction (.ofText? type) (.ofText? id)).isOk ↔
      (∀ t ∈ type, t.FitsField) ∧ ∀ t ∈ id, t.FitsField := by
  rw [← isOk_checkOptional_iff .interactionType,
    ← isOk_checkOptional_iff .interactionId]
  unfold Write.ofInteraction
  cases checkOptional .interactionType (.ofText? type) with
  | error fault => exact ⟨nofun, fun h => h.1⟩
  | ok type =>
    cases checkOptional .interactionId (.ofText? id) with
    | error fault => exact ⟨nofun, fun h => h.2⟩
    | ok id => exact ⟨fun _ => ⟨rfl, rfl⟩, fun _ => rfl⟩

end Draft

namespace EventValue

/-- A number of millionths as an event value. -/
def millionths (i : Int) : Datum := .decimal (.finite (decide (i < 0)) i.natAbs (-6))

theorem number_millionths (i : Int) :
    Decimal.number (decide (i < 0)) i.natAbs (-6) * 10 ^ 6 = i := by
  rw [Decimal.number_mul_pow, Decimal.number]
  by_cases hi : i < 0
  · have habs : ((i.natAbs : ℕ) : ℤ) = -i := by omega
    simp [hi, ← Int.cast_natCast (R := ℚ), habs]
  · have habs : ((i.natAbs : ℕ) : ℤ) = i := by omega
    simp [hi, ← Int.cast_natCast (R := ℚ), habs]

/-- Whatever can be stored is stored for its own number of millionths. -/
theorem normalize_millionths {i : Int} (hi : IsStored i) (c : DecimalContext) :
    normalize c (millionths i) = .ok (some i) := by
  have hrange : InRange (Decimal.number (decide (i < 0)) i.natAbs (-6)) := by
    have hlow : -2147483648000000 ≤ (i : ℚ) := by exact_mod_cast hi.1
    have hhigh : (i : ℚ) ≤ 2147483647000000 := by exact_mod_cast hi.2
    rw [← number_millionths] at hlow hhigh
    unfold InRange minWhole maxWhole
    push_cast
    constructor <;> linarith
  have htowardZero : towardZero (i : ℚ) = i := by simp [towardZero]
  rw [millionths, normalize_of_toDecimal c rfl rfl, if_pos hrange, number_millionths, htowardZero]

end EventValue

namespace World

open Telemetry.Action
open Draft (Call Write)

variable {w : World} {id : DraftId} {d : Draft}

/-- A setter of an open draft ends well just if it makes a write of its arguments. -/
theorem isOk_step_of_write? {s : Step} {write : Except Fault Write}
    (hs : s.write? = some (id, write)) (hd : w.drafts.get? id = some d)
    (hopen : d.finalized = false) : (w.step s).1.isOk = write.isOk := by
  rw [w.step_of_write? hs, hd]
  dsimp only
  rw [Draft.put_of_open hopen]
  cases write <;> rfl

theorem isOk_step_openDraft {name : Datum} {service : Option ServiceId}
    {resolver : Option SourcesId} (hcheck : w.checkHandles id service resolver = .ok ()) :
    (w.step (.openDraft id name service resolver)).1.isOk =
      (Draft.ofName name service resolver).isOk := by
  rw [step_openDraft, hcheck]
  dsimp only
  cases Draft.ofName name service resolver <;> rfl

/-- What is stored by an accepted value, and that any value in the stored range can be. -/
theorem isStored_iff_exists_step (hd : w.drafts.get? id = some d) (hopen : d.finalized = false)
    (i : Int) :
    EventValue.IsStored i ↔ ∃ value d', (w.step (.setEventValue id value)).1.isOk ∧
      (w.step (.setEventValue id value)).2.drafts.get? id = some d' ∧ d'.eventValue = some i := by
  have hstep (value : Datum) := w.step_of_write? (s := .setEventValue id value) rfl
  simp only [hd, Draft.put_of_open hopen] at hstep
  constructor
  · intro hi
    refine ⟨EventValue.millionths i, { d with eventValue := some i }, ?_⟩
    rw [hstep, Write.ofEventValue, EventValue.normalize_millionths hi]
    exact ⟨rfl, Registry.get?_put_self .., rfl⟩
  · rintro ⟨value, d', hok, hd', hvalue⟩
    rw [hstep, Write.ofEventValue] at hok hd'
    cases hnormal : EventValue.normalize .standard value with
    | error fault =>
      rw [hnormal] at hok
      cases hok
    | ok o =>
      rw [hnormal] at hd'
      obtain rfl := Option.some.inj ((Registry.get?_put_self ..).symm.trans hd')
      obtain rfl : o = some i := hvalue
      exact EventValue.mem_of_normalize hnormal

/-! ## A run for every valid record -/

/-- The calls that give a draft its values. -/
def callsFor (r : EventRecord) : List Call :=
  [.transactionId (.ofText? r.transactionId),
    .interaction (.ofText? r.interactionType) (.ofText? r.interactionId),
    .eventValue (r.eventValue.elim .null EventValue.millionths)]

/-- The draft that they make, without service and resolver of its own but for these. -/
def draftFor (r : EventRecord) (service : Option ServiceId) : Draft where
  eventName := r.eventName
  eventValue := r.eventValue
  transactionId := r.transactionId
  interactionId := r.interactionId
  interactionType := r.interactionType
  explicitSendId := .null
  service := service
  resolver := none
  finalized := false

theorem applyAll_callsFor {r : EventRecord} (hr : r.Valid) (service : Option ServiceId) :
    Call.applyAll (callsFor r) (draftFor r service).blank = draftFor r service := by
  have hvalue : EventValue.normalize .standard (r.eventValue.elim .null EventValue.millionths) =
      .ok r.eventValue := by
    cases hi : r.eventValue with
    | none => rfl
    | some i => exact EventValue.normalize_millionths (hr.eventValue i hi) _
  simp only [callsFor, Call.applyAll, List.foldl, Call.apply, Call.write, Write.ofTransactionId,
    Write.ofInteraction, Write.ofEventValue, hvalue, Draft.checkOptional_ofText? hr.transactionId,
    Draft.checkOptional_ofText? hr.interactionType, Draft.checkOptional_ofText? hr.interactionId]
  rfl

/-- Sources that hold texts or nothing credit what they hold, the conversion before the other. -/
theorem outcome_resolve_held {c l : Option Text} (hone : c = none ∨ l = none) :
    (Sources.resolve ⟨.held (.ofText? c), .held (.ofText? l)⟩ .null).outcome = .ok ⟨c, l⟩ := by
  rcases hone with rfl | rfl
  · cases l <;> rfl
  · cases c <;> rfl

theorem exists_run_attributionOf {service : ServiceId} {c l : Option Text}
    (hservice : d.service = some service) (hresolver : d.resolver = none)
    (hexplicit : d.explicitSendId = .null)
    (hs : w.sources? (.service service) = some ⟨.held (.ofText? c), .held (.ofText? l)⟩)
    (hone : c = none ∨ l = none) :
    ∃ w', Action.run (attributionOf d) w = (.ok ⟨c, l⟩, w') := by
  have hplace : Action.run (placeOf d) w = (.ok (.service service), w) := by
    rw [placeOf, hresolver, serviceOf, hservice]
    rfl
  have hresolve := (run_bind_ok (fun place => resolve place d.explicitSendId)
    hplace).trans (run_resolve w hs _)
  rw [hexplicit] at hresolve
  have hsettled :
      (Sources.resolve ⟨.held (.ofText? c), .held (.ofText? l)⟩ .null).IsSettled :=
    Sources.isSettled_resolve ⟨⟨c, rfl⟩, ⟨l, rfl⟩⟩ none
  obtain ⟨a, w', hconclude, -⟩ := exists_run_conclude hsettled _
  have houtcome := (outcome_of_run_conclude hconclude).symm.trans (outcome_resolve_held hone)
  obtain rfl := Except.ok.inj houtcome
  exact ⟨w', by rw [attributionOf, hexplicit, hresolve, hconclude]⟩

/-- The steps of a run that ends with an open draft for a record; its service holds the send ids. -/
def stepsFor (r : EventRecord) : List Step :=
  [.openService (.named 0) (some .log) (some (.held (.ofText? r.conversionSendId)))
      (some (.held (.ofText? r.lastReceivedSendId))) (.text "session"),
    .openDraft ⟨0⟩ (.text r.eventName) (some (.named 0)) none,
    .setTransactionId ⟨0⟩ (.ofText? r.transactionId),
    .setInteraction ⟨0⟩ (.ofText? r.interactionType) (.ofText? r.interactionId),
    .setEventValue ⟨0⟩ (r.eventValue.elim .null EventValue.millionths)]

/-- Every valid record is created in some run, its identifier and its time apart. -/
theorem exists_run_of_valid (host : Host) (environment : Environment) {r : EventRecord}
    (hr : r.Valid) : ∃ n r', (((fresh host environment).run (stepsFor r)).step (.create ⟨0⟩)).1 =
      .ok (.record n r') ∧ r'.values = r.values := by
  let service : Service := ⟨.own .log, ⟨.held (.ofText? r.conversionSendId),
    .held (.ofText? r.lastReceivedSendId)⟩, .text "session"⟩
  let w : World :=
    { fresh host environment with services := Registry.empty.put (.named 0) service }
  let d := draftFor r (some (.named 0))
  have hname : Draft.ofName (.text r.eventName) (some (.named 0)) none = .ok d.blank :=
    Draft.ofName_eq_ok_iff.mpr ⟨rfl, hr.eventName, rfl, rfl, rfl, rfl⟩
  have hopened : (w.step (.openDraft ⟨0⟩ (.text r.eventName) (some (.named 0)) none)).2 =
      w.withDraft ⟨0⟩ d.blank := by
    have hrun := run_openDraft w ⟨0⟩ (.text r.eventName) (some (.named 0)) none
    rw [hname] at hrun
    exact congrArg Prod.snd (run_bind_ok (fun _ => pure Outcome.done) hrun)
  have hcalls := (Edited.refl (w := w.withDraft ⟨0⟩ d.blank) (Registry.get?_put_self ..)).calls rfl
    (callsFor r)
  rw [applyAll_callsFor hr] at hcalls
  have hrun : (fresh host environment).run (stepsFor r) =
      (w.withDraft ⟨0⟩ d.blank).calls ⟨0⟩ (callsFor r) := by
    rw [← hopened]
    rfl
  obtain ⟨v, hattribution⟩ := exists_run_attributionOf (d := d)
    (w := (w.withDraft ⟨0⟩ d.blank).bare) rfl rfl rfl rfl hr.sendIds
  rw [hrun, fst_step_create, fst_run_create hcalls rfl, hattribution]
  dsimp only
  rw [Draft.record_eq_ok_iff.mpr ⟨⟨hr.eventName, hr.eventValue, hr.transactionId,
    hr.interactionId, hr.interactionType⟩, hr.sendIds, rfl⟩]
  exact ⟨_, _, rfl, rfl⟩

/-- Some run creates an event with these values. -/
def Produces (v : FieldValues) : Prop :=
  ∃ host environment steps id n r,
    (((fresh host environment).run steps).step (.create id)).1 = .ok (.record n r) ∧ r.values = v

theorem produces_iff {v : FieldValues} :
    Produces v ↔ ∃ r : EventRecord, r.Valid ∧ r.values = v := by
  constructor
  · rintro ⟨host, environment, steps, id, n, r, hstep, rfl⟩
    obtain ⟨w', hcreate⟩ := create_ok_of_step hstep
    have hcases := create_cases ((fresh host environment).run steps) id fun d hd => valid_of_run hd
    rw [hcreate] at hcases
    obtain ⟨-, -, -, -, hr, -⟩ := hcases
    exact ⟨r, hr, rfl⟩
  · rintro ⟨r, hr, rfl⟩
    let host : Host := ⟨fun _ => "event", fun _ => "session", fun _ => Binary64.zero false⟩
    obtain ⟨n, r', hstep, hvalues⟩ := exists_run_of_valid host ⟨[], none⟩ hr
    exact ⟨_, _, _, _, n, r', hstep, hvalues⟩

theorem admits_values_iff {freshId : Text} {now : Binary64} {v : FieldValues} :
    EventRecord.Admits freshId now v.fields ↔ ∃ r : EventRecord, r.Valid ∧ r.values = v := by
  constructor
  · rintro ⟨r, hr⟩
    obtain ⟨hvalues, hvalid, -, -⟩ := FieldValues.ofFields_eq_ok_iff.mp hr
    exact ⟨r, hvalid, hvalues⟩
  · rintro ⟨r, hr, rfl⟩
    exact ⟨{ r with eventId := freshId, ts := now },
      FieldValues.ofFields_eq_ok_iff.mpr ⟨rfl, { hr with }, rfl, rfl⟩⟩

open EventRecord (Admits) in
/--
Whatever the other fields of a record are, as long as they are admitted: a draft can be opened with
a name just if a record can have it, an open draft takes an id or the parts of an interaction just
if a record does, and an integer can be the value of a record just if some accepted value is stored
as it. And the values of events that are created in some run are just those that records can have.
-/
theorem checks_agree {freshId : Text} {now : Binary64} {f : RecordFields}
    (hf : Admits freshId now f) :
    (∀ (w : World) id service resolver t, w.checkHandles id service resolver = .ok () →
      ((w.step (.openDraft id (.text t) service resolver)).1.isOk ↔
        Admits freshId now { f with eventName := some (.text t) })) ∧
    (∀ (w : World) id d, w.drafts.get? id = some d → d.finalized = false →
      (∀ v, (w.step (.setTransactionId id (.ofText? v))).1.isOk ↔
        Admits freshId now { f with transactionId := some (.ofText? v) }) ∧
      (∀ u v, (w.step (.setInteraction id (.ofText? u) (.ofText? v))).1.isOk ↔
        Admits freshId now { f with interactionType := some (.ofText? u) } ∧
          Admits freshId now { f with interactionId := some (.ofText? v) }) ∧
      ∀ i, Admits freshId now { f with eventValue := some (.int i) } ↔
        ∃ value d', (w.step (.setEventValue id value)).1.isOk ∧
          (w.step (.setEventValue id value)).2.drafts.get? id = some d' ∧
          d'.eventValue = some i) ∧
    ∀ v : FieldValues, Produces v ↔ Admits freshId now v.fields := by
  refine ⟨fun w id service resolver t hcheck => ?_, fun w id d hd hopen => ⟨fun v => ?_,
    fun u v => ?_, fun i => ?_⟩, fun v => produces_iff.trans admits_values_iff.symm⟩
  · rw [isOk_step_openDraft hcheck, Draft.isOk_ofName_iff, hf.eventName_iff]
  · rw [isOk_step_of_write? rfl hd hopen, Draft.isOk_ofTransactionId_iff, hf.transactionId_iff]
  · rw [isOk_step_of_write? rfl hd hopen, Draft.isOk_ofInteraction_iff, hf.interactionType_iff,
      hf.interactionId_iff]
  · rw [← isStored_iff_exists_step hd hopen]
    exact (hf.eventValue_iff (some i)).trans (by simp)

open EventRecord (Admits) in
/-- An empty name is refused by both sides and an empty transaction id by none. -/
theorem checks_agree_empty_texts :
    let now := Binary64.zero false
    let f : RecordFields :=
      ⟨some (.text "purchase"), none, none, none, none, none, none, none, none⟩
    ¬ Admits "event" now { f with eventName := some (.text []) } ∧
      Admits "event" now { f with transactionId := some (.text []) } ∧
      Produces ⟨some "purchase", some (-1), some [], none, none, none, some "push"⟩ := by
  intro now f
  let host : Host := ⟨fun _ => "event", fun _ => "session", fun _ => now⟩
  let w := fresh host ⟨[], none⟩
  let opened := (w.step (.openDraft ⟨0⟩ (.text "purchase") none none)).2
  obtain ⟨hname, hsetters, hvalues⟩ := checks_agree (show Admits "event" now f from ⟨_, rfl⟩)
  refine ⟨fun h => ?_, ((hsetters opened ⟨0⟩ _ rfl rfl).1 (some [])).mp rfl,
    (hvalues _).mpr ⟨_, rfl⟩⟩
  exact Bool.false_ne_true ((hname w ⟨0⟩ none none [] rfl).mpr h)

end World

end Telemetry
