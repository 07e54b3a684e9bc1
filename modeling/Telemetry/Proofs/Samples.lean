import Telemetry.Proofs.Histogram

/-!
# Published samples

Metrics publish one sample for each name and labels, and those of the histogram are exact for the
values of the events that were recorded (`Metrics.publishes_recordAll`). A counter that was counted
once stays, and whatever is recorded later no sample becomes smaller (`Metrics.grown_recordAll`).
-/

namespace Telemetry

namespace Tally

variable {κ : Type}

/-- No key is counted in two places. -/
def Distinct (t : Tally κ) : Prop := (t.counts.map Prod.fst).Nodup

/-- The tally has gone on counting: no key is there twice if none was, and no count is smaller. -/
structure Continues (t t' : Tally κ) : Prop where
  distinct : t.Distinct → t'.Distinct
  counts : ∀ e ∈ t.counts, ∃ n, e.2 ≤ n ∧ (e.1, n) ∈ t'.counts

theorem Continues.refl (t : Tally κ) : t.Continues t := ⟨id, fun e he => ⟨e.2, le_refl _, he⟩⟩

theorem Continues.trans {t t' t'' : Tally κ} (h : t.Continues t') (h' : t'.Continues t'') :
    t.Continues t'' where
  distinct := h'.distinct ∘ h.distinct
  counts e he := by
    obtain ⟨n, hn, hmem⟩ := h.counts e he
    obtain ⟨n', hn', hmem'⟩ := h'.counts _ hmem
    exact ⟨n', hn.trans hn', hmem'⟩

variable [DecidableEq κ]

theorem keys_bump (key : κ) (l : List (κ × Nat)) :
    (bump key l).map Prod.fst =
      if key ∈ l.map Prod.fst then l.map Prod.fst else l.map Prod.fst ++ [key] := by
  induction l with
  | nil => rfl
  | cons e rest ih =>
    obtain ⟨k, n⟩ := e
    rw [bump]
    by_cases hk : k = key
    · simp [hk]
    · rw [if_neg hk, List.map_cons, List.map_cons, ih]
      by_cases hmem : key ∈ rest.map Prod.fst
      · rw [if_pos hmem, if_pos (List.mem_cons_of_mem k hmem)]
      · rw [if_neg hmem, if_neg fun h => (List.mem_cons.mp h).elim (Ne.symm hk) hmem]
        rfl

theorem continues_add (t : Tally κ) (key : κ) : t.Continues (t.add key) where
  distinct h := by
    unfold Distinct add
    rw [keys_bump]
    split
    · exact h
    · next hkey => exact List.nodup_append.mpr ⟨h, List.nodup_singleton key, by grind⟩
  counts := by
    obtain ⟨l⟩ := t
    unfold add
    dsimp only
    induction l with
    | nil => exact nofun
    | cons e rest ih =>
      obtain ⟨k, n⟩ := e
      rw [bump]
      intro e' he'
      by_cases hk : k = key
      · rw [if_pos hk]
        rcases List.mem_cons.mp he' with rfl | hmem
        · exact ⟨n + 1, Nat.le_succ n, List.mem_cons_self⟩
        · exact ⟨e'.2, le_refl _, List.mem_cons_of_mem _ hmem⟩
      · rw [if_neg hk]
        rcases List.mem_cons.mp he' with rfl | hmem
        · exact ⟨n, le_refl _, List.mem_cons_self⟩
        · obtain ⟨n', hn', hmem'⟩ := ih e' hmem
          exact ⟨n', hn', List.mem_cons_of_mem _ hmem'⟩

end Tally

namespace Sample

/-- What tells a sample from others. -/
def key (s : Sample) : Text × List (Text × Text) := (s.name, s.labels)

/-- Each sample is still among the later ones, and with no smaller value. -/
def Grown (samples samples' : List Sample) : Prop :=
  ∀ s ∈ samples, ∃ s' ∈ samples', s'.key = s.key ∧ s.value ≤ s'.value

def added (e : Text × Nat) : Sample := ⟨"custom_events_added_total", [("sink", e.1)], e.2⟩

def rejection (e : (Text × Text) × Nat) : Sample :=
  ⟨"custom_events_validation_errors_total", [("error", e.1.2), ("field", e.1.1)], e.2⟩

def bucket (label : Text) (n : Nat) : Sample :=
  ⟨"custom_events_value_micros_bucket", [("le", label)], n⟩

/-- The label of the bucket that takes every value. -/
def beyond : Text := "+Inf"

def created (n : Nat) : Sample := ⟨"custom_events_created_total", [], n⟩

def count (n : Nat) : Sample := ⟨"custom_events_value_micros_count", [], n⟩

def sum (n : Nat) : Sample := ⟨"custom_events_value_micros_sum", [], n⟩

/-- Where keys are distinct, a key has one value. -/
theorem value_eq {samples : List Sample} (h : (samples.map key).Nodup) {s s' : Sample}
    (hs : s ∈ samples) (hs' : s' ∈ samples) (hkey : s.key = s'.key) : s.value = s'.value :=
  congrArg value (List.inj_on_of_nodup_map h hs hs' hkey)

theorem exists_grown {samples : List Sample} {f : Nat → Sample}
    (hkey : ∀ n n', (f n').key = (f n).key) (hvalue : ∀ n, (f n).value = n) {n n' : Nat}
    (hmem : f n' ∈ samples) (hle : n ≤ n') :
    ∃ s ∈ samples, s.key = (f n).key ∧ (f n).value ≤ s.value := by
  refine ⟨f n', hmem, hkey n n', ?_⟩
  rwa [hvalue, hvalue]

end Sample

namespace Metrics

open Recording Histogram
open Sample (beyond)

theorem continues_record (m : Metrics) (recording : Recording) :
    m.added.Continues (m.record recording).added ∧
      m.rejections.Continues (m.record recording).rejections := by
  cases recording with
  | created value => exact ⟨.refl _, .refl _⟩
  | added sink => exact ⟨m.added.continues_add sink, .refl _⟩
  | rejected field kind => exact ⟨.refl _, m.rejections.continues_add (field, kind)⟩

theorem continues_recordAll (m : Metrics) (recordings : List Recording) :
    m.added.Continues (m.recordAll recordings).added ∧
      m.rejections.Continues (m.recordAll recordings).rejections := by
  induction recordings generalizing m with
  | nil => exact ⟨.refl _, .refl _⟩
  | cons recording rest ih =>
    obtain ⟨hadded, hrejections⟩ := m.continues_record recording
    exact ⟨hadded.trans (ih _).1, hrejections.trans (ih _).2⟩

/-! ## All samples -/

/-- Up to their order the samples are those of the counters and those of the histogram. -/
theorem samples_perm (m : Metrics) :
    m.samples.Perm (m.added.counts.map Sample.added ++ m.rejections.counts.map Sample.rejection ++
      List.zipWith Sample.bucket (bounds.map Prod.snd ++ [beyond])
        (cumulative 0 m.values.counts) ++
      [.created m.created, .count m.values.count, .sum m.values.sum.integerPart]) :=
  List.mergeSort_perm _ _

theorem buckets_recordAll_fresh (recordings : List Recording) :
    List.zipWith Sample.bucket (bounds.map Prod.snd ++ [beyond])
        (cumulative 0 (fresh.recordAll recordings).values.counts) =
      (bounds.map fun e =>
        Sample.bucket e.2 ((eventValues recordings).countP (·.natAbs ≤ e.1))) ++
        [.bucket beyond (eventValues recordings).length] := by
  rw [cumulative_recordAll, List.zipWith_append (by simp)]
  simp [List.zipWith_map, List.zipWith_self]

theorem mem_samples_iff (recordings : List Recording) {s : Sample} :
    s ∈ (fresh.recordAll recordings).samples ↔
      (∃ e ∈ (fresh.recordAll recordings).added.counts, Sample.added e = s) ∨
      (∃ e ∈ (fresh.recordAll recordings).rejections.counts, Sample.rejection e = s) ∨
      (∃ e ∈ bounds,
        Sample.bucket e.2 ((eventValues recordings).countP (·.natAbs ≤ e.1)) = s) ∨
      s = .bucket beyond (eventValues recordings).length ∨
      s = .created (fresh.recordAll recordings).created ∨
      s = .count (eventValues recordings).length ∨
      s = .sum (fresh.recordAll recordings).values.sum.integerPart := by
  rw [(samples_perm _).mem_iff, buckets_recordAll_fresh, count_recordAll]
  simp only [List.mem_append, List.mem_map, List.mem_cons, List.not_mem_nil, or_false, or_assoc]

section

variable (recordings : List Recording)

theorem created_mem_samples : Sample.created (fresh.recordAll recordings).created ∈
    (fresh.recordAll recordings).samples := by
  simp [mem_samples_iff]

theorem count_mem_samples : Sample.count (eventValues recordings).length ∈
    (fresh.recordAll recordings).samples := by
  simp [mem_samples_iff]

theorem beyond_mem_samples : Sample.bucket beyond (eventValues recordings).length ∈
    (fresh.recordAll recordings).samples := by
  simp [mem_samples_iff]

theorem bucket_mem_samples {e : Nat × Text} (he : e ∈ bounds) :
    Sample.bucket e.2 ((eventValues recordings).countP (·.natAbs ≤ e.1)) ∈
      (fresh.recordAll recordings).samples :=
  (mem_samples_iff recordings).mpr (.inr (.inr (.inl ⟨e, he, rfl⟩)))

theorem sum_mem_samples : Sample.sum (fresh.recordAll recordings).values.sum.integerPart ∈
    (fresh.recordAll recordings).samples := by
  simp [mem_samples_iff]

end

/-- The keys of the samples that are there before anything was counted. -/
def standingKeys : List (Text × List (Text × Text)) :=
  (bounds.map fun e => Sample.key (.bucket e.2 0)) ++
    [Sample.key (.bucket beyond 0), Sample.key (.created 0), Sample.key (.count 0),
      Sample.key (.sum 0)]

theorem keys_samples (recordings : List Recording) :
    ((fresh.recordAll recordings).samples.map Sample.key).Perm
      (((fresh.recordAll recordings).added.counts.map Prod.fst).map
          (fun sink => Sample.key (.added (sink, 0))) ++
        (((fresh.recordAll recordings).rejections.counts.map Prod.fst).map
          (fun refusal => Sample.key (.rejection (refusal, 0))) ++ standingKeys)) := by
  have hperm := (samples_perm (fresh.recordAll recordings)).map Sample.key
  rw [buckets_recordAll_fresh] at hperm
  simp only [List.map_append, List.map_map, List.append_assoc] at hperm ⊢
  exact hperm

theorem nodup_samples (recordings : List Recording) :
    ((fresh.recordAll recordings).samples.map Sample.key).Nodup := by
  obtain ⟨hadded, hrejections⟩ := fresh.continues_recordAll recordings
  have hstanding : ∀ key ∈ standingKeys, key.1 ≠ "custom_events_added_total" ∧
      key.1 ≠ "custom_events_validation_errors_total" := by
    decide
  have hnames : ("custom_events_validation_errors_total" : Text) ≠
      "custom_events_added_total" := by
    decide
  rw [(keys_samples recordings).nodup_iff, List.nodup_append, List.nodup_append]
  refine ⟨(hadded.distinct List.nodup_nil).map ?_,
    ⟨(hrejections.distinct List.nodup_nil).map ?_, by decide, ?_⟩, ?_⟩
  · intro sink sink' heq
    simpa [Sample.key, Sample.added] using heq
  · intro refusal refusal' heq
    have hlabels : refusal.2 = refusal'.2 ∧ refusal.1 = refusal'.1 := by
      simpa [Sample.key, Sample.rejection] using heq
    exact Prod.ext hlabels.2 hlabels.1
  · rintro _ hrefusal key hkey rfl
    obtain ⟨refusal, -, heq⟩ := List.mem_map.mp hrefusal
    exact (hstanding _ hkey).2 (congrArg Prod.fst heq).symm
  · rintro _ hsink key hkey rfl
    obtain ⟨sink, -, heq⟩ := List.mem_map.mp hsink
    have hname := (congrArg Prod.fst heq).symm
    rcases List.mem_append.mp hkey with hrefusal | hstands
    · obtain ⟨refusal, -, heq'⟩ := List.mem_map.mp hrefusal
      exact hnames ((congrArg Prod.fst heq').trans hname)
    · exact (hstanding _ hstands).1 hname

/-! ## Exact samples -/

/-- The samples are what is published, each once, and those of the histogram are exact. -/
structure Publishes (m : Metrics) (values : List Int) (samples : List Sample) : Prop where
  publish : m.publish = .ok samples
  nodup : (samples.map Sample.key).Nodup
  count : Sample.count values.length ∈ samples
  beyond : Sample.bucket beyond values.length ∈ samples
  /-- A bound counts for the values up to it. -/
  upTo : ∀ e ∈ bounds, Sample.bucket e.2 (values.countP (·.natAbs ≤ e.1)) ∈ samples
  ordered : ∀ e ∈ bounds, ∀ e' ∈ bounds, e.1 ≤ e'.1 → ∀ n n', Sample.bucket e.2 n ∈ samples →
    Sample.bucket e'.2 n' ∈ samples → n ≤ n' ∧ n' ≤ values.length
  sum : (values.map Int.natAbs).sum ≤ 2 ^ 53 →
    Sample.sum (values.map Int.natAbs).sum ∈ samples ∧
      m.values.sum.toRat = ((values.map Int.natAbs).sum : Nat)

section

variable {recordings : List Recording} (h : ∀ i ∈ eventValues recordings, EventValue.IsStored i)

include h

theorem publish_recordAll : (fresh.recordAll recordings).publish =
    .ok (fresh.recordAll recordings).samples := by
  have hfinite := Binary64.isFinite_iff.mp (isSum_recordAll_fresh h).isFinite
  have hnumber : (fresh.recordAll recordings).values.sum.isNaN = false :=
    Binary64.isNaN_eq_false_iff.mpr hfinite.le
  have hbounded : (fresh.recordAll recordings).values.sum.isInfinite = false :=
    beq_false_of_ne hfinite.ne
  simp [publish, hnumber, hbounded]

theorem publishes_recordAll : (fresh.recordAll recordings).Publishes (eventValues recordings)
    (fresh.recordAll recordings).samples where
  publish := publish_recordAll h
  nodup := nodup_samples recordings
  count := count_mem_samples recordings
  beyond := beyond_mem_samples recordings
  upTo _ he := bucket_mem_samples recordings he
  ordered e he e' he' hle n n' hn hn' := by
    have hvalue {e : Nat × Text} {n : Nat} (he : e ∈ bounds)
        (hn : Sample.bucket e.2 n ∈ (fresh.recordAll recordings).samples) :
        n = (eventValues recordings).countP (·.natAbs ≤ e.1) :=
      Sample.value_eq (nodup_samples recordings) hn (bucket_mem_samples recordings he) rfl
    obtain rfl := hvalue he hn
    obtain rfl := hvalue he' hn'
    refine ⟨List.countP_mono_left ?_, List.countP_le_length⟩
    intro i _ hi
    exact decide_eq_true ((of_decide_eq_true hi).trans hle)
  sum htotal := by
    have hsize := size_sum_recordAll h htotal
    have hsample := sum_mem_samples recordings
    rw [Binary64.integerPart_eq, hsize, Nat.floor_natCast] at hsample
    exact ⟨hsample, (isSum_recordAll_fresh h).toRat_eq_size.trans hsize⟩

/-- Whatever is recorded later, no sample becomes smaller. -/
theorem grown_recordAll {later : List Recording}
    (hlater : ∀ i ∈ eventValues later, EventValue.IsStored i) :
    Sample.Grown (fresh.recordAll recordings).samples
      (fresh.recordAll (recordings ++ later)).samples := by
  have hall := recordAll_append fresh recordings later
  obtain ⟨hadded, hrejections⟩ := (fresh.recordAll recordings).continues_recordAll later
  have hcreated := reading_recordAll (fresh.recordAll recordings) later .created
  have hsum := magnitude_sum_le hlater (isSum_recordAll_fresh h)
  rw [← hall] at hadded hrejections hcreated hsum
  have hvalues : (eventValues recordings).length ≤ (eventValues (recordings ++ later)).length := by
    rw [eventValues_append, List.length_append]
    exact Nat.le_add_right ..
  intro s hs
  rcases (mem_samples_iff recordings).mp hs with ⟨e, he, rfl⟩ | ⟨e, he, rfl⟩ | ⟨e, he, rfl⟩ |
    rfl | rfl | rfl | rfl
  · obtain ⟨n, hn, he'⟩ := hadded.counts e he
    exact Sample.exists_grown (f := fun n => .added (e.1, n)) (fun _ _ => rfl) (fun _ => rfl)
      ((mem_samples_iff _).mpr (.inl ⟨_, he', rfl⟩)) hn
  · obtain ⟨n, hn, he'⟩ := hrejections.counts e he
    exact Sample.exists_grown (f := fun n => .rejection (e.1, n)) (fun _ _ => rfl) (fun _ => rfl)
      ((mem_samples_iff _).mpr (.inr (.inl ⟨_, he', rfl⟩))) hn
  · refine Sample.exists_grown (f := .bucket e.2) (fun _ _ => rfl) (fun _ => rfl)
      (bucket_mem_samples (recordings ++ later) he) ?_
    rw [eventValues_append, List.countP_append]
    exact Nat.le_add_right ..
  · exact Sample.exists_grown (f := .bucket beyond) (fun _ _ => rfl) (fun _ => rfl)
      (beyond_mem_samples (recordings ++ later)) hvalues
  · exact Sample.exists_grown (f := .created) (fun _ _ => rfl) (fun _ => rfl)
      (created_mem_samples (recordings ++ later)) ((Nat.le_add_right ..).trans hcreated.ge)
  · exact Sample.exists_grown (f := .count) (fun _ _ => rfl) (fun _ => rfl)
      (count_mem_samples (recordings ++ later)) hvalues
  · refine Sample.exists_grown (f := .sum) (fun _ _ => rfl) (fun _ => rfl)
      (sum_mem_samples (recordings ++ later)) ?_
    rw [Binary64.integerPart_eq, Binary64.integerPart_eq]
    exact Nat.floor_mono (Binary64.size_strictMono.monotone hsum)

/-- Metrics and later ones are exact for their values, and nothing has become smaller. -/
def ExactAlong (m : Metrics) (values : List Int) (m' : Metrics) (values' : List Int) : Prop :=
  ∃ samples samples', m.Publishes values samples ∧ m'.Publishes values' samples' ∧
    Sample.Grown samples samples' ∧ m.values.sum.toRat ≤ m'.values.sum.toRat

theorem exactAlong_recordAll {later : List Recording}
    (hlater : ∀ i ∈ eventValues later, EventValue.IsStored i) :
    (fresh.recordAll recordings).ExactAlong (eventValues recordings)
      (fresh.recordAll (recordings ++ later)) (eventValues (recordings ++ later)) := by
  have hboth : ∀ i ∈ eventValues (recordings ++ later), EventValue.IsStored i := by
    rw [eventValues_append]
    exact List.forall_mem_append.mpr ⟨h, hlater⟩
  refine ⟨_, _, publishes_recordAll h, publishes_recordAll hboth, grown_recordAll h hlater, ?_⟩
  rw [(isSum_recordAll_fresh h).toRat_eq_size, (isSum_recordAll_fresh hboth).toRat_eq_size,
    recordAll_append]
  exact Binary64.size_strictMono.monotone (magnitude_sum_le hlater (isSum_recordAll_fresh h))

end

/-- The order of the values makes no difference. -/
theorem Publishes.of_perm {m : Metrics} {values values' : List Int} {samples : List Sample}
    (h : m.Publishes values samples) (hperm : values.Perm values') :
    m.Publishes values' samples := by
  have htotal := (hperm.map Int.natAbs).sum_nat
  refine ⟨h.publish, h.nodup, ?_, ?_, ?_, ?_, ?_⟩
  · exact hperm.length_eq ▸ h.count
  · exact hperm.length_eq ▸ h.beyond
  · intro e he
    exact hperm.countP_eq _ ▸ h.upTo e he
  · intro e he e' he' hle n n' hn hn'
    exact hperm.length_eq ▸ h.ordered e he e' he' hle n n' hn hn'
  · exact htotal ▸ h.sum

end Metrics

end Telemetry
