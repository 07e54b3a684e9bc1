import Mathlib.Data.List.GetD
import Telemetry.Proofs.Binary64.Sum
import Telemetry.Proofs.EventRecord.Valid
import Telemetry.Proofs.Metrics

/-!
# The histogram is exact

Whatever else is recorded in between, the histogram has one bucket for each bound and a last one,
and their sums count the values up to a bound (`Metrics.cumulative_recordAll`): the first bucket
that takes a value is at or before that of a bound just if the bound is no smaller than the value.
The sum of the sizes is the float that they add up to one after another, and it is exact up to
`2 ^ 53` (`Metrics.size_sum_recordAll`).
-/

namespace Telemetry

theorem EventValue.IsStored.natAbs_lt {i : Int} (h : IsStored i) : i.natAbs < 2 ^ 51 := by
  have hmin : minStored = -2147483648000000 := rfl
  have hmax : maxStored = 2147483647000000 := rfl
  obtain ⟨hlow, hhigh⟩ := h
  omega

namespace Recording

/-- The value of a created event, if it has one. -/
def value? : Recording → Option Int
  | created value => value
  | _ => none

/-- The values of the created events, in order. -/
def eventValues (recordings : List Recording) : List Int := recordings.filterMap value?

theorem eventValues_append (recordings recordings' : List Recording) :
    eventValues (recordings ++ recordings') =
      eventValues recordings ++ eventValues recordings' :=
  List.filterMap_append

end Recording

namespace Histogram

/-- In a sorted list no bound is too small from the first one that is not. -/
theorem findIdx_le_iff {bounds : List Nat} (h : bounds.Pairwise (· ≤ ·)) {n i : Nat}
    (hi : i < bounds.length) : bounds.findIdx (n ≤ ·) ≤ i ↔ n ≤ bounds[i] := by
  constructor
  · intro hle
    have hfound : bounds.findIdx (n ≤ ·) < bounds.length := hle.trans_lt hi
    have hfirst := List.findIdx_getElem (w := hfound)
    refine (of_decide_eq_true hfirst).trans ?_
    rcases hle.lt_or_eq with hlt | heq
    · exact List.pairwise_iff_getElem.mp h _ _ hfound hi hlt
    · simp only [heq, le_refl]
  · intro hn
    by_contra hlt
    exact absurd hn (of_decide_eq_false (List.not_of_lt_findIdx (Nat.not_le.mp hlt)))

theorem length_cumulative (before : Nat) (counts : List Nat) :
    (cumulative before counts).length = counts.length := by
  induction counts generalizing before with
  | nil => rfl
  | cons n rest ih => rw [cumulative, List.length_cons, ih, List.length_cons]

theorem getD_cumulative {counts : List Nat} {i : Nat} (hi : i < counts.length) (before : Nat) :
    (cumulative before counts).getD i 0 = before + (counts.take (i + 1)).sum := by
  induction counts generalizing before i with
  | nil => simp at hi
  | cons n rest ih =>
    rw [cumulative, List.take_succ_cons, List.sum_cons, ← Nat.add_assoc]
    cases i with
    | zero => simp
    | succ i => exact ih (Nat.lt_of_succ_lt_succ hi) (before + n)

/-- The last sum counts all values. -/
theorem count_eq {h : Histogram} {n : Nat} (hn : h.counts.length = n + 1) :
    h.count = (cumulative 0 h.counts).getD n 0 := by
  rw [getD_cumulative (by omega), Nat.zero_add, ← hn, List.take_length]
  rfl

end Histogram

namespace Metrics

open Recording Histogram

theorem buckets_recordAll (m : Metrics) (recordings : List Recording) :
    (m.recordAll recordings).buckets = m.buckets := by
  induction recordings generalizing m with
  | nil => rfl
  | cons recording rest ih => exact (ih (m.record recording)).trans (m.buckets_record recording)

/-- What recordings add to the sum of a bucket are the values that are put there or before. -/
theorem sum_amount_upTo (recordings : List Recording) {buckets place : Nat}
    (hplace : place < buckets) :
    (recordings.map fun recording => recording.amount buckets (.upTo place)).sum =
      (eventValues recordings).countP fun i =>
        (bounds.map Prod.fst).findIdx (i.natAbs ≤ ·) ≤ place := by
  induction recordings with
  | nil => rfl
  | cons recording rest ih =>
    rw [List.map_cons, List.sum_cons, ih]
    cases recording with
    | created value =>
      cases value with
      | none => exact Nat.zero_add _
      | some i =>
        have hvalues : eventValues (.created (some i) :: rest) = i :: eventValues rest := rfl
        simp only [hvalues, List.countP_cons, amount, hplace, and_true, decide_eq_true_eq]
        exact Nat.add_comm ..
    | added | rejected => exact Nat.zero_add _

theorem length_counts_recordAll (recordings : List Recording) :
    (fresh.recordAll recordings).values.counts.length = bounds.length + 1 :=
  fresh.buckets_recordAll recordings

theorem reading_upTo (recordings : List Recording) {place : Nat}
    (hplace : place < bounds.length + 1) :
    (fresh.recordAll recordings).reading (.upTo place) =
      (eventValues recordings).countP fun i =>
        (bounds.map Prod.fst).findIdx (i.natAbs ≤ ·) ≤ place := by
  rw [reading_recordAll, reading_fresh, Nat.zero_add]
  exact sum_amount_upTo recordings hplace

theorem reading_upTo_bound (recordings : List Recording) {place : Nat}
    (hplace : place < bounds.length) :
    (fresh.recordAll recordings).reading (.upTo place) =
      (eventValues recordings).countP (·.natAbs ≤ bounds[place].1) := by
  have hsorted : (bounds.map Prod.fst).Pairwise (· ≤ ·) := by decide
  have hbound : place < (bounds.map Prod.fst).length := hplace
  rw [reading_upTo recordings (Nat.lt_succ_of_lt hplace)]
  simp only [findIdx_le_iff hsorted hbound, List.getElem_map]

theorem reading_upTo_last (recordings : List Recording) :
    (fresh.recordAll recordings).reading (.upTo bounds.length) =
      (eventValues recordings).length := by
  rw [reading_upTo recordings (Nat.lt_succ_self _), List.countP_eq_length]
  exact fun i _ => decide_eq_true List.findIdx_le_length

/-- The sums of the buckets count the values up to each bound, and the last one counts all. -/
theorem cumulative_recordAll (recordings : List Recording) :
    cumulative 0 (fresh.recordAll recordings).values.counts =
      (bounds.map fun e => (eventValues recordings).countP (·.natAbs ≤ e.1)) ++
        [(eventValues recordings).length] := by
  have hlength : (cumulative 0 (fresh.recordAll recordings).values.counts).length =
      bounds.length + 1 := by
    rw [length_cumulative, length_counts_recordAll]
  apply List.ext_getElem
  · simp [hlength]
  intro place hplace _
  rw [← List.getD_eq_getElem _ 0 hplace]
  rw [hlength] at hplace
  rcases (Nat.le_of_lt_succ hplace).lt_or_eq with hlt | rfl
  · rw [List.getElem_append_left (by simpa using hlt), List.getElem_map]
    exact reading_upTo_bound recordings hlt
  · rw [List.getElem_append_right (by simp)]
    simp only [List.length_map, Nat.sub_self, List.getElem_singleton]
    exact reading_upTo_last recordings

theorem count_recordAll (recordings : List Recording) :
    (fresh.recordAll recordings).values.count = (eventValues recordings).length := by
  rw [count_eq (length_counts_recordAll recordings)]
  exact reading_upTo_last recordings

/-! ## The sum of the sizes -/

theorem sum_recordAll (m : Metrics) (recordings : List Recording) :
    (m.recordAll recordings).values.sum =
      m.values.sum.addAll ((eventValues recordings).map Int.natAbs) := by
  induction recordings generalizing m with
  | nil => rfl
  | cons recording rest ih =>
    refine (ih (m.record recording)).trans ?_
    cases recording with
    | created value => cases value <;> rfl
    | added | rejected => rfl

section

variable {recordings : List Recording} (h : ∀ i ∈ eventValues recordings, EventValue.IsStored i)

include h

theorem forall_size_lt : ∀ n ∈ (eventValues recordings).map Int.natAbs, n < 2 ^ 51 := by
  intro n hn
  obtain ⟨i, hi, rfl⟩ := List.mem_map.mp hn
  exact (h i hi).natAbs_lt

theorem isSum_recordAll {m : Metrics} (hm : m.values.sum.IsSum) :
    (m.recordAll recordings).values.sum.IsSum := by
  rw [sum_recordAll]
  exact hm.addAll (forall_size_lt h)

theorem isSum_recordAll_fresh : (fresh.recordAll recordings).values.sum.IsSum :=
  isSum_recordAll h ⟨rfl, Nat.zero_le _⟩

theorem magnitude_sum_le {m : Metrics} (hm : m.values.sum.IsSum) :
    m.values.sum.magnitude ≤ (m.recordAll recordings).values.sum.magnitude := by
  rw [sum_recordAll]
  exact hm.magnitude_le_addAll (forall_size_lt h)

theorem size_sum_recordAll (htotal : ((eventValues recordings).map Int.natAbs).sum ≤ 2 ^ 53) :
    Binary64.size (fresh.recordAll recordings).values.sum.magnitude =
      (((eventValues recordings).map Int.natAbs).sum : Nat) := by
  rw [sum_recordAll, ← Nat.zero_add ((eventValues recordings).map Int.natAbs).sum]
  refine Binary64.IsSum.size_addAll ⟨rfl, Nat.zero_le _⟩ (forall_size_lt h) ?_ ?_
  · exact Binary64.size_zero.trans Nat.cast_zero.symm
  · rwa [Nat.zero_add]

end

end Metrics

end Telemetry
