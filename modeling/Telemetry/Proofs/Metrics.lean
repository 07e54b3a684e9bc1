import Mathlib.Algebra.GroupWithZero.Nat
import Telemetry.Metrics

/-!
# Metrics add up

Metrics change by recordings only: an event was created, it was handed over, or an input was
refused. A recording adds to every number that is shown what it would add to any other metrics with
as many buckets (`Metrics.reading_record`). So the order of recordings does not matter, and where
the recordings of two parties are mixed, the numbers are the sums of their own
(`Metrics.reading_recordAll_of_perm`).
-/

namespace Telemetry

namespace Tally

variable {κ : Type} [DecidableEq κ]

theorem lookup_bump (key other : κ) (l : List (κ × Nat)) :
    ((bump key l).lookup other).getD 0 =
      (l.lookup other).getD 0 + if key = other then 1 else 0 := by
  have hcons (k : κ) (n : Nat) (rest : List (κ × Nat)) : ((k, n) :: rest).lookup other =
      if k = other then some n else rest.lookup other := by
    by_cases h : k = other
    · simp [h]
    · simp [List.lookup_cons, beq_false_of_ne (Ne.symm h), h]
  induction l with
  | nil =>
    rw [bump, hcons]
    split <;> rfl
  | cons e rest ih =>
    obtain ⟨k, n⟩ := e
    rw [bump]
    split
    · next hk =>
      rw [hcons, hcons, hk]
      split <;> rfl
    · next hk =>
      rw [hcons, hcons]
      split
      · next h => rw [if_neg fun h' => hk (h.trans h'.symm)]; rfl
      · exact ih

theorem count_add (t : Tally κ) (key other : κ) :
    (t.add key).count other = t.count other + if key = other then 1 else 0 := lookup_bump ..

end Tally

namespace Histogram

theorem length_enter (ceiling : Nat) (bounds counts : List Nat) :
    (enter ceiling bounds counts).length = counts.length := by
  induction counts generalizing bounds with
  | nil => cases bounds <;> rfl
  | cons n rest ih =>
    cases bounds with
    | nil => rfl
    | cons bound bounds =>
      rw [enter]
      split
      · rfl
      · rw [List.length_cons, ih, List.length_cons]

/-- What was counted before is counted in every sum. -/
theorem getD_cumulative_succ (before : Nat) (counts : List Nat) (i : Nat) :
    (cumulative (before + 1) counts).getD i 0 =
      (cumulative before counts).getD i 0 + if i < counts.length then 1 else 0 := by
  induction counts generalizing before i with
  | nil => rfl
  | cons n rest ih =>
    have hbefore : before + 1 + n = before + n + 1 := by omega
    rw [cumulative, cumulative, hbefore]
    cases i with
    | zero => simp
    | succ i => simpa using ih (before + n) i

theorem getD_cumulative_first (before n : Nat) (rest : List Nat) (i : Nat) :
    (cumulative before ((n + 1) :: rest)).getD i 0 =
      (cumulative before (n :: rest)).getD i 0 + if i < rest.length + 1 then 1 else 0 := by
  rw [cumulative, cumulative, ← Nat.add_assoc]
  cases i with
  | zero => simp
  | succ i => simpa using getD_cumulative_succ (before + n) rest i

/-- A magnitude is counted in the sums from the first bound on that it does not exceed. -/
theorem getD_cumulative_enter (ceiling before : Nat) (bounds counts : List Nat) (i : Nat) :
    (cumulative before (enter ceiling bounds counts)).getD i 0 =
      (cumulative before counts).getD i 0 +
        if bounds.findIdx (ceiling ≤ ·) ≤ i ∧ i < counts.length then 1 else 0 := by
  induction counts generalizing before bounds i with
  | nil => cases bounds <;> simp [enter]
  | cons n rest ih =>
    cases bounds with
    | nil => simpa [enter] using getD_cumulative_first before n rest i
    | cons bound bounds =>
      rw [enter]
      split
      · next h => simpa [List.findIdx_cons, h] using getD_cumulative_first before n rest i
      · next h =>
        rw [cumulative, cumulative]
        cases i with
        | zero => simp [List.findIdx_cons, h]
        | succ i => simpa [List.findIdx_cons, h] using ih (before + n) bounds i

end Histogram

/-- What metrics record. -/
inductive Recording where
  /-- An event was created, with a stored value or none. -/
  | created (value : Option Int)
  /-- An event was handed to a sink of a class. -/
  | added (sink : Text)
  | rejected (field kind : Text)

/-- A number that metrics show. -/
inductive Counter where
  | created
  | added (sink : Text)
  | rejected (field kind : Text)
  /-- The values up to a bound, which is given by its place; the last place is beyond all bounds. -/
  | upTo (place : Nat)

/-- By how much a recording raises a number of metrics with so many buckets. -/
def Recording.amount (buckets : Nat) : Recording → Counter → Nat
  | created _, .created => 1
  | created (some i), .upTo place =>
    if (Histogram.bounds.map Prod.fst).findIdx (i.natAbs ≤ ·) ≤ place ∧ place < buckets then 1
    else 0
  | added sink, .added sink' => if sink = sink' then 1 else 0
  | rejected field kind, .rejected field' kind' => if (field, kind) = (field', kind') then 1 else 0
  | _, _ => 0

namespace Metrics

def record (m : Metrics) : Recording → Metrics
  | .created value => m.recordCreated value
  | .added sink => m.recordAdded sink
  | .rejected field kind => m.recordRejection field kind

/-- Enters some recordings, one after another. -/
def recordAll (m : Metrics) (recordings : List Recording) : Metrics := recordings.foldl record m

def reading (m : Metrics) : Counter → Nat
  | .created => m.created
  | .added sink => m.added.count sink
  | .rejected field kind => m.rejections.count (field, kind)
  | .upTo place => (Histogram.cumulative 0 m.values.counts).getD place 0

def buckets (m : Metrics) : Nat := m.values.counts.length

theorem buckets_record (m : Metrics) (recording : Recording) :
    (m.record recording).buckets = m.buckets := by
  cases recording with
  | created value =>
    cases value with
    | none => rfl
    | some i => exact Histogram.length_enter ..
  | added | rejected => rfl

theorem reading_record (m : Metrics) (recording : Recording) (c : Counter) :
    (m.record recording).reading c = m.reading c + recording.amount m.buckets c := by
  cases recording with
  | created value =>
    cases c with
    | upTo place =>
      cases value with
      | none => rfl
      | some i => exact Histogram.getD_cumulative_enter i.natAbs 0 _ _ place
    | created | added | rejected => rfl
  | added sink =>
    cases c with
    | added sink' => exact m.added.count_add sink sink'
    | created | rejected | upTo => rfl
  | rejected field kind =>
    cases c with
    | rejected field' kind' => exact m.rejections.count_add (field, kind) (field', kind')
    | created | added | upTo => rfl

theorem recordAll_append (m : Metrics) (recordings recordings' : List Recording) :
    m.recordAll (recordings ++ recordings') = (m.recordAll recordings).recordAll recordings' :=
  List.foldl_append

theorem reading_recordAll (m : Metrics) (recordings : List Recording) (c : Counter) :
    (m.recordAll recordings).reading c =
      m.reading c + (recordings.map fun recording => recording.amount m.buckets c).sum := by
  induction recordings generalizing m with
  | nil => rfl
  | cons recording rest ih =>
    have hrest := ih (m.record recording)
    rw [buckets_record, reading_record, Nat.add_assoc] at hrest
    rw [List.map_cons, List.sum_cons]
    exact hrest

/-- Where the recordings of two parties are mixed, the numbers are raised by the sums. -/
theorem reading_recordAll_of_perm (m : Metrics) {mixed left right : List Recording}
    (h : mixed.Perm (left ++ right)) (c : Counter) :
    (m.recordAll mixed).reading c + m.reading c =
      (m.recordAll left).reading c + (m.recordAll right).reading c := by
  have hsum := (h.map fun recording => recording.amount m.buckets c).sum_nat
  rw [List.map_append, List.sum_append] at hsum
  rw [reading_recordAll, reading_recordAll, reading_recordAll, hsum]
  omega

theorem reading_fresh (c : Counter) : fresh.reading c = 0 := by
  have hcumulative (n i : Nat) : (Histogram.cumulative 0 (List.replicate n 0)).getD i 0 = 0 := by
    induction n generalizing i with
    | zero => rfl
    | succ n ih =>
      cases i with
      | zero => rfl
      | succ i => exact ih i
  cases c with
  | upTo place => exact hcumulative _ place
  | created | added | rejected => rfl

end Metrics

end Telemetry
