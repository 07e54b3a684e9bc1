import Telemetry.Binary64.Rounding
import Telemetry.Decimal.Rounding
import Telemetry.Fault
import Telemetry.Json.Quoted

/-!
# Metrics

Three counters and a histogram. Created events are counted as such, handed-over events by the class
of the sink, rejections by field and class. The histogram puts the magnitude of each event value
into the first bucket that is large enough; it is published cumulatively, so the sample of a bound
counts the values up to it. The sum of the magnitudes is a float and is rounded at every addition.
-/

namespace Telemetry

/-- How often each key was counted, in the order in which the keys came. -/
structure Tally (κ : Type) where
  counts : List (κ × Nat)

namespace Tally

variable {κ : Type} [DecidableEq κ]

/-- Nothing counted. -/
def empty : Tally κ := ⟨[]⟩

/-- Counts a key in a list of counts. -/
def bump (key : κ) : List (κ × Nat) → List (κ × Nat)
  | [] => [(key, 1)]
  | (k, n) :: rest => if k = key then (k, n + 1) :: rest else (k, n) :: bump key rest

/-- Counts a key once more. -/
def add (t : Tally κ) (key : κ) : Tally κ := ⟨bump key t.counts⟩

/-- How often a key was counted. -/
def count (t : Tally κ) (key : κ) : Nat := (t.counts.lookup key).getD 0

end Tally

/-- The magnitude of an event value. -/
structure Magnitude where
  /-- The least whole number that is not below it, which decides on its bucket. -/
  ceiling : Nat
  /-- The nearest float, which is added to the sum. -/
  nearest : Binary64

namespace Magnitude

/-- The magnitude that is a whole number. -/
def ofNat (n : Nat) : Magnitude := ⟨n, Binary64.ofNat n⟩

/-- The magnitude of a float. -/
def ofFloat (x : Binary64) : Magnitude := ⟨x.ceiling, x.abs⟩

end Magnitude

/-- The magnitudes of event values, by size. -/
structure Histogram where
  /-- One count for each bound and a last one for what is beyond them. -/
  counts : List Nat
  sum : Binary64

namespace Histogram

/-- The bounds of the buckets with their labels. -/
def bounds : List (Nat × Text) :=
  [(0, "0.0"), (1000000, "1e+06"), (10000000, "1e+07"), (100000000, "1e+08"),
    (1000000000, "1e+09"), (10000000000, "1e+10"), (1000000000000, "1e+12"),
    (1000000000000000, "1e+15")]

/-- No value yet. -/
def empty : Histogram := ⟨List.replicate (bounds.length + 1) 0, Binary64.zero false⟩

/-- Counts a magnitude, by its ceiling, in the first bucket whose bound it does not exceed. -/
def enter (ceiling : Nat) : List Nat → List Nat → List Nat
  | _, [] => []
  | [], n :: rest => (n + 1) :: rest
  | bound :: bounds, n :: rest =>
    if ceiling ≤ bound then (n + 1) :: rest else n :: enter ceiling bounds rest

/-- Observes the magnitude of an event value. -/
def observe (h : Histogram) (magnitude : Magnitude) : Histogram where
  counts := enter magnitude.ceiling (bounds.map Prod.fst) h.counts
  sum := Binary64.addMagnitudes h.sum magnitude.nearest

/-- The sums of the first counts, of one count, of two, and so on. -/
def cumulative (before : Nat) : List Nat → List Nat
  | [] => []
  | n :: rest => (before + n) :: cumulative (before + n) rest

/-- The number of observed values. -/
def count (h : Histogram) : Nat := h.counts.foldr (· + ·) 0

end Histogram

/-- All metrics. -/
structure Metrics where
  /-- The number of created events. -/
  created : Nat
  /-- Events handed over, by class of sink. -/
  added : Tally Text
  /-- Rejections, by field and class. -/
  rejections : Tally (Text × Text)
  values : Histogram

/-- A published number. -/
structure Sample where
  name : Text
  /-- Labels with their values, sorted by label. -/
  labels : List (Text × Text)
  value : Nat

namespace Sample

/-- The name and the labels as JSON, by which samples are sorted. -/
def sortKey (s : Sample) : Text :=
  let pair (l : Text × Text) : Text :=
    "[" ++ Json.asciiQuote l.1 ++ ", " ++ Json.asciiQuote l.2 ++ "]"
  "[" ++ Json.asciiQuote s.name ++ ", [" ++ Text.join ", " (s.labels.map pair) ++ "]]"

/-- Lexicographic order by code points. -/
def precedes : Text → Text → Bool
  | [], _ => true
  | _ :: _, [] => false
  | a :: as, b :: bs => decide (a.val < b.val) || (a == b && precedes as bs)

end Sample

namespace Metrics

/-- Nothing recorded. -/
def fresh : Metrics := ⟨0, .empty, .empty, .empty⟩

/-- Records a created event and the magnitude of its value, if it has one. -/
def recordMagnitude (m : Metrics) (magnitude : Option Magnitude) : Metrics :=
  { m with
    created := m.created + 1
    values := match magnitude with
      | some magnitude => m.values.observe magnitude
      | none => m.values }

/-- Records a created event and its stored value, if it has one. -/
def recordCreated (m : Metrics) (value : Option Int) : Metrics :=
  m.recordMagnitude (value.map fun i => Magnitude.ofNat i.natAbs)

/-- Why a decimal has no magnitude that can be added to a float. -/
def refusalOf (d : Decimal) : Fault :=
  match d with
  | .nan _ true _ => .signalingOperand
  | .finite _ coefficient exponent =>
    if (Decimal.rounded .standard false coefficient exponent).overflows then .decimalOverflow
    else .notAddable (Datum.decimal d).qualifiedKindName
  | _ => .notAddable (Datum.decimal d).qualifiedKindName

/--
The magnitude of what is reported as the value of an event; nothing stands for no value. A whole
number must have a float. Of a complex number nothing is known, so it counts as zero.
-/
def magnitudeOf : Datum → Except Fault (Option Magnitude)
  | .null => .ok none
  | .bool b => .ok (some (.ofNat (if b then 1 else 0)))
  | .int i =>
    if (Binary64.ofInt i).isFinite then .ok (some (.ofNat i.natAbs)) else .error .intTooLarge
  | .float x => .ok (some (.ofFloat x))
  | .decimal d => .error (refusalOf d)
  | .other kind =>
    if kind = Datum.complexKind then .ok (some (.ofNat 0)) else .error (.noMagnitude kind)
  | d => .error (.noMagnitude d.kindName)

/-- Records a created event whose value is reported as a datum. -/
def recordReported (m : Metrics) (value : Datum) : Except Fault Metrics :=
  (magnitudeOf value).map m.recordMagnitude

/-- Records an event that was handed to a sink of a class. -/
def recordAdded (m : Metrics) (sink : Text) : Metrics := { m with added := m.added.add sink }

/-- Records a rejection. -/
def recordRejection (m : Metrics) (field kind : Text) : Metrics :=
  { m with rejections := m.rejections.add (field, kind) }

/-- All samples, sorted. A counter with labels has a sample once it was counted. -/
def samples (m : Metrics) : List Sample :=
  let added := m.added.counts.map fun (sink, n) =>
    (⟨"custom_events_added_total", [("sink", sink)], n⟩ : Sample)
  let rejections := m.rejections.counts.map fun ((field, kind), n) =>
    (⟨"custom_events_validation_errors_total", [("error", kind), ("field", field)], n⟩ : Sample)
  let buckets := List.zipWith
    (fun label n => (⟨"custom_events_value_micros_bucket", [("le", label)], n⟩ : Sample))
    (Histogram.bounds.map Prod.snd ++ [Text.ofString "+Inf"])
    (Histogram.cumulative 0 m.values.counts)
  let plain : List Sample :=
    [⟨"custom_events_created_total", [], m.created⟩,
      ⟨"custom_events_value_micros_count", [], m.values.count⟩,
      ⟨"custom_events_value_micros_sum", [], m.values.sum.integerPart⟩]
  (added ++ rejections ++ buckets ++ plain).mergeSort fun a b =>
    Sample.precedes a.sortKey b.sortKey

/-- The samples, if the sum of the magnitudes is a number that can be written. -/
def publish (m : Metrics) : Except Fault (List Sample) :=
  if m.values.sum.isNaN then .error .undefinedTotal
  else if m.values.sum.isInfinite then .error .infiniteTotal
  else .ok m.samples

end Metrics

end Telemetry
