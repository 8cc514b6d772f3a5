import SmartnicFw.Lib.Buffer
import SmartnicFw.Lib.CountedLoop
import SmartnicFw.OpenNic.Stats.Impl

/-!
This module contains the labels of a metric and the samples that it exports (`stats.c`): where the
labels are kept, how they are filled in, and what an update publishes.
-/

namespace StatsExport

abbrev Text := List UInt8

def text (s : List Char) : Text := s.map fun c => UInt8.ofNat c.toNat

-- The double that a value is converted to, by its bits
abbrev Double := UInt64

structure StatsLabelFormatSpec where
  domain : Text
  zone : Text
  block : Text
  metric : Text
  idx : UInt32
  deriving DecidableEq, Repr

structure StatsLabelSpec where
  key : Text
  value : Option Text
  flags : UInt32
  valueAlloc : Option (StatsLabelFormatSpec → Text)

def StatsLabelSpec.noExport (lspec : StatsLabelSpec) : Bool := lspec.flags &&& 1 != 0

def statsLabelValueDomain (spec : StatsLabelFormatSpec) : Text := spec.domain

def statsLabelValueZone (spec : StatsLabelFormatSpec) : Text := spec.zone

def statsLabelValueBlock (spec : StatsLabelFormatSpec) : Text := spec.block

-- `%u`
def statsLabelValueIndex (spec : StatsLabelFormatSpec) : Text :=
  text (Nat.toDigits 10 spec.idx.toNat)

def defaultStatsLabels : List StatsLabelSpec := [
  { key := text ['d', 'o', 'm', 'a', 'i', 'n']
    value := none
    flags := 0
    valueAlloc := some statsLabelValueDomain },
  { key := text ['z', 'o', 'n', 'e']
    value := none
    flags := 0
    valueAlloc := some statsLabelValueZone },
  { key := text ['b', 'l', 'o', 'c', 'k']
    value := none
    flags := 0
    valueAlloc := some statsLabelValueBlock }]

def arrayStatsLabels : List StatsLabelSpec := [
  { key := text ['i', 'n', 'd', 'e', 'x']
    value := none
    flags := 0
    valueAlloc := some statsLabelValueIndex }]

structure Spec extends StatsMetricSpec where
  labels : List StatsLabelSpec
  numElements_pos : 0 < toStatsMetricSpec.numElements

-- A record of the label array, whose pointers are NULL in a fresh allocation
structure LabelRecord where
  key : Option Text
  value : Option Text
  deriving DecidableEq, Repr

-- `labels` is the position of the element's first record in the label array
structure Element where
  u64 : UInt64
  f64 : Double
  last : UInt64
  labels : Nat
  deriving DecidableEq, Repr

structure Gauge where
  keys : List Text
  samples : List (Option Text) → Option Double

def promGaugeNew (keys : List Text) : Gauge := { keys := keys, samples := fun _ => none }

-- The value is stored under the label values that it comes with
def promGaugeSet (gauge : Gauge) (value : Double) (values : List (Option Text)) : Gauge :=
  { gauge with samples := fun vs => if vs = values then some value else gauge.samples vs }

structure Metric where
  spec : StatsMetricSpec
  labels : List StatsLabelSpec
  nelements : Nat
  elements : List Element
  records : List LabelRecord
  gauge : Gauge

section Alloc

-- The label of one turn of the three loops, with the key that is exported
def addLabel (lspec : StatsLabelSpec) (s : List StatsLabelSpec × List Text)
    : List StatsLabelSpec × List Text :=
  let (labels, keys) := s
  (labels ++ [lspec], if lspec.noExport then keys else keys ++ [lspec.key])

def addLabels (lspecs : List StatsLabelSpec) (s : List StatsLabelSpec × List Text)
    : List StatsLabelSpec × List Text :=
  lspecs.foldl (fun s lspec => addLabel lspec s) s

def isArray (spec : StatsMetricSpec) : Bool := statsMetricFlagTest spec.flags .array

def nlabels (spec : Spec) : Nat :=
  defaultStatsLabels.length + spec.labels.length +
    if isArray spec.toStatsMetricSpec then arrayStatsLabels.length else 0

-- `fuel` bounds the loops that count with an `unsigned int`
def statsMetricAlloc (fuel : Nat) (spec : Spec) : Option Metric := do
  let nelements := spec.toStatsMetricSpec.numElements
  let s := addLabels defaultStatsLabels ([], [])
  let s := if isArray spec.toStatsMetricSpec then addLabels arrayStatsLabels s else s
  let (labels, keys) ← CountedLoop.loop spec.labels.length
    (fun n s => do
      let lspec ← spec.labels[n.toNat]?
      some (addLabel lspec s)) fuel 0 s
  some {
    spec := spec.toStatsMetricSpec
    labels := labels
    nelements := nelements
    elements := (List.range nelements).map fun n =>
      { u64 := spec.initValue, f64 := 0, last := spec.initValue, labels := n * nlabels spec }
    records := List.replicate (nelements * nlabels spec) { key := none, value := none }
    gauge := promGaugeNew keys }

end Alloc

-- The names of the domain, zone, block and metric
structure Names where
  domain : Text
  zone : Text
  block : Text
  metric : Text
  deriving DecidableEq, Repr

def Names.format (names : Names) (idx : UInt32) : StatsLabelFormatSpec :=
  { domain := names.domain
    zone := names.zone
    block := names.block
    metric := names.metric
    idx := idx }

def labelValue (lspec : StatsLabelSpec) (fspec : StatsLabelFormatSpec) : Text :=
  match lspec.valueAlloc, lspec.value with
  | some valueAlloc, _ => valueAlloc fspec
  | none, some value => value
  | none, none => []

def labelRecord (fspec : StatsLabelFormatSpec) (lspec : StatsLabelSpec) : LabelRecord :=
  { key := some lspec.key, value := some (labelValue lspec fspec) }

/--
The records of each element are written from where its pointer leads to.
-/
def statsMetricAttach (fuel : Nat) (names : Names) (metric : Metric) : Option Metric := do
  let records ← CountedLoop.loop metric.nelements
    (fun n records => do
      let e ← metric.elements[n.toNat]?
      some (Buffer.overwrite records e.labels
        (metric.labels.map (labelRecord (names.format n))))) fuel 0 metric.records
  some { metric with records := records }

-- What an update of the metric's block brings for it
structure Update where
  readings : Nat → UInt64
  doClear : Nat → Bool
  convert : UInt64 → Double

-- The switch on the type of the metric, which does not look at the labels
def accumulate (mspec : StatsMetricSpec) (e : Element) (value : UInt64) (doClear : Bool)
    : Element :=
  let e' := statsBlockUpdateMetrics.updateElement mspec
    { value := { u64 := e.u64, labels := [] }, last := e.last } value doClear
  { e with u64 := e'.value.u64, last := e'.last }

def publicLabelValues (fuel : Nat) (metric : Metric) (e : Element) : Option (List (Option Text)) :=
  CountedLoop.loop metric.labels.length
    (fun n plv => do
      let lspec ← metric.labels[n.toNat]?
      if lspec.noExport then
        some plv
      else do
        let label ← metric.records[e.labels + n.toNat]?
        some (plv ++ [label.value])) fuel 0 []

def statsBlockUpdateMetric (fuel : Nat) (update : Update) (metric : Metric) : Option Metric :=
  CountedLoop.loop metric.nelements
    (fun n metric => do
      let e ← metric.elements[n.toNat]?
      let e := accumulate metric.spec e (update.readings n.toNat) (update.doClear n.toNat)
      let e := { e with f64 := update.convert e.u64 }
      let metric := { metric with elements := metric.elements.set n.toNat e }
      let values ← publicLabelValues fuel metric e
      some { metric with gauge := promGaugeSet metric.gauge e.f64 values }) fuel 0 metric

def run (fuel : Nat) (names : Names) (spec : Spec) (updates : List Update) : Option Metric := do
  let metric ← statsMetricAlloc fuel spec
  let metric ← statsMetricAttach fuel names metric
  updates.foldlM (fun metric update => statsBlockUpdateMetric fuel update metric) metric

section Layout

-- The sizes of the structures of which the one allocation is made up
structure Sizes where
  metric : Nat
  element : Nat
  labelSpec : Nat
  label : Nat
  deriving DecidableEq, Repr

def endOffset (sizes : Sizes) (spec : Spec) : Nat :=
  sizes.metric + spec.toStatsMetricSpec.numElements * sizes.element +
    nlabels spec * sizes.labelSpec +
    spec.toStatsMetricSpec.numElements * nlabels spec * sizes.label

-- What is asked of `calloc`, as a `size_t`
def allocSize (sizes : Sizes) (spec : Spec) : Nat := endOffset sizes spec % 2 ^ 64

-- Where the label array starts, after the metric, its elements and the label specs
def labelsOffset (sizes : Sizes) (spec : Spec) : Nat :=
  sizes.metric + spec.toStatsMetricSpec.numElements * sizes.element + nlabels spec * sizes.labelSpec

def recordOffset (sizes : Sizes) (spec : Spec) (e : Element) (i : Nat) : Nat :=
  labelsOffset sizes spec + (e.labels + i) * sizes.label

end Layout

end StatsExport
