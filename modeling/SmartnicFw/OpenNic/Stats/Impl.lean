import SmartnicFw.Lib.CountedLoop

/-!
This module contains the metrics of a statistics block and how an update reads, accumulates and
clears them (`stats.c`). The raw values that a block's driver reads are an input of each update.
-/

inductive StatsMetricType where
  | counter
  | gauge
  | flag
  deriving DecidableEq, Repr

inductive StatsMetricFlag where
  | clearOnRead
  | neverClear
  | array
  deriving DecidableEq, Repr

def statsMetricFlagMask : StatsMetricFlag → UInt32
  | .clearOnRead => (1 : UInt32) <<< 0
  | .neverClear => (1 : UInt32) <<< 1
  | .array => (1 : UInt32) <<< 2

def statsMetricFlagTest (flags : UInt32) (flag : StatsMetricFlag) : Bool :=
  flags &&& statsMetricFlagMask flag != 0

structure StatsLabel where
  key : List UInt8
  value : List UInt8
  deriving DecidableEq, Repr

structure StatsMetricValue where
  u64 : UInt64
  labels : List StatsLabel
  deriving DecidableEq, Repr

structure StatsMetricElement where
  value : StatsMetricValue
  last : UInt64
  deriving DecidableEq, Repr

structure StatsMetricSpec where
  name : List UInt8
  nelements : Nat
  type : StatsMetricType
  flags : UInt32
  initValue : UInt64
  deriving DecidableEq, Repr

structure StatsMetric where
  spec : StatsMetricSpec
  elements : List StatsMetricElement
  elements_ne : elements ≠ []
  deriving DecidableEq, Repr

theorem StatsMetric.values_ne (metric : StatsMetric) : metric.elements.map (·.value) ≠ [] := by
  simpa using metric.elements_ne

structure StatsBlockSpec where
  name : List UInt8
  metrics : List StatsMetricSpec
  deriving DecidableEq, Repr

structure StatsZoneSpec where
  name : List UInt8
  deriving DecidableEq, Repr

structure StatsDomainSpec where
  name : List UInt8
  deriving DecidableEq, Repr

structure StatsBlock where
  domain : StatsDomainSpec
  zone : StatsZoneSpec
  spec : StatsBlockSpec
  metrics : List StatsMetric
  deriving DecidableEq, Repr

-- What a clear filter gets to see. The metric is passed by its address, which `metricIdx` stands
-- for: two metrics of one block can have equal contents.
structure StatsClearFilterSpec where
  domain : StatsDomainSpec
  zone : StatsZoneSpec
  block : StatsBlockSpec
  metricIdx : Nat
  metric : StatsMetricSpec
  values : List StatsMetricValue
  values_ne : values ≠ []

-- The `match` callback, together with its argument and what `setup` prepares in it. Without a
-- callback the filter is the wildcard that clears everything.
structure StatsClearFilter where
  matchFn : Option (StatsClearFilterSpec → Nat → Bool)

namespace StatsMetricSpec

def numElements (spec : StatsMetricSpec) : Nat :=
  if statsMetricFlagTest spec.flags .array then spec.nelements else 1

end StatsMetricSpec

-- An array of 0 elements ends the process. The labels are filled in when the metric is attached.
def statsMetricAlloc (spec : StatsMetricSpec) (labels : Nat → List StatsLabel)
    : Option StatsMetric :=
  if h : spec.numElements = 0 then
    none
  else
    some {
      spec
      elements := (List.range spec.numElements).map fun n =>
        { value := { u64 := spec.initValue, labels := labels n }, last := spec.initValue }
      elements_ne := by simpa using h }

def statsBlockAlloc (domain : StatsDomainSpec) (zone : StatsZoneSpec) (spec : StatsBlockSpec)
    (labels : StatsMetricSpec → Nat → List StatsLabel)
    : Option StatsBlock := do
  let metrics ← spec.metrics.mapM fun mspec => statsMetricAlloc mspec (labels mspec)
  return { domain, zone, spec, metrics }

namespace statsBlockUpdateMetrics

def filterSpec (blk : StatsBlock) (metricIdx : Nat) (metric : StatsMetric)
    : StatsClearFilterSpec :=
  { domain := blk.domain
    zone := blk.zone
    block := blk.spec
    metricIdx
    metric := metric.spec
    values := metric.elements.map (·.value)
    values_ne := metric.values_ne }

def doClear (mspec : StatsMetricSpec) (filter : Option StatsClearFilter)
    (fspec : StatsClearFilterSpec) (n : Nat)
    : Bool :=
  !statsMetricFlagTest mspec.flags .neverClear &&
    match filter with
    | none => false
    | some filter =>
      match filter.matchFn with
      | none => true
      | some matchFn => matchFn fspec n

-- The switch on the type of the metric, with the value that was read for the element
def updateElement (mspec : StatsMetricSpec) (e : StatsMetricElement) (value : UInt64)
    (doClear : Bool)
    : StatsMetricElement :=
  match mspec.type with
  | .counter =>
    let isClearOnRead := statsMetricFlagTest mspec.flags .clearOnRead
    let diff := if isClearOnRead then value else value - e.last
    let last := if isClearOnRead then e.last else value
    let u64 := if doClear then mspec.initValue else e.value.u64 + diff
    { value := { e.value with u64 }, last }
  | .flag =>
    let u64 := if doClear then mspec.initValue else if value ≠ 0 then 1 else 0
    { e with value := { e.value with u64 } }
  | .gauge =>
    let u64 := if doClear then mspec.initValue else value
    { e with value := { e.value with u64 } }

def updateMetric (blk : StatsBlock) (filter : Option StatsClearFilter) (readings : Nat → UInt64)
    (metricIdx : Nat) (metric : StatsMetric)
    : StatsMetric :=
  let fspec := filterSpec blk metricIdx metric
  { metric with
    elements := metric.elements.mapIdx fun n e =>
      updateElement metric.spec e (readings n) (doClear metric.spec filter fspec n)
    elements_ne := fun h => metric.elements_ne (List.mapIdx_eq_nil_iff.mp h) }

end statsBlockUpdateMetrics

/--
The elements of each metric after an update whose loops end. `readings m n` is what is read for element
`n` of metric `m`.
-/
def StatsBlock.updateMetrics (blk : StatsBlock) (filter : Option StatsClearFilter)
    (readings : Nat → Nat → UInt64)
    : StatsBlock :=
  { blk with
    metrics := blk.metrics.mapIdx fun m metric =>
      statsBlockUpdateMetrics.updateMetric blk filter (readings m) m metric }

namespace statsBlockUpdateMetrics

def copyValue (metric : StatsMetric) (n : UInt32) (values : List StatsMetricValue)
    : Option (List StatsMetricValue) := do
  let e ← metric.elements[n.toNat]?
  some (values.set n.toNat e.value)

-- The values that the filter gets to see, copied one by one
def copyValues (fuel : Nat) (metric : StatsMetric) : Option (List StatsMetricValue) :=
  CountedLoop.loop metric.elements.length (copyValue metric) fuel 0
    (List.replicate metric.elements.length { u64 := 0, labels := [] })

-- Without a filter nothing looks at what it would get to see
def clearFilterSpec (fuel : Nat) (blk : StatsBlock) (filter : Option StatsClearFilter)
    (metricIdx : Nat) (metric : StatsMetric)
    : Option StatsClearFilterSpec :=
  match filter with
  | none => some (filterSpec blk metricIdx metric)
  | some _ => do
    let values ← copyValues fuel metric
    if h : values = [] then
      none
    else
      some { filterSpec blk metricIdx metric with values, values_ne := h }

-- The loop over the labels of an element, whose values are published
def publishLabels (fuel : Nat) (e : StatsMetricElement) : Option Unit :=
  CountedLoop.loop e.value.labels.length (fun _ _ => some ()) fuel 0 ()

def updateAt (fuel : Nat) (mspec : StatsMetricSpec) (filter : Option StatsClearFilter)
    (fspec : StatsClearFilterSpec) (readings : Nat → UInt64) (n : UInt32)
    (elements : List StatsMetricElement)
    : Option (List StatsMetricElement) := do
  let e ← elements[n.toNat]?
  let e := updateElement mspec e (readings n.toNat) (doClear mspec filter fspec n.toNat)
  publishLabels fuel e
  some (elements.set n.toNat e)

def metricLoop (fuel : Nat) (blk : StatsBlock) (filter : Option StatsClearFilter)
    (readings : Nat → UInt64) (metricIdx : Nat) (metric : StatsMetric)
    : Option StatsMetric := do
  let fspec ← clearFilterSpec fuel blk filter metricIdx metric
  let elements ← CountedLoop.loop metric.elements.length
    (updateAt fuel metric.spec filter fspec readings) fuel 0 metric.elements
  if h : elements = [] then
    none
  else
    some { metric with elements, elements_ne := h }

def metricLoops (fuel : Nat) (blk : StatsBlock) (filter : Option StatsClearFilter)
    (readings : Nat → Nat → UInt64) (metricIdx : Nat) (metrics : List StatsMetric)
    : Option (List StatsMetric) :=
  match metrics with
  | [] => some []
  | metric :: metrics => do
    let metric ← metricLoop fuel blk filter (readings metricIdx) metricIdx metric
    let metrics ← metricLoops fuel blk filter readings (metricIdx + 1) metrics
    some (metric :: metrics)

end statsBlockUpdateMetrics

-- The loops over elements and labels count with an `unsigned int`, and need `fuel`
def statsBlockUpdateMetrics (fuel : Nat) (blk : StatsBlock) (filter : Option StatsClearFilter)
    (readings : Nat → Nat → UInt64)
    : Option StatsBlock := do
  let metrics ← statsBlockUpdateMetrics.metricLoops fuel blk filter readings 0 blk.metrics
  some { blk with metrics }

-- What the loops of an update can count
def StatsMetric.Countable (metric : StatsMetric) : Prop :=
  metric.elements.length < 2 ^ 32 ∧ ∀ e ∈ metric.elements, e.value.labels.length < 2 ^ 32

def StatsBlock.Countable (blk : StatsBlock) : Prop := ∀ metric ∈ blk.metrics, metric.Countable

-- How far the loops of an update count
def StatsMetric.longest (metric : StatsMetric) : Nat :=
  metric.elements.length + (metric.elements.map fun e => e.value.labels.length).sum

def StatsBlock.longest (blk : StatsBlock) : Nat := (blk.metrics.map StatsMetric.longest).sum

structure StatsZone where
  spec : StatsZoneSpec
  blocks : List StatsBlock
  enabled : Bool

def updateBlocks (fuel : Nat) (filter : Option StatsClearFilter)
    (readings : Nat → Nat → Nat → UInt64) (blockIdx : Nat) (blocks : List StatsBlock)
    : Option (List StatsBlock) :=
  match blocks with
  | [] => some []
  | blk :: blocks => do
    let blk ← statsBlockUpdateMetrics fuel blk filter (readings blockIdx)
    let blocks ← updateBlocks fuel filter readings (blockIdx + 1) blocks
    some (blk :: blocks)

def statsZoneUpdateMetrics (fuel : Nat) (zone : StatsZone) (readings : Nat → Nat → Nat → UInt64)
    : Option StatsZone :=
  if !zone.enabled then
    some zone
  else do
    let blocks ← updateBlocks fuel none readings 0 zone.blocks
    some { zone with blocks }

-- Clearing goes through an update with a filter, also when the zone is disabled
def statsZoneClearMetrics (fuel : Nat) (zone : StatsZone) (filter : Option StatsClearFilter)
    (readings : Nat → Nat → Nat → UInt64)
    : Option StatsZone := do
  let filter := filter.getD { matchFn := none }
  let blocks ← updateBlocks fuel (some filter) readings 0 zone.blocks
  some { zone with blocks }
