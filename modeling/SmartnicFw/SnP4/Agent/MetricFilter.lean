import SmartnicFw.OpenNic.Stats.Impl
import SmartnicFw.SnP4.Agent.IndexSlice
import SmartnicFw.SnP4.Agent.MatchString

/-!
This module contains the statistics filters of the agent (`stats.cpp`): the messages, the evaluation
of a filter for all elements of a metric at once, and its use by `GetStats` and `ClearStats`.
-/

namespace SnP4V2

-- Unrecognized values of an open enumeration are kept
inductive StatsMetricType where
  | unknown
  | counter
  | gauge
  | flag
  | unrecognized (value : Int32)
  deriving DecidableEq, Repr

inductive StatsMetricMatch where
  | notSet
  | type (type : StatsMetricType)
  | domain (domain : StatsMetricMatchString)
  | zone (zone : StatsMetricMatchString)
  | block (block : StatsMetricMatchString)
  | name (name : StatsMetricMatchString)
  | indices (slices : List StatsMetricMatchIndexSlice)
  | label (key value : Option StatsMetricMatchString)

mutual

inductive StatsMetricFilter where
  | mk (negated : Bool) (term : StatsMetricFilterTerm)

inductive StatsMetricFilterTerm where
  | notSet
  | ofMatch (m : StatsMetricMatch)
  | anySet (members : List StatsMetricFilter)
  | allSet (members : List StatsMetricFilter)

end

structure StatsFilters where
  nonZero : Bool
  metricFilter : Option StatsMetricFilter
  withLabels : Bool

structure StatsMetricValue where
  index : Nat
  u64 : UInt64
  labels : List StatsLabel
  deriving DecidableEq, Repr

structure StatsMetric where
  type : StatsMetricType
  name : List UInt8
  numElements : Nat
  domain : List UInt8
  zone : List UInt8
  block : List UInt8
  values : List StatsMetricValue
  deriving DecidableEq, Repr

end SnP4V2

-- What the walk over the metrics hands to its callback
structure StatsForEachSpec where
  domain : StatsDomainSpec
  zone : StatsZoneSpec
  block : StatsBlockSpec
  metric : StatsMetricSpec
  values : List StatsMetricValue
  values_ne : values ≠ []

namespace StatsForEachSpec

def nvalues (spec : StatsForEachSpec) : Nat := spec.values.length

theorem nvalues_pos (spec : StatsForEachSpec) : 0 < spec.nvalues := by
  apply List.length_pos_iff.mpr
  exact spec.values_ne

end StatsForEachSpec

open SnP4V2 (StatsMetricMatchString StatsMetricMatch StatsMetricFilter StatsMetricFilterTerm
  StatsFilters)

section

variable {nbits : Nat} (re : Regex) (fuel : Nat) (spec : StatsForEachSpec)

def applyMetricFilterMatchIndices.go (slices : List StatsMetricMatchIndexSlice)
    (valid : BitArray nbits)
    : Option (BitArray nbits) :=
  match slices with
  | [] => some valid
  | s :: slices => do
    let valid ← applyMetricFilterMatchIndices.slice fuel s valid
    go slices valid

def applyMetricFilterMatchIndices (slices : List StatsMetricMatchIndexSlice)
    (valid : BitArray nbits)
    : Option (BitArray nbits) :=
  let isArray := statsMetricFlagTest spec.metric.flags .array
  if !isArray then
    some (valid.assignAll (slices.length < 1))
  else
    applyMetricFilterMatchIndices.go fuel slices valid

def applyMetricFilterMatchLabel.labelMatches (key value : Option StatsMetricMatchString)
    (vl : StatsLabel)
    : Bool :=
  (match key with
    | none => true
    | some key => applyMetricFilterMatchString re key vl.key) &&
  match value with
  | none => true
  | some value => applyMetricFilterMatchString re value vl.value

def applyMetricFilterMatchLabel.go (key value : Option StatsMetricMatchString)
    (values : List StatsMetricValue) (n : Nat) (valid : BitArray nbits)
    : BitArray nbits :=
  match values with
  | [] => valid
  | v :: values =>
    if v.labels.any (labelMatches re key value) then
      go key value values (n + 1) (valid.assignBit n true)
    else
      go key value values (n + 1) valid

def applyMetricFilterMatchLabel (key value : Option StatsMetricMatchString)
    (valid : BitArray nbits)
    : BitArray nbits :=
  applyMetricFilterMatchLabel.go re key value spec.values 0 valid

def applyMetricFilterMatch (m : StatsMetricMatch) (type : SnP4V2.StatsMetricType)
    (valid : BitArray nbits)
    : Option (BitArray nbits) :=
  match m with
  | .type t => some (valid.assignAll (t == type))
  | .domain domain =>
    some (valid.assignAll (applyMetricFilterMatchString re domain spec.domain.name))
  | .zone zone => some (valid.assignAll (applyMetricFilterMatchString re zone spec.zone.name))
  | .block block => some (valid.assignAll (applyMetricFilterMatchString re block spec.block.name))
  | .name name => some (valid.assignAll (applyMetricFilterMatchString re name spec.metric.name))
  | .indices slices => applyMetricFilterMatchIndices fuel spec slices valid
  | .label key value => some (applyMetricFilterMatchLabel re spec key value valid)
  | .notSet => some (valid.assignAll true)

mutual

def applyMetricFilter (filter : StatsMetricFilter) (type : SnP4V2.StatsMetricType)
    (valid : BitArray nbits)
    : Option (BitArray nbits) :=
  match filter with
  | .mk negated term => do
    let valid ← applyMetricFilterTerm term type valid
    return if negated then valid.negateAll else valid

def applyMetricFilterTerm (term : StatsMetricFilterTerm) (type : SnP4V2.StatsMetricType)
    (valid : BitArray nbits)
    : Option (BitArray nbits) :=
  match term with
  | .ofMatch m => applyMetricFilterMatch re fuel spec m type valid
  | .anySet members =>
    if members.length < 1 then
      some valid.setAll
    else
      applyMetricFilterAnySet members type valid (BitArray.new nbits valid.nbits_pos)
  | .allSet members =>
    let valid := valid.setAll
    if members.length < 1 then
      some valid
    else
      applyMetricFilterAllSet members type valid (BitArray.new nbits valid.nbits_pos)
  | .notSet => some valid.setAll

-- The scratch array `v` is cleared after each member
def applyMetricFilterAnySet (members : List StatsMetricFilter) (type : SnP4V2.StatsMetricType)
    (valid v : BitArray nbits)
    : Option (BitArray nbits) :=
  match members with
  | [] => some valid
  | member :: members => do
    let v ← applyMetricFilter member type v
    let valid := valid.orAssign v
    if valid.isAllSet then
      return valid
    applyMetricFilterAnySet members type valid v.clearAll

def applyMetricFilterAllSet (members : List StatsMetricFilter) (type : SnP4V2.StatsMetricType)
    (valid v : BitArray nbits)
    : Option (BitArray nbits) :=
  match members with
  | [] => some valid
  | member :: members => do
    let v ← applyMetricFilter member type v
    let valid := valid.andAssign v
    if valid.isAllCleared then
      return valid
    applyMetricFilterAllSet members type valid v.clearAll

end

def applyFilters.go (nonZero : Bool) (values : List StatsMetricValue) (n : Nat)
    (valid : BitArray nbits)
    : BitArray nbits :=
  match values with
  | [] => valid
  | v :: values => go nonZero values (n + 1) (valid.assignBit n (!nonZero || v.u64 != 0))

def applyFilters (filters : StatsFilters) (type : SnP4V2.StatsMetricType) (valid : BitArray nbits)
    : Option (BitArray nbits) := do
  let valid := applyFilters.go filters.nonZero spec.values 0 valid
  if valid.isAllCleared then
    return valid
  match filters.metricFilter with
  | some metricFilter =>
    let v ← applyMetricFilter re fuel spec metricFilter type (BitArray.new nbits valid.nbits_pos)
    return valid.andAssign v
  | none => return valid

def statsMetricTypeMessage : StatsMetricType → SnP4V2.StatsMetricType
  | .counter => .counter
  | .gauge => .gauge
  | .flag => .flag

-- The message that is added for a metric, if any element is valid
def getStatsForEachMetric (filters : StatsFilters) : Option (Option SnP4V2.StatsMetric) := do
  let type := statsMetricTypeMessage spec.metric.type
  let valid := BitArray.new spec.nvalues spec.nvalues_pos
  let valid ← applyFilters re fuel spec filters type valid
  if valid.isAllCleared then
    return none
  let values := spec.values.zipIdx.filter fun p => valid.isBitSet p.2
  return some {
    type
    name := spec.metric.name
    numElements := spec.metric.nelements
    domain := spec.domain.name
    zone := spec.zone.name
    block := spec.block.name
    values := values.map fun p =>
      { index := p.2, u64 := p.1.u64, labels := if filters.withLabels then p.1.labels else [] } }

end

def clearStatsFilterSetup (re : Regex) (fuel : Nat) (spec : StatsClearFilterSpec)
    (metricFilter : StatsMetricFilter)
    : Option (BitArray spec.values.length) :=
  let forEachSpec : StatsForEachSpec :=
    { domain := spec.domain, zone := spec.zone, block := spec.block, metric := spec.metric
      values := spec.values, values_ne := spec.values_ne }
  let type := statsMetricTypeMessage spec.metric.type
  applyMetricFilter re fuel forEachSpec metricFilter type
    (BitArray.new spec.values.length forEachSpec.nvalues_pos)

def clearStatsFilterMatch {nbits : Nat} (valid : BitArray nbits) (valueIdx : Nat) : Bool :=
  valid.isBitSet valueIdx

-- The filter that `clear_stats_domain` and `clear_stats_zone` pass on: without a metric filter
-- there is none, which clears everything
def clearStatsFilter (re : Regex) (fuel : Nat) (filters : StatsFilters)
    : Option StatsClearFilter := do
  let metricFilter ← filters.metricFilter
  return {
    matchFn := some fun spec valueIdx =>
      match clearStatsFilterSetup re fuel spec metricFilter with
      | some valid => clearStatsFilterMatch valid valueIdx
      | none => false }

-- The walk over the metrics of a block hands over a copy of the values of each metric
def StatsBlock.forEachSpec (blk : StatsBlock) (metric : StatsMetric) : StatsForEachSpec :=
  { domain := blk.domain
    zone := blk.zone
    block := blk.spec
    metric := metric.spec
    values := metric.elements.map (·.value)
    values_ne := metric.values_ne }

-- What the filter decides for an element once its evaluation has ended
theorem doClear_clearStatsFilter {re : Regex} {fuel : Nat} {filters : StatsFilters}
    {filter : StatsMetricFilter} (hfilter : filters.metricFilter = some filter)
    {blk : StatsBlock} {metric : StatsMetric} {valid : BitArray (blk.forEachSpec metric).nvalues}
    (happly : applyMetricFilter re fuel (blk.forEachSpec metric) filter
      (statsMetricTypeMessage metric.spec.type)
      (BitArray.new _ (blk.forEachSpec metric).nvalues_pos) = some valid) (m n : Nat)
    : statsBlockUpdateMetrics.doClear metric.spec (clearStatsFilter re fuel filters)
          (statsBlockUpdateMetrics.filterSpec blk m metric) n =
        (!statsMetricFlagTest metric.spec.flags .neverClear && clearStatsFilterMatch valid n) := by
  have hsetup : clearStatsFilterSetup re fuel (statsBlockUpdateMetrics.filterSpec blk m metric)
      filter = some valid := happly
  simp only [statsBlockUpdateMetrics.doClear, clearStatsFilter, hfilter, Option.bind_eq_bind,
    Option.bind_some, Option.pure_def]
  rw [hsetup]
  rfl
