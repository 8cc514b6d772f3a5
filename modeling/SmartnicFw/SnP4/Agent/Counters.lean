import SmartnicFw.Lib.MapM
import SmartnicFw.Snp4.Counters
import SmartnicFw.OpenNic.Stats.Accumulate

/-!
This module contains the statistics blocks of a pipeline's counters (`counters.cpp`): how they are
laid out, and how an update latches and reads them. The labels of a metric are an input, as no update
looks at them.
-/

namespace Counters

def ascii (s : String) : List UInt8 := s.toList.map fun c => UInt8.ofNat c.toNat

-- A metric with where its values start among those that are latched
structure MetricSpec where
  spec : StatsMetricSpec
  ioOffset : UInt32
  deriving DecidableEq, Repr

instance : Inhabited MetricSpec where
  default :=
    { spec := { name := [], nelements := 0, type := .counter, flags := 0, initValue := 0 }
      ioOffset := 0 }

structure Block where
  info : Snp4InfoCounterBlock
  mspecs : List MetricSpec
  dataSize : Nat
  blk : StatsBlock
  deriving DecidableEq, Repr

-- `sizeof(CountersLatchData)`: the flag that the counts are valid, up to where these start
def sizeofLatchData : Nat := 8

-- The index of the word that `ld->values[n]` is
def valuesWord (n : Nat) : Nat := sizeofLatchData / 8 + n

-- The flag is the first byte of its word
def setValid (data : List UInt64) (valid : Bool) : Option (List UInt64) :=
  match data with
  | [] => none
  | word :: words => some (((word &&& ~~~0xff) ||| (if valid then 1 else 0)) :: words)

def isValid (data : List UInt64) : Option Bool :=
  match data with
  | [] => none
  | word :: _ => some (word &&& 0xff != 0)

def countersLatchMetrics (cfg : List XilVitisNetP4TargetCounterConfig) (driver : CounterDriver)
    (info : Snp4InfoCounterBlock) (data : List UInt64)
    : Option (List UInt64) :=
  let numCounters := info.numCounters.toNat
  match info.type with
  | .packetsAndBytes => do
    let (valid, data) ← snp4CounterBlockComboRead cfg driver info.name data (valuesWord 0)
      (valuesWord numCounters) numCounters
    setValid data valid
  | .packets | .bytes | .flag => do
    let (valid, data) ← snp4CounterBlockSimpleRead cfg driver info.name data (valuesWord 0)
      numCounters
    setValid data valid

def countersReadMetric (mspec : MetricSpec) (values data : List UInt64) : Option (List UInt64) := do
  let valid ← isValid data
  if !valid then
    Buffer.write values 0 (List.replicate mspec.spec.nelements 0)
  else
    let lv ← Buffer.read data (valuesWord mspec.ioOffset.toNat) mspec.spec.nelements
    Buffer.write values 0 lv

-- `stats_block_update_metrics` with the callbacks of the block. The loops over its elements end: a
-- block has as many counters as a `uint32_t` can say.
def updateMetrics (cfg : List XilVitisNetP4TargetCounterConfig) (driver : CounterDriver)
    (filter : Option StatsClearFilter) (block : Block)
    : Option Block := do
  let nwords := (block.dataSize + 8 - 1) / 8
  let data ← countersLatchMetrics cfg driver block.info (List.replicate nwords 0)
  let values ← block.mspecs.mapM fun mspec =>
    countersReadMetric mspec (List.replicate mspec.spec.numElements 0) data
  return { block with
    blk := block.blk.updateMetrics filter fun m n => (values.getD m []).getD n 0 }

structure Update where
  driver : CounterDriver
  filter : Option StatsClearFilter

def run (cfg : List XilVitisNetP4TargetCounterConfig) (updates : List Update) (block : Block)
    : Option Block :=
  match updates with
  | [] => some block
  | u :: updates => do
    let block ← updateMetrics cfg u.driver u.filter block
    run cfg updates block

def nmetrics (type : Snp4InfoCounterType) : Nat :=
  match type with
  | .packetsAndBytes => 2
  | .packets | .bytes | .flag => 1

def initCountersBlockMetric (info : Snp4InfoCounterBlock) (idx : Nat) (units : Option String)
    (addSuffix : Bool)
    : MetricSpec :=
  let name := match units, addSuffix with
    | some units, true => info.name ++ ascii "_" ++ ascii units
    | _, _ => info.name
  { spec :=
      { name
        nelements := info.numCounters.toNat
        type := if info.type = .flag then .flag else .counter
        flags := statsMetricFlagMask .clearOnRead ||| statsMetricFlagMask .array
        initValue := 0 }
    ioOffset := UInt32.ofNat idx * info.numCounters }

-- The metrics of a block are entries of one table, from `base` on
def initCountersBlock (info : Snp4InfoCounterBlock) (base : Nat) (mspecs : List MetricSpec)
    : List MetricSpec :=
  match info.type with
  | .packetsAndBytes =>
    let mspecs := mspecs.set base (initCountersBlockMetric info 0 (some "packets") true)
    mspecs.set (base + 1) (initCountersBlockMetric info 1 (some "bytes") true)
  | .packets => mspecs.set base (initCountersBlockMetric info 0 (some "packets") false)
  | .bytes => mspecs.set base (initCountersBlockMetric info 0 (some "bytes") false)
  | .flag => mspecs.set base (initCountersBlockMetric info 0 none false)

-- The table, and where the metrics of each block start in it
def initCountersBlocks (infos : List Snp4InfoCounterBlock) (base : Nat) (mspecs : List MetricSpec)
    : List MetricSpec × List (Snp4InfoCounterBlock × Nat) :=
  match infos with
  | [] => (mspecs, [])
  | info :: infos =>
    let (mspecs, bases) :=
      initCountersBlocks infos (base + nmetrics info.type) (initCountersBlock info base mspecs)
    (mspecs, (info, base) :: bases)

-- The size of the latch buffer: the product of the two 32-bit numbers is one of 32 bits
def dataSize (info : Snp4InfoCounterBlock) : Nat :=
  sizeofLatchData + (UInt32.ofNat (nmetrics info.type) * info.numCounters).toNat * 8

def statsBlock (domain : StatsDomainSpec) (zone : StatsZoneSpec)
    (labels : StatsMetricSpec → Nat → List StatsLabel) (mspecs : List MetricSpec)
    (at_ : Snp4InfoCounterBlock × Nat)
    : Option Block := do
  let (info, base) := at_
  let metrics := (mspecs.drop base).take (nmetrics info.type)
  let blk ← statsBlockAlloc domain zone
    { name := info.name, metrics := metrics.map MetricSpec.spec } labels
  return { info, mspecs := metrics, dataSize := dataSize info, blk }

-- The blocks of the zone. An array of 0 counters ends the process.
def initCounters (domain : StatsDomainSpec) (labels : StatsMetricSpec → Nat → List StatsLabel)
    (id : Nat) (infos : List Snp4InfoCounterBlock)
    : Option (List Block) :=
  let zone : StatsZoneSpec := { name := ascii ("pipeline" ++ toString id) }
  let total := (infos.map fun info => nmetrics info.type).sum
  let (mspecs, bases) := initCountersBlocks infos 0 (List.replicate total default)
  bases.mapM (statsBlock domain zone labels mspecs)

-- A pipeline that cannot be described ends the process as well
def initPipeline (domain : StatsDomainSpec) (labels : StatsMetricSpec → Nat → List StatsLabel)
    (id : Nat) (cfg : List XilVitisNetP4TargetCounterConfig)
    : Option (List Block) :=
  match snp4InfoGetCounterBlocks cfg with
  | .error _ => none
  | .ok infos => initCounters domain labels id infos

end Counters
