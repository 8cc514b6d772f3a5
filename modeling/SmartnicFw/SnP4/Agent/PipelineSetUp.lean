import SmartnicFw.Snp4.InfoPipeline
import SmartnicFw.SnP4.Agent.CountersLayout

/-!
This module contains how the agent sets up the pipelines of a device (`pipeline.cpp`, `counters.cpp`,
`table-ecc.cpp`), and when it gets through that. Any failure ends the process.
-/

namespace PipelineAgent

open Snp4InfoHw

structure DevicePipelineStats where
  counters : Option (List Counters.Block)
  tableEcc : Option (List StatsBlock)
  deriving DecidableEq, Repr

structure DevicePipeline where
  id : Nat
  info : InfoPipeline
  stats : DevicePipelineStats
  deriving DecidableEq, Repr

-- What the calls answer that are made for a pipeline: whether there is a handle, whether its tables are
-- reset, and whether its two zones get their memory and are taken by Prometheus
structure SetUp where
  snp4Init : Nat → Bool
  snp4ResetAllTables : Nat → Bool
  countersZoneAlloc : Nat → Bool
  tableEccZoneAlloc : Nat → Bool

def zoneSpec (id : Nat) : StatsZoneSpec := { name := Counters.ascii ("pipeline" ++ toString id) }

section Stats

variable (setUp : SetUp) (domain : StatsDomainSpec) (labels : StatsMetricSpec → Nat → List StatsLabel)
  (id : Nat)

-- Without blocks of counters there is no zone
def initCounters (info : InfoPipeline) : Option (Option (List Counters.Block)) :=
  if info.counterBlocks = [] then
    some none
  else do
    let blocks ← Counters.initCounters domain labels id
      (info.counterBlocks.map InfoCounterBlock.toSnp4InfoCounterBlock)
    if setUp.countersZoneAlloc id then
      some (some blocks)
    else
      none

def isTableEccSupported : Snp4InfoTableMode → Bool
  | .bcam => true
  | .stcam _ => true
  | .tcam => true
  | .tinyBcam => true
  | .tinyTcam => true
  -- ECC counters not supported
  | .dcam => false

inductive TableEccCounterId where
  | CORRECTED_SINGLE_BIT_ERRORS
  | DETECTED_DOUBLE_BIT_ERRORS
  deriving DecidableEq, Repr

def tableEccName : TableEccCounterId → String
  | .CORRECTED_SINGLE_BIT_ERRORS => "corrected_single_bit_errors"
  | .DETECTED_DOUBLE_BIT_ERRORS => "detected_double_bit_errors"

def tableEccMode : Snp4InfoTableMode → String
  | .bcam => "BCAM"
  | .stcam _ => "STCAM"
  | .tcam => "TCAM"
  | .dcam => "DCAM"
  | .tinyBcam => "TINY_BCAM"
  | .tinyTcam => "TINY_TCAM"

def initTableEccMetric (cid : TableEccCounterId) : StatsMetricSpec where
  name := Counters.ascii (tableEccName cid)
  nelements := 0
  type := .counter
  flags := statsMetricFlagMask .clearOnRead
  initValue := 0

def tableEccLabels (info : InfoPipeline) (ti : InfoTable) : List StatsLabel :=
  [{ key := Counters.ascii "pipeline", value := Counters.ascii info.name },
    { key := Counters.ascii "mode", value := Counters.ascii (tableEccMode ti.mode) }]

def initTableEccBlock (info : InfoPipeline) (ti : InfoTable) : Option StatsBlock :=
  statsBlockAlloc domain (zoneSpec id)
    { name := Counters.ascii ti.name
      metrics := [initTableEccMetric .CORRECTED_SINGLE_BIT_ERRORS,
        initTableEccMetric .DETECTED_DOUBLE_BIT_ERRORS] }
    fun _ _ => tableEccLabels info ti

def initTableEcc (info : InfoPipeline) : Option (Option (List StatsBlock)) :=
  let tables := info.tables.filter fun ti => isTableEccSupported ti.mode
  if tables = [] then
    some none
  else do
    let blocks ← tables.mapM (initTableEccBlock domain id info)
    if setUp.tableEccZoneAlloc id then
      some (some blocks)
    else
      none

-- The pipeline of one driver
def initDevicePipeline (intf : VitisNetP4DrvIntf) : Option DevicePipeline :=
  if !setUp.snp4Init id then
    none
  else if !setUp.snp4ResetAllTables id then
    none
  else
    match snp4InfoGetPipeline (some intf) with
    | some (.ok info) => do
      let counters ← initCounters setUp domain labels id info
      let tableEcc ← initTableEcc setUp domain id info
      some { id, info, stats := { counters, tableEcc } }
    | _ => none

-- The drivers by their index, of which some are not there
def initPipeline.go (id : Nat) (intfs : List (Option VitisNetP4DrvIntf))
    : Option (List DevicePipeline) :=
  match intfs with
  | [] => some []
  | none :: intfs => go (id + 1) intfs
  | some intf :: intfs => do
    let pipeline ← initDevicePipeline setUp domain labels id intf
    let pipelines ← go (id + 1) intfs
    some (pipeline :: pipelines)

def initPipeline (intfs : List (Option VitisNetP4DrvIntf)) : Option (List DevicePipeline) :=
  initPipeline.go setUp domain labels 0 intfs

end Stats

section Blocks

variable {domain : StatsDomainSpec} {labels : StatsMetricSpec → Nat → List StatsLabel} {id : Nat}

theorem exists_statsMetricAlloc_iff {spec : StatsMetricSpec} {labels : Nat → List StatsLabel}
    : (∃ metric, statsMetricAlloc spec labels = some metric) ↔ spec.numElements ≠ 0 := by
  unfold statsMetricAlloc
  split <;> simp_all

theorem exists_statsBlockAlloc_iff {zone : StatsZoneSpec} {spec : StatsBlockSpec}
    : (∃ blk, statsBlockAlloc domain zone spec labels = some blk) ↔
        ∀ mspec ∈ spec.metrics, mspec.numElements ≠ 0 := by
  have hall : (∃ metrics, spec.metrics.mapM (fun mspec => statsMetricAlloc mspec (labels mspec)) =
      some metrics) ↔ ∀ mspec ∈ spec.metrics, mspec.numElements ≠ 0 := by
    rw [exists_mapM_iff]
    exact forall₂_congr fun mspec _ => exists_statsMetricAlloc_iff
  rw [← hall]
  unfold statsBlockAlloc
  constructor
  . rintro ⟨blk, h⟩
    obtain ⟨metrics, hmetrics, _⟩ := Option.bind_eq_some_iff.mp h
    exact ⟨metrics, hmetrics⟩
  . rintro ⟨metrics, hmetrics⟩
    exact ⟨_, Option.bind_eq_some_iff.mpr ⟨metrics, hmetrics, rfl⟩⟩

theorem exists_statsBlock_iff {zone : StatsZoneSpec} {mspecs : List Counters.MetricSpec}
    {at_ : Snp4InfoCounterBlock × Nat}
    (hslice : (mspecs.drop at_.2).take (Counters.nmetrics at_.1.type) = Counters.metrics at_.1)
    : (∃ block, Counters.statsBlock domain zone labels mspecs at_ = some block) ↔
        at_.1.numCounters ≠ 0 := by
  have halloc : (∃ block, Counters.statsBlock domain zone labels mspecs at_ = some block) ↔
      ∃ blk, statsBlockAlloc domain zone
        { name := at_.1.name, metrics := (Counters.metrics at_.1).map Counters.MetricSpec.spec }
        labels = some blk := by
    unfold Counters.statsBlock
    dsimp only
    rw [hslice]
    constructor
    . rintro ⟨block, h⟩
      obtain ⟨blk, hblk, _⟩ := Option.bind_eq_some_iff.mp h
      exact ⟨blk, hblk⟩
    . rintro ⟨blk, hblk⟩
      exact ⟨_, Option.bind_eq_some_iff.mpr ⟨blk, hblk, rfl⟩⟩
  have hzero : ∀ (m : Nat) (mspec : Counters.MetricSpec), (Counters.metrics at_.1)[m]? = some mspec →
      (mspec.spec.numElements ≠ 0 ↔ at_.1.numCounters ≠ 0) := by
    intro m mspec hmspec
    rw [(Counters.metrics_of hmspec).numElements, ne_eq, ne_eq, ← UInt32.toNat_inj]
    rfl
  rw [halloc, exists_statsBlockAlloc_iff, List.forall_mem_map]
  constructor
  . intro h
    have hlen := Counters.length_metrics at_.1
    have hpos : 0 < (Counters.metrics at_.1).length := by
      rw [hlen]
      cases at_.1.type <;> decide
    exact (hzero 0 _ (List.getElem?_eq_getElem hpos)).mp (h _ (List.getElem_mem hpos))
  . intro h mspec hmem
    obtain ⟨m, hm⟩ := List.mem_iff_getElem?.mp hmem
    exact (hzero m mspec hm).mpr h

theorem exists_countersInitCounters_iff {infos : List Snp4InfoCounterBlock}
    : (∃ blocks, Counters.initCounters domain labels id infos = some blocks) ↔
        ∀ info ∈ infos, info.numCounters ≠ 0 := by
  unfold Counters.initCounters
  dsimp only
  have hfst := Counters.map_fst_initCountersBlocks infos 0
    (List.replicate (infos.map fun info => Counters.nmetrics info.type).sum default)
  have hblocks : (∀ info ∈ infos, info.numCounters ≠ 0) ↔
      ∀ at_ ∈ (Counters.initCountersBlocks infos 0
        (List.replicate (infos.map fun info => Counters.nmetrics info.type).sum default)).2,
          at_.1.numCounters ≠ 0 := by
    conv_lhs => rw [← hfst]
    rw [List.forall_mem_map]
  rw [exists_mapM_iff, hblocks]
  apply forall₂_congr
  intro at_ hmem
  exact exists_statsBlock_iff (Counters.slice_initCounters hmem)

end Blocks

section Pipelines

variable {setUp : SetUp} {domain : StatsDomainSpec}
  {labels : StatsMetricSpec → Nat → List StatsLabel} {id : Nat} {info : InfoPipeline}

-- When the agent gets through the set-up of a pipeline that it has a description of
structure SetUp.Succeeds (setUp : SetUp) (id : Nat) (info : InfoPipeline) : Prop where
  snp4Init : setUp.snp4Init id = true
  snp4ResetAllTables : setUp.snp4ResetAllTables id = true
  numCounters : ∀ block ∈ info.counterBlocks, block.numCounters ≠ 0
  countersZone : info.counterBlocks ≠ [] → setUp.countersZoneAlloc id = true
  tableEccZone : (∃ ti ∈ info.tables, isTableEccSupported ti.mode = true) →
    setUp.tableEccZoneAlloc id = true

theorem exists_initCounters_iff
    : (∃ counters, initCounters setUp domain labels id info = some counters) ↔
        (∀ block ∈ info.counterBlocks, block.numCounters ≠ 0) ∧
          (info.counterBlocks ≠ [] → setUp.countersZoneAlloc id = true) := by
  unfold initCounters
  by_cases hnil : info.counterBlocks = []
  . simp [hnil]
  . have hblocks : (∃ blocks, Counters.initCounters domain labels id
        (info.counterBlocks.map InfoCounterBlock.toSnp4InfoCounterBlock) = some blocks) ↔
          ∀ block ∈ info.counterBlocks, block.numCounters ≠ 0 := by
      rw [exists_countersInitCounters_iff, List.forall_mem_map]
    rw [if_neg hnil, ← hblocks]
    cases setUp.countersZoneAlloc id <;> simp [hnil, Option.bind_eq_some_iff]

-- A metric that is no array has one element
theorem exists_initTableEccBlock (ti : InfoTable)
    : ∃ blk, initTableEccBlock domain id info ti = some blk := by
  apply exists_statsBlockAlloc_iff.mpr
  intro mspec hmem
  simp only [List.mem_cons, List.not_mem_nil, or_false] at hmem
  rcases hmem with rfl | rfl <;> decide

theorem exists_initTableEcc_iff
    : (∃ tableEcc, initTableEcc setUp domain id info = some tableEcc) ↔
        ((∃ ti ∈ info.tables, isTableEccSupported ti.mode = true) →
          setUp.tableEccZoneAlloc id = true) := by
  unfold initTableEcc
  dsimp only
  have hnil : (info.tables.filter fun ti => isTableEccSupported ti.mode) = [] ↔
      ¬ ∃ ti ∈ info.tables, isTableEccSupported ti.mode = true := by
    simp [List.filter_eq_nil_iff]
  by_cases hany : ∃ ti ∈ info.tables, isTableEccSupported ti.mode = true
  . have hblock : ∀ ti ∈ info.tables.filter fun ti => isTableEccSupported ti.mode,
        ∃ blk, initTableEccBlock domain id info ti = some blk :=
      fun ti _ => exists_initTableEccBlock ti
    obtain ⟨blocks, hblocks⟩ := exists_mapM hblock
    rw [if_neg (by rw [hnil]; exact not_not.mpr hany), hblocks]
    cases setUp.tableEccZoneAlloc id <;> simp [hany]
  . rw [if_pos (hnil.mpr hany)]
    simp [hany]

theorem exists_initDevicePipeline_iff {intf : VitisNetP4DrvIntf}
    (hinfo : snp4InfoGetPipeline (some intf) = some (.ok info))
    : (∃ pipeline, initDevicePipeline setUp domain labels id intf = some pipeline) ↔
        setUp.Succeeds id info := by
  have hsucceeds : setUp.Succeeds id info ↔ setUp.snp4Init id = true ∧
      setUp.snp4ResetAllTables id = true ∧
      (∃ counters, initCounters setUp domain labels id info = some counters) ∧
      ∃ tableEcc, initTableEcc setUp domain id info = some tableEcc := by
    rw [exists_initCounters_iff, exists_initTableEcc_iff]
    exact ⟨fun ⟨h₁, h₂, h₃, h₄, h₅⟩ => ⟨h₁, h₂, ⟨h₃, h₄⟩, h₅⟩,
      fun ⟨h₁, h₂, ⟨h₃, h₄⟩, h₅⟩ => ⟨h₁, h₂, h₃, h₄, h₅⟩⟩
  rw [hsucceeds]
  unfold initDevicePipeline
  rw [hinfo]
  cases setUp.snp4Init id <;> cases setUp.snp4ResetAllTables id <;>
    simp [Option.bind_eq_some_iff]

theorem info_initDevicePipeline {intf : VitisNetP4DrvIntf}
    (hinfo : snp4InfoGetPipeline (some intf) = some (.ok info)) {pipeline : DevicePipeline}
    (h : initDevicePipeline setUp domain labels id intf = some pipeline)
    : pipeline.info = info := by
  unfold initDevicePipeline at h
  rw [hinfo] at h
  split at h
  . cases h
  . split at h
    . cases h
    . obtain ⟨counters, _, h⟩ := Option.bind_eq_some_iff.mp h
      obtain ⟨tableEcc, _, h⟩ := Option.bind_eq_some_iff.mp h
      cases h
      rfl

theorem forall_succeeds_cons {pipeline : Option InfoPipeline} {pipelines : List (Option InfoPipeline)}
    : (∀ (i : Nat) p, (pipeline :: pipelines)[i]? = some (some p) → setUp.Succeeds (id + i) p) ↔
        (∀ p, pipeline = some p → setUp.Succeeds id p) ∧
          ∀ (i : Nat) p, pipelines[i]? = some (some p) → setUp.Succeeds (id + 1 + i) p := by
  have hshift (i : Nat) : id + 1 + i = id + (i + 1) := by omega
  simp only [hshift]
  constructor
  . intro hall
    exact ⟨fun p hp => hall 0 p (by rw [hp]; rfl), fun i p hget => hall (i + 1) p hget⟩
  . rintro ⟨hfirst, hrest⟩ i p hget
    cases i with
    | zero => exact hfirst p (Option.some.inj hget)
    | succ i => exact hrest i p hget

-- By induction on the drivers, whose pipelines are numbered from `id` on
theorem initPipeline_go_render {pipelines : List (Option InfoPipeline)}
    (h : ∀ pipeline, some pipeline ∈ pipelines → pipeline.Described) (id : Nat)
    : ((∃ devPipelines, initPipeline.go setUp domain labels id
          (pipelines.map (Option.map renderPipeline)) = some devPipelines) ↔
        ∀ (i : Nat) pipeline, pipelines[i]? = some (some pipeline) →
          setUp.Succeeds (id + i) pipeline) ∧
      ∀ devPipelines, initPipeline.go setUp domain labels id
          (pipelines.map (Option.map renderPipeline)) = some devPipelines →
        devPipelines.map DevicePipeline.info = pipelines.reduceOption := by
  induction pipelines generalizing id with
  | nil =>
    refine ⟨⟨fun _ => by simp, fun _ => ⟨[], rfl⟩⟩, ?_⟩
    intro devPipelines hgo
    cases hgo
    rfl
  | cons pipeline pipelines ih =>
    obtain ⟨hexists, hinfos⟩ := ih (fun p hmem => h p (List.mem_cons_of_mem _ hmem)) (id + 1)
    rw [forall_succeeds_cons, ← hexists]
    cases pipeline with
    | none =>
      refine ⟨?_, hinfos⟩
      simp only [reduceCtorEq, false_implies, implies_true, true_and]
      rfl
    | some pipeline =>
      have hinfo := snp4InfoGetPipeline_render (h pipeline List.mem_cons_self)
      have hfirst := @exists_initDevicePipeline_iff setUp domain labels id _ _ hinfo
      rw [List.map_cons, Option.map_some, initPipeline.go.eq_def]
      dsimp only
      constructor
      . simp only [Option.some.injEq, forall_eq', ← hfirst]
        simp [Option.bind_eq_some_iff]
      . intro devPipelines hgo
        obtain ⟨devPipeline, hdev, hgo⟩ := Option.bind_eq_some_iff.mp hgo
        obtain ⟨rest, hrest, hgo⟩ := Option.bind_eq_some_iff.mp hgo
        cases hgo
        rw [List.map_cons, hinfos rest hrest, info_initDevicePipeline hinfo hdev,
          List.reduceOption_cons_of_some]

end Pipelines

end PipelineAgent
