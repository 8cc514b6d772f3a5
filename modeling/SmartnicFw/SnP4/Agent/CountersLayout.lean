import SmartnicFw.Lib.Except
import SmartnicFw.SnP4.Agent.CountersLatch

/-!
This module contains where the counts of a pipeline's counter blocks end up: which of the driver's
counters an update adds to an element.
-/

namespace Counters

variable {cfg : List XilVitisNetP4TargetCounterConfig} {infos : List Snp4InfoCounterBlock}
  {info : Snp4InfoCounterBlock}

-- The value of an element after a count has been read for it
def counted (type : Snp4InfoCounterType) (e : StatsMetricElement) (count : UInt64) : UInt64 :=
  match type with
  | .flag => if count ≠ 0 then 1 else 0
  | .packets | .bytes | .packetsAndBytes => e.value.u64 + count

-- An update counts the counters of block `b` into the elements of a block that it does not clear,
-- and leaves the buffer of the block nowhere
structure Block.Counts (cfg : List XilVitisNetP4TargetCounterConfig) (b : Nat) (block : Block)
    : Prop where
  config : ∃ c, cfg[b]? = some c ∧ snp4InfoGetCounterBlock c = .ok block.info
  names : block.blk.metrics.map (fun metric => metric.spec.name) =
    (metrics block.info).map fun mspec => mspec.spec.name
  element : ∀ m n, (block.blk.element m n).isSome ↔
    m < nmetrics block.info.type ∧ n < block.info.numCounters.toNat
  update : ∀ driver filter, ∃ block', updateMetrics cfg driver filter block = some block' ∧
    ∀ m n e, block.blk.element m n = some e → block.blk.clears filter m n = false →
      ∃ e', block'.blk.element m n = some e' ∧
        (succeeds driver block.info b = true →
          e'.value.u64 = counted block.info.type e (count driver block.info.type b m n)) ∧
        (succeeds driver block.info b = false → block.info.type ≠ .flag → e' = e)

section Run

variable {b : Nat} {c : XilVitisNetP4TargetCounterConfig} {block : Block}

structure Block.Shaped (info : Snp4InfoCounterBlock) (block : Block) : Prop where
  info_eq : block.info = info
  mspecs_eq : block.mspecs = metrics info
  dataSize_eq : block.dataSize = Counters.dataSize info
  specs : block.blk.metrics.map StatsMetric.spec = (metrics info).map MetricSpec.spec
  elements : ∀ metric ∈ block.blk.metrics, metric.elements.length = info.numCounters.toNat

-- The description, the name and the size with which an update finds the counters of a block
structure Found (cfg : List XilVitisNetP4TargetCounterConfig) (info : Snp4InfoCounterBlock) (b : Nat)
    (c : XilVitisNetP4TargetCounterConfig)
    : Prop where
  config : snp4InfoGetCounterBlock c = .ok info
  name : snp4CounterBlockByName cfg info.name = some (b, c)
  numCounters : c.numCounters = info.numCounters
  fits : info.type = .packetsAndBytes → info.numCounters.toNat < 2 ^ 31

def readings (driver : CounterDriver) (info : Snp4InfoCounterBlock) (b m n : Nat) : UInt64 :=
  (((List.range (nmetrics info.type)).map (reading driver info b)).getD m []).getD n 0

theorem updateMetrics_eq (hs : block.Shaped info) (hf : Found cfg info b c) (driver : CounterDriver)
    (filter : Option StatsClearFilter)
    : updateMetrics cfg driver filter block =
        some { block with
          blk := block.blk.update { filter, readings := readings driver info b } } := by
  obtain ⟨data, hlatch, hvalid, hdata⟩ := countersLatchMetrics_eq driver hf.name hf.numCounters
  unfold updateMetrics
  rw [hs.info_eq, hs.mspecs_eq, hs.dataSize_eq, nwords_eq hf.fits]
  simp only [hlatch, Option.bind_eq_bind, Option.bind_some]
  rw [readMetrics_eq hvalid hdata]
  rfl

theorem shaped_update (hs : block.Shaped info) (u : StatsBlockUpdate)
    : Block.Shaped info { block with blk := block.blk.update u } := by
  constructor
  . exact hs.info_eq
  . exact hs.mspecs_eq
  . exact hs.dataSize_eq
  . rw [← hs.specs]
    apply List.ext_getElem?
    intro m
    simp only [List.getElem?_map]
    exact StatsBlock.metrics_update_spec block.blk u m
  . intro metric hmem
    simp only [StatsBlock.update, StatsBlock.updateMetrics, List.mem_mapIdx] at hmem
    obtain ⟨m, hm, rfl⟩ := hmem
    simp only [statsBlockUpdateMetrics.updateMetric, List.length_mapIdx]
    exact hs.elements _ (List.getElem_mem hm)

theorem shaped_run (hs : block.Shaped info) (hf : Found cfg info b c) (updates : List Update)
    : ∃ block', run cfg updates block = some block' ∧ block'.Shaped info := by
  induction updates generalizing block with
  | nil => exact ⟨block, rfl, hs⟩
  | cons u updates ih =>
    obtain ⟨block', hrun, hs'⟩ := ih (shaped_update hs
      { filter := u.filter, readings := readings u.driver info b })
    refine ⟨block', ?_, hs'⟩
    rw [run, updateMetrics_eq hs hf]
    exact hrun

theorem metric_of_shaped (hs : block.Shaped info) {m : Nat} {metric : StatsMetric}
    (hm : block.blk.metrics[m]? = some metric)
    : ∃ mspec : MetricSpec, mspec.Of info m ∧ metric.spec = mspec.spec := by
  have hspec : (block.blk.metrics.map StatsMetric.spec)[m]? = some metric.spec := by
    rw [List.getElem?_map, hm]
    rfl
  rw [hs.specs, List.getElem?_map] at hspec
  obtain ⟨mspec, hmspec, heq⟩ := Option.map_eq_some_iff.mp hspec
  exact ⟨mspec, metrics_of hmspec, heq.symm⟩

theorem length_metrics_of_shaped (hs : block.Shaped info)
    : block.blk.metrics.length = nmetrics info.type := by
  have hlen := congrArg List.length hs.specs
  rw [List.length_map, List.length_map, length_metrics] at hlen
  exact hlen

theorem element_of_shaped (hs : block.Shaped info) (m n : Nat)
    : (block.blk.element m n).isSome ↔ m < nmetrics info.type ∧ n < info.numCounters.toNat := by
  rw [← length_metrics_of_shaped hs]
  unfold StatsBlock.element
  cases hm : block.blk.metrics[m]? with
  | none =>
    rw [List.getElem?_eq_none_iff] at hm
    simp
    omega
  | some metric =>
    have hlt := (List.getElem?_eq_some_iff.mp hm).1
    simp [hlt, hs.elements metric (List.mem_of_getElem? hm)]

theorem readings_eq (driver : CounterDriver) {m n : Nat} (hm : m < nmetrics info.type)
    (hn : n < info.numCounters.toNat)
    : readings driver info b m n =
        if succeeds driver info b then count driver info.type b m n else 0 := by
  unfold readings reading
  split <;> simp [List.getD_eq_getElem?_getD, hm, hn]

theorem updateElement_eq {mspec : MetricSpec} {m : Nat} (h : mspec.Of info m)
    (e : StatsMetricElement) (value : UInt64)
    : (statsBlockUpdateMetrics.updateElement mspec.spec e value false).value.u64 =
          counted info.type e value ∧
        (info.type ≠ .flag → statsBlockUpdateMetrics.updateElement mspec.spec e 0 false = e) := by
  unfold statsBlockUpdateMetrics.updateElement counted
  rw [h.type, h.clearOnRead]
  cases info.type <;> simp

theorem counts_of_shaped (hs : block.Shaped info) (hf : Found cfg info b c) (hc : cfg[b]? = some c)
    : block.Counts cfg b := by
  constructor
  . exact ⟨c, hc, hs.info_eq ▸ hf.config⟩
  . have hnames := congrArg (List.map StatsMetricSpec.name) hs.specs
    rw [List.map_map, List.map_map] at hnames
    rw [hs.info_eq]
    exact hnames
  . rw [hs.info_eq]
    exact element_of_shaped hs
  . intro driver filter
    refine ⟨_, updateMetrics_eq hs hf driver filter, ?_⟩
    intro m n e he hclear
    obtain ⟨metric, hm, hn⟩ := StatsBlock.element_eq_some_iff.mp he
    obtain ⟨mspec, hof, hspec⟩ := metric_of_shaped hs hm
    have hsome := (element_of_shaped hs m n).mp (by rw [he]; rfl)
    have helem := StatsBlock.element_update hm hn
      { filter, readings := readings driver info b }
    simp only [hclear, hspec, readings_eq driver hsome.1 hsome.2] at helem
    refine ⟨_, helem, ?_⟩
    rw [hs.info_eq]
    constructor
    . intro hok
      rw [if_pos hok]
      exact (updateElement_eq hof e _).1
    . intro hfail
      rw [if_neg (by simp [hfail])]
      exact (updateElement_eq hof e 0).2

end Run

section Init

variable {domain : StatsDomainSpec} {labels : StatsMetricSpec → Nat → List StatsLabel} {id b : Nat}
  {zone : List Block} {block : Block} {c : XilVitisNetP4TargetCounterConfig}

theorem statsMetricAlloc_some {spec : StatsMetricSpec} {labels : Nat → List StatsLabel}
    {metric : StatsMetric} (h : statsMetricAlloc spec labels = some metric)
    : metric.spec = spec ∧ metric.elements.length = spec.numElements := by
  unfold statsMetricAlloc at h
  split at h
  . contradiction
  . cases h
    simp

theorem shaped_statsBlock {zoneSpec : StatsZoneSpec} {mspecs : List MetricSpec} {base : Nat}
    (hslice : (mspecs.drop base).take (nmetrics info.type) = metrics info)
    (h : statsBlock domain zoneSpec labels mspecs (info, base) = some block)
    : block.Shaped info := by
  obtain ⟨blk, halloc, heq⟩ := Option.bind_eq_some_iff.mp h
  cases heq
  obtain ⟨ms, hmap, heq⟩ := Option.bind_eq_some_iff.mp halloc
  cases heq
  rw [hslice] at hmap
  constructor
  . rfl
  . exact hslice
  . rfl
  . apply map_of_mapM _ hmap
    intro spec metric hnew
    exact (statsMetricAlloc_some hnew).1
  . intro metric hmem
    obtain ⟨spec, hspec, hnew⟩ := exists_of_mem_mapM hmap hmem
    obtain ⟨mspec, hmspec, rfl⟩ := List.mem_map.mp hspec
    obtain ⟨m, hm⟩ := List.mem_iff_getElem?.mp hmspec
    rw [(statsMetricAlloc_some hnew).2]
    exact (metrics_of hm).numElements

-- The table has for each block the metrics that the block is to have
theorem slice_initCounters {p : Snp4InfoCounterBlock × Nat}
    (hp : p ∈ (initCountersBlocks infos 0
      (List.replicate (infos.map fun info => nmetrics info.type).sum default)).2)
    : (((initCountersBlocks infos 0
        (List.replicate (infos.map fun info => nmetrics info.type).sum default)).1.drop p.2).take
          (nmetrics p.1.type)) = metrics p.1 := by
  have hslice := slice_initCountersBlocks [] _ _ hp
  rw [initCountersBlocks_eq (by simp)]
  unfold Buffer.overwrite
  have hlen : (List.replicate (infos.map fun info => nmetrics info.type).sum
      (default : MetricSpec)).drop (0 + (infos.flatMap metrics).length) = [] := by
    apply List.drop_eq_nil_of_le
    simp [List.length_flatMap, length_metrics]
  rw [hlen, List.append_nil]
  exact hslice

theorem shaped_initCounters (h : initCounters domain labels id infos = some zone)
    (hb : zone[b]? = some block)
    : ∃ info, infos[b]? = some info ∧ block.Shaped info := by
  obtain ⟨p, hp, hblock⟩ := getElem?_of_forall₂ (forall₂_of_mapM h) hb
  obtain ⟨info, base⟩ := p
  refine ⟨info, ?_, ?_⟩
  . rw [← map_fst_initCountersBlocks infos 0, List.getElem?_map, hp]
    rfl
  . exact shaped_statsBlock (slice_initCounters (List.mem_of_getElem? hp)) hblock

theorem snp4InfoGetCounterBlock_ok (h : snp4InfoGetCounterBlock c = .ok info)
    : info.name = c.nameString ∧ info.numCounters = c.numCounters ∧
        (info.type = .packetsAndBytes ↔ c.counterType = .packetsAndBytes) := by
  unfold snp4InfoGetCounterBlock at h
  cases htype : c.counterType <;> rw [htype] at h <;> cases h <;> simp

theorem infos_of_ok (h : snp4InfoGetCounterBlocks cfg = .ok infos)
    : List.Forall₂ (fun c info => snp4InfoGetCounterBlock c = .ok info) cfg infos := by
  unfold snp4InfoGetCounterBlocks at h
  split at h
  . contradiction
  . exact Except.forall₂_of_mapM_eq_ok h

-- The blocks of the zone are those of the configuration, in its order
theorem shaped_initPipeline (h : initPipeline domain labels id cfg = some zone)
    (hb : zone[b]? = some block)
    : ∃ c info, cfg[b]? = some c ∧ snp4InfoGetCounterBlock c = .ok info ∧ block.Shaped info := by
  unfold initPipeline at h
  split at h
  . contradiction
  . next infos hinfos =>
    obtain ⟨info, hinfo, hs⟩ := shaped_initCounters h hb
    obtain ⟨c, hc, hget⟩ := getElem?_of_forall₂ (infos_of_ok hinfos) hinfo
    exact ⟨c, info, hc, hget, hs⟩

theorem length_initPipeline (h : initPipeline domain labels id cfg = some zone)
    : zone.length = cfg.length := by
  unfold initPipeline at h
  split at h
  . contradiction
  . next infos hinfos =>
    rw [(infos_of_ok hinfos).length_eq, ← (forall₂_of_mapM h).length_eq,
      ← List.length_map Prod.fst, map_fst_initCountersBlocks]

theorem snp4CounterBlockByName_eq (hnodup : (cfg.map fun c => c.nameString).Nodup)
    (hc : cfg[b]? = some c)
    : snp4CounterBlockByName cfg c.nameString = some (b, c) := by
  obtain ⟨hb, rfl⟩ := List.getElem?_eq_some_iff.mp hc
  have hfind : cfg.findIdx? (fun c' => decide (cfg[b].nameString = c'.nameString)) = some b := by
    rw [List.findIdx?_eq_some_iff_getElem]
    refine ⟨hb, by simp, ?_⟩
    intro j hj
    simp only [decide_eq_true_eq]
    intro heq
    have hj' : j < (cfg.map fun c => c.nameString).length := by
      rw [List.length_map]
      omega
    have hb' : b < (cfg.map fun c => c.nameString).length := by
      rw [List.length_map]
      exact hb
    have hsame : (cfg.map fun c => c.nameString)[b] = (cfg.map fun c => c.nameString)[j] := by
      simpa using heq
    have hidx := (List.Nodup.getElem_inj_iff hnodup).mp hsame
    omega
  unfold snp4CounterBlockByName
  rw [hfind]
  simp only [Option.bind_eq_bind, Option.bind_some, hc]
  rfl

end Init

-- Where a count is that of another block, or the buffer is too small
section Fails

variable {b : Nat} {block : Block}

-- A driver whose reads succeed, and to which all counters of a block stand at the same number
def steady (counts : Nat → UInt64) : CounterDriver :=
  { counts := fun b _ => counts b
    packets := fun b _ => counts b
    bytes := fun b _ => counts b
    collectSimpleRead := fun b n => (true, (List.range n).map fun _ => counts b)
    collectComboRead := fun b n =>
      (true, (List.range n).map fun _ => counts b, (List.range n).map fun _ => counts b)
    simple_counts := by
      intro b n _
      rfl
    simple_length := by
      intro b n
      simp
    combo_counts := by
      intro b n _
      rfl
    combo_length := by
      intro b n
      simp }

theorem succeeds_steady (counts : Nat → UInt64) : succeeds (steady counts) info b = true := by
  unfold succeeds
  cases info.type <;> rfl

theorem count_steady (counts : Nat → UInt64) (type : Snp4InfoCounterType) (m n : Nat)
    : count (steady counts) type b m n = counts b := by
  cases type <;> simp [count, steady]

-- An update looks at no other block than the first one of the name
theorem updateMetrics_congr {b₀ : Nat} {c : XilVitisNetP4TargetCounterConfig}
    {driver driver' : CounterDriver}
    (hname : snp4CounterBlockByName cfg block.info.name = some (b₀, c))
    (hsimple : driver.collectSimpleRead b₀ = driver'.collectSimpleRead b₀)
    (hcombo : driver.collectComboRead b₀ = driver'.collectComboRead b₀)
    (filter : Option StatsClearFilter)
    : updateMetrics cfg driver filter block = updateMetrics cfg driver' filter block := by
  unfold updateMetrics countersLatchMetrics snp4CounterBlockSimpleRead snp4CounterBlockComboRead
  simp only [hname, hsimple, hcombo]

theorem byName_of_counts (hc : block.Counts cfg b) (hpos : 0 < block.info.numCounters.toNat)
    : ∃ c, snp4CounterBlockByName cfg block.info.name = some (b, c) := by
  obtain ⟨c, hcfg, hget⟩ := hc.config
  have hmem := List.mem_of_getElem? hcfg
  cases hfind : cfg.findIdx? fun c => decide (block.info.name = c.nameString) with
  | none =>
    rw [List.findIdx?_eq_none_iff] at hfind
    have := hfind c hmem
    simp [(snp4InfoGetCounterBlock_ok hget).1] at this
  | some b₀ =>
    have hlt : b₀ < cfg.length := (List.findIdx?_eq_some_iff_getElem.mp hfind).1
    have hname : snp4CounterBlockByName cfg block.info.name = some (b₀, cfg[b₀]) := by
      unfold snp4CounterBlockByName
      rw [hfind]
      simp [hlt]
    by_cases heq : b₀ = b
    . rw [← heq]
      exact ⟨_, hname⟩
    . exfalso
      -- The counts of the block itself make no difference to an update
      have hother : (steady fun k => if k = b then 1 else 0).collectSimpleRead b₀ =
          (steady fun _ => 0).collectSimpleRead b₀ := by
        funext n
        simp [steady, heq]
      have hother' : (steady fun k => if k = b then 1 else 0).collectComboRead b₀ =
          (steady fun _ => 0).collectComboRead b₀ := by
        funext n
        simp [steady, heq]
      have hsame := updateMetrics_congr hname hother hother' none
      have hzero : 0 < nmetrics block.info.type := by cases block.info.type <;> decide
      obtain ⟨e, he⟩ := Option.isSome_iff_exists.mp ((hc.element 0 0).mpr ⟨hzero, hpos⟩)
      have hclear := block.blk.clears_none 0 0
      obtain ⟨block₁, hupdate₁, hcount₁⟩ := hc.update (steady fun k => if k = b then 1 else 0) none
      obtain ⟨block₂, hupdate₂, hcount₂⟩ := hc.update (steady fun _ => 0) none
      rw [hupdate₁, hupdate₂] at hsame
      cases hsame
      obtain ⟨e₁, he₁, hvalue₁, -⟩ := hcount₁ 0 0 e he hclear
      obtain ⟨e₂, he₂, hvalue₂, -⟩ := hcount₂ 0 0 e he hclear
      rw [he₁] at he₂
      cases he₂
      have hvalues := (hvalue₁ (succeeds_steady _)).symm.trans (hvalue₂ (succeeds_steady _))
      rw [count_steady, count_steady] at hvalues
      unfold counted at hvalues
      cases htype : block.info.type <;> simp [htype] at hvalues

theorem updateMetrics_eq_none {c : XilVitisNetP4TargetCounterConfig} (hs : block.Shaped info)
    (hname : snp4CounterBlockByName cfg info.name = some (b, c))
    (hnum : c.numCounters = info.numCounters) (htype : info.type = .packetsAndBytes)
    (hlarge : 2 ^ 31 ≤ info.numCounters.toNat) (filter : Option StatsClearFilter)
    : updateMetrics cfg (steady fun _ => 0) filter block = none := by
  have hlt := info.numCounters.toNat_lt
  have hwords : (dataSize info + 8 - 1) / 8 < 1 + info.numCounters.toNat := by
    unfold dataSize sizeofLatchData
    rw [UInt32.toNat_mul, htype]
    simp only [nmetrics, UInt32.reduceOfNat, UInt32.reduceToNat]
    omega
  have hwrite : Buffer.write (List.replicate ((dataSize info + 8 - 1) / 8) 0) 1
      ((List.range info.numCounters.toNat).map fun _ => (0 : UInt64)) = none := by
    unfold Buffer.write
    rw [if_neg]
    rw [List.length_map, List.length_range, List.length_replicate]
    omega
  unfold updateMetrics
  rw [hs.info_eq, hs.dataSize_eq]
  simp only [countersLatchMetrics, htype, snp4CounterBlockComboRead, hname, hnum, clearCounts_self,
    valuesWord, sizeofLatchData, Nat.reduceDiv, Nat.add_zero, Option.bind_eq_bind,
    Option.bind_some, steady]
  rw [if_neg (by omega), hwrite]
  rfl

end Fails

-- The counts end up where they belong in all states that updates can lead to
def Laid (cfg : List XilVitisNetP4TargetCounterConfig) (zone : List Block) : Prop :=
  ∀ b block, zone[b]? = some block → ∀ updates,
    ∃ block', run cfg updates block = some block' ∧ block'.Counts cfg b

section Main

variable {domain : StatsDomainSpec} {labels : StatsMetricSpec → Nat → List StatsLabel} {id : Nat}
  {zone : List Block}

theorem counts_of_laid (h : initPipeline domain labels id cfg = some zone) (hl : Laid cfg zone)
    {b : Nat} {c : XilVitisNetP4TargetCounterConfig} (hc : cfg[b]? = some c)
    : ∃ (block : Block) (info : Snp4InfoCounterBlock), snp4InfoGetCounterBlock c = .ok info ∧
        block.Shaped info ∧
        block.Counts cfg b ∧ ∃ c', snp4CounterBlockByName cfg c.nameString = some (b, c') := by
  have hlt : b < zone.length := by
    rw [length_initPipeline h]
    exact (List.getElem?_eq_some_iff.mp hc).1
  have hb := List.getElem?_eq_getElem hlt
  obtain ⟨c₀, info, hc₀, hget, hs⟩ := shaped_initPipeline h hb
  cases hc₀.symm.trans hc
  obtain ⟨block', hrun, hcounts⟩ := hl b zone[b] hb []
  cases hrun
  have hpos : 0 < zone[b].info.numCounters.toNat := by
    have hmetrics := length_metrics_of_shaped hs
    cases hms : zone[b].blk.metrics with
    | nil =>
      rw [hms] at hmetrics
      cases htype : info.type <;> simp [htype, nmetrics] at hmetrics
    | cons metric ms =>
      rw [hs.info_eq, ← hs.elements metric (by simp [hms])]
      exact List.length_pos_of_ne_nil metric.elements_ne
  obtain ⟨c', hname⟩ := byName_of_counts hcounts hpos
  rw [hs.info_eq, (snp4InfoGetCounterBlock_ok hget).1] at hname
  exact ⟨zone[b], info, hget, hs, hcounts, c', hname⟩

theorem nodup_of_laid (h : initPipeline domain labels id cfg = some zone) (hl : Laid cfg zone)
    : (cfg.map fun c => c.nameString).Nodup := by
  rw [List.nodup_iff_getElem?_ne_getElem?]
  intro i j hij hj hsame
  rw [List.length_map] at hj
  have hi : i < cfg.length := by omega
  obtain ⟨-, -, -, -, -, _, hname⟩ := counts_of_laid h hl (List.getElem?_eq_getElem hi)
  obtain ⟨-, -, -, -, -, _, hname'⟩ := counts_of_laid h hl (List.getElem?_eq_getElem hj)
  have heq : cfg[i].nameString = cfg[j].nameString := by simpa [hi, hj] using hsame
  rw [heq, hname'] at hname
  cases hname
  omega

-- The numbers of counters for which the counts end up where they belong
theorem initPipeline_laid (h : initPipeline domain labels id cfg = some zone)
    : Laid cfg zone ↔
        (∀ c ∈ cfg, c.counterType = .packetsAndBytes → c.numCounters.toNat < 2 ^ 31) ∧
          (cfg.map fun c => c.nameString).Nodup := by
  constructor
  . intro hl
    have hnodup := nodup_of_laid h hl
    refine ⟨?_, hnodup⟩
    intro c hmem htype
    obtain ⟨b, hb⟩ := List.mem_iff_getElem?.mp hmem
    obtain ⟨block, info, hget, hs, hcounts, -⟩ := counts_of_laid h hl hb
    obtain ⟨hname, hnum, hiff⟩ := snp4InfoGetCounterBlock_ok hget
    apply Nat.lt_of_not_le
    intro hlarge
    have hfound := snp4CounterBlockByName_eq hnodup hb
    rw [← hname] at hfound
    obtain ⟨block', hupdate, -⟩ := hcounts.update (steady fun _ => 0) none
    rw [updateMetrics_eq_none hs hfound hnum.symm (hiff.mpr htype) (hnum ▸ hlarge)] at hupdate
    contradiction
  . rintro ⟨hfits, hnodup⟩ b block hb updates
    obtain ⟨c, info, hc, hget, hs⟩ := shaped_initPipeline h hb
    obtain ⟨hname, hnum, hiff⟩ := snp4InfoGetCounterBlock_ok hget
    have hf : Found cfg info b c := by
      constructor
      . exact hget
      . rw [hname]
        exact snp4CounterBlockByName_eq hnodup hc
      . exact hnum.symm
      . intro htype
        rw [hnum]
        exact hfits c (List.mem_of_getElem? hc) (hiff.mp htype)
    obtain ⟨block', hrun, hs'⟩ := shaped_run hs hf updates
    exact ⟨block', hrun, counts_of_shaped hs' hf hc⟩

end Main

-- One block of 2 ^ 31 counters of packets and bytes
def wideConfig : List XilVitisNetP4TargetCounterConfig :=
  [{ nameString := ascii "flows", counterType := .packetsAndBytes, numCounters := 2147483648 }]

theorem not_laid_wide
    : ¬ ∀ zone, initPipeline { name := [] } (fun _ _ => []) 0 wideConfig = some zone →
        Laid wideConfig zone := by
  intro hall
  have hsome : ∃ zone, initPipeline { name := [] } (fun _ _ => []) 0 wideConfig = some zone :=
    ⟨_, rfl⟩
  obtain ⟨zone, hzone⟩ := hsome
  have hl := hall zone hzone
  have hc : wideConfig[0]? = some wideConfig[0] := rfl
  obtain ⟨block, info, hget, hs, hcounts, -⟩ := counts_of_laid hzone hl hc
  obtain ⟨hname, hnum, hiff⟩ := snp4InfoGetCounterBlock_ok hget
  have hnodup : (wideConfig.map fun c => c.nameString).Nodup := List.nodup_singleton _
  have hfound := snp4CounterBlockByName_eq hnodup hc
  rw [← hname] at hfound
  obtain ⟨block', hupdate, -⟩ := hcounts.update (steady fun _ => 0) none
  have hlarge : 2 ^ 31 ≤ info.numCounters.toNat := by
    rw [hnum]
    decide
  rw [updateMetrics_eq_none hs hfound hnum.symm (hiff.mpr rfl) hlarge] at hupdate
  contradiction

-- Two blocks, the first of which has two numbers for each counter
def twoBlocks : List XilVitisNetP4TargetCounterConfig :=
  [{ nameString := ascii "flows", counterType := .packetsAndBytes, numCounters := 2 },
    { nameString := ascii "drops", counterType := .packets, numCounters := 1 }]

theorem initPipeline_laid_twoBlocks
    : ∃ zone, initPipeline { name := [] } (fun _ _ => []) 0 twoBlocks = some zone ∧
        Laid twoBlocks zone := by
  have hsome : ∃ zone, initPipeline { name := [] } (fun _ _ => []) 0 twoBlocks = some zone :=
    ⟨_, rfl⟩
  obtain ⟨zone, hzone⟩ := hsome
  exact ⟨zone, hzone, (initPipeline_laid hzone).mpr ⟨by decide, by decide⟩⟩
end Counters
