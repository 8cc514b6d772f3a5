import SmartnicFw.SnP4.Agent.Counters

/-!
This module contains what is latched for a block of counters, and what is read out of that for each
of its metrics.
-/

namespace Counters

variable {cfg : List XilVitisNetP4TargetCounterConfig} {infos : List Snp4InfoCounterBlock}
  {info : Snp4InfoCounterBlock}

-- The metrics of a block
def metrics (info : Snp4InfoCounterBlock) : List MetricSpec :=
  match info.type with
  | .packetsAndBytes =>
    [initCountersBlockMetric info 0 (some "packets") true,
      initCountersBlockMetric info 1 (some "bytes") true]
  | .packets => [initCountersBlockMetric info 0 (some "packets") false]
  | .bytes => [initCountersBlockMetric info 0 (some "bytes") false]
  | .flag => [initCountersBlockMetric info 0 none false]

-- The driver's counter that element `n` of metric `m` of block `b` stands for
def count (driver : CounterDriver) (type : Snp4InfoCounterType) (b m n : Nat) : UInt64 :=
  match type with
  | .packetsAndBytes => if m = 0 then driver.packets b n else driver.bytes b n
  | .packets | .bytes | .flag => driver.counts b n

def succeeds (driver : CounterDriver) (info : Snp4InfoCounterBlock) (b : Nat) : Bool :=
  match info.type with
  | .packetsAndBytes => (driver.collectComboRead b info.numCounters.toNat).1
  | .packets | .bytes | .flag => (driver.collectSimpleRead b info.numCounters.toNat).1

section Table

theorem length_metrics (info : Snp4InfoCounterBlock)
    : (metrics info).length = nmetrics info.type := by
  unfold metrics nmetrics
  cases info.type <;> rfl

theorem initCountersBlock_eq {base : Nat} {mspecs : List MetricSpec}
    (h : base + nmetrics info.type ≤ mspecs.length)
    : initCountersBlock info base mspecs = Buffer.overwrite mspecs base (metrics info) := by
  unfold initCountersBlock metrics
  unfold nmetrics at h
  cases htype : info.type with
  | packetsAndBytes =>
    simp only [htype] at h ⊢
    have hfirst : Buffer.overwrite mspecs base
        [initCountersBlockMetric info 0 (some "packets") true] =
        mspecs.set base (initCountersBlockMetric info 0 (some "packets") true) :=
      Buffer.overwrite_singleton (by omega) _
    have hset : Buffer.overwrite (Buffer.overwrite mspecs base
        [initCountersBlockMetric info 0 (some "packets") true]) (base + 1)
        [initCountersBlockMetric info 1 (some "bytes") true] = Buffer.overwrite mspecs base
        [initCountersBlockMetric info 0 (some "packets") true,
          initCountersBlockMetric info 1 (some "bytes") true] :=
      Buffer.overwrite_overwrite (by rw [List.length_singleton]; omega) _
    rw [hfirst, Buffer.overwrite_singleton (by rw [List.length_set]; omega)] at hset
    exact hset
  | packets | bytes | flag =>
    simp only [htype] at h
    rw [Buffer.overwrite_singleton (by omega)]

theorem initCountersBlocks_eq {base : Nat} {mspecs : List MetricSpec}
    (h : base + (infos.map fun info => nmetrics info.type).sum ≤ mspecs.length)
    : (initCountersBlocks infos base mspecs).1 =
        Buffer.overwrite mspecs base (infos.flatMap metrics) := by
  induction infos generalizing base mspecs with
  | nil => simp [initCountersBlocks]
  | cons info infos ih =>
    rw [List.map_cons, List.sum_cons] at h
    have hlen := length_metrics info
    have hset : (Buffer.overwrite mspecs base (metrics info)).length = mspecs.length :=
      Buffer.length_overwrite (by omega)
    simp only [initCountersBlocks, List.flatMap_cons]
    rw [initCountersBlock_eq (by omega), ih (by omega), ← hlen,
      Buffer.overwrite_overwrite (by omega)]

theorem map_fst_initCountersBlocks (infos : List Snp4InfoCounterBlock) (base : Nat)
    (mspecs : List MetricSpec)
    : (initCountersBlocks infos base mspecs).2.map Prod.fst = infos := by
  induction infos generalizing base mspecs with
  | nil => rfl
  | cons info infos ih =>
    simp only [initCountersBlocks, List.map_cons]
    rw [ih]

-- Each block finds its own metrics in the table
theorem slice_initCountersBlocks (before : List MetricSpec) (mspecs : List MetricSpec)
    : ∀ p ∈ (initCountersBlocks infos before.length mspecs).2,
        ((before ++ infos.flatMap metrics).drop p.2).take (nmetrics p.1.type) = metrics p.1 := by
  induction infos generalizing before mspecs with
  | nil => simp [initCountersBlocks]
  | cons info infos ih =>
    intro p hp
    simp only [initCountersBlocks, List.mem_cons] at hp
    rcases hp with rfl | hp
    . simp only
      rw [List.drop_left, List.flatMap_cons, ← length_metrics, List.take_left]
    . rw [List.flatMap_cons, ← List.append_assoc]
      apply ih (before ++ metrics info) (initCountersBlock info before.length mspecs)
      rw [List.length_append, length_metrics]
      exact hp

end Table

section Latch

theorem isValid_setValid {data data' : List UInt64} {valid : Bool}
    (h : setValid data valid = some data')
    : isValid data' = some valid := by
  unfold setValid at h
  split at h
  . contradiction
  . next word words =>
    cases h
    have hbit : ∀ v : UInt64, (word &&& ~~~0xff ||| v) &&& 0xff = v &&& 0xff := by
      intro v
      rw [← UInt64.toBitVec_inj]
      simp only [UInt64.toBitVec_and, UInt64.toBitVec_or, UInt64.toBitVec_not]
      ext i hi
      simp only [BitVec.getElem_and, BitVec.getElem_or, BitVec.getElem_not]
      cases (UInt64.toBitVec 255)[i] <;> simp
    simp only [isValid, hbit]
    cases valid <;> rfl

theorem exists_setValid {data : List UInt64} (h : data ≠ []) (valid : Bool)
    : ∃ data', setValid data valid = some data' := by
  cases data with
  | nil => contradiction
  | cons word words => exact ⟨_, rfl⟩

theorem nwords_eq (hfits : info.type = .packetsAndBytes → info.numCounters.toNat < 2 ^ 31)
    : (dataSize info + 8 - 1) / 8 = 1 + nmetrics info.type * info.numCounters.toNat := by
  have hlt := info.numCounters.toNat_lt
  have hmul : (UInt32.ofNat (nmetrics info.type) * info.numCounters).toNat =
      nmetrics info.type * info.numCounters.toNat := by
    rw [UInt32.toNat_mul]
    cases htype : info.type with
    | packetsAndBytes =>
      have := hfits htype
      simp only [nmetrics, UInt32.reduceOfNat, UInt32.reduceToNat]
      omega
    | packets | bytes | flag =>
      simp only [nmetrics, UInt32.reduceOfNat, UInt32.reduceToNat]
      omega
  unfold dataSize sizeofLatchData
  rw [hmul]
  omega

theorem clearCounts_self (mem : List UInt64) (counts n : Nat)
    : clearCounts mem counts n n = some mem := by
  unfold clearCounts
  rw [if_neg (by omega)]

variable {b : Nat} {c : XilVitisNetP4TargetCounterConfig} (driver : CounterDriver)

-- What is in the buffer behind the word with the flag
def latched (driver : CounterDriver) (info : Snp4InfoCounterBlock) (b : Nat) : List UInt64 :=
  (List.range (nmetrics info.type)).flatMap fun m =>
    (List.range info.numCounters.toNat).map (count driver info.type b m)

theorem simpleRead_eq (hname : snp4CounterBlockByName cfg info.name = some (b, c))
    (hnum : c.numCounters = info.numCounters)
    : ∃ data, snp4CounterBlockSimpleRead cfg driver info.name
          (List.replicate (1 + info.numCounters.toNat) 0) 1 info.numCounters.toNat =
        some ((driver.collectSimpleRead b info.numCounters.toNat).1, data) ∧ data ≠ [] ∧
        ((driver.collectSimpleRead b info.numCounters.toNat).1 = true →
          data = 0 :: (List.range info.numCounters.toNat).map (driver.counts b)) := by
  have hle := driver.simple_length b info.numCounters.toNat
  obtain ⟨data, hwrite, hlen⟩ : ∃ data, Buffer.write
      (List.replicate (1 + info.numCounters.toNat) 0) 1
      (driver.collectSimpleRead b info.numCounters.toNat).2 = some data ∧ data.length = _ :=
    Buffer.write_eq (by rw [List.length_replicate]; omega)
  refine ⟨data, ?_, ?_, ?_⟩
  . unfold snp4CounterBlockSimpleRead
    rw [hname]
    simp only [hnum, clearCounts_self, Option.bind_eq_bind, Option.bind_some]
    rw [if_neg (by omega), hwrite]
    rfl
  . rintro rfl
    simp at hlen
    omega
  . intro hok
    rw [driver.simple_counts b _ hok, List.replicate_add] at hwrite
    have hfull : Buffer.write ([0] ++ List.replicate info.numCounters.toNat 0 ++ []) 1
        ((List.range info.numCounters.toNat).map (driver.counts b)) =
        some ([0] ++ (List.range info.numCounters.toNat).map (driver.counts b) ++ []) :=
      Buffer.write_append _ _ _ rfl (by simp)
    simp only [List.append_nil, List.singleton_append] at hfull
    exact Option.some.inj (hwrite.symm.trans hfull)

theorem comboRead_eq (hname : snp4CounterBlockByName cfg info.name = some (b, c))
    (hnum : c.numCounters = info.numCounters)
    : ∃ data, snp4CounterBlockComboRead cfg driver info.name
          (List.replicate (1 + 2 * info.numCounters.toNat) 0) 1 (1 + info.numCounters.toNat)
          info.numCounters.toNat =
        some ((driver.collectComboRead b info.numCounters.toNat).1, data) ∧ data ≠ [] ∧
        ((driver.collectComboRead b info.numCounters.toNat).1 = true →
          data = 0 :: ((List.range info.numCounters.toNat).map (driver.packets b) ++
            (List.range info.numCounters.toNat).map (driver.bytes b))) := by
  obtain ⟨hle, hle'⟩ := driver.combo_length b info.numCounters.toNat
  obtain ⟨data, hwrite, hlen⟩ : ∃ data, Buffer.write
      (List.replicate (1 + 2 * info.numCounters.toNat) 0) 1
      (driver.collectComboRead b info.numCounters.toNat).2.1 = some data ∧ data.length = _ :=
    Buffer.write_eq (by rw [List.length_replicate]; omega)
  rw [List.length_replicate] at hlen
  obtain ⟨data', hwrite', hlen'⟩ : ∃ data', Buffer.write data (1 + info.numCounters.toNat)
      (driver.collectComboRead b info.numCounters.toNat).2.2 = some data' ∧ data'.length = _ :=
    Buffer.write_eq (by omega)
  refine ⟨data', ?_, ?_, ?_⟩
  . unfold snp4CounterBlockComboRead
    rw [hname]
    simp only [hnum, clearCounts_self, Option.bind_eq_bind, Option.bind_some]
    rw [if_neg (by omega), hwrite]
    simp only [Option.bind_some]
    rw [hwrite']
    rfl
  . rintro rfl
    simp at hlen'
    omega
  . intro hok
    have hcounts := driver.combo_counts b _ hok
    rw [hcounts] at hwrite hwrite'
    have hinit : List.replicate (1 + 2 * info.numCounters.toNat) (0 : UInt64) =
        [0] ++ List.replicate info.numCounters.toNat 0 ++
          List.replicate info.numCounters.toNat 0 := by
      rw [Nat.two_mul, List.replicate_add, List.replicate_add, ← List.append_assoc]
      rfl
    have hfirst : Buffer.write (List.replicate (1 + 2 * info.numCounters.toNat) 0) 1
        ((List.range info.numCounters.toNat).map (driver.packets b)) =
        some ([0] ++ (List.range info.numCounters.toNat).map (driver.packets b) ++
          List.replicate info.numCounters.toNat 0) := by
      rw [hinit]
      apply Buffer.write_append
      . rfl
      . simp
    have hsecond : Buffer.write
        ([0] ++ (List.range info.numCounters.toNat).map (driver.packets b) ++
          List.replicate info.numCounters.toNat 0 ++ []) (1 + info.numCounters.toNat)
        ((List.range info.numCounters.toNat).map (driver.bytes b)) =
        some ([0] ++ (List.range info.numCounters.toNat).map (driver.packets b) ++
          (List.range info.numCounters.toNat).map (driver.bytes b) ++ []) := by
      apply Buffer.write_append
      . simp
        omega
      . simp
    cases hfirst.symm.trans hwrite
    rw [List.append_nil, List.append_nil] at hsecond
    exact Option.some.inj (hwrite'.symm.trans hsecond)

theorem countersLatchMetrics_eq (hname : snp4CounterBlockByName cfg info.name = some (b, c))
    (hnum : c.numCounters = info.numCounters)
    : ∃ data, countersLatchMetrics cfg driver info
          (List.replicate (1 + nmetrics info.type * info.numCounters.toNat) 0) = some data ∧
        isValid data = some (succeeds driver info b) ∧
        (succeeds driver info b = true → ∃ word, data = word :: latched driver info b) := by
  unfold countersLatchMetrics succeeds latched
  cases htype : info.type with
  | packetsAndBytes =>
    obtain ⟨data, hread, hne, hcounts⟩ := comboRead_eq driver hname hnum
    obtain ⟨data', hset⟩ := exists_setValid hne
      (driver.collectComboRead b info.numCounters.toNat).1
    refine ⟨data', ?_, isValid_setValid hset, ?_⟩
    . simp only [nmetrics, valuesWord, sizeofLatchData, Nat.reduceDiv, Nat.add_zero, hread,
        Option.bind_eq_bind, Option.bind_some]
      exact hset
    . intro hok
      rw [hcounts hok] at hset
      cases hset
      simp [nmetrics, List.range_succ]
      rfl
  | packets | bytes | flag =>
    obtain ⟨data, hread, hne, hcounts⟩ := simpleRead_eq driver hname hnum
    obtain ⟨data', hset⟩ := exists_setValid hne
      (driver.collectSimpleRead b info.numCounters.toNat).1
    refine ⟨data', ?_, isValid_setValid hset, ?_⟩
    . simp only [nmetrics, valuesWord, sizeofLatchData, Nat.reduceDiv, Nat.add_zero, Nat.one_mul,
        hread, Option.bind_eq_bind, Option.bind_some]
      exact hset
    . intro hok
      rw [hcounts hok] at hset
      cases hset
      simp [nmetrics, count]

end Latch

section Read

variable {b m : Nat} {mspec : MetricSpec} {driver : CounterDriver}

structure MetricSpec.Of (mspec : MetricSpec) (info : Snp4InfoCounterBlock) (m : Nat) : Prop where
  nelements : mspec.spec.nelements = info.numCounters.toNat
  numElements : mspec.spec.numElements = info.numCounters.toNat
  ioOffset : mspec.ioOffset.toNat = m * info.numCounters.toNat
  clearOnRead : statsMetricFlagTest mspec.spec.flags .clearOnRead = true
  type : mspec.spec.type = if info.type = .flag then .flag else .counter

theorem initCountersBlockMetric_of {idx : Nat} (hidx : idx < 2) (units : Option String)
    (addSuffix : Bool)
    : (initCountersBlockMetric info idx units addSuffix).Of info idx := by
  have hlt := info.numCounters.toNat_lt
  have harray : statsMetricFlagTest
      (statsMetricFlagMask .clearOnRead ||| statsMetricFlagMask .array) .array = true := by
    decide
  constructor
  . rfl
  . exact if_pos harray
  . simp only [initCountersBlockMetric]
    rcases Nat.lt_succ_iff_lt_or_eq.mp hidx with h | rfl
    . cases Nat.lt_one_iff.mp h
      simp
    . simp
  . show statsMetricFlagTest
      (statsMetricFlagMask .clearOnRead ||| statsMetricFlagMask .array) .clearOnRead = true
    decide
  . rfl

theorem metrics_of (h : (metrics info)[m]? = some mspec) : mspec.Of info m := by
  unfold metrics at h
  cases htype : info.type with
  | packetsAndBytes =>
    simp only [htype] at h
    rcases m with _ | _ | m
    . cases h
      exact initCountersBlockMetric_of (by decide) _ _
    . cases h
      exact initCountersBlockMetric_of (by decide) _ _
    . contradiction
  | packets | bytes | flag =>
    simp only [htype] at h
    rcases m with _ | m
    . cases h
      exact initCountersBlockMetric_of (by decide) _ _
    . contradiction

-- What an update reads for the elements of a metric
def reading (driver : CounterDriver) (info : Snp4InfoCounterBlock) (b m : Nat) : List UInt64 :=
  if succeeds driver info b then
    (List.range info.numCounters.toNat).map (count driver info.type b m)
  else
    List.replicate info.numCounters.toNat 0

theorem read_latched (hm : m < nmetrics info.type) (word : UInt64)
    : Buffer.read (word :: latched driver info b) (1 + m * info.numCounters.toNat)
          info.numCounters.toNat =
        some ((List.range info.numCounters.toNat).map (count driver info.type b m)) := by
  obtain ⟨k, hk⟩ : ∃ k, nmetrics info.type = m + 1 + k := ⟨nmetrics info.type - m - 1, by omega⟩
  have hsplit : latched driver info b =
      ((List.range m).flatMap fun m =>
          (List.range info.numCounters.toNat).map (count driver info.type b m)) ++
        (List.range info.numCounters.toNat).map (count driver info.type b m) ++
        ((List.range k).map (m + 1 + ·)).flatMap fun m =>
          (List.range info.numCounters.toNat).map (count driver info.type b m) := by
    unfold latched
    rw [hk, List.range_add, List.flatMap_append, List.range_succ, List.flatMap_append]
    simp
  rw [hsplit, ← List.cons_append, ← List.cons_append]
  apply Buffer.read_append
  . rw [List.length_cons, List.length_flatMap]
    simp
    omega
  . simp

theorem countersReadMetric_eq (h : mspec.Of info m) (hm : m < nmetrics info.type)
    {data : List UInt64} (hvalid : isValid data = some (succeeds driver info b))
    (hdata : succeeds driver info b = true → ∃ word, data = word :: latched driver info b)
    : countersReadMetric mspec (List.replicate mspec.spec.numElements 0) data =
        some (reading driver info b m) := by
  have hwrite : ∀ vs : List UInt64, vs.length = info.numCounters.toNat →
      Buffer.write (List.replicate mspec.spec.numElements 0) 0 vs = some vs := by
    intro vs hvs
    have hall : Buffer.write ([] ++ List.replicate mspec.spec.numElements 0 ++ []) 0 vs =
        some ([] ++ vs ++ []) := by
      apply Buffer.write_append
      . rfl
      . rw [List.length_replicate, h.numElements, hvs]
    simpa using hall
  unfold countersReadMetric reading
  rw [hvalid]
  simp only [Option.bind_eq_bind, Option.bind_some]
  by_cases hok : succeeds driver info b = true
  . obtain ⟨word, rfl⟩ := hdata hok
    rw [if_neg (by simp [hok]), if_pos hok, h.nelements, h.ioOffset]
    simp only [valuesWord, sizeofLatchData, Nat.reduceDiv]
    rw [read_latched hm, Option.bind_some, hwrite _ (by simp)]
  . rw [if_pos (by simpa using hok), if_neg hok, h.nelements, hwrite _ (by simp)]

theorem readMetrics_eq {data : List UInt64}
    (hvalid : isValid data = some (succeeds driver info b))
    (hdata : succeeds driver info b = true → ∃ word, data = word :: latched driver info b)
    : ((metrics info).mapM fun mspec =>
          countersReadMetric mspec (List.replicate mspec.spec.numElements 0) data) =
        some ((List.range (nmetrics info.type)).map (reading driver info b)) := by
  apply mapM_of_forall₂
  rw [← length_metrics, List.forall₂_map_right_iff, List.forall₂_iff_get]
  refine ⟨by simp, ?_⟩
  intro m hm _
  have hget : (metrics info)[m]? = some ((metrics info).get ⟨m, hm⟩) :=
    List.getElem?_eq_getElem hm
  simp only [List.get_eq_getElem, List.getElem_range]
  exact countersReadMetric_eq (metrics_of hget) (by rw [← length_metrics]; exact hm) hvalid hdata

end Read

end Counters
