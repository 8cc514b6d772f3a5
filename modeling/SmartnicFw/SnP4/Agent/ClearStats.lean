import SmartnicFw.SnP4.Agent.FilterSemantics

/-!
This module contains the comparison of the elements that `ClearStats` clears with those that
`GetStats` reports under the same filter.
-/

open SnP4V2 (StatsMetricFilter StatsFilters)

def reportedIndices (report : Option SnP4V2.StatsMetric) : List Nat :=
  match report with
  | none => []
  | some metric => metric.values.map (·.index)

theorem applyFilters.go_marks {nbits : Nat} (values : List StatsMetricValue) (n : Nat)
    {v : BitArray nbits} {p : Nat → Prop} (hv : v.Marks p)
    : (go false values n v).Marks fun i => p i ∨ n ≤ i ∧ i < n + values.length := by
  induction values generalizing n v p with
  | nil =>
    apply hv.congr
    intro i hi
    rw [List.length_nil, Nat.add_zero, or_iff_left (by omega)]
  | cons x values ih =>
    have hset : (v.assignBit n (!false || x.u64 != 0)).Marks fun i => p i ∨ i = n := by
      intro i hi
      simp [BitArray.assignBit, hv i hi, hi]
    apply (ih (n + 1) hset).congr
    intro i hi
    rw [List.length_cons, or_assoc]
    apply or_congr_right
    omega

section

variable {re : Regex} {fuel : Nat} {spec : StatsForEachSpec} {filters : StatsFilters}
variable {filter : StatsMetricFilter}

theorem applyFilters_of_eq {type : SnP4V2.StatsMetricType} {v : BitArray spec.nvalues}
    {p : Nat → Prop} (hzero : filters.nonZero = false) (hfilter : filters.metricFilter = some filter)
    (happly : applyMetricFilter re fuel spec filter type
      (BitArray.new spec.nvalues spec.nvalues_pos) = some v)
    (hv : v.Marks p)
    : ∃ v', applyFilters re fuel spec filters type (BitArray.new spec.nvalues spec.nvalues_pos) =
          some v' ∧
        v'.Marks p := by
  have hgo := applyFilters.go_marks spec.values 0 (BitArray.marks_new spec.nvalues_pos)
  have hone : ¬ (applyFilters.go false spec.values 0
      (BitArray.new spec.nvalues spec.nvalues_pos)).isAllCleared = true := by
    rw [hgo.isAllCleared]
    intro hclear
    apply hclear 0 spec.nvalues_pos
    have := spec.nvalues_pos
    simp only [StatsForEachSpec.nvalues] at this ⊢
    omega
  refine ⟨_, ?_, (hgo.andAssign hv).congr ?_⟩
  . rw [applyFilters, hzero, hfilter]
    simp only [hone, Bool.false_eq_true, ↓reduceIte]
    rw [happly]
    rfl
  . intro i hi
    simp only [StatsForEachSpec.nvalues] at hi
    simp [hi]

-- The report lists the elements whose bits are set
theorem getStatsForEachMetric_of_eq {v : BitArray spec.nvalues}
    (happly : applyFilters re fuel spec filters (statsMetricTypeMessage spec.metric.type)
      (BitArray.new spec.nvalues spec.nvalues_pos) = some v)
    : ∃ report, getStatsForEachMetric re fuel spec filters = some report ∧
        ∀ i, i ∈ reportedIndices report ↔ v.isBitSet i = true := by
  unfold getStatsForEachMetric
  simp only [happly, Option.bind_eq_bind, Option.bind_some]
  by_cases hclear : v.isAllCleared = true
  . refine ⟨none, by rw [if_pos hclear]; rfl, ?_⟩
    intro i
    simp only [reportedIndices, List.not_mem_nil, false_iff, Bool.not_eq_true]
    by_cases hi : i < spec.nvalues
    . exact v.isAllCleared_iff.mp hclear i hi
    . exact v.isBitSet_of_le i (by omega)
  . refine ⟨_, by rw [if_neg hclear]; rfl, ?_⟩
    intro i
    simp only [reportedIndices, List.map_map, List.mem_map, List.mem_filter, Function.comp,
      Prod.exists, List.mem_zipIdx_iff_getElem?]
    constructor
    . rintro ⟨x, j, ⟨_, hbit⟩, rfl⟩
      exact hbit
    . intro hbit
      have hi : i < spec.values.length := by
        by_contra hge
        rw [v.isBitSet_of_le i (by simp only [StatsForEachSpec.nvalues]; omega)] at hbit
        contradiction
      exact ⟨spec.values[i], i, ⟨List.getElem?_eq_getElem hi, hbit⟩, rfl⟩

end

theorem BitArray.Marks.isBitSet_eq {nbits : Nat} {v v' : BitArray nbits} {p : Nat → Prop}
    (hv : v.Marks p) (hv' : v'.Marks p) (i : Nat)
    : v.isBitSet i = v'.isBitSet i := by
  by_cases hi : i < nbits
  . rw [Bool.eq_iff_iff, hv i hi, hv' i hi]
  . rw [v.isBitSet_of_le i (by omega), v'.isBitSet_of_le i (by omega)]

section

variable {re : Regex} {blk : StatsBlock} {m : Nat} {metric : StatsMetric}

-- The decision of `ClearStats` is the bit that the filter left for the element
theorem clears_eq_isBitSet {fuel : Nat} {filters : StatsFilters} {filter : StatsMetricFilter}
    {v : BitArray (blk.forEachSpec metric).nvalues} (hm : blk.metrics[m]? = some metric)
    (hclear : statsMetricFlagTest metric.spec.flags .neverClear = false)
    (hfilter : filters.metricFilter = some filter)
    (happly : applyMetricFilter re fuel (blk.forEachSpec metric) filter
      (statsMetricTypeMessage metric.spec.type)
      (BitArray.new _ (blk.forEachSpec metric).nvalues_pos) = some v) (i : Nat)
    : blk.clears (clearStatsFilter re fuel filters) m i = v.isBitSet i := by
  simp only [StatsBlock.clears, hm, doClear_clearStatsFilter hfilter happly, hclear, Bool.not_false,
    Bool.true_and]
  rfl

end

-- An array of six counters
def sixCounters : StatsMetric :=
  { spec :=
      { name := [0x6d], nelements := 6, type := .counter, flags := statsMetricFlagMask .array,
        initValue := 0 }
    elements := List.replicate 6 { value := { u64 := 0, labels := [] }, last := 0 }
    elements_ne := by simp }

def sixCountersBlock : StatsBlock :=
  { domain := ⟨[0x64]⟩
    zone := ⟨[0x7a]⟩
    spec := { name := [0x62], metrics := [sixCounters.spec] }
    metrics := [sixCounters] }

-- Every other element
def evenSlices : Set StatsMetricMatchIndexSlice := {⟨0, -1, 2⟩}
