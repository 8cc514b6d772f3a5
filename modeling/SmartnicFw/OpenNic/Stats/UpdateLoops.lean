import SmartnicFw.OpenNic.Stats.Impl

/-!
This module contains what the loops of an update compute: what `StatsBlock.updateMetrics` says where
their counters reach the bounds, and nothing where one of them cannot.
-/

theorem StatsMetric.length_le_longest (metric : StatsMetric) {e : StatsMetricElement}
    (he : e ∈ metric.elements)
    : e.value.labels.length ≤ metric.longest := by
  have hsum := List.le_sum_of_mem (List.mem_map_of_mem (f := fun e => e.value.labels.length) he)
  unfold longest
  omega

theorem StatsBlock.longest_le (blk : StatsBlock) {metric : StatsMetric}
    (hmetric : metric ∈ blk.metrics)
    : metric.longest ≤ blk.longest :=
  List.le_sum_of_mem (List.mem_map_of_mem hmetric)

namespace statsBlockUpdateMetrics

variable {fuel : Nat} {blk : StatsBlock} {filter : Option StatsClearFilter}
variable {readings : Nat → UInt64} {m : Nat} {metric : StatsMetric}

@[simp]
theorem updateElement_labels (mspec : StatsMetricSpec) (e : StatsMetricElement) (value : UInt64)
    (doClear : Bool)
    : (updateElement mspec e value doClear).value.labels = e.value.labels := by
  unfold updateElement
  cases mspec.type <;> rfl

theorem copyValues_eq (hlen : metric.elements.length < 2 ^ 32)
    (hfuel : metric.elements.length < fuel)
    : copyValues fuel metric = some (metric.elements.map (·.value)) := by
  have hroom : metric.elements.length ≤
      (List.replicate metric.elements.length (StatsMetricValue.mk 0 [])).length := by
    rw [List.length_replicate]
  have hcopy : ∀ (n : UInt32) values, n.toNat < metric.elements.length →
      copyValue metric n values = some (values.set n.toNat
        ((metric.elements.map (·.value)).getD n.toNat (StatsMetricValue.mk 0 []))) := by
    intro n values hn
    rw [copyValue, List.getElem?_eq_getElem hn, Option.bind_eq_bind, Option.bind_some,
      List.getD_eq_getElem _ _ (by rw [List.length_map]; exact hn), List.getElem_map]
  obtain ⟨values, hloop, hlength, hdone, -⟩ := CountedLoop.exists_fill hlen hroom
    (fun n => (metric.elements.map (·.value)).getD n (StatsMetricValue.mk 0 []))
    (fun n values hn _ _ => hcopy n values hn) hfuel
  rw [List.length_replicate] at hlength
  unfold copyValues
  rw [hloop, Option.some.injEq]
  apply List.ext_getElem?
  intro i
  by_cases hi : i < metric.elements.length
  . rw [hdone i hi, List.getD_eq_getElem?_getD,
      List.getElem?_eq_getElem (by rw [List.length_map]; exact hi), Option.getD_some]
  . rw [List.getElem?_eq_none (by omega), List.getElem?_eq_none (by rw [List.length_map]; omega)]

theorem clearFilterSpec_eq (hlen : metric.elements.length < 2 ^ 32)
    (hfuel : metric.elements.length < fuel)
    : clearFilterSpec fuel blk filter m metric = some (filterSpec blk m metric) := by
  cases filter with
  | none => rfl
  | some f =>
    unfold clearFilterSpec
    simp only [copyValues_eq hlen hfuel, Option.bind_eq_bind, Option.bind_some,
      dif_neg metric.values_ne]
    rfl

theorem publishLabels_eq {e : StatsMetricElement} (hlen : e.value.labels.length < 2 ^ 32)
    (hfuel : e.value.labels.length < fuel)
    : publishLabels fuel e = some () := by
  obtain ⟨_, hloop, -⟩ := CountedLoop.exists_loop hlen (fun _ (_ : Unit) => True) trivial
    (fun _ s _ _ => ⟨s, rfl, trivial⟩) hfuel
  exact hloop

section Element

variable {fspec : StatsClearFilterSpec} {n : UInt32} {elements : List StatsMetricElement}
variable {e : StatsMetricElement}

theorem updateAt_eq (he : elements[n.toNat]? = some e) (hlen : e.value.labels.length < 2 ^ 32)
    (hfuel : e.value.labels.length < fuel)
    : updateAt fuel metric.spec filter fspec readings n elements =
        some (elements.set n.toNat (updateElement metric.spec e (readings n.toNat)
          (doClear metric.spec filter fspec n.toNat))) := by
  unfold updateAt
  simp only [he, Option.bind_eq_bind, Option.bind_some]
  rw [publishLabels_eq (by rwa [updateElement_labels]) (by rwa [updateElement_labels]),
    Option.bind_some]

theorem updateAt_eq_none (he : elements[n.toNat]? = some e) (hlen : 2 ^ 32 ≤ e.value.labels.length)
    : updateAt fuel metric.spec filter fspec readings n elements = none := by
  unfold updateAt publishLabels
  simp only [he, Option.bind_eq_bind, Option.bind_some, updateElement_labels]
  rw [CountedLoop.loop_eq_none hlen, Option.bind_none]

theorem labels_of_updateAt {elements' : List StatsMetricElement}
    (h : updateAt fuel metric.spec filter fspec readings n elements = some elements') (k : Nat)
    : elements'[k]?.map (·.value.labels) = elements[k]?.map (·.value.labels) := by
  obtain ⟨e, he, h⟩ := Option.bind_eq_some_iff.mp h
  obtain ⟨-, -, h⟩ := Option.bind_eq_some_iff.mp h
  cases h
  by_cases hnk : n.toNat = k
  . subst hnk
    obtain ⟨hlt, -⟩ := List.getElem?_eq_some_iff.mp he
    rw [List.getElem?_set_self hlt, he, Option.map_some, Option.map_some, updateElement_labels]
  . rw [List.getElem?_set_ne hnk]

end Element

theorem metricLoop_eq (hcount : metric.Countable) (hfuel : metric.longest < fuel)
    : metricLoop fuel blk filter readings m metric =
        some (updateMetric blk filter readings m metric) := by
  have hlen : metric.elements.length < fuel := by
    unfold StatsMetric.longest at hfuel
    omega
  have hupdate : ∀ (n : UInt32) elements e, elements[n.toNat]? = some e →
      metric.elements[n.toNat]? = some e →
        updateAt fuel metric.spec filter (filterSpec blk m metric) readings n elements =
          some (elements.set n.toNat (updateElement metric.spec e (readings n.toNat)
            (doClear metric.spec filter (filterSpec blk m metric) n.toNat))) := by
    intro n elements e he he₀
    have hmem := List.mem_of_getElem? he₀
    exact updateAt_eq he (hcount.2 e hmem)
      (Nat.lt_of_le_of_lt (metric.length_le_longest hmem) hfuel)
  have hloop := CountedLoop.loop_eq_mapIdx hcount.1
    (fun n e => updateElement metric.spec e (readings n)
      (doClear metric.spec filter (filterSpec blk m metric) n))
    (fun n elements e _ he he₀ => hupdate n elements e he he₀) hlen
  unfold metricLoop
  rw [clearFilterSpec_eq hcount.1 hlen, Option.bind_eq_bind, Option.bind_some, hloop]
  exact dif_neg (updateMetric blk filter readings m metric).elements_ne

-- The labels of an element are what they were when the loop comes to it
theorem metricLoop_eq_none (hcount : ¬ metric.Countable)
    : metricLoop fuel blk filter readings m metric = none := by
  unfold metricLoop
  cases clearFilterSpec fuel blk filter m metric with
  | none => rfl
  | some fspec =>
    rw [Option.bind_eq_bind, Option.bind_some, Option.bind_eq_bind]
    by_cases hlen : metric.elements.length < 2 ^ 32
    . have hlabels : ∃ e ∈ metric.elements, 2 ^ 32 ≤ e.value.labels.length := by
        by_contra hall
        exact hcount ⟨hlen, fun e he => Nat.lt_of_not_le fun hle => hall ⟨e, he, hle⟩⟩
      obtain ⟨e, he, hle⟩ := hlabels
      obtain ⟨k, hk, hget⟩ := List.getElem_of_mem he
      have hkNat : (UInt32.ofNat k).toNat = k :=
        UInt32.toNat_ofNat_of_lt' (Nat.lt_trans hk hlen)
      rw [← hkNat] at hk
      have hzero : (0 : UInt32).toNat ≤ (UInt32.ofNat k).toNat := Nat.zero_le _
      rw [CountedLoop.loop_eq_none_of_inv
        (fun elements => elements[k]?.map (·.value.labels) = some e.value.labels)
        (fun n elements elements' _ hinv h => (labels_of_updateAt h k).trans hinv) hk ?_ hzero]
      . rfl
      . rw [List.getElem?_eq_some_iff.mpr ⟨hkNat ▸ hk, hget⟩, Option.map_some]
      . intro elements hinv
        obtain ⟨e', he', hlabels⟩ := Option.map_eq_some_iff.mp hinv
        rw [← hlabels] at hle
        rw [← hkNat] at he'
        exact updateAt_eq_none he' hle
    . rw [CountedLoop.loop_eq_none (Nat.le_of_not_lt hlen), Option.bind_none]

theorem updateMetric_labels
    : (updateMetric blk filter readings m metric).elements.map (·.value.labels) =
        metric.elements.map (·.value.labels) := by
  apply List.ext_getElem?
  intro i
  simp [updateMetric, Function.comp_def]

theorem updateMetric_countable_iff
    : (updateMetric blk filter readings m metric).Countable ↔ metric.Countable := by
  have hlabels : ∀ es : List StatsMetricElement, (∀ e ∈ es, e.value.labels.length < 2 ^ 32) ↔
      ∀ labels ∈ es.map (·.value.labels), labels.length < 2 ^ 32 := by
    intro es
    rw [List.forall_mem_map]
  have hlen := congrArg List.length (@updateMetric_labels blk filter readings m metric)
  rw [List.length_map, List.length_map] at hlen
  unfold StatsMetric.Countable
  rw [hlen, hlabels, updateMetric_labels, ← hlabels]

@[simp]
theorem updateMetric_longest
    : (updateMetric blk filter readings m metric).longest = metric.longest := by
  have hlen := congrArg List.length (@updateMetric_labels blk filter readings m metric)
  have hsum := congrArg (fun labels => (labels.map List.length).sum)
    (@updateMetric_labels blk filter readings m metric)
  simp only [List.length_map, List.map_map, Function.comp_def] at hlen hsum
  unfold StatsMetric.longest
  rw [hlen, hsum]

variable {readings : Nat → Nat → UInt64} {metrics : List StatsMetric}

theorem metricLoops_eq (hcount : ∀ metric ∈ metrics, metric.Countable)
    (hfuel : ∀ metric ∈ metrics, metric.longest < fuel)
    : metricLoops fuel blk filter readings m metrics =
        some (metrics.mapIdx fun i => updateMetric blk filter (readings (m + i)) (m + i)) := by
  induction metrics generalizing m with
  | nil => rfl
  | cons metric metrics ih =>
    rw [List.forall_mem_cons] at hcount hfuel
    rw [metricLoops, metricLoop_eq hcount.1 hfuel.1, ih hcount.2 hfuel.2, List.mapIdx_cons]
    simp only [Option.bind_eq_bind, Option.bind_some, Nat.add_zero, Nat.add_assoc,
      Nat.add_comm 1]

theorem metricLoops_eq_none (hmetric : metric ∈ metrics) (hcount : ¬ metric.Countable)
    : metricLoops fuel blk filter readings m metrics = none := by
  induction metrics generalizing m with
  | nil => cases hmetric
  | cons metric' metrics ih =>
    rw [metricLoops]
    rcases List.mem_cons.mp hmetric with rfl | hmetric
    . rw [metricLoop_eq_none hcount, Option.bind_eq_bind, Option.bind_none]
    . cases metricLoop fuel blk filter (readings m) m metric' with
      | none => rfl
      | some metric' => rw [Option.bind_eq_bind, Option.bind_some, ih hmetric]; rfl

end statsBlockUpdateMetrics

section Block

variable {fuel : Nat} {blk : StatsBlock} {filter : Option StatsClearFilter}
variable {readings : Nat → Nat → UInt64}

theorem statsBlockUpdateMetrics_eq (hcount : blk.Countable) (hfuel : blk.longest < fuel)
    : statsBlockUpdateMetrics fuel blk filter readings =
        some (blk.updateMetrics filter readings) := by
  unfold statsBlockUpdateMetrics
  rw [statsBlockUpdateMetrics.metricLoops_eq hcount
    fun metric hmetric => Nat.lt_of_le_of_lt (blk.longest_le hmetric) hfuel]
  simp only [Option.bind_eq_bind, Option.bind_some, Nat.zero_add]
  rfl

theorem statsBlockUpdateMetrics_eq_none (hcount : ¬ blk.Countable)
    : statsBlockUpdateMetrics fuel blk filter readings = none := by
  obtain ⟨metric, hmetric⟩ := not_forall.mp hcount
  obtain ⟨hmem, hcount⟩ := Classical.not_imp.mp hmetric
  unfold statsBlockUpdateMetrics
  rw [statsBlockUpdateMetrics.metricLoops_eq_none hmem hcount]
  rfl

namespace StatsBlock

theorem updateMetrics_countable (hcount : blk.Countable)
    : (blk.updateMetrics filter readings).Countable := by
  intro metric hmem
  obtain ⟨i, hi, rfl⟩ := List.mem_mapIdx.mp hmem
  exact statsBlockUpdateMetrics.updateMetric_countable_iff.mpr (hcount _ (List.getElem_mem hi))

@[simp]
theorem updateMetrics_longest
    : (blk.updateMetrics filter readings).longest = blk.longest := by
  unfold longest
  congr 1
  apply List.ext_getElem?
  intro i
  simp [updateMetrics, Function.comp_def]

end StatsBlock

end Block
