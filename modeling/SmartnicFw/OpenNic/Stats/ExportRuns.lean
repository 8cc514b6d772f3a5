import SmartnicFw.OpenNic.Stats.ExportLabels

/-!
This module contains what a metric exports after any number of updates, and how its label records
are laid out in the allocation of the metric.
-/

namespace StatsExport

section Run

variable {spec : Spec} {names : Names} {fuel : Nat}

theorem updates_attached (hlt : spec.toStatsMetricSpec.numElements < 2 ^ 32)
    (hlabels : nlabels spec < 2 ^ 32) (hfuel : spec.toStatsMetricSpec.numElements < fuel)
    (hfuel' : nlabels spec < fuel) {metric : Metric} (hmetric : Attached spec names metric)
    (updates : List Update)
    : ∃ metric', updates.foldlM (fun metric update => statsBlockUpdateMetric fuel update metric)
        metric = some metric' ∧ Attached spec names metric' := by
  induction updates generalizing metric with
  | nil => exact ⟨metric, rfl, hmetric⟩
  | cons update updates ih =>
    obtain ⟨metric', hupdate, hpublished⟩ :=
      statsBlockUpdateMetric_eq hmetric hlt hlabels hfuel hfuel' update
    rw [List.foldlM_cons, hupdate]
    exact ih hpublished.attached

theorem run_published (hlt : spec.toStatsMetricSpec.numElements < 2 ^ 32)
    (hlabels : nlabels spec < 2 ^ 32) (hfuel : spec.toStatsMetricSpec.numElements < fuel)
    (hfuel' : nlabels spec < fuel) (names : Names) (updates : List Update) (last : Update)
    : ∃ metric, run fuel names spec (updates ++ [last]) = some metric ∧
        Published spec names last spec.toStatsMetricSpec.numElements metric := by
  have hspec : spec.labels.length < nlabels spec := by
    unfold nlabels
    have hdefault : defaultStatsLabels.length = 3 := rfl
    omega
  obtain ⟨attached, hattach, hattached⟩ := @statsMetricAttach_eq spec names fuel hlt hfuel
  obtain ⟨metric, hupdates, hmetric⟩ :=
    updates_attached hlt hlabels hfuel hfuel' hattached updates
  obtain ⟨metric', hlast, hpublished⟩ :=
    statsBlockUpdateMetric_eq hmetric hlt hlabels hfuel hfuel' last
  refine ⟨metric', ?_, hpublished⟩
  unfold run
  have halloc := @statsMetricAlloc_eq spec fuel (by omega) (by omega)
  simp only [halloc, hattach, List.foldlM_append, hupdates, List.foldlM_cons, hlast, List.foldlM_nil, Option.bind_eq_bind,
    Option.bind_some]
  rfl

-- What the loops of a later step count up to
theorem sizes_of_statsMetricAlloc {metric : Metric} (h : statsMetricAlloc fuel spec = some metric)
    : metric.nelements = spec.toStatsMetricSpec.numElements ∧
        metric.labels.length = nlabels spec := by
  have hlt : spec.labels.length < 2 ^ 32 := by
    by_contra hle
    rw [statsMetricAlloc_eq_none (by omega)] at h
    cases h
  have heq := statsMetricAlloc_eq hlt (Nat.lt_succ_self _)
  unfold statsMetricAlloc at h heq
  obtain ⟨s, hloop, h⟩ := Option.bind_eq_some_iff.mp h
  obtain ⟨s', hloop', heq⟩ := Option.bind_eq_some_iff.mp heq
  cases CountedLoop.loop_unique hloop hloop'
  rw [← Option.some.inj h, Option.some.inj heq]
  exact ⟨rfl, length_allLabels spec⟩

-- Nothing comes of a metric with more elements or labels than the loops can count
theorem numElements_of_statsMetricAttach {metric attached : Metric}
    (h : statsMetricAttach fuel names metric = some attached)
    : metric.nelements < 2 ^ 32 ∧ attached.nelements = metric.nelements ∧
        attached.labels = metric.labels := by
  obtain ⟨records, hloop, h⟩ := Option.bind_eq_some_iff.mp h
  refine ⟨?_, ?_, ?_⟩
  . by_contra hle
    rw [CountedLoop.loop_eq_none (by omega)] at hloop
    cases hloop
  . rw [← Option.some.inj h]
  . rw [← Option.some.inj h]

theorem length_of_statsBlockUpdateMetric {metric metric' : Metric} {update : Update}
    (hpos : 0 < metric.nelements) (h : statsBlockUpdateMetric fuel update metric = some metric')
    : metric.labels.length < 2 ^ 32 := by
  by_contra hle
  have hnone : ∀ metric' e values, metric'.labels = metric.labels →
      publicLabelValues fuel metric' e ≠ some values := by
    intro metric' e values hlabels hvalues
    unfold publicLabelValues at hvalues
    rw [CountedLoop.loop_eq_none (by rw [hlabels]; omega)] at hvalues
    cases hvalues
  unfold statsBlockUpdateMetric at h
  rw [CountedLoop.loop_eq_none_of_body hpos] at h
  . cases h
  . apply Option.bind_eq_none_iff.mpr
    intro e _
    apply Option.bind_eq_none_iff.mpr
    intro values hvalues
    exact absurd hvalues (hnone _ _ _ rfl)

theorem sizes_of_run {updates : List Update} {update : Update} {metric : Metric}
    (h : run fuel names spec (update :: updates) = some metric)
    : spec.toStatsMetricSpec.numElements < 2 ^ 32 ∧ nlabels spec < 2 ^ 32 := by
  obtain ⟨allocated, halloc, h⟩ := Option.bind_eq_some_iff.mp h
  obtain ⟨attached, hattach, h⟩ := Option.bind_eq_some_iff.mp h
  rw [List.foldlM_cons] at h
  obtain ⟨updated, hupdate, _⟩ := Option.bind_eq_some_iff.mp h
  obtain ⟨hnelements, hlabels⟩ := sizes_of_statsMetricAlloc halloc
  obtain ⟨hlt, hattached, hattached'⟩ := numElements_of_statsMetricAttach hattach
  rw [← hnelements, ← hlabels, ← hattached']
  refine ⟨hlt, ?_⟩
  apply length_of_statsBlockUpdateMetric _ hupdate
  rw [hattached, hnelements]
  exact spec.numElements_pos

end Run

section Exports

-- One sample for each element and no other, its value under the element's own labels
structure Exported (spec : Spec) (names : Names) (last : Update) (metric : Metric) : Prop where
  length_eq : metric.elements.length = spec.toStatsMetricSpec.numElements
  record_eq : ∀ n e, metric.elements[n]? = some e → ∀ i < nlabels spec,
    metric.records[e.labels + i]? =
      (allLabels spec)[i]?.map (labelRecord (names.format (UInt32.ofNat n)))
  keys_eq : ∀ n, metric.gauge.keys = (ownLabels spec names n).map (·.key)
  sample_eq : ∀ n e, metric.elements[n]? = some e →
    e.f64 = last.convert e.u64 ∧ metric.gauge.samples (tuple spec names n) = some e.f64
  sampled : ∀ values, (metric.gauge.samples values).isSome →
    ∃ n < spec.toStatsMetricSpec.numElements, values = tuple spec names n
  distinct : ∀ n < spec.toStatsMetricSpec.numElements, ∀ m < spec.toStatsMetricSpec.numElements,
    n ≠ m → tuple spec names n ≠ tuple spec names m

-- Where the label records of the elements are in the allocation
structure LaidOut (sizes : Sizes) (spec : Spec) (metric : Metric) : Prop where
  inside : ∀ e ∈ metric.elements, ∀ i < nlabels spec,
    labelsOffset sizes spec ≤ recordOffset sizes spec e i ∧
      recordOffset sizes spec e i + sizes.label ≤ allocSize sizes spec
  apart : ∀ (n m : Nat) e e', metric.elements[n]? = some e → metric.elements[m]? = some e' → n ≠ m →
    ∀ i < nlabels spec, ∀ j < nlabels spec,
      recordOffset sizes spec e i + sizes.label ≤ recordOffset sizes spec e' j ∨
        recordOffset sizes spec e' j + sizes.label ≤ recordOffset sizes spec e i

def ExportsOwnLabels (sizes : Sizes) (spec : Spec) : Prop :=
  ∀ names updates last, ∃ least, ∀ fuel ≥ least, ∃ metric,
    run fuel names spec (updates ++ [last]) = some metric ∧
      Exported spec names last metric ∧ LaidOut sizes spec metric

variable {sizes : Sizes} {spec : Spec} {names : Names} {last : Update} {metric : Metric}

theorem Published.exported (hlt : spec.toStatsMetricSpec.numElements < 2 ^ 32)
    (h : Published spec names last spec.toStatsMetricSpec.numElements metric)
    : Exported spec names last metric := by
  have hbound : ∀ n e, metric.elements[n]? = some e → n < spec.toStatsMetricSpec.numElements := by
    intro n e he
    obtain ⟨hn, _⟩ := List.getElem?_eq_some_iff.mp he
    rw [← h.attached.length_elements]
    exact hn
  constructor
  . exact h.attached.length_elements
  . intro n e he i hi
    rw [h.attached.position_eq n e he]
    exact h.attached.filled.record_eq n (hbound n e he) i hi
  . intro n
    rw [h.attached.keys_eq, ownLabels, List.map_map]
    rfl
  . intro n e he
    exact h.sample_eq n (hbound n e he) e he
  . exact h.attached.sampled
  . intro n hn m hm hne heq
    exact hne (tuple_injective hlt hn hm heq)

theorem recordOffset_le {e e' : Element} {n m i j : Nat} (he : e.labels = n * nlabels spec)
    (he' : e'.labels = m * nlabels spec) (hlt : n < m) (hi : i < nlabels spec)
    : recordOffset sizes spec e i + sizes.label ≤ recordOffset sizes spec e' j := by
  have hblock : n * nlabels spec + i + 1 ≤ m * nlabels spec + j := by
    have := block_lt hlt hi
    omega
  have hmul := Nat.mul_le_mul_right sizes.label hblock
  rw [Nat.succ_mul] at hmul
  unfold recordOffset
  rw [he, he']
  omega

theorem recordOffset_le_endOffset {e : Element} {n i : Nat} (he : e.labels = n * nlabels spec)
    (hn : n < spec.toStatsMetricSpec.numElements) (hi : i < nlabels spec)
    : recordOffset sizes spec e i + sizes.label ≤ endOffset sizes spec := by
  have hmul := Nat.mul_le_mul_right sizes.label (block_lt hn hi)
  rw [Nat.succ_mul] at hmul
  unfold recordOffset endOffset labelsOffset
  rw [he]
  omega

theorem Attached.laidOut (hsize : endOffset sizes spec < 2 ^ 64)
    (h : Attached spec names metric)
    : LaidOut sizes spec metric := by
  constructor
  . intro e he i hi
    obtain ⟨n, hn, hget⟩ := List.getElem_of_mem he
    have hposition := h.position_eq n e (List.getElem?_eq_some_iff.mpr ⟨hn, hget⟩)
    rw [h.length_elements] at hn
    refine ⟨Nat.le_add_right .., ?_⟩
    rw [allocSize, Nat.mod_eq_of_lt hsize]
    exact recordOffset_le_endOffset hposition hn hi
  . intro n m e e' he he' hne i hi j hj
    rcases Nat.lt_or_gt_of_ne hne with hlt | hgt
    . left
      exact recordOffset_le (h.position_eq n e he) (h.position_eq m e' he') hlt hi
    . right
      exact recordOffset_le (h.position_eq m e' he') (h.position_eq n e he) hgt hj

-- The last record of the last element ends where the allocation should
theorem endOffset_of_laidOut (h : Attached spec names metric) (hlaid : LaidOut sizes spec metric)
    : endOffset sizes spec < 2 ^ 64 := by
  have hpos := spec.numElements_pos
  have hlabels := nlabels_pos spec
  have hlen : spec.toStatsMetricSpec.numElements - 1 < metric.elements.length := by
    rw [h.length_elements]
    omega
  have hget := List.getElem?_eq_getElem hlen
  have hinside := (hlaid.inside _ (List.getElem_mem hlen) (nlabels spec - 1) (by omega)).2
  have hmod : endOffset sizes spec % 2 ^ 64 < 2 ^ 64 := Nat.mod_lt _ (by decide)
  have hlast : recordOffset sizes spec metric.elements[spec.toStatsMetricSpec.numElements - 1]
      (nlabels spec - 1) + sizes.label = endOffset sizes spec := by
    have hle : nlabels spec ≤ spec.toStatsMetricSpec.numElements * nlabels spec :=
      Nat.le_mul_of_pos_left _ hpos
    have hrecords : (spec.toStatsMetricSpec.numElements - 1) * nlabels spec + (nlabels spec - 1) + 1 =
        spec.toStatsMetricSpec.numElements * nlabels spec := by
      rw [Nat.sub_mul, Nat.one_mul]
      omega
    unfold recordOffset endOffset labelsOffset
    rw [h.position_eq _ _ hget, ← hrecords, Nat.succ_mul]
    omega
  rw [hlast, allocSize] at hinside
  omega

theorem exportsOwnLabels_iff (sizes : Sizes) (spec : Spec)
    : ExportsOwnLabels sizes spec ↔
        spec.toStatsMetricSpec.numElements < 2 ^ 32 ∧ nlabels spec < 2 ^ 32 ∧
          endOffset sizes spec < 2 ^ 64 := by
  constructor
  . intro h
    let names : Names := { domain := [], zone := [], block := [], metric := [] }
    let last : Update := { readings := fun _ => 0, doClear := fun _ => false, convert := id }
    obtain ⟨least, h⟩ := h names [] last
    obtain ⟨_, hrun, _⟩ := h least (Nat.le_refl least)
    obtain ⟨hlt, hlabels⟩ := sizes_of_run hrun
    refine ⟨hlt, hlabels, ?_⟩
    -- with enough fuel the run is the one that is laid out
    let fuel := least + spec.toStatsMetricSpec.numElements + nlabels spec + 1
    obtain ⟨metric, hrun, _, hlaid⟩ := h fuel (by omega)
    obtain ⟨metric', hrun', hpublished⟩ :=
      @run_published spec fuel hlt hlabels (by omega) (by omega) names [] last
    rw [hrun] at hrun'
    cases hrun'
    exact endOffset_of_laidOut hpublished.attached hlaid
  . rintro ⟨hlt, hlabels, hsize⟩ names updates last
    refine ⟨spec.toStatsMetricSpec.numElements + nlabels spec + 1, ?_⟩
    intro fuel hfuel
    obtain ⟨metric, hrun, hpublished⟩ :=
      @run_published spec fuel hlt hlabels (by omega) (by omega) names updates last
    exact ⟨metric, hrun, hpublished.exported hlt, hpublished.attached.laidOut hsize⟩

-- An array whose elements an `unsigned int` cannot count
def hugeSpec : Spec :=
  { name := text ['b', 'y', 't', 'e', 's']
    nelements := 2 ^ 32
    type := .counter
    flags := 4
    initValue := 0
    labels := []
    numElements_pos := by decide }

theorem not_exportsOwnLabels_hugeSpec
    : ¬ ExportsOwnLabels { metric := 192, element := 40, labelSpec := 32, label := 16 }
        hugeSpec := by
  intro h
  obtain ⟨least, h⟩ := h { domain := [], zone := [], block := [], metric := [] } []
    { readings := fun _ => 0, doClear := fun _ => false, convert := id }
  obtain ⟨_, hrun, _⟩ := h least (Nat.le_refl least)
  have hlt := (sizes_of_run hrun).1
  have heq : hugeSpec.toStatsMetricSpec.numElements = 2 ^ 32 := by decide
  omega

end Exports

end StatsExport
