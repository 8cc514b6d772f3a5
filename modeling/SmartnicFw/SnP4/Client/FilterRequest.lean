import SmartnicFw.SnP4.Agent.ClearStats
import SmartnicFw.SnP4.Client.FilterFaithful

/-!
This module contains when the request that the client makes of filter expressions, metric types and
units is evaluated by the agent as it reads.
-/

namespace FilterExpr

open SnP4V2 (StatsMetricFilter StatsFilters)

theorem mem_slicesOfMembers {fs : List StatsMetricFilter} {s : StatsMetricMatchIndexSlice}
    : s ∈ slicesOfMembers fs ↔ ∃ f ∈ fs, s ∈ f.slices := by
  induction fs with
  | nil => simp [slicesOfMembers]
  | cons f fs ih => simp [slicesOfMembers, ih]

section Slices

variable {Q : StatsMetricMatchIndexSlice → Prop} {messages : List Message}

end Slices

section Agent

variable (re : Regex) (spec : StatsForEachSpec) (type : SnP4V2.StatsMetricType)

variable {re spec type}

variable (re spec type) in
theorem holds_types {mts : List String} {ts : List StatsMetricFilter}
    (h : mts.mapM typeFilter = some ts) (hne : mts ≠ []) (i : Nat)
    : (StatsMetricFilter.mk false (.anySet ts)).Holds re spec type i ↔
        ∃ mt ∈ mts, metricTypeRmap mt = some type := by
  have htypes := forall₂_of_mapM h
  have hts := ne_nil_of_mapM h hne
  simp only [StatsMetricFilter.Holds, SnP4V2.StatsMetricFilterTerm.Holds, hts, false_or,
    anyFilterHolds_iff]
  clear h hne hts
  induction htypes with
  | nil => simp
  | @cons mt t mts ts hmt _ ih =>
    obtain ⟨type', htype', hmt⟩ := Option.bind_eq_some_iff.mp hmt
    cases hmt
    simp [ih, htype', StatsMetricFilter.Holds, SnP4V2.StatsMetricFilterTerm.Holds,
      SnP4V2.StatsMetricMatch.Holds, eq_comm]

variable (re spec type) in
theorem holds_units {us : List (List UInt8)} (hne : us ≠ []) (i : Nat)
    : (StatsMetricFilter.mk false (.anySet (us.map unitsFilter))).Holds re spec type i ↔
        ∃ u ∈ us, ∃ v, spec.values[i]? = some v ∧
          ∃ l ∈ v.labels, l.key = unitsKey ∧ l.value = u := by
  simp only [StatsMetricFilter.Holds, SnP4V2.StatsMetricFilterTerm.Holds, List.map_eq_nil_iff, hne,
    false_or, anyFilterHolds_iff, List.mem_map, exists_exists_and_eq_and]
  simp [unitsFilter, StatsMetricFilter.Holds, SnP4V2.StatsMetricFilterTerm.Holds,
    SnP4V2.StatsMetricMatch.Holds, SnP4V2.StatsMetricMatchString.Holds]

theorem mapM_filterMember {ms : List Message} {filters : List StatsMetricFilter}
    (h : ms.mapM filterMember = some filters)
    : ms = filters.map Message.filter := by
  have hmembers := forall₂_of_mapM h
  clear h
  induction hmembers with
  | nil => rfl
  | @cons m f ms filters hm _ ih =>
    cases m with
    | filter filter =>
      cases hm
      rw [ih, List.map_cons]
    | part part => contradiction
    | string string => contradiction

theorem slicesOfMembers_append (fs gs : List StatsMetricFilter)
    : slicesOfMembers (fs ++ gs) = slicesOfMembers fs ++ slicesOfMembers gs := by
  induction fs with
  | nil => rfl
  | cons f fs ih => simp [slicesOfMembers, ih]

theorem not_mem_slices_types {mts : List String} {ts : List StatsMetricFilter}
    (h : mts.mapM typeFilter = some ts) (s : StatsMetricMatchIndexSlice)
    : s ∉ slicesOfMembers ts := by
  have htypes := forall₂_of_mapM h
  clear h
  induction htypes with
  | nil => simp [slicesOfMembers]
  | @cons mt t mts ts hmt _ ih =>
    obtain ⟨type', -, hmt⟩ := Option.bind_eq_some_iff.mp hmt
    cases hmt
    simpa [slicesOfMembers, StatsMetricFilter.slices, SnP4V2.StatsMetricFilterTerm.slices] using ih

variable (re spec type) in
theorem holds_root {kargs : StatsKargs} {members : List StatsMetricFilter}
    (h : rootMembers kargs = some members)
    : ∃ filters : List StatsMetricFilter, kargs.filters = filters.map Message.filter ∧
        (∀ s ∈ slicesOfMembers members, s ∈ slicesOfMembers filters) ∧
        ∀ i, (StatsMetricFilter.mk false (.allSet members)).Holds re spec type i ↔
          (∀ f ∈ filters, f.Holds re spec type i) ∧
            (kargs.metricTypes ≠ [] → ∃ mt ∈ kargs.metricTypes, metricTypeRmap mt = some type) ∧
            (kargs.units ≠ [] → ∃ u ∈ kargs.units, ∃ v, spec.values[i]? = some v ∧
              ∃ l ∈ v.labels, l.key = unitsKey ∧ l.value = u) := by
  simp only [rootMembers, Option.bind_eq_bind, Option.bind_eq_some_iff, Option.pure_def] at h
  obtain ⟨filters, hfilters, ts, htypes, h⟩ := h
  cases h
  refine ⟨filters, mapM_filterMember hfilters, ?_, ?_⟩
  . intro s hs
    rw [slicesOfMembers_append, slicesOfMembers_append, List.mem_append, List.mem_append] at hs
    rcases hs with (hs | hs) | hs
    . exact hs
    . split at hs
      . contradiction
      . rw [slicesOfMembers, slicesOfMembers, List.append_nil] at hs
        exact absurd hs (not_mem_slices_types htypes s)
    . split at hs
      . contradiction
      . rw [slicesOfMembers, slicesOfMembers, List.append_nil] at hs
        obtain ⟨f, hf, hs⟩ := mem_slicesOfMembers.mp hs
        obtain ⟨u, -, rfl⟩ := List.mem_map.mp hf
        contradiction
  . intro i
    simp only [StatsMetricFilter.Holds, SnP4V2.StatsMetricFilterTerm.Holds, allFiltersHold_iff,
      List.forall_mem_append, and_assoc]
    refine and_congr Iff.rfl (and_congr ?_ ?_)
    . by_cases hne : kargs.metricTypes = []
      . simp [hne]
      . rw [if_neg hne]
        have hholds := holds_types re spec type htypes hne i
        simpa [hne] using hholds
    . by_cases hne : kargs.units = []
      . simp [hne]
      . rw [if_neg hne]
        have hholds := holds_units re spec type hne i
        simpa [hne] using hholds

end Agent

section Examples

end Examples

end FilterExpr
