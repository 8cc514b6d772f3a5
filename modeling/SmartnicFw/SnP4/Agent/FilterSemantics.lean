import SmartnicFw.OpenNic.Stats.Accumulate
import SmartnicFw.SnP4.Agent.LongStep
import SmartnicFw.SnP4.Agent.MetricFilter

/-!
This module contains the meaning of a statistics filter for a single element, and when the
evaluation for all elements at once agrees with it.
-/

open SnP4V2 (StatsMetricMatchString StatsMetricMatch StatsMetricFilter StatsMetricFilterTerm
  StatsFilters)

section Meaning

variable (re : Regex) (spec : StatsForEachSpec) (type : SnP4V2.StatsMetricType)

def SnP4V2.StatsMetricMatch.Holds (m : StatsMetricMatch) (i : Nat) : Prop :=
  match m with
  | .notSet => True
  | .type t => type = t
  | .domain m => m.Holds re spec.domain.name
  | .zone m => m.Holds re spec.zone.name
  | .block m => m.Holds re spec.block.name
  | .name m => m.Holds re spec.metric.name
  | .indices slices =>
    if statsMetricFlagTest spec.metric.flags .array then
      ∃ s ∈ slices, s.Selects spec.nvalues i
    else
      slices = []
  | .label key value =>
    ∃ v, spec.values[i]? = some v ∧ ∃ l ∈ v.labels,
      (∀ k, key = some k → k.Holds re l.key) ∧ (∀ k, value = some k → k.Holds re l.value)

mutual

def SnP4V2.StatsMetricFilter.Holds (filter : StatsMetricFilter) (i : Nat) : Prop :=
  match filter with
  | .mk true term => ¬ term.Holds i
  | .mk false term => term.Holds i

def SnP4V2.StatsMetricFilterTerm.Holds (term : StatsMetricFilterTerm) (i : Nat) : Prop :=
  match term with
  | .notSet => True
  | .ofMatch m => m.Holds re spec type i
  | .anySet members => members = [] ∨ AnyFilterHolds members i
  | .allSet members => AllFiltersHold members i

def AnyFilterHolds (members : List StatsMetricFilter) (i : Nat) : Prop :=
  match members with
  | [] => False
  | member :: members => member.Holds i ∨ AnyFilterHolds members i

def AllFiltersHold (members : List StatsMetricFilter) (i : Nat) : Prop :=
  match members with
  | [] => True
  | member :: members => member.Holds i ∧ AllFiltersHold members i

end

theorem anyFilterHolds_iff (members : List StatsMetricFilter) (i : Nat)
    : AnyFilterHolds re spec type members i ↔ ∃ member ∈ members, member.Holds re spec type i := by
  induction members with
  | nil => simp [AnyFilterHolds]
  | cons member members ih => simp [AnyFilterHolds, ih]

theorem allFiltersHold_iff (members : List StatsMetricFilter) (i : Nat)
    : AllFiltersHold re spec type members i ↔ ∀ member ∈ members, member.Holds re spec type i := by
  induction members with
  | nil => simp [AllFiltersHold]
  | cons member members ih => simp [AllFiltersHold, ih]

end Meaning

section Slices

mutual

-- All slices that occur in a filter
def SnP4V2.StatsMetricFilter.slices (filter : StatsMetricFilter)
    : List StatsMetricMatchIndexSlice :=
  match filter with
  | .mk _ term => term.slices

def SnP4V2.StatsMetricFilterTerm.slices (term : StatsMetricFilterTerm)
    : List StatsMetricMatchIndexSlice :=
  match term with
  | .ofMatch (.indices slices) => slices
  | .ofMatch _ => []
  | .anySet members => slicesOfMembers members
  | .allSet members => slicesOfMembers members
  | .notSet => []

def slicesOfMembers (members : List StatsMetricFilter) : List StatsMetricMatchIndexSlice :=
  match members with
  | [] => []
  | member :: members => member.slices ++ slicesOfMembers members

end

end Slices

-- The bits that are set are those of the elements with a property
def BitArray.Marks {nbits : Nat} (v : BitArray nbits) (p : Nat → Prop) : Prop :=
  ∀ i < nbits, v.isBitSet i = true ↔ p i

namespace BitArray

variable {nbits : Nat} {v rhs : BitArray nbits} {p q : Nat → Prop}

theorem Marks.congr (hv : v.Marks p) (h : ∀ i < nbits, p i ↔ q i) : v.Marks q := by
  intro i hi
  rw [hv i hi, h i hi]

theorem marks_new (h : 0 < nbits) : (new nbits h).Marks fun _ => False := by
  intro i hi
  simp

theorem marks_clearAll (v : BitArray nbits) : v.clearAll.Marks fun _ => False := by
  intro i hi
  simp

theorem marks_setAll (v : BitArray nbits) : v.setAll.Marks fun _ => True := by
  intro i hi
  simp [hi]

theorem marks_assignAll (v : BitArray nbits) (b : Bool)
    : (v.assignAll b).Marks fun _ => b = true := by
  intro i hi
  simp [hi]

theorem Marks.negateAll (hv : v.Marks p) : v.negateAll.Marks fun i => ¬ p i := by
  intro i hi
  show v.negateAll.isBitSet i = true ↔ ¬ p i
  rw [isBitSet_negateAll, ← hv i hi]
  simp [hi]

theorem Marks.orAssign (hv : v.Marks p) (hrhs : rhs.Marks q)
    : (v.orAssign rhs).Marks fun i => p i ∨ q i := by
  intro i hi
  rw [isBitSet_orAssign, Bool.or_eq_true, hv i hi, hrhs i hi]

theorem Marks.andAssign (hv : v.Marks p) (hrhs : rhs.Marks q)
    : (v.andAssign rhs).Marks fun i => p i ∧ q i := by
  intro i hi
  rw [isBitSet_andAssign, Bool.and_eq_true, hv i hi, hrhs i hi]

theorem Marks.isAllSet (hv : v.Marks p) : v.isAllSet = true ↔ ∀ i < nbits, p i := by
  rw [isAllSet_iff]
  exact forall₂_congr hv

theorem Marks.isAllCleared (hv : v.Marks p) : v.isAllCleared = true ↔ ∀ i < nbits, ¬ p i := by
  rw [isAllCleared_iff]
  apply forall₂_congr
  intro i hi
  rw [← hv i hi, Bool.not_eq_true]

end BitArray

-- A slice that the loop has the fuel for, on an array that an `int` can count
def StatsMetricMatchIndexSlice.FitsWithin (s : StatsMetricMatchIndexSlice) (fuel nbits : Nat)
    : Prop :=
  nbits < 2 ^ 31 ∧ applyMetricFilterMatchIndices.sliceFuel ≤ fuel ∧ s.FitsAny nbits

section Leaves

variable {re : Regex} {fuel : Nat} {spec : StatsForEachSpec}

theorem applyMetricFilterMatchIndices.go_of_fits {nbits : Nat}
    {slices : List StatsMetricMatchIndexSlice} (hslices : ∀ s ∈ slices, s.FitsWithin fuel nbits)
    {v : BitArray nbits} {p : Nat → Prop} (hv : v.Marks p)
    : ∃ v', go fuel slices v = some v' ∧
        v'.Marks fun i => p i ∨ ∃ s ∈ slices, s.Selects nbits i := by
  induction slices generalizing v p with
  | nil => exact ⟨v, rfl, hv.congr (by simp)⟩
  | cons s slices ih =>
    obtain ⟨hsmall, hfuel, hfits⟩ := hslices s (by simp)
    obtain ⟨v', hslice, hbits⟩ := slice_of_fitsAny hsmall hfits hfuel v
    have hv' : v'.Marks fun i => p i ∨ s.Selects nbits i := by
      intro i hi
      rw [hbits i, hv i hi]
    obtain ⟨v'', hgo, hmarks⟩ := ih (fun s hs => hslices s (by simp [hs])) hv'
    refine ⟨v'', ?_, hmarks.congr (by simp [or_assoc])⟩
    rw [go, hslice]
    exact hgo

theorem applyMetricFilterMatchLabel.labelMatches_iff (key value : Option StatsMetricMatchString)
    (l : StatsLabel)
    : labelMatches re key value l = true ↔
        (∀ k, key = some k → k.Holds re l.key) ∧ (∀ k, value = some k → k.Holds re l.value) := by
  cases key <;> cases value <;>
    simp [labelMatches, applyMetricFilterMatchString_iff]

theorem applyMetricFilterMatchLabel.go_marks {nbits : Nat}
    (key value : Option StatsMetricMatchString) (values : List StatsMetricValue) (n : Nat)
    {v : BitArray nbits} {p : Nat → Prop} (hv : v.Marks p)
    : (go re key value values n v).Marks fun i => p i ∨ ∃ x, n ≤ i ∧ values[i - n]? = some x ∧
        ∃ l ∈ x.labels, labelMatches re key value l = true := by
  induction values generalizing n v p with
  | nil => exact hv.congr (by simp)
  | cons x values ih =>
    -- The element `n` is the one at hand, the later ones are those of the rest
    have hsplit : ∀ i, (∃ y, n ≤ i ∧ (x :: values)[i - n]? = some y ∧
          ∃ l ∈ y.labels, labelMatches re key value l = true) ↔
        (i = n ∧ ∃ l ∈ x.labels, labelMatches re key value l = true) ∨
          ∃ y, n + 1 ≤ i ∧ values[i - (n + 1)]? = some y ∧
            ∃ l ∈ y.labels, labelMatches re key value l = true := by
      intro i
      rcases Nat.lt_trichotomy i n with hlt | rfl | hgt
      . simp [show ¬ n ≤ i by omega, show ¬ n + 1 ≤ i by omega, show ¬ i = n by omega]
      . simp
      . obtain ⟨d, rfl⟩ : ∃ d, i = n + 1 + d := ⟨i - (n + 1), by omega⟩
        have hsub : n + 1 + d - n = d + 1 := by omega
        have hsub' : n + 1 + d - (n + 1) = d := by omega
        simp [hsub, hsub', show n ≤ n + 1 + d by omega, show ¬ n + 1 + d = n by omega]
    simp only [hsplit]
    unfold go
    cases hany : x.labels.any (labelMatches re key value) with
    | true =>
      have hset : (v.assignBit n true).Marks fun i => p i ∨ i = n := by
        intro i hi
        simp [BitArray.assignBit, hv i hi, hi]
      apply (ih (n + 1) hset).congr
      intro i hi
      rw [List.any_eq_true] at hany
      simp [hany, or_assoc]
    | false =>
      apply (ih (n + 1) hv).congr
      intro i hi
      have hno : ¬ ∃ l ∈ x.labels, labelMatches re key value l = true := by
        rw [← List.any_eq_true, hany]
        decide
      simp [hno]

variable (re) in
theorem applyMetricFilterMatch_of_fits {m : StatsMetricMatch} (type : SnP4V2.StatsMetricType)
    (hslices : statsMetricFlagTest spec.metric.flags .array = true →
      ∀ s ∈ (StatsMetricFilterTerm.ofMatch m).slices, s.FitsWithin fuel spec.nvalues)
    {v : BitArray spec.nvalues} (hv : v.Marks fun _ => False)
    : ∃ v', applyMetricFilterMatch re fuel spec m type v = some v' ∧
        v'.Marks (m.Holds re spec type) := by
  cases m with
  | notSet => exact ⟨_, rfl, (v.marks_assignAll true).congr (by simp [StatsMetricMatch.Holds])⟩
  | type t =>
    refine ⟨_, rfl, (v.marks_assignAll _).congr ?_⟩
    intro i hi
    rw [beq_iff_eq, StatsMetricMatch.Holds]
    exact eq_comm
  | domain m =>
    refine ⟨_, rfl, (v.marks_assignAll _).congr ?_⟩
    intro i hi
    exact applyMetricFilterMatchString_iff re m _
  | zone m =>
    refine ⟨_, rfl, (v.marks_assignAll _).congr ?_⟩
    intro i hi
    exact applyMetricFilterMatchString_iff re m _
  | block m =>
    refine ⟨_, rfl, (v.marks_assignAll _).congr ?_⟩
    intro i hi
    exact applyMetricFilterMatchString_iff re m _
  | name m =>
    refine ⟨_, rfl, (v.marks_assignAll _).congr ?_⟩
    intro i hi
    exact applyMetricFilterMatchString_iff re m _
  | indices slices =>
    cases harray : statsMetricFlagTest spec.metric.flags .array with
    | true =>
      have hslices : ∀ s ∈ slices, s.FitsWithin fuel spec.nvalues := hslices harray
      obtain ⟨v', hgo, hmarks⟩ := applyMetricFilterMatchIndices.go_of_fits hslices hv
      refine ⟨v', ?_, hmarks.congr ?_⟩
      . simp only [applyMetricFilterMatch, applyMetricFilterMatchIndices, harray]
        exact hgo
      . simp [StatsMetricMatch.Holds, harray]
    | false =>
      refine ⟨v.assignAll (slices.length < 1), ?_, (v.marks_assignAll _).congr ?_⟩
      . simp only [applyMetricFilterMatch, applyMetricFilterMatchIndices, harray]
        rfl
      . simp [StatsMetricMatch.Holds, harray]
  | label key value =>
    refine ⟨_, rfl, (applyMetricFilterMatchLabel.go_marks key value spec.values 0 hv).congr ?_⟩
    intro i hi
    simp [StatsMetricMatch.Holds, applyMetricFilterMatchLabel.labelMatches_iff]

end Leaves

section Trees

variable (re : Regex) {fuel : Nat} {spec : StatsForEachSpec} (type : SnP4V2.StatsMetricType)

mutual

theorem applyMetricFilter_of_fits (filter : StatsMetricFilter)
    (hslices : statsMetricFlagTest spec.metric.flags .array = true →
      ∀ s ∈ filter.slices, s.FitsWithin fuel spec.nvalues)
    {v : BitArray spec.nvalues} (hv : v.Marks fun _ => False)
    : ∃ v', applyMetricFilter re fuel spec filter type v = some v' ∧
        v'.Marks (filter.Holds re spec type) := by
  cases filter with
  | mk negated term =>
    obtain ⟨v', hterm, hmarks⟩ := applyMetricFilterTerm_of_fits term hslices hv
    cases negated with
    | true =>
      refine ⟨v'.negateAll, ?_, hmarks.negateAll.congr (by simp [StatsMetricFilter.Holds])⟩
      rw [applyMetricFilter, hterm]
      rfl
    | false =>
      refine ⟨v', ?_, hmarks.congr (by simp [StatsMetricFilter.Holds])⟩
      rw [applyMetricFilter, hterm]
      rfl

theorem applyMetricFilterTerm_of_fits (term : StatsMetricFilterTerm)
    (hslices : statsMetricFlagTest spec.metric.flags .array = true →
      ∀ s ∈ term.slices, s.FitsWithin fuel spec.nvalues)
    {v : BitArray spec.nvalues} (hv : v.Marks fun _ => False)
    : ∃ v', applyMetricFilterTerm re fuel spec term type v = some v' ∧
        v'.Marks (term.Holds re spec type) := by
  cases term with
  | notSet =>
    refine ⟨v.setAll, ?_, v.marks_setAll.congr (by simp [StatsMetricFilterTerm.Holds])⟩
    rw [applyMetricFilterTerm]
  | ofMatch m =>
    obtain ⟨v', hmatch, hmarks⟩ := applyMetricFilterMatch_of_fits re type hslices hv
    refine ⟨v', ?_, hmarks.congr (by simp [StatsMetricFilterTerm.Holds])⟩
    rw [applyMetricFilterTerm, hmatch]
  | anySet members =>
    cases members with
    | nil =>
      refine ⟨v.setAll, ?_, v.marks_setAll.congr (by simp [StatsMetricFilterTerm.Holds])⟩
      rw [applyMetricFilterTerm]
      rfl
    | cons member members =>
      obtain ⟨v', hloop, hmarks⟩ := applyMetricFilterAnySet_of_fits
        (member :: members) hslices hv (BitArray.marks_new v.nbits_pos)
      refine ⟨v', ?_, hmarks.congr (by simp [StatsMetricFilterTerm.Holds])⟩
      rw [applyMetricFilterTerm]
      exact hloop
  | allSet members =>
    cases members with
    | nil =>
      refine ⟨v.setAll, ?_, v.marks_setAll.congr ?_⟩
      . rw [applyMetricFilterTerm]
        rfl
      . simp [StatsMetricFilterTerm.Holds, AllFiltersHold]
    | cons member members =>
      obtain ⟨v', hloop, hmarks⟩ := applyMetricFilterAllSet_of_fits
        (member :: members) hslices v.marks_setAll (BitArray.marks_new v.setAll.nbits_pos)
      refine ⟨v', ?_, hmarks.congr (by simp [StatsMetricFilterTerm.Holds])⟩
      rw [applyMetricFilterTerm]
      exact hloop

theorem applyMetricFilterAnySet_of_fits (members : List StatsMetricFilter)
    (hslices : statsMetricFlagTest spec.metric.flags .array = true →
      ∀ s ∈ slicesOfMembers members, s.FitsWithin fuel spec.nvalues)
    {valid v : BitArray spec.nvalues} {p : Nat → Prop} (hvalid : valid.Marks p)
    (hv : v.Marks fun _ => False)
    : ∃ v', applyMetricFilterAnySet re fuel spec members type valid v = some v' ∧
        v'.Marks fun i => p i ∨ AnyFilterHolds re spec type members i := by
  cases members with
  | nil =>
    refine ⟨valid, ?_, hvalid.congr (by simp [AnyFilterHolds])⟩
    rw [applyMetricFilterAnySet]
  | cons member members =>
    obtain ⟨v', hmember, hmarks⟩ := applyMetricFilter_of_fits member
      (fun harray s hs => hslices harray s (by simp [slicesOfMembers, hs])) hv
    have hor := hvalid.orAssign hmarks
    rw [applyMetricFilterAnySet, hmember]
    show ∃ v'', (if (valid.orAssign v').isAllSet then some (valid.orAssign v') else _) = some v'' ∧ _
    by_cases hall : (valid.orAssign v').isAllSet = true
    . rw [if_pos hall]
      refine ⟨_, rfl, hor.congr ?_⟩
      intro i hi
      -- Every bit is set already, the other members can add nothing
      have hset := hor.isAllSet.mp hall i hi
      simp only [AnyFilterHolds]
      tauto
    . rw [if_neg hall]
      obtain ⟨v'', hloop, hrest⟩ := applyMetricFilterAnySet_of_fits members
        (fun harray s hs => hslices harray s (by simp [slicesOfMembers, hs])) hor v'.marks_clearAll
      exact ⟨v'', hloop, hrest.congr (by simp [AnyFilterHolds, or_assoc])⟩

theorem applyMetricFilterAllSet_of_fits (members : List StatsMetricFilter)
    (hslices : statsMetricFlagTest spec.metric.flags .array = true →
      ∀ s ∈ slicesOfMembers members, s.FitsWithin fuel spec.nvalues)
    {valid v : BitArray spec.nvalues} {p : Nat → Prop} (hvalid : valid.Marks p)
    (hv : v.Marks fun _ => False)
    : ∃ v', applyMetricFilterAllSet re fuel spec members type valid v = some v' ∧
        v'.Marks fun i => p i ∧ AllFiltersHold re spec type members i := by
  cases members with
  | nil =>
    refine ⟨valid, ?_, hvalid.congr (by simp [AllFiltersHold])⟩
    rw [applyMetricFilterAllSet]
  | cons member members =>
    obtain ⟨v', hmember, hmarks⟩ := applyMetricFilter_of_fits member
      (fun harray s hs => hslices harray s (by simp [slicesOfMembers, hs])) hv
    have hand := hvalid.andAssign hmarks
    rw [applyMetricFilterAllSet, hmember]
    show ∃ v'', (if (valid.andAssign v').isAllCleared then some (valid.andAssign v') else _) =
      some v'' ∧ _
    by_cases hall : (valid.andAssign v').isAllCleared = true
    . rw [if_pos hall]
      refine ⟨_, rfl, hand.congr ?_⟩
      intro i hi
      have hclear := hand.isAllCleared.mp hall i hi
      simp only [AllFiltersHold]
      tauto
    . rw [if_neg hall]
      obtain ⟨v'', hloop, hrest⟩ := applyMetricFilterAllSet_of_fits members
        (fun harray s hs => hslices harray s (by simp [slicesOfMembers, hs])) hand
        v'.marks_clearAll
      exact ⟨v'', hloop, hrest.congr (by simp [AllFiltersHold, and_assoc])⟩

end

end Trees
