import SmartnicFw.Lib.Except
import SmartnicFw.SnCfg.Client.ViewFilter
import SmartnicFw.SnP4.Agent.StatsWalk
import SmartnicFw.SnP4.Client.FilterRequest

/-!
This module contains the requests for views (`stats_view_req` of `stats.py`): which elements the agent
selects for them, and which it clears. The filters of the two agents are the same code.
-/

namespace StatsViewReq

open P4bm (Text)
open Utf8 (encode)
open SnP4V2 (StatsMetricFilter StatsFilters SplitPart)
open FilterExpr (Message)
open ViewFilter (AgentFollows FilterMatchesBytes)

def viewsKey : List UInt8 := encode ['v', 'i', 'e', 'w', 's']

def packets : List UInt8 := encode ['p', 'a', 'c', 'k', 'e', 't', 's']

def bytes : List UInt8 := encode ['b', 'y', 't', 'e', 's']

def viewPart (vf : Text) : SplitPart :=
  .mk false (.ofMatch (.value (.regexp { grammar := .unknown, pattern := encode vf })))

-- Without filters the match of the parts is not set
def viewsFilter (viewFilters : List Text) : StatsMetricFilter :=
  .mk false (.ofMatch (.label (some (.exact viewsKey)) (some (.split (encode [',']) true
    (.mk false (if viewFilters = [] then .notSet else .anySet (viewFilters.map viewPart)))))))

-- The filters, metric types and units that are given are replaced
def viewed (viewFilters : List Text) (withBytes : Bool) (kargs : StatsKargs) : StatsKargs :=
  { kargs with
    filters := [.filter (viewsFilter viewFilters)]
    labels := true
    metricTypes := ["counter"]
    units := packets :: if withBytes then [bytes] else [] }

def statsViewReq (viewFilters : List Text) (withBytes : Bool) (kargs : StatsKargs)
    : Option StatsFilters :=
  statsReqKargs (viewed viewFilters withBytes kargs)

-- What the commands are given that have an option for view filters
def viewKargs (zeroes : Bool) : StatsKargs :=
  { filters := [], metricTypes := [], units := [], zeroes, labels := false, aliases := false }

def showStatsViewReq (viewFilters : List Text) (withBytes zeroes : Bool) : Option StatsFilters :=
  statsViewReq viewFilters withBytes (viewKargs zeroes)

def rpcClearStatsView (viewFilters : List Text) : Option StatsFilters :=
  statsViewReq viewFilters true (viewKargs false)

-- The batch command has the options of `clear-stats`
def batchClearStatsView (kargs : StatsKargs) : Option StatsFilters :=
  statsViewReq [] true kargs

section Request

variable (re : Regex) (withBytes : Bool) (spec : StatsForEachSpec)
  (type : SnP4V2.StatsMetricType)

-- A counter of packets, or of bytes when they are asked for, with a views label of some kind
def Viewed (p : List UInt8 → Prop) (i : Nat) : Prop :=
  type = .counter ∧ ∃ v, spec.values[i]? = some v ∧
    (∃ l ∈ v.labels, l.key = unitsKey ∧
      (l.value = packets ∨ withBytes = true ∧ l.value = bytes)) ∧
    ∃ l ∈ v.labels, l.key = viewsKey ∧ p l.value

def PartMatches (viewFilters : List Text) (part : List UInt8) : Prop :=
  viewFilters = [] ∨
    ∃ vf ∈ viewFilters, re.regexMatch (encode vf) .ecmaScript part = true

variable {withBytes spec type} {viewFilters : List Text}

theorem anyPartHolds_map_viewPart (part : List UInt8) (n : Nat)
    : AnyPartHolds re (viewFilters.map viewPart) part n ↔
        ∃ vf ∈ viewFilters, re.regexMatch (encode vf) .ecmaScript part = true := by
  induction viewFilters with
  | nil => simp [AnyPartHolds]
  | cons vf viewFilters ih =>
    rw [List.map_cons, AnyPartHolds, ih, List.exists_mem_cons_iff]
    rfl

theorem holds_viewsFilter (i : Nat)
    : (viewsFilter viewFilters).Holds re spec type i ↔
        ∃ v, spec.values[i]? = some v ∧ ∃ l ∈ v.labels, l.key = viewsKey ∧
          ∃ part ∈ re.split (encode [',']) l.value, PartMatches re viewFilters part := by
  have hpart : ∀ part n, (SplitPart.mk false
      (if viewFilters = [] then .notSet else .anySet (viewFilters.map viewPart))).Holds re part n ↔
        PartMatches re viewFilters part := by
    intro part n
    unfold SplitPart.Holds PartMatches
    by_cases hnil : viewFilters = []
    . rw [if_pos hnil]
      exact iff_of_true trivial (.inl hnil)
    . rw [if_neg hnil, SnP4V2.SplitPartTerm.Holds, anyPartHolds_map_viewPart, List.map_eq_nil_iff]
  have hsplit : ∀ str, (SnP4V2.StatsMetricMatchString.split (encode [',']) true (.mk false
      (if viewFilters = [] then .notSet else .anySet (viewFilters.map viewPart)))).Holds re str ↔
        ∃ part ∈ re.split (encode [',']) str, PartMatches re viewFilters part := by
    intro str
    simp only [SnP4V2.StatsMetricMatchString.Holds, hpart]
    constructor
    . rintro ⟨n, part, hget, hmatches⟩
      exact ⟨part, List.mem_of_getElem? hget, hmatches⟩
    . rintro ⟨part, hmem, hmatches⟩
      obtain ⟨n, hget⟩ := List.mem_iff_getElem?.mp hmem
      exact ⟨n, part, hget, hmatches⟩
  unfold viewsFilter
  simp only [StatsMetricFilter.Holds, SnP4V2.StatsMetricFilterTerm.Holds,
    SnP4V2.StatsMetricMatch.Holds, Option.some.injEq, forall_eq', hsplit]
  rfl

-- All patterns that the agent constructs for a request
def requestPatterns (viewFilters : List Text) : List (List UInt8 × RegexSyntax) :=
  (encode [','], .ecmaScript) :: viewFilters.map fun vf => (encode vf, .ecmaScript)

theorem patternsOfParts_map_viewPart (viewFilters : List Text)
    : SnP4V2.patternsOfParts (viewFilters.map viewPart) =
        viewFilters.map fun vf => (encode vf, .ecmaScript) := by
  induction viewFilters with
  | nil => rfl
  | cons vf viewFilters ih =>
    rw [List.map_cons, SnP4V2.patternsOfParts, ih]
    rfl

theorem patterns_viewsFilter (viewFilters : List Text)
    : (viewsFilter viewFilters).patterns = requestPatterns viewFilters := by
  have hpart : (if viewFilters = [] then SnP4V2.SplitPartTerm.notSet
      else .anySet (viewFilters.map viewPart)).patterns =
        viewFilters.map fun vf => (encode vf, .ecmaScript) := by
    by_cases hnil : viewFilters = []
    . rw [if_pos hnil, hnil]
      rfl
    . rw [if_neg hnil]
      exact patternsOfParts_map_viewPart viewFilters
  exact congrArg (List.cons (encode [','], RegexSyntax.ecmaScript)) hpart

theorem mem_units_iff {u : List UInt8}
    : u ∈ packets :: (if withBytes = true then [bytes] else []) ↔
        u = packets ∨ withBytes = true ∧ u = bytes := by
  cases withBytes <;> simp

theorem exists_root (viewFilters : List Text) (withBytes : Bool) (kargs : StatsKargs)
    : ∃ root : StatsMetricFilter,
        statsViewReq viewFilters withBytes kargs =
          some { nonZero := !kargs.zeroes, metricFilter := some root, withLabels := true } ∧
        root.slices = [] ∧ root.patterns = requestPatterns viewFilters ∧
        ∀ re spec type i, root.Holds re spec type i ↔
          Viewed withBytes spec type (fun views => ∃ part ∈ re.split (encode [',']) views,
            PartMatches re viewFilters part) i := by
  have hmembers : ∃ members, rootMembers (viewed viewFilters withBytes kargs) = some members ∧
      slicesOfMembers members = [] ∧
      SnP4V2.patternsOfMembers members = (viewsFilter viewFilters).patterns ++ [] := by
    cases withBytes <;> exact ⟨_, rfl, rfl, rfl⟩
  obtain ⟨members, hmembers, hslices, hpatterns⟩ := hmembers
  rw [List.append_nil, patterns_viewsFilter] at hpatterns
  refine ⟨.mk false (.allSet members), ?_, hslices, hpatterns, ?_⟩
  . unfold statsViewReq statsReqKargs metricFilter
    rw [hmembers]
    rfl
  . intro re spec type i
    obtain ⟨filters, hfilters, -, hholds⟩ := FilterExpr.holds_root re spec type hmembers
    obtain ⟨f, hf, hfilter⟩ := List.map_eq_singleton_iff.mp hfilters.symm
    subst hf
    cases hfilter
    rw [hholds, List.forall_mem_singleton, holds_viewsFilter]
    constructor
    . rintro ⟨⟨v, hv, hviews⟩, htype, hunits⟩
      obtain ⟨mt, hmt, htype⟩ := htype (List.cons_ne_nil _ _)
      obtain rfl := List.mem_singleton.mp hmt
      obtain ⟨u, hu, v', hv', l, hl, hkey, hvalue⟩ := hunits (List.cons_ne_nil _ _)
      obtain rfl := Option.some.inj (hv.symm.trans hv')
      refine ⟨(Option.some.inj htype).symm, v, hv, ⟨l, hl, hkey, ?_⟩, hviews⟩
      rw [hvalue]
      exact mem_units_iff.mp hu
    . rintro ⟨rfl, v, hv, ⟨l, hl, hkey, hvalue⟩, hviews⟩
      refine ⟨⟨v, hv, hviews⟩, fun _ => ⟨_, List.mem_singleton_self _, rfl⟩, ?_⟩
      intro _
      exact ⟨l.value, mem_units_iff.mpr hvalue, v, hv, l, hl, hkey, rfl⟩

end Request

section Selected

variable {re : Regex} {fuel : Nat} {withBytes : Bool} {viewFilters : List Text} {kargs : StatsKargs}
  {req : StatsFilters}

variable (re fuel) in
-- The request has no slices, so that neither the fuel nor the size of an array matters
theorem applyMetricFilter_root {root : StatsMetricFilter} (hslices : root.slices = [])
    (spec : StatsForEachSpec) (type : SnP4V2.StatsMetricType)
    : ∃ v, applyMetricFilter re fuel spec root type (BitArray.new _ spec.nvalues_pos) = some v ∧
        v.Marks (root.Holds re spec type) := by
  apply applyMetricFilter_of_fits re type root _ (BitArray.marks_new spec.nvalues_pos)
  intro _ s hs
  rw [hslices] at hs
  cases hs

variable (re fuel) in
-- The elements that are reported with their zeroes, and the ones that are cleared
theorem reported_and_cleared {blk : StatsBlock} {m : Nat} {metric : StatsMetric}
    (hm : blk.metrics[m]? = some metric)
    (hclear : statsMetricFlagTest metric.spec.flags .neverClear = false)
    (viewFilters : List Text) (kargs : StatsKargs)
    : ∃ showReq clearReq report,
        showStatsViewReq viewFilters true true = some showReq ∧
        statsViewReq viewFilters true kargs = some clearReq ∧
        getStatsForEachMetric re fuel (blk.forEachSpec metric) showReq = some report ∧
        ∀ i < metric.elements.length,
          (blk.clears (clearStatsFilter re fuel clearReq) m i = true ↔
            Viewed true (blk.forEachSpec metric) (statsMetricTypeMessage metric.spec.type)
              (fun views => ∃ part ∈ re.split (encode [',']) views,
                PartMatches re viewFilters part) i) ∧
          (i ∈ reportedIndices report ↔
            blk.clears (clearStatsFilter re fuel clearReq) m i = true) := by
  obtain ⟨showRoot, hshow, hshowSlices, -, hshowHolds⟩ :=
    exists_root viewFilters true (viewKargs true)
  obtain ⟨clearRoot, hclearReq, hclearSlices, -, hclearHolds⟩ :=
    exists_root viewFilters true kargs
  have hlen : (blk.forEachSpec metric).nvalues = metric.elements.length := List.length_map _
  obtain ⟨v, happly, hv⟩ := applyMetricFilter_root re fuel hshowSlices (blk.forEachSpec metric)
    (statsMetricTypeMessage metric.spec.type)
  obtain ⟨v', happly', hv'⟩ := applyMetricFilter_root re fuel hclearSlices (blk.forEachSpec metric)
    (statsMetricTypeMessage metric.spec.type)
  let filters : StatsFilters :=
    { nonZero := false, metricFilter := some showRoot, withLabels := true }
  have hfilter : filters.metricFilter = some showRoot := rfl
  obtain ⟨v'', hfilters, hv''⟩ := applyFilters_of_eq rfl hfilter happly hv
  obtain ⟨report, hreport, hindices⟩ := getStatsForEachMetric_of_eq hfilters
  refine ⟨_, _, report, hshow, hclearReq, hreport, ?_⟩
  intro i hi
  rw [← hlen] at hi
  rw [clears_eq_isBitSet hm hclear rfl happly', hindices i, hv'' i hi, hv' i hi, hshowHolds,
    hclearHolds]
  exact ⟨Iff.rfl, Iff.rfl⟩

-- Clearing with filters is showing with them, where no pattern makes the agent throw
theorem clears_iff_reported {re : ThrowingRegex} {viewFilters : List Text}
    (haccepts : re.AcceptsAll (requestPatterns viewFilters)) {blk : StatsBlock} {m : Nat}
    {metric : StatsMetric} (hm : blk.metrics[m]? = some metric)
    (hclear : statsMetricFlagTest metric.spec.flags .neverClear = false)
    (readings : Nat → Nat → UInt64)
    : ∃ showReq clearReq report,
        showStatsViewReq viewFilters true true = some showReq ∧
        rpcClearStatsView viewFilters = some clearReq ∧
        StatsWalk.getMetric re fuel blk showReq m metric = some (.returns metric) ∧
        getStatsForEachMetric re.toRegex fuel (blk.forEachSpec metric) showReq = some report ∧
        StatsWalk.updateMetric re fuel blk clearReq.metricFilter readings m metric =
          some (.returns (statsBlockUpdateMetrics.updateMetric blk
            (clearStatsFilter re.toRegex fuel clearReq) (readings m) m metric)) ∧
        ∀ i < metric.elements.length,
          blk.clears (clearStatsFilter re.toRegex fuel clearReq) m i = true ↔
            i ∈ reportedIndices report := by
  obtain ⟨showRoot, hshow, -, hshowPatterns, -⟩ := exists_root viewFilters true (viewKargs true)
  obtain ⟨clearRoot, hclearReq, hclearSlices, hclearPatterns, -⟩ :=
    exists_root viewFilters true (viewKargs false)
  obtain ⟨showReq, clearReq, report, hshow', hclearReq', hreport, hall⟩ :=
    reported_and_cleared re.toRegex fuel hm hclear viewFilters (viewKargs false)
  obtain rfl := Option.some.inj (hshow.symm.trans hshow')
  obtain rfl := Option.some.inj (hclearReq.symm.trans hclearReq')
  obtain ⟨v, happly, -⟩ := applyMetricFilter_root re.toRegex fuel hclearSlices
    (blk.forEachSpec metric) (statsMetricTypeMessage metric.spec.type)
  refine ⟨_, _, report, hshow, hclearReq, ?_, hreport, ?_, fun i hi => (hall i hi).2.symm⟩
  . exact StatsWalk.getMetric_of_accepts rfl (hshowPatterns ▸ haccepts) hreport m
  . exact StatsWalk.updateMetric_of_accepts rfl (hclearPatterns ▸ haccepts) happly readings

-- An engine that throws for what it cannot read
def rowThrowingRegex : ThrowingRegex :=
  { ViewFilter.rowRegex with
    accepts := fun pattern _ =>
      pattern == encode [','] || (RegExp.readRow Glob.byte pattern).isSome }

-- The specs of one port below `sn`
def snFilters : List Text := [['s', 'n', '.', '*', ':', '0']]

def snPatterns : List Text :=
  [['^', 's', 'n', '\\', '.', '[', '^', ':', ']', '*', ':', '0', ':', '[', '^', ':', ']', '*', '$']]

def viewLabels (views : Text) : List StatsLabel :=
  [{ key := unitsKey, value := packets }, { key := viewsKey, value := encode views }]

-- Two counters, the first of which is one of `snFilters`
def viewedCounters : StatsMetric :=
  { spec :=
      { name := encode ['m'], nelements := 2, type := .counter, flags := statsMetricFlagMask .array,
        initValue := 0 }
    elements := [
      { value := { u64 := 5, labels := viewLabels ['s', 'n', '.', 'a', ':', '0', ':', 'r', 'x'] }
        last := 5 },
      { value := { u64 := 7, labels := viewLabels ['h', ':', '1', ':', 't', 'x'] }
        last := 7 }]
    elements_ne := by simp }

def viewedBlock : StatsBlock :=
  { domain := ⟨encode ['d']⟩
    zone := ⟨encode ['z']⟩
    spec := { name := encode ['b'], metrics := [viewedCounters.spec] }
    metrics := [viewedCounters] }

theorem clears_iff_reported_viewedCounters
    : ∃ showReq clearReq report,
        showStatsViewReq snPatterns true true = some showReq ∧
        rpcClearStatsView snPatterns = some clearReq ∧
        StatsWalk.getMetric rowThrowingRegex 0 viewedBlock showReq 0 viewedCounters =
          some (.returns viewedCounters) ∧
        getStatsForEachMetric ViewFilter.rowRegex 0 (viewedBlock.forEachSpec viewedCounters)
          showReq = some report ∧
        StatsWalk.updateMetric rowThrowingRegex 0 viewedBlock clearReq.metricFilter
            (fun _ _ => 9) 0 viewedCounters =
          some (.returns (statsBlockUpdateMetrics.updateMetric viewedBlock
            (clearStatsFilter ViewFilter.rowRegex 0 clearReq) (fun _ => 9) 0 viewedCounters)) ∧
        ∀ i < viewedCounters.elements.length,
          viewedBlock.clears (clearStatsFilter ViewFilter.rowRegex 0 clearReq) 0 i = true ↔
            i ∈ reportedIndices report := by
  have haccepts : rowThrowingRegex.AcceptsAll (requestPatterns snPatterns) := by
    unfold ThrowingRegex.AcceptsAll
    decide
  exact clears_iff_reported haccepts rfl (by decide) fun _ _ => 9

theorem tokens_ne_nil (s : List UInt8) : ViewFilter.tokens s ≠ [] := by
  unfold ViewFilter.tokens
  dsimp only
  split
  . next h =>
    obtain ⟨hne, hlast⟩ := h
    intro hnil
    have hlen := congrArg List.length hnil
    rw [List.length_dropLast, List.length_nil] at hlen
    obtain ⟨a, ha⟩ := List.length_eq_one_iff.mp (show (s.splitOn (Glob.byte ',')).length = 1 by
      have hpos := List.length_pos_iff.mpr (List.splitOn_ne_nil (Glob.byte ',') s)
      omega)
    rw [ha, List.getLast?_singleton, Option.some.injEq] at hlast
    subst hlast
    have hjoin : [Glob.byte ','].intercalate (s.splitOn (Glob.byte ',')) = s :=
      List.intercalate_splitOn _
    rw [ha] at hjoin
    exact hne hjoin.symm
  . exact List.splitOn_ne_nil _ _

-- The options of the batch command have no effect: all counters of packets and bytes that have a
-- views label are cleared
theorem batchClearStatsView_clears (hre : AgentFollows re) (kargs : StatsKargs)
    : ∃ req, batchClearStatsView kargs = some req ∧
        ∀ (blk : StatsBlock) (m : Nat) (metric : StatsMetric), blk.metrics[m]? = some metric →
          statsMetricFlagTest metric.spec.flags .neverClear = false →
            ∀ fuel, ∀ i < metric.elements.length,
              blk.clears (clearStatsFilter re fuel req) m i = true ↔
                Viewed true (blk.forEachSpec metric) (statsMetricTypeMessage metric.spec.type)
                  (fun _ => True) i := by
  obtain ⟨root, hroot, -, -, -⟩ := exists_root [] true kargs
  refine ⟨_, hroot, ?_⟩
  intro blk m metric hm hclear fuel i hi
  obtain ⟨_, req, _, -, hreq, -, hall⟩ := reported_and_cleared re fuel hm hclear [] kargs
  obtain rfl := Option.some.inj (hroot.symm.trans hreq)
  rw [(hall i hi).1]
  have hpart : ∀ views, (∃ part ∈ re.split (encode [',']) views, PartMatches re [] part) ↔ True := by
    intro views
    rw [hre.split_comma]
    obtain ⟨part, hpart⟩ := List.exists_mem_of_ne_nil _ (tokens_ne_nil views)
    exact iff_of_true ⟨part, hpart, .inl rfl⟩ trivial
  simp only [hpart]

-- The option for gauges only does not keep the counters from being cleared
theorem batchClearStatsView_clears_gauges
    : ∃ req, batchClearStatsView { viewKargs false with metricTypes := ["gauge"] } = some req ∧
        ∀ (blk : StatsBlock) (m : Nat) (metric : StatsMetric), blk.metrics[m]? = some metric →
          statsMetricFlagTest metric.spec.flags .neverClear = false →
            ∀ fuel, ∀ i < metric.elements.length,
              blk.clears (clearStatsFilter ViewFilter.rowRegex fuel req) m i = true ↔
                Viewed true (blk.forEachSpec metric) (statsMetricTypeMessage metric.spec.type)
                  (fun _ => True) i :=
  batchClearStatsView_clears ViewFilter.rowRegex_follows _

end Selected

section Matched

variable {re : Regex} {filters patterns : List Text}

-- The counters with a view spec that one of the filters matches
def Selected (filters : List Text) (withBytes : Bool) (spec : StatsForEachSpec)
    (type : SnP4V2.StatsMetricType) (i : Nat)
    : Prop :=
  Viewed withBytes spec type (fun views => ∃ viewSpec ∈ views.splitOn (Glob.byte ','),
    ∃ vf ∈ filters, FilterMatchesBytes vf viewSpec) i

theorem three_le_length_fieldsOf (value : Text) : 3 ≤ (ViewFilter.fieldsOf value).length := by
  rw [ViewFilter.fieldsOf, List.length_append, List.length_replicate, ViewFilter.nfields]
  omega

-- An empty part has one field only
theorem not_filterMatchesBytes_nil (vf : Text) : ¬ FilterMatchesBytes vf [] := by
  intro h
  have hlen := h.length_eq
  have hle := three_le_length_fieldsOf vf
  rw [List.length_map] at hlen
  have hone : (List.splitOn (Glob.byte ':') ([] : List UInt8)).length = 1 := rfl
  omega

theorem exists_mem_tokens_iff {P : List UInt8 → Prop} (hnil : ¬ P []) (s : List UInt8)
    : (∃ part ∈ ViewFilter.tokens s, P part) ↔ ∃ part ∈ s.splitOn (Glob.byte ','), P part := by
  unfold ViewFilter.tokens
  dsimp only
  split
  . next h =>
    obtain ⟨init, hinit⟩ := List.getLast?_eq_some_iff.mp h.2
    rw [hinit, List.dropLast_concat]
    constructor
    . rintro ⟨part, hpart, hP⟩
      exact ⟨part, List.mem_append_left _ hpart, hP⟩
    . rintro ⟨part, hpart, hP⟩
      rcases List.mem_append.mp hpart with hpart | hpart
      . exact ⟨part, hpart, hP⟩
      . rw [List.mem_singleton.mp hpart] at hP
        exact absurd hP hnil
  . exact Iff.rfl

theorem exists_partMatches_iff (hre : AgentFollows re) (hne : filters ≠ [])
    (hconvert : filters.mapM ViewFilter.convert = .ok patterns)
    (hordinary : ∀ vf ∈ filters, Glob.Ordinary id vf) (views : List UInt8)
    : (∃ part ∈ re.split (encode [',']) views, PartMatches re patterns part) ↔
        ∃ viewSpec ∈ views.splitOn (Glob.byte ','), ∃ vf ∈ filters,
          FilterMatchesBytes vf viewSpec := by
  have hall := Except.forall₂_of_mapM_eq_ok hconvert
  have hpart : ∀ part, PartMatches re patterns part ↔
      ∃ vf ∈ filters, FilterMatchesBytes vf part := by
    intro part
    have hpatterns : patterns ≠ [] := by
      rintro rfl
      exact hne (List.forall₂_nil_right_iff.mp hall)
    unfold PartMatches
    rw [or_iff_right hpatterns]
    clear hne hpatterns hconvert
    induction hall with
    | nil => simp
    | @cons vf pattern filters patterns hvf _ ih =>
      obtain ⟨hhead, hrest⟩ := List.forall_mem_cons.mp hordinary
      have hmatches := ViewFilter.regexMatch_convert hre hhead hvf part
      rw [List.exists_mem_cons_iff, List.exists_mem_cons_iff, hmatches]
      exact or_congr_right (ih hrest)
  simp only [hpart, hre.split_comma]
  apply exists_mem_tokens_iff
  rintro ⟨vf, -, h⟩
  exact not_filterMatchesBytes_nil vf h

theorem statsViewReq_selects (hre : AgentFollows re) (hne : filters ≠ [])
    (hconvert : filters.mapM ViewFilter.convert = .ok patterns)
    (hordinary : ∀ vf ∈ filters, Glob.Ordinary id vf) (withBytes : Bool) (kargs : StatsKargs)
    : ∃ root : StatsMetricFilter,
        statsViewReq patterns withBytes kargs =
          some { nonZero := !kargs.zeroes, metricFilter := some root, withLabels := true } ∧
        ∀ fuel spec type, ∃ v,
          applyMetricFilter re fuel spec root type (BitArray.new _ spec.nvalues_pos) = some v ∧
            v.Marks (Selected filters withBytes spec type) := by
  obtain ⟨root, hroot, hslices, -, hholds⟩ := exists_root patterns withBytes kargs
  refine ⟨root, hroot, ?_⟩
  intro fuel spec type
  obtain ⟨v, happly, hv⟩ := applyMetricFilter_root re fuel hslices spec type
  refine ⟨v, happly, hv.congr ?_⟩
  intro i _
  rw [hholds]
  simp only [exists_partMatches_iff hre hne hconvert hordinary]
  rfl

theorem ordinary_snFilters : ∀ vf ∈ snFilters, Glob.Ordinary id vf := by
  intro vf hvf
  rw [List.mem_singleton.mp hvf]
  simp [Glob.Ordinary, RegExp.metacharacters]

theorem statsViewReq_selects_snFilters
    : ∃ root : StatsMetricFilter,
        statsViewReq snPatterns true (viewKargs false) =
          some { nonZero := true, metricFilter := some root, withLabels := true } ∧
        ∀ fuel spec type, ∃ v,
          applyMetricFilter ViewFilter.rowRegex fuel spec root type
              (BitArray.new _ spec.nvalues_pos) = some v ∧
            v.Marks (Selected snFilters true spec type) :=
  statsViewReq_selects ViewFilter.rowRegex_follows (by decide) rfl ordinary_snFilters true
    (viewKargs false)

end Matched

end StatsViewReq
