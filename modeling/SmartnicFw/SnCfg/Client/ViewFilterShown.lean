import SmartnicFw.SnCfg.Client.StatsViewReq
import SmartnicFw.SnCfg.Client.StatsViewTables

/-!
This module contains the way of the view filters through both programs: what the agent reports for the
request of the client is shown by the client, in the cells of the view specs that the filters match.
-/

namespace ViewFilterShown

open P4bm (Text)
open Utf8 (encode)
open SnP4V2 (StatsMetricFilter StatsFilters)
open StatsFormat.statsShowFormat (labelDict)
open StatsView (Spec Tables addMetric collect places placesFrom put readSpec)
open StatsViewReq (showStatsViewReq Selected Viewed)
open ViewFilter (AgentFollows FilterMatches FilterMatchesBytes)

-- A message of the agent as the client reads it
structure ReceivedLabel (l : StatsLabel) (l' : StatsFormat.StatsMetricLabel) : Prop where
  key : encode l'.key = l.key
  value : encode l'.value = l.value

structure ReceivedValue (v : SnP4V2.StatsMetricValue) (v' : StatsFormat.StatsMetricValue)
    : Prop where
  u64 : v'.u64 = v.u64
  labels : List.Forall₂ ReceivedLabel v.labels v'.labels

structure Received (m : SnP4V2.StatsMetric) (m' : StatsFormat.StatsMetric) : Prop where
  block : encode m'.block = m.block
  values : List.Forall₂ ReceivedValue m.values m'.values

section Report

variable {re : Regex} {fuel : Nat} {spec : StatsForEachSpec} {filters : StatsFilters}
  {root : StatsMetricFilter} {p : Nat → Prop}

-- There is no report of no values, and every value in it is selected
theorem selected_of_report {report : SnP4V2.StatsMetric}
    (h : getStatsForEachMetric re fuel spec filters = some (some report))
    (hfilter : filters.metricFilter = some root) (hlabels : filters.withLabels = true)
    {v : BitArray spec.nvalues}
    (happly : applyMetricFilter re fuel spec root (statsMetricTypeMessage spec.metric.type)
      (BitArray.new spec.nvalues spec.nvalues_pos) = some v)
    (hv : v.Marks p)
    : report.values ≠ [] ∧ report.block = spec.block.name ∧
        ∀ value ∈ report.values, ∃ i x, spec.values[i]? = some x ∧ p i ∧
          value.u64 = x.u64 ∧ value.labels = x.labels := by
  obtain ⟨valid, hvalid, h⟩ := Option.bind_eq_some_iff.mp h
  split at h
  . cases h
  . next hsome =>
    cases h
    have hsub : ∀ i < spec.nvalues, valid.isBitSet i = true → p i := by
      intro i hi hbit
      unfold applyFilters at hvalid
      dsimp only at hvalid
      split at hvalid
      . next hclear =>
        cases hvalid
        exact absurd hclear hsome
      . rw [hfilter] at hvalid
        obtain ⟨v', happly', hvalid⟩ := Option.bind_eq_some_iff.mp hvalid
        cases hvalid
        obtain rfl := Option.some.inj (happly.symm.trans happly')
        rw [BitArray.isBitSet_andAssign, Bool.and_eq_true] at hbit
        exact (hv i hi).mp hbit.2
    refine ⟨?_, rfl, ?_⟩
    . intro hnil
      apply hsome
      rw [BitArray.isAllCleared_iff]
      intro i hi
      rw [List.map_eq_nil_iff, List.filter_eq_nil_iff] at hnil
      have hmem : (spec.values[i], i) ∈ spec.values.zipIdx :=
        List.mem_zipIdx_iff_getElem?.mpr (List.getElem?_eq_getElem hi)
      exact Bool.eq_false_of_not_eq_true (hnil _ hmem)
    . intro value hvalue
      obtain ⟨⟨x, i⟩, hmem, rfl⟩ := List.mem_map.mp hvalue
      obtain ⟨hmem, hbit⟩ := List.mem_filter.mp hmem
      have hget := List.mem_zipIdx_iff_getElem?.mp hmem
      have hi := (List.getElem?_eq_some_iff.mp hget).1
      exact ⟨i, x, hget, hsub i hi hbit, rfl, rfl⟩

end Report

section Specs

variable {viewFilters : List (Text → Bool)}

theorem exists_readSpec {viewSpec : Text} (h : (viewSpec.splitOn ':').length = 3)
    : ∃ spec, readSpec viewSpec = some spec := by
  obtain ⟨view, port, direction, hsplit⟩ := List.length_eq_three.mp h
  exact ⟨{ view, port, direction }, by rw [readSpec, hsplit]⟩

-- Only the specs that are wanted have to be readable
theorem places_of_filter {viewSpecs : List Text} {specs : List Spec}
    (h : (viewSpecs.filter fun s => viewFilters.any (· s)).mapM readSpec = some specs) (name : Text)
    : places viewFilters name viewSpecs = .ok (placesFrom name specs) := by
  induction viewSpecs generalizing specs name with
  | nil =>
    cases h
    rfl
  | cons viewSpec viewSpecs ih =>
    by_cases hany : viewFilters.any (· viewSpec) = true
    . rw [List.filter_cons_of_pos (p := fun s => viewFilters.any (· s)) hany, List.mapM_cons] at h
      obtain ⟨spec, hspec, h⟩ := Option.bind_eq_some_iff.mp h
      obtain ⟨rest, hrest, h⟩ := Option.bind_eq_some_iff.mp h
      cases h
      rw [places, if_pos hany, StatsView.splitOn_of_readSpec hspec]
      simp only [ih hrest, placesFrom]
      rfl
    . rw [List.filter_cons_of_neg (p := fun s => viewFilters.any (· s)) hany] at h
      rw [places, if_neg hany]
      exact ih h name

end Specs

section Labels

variable {value : SnP4V2.StatsMetricValue} {value' : StatsFormat.StatsMetricValue}

theorem encode_inj {s t : Text} (h : encode s = encode t) : s = t := by
  rw [← Utf8.bytes_ofList, ← Utf8.bytes_ofList, Utf8.bytes_inj] at h
  exact String.ofList_injective h

theorem exists_received (hreceived : ReceivedValue value value') {l : StatsLabel}
    (hl : l ∈ value.labels)
    : ∃ l' ∈ value'.labels, ReceivedLabel l l' := by
  obtain ⟨i, hi⟩ := List.mem_iff_getElem?.mp hl
  obtain ⟨l', hl', h⟩ := getElem?_of_forall₂ hreceived.labels.flip hi
  exact ⟨l', List.mem_of_getElem? hl', h⟩

-- Of labels with different keys, each one is in the dictionary
theorem get?_labelDict (hreceived : ReceivedValue value value')
    (hnodup : (value.labels.map (·.key)).Nodup) {l : StatsLabel} (hl : l ∈ value.labels) {key : Text}
    (hkey : l.key = encode key)
    : ∃ text, (labelDict value').get? key = some text ∧ encode text = l.value := by
  obtain ⟨l', hl', hl'value⟩ := exists_received hreceived hl
  have hkey' : l'.key = key := encode_inj (hl'value.key.trans hkey)
  refine ⟨l'.value, ?_, hl'value.value⟩
  have hconst : ∀ p ∈ value'.labels.map fun l => (l.key, l.value), p.1 = key → p.2 = l'.value := by
    intro p hp hpkey
    obtain ⟨l₂', hl₂', rfl⟩ := List.mem_map.mp hp
    obtain ⟨i, hi⟩ := List.mem_iff_getElem?.mp hl₂'
    obtain ⟨l₂, hl₂, h₂⟩ := getElem?_of_forall₂ hreceived.labels hi
    have heq : l₂ = l := by
      apply List.inj_on_of_nodup_map hnodup (List.mem_of_getElem? hl₂) hl
      rw [hkey, ← hpkey]
      exact h₂.key.symm
    subst heq
    exact encode_inj (h₂.value.trans hl'value.value.symm)
  have hmem : key ∈ (value'.labels.map fun l => (l.key, l.value)).map Prod.fst := by
    rw [← hkey', List.map_map]
    exact List.mem_map_of_mem hl'
  rw [labelDict, Dict.get?_insertAll, Dict.lastOf_of_const hconst, if_pos hmem]
  rfl

end Labels

section Shown

variable {re : Regex} {py : ViewFilter.Re} {filters patterns : List Text}

-- What the client matches: a newline at the end of a spec is not looked at
def Wanted (filters : List Text) (viewSpec : Text) : Prop :=
  ∃ vf ∈ filters, FilterMatches vf viewSpec ∨ ∃ t, viewSpec = t ++ ['\n'] ∧ FilterMatches vf t

theorem length_splitOn_of_wanted (hlen : ∀ vf ∈ filters, (ViewFilter.fieldsOf vf).length = 3)
    {viewSpec : Text} (h : Wanted filters viewSpec)
    : (viewSpec.splitOn ':').length = 3 := by
  obtain ⟨vf, hvf, h | ⟨t, rfl, h⟩⟩ := h
  . rw [← hlen vf hvf]
    exact h.length_eq.symm
  . have hcount := h.length_eq
    rw [hlen vf hvf, SplitOn.length_splitOn] at hcount
    have hzero : List.count ':' ['\n'] = 0 := rfl
    rw [SplitOn.length_splitOn, List.count_append, hzero, Nat.add_zero]
    exact hcount.symm

theorem length_fieldsOf_of_convert (hconvert : filters.mapM ViewFilter.convert = .ok patterns)
    : ∀ vf ∈ filters, (ViewFilter.fieldsOf vf).length = 3 := by
  intro vf hvf
  obtain ⟨pattern, hpattern⟩ := Except.exists_mapM_eq_ok_iff.mp ⟨patterns, hconvert⟩ vf hvf
  exact (ViewFilter.convert_ok hpattern).1

theorem exists_compiled (hpy : py.Follows) (hconvert : filters.mapM ViewFilter.convert = .ok patterns)
    (hordinary : ∀ vf ∈ filters, Glob.Ordinary id vf)
    : ∃ compiled, patterns.mapM py.compile = some compiled ∧
        ∀ s, compiled.any (· s) = true ↔ Wanted filters s := by
  have hall := Except.forall₂_of_mapM_eq_ok hconvert
  clear hconvert
  induction hall with
  | nil => exact ⟨[], rfl, fun s => by simp [Wanted]⟩
  | @cons vf pattern filters patterns hvf _ ih =>
    obtain ⟨hhead, hrest⟩ := List.forall_mem_cons.mp hordinary
    obtain ⟨compiled, hcompiled, hany⟩ := ih hrest
    obtain ⟨m, hm, hmatches⟩ := ViewFilter.compile_convert hpy hhead hvf
    refine ⟨m :: compiled, ?_, ?_⟩
    . rw [List.mapM_cons, hm, hcompiled]
      rfl
    . intro s
      unfold Wanted at hany ⊢
      rw [List.any_cons, Bool.or_eq_true, hmatches, hany, List.exists_mem_cons_iff]

-- The specs that are wanted, in their order, each one in a cell of its own
def ShowsMatched (filters : List Text) (compiled : List (Text → Bool)) (withBytes : Bool)
    (metric : StatsFormat.StatsMetric)
    : Prop :=
  ∃ value rest views specs isBytes, metric.values = value :: rest ∧
    (labelDict value).get? ['v', 'i', 'e', 'w', 's'] = some views ∧
    specs.map Spec.text = (views.splitOn ',').filter (fun s => compiled.any (· s)) ∧
    specs ≠ [] ∧
    (∀ viewSpec, viewSpec ∈ specs.map Spec.text ↔
      viewSpec ∈ views.splitOn ',' ∧ Wanted filters viewSpec) ∧
    (isBytes = true → withBytes = true) ∧
    ∀ tables, addMetric compiled tables metric =
      .ok ((placesFrom metric.block specs).foldl (put isBytes value.u64.toNat) tables)

theorem showsMatched_of_report (hconvert : filters.mapM ViewFilter.convert = .ok patterns)
    {compiled : List (Text → Bool)} (hany : ∀ s, compiled.any (· s) = true ↔ Wanted filters s)
    {withBytes : Bool} {spec : StatsForEachSpec} {type : SnP4V2.StatsMetricType}
    {report : SnP4V2.StatsMetric} {metric : StatsFormat.StatsMetric} (hreceived : Received report metric)
    (hne : report.values ≠ [])
    (hselected : ∀ value ∈ report.values, ∃ i x, spec.values[i]? = some x ∧
      Selected filters withBytes spec type i ∧ value.u64 = x.u64 ∧ value.labels = x.labels)
    (hnodup : ∀ value ∈ report.values, (value.labels.map (·.key)).Nodup)
    : ShowsMatched filters compiled withBytes metric := by
  obtain ⟨v, vs, hv⟩ := List.exists_cons_of_ne_nil hne
  have hvalues := hreceived.values
  rw [hv] at hvalues hselected hnodup
  obtain ⟨value, rest, hvalue, -, hmetric⟩ := List.forall₂_cons_left_iff.mp hvalues
  have hnodup := hnodup v List.mem_cons_self
  obtain ⟨i, x, hx, ⟨-, y, hy, hunits, l, hl, hkey, viewSpec, hviewSpec, vf, hvf, hmatches⟩, -,
    hlabels⟩ := hselected v List.mem_cons_self
  obtain rfl := Option.some.inj (hx.symm.trans hy)
  rw [← hlabels] at hl hunits
  obtain ⟨views, hviews, hencode⟩ := get?_labelDict hvalue hnodup hl hkey
  obtain ⟨lu, hlu, hukey, huvalue⟩ := hunits
  have hukey : lu.key = encode ['u', 'n', 'i', 't', 's'] := hukey
  obtain ⟨units, hunits, huencode⟩ := get?_labelDict hvalue hnodup hlu hukey
  have hreadable : ∀ s ∈ (views.splitOn ',').filter (fun s => compiled.any (· s)),
      ∃ spec, readSpec s = some spec := by
    intro s hs
    apply exists_readSpec
    exact length_splitOn_of_wanted (length_fieldsOf_of_convert hconvert)
      ((hany s).mp (List.mem_filter.mp hs).2)
  obtain ⟨specs, hspecs⟩ := exists_mapM hreadable
  have htexts := map_of_mapM (g := Spec.text) (fun _ _ => StatsView.text_of_readSpec) hspecs
  refine ⟨value, rest, views, specs, decide (units = ['b', 'y', 't', 'e', 's']), hmetric, hviews,
    htexts, ?_, ?_, ?_, ?_⟩
  . rintro rfl
    rw [← hencode] at hviewSpec
    unfold Glob.byte at hviewSpec
    rw [SplitOn.splitOn_encode (by decide)] at hviewSpec
    obtain ⟨s, hs, rfl⟩ := List.mem_map.mp hviewSpec
    have hwanted := (hany s).mpr ⟨vf, hvf, .inl
      ((ViewFilter.filterMatchesBytes_encode_iff vf s).mp hmatches)⟩
    have hmem : s ∈ (views.splitOn ',').filter (fun s => compiled.any (· s)) :=
      List.mem_filter.mpr ⟨hs, hwanted⟩
    rw [← htexts] at hmem
    cases hmem
  . intro s
    rw [htexts, List.mem_filter, hany]
  . intro hbytes
    have hbytes := of_decide_eq_true hbytes
    subst hbytes
    rcases huvalue with hpackets | ⟨hbytes, -⟩
    . rw [hpackets] at huencode
      exact absurd huencode (by decide)
    . exact hbytes
  . intro tables
    unfold addMetric
    rw [hmetric]
    dsimp only
    rw [hviews, hunits]
    dsimp only
    rw [places_of_filter hspecs]
    rfl

-- The client shows every metric that the agent reports, in the cells of the specs that are wanted
theorem shows_matched (hre : AgentFollows re) (hpy : py.Follows) (hne : filters ≠ [])
    (hconvert : filters.mapM ViewFilter.convert = .ok patterns)
    (hordinary : ∀ vf ∈ filters, Glob.Ordinary id vf) (withBytes zeroes : Bool)
    : ∃ compiled req, patterns.mapM py.compile = some compiled ∧
        showStatsViewReq patterns withBytes zeroes = some req ∧
        ∀ fuel reports (stats : StatsFormat.Stats),
          (∀ report ∈ reports, ∃ spec, getStatsForEachMetric re fuel spec req = some (some report)) →
          List.Forall₂ Received reports stats.metrics →
          (∀ report ∈ reports, ∀ value ∈ report.values, (value.labels.map (·.key)).Nodup) →
            (∀ metric ∈ stats.metrics, ShowsMatched filters compiled withBytes metric) ∧
            ∃ tables, collect { viewFilters := compiled, bytes := withBytes } stats = .ok tables := by
  obtain ⟨compiled, hcompiled, hany⟩ := exists_compiled hpy hconvert hordinary
  obtain ⟨root, hreq, hselects⟩ := StatsViewReq.statsViewReq_selects hre hne hconvert hordinary
    withBytes (StatsViewReq.viewKargs zeroes)
  refine ⟨compiled, _, hcompiled, hreq, ?_⟩
  intro fuel reports stats hreports hreceived hnodup
  have hshows : ∀ metric ∈ stats.metrics, ShowsMatched filters compiled withBytes metric := by
    intro metric hmetric
    obtain ⟨n, hn⟩ := List.mem_iff_getElem?.mp hmetric
    obtain ⟨report, hreport, hreceived⟩ := getElem?_of_forall₂ hreceived hn
    have hmem := List.mem_of_getElem? hreport
    obtain ⟨spec, hspec⟩ := hreports report hmem
    obtain ⟨v, happly, hv⟩ := hselects fuel spec (statsMetricTypeMessage spec.metric.type)
    obtain ⟨hne, -, hselected⟩ := selected_of_report hspec rfl rfl happly hv
    exact showsMatched_of_report hconvert hany hreceived hne hselected (hnodup report hmem)
  refine ⟨hshows, ?_⟩
  unfold collect
  generalize stats.metrics = metrics at hshows
  generalize Tables.empty = tables
  induction metrics generalizing tables with
  | nil => exact ⟨tables, rfl⟩
  | cons metric metrics ih =>
    obtain ⟨⟨_, _, _, _, _, -, -, -, -, -, -, hadd⟩, hrest⟩ := List.forall_mem_cons.mp hshows
    rw [List.foldlM_cons, hadd]
    exact ih hrest _

-- The report of the counters at port 0, and the message as the client reads it
def viewedReport : SnP4V2.StatsMetric :=
  { type := .counter
    name := encode ['m']
    numElements := 2
    domain := encode ['d']
    zone := encode ['z']
    block := encode ['b']
    values := [{
      index := 0
      u64 := 5
      labels := StatsViewReq.viewLabels ['s', 'n', '.', 'a', ':', '0', ':', 'r', 'x'] }] }

def viewedStats : StatsFormat.Stats :=
  { metrics := [{
      type := .STATS_METRIC_TYPE_COUNTER
      zone := ['z']
      block := ['b']
      name := ['m']
      numElements := 2
      values := [{
        u64 := 5
        f64 := 0
        index := 0
        labels := [
          { key := ['u', 'n', 'i', 't', 's'], value := ['p', 'a', 'c', 'k', 'e', 't', 's'] },
          { key := ['v', 'i', 'e', 'w', 's'],
            value := ['s', 'n', '.', 'a', ':', '0', ':', 'r', 'x'] }] }]
      lastUpdate := ⟨0, 0⟩ }] }

theorem received_viewedStats : List.Forall₂ Received [viewedReport] viewedStats.metrics := by
  refine .cons ⟨rfl, .cons ⟨rfl, ?_⟩ .nil⟩ .nil
  exact .cons ⟨rfl, rfl⟩ (.cons ⟨rfl, rfl⟩ .nil)

theorem report_viewedCounters
    : (showStatsViewReq StatsViewReq.snPatterns true false).bind
        (getStatsForEachMetric ViewFilter.rowRegex 0
          (StatsViewReq.viewedBlock.forEachSpec StatsViewReq.viewedCounters)) =
      some (some viewedReport) := by
  decide +kernel

theorem shows_matched_viewedReport
    : ∃ compiled req, StatsViewReq.snPatterns.mapM ViewFilter.rowRe.compile = some compiled ∧
        showStatsViewReq StatsViewReq.snPatterns true false = some req ∧
        getStatsForEachMetric ViewFilter.rowRegex 0
          (StatsViewReq.viewedBlock.forEachSpec StatsViewReq.viewedCounters) req =
            some (some viewedReport) ∧
        (∀ metric ∈ viewedStats.metrics,
          ShowsMatched StatsViewReq.snFilters compiled true metric) ∧
        ∃ tables, collect { viewFilters := compiled, bytes := true } viewedStats = .ok tables := by
  have hconvert : StatsViewReq.snFilters.mapM ViewFilter.convert = .ok StatsViewReq.snPatterns := rfl
  obtain ⟨compiled, req, hcompiled, hreq, hshows⟩ := shows_matched ViewFilter.rowRegex_follows
    ViewFilter.rowRe_follows (by decide) hconvert StatsViewReq.ordinary_snFilters true false
  have hreport : getStatsForEachMetric ViewFilter.rowRegex 0
      (StatsViewReq.viewedBlock.forEachSpec StatsViewReq.viewedCounters) req =
        some (some viewedReport) := by
    have hbind := report_viewedCounters
    rw [hreq] at hbind
    exact hbind
  refine ⟨compiled, req, hcompiled, hreq, hreport, ?_⟩
  apply hshows 0 [viewedReport] viewedStats ?_ received_viewedStats ?_
  . intro report hmem
    rw [List.mem_singleton.mp hmem]
    exact ⟨_, hreport⟩
  . intro report hmem
    rw [List.mem_singleton.mp hmem]
    decide

end Shown

end ViewFilterShown
