import SmartnicFw.Lib.MapM
import SmartnicFw.SnCfg.Client.StatsViewDisplay

/-!
This module contains when the table shows each metric in the cells of its own view specs.
-/

namespace StatsView

open P4bm (Text)
open StatsFormat (Stats Sortable)

section Placed

variable {viewFilters : List (Text → Bool)} {m : ViewMetric}

theorem mapM_readSpec {metric : StatsFormat.StatsMetric} (h : viewMetric metric = some m)
    : (m.specs.map Spec.text).mapM readSpec = some m.specs := by
  unfold viewMetric at h
  split at h
  . cases h
  . obtain ⟨views, _, h⟩ := Option.bind_eq_some_iff.mp h
    obtain ⟨specs, hspecs, h⟩ := Option.bind_eq_some_iff.mp h
    split at h
    . cases h
      dsimp only
      rw [map_of_mapM (fun _ _ => text_of_readSpec) hspecs]
      exact hspecs
    . cases h

theorem places_of_viewMetric {metric : StatsFormat.StatsMetric} (h : viewMetric metric = some m)
    : places viewFilters m.block (m.specs.map Spec.text) =
        .ok (placesFrom m.block (matched viewFilters m)) := by
  exact places_eq viewFilters (mapM_readSpec h) m.block

-- By induction on the specs. The name is what the specs before have made of it.
theorem placesFrom_eq_iff (m : ViewMetric) (specs : List Spec) (name : Text)
    : placesFrom name specs = specs.map m.place ↔
        ∀ before spec rest, specs = before ++ spec :: rest →
          normalise spec.port (before.foldl (fun name spec => normalise spec.port name) name) =
            normalise spec.port m.block := by
  induction specs generalizing name with
  | nil =>
    constructor
    . intro _ before spec rest h
      simp at h
    . intro _
      rfl
  | cons spec specs ih =>
    rw [placesFrom, List.map_cons, List.cons.injEq, ih]
    constructor
    . rintro ⟨hplace, hrest⟩ before spec' rest h
      cases before with
      | nil =>
        cases h
        exact congrArg Place.name hplace
      | cons first before =>
        cases h
        exact hrest before spec' rest rfl
    . intro h
      refine ⟨?_, ?_⟩
      . have hname := h [] spec specs rfl
        dsimp only [List.foldl_nil] at hname
        rw [hname]
        rfl
      . rintro before spec' rest rfl
        exact h (spec :: before) spec' rest rfl

end Placed

section Shown

variable (py : Python) (kargs : Kargs)

-- The cells of the table that are not blank
def Display.cells (d : Display) : List (Place × Metric) :=
  d.sections.flatMap fun s =>
    s.rows.flatMap fun row =>
      d.columns.filterMap fun col =>
        (row.2.get? col.key).map fun m =>
          ({ view := s.view, port := col.port, direction := col.direction, name := row.1 }, m)

-- Byte counts are shown on request only
def visible (isBytes : Bool) : Prop := isBytes → kargs.bytes

structure ShowsRight (ms : List ViewMetric) (d : Display) : Prop where
  nodup : (d.cells.map Prod.fst).Nodup
  own : ∀ place, place ∈ d.cells.map Prod.fst ↔
    ∃ m ∈ ms, ∃ spec ∈ matched kargs.viewFilters m, place = m.place spec
  put : ∀ m ∈ ms, places kargs.viewFilters m.block (m.specs.map Spec.text) =
    .ok ((matched kargs.viewFilters m).map m.place)
  shown : ∀ m ∈ ms, ∀ spec ∈ matched kargs.viewFilters m, visible kargs m.isBytes ∧
    ∃ c, (m.place spec, c) ∈ d.cells ∧ number m.isBytes (some c) = m.value
  unmixed : ms.Pairwise fun m m' => m.isBytes = m'.isBytes →
    ∀ ps ps', places kargs.viewFilters m.block (m.specs.map Spec.text) = .ok ps →
      places kargs.viewFilters m'.block (m'.specs.map Spec.text) = .ok ps' → ps.Disjoint ps'
  totals : ∀ s ∈ d.sections, ∀ col ∈ d.columns, ∀ isBytes, visible kargs isBytes →
    number isBytes (s.totals.get? col.key) =
      (s.rows.map fun row => number isBytes (row.2.get? col.key)).sum

def Shows (devId : Text) (stats : Stats) (ms : List ViewMetric) : Prop :=
  ∃ d, showStatsView py kargs devId stats = .ok d ∧ ShowsRight kargs ms d

-- The cells of the specs can be told apart, and the names can be sorted
structure CellsApart (ms : List ViewMetric) : Prop where
  settled : ∀ m ∈ ms, ∀ before spec rest,
    matched kargs.viewFilters m = before ++ spec :: rest →
      normalise spec.port (before.foldl (fun name spec => normalise spec.port name) m.block) =
        normalise spec.port m.block
  apart : ms.Pairwise fun m m' => m.isBytes = m'.isBytes →
    ∀ spec ∈ matched kargs.viewFilters m, ∀ spec' ∈ matched kargs.viewFilters m',
      m.place spec ≠ m'.place spec'
  columns : ∀ m ∈ ms, ∀ spec ∈ matched kargs.viewFilters m,
    ∀ m' ∈ ms, ∀ spec' ∈ matched kargs.viewFilters m',
      spec.port ++ spec.direction = spec'.port ++ spec'.direction →
        spec.port = spec'.port ∧ spec.direction = spec'.direction
  sortable : ∀ m ∈ ms, ∀ spec ∈ matched kargs.viewFilters m,
    Sortable py.toPython spec.view ∧ Sortable py.toPython spec.port ∧
      Sortable py.toPython spec.direction ∧ Sortable py.toPython (normalise spec.port m.block)
  visible : ∀ m ∈ ms, matched kargs.viewFilters m ≠ [] → visible kargs m.isBytes

end Shown

section Display

variable {py : Python} {kargs : Kargs} {as : List Item} {ss : List Section} {cols : List Column}

theorem mem_directionsOf_after {port direction : Text}
    : direction ∈ (directionsOf (after as).ports port).keys ↔
        ∃ a ∈ as, port = a.place.port ∧ direction = a.place.direction := by
  rw [← Dict.isSome_get?_iff]
  exact isSome_keyOf_after

theorem mem_columns_after (h : columns py (after as).ports = .ok cols) {col : Column}
    : col ∈ cols ↔ col.key = col.port ++ col.direction ∧
        ∃ a ∈ as, col.port = a.place.port ∧ col.direction = a.place.direction := by
  rw [(columns_ok h).1, mem_ports_after, mem_directionsOf_after]
  have hkey : ∀ a ∈ as, col.port = a.place.port → col.direction = a.place.direction →
      (column (after as).ports col.port col.direction).key = col.port ++ col.direction := by
    intro a ha hport hdirection
    obtain ⟨key, hkey⟩ := Option.isSome_iff_exists.mp
      (isSome_keyOf_after.mpr ⟨a, ha, hport, hdirection⟩)
    have hget : (directionsOf (after as).ports col.port).get? col.direction = some key := hkey
    rw [column, hget]
    exact keyOf_after hkey
  constructor
  . rintro ⟨_, ⟨a, ha, hport, hdirection⟩, heq⟩
    refine ⟨?_, a, ha, hport, hdirection⟩
    rw [heq]
    exact hkey a ha hport hdirection
  . rintro ⟨heq, a, ha, hport, hdirection⟩
    refine ⟨⟨a, ha, hport⟩, ⟨a, ha, hport, hdirection⟩, ?_⟩
    have hcolumn := hkey a ha hport hdirection
    rw [← heq] at hcolumn
    cases col
    dsimp only at hcolumn ⊢
    rw [column, Column.mk.injEq]
    exact ⟨rfl, rfl, hcolumn.symm⟩

theorem mem_cells {d : Display} {place : Place} {c : Metric}
    : (place, c) ∈ d.cells ↔ ∃ s ∈ d.sections, s.view = place.view ∧
        ∃ row ∈ s.rows, row.1 = place.name ∧
          ∃ col ∈ d.columns, col.port = place.port ∧ col.direction = place.direction ∧
            row.2.get? col.key = some c := by
  unfold Display.cells
  simp only [List.mem_flatMap, List.mem_filterMap, Option.map_eq_some_iff, Prod.mk.injEq]
  constructor
  . rintro ⟨s, hs, row, hrow, col, hcol, m, hm, rfl, rfl⟩
    exact ⟨s, hs, rfl, row, hrow, rfl, col, hcol, rfl, rfl, hm⟩
  . rintro ⟨s, hs, hview, row, hrow, hname, col, hcol, hport, hdirection, hm⟩
    refine ⟨s, hs, row, hrow, col, hcol, c, hm, ?_, rfl⟩
    rw [hview, hname, hport, hdirection]

theorem nodup_map_flatMap {α β γ κ : Type} {f : α → List β} {g : β → γ} {key : α → κ} (tag : γ → κ)
    {as : List α} (hkeys : (as.map key).Nodup) (hin : ∀ a ∈ as, ((f a).map g).Nodup)
    (htag : ∀ a ∈ as, ∀ b ∈ f a, tag (g b) = key a)
    : ((as.flatMap f).map g).Nodup := by
  rw [List.map_flatMap, List.nodup_flatMap]
  refine ⟨hin, ?_⟩
  apply (List.pairwise_map.mp hkeys).imp_of_mem
  intro a a' ha ha' hne x hx hx'
  obtain ⟨b, hb, rfl⟩ := List.mem_map.mp hx
  obtain ⟨b', hb', heq⟩ := List.mem_map.mp hx'
  apply hne
  rw [← htag a ha b hb, ← heq, htag a' ha' b' hb']

theorem nodup_cells {d : Display} (hviews : (d.sections.map (·.view)).Nodup)
    (hrows : ∀ s ∈ d.sections, (s.rows.map Prod.fst).Nodup)
    (hcols : (d.columns.map fun col => (col.port, col.direction)).Nodup)
    : (d.cells.map Prod.fst).Nodup := by
  have hrow : ∀ (s : Section) (row : Text × Dict Text Metric),
      ((d.columns.filterMap fun col => (row.2.get? col.key).map fun m =>
        (({ view := s.view, port := col.port, direction := col.direction, name := row.1 } : Place),
          m)).map Prod.fst).Nodup := by
    intro s row
    rw [List.filterMap_eq_flatMap_toList]
    apply nodup_map_flatMap (fun place : Place => (place.port, place.direction)) hcols
    . intro col _
      cases row.2.get? col.key with
      | none => exact List.nodup_nil
      | some m => exact List.nodup_singleton _
    . intro col _ b hb
      obtain ⟨m, _, rfl⟩ := Option.map_eq_some_iff.mp (Option.mem_toList.mp hb)
      rfl
  apply nodup_map_flatMap Place.view hviews
  . intro s hs
    apply nodup_map_flatMap Place.name (hrows s hs)
    . intro row _
      exact hrow s row
    . intro row _ b hb
      obtain ⟨col, _, hb⟩ := List.mem_filterMap.mp hb
      obtain ⟨m, _, rfl⟩ := Option.map_eq_some_iff.mp hb
      rfl
  . intro s _ b hb
    obtain ⟨row, _, hb⟩ := List.mem_flatMap.mp hb
    obtain ⟨col, _, hb⟩ := List.mem_filterMap.mp hb
    obtain ⟨m, _, rfl⟩ := Option.map_eq_some_iff.mp hb
    rfl

end Display

section Runs

variable {py : Python} {kargs : Kargs} {devId : Text} {stats : Stats} {ms : List ViewMetric}

theorem showStatsView_ok_iff (h : stats.metrics.mapM viewMetric = some ms) {d : Display}
    : showStatsView py kargs devId stats = .ok d ↔
        columns py (after (ms.flatMap (items kargs.viewFilters))).ports = .ok d.columns ∧
          sections py (after (ms.flatMap (items kargs.viewFilters))).views = .ok d.sections ∧
          lines py kargs.bytes devId d.sections d.columns = .ok d.lines := by
  have hcollect : collect kargs stats = .ok (after (ms.flatMap (items kargs.viewFilters))) :=
    collect_eq kargs.viewFilters h .empty
  unfold showStatsView
  rw [hcollect]
  constructor
  . intro hd
    obtain ⟨_, heq, hd⟩ := Except.bind_eq_ok_iff.mp hd
    cases heq
    obtain ⟨cols, hcols, hd⟩ := Except.bind_eq_ok_iff.mp hd
    obtain ⟨ss, hss, hd⟩ := Except.bind_eq_ok_iff.mp hd
    obtain ⟨ls, hls, hd⟩ := Except.bind_eq_ok_iff.mp hd
    cases hd
    exact ⟨hcols, hss, hls⟩
  . rintro ⟨hcols, hss, hls⟩
    refine Except.bind_eq_ok_iff.mpr ⟨_, rfl, ?_⟩
    refine Except.bind_eq_ok_iff.mpr ⟨_, hcols, ?_⟩
    refine Except.bind_eq_ok_iff.mpr ⟨_, hss, ?_⟩
    exact Except.bind_eq_ok_iff.mpr ⟨_, hls, rfl⟩

-- Where each value goes is where its specs say
def Settled (kargs : Kargs) (ms : List ViewMetric) : Prop :=
  ∀ m ∈ ms, placesFrom m.block (matched kargs.viewFilters m) =
    (matched kargs.viewFilters m).map m.place

theorem mem_items (h : Settled kargs ms) {a : Item}
    : a ∈ ms.flatMap (items kargs.viewFilters) ↔ ∃ m ∈ ms, ∃ spec ∈ matched kargs.viewFilters m,
        a = { isBytes := m.isBytes, value := m.value, place := m.place spec } := by
  simp only [List.mem_flatMap, items, List.mem_map]
  constructor
  . rintro ⟨m, hm, place, hplace, rfl⟩
    rw [h m hm] at hplace
    obtain ⟨spec, hspec, rfl⟩ := List.mem_map.mp hplace
    exact ⟨m, hm, spec, hspec, rfl⟩
  . rintro ⟨m, hm, spec, hspec, rfl⟩
    refine ⟨m, hm, m.place spec, ?_, rfl⟩
    rw [h m hm]
    exact List.mem_map_of_mem hspec

theorem settled_iff
    : Settled kargs ms ↔ ∀ m ∈ ms, ∀ before spec rest,
        matched kargs.viewFilters m = before ++ spec :: rest →
          normalise spec.port (before.foldl (fun name spec => normalise spec.port name) m.block) =
            normalise spec.port m.block := by
  unfold Settled
  simp only [placesFrom_eq_iff]

theorem CellsApart.apart_items (h : CellsApart py kargs ms) (hsettled : Settled kargs ms)
    : Apart (ms.flatMap (items kargs.viewFilters)) := by
  unfold Apart
  rw [List.pairwise_flatMap]
  constructor
  . intro m hm
    rw [items, hsettled m hm, List.map_map, List.pairwise_map]
    have hnodup : (matched kargs.viewFilters m).Nodup := m.nodup.filter _
    apply hnodup.imp_of_mem
    rintro spec spec' hspec hspec' hne ⟨_, hview, _, hkey⟩
    obtain ⟨hport, hdirection⟩ := h.columns m hm spec hspec m hm spec' hspec' hkey
    apply hne
    cases spec
    cases spec'
    dsimp only [Function.comp_apply, ViewMetric.place] at hview hport hdirection
    rw [hview, hport, hdirection]
  . apply h.apart.imp_of_mem
    rintro m m' hm hm' hapart a ha b hb ⟨hbytes, hview, hname, hkey⟩
    rw [items, hsettled m hm, List.map_map] at ha
    rw [items, hsettled m' hm', List.map_map] at hb
    obtain ⟨spec, hspec, rfl⟩ := List.mem_map.mp ha
    obtain ⟨spec', hspec', rfl⟩ := List.mem_map.mp hb
    obtain ⟨hport, hdirection⟩ := h.columns m hm spec hspec m' hm' spec' hspec' hkey
    apply hapart hbytes spec hspec spec' hspec'
    exact Place.mk.injEq .. ▸ ⟨hview, hport, hdirection, hname⟩

end Runs

section Iff

variable {py : Python} {kargs : Kargs} {devId : Text} {stats : Stats} {ms : List ViewMetric}

-- The columns of two specs are told apart by their keys if the lines can be made up
theorem columns_of_lines (h : stats.metrics.mapM viewMetric = some ms) (hsettled : Settled kargs ms)
    {d : Display} (hd : showStatsView py kargs devId stats = .ok d)
    : ∀ m ∈ ms, ∀ spec ∈ matched kargs.viewFilters m,
        ∀ m' ∈ ms, ∀ spec' ∈ matched kargs.viewFilters m',
          spec.port ++ spec.direction = spec'.port ++ spec'.direction →
            spec.port = spec'.port ∧ spec.direction = spec'.direction := by
  intro m hm spec hspec m' hm' spec' hspec' hkey
  obtain ⟨hcols, hss, hls⟩ := (showStatsView_ok_iff h).mp hd
  have hcolumn : ∀ m ∈ ms, ∀ spec ∈ matched kargs.viewFilters m,
      { port := spec.port, direction := spec.direction, key := spec.port ++ spec.direction } ∈
        d.columns := by
    intro m hm spec hspec
    apply (mem_columns_after hcols).mpr
    exact ⟨rfl, _, (mem_items hsettled).mpr ⟨m, hm, spec, hspec, rfl⟩, rfl, rfl⟩
  have hne : d.sections ≠ [] := by
    intro hnil
    have hviews := (sections_ok hss).1
    rw [hnil] at hviews
    have hview : spec.view ∈ (after (ms.flatMap (items kargs.viewFilters))).views.keys :=
      mem_views_after.mpr ⟨_, (mem_items hsettled).mpr ⟨m, hm, spec, hspec, rfl⟩, rfl⟩
    rw [← hviews.mem_iff] at hview
    cases hview
  have hnodup := (exists_lines_iff.mp ⟨_, hls⟩).resolve_left hne
  have heq := List.inj_on_of_nodup_map hnodup (hcolumn m hm spec hspec)
    (hcolumn m' hm' spec' hspec') hkey
  rw [Column.mk.injEq] at heq
  exact ⟨heq.1, heq.2.1⟩

theorem sortable_of_ok (h : stats.metrics.mapM viewMetric = some ms) (hsettled : Settled kargs ms)
    {d : Display} (hd : showStatsView py kargs devId stats = .ok d)
    : ∀ m ∈ ms, ∀ spec ∈ matched kargs.viewFilters m,
        Sortable py.toPython spec.view ∧ Sortable py.toPython spec.port ∧
          Sortable py.toPython spec.direction ∧
          Sortable py.toPython (normalise spec.port m.block) := by
  intro m hm spec hspec
  obtain ⟨hcols, hss, _⟩ := (showStatsView_ok_iff h).mp hd
  have hitem := (mem_items hsettled).mpr ⟨m, hm, spec, hspec, rfl⟩
  have hsections := exists_sections_iff.mp ⟨_, hss⟩ spec.view
    (mem_views_after.mpr ⟨_, hitem, rfl⟩)
  have hcolumns := exists_columns_iff.mp ⟨_, hcols⟩ spec.port
    (mem_ports_after.mpr ⟨_, hitem, rfl⟩)
  refine ⟨hsections.1, hcolumns.1, hcolumns.2 spec.direction ?_, hsections.2 _ ?_⟩
  . exact mem_directionsOf_after.mpr ⟨_, hitem, rfl, rfl⟩
  . exact mem_rowNames_after.mpr ⟨_, hitem, rfl, rfl⟩

theorem exists_showStatsView (h : stats.metrics.mapM viewMetric = some ms)
    (hsettled : Settled kargs ms) (hapart : CellsApart py kargs ms)
    : ∃ d, showStatsView py kargs devId stats = .ok d := by
  have hitems : ∀ a ∈ ms.flatMap (items kargs.viewFilters), Sortable py.toPython a.place.view ∧
      Sortable py.toPython a.place.port ∧ Sortable py.toPython a.place.direction ∧
      Sortable py.toPython a.place.name := by
    intro a ha
    obtain ⟨m, hm, spec, hspec, rfl⟩ := (mem_items hsettled).mp ha
    exact hapart.sortable m hm spec hspec
  have hcols : ∃ cols, columns py (after (ms.flatMap (items kargs.viewFilters))).ports = .ok cols := by
    apply exists_columns_iff.mpr
    intro port hport
    obtain ⟨a, ha, rfl⟩ := mem_ports_after.mp hport
    refine ⟨(hitems a ha).2.1, ?_⟩
    intro direction hdirection
    obtain ⟨b, hb, _, rfl⟩ := mem_directionsOf_after.mp hdirection
    exact (hitems b hb).2.2.1
  have hss : ∃ ss, sections py (after (ms.flatMap (items kargs.viewFilters))).views = .ok ss := by
    apply exists_sections_iff.mpr
    intro view hview
    obtain ⟨a, ha, rfl⟩ := mem_views_after.mp hview
    refine ⟨(hitems a ha).1, ?_⟩
    intro name hname
    obtain ⟨b, hb, _, rfl⟩ := mem_rowNames_after.mp hname
    exact (hitems b hb).2.2.2
  obtain ⟨cols, hcols⟩ := hcols
  obtain ⟨ss, hss⟩ := hss
  have hkeys : (cols.map (·.key)).Nodup := by
    have hnodup := (columns_ok hcols).2
    apply (List.nodup_map_iff_inj_on hnodup.of_map).mpr
    intro col hcol col' hcol' hkey
    apply List.inj_on_of_nodup_map hnodup hcol hcol'
    obtain ⟨heq, a, ha, hport, hdirection⟩ := (mem_columns_after hcols).mp hcol
    obtain ⟨heq', b, hb, hport', hdirection'⟩ := (mem_columns_after hcols).mp hcol'
    obtain ⟨m, hm, spec, hspec, rfl⟩ := (mem_items hsettled).mp ha
    obtain ⟨m', hm', spec', hspec', rfl⟩ := (mem_items hsettled).mp hb
    have hsame : spec.port ++ spec.direction = spec'.port ++ spec'.direction := by
      rw [heq, heq', hport, hport', hdirection, hdirection'] at hkey
      exact hkey
    obtain ⟨hports, hdirections⟩ := hapart.columns m hm spec hspec m' hm' spec' hspec' hsame
    have hport'' : col.port = col'.port := by rw [hport, hport']; exact hports
    have hdirection'' : col.direction = col'.direction := by
      rw [hdirection, hdirection']
      exact hdirections
    rw [hport'', hdirection'']
  obtain ⟨ls, hls⟩ := exists_lines_iff.mpr (.inr hkeys)
  exact ⟨{ columns := cols, sections := ss, lines := ls },
    (showStatsView_ok_iff h).mpr ⟨hcols, hss, hls⟩⟩

-- The cells of a section are the ones of its view
theorem cell_eq {as : List Item} {s : Section} (hs : IsSection (after as).views s)
    {row : Text × Dict Text Metric} (hrow : row ∈ s.rows) (key : Text)
    : row.2.get? key = cell (after as) s.view row.1 key := by
  rw [hs.cells_eq row hrow]
  rfl

theorem mem_cells_after {as : List Item} {d : Display}
    (hcols : columns py (after as).ports = .ok d.columns)
    (hss : sections py (after as).views = .ok d.sections) {place : Place} {c : Metric}
    : (place, c) ∈ d.cells ↔
        (∃ a ∈ as, place.port = a.place.port ∧ place.direction = a.place.direction) ∧
          cell (after as) place.view place.name (place.port ++ place.direction) = some c := by
  obtain ⟨hviews, hsections⟩ := sections_ok hss
  rw [mem_cells]
  constructor
  . rintro ⟨s, hs, hview, row, hrow, hname, col, hcol, hport, hdirection, hc⟩
    obtain ⟨hkey, a, ha, hport', hdirection'⟩ := (mem_columns_after hcols).mp hcol
    rw [cell_eq (hsections s hs) hrow, hview, hname, hkey, hport, hdirection] at hc
    exact ⟨⟨a, ha, hport.symm.trans hport', hdirection.symm.trans hdirection'⟩, hc⟩
  . rintro ⟨⟨a, ha, hport, hdirection⟩, hc⟩
    obtain ⟨b, hb, hview, hname, _⟩ := isSome_cell_after.mp (Option.isSome_iff_exists.mpr ⟨c, hc⟩)
    have hview' := hviews.mem_iff.mpr (mem_views_after.mpr ⟨b, hb, hview⟩)
    obtain ⟨s, hs, hsview⟩ := List.mem_map.mp hview'
    have hname' := (hsections s hs).names.mem_iff.mpr
      (hsview ▸ mem_rowNames_after.mpr ⟨b, hb, hview, hname⟩)
    obtain ⟨row, hrow, hrowname⟩ := List.mem_map.mp hname'
    have hcol : { port := place.port
                  direction := place.direction
                  key := place.port ++ place.direction } ∈ d.columns :=
      (mem_columns_after hcols).mpr ⟨rfl, a, ha, hport, hdirection⟩
    refine ⟨s, hs, hsview, row, hrow, hrowname, _, hcol, rfl, rfl, ?_⟩
    . rw [cell_eq (hsections s hs) hrow, hsview, hrowname]
      exact hc

theorem showsRight (h : stats.metrics.mapM viewMetric = some ms) (hsettled : Settled kargs ms)
    (hapart : CellsApart py kargs ms) {d : Display}
    (hd : showStatsView py kargs devId stats = .ok d)
    : ShowsRight kargs ms d := by
  obtain ⟨hcols, hss, _⟩ := (showStatsView_ok_iff h).mp hd
  obtain ⟨hviews, hsections⟩ := sections_ok hss
  have hitems := hapart.apart_items hsettled
  have hplaces : ∀ m ∈ ms, places kargs.viewFilters m.block (m.specs.map Spec.text) =
      .ok ((matched kargs.viewFilters m).map m.place) := by
    intro m hm
    obtain ⟨metric, _, hmetric⟩ := exists_of_mem_mapM h hm
    rw [places_of_viewMetric hmetric, hsettled m hm]
  constructor
  . -- nodup
    apply nodup_cells
    . exact hviews.nodup_iff.mpr (Dict.nodup _)
    . intro s hs
      exact (hsections s hs).names.nodup_iff.mpr (Dict.nodup _)
    . exact (columns_ok hcols).2
  . -- own
    intro place
    constructor
    . intro hplace
      obtain ⟨⟨place', c⟩, hc, rfl⟩ := List.mem_map.mp hplace
      obtain ⟨⟨b, hb, hport, hdirection⟩, hcell⟩ := (mem_cells_after hcols hss).mp hc
      obtain ⟨a, ha, hview, hname, hkey⟩ :=
        isSome_cell_after.mp (Option.isSome_iff_exists.mpr ⟨c, hcell⟩)
      obtain ⟨m, hm, spec, hspec, rfl⟩ := (mem_items hsettled).mp ha
      obtain ⟨m', hm', spec', hspec', rfl⟩ := (mem_items hsettled).mp hb
      dsimp only at hview hname hkey hport hdirection ⊢
      rw [hport, hdirection] at hkey
      obtain ⟨hports, hdirections⟩ := hapart.columns m' hm' spec' hspec' m hm spec hspec hkey
      refine ⟨m, hm, spec, hspec, ?_⟩
      cases place'
      rw [ViewMetric.place, Place.mk.injEq]
      exact ⟨hview, hport.trans hports, hdirection.trans hdirections, hname⟩
    . rintro ⟨m, hm, spec, hspec, rfl⟩
      have ha := (mem_items hsettled).mpr ⟨m, hm, spec, hspec, rfl⟩
      obtain ⟨c, hc⟩ := Option.isSome_iff_exists.mp (isSome_cell_after.mpr ⟨_, ha, rfl, rfl, rfl⟩)
      have hmem := (mem_cells_after hcols hss).mpr ⟨⟨_, ha, rfl, rfl⟩, hc⟩
      exact List.mem_map.mpr ⟨_, hmem, rfl⟩
  . exact hplaces
  . -- shown
    intro m hm spec hspec
    refine ⟨hapart.visible m hm (List.ne_nil_of_mem hspec), ?_⟩
    have ha := (mem_items hsettled).mpr ⟨m, hm, spec, hspec, rfl⟩
    obtain ⟨c, hc⟩ := Option.isSome_iff_exists.mp (isSome_cell_after.mpr ⟨_, ha, rfl, rfl, rfl⟩)
    refine ⟨c, (mem_cells_after hcols hss).mpr ⟨⟨_, ha, rfl, rfl⟩, hc⟩, ?_⟩
    rw [← hc]
    exact number_cell_of_mem hitems ha
  . -- unmixed
    apply hapart.apart.imp_of_mem
    intro m m' hm hm' hne hbytes ps ps' hps hps' place hplace hplace'
    rw [hplaces m hm] at hps
    rw [hplaces m' hm'] at hps'
    cases hps
    cases hps'
    obtain ⟨spec, hspec, rfl⟩ := List.mem_map.mp hplace
    obtain ⟨spec', hspec', heq⟩ := List.mem_map.mp hplace'
    exact hne hbytes spec hspec spec' hspec' heq.symm
  . -- totals
    intro s hs col _ isBytes _
    have hsection := hsections s hs
    have htotal : s.totals.get? col.key =
        total (after (ms.flatMap (items kargs.viewFilters))) s.view col.key := by
      rw [hsection.totals_eq]
      rfl
    have hrows : (s.rows.map fun row => number isBytes (row.2.get? col.key)) =
        (s.rows.map Prod.fst).map fun name =>
          number isBytes (cell (after (ms.flatMap (items kargs.viewFilters))) s.view name col.key) := by
      rw [List.map_map]
      apply List.map_congr_left
      intro row hrow
      rw [cell_eq hsection hrow]
      rfl
    rw [htotal, total_eq_sum hitems, hrows]
    exact (hsection.names.map _).sum_eq.symm

theorem shows_iff (h : stats.metrics.mapM viewMetric = some ms)
    : Shows py kargs devId stats ms ↔ CellsApart py kargs ms := by
  constructor
  . rintro ⟨d, hd, hright⟩
    have hsettled : Settled kargs ms := by
      intro m hm
      obtain ⟨metric, _, hmetric⟩ := exists_of_mem_mapM h hm
      have hput := hright.put m hm
      rw [places_of_viewMetric hmetric] at hput
      exact Except.ok.inj hput
    constructor
    . exact settled_iff.mp hsettled
    . apply hright.unmixed.imp_of_mem
      intro m m' hm hm' hdisjoint hbytes spec hspec spec' hspec' heq
      refine hdisjoint hbytes _ _ (hright.put m hm) (hright.put m' hm')
        (List.mem_map_of_mem hspec) ?_
      rw [heq]
      exact List.mem_map_of_mem hspec'
    . exact columns_of_lines h hsettled hd
    . exact sortable_of_ok h hsettled hd
    . intro m hm hne
      obtain ⟨spec, hspec⟩ := List.exists_mem_of_ne_nil _ hne
      exact (hright.shown m hm spec hspec).1
  . intro hapart
    have hsettled := settled_iff.mpr hapart.settled
    obtain ⟨d, hd⟩ := exists_showStatsView h hsettled hapart
    exact ⟨d, hd, showsRight h hsettled hapart hd⟩

end Iff

section Input

def python : Python where
  toPython := StatsFormat.python
  capitalize := id

def everything : Kargs where
  viewFilters := [fun _ => true]
  bytes := false

def viewsLabel (views : Text) : StatsFormat.StatsMetricLabel :=
  { key := ['v', 'i', 'e', 'w', 's'], value := views }

def counter (block views : Text) : StatsFormat.StatsMetric where
  type := .STATS_METRIC_TYPE_COUNTER
  zone := []
  block := block
  name := ['p', 'a', 'c', 'k', 'e', 't', 's']
  numElements := 0
  values := [{ u64 := 7, f64 := 0, index := 0, labels := [viewsLabel views] }]
  lastUpdate := { seconds := 0, nanos := 0 }

-- `probe_0` in `sn:0:in`
def probe : Stats where
  metrics := [counter ['p', 'r', 'o', 'b', 'e', '_', '0'] ['s', 'n', ':', '0', ':', 'i', 'n']]

def probeView : ViewMetric where
  block := ['p', 'r', 'o', 'b', 'e', '_', '0']
  isBytes := false
  value := 7
  specs := [{ view := ['s', 'n'], port := ['0'], direction := ['i', 'n'] }]
  nodup := List.nodup_singleton _

theorem shows_probe : Shows python everything ['0'] probe [probeView] := by
  apply (shows_iff rfl).mpr
  have hm : ∀ m ∈ [probeView], m = probeView := fun m hm => List.mem_singleton.mp hm
  have hspec : ∀ spec ∈ matched everything.viewFilters probeView,
      spec = { view := ['s', 'n'], port := ['0'], direction := ['i', 'n'] } :=
    fun spec hspec => List.mem_singleton.mp hspec
  constructor
  . intro m hmem before spec rest hsplit
    rw [hm m hmem] at hsplit ⊢
    have hlen := congrArg List.length hsplit
    rw [List.length_append, List.length_cons] at hlen
    have hbefore : before = [] := by
      apply List.eq_nil_of_length_eq_zero
      have hone : (matched everything.viewFilters probeView).length = 1 := rfl
      omega
    rw [hbefore]
    rfl
  . exact List.pairwise_singleton ..
  . intro m hmem spec hs m' hmem' spec' hs' _
    rw [hm m hmem] at hs
    rw [hm m' hmem'] at hs'
    rw [hspec spec hs, hspec spec' hs']
    exact ⟨rfl, rfl⟩
  . intro m hmem spec hs
    rw [hm m hmem] at hs ⊢
    rw [hspec spec hs]
    exact ⟨⟨_, rfl⟩, ⟨_, rfl⟩, ⟨_, rfl⟩, _, rfl⟩
  . intro m hmem _ hbytes
    rw [hm m hmem] at hbytes
    cases hbytes

-- `app0_to_app1` in `sn:0:out,sn:1:in`. The row of the second one is `app*_to_app*`.
def leaking : Stats where
  metrics := [counter ['a', 'p', 'p', '0', '_', 't', 'o', '_', 'a', 'p', 'p', '1']
    ['s', 'n', ':', '0', ':', 'o', 'u', 't', ',', 's', 'n', ':', '1', ':', 'i', 'n']]

def leakingView : ViewMetric where
  block := ['a', 'p', 'p', '0', '_', 't', 'o', '_', 'a', 'p', 'p', '1']
  isBytes := false
  value := 7
  specs := [{ view := ['s', 'n'], port := ['0'], direction := ['o', 'u', 't'] },
    { view := ['s', 'n'], port := ['1'], direction := ['i', 'n'] }]
  nodup := by decide

theorem not_shows_leaking
    : leaking.metrics.mapM viewMetric = some [leakingView] ∧
        ¬ Shows python everything ['0'] leaking [leakingView] := by
  refine ⟨rfl, ?_⟩
  rintro ⟨d, _, hright⟩
  have hput := hright.put leakingView List.mem_cons_self
  have hne : places everything.viewFilters leakingView.block (leakingView.specs.map Spec.text) ≠
      .ok ((matched everything.viewFilters leakingView).map leakingView.place) := by decide
  exact hne hput

end Input

end StatsView
