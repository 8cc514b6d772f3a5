import SmartnicFw.Lib.Tally
import SmartnicFw.SnCfg.Client.StatsView

/-!
This module contains what the cells and the totals of the views are after the values of some metrics
have been put into them.
-/

namespace StatsView

open P4bm (Text)
open StatsFormat (Stats)
open StatsFormat.statsShowFormat (labelDict)

section Metrics

structure Spec where
  view : Text
  port : Text
  direction : Text
  deriving DecidableEq, Repr

def Spec.text (spec : Spec) : Text := spec.view ++ ':' :: (spec.port ++ ':' :: spec.direction)

def readSpec (viewSpec : Text) : Option Spec :=
  match viewSpec.splitOn ':' with
  | [view, port, direction] => some { view, port, direction }
  | _ => none

-- What a metric with a list of different view specs says of itself
structure ViewMetric where
  block : Text
  isBytes : Bool
  value : Nat
  specs : List Spec
  nodup : specs.Nodup

def viewMetric (metric : StatsFormat.StatsMetric) : Option ViewMetric :=
  match metric.values with
  | [] => none
  | value :: _ => do
    let labels := labelDict value
    let units := (labels.get? ['u', 'n', 'i', 't', 's']).getD ['p', 'a', 'c', 'k', 'e', 't', 's']
    let views ← labels.get? ['v', 'i', 'e', 'w', 's']
    let specs ← (views.splitOn ',').mapM readSpec
    if h : specs.Nodup then
      some {
        block := metric.block
        isBytes := units = ['b', 'y', 't', 'e', 's']
        value := value.u64.toNat
        specs
        nodup := h }
    else
      none

variable (viewFilters : List (Text → Bool))

def wanted (spec : Spec) : Bool := viewFilters.any (· spec.text)

def matched (m : ViewMetric) : List Spec := m.specs.filter (wanted viewFilters)

-- The cell of a spec, on the row of the name that is rewritten for its port alone
def ViewMetric.place (m : ViewMetric) (spec : Spec) : Place :=
  { view := spec.view
    port := spec.port
    direction := spec.direction
    name := normalise spec.port m.block }

-- The cells that the value is put into, the name going on from one to the next
def placesFrom (name : Text) : List Spec → List Place
  | [] => []
  | spec :: specs =>
    let name := normalise spec.port name
    { view := spec.view, port := spec.port, direction := spec.direction, name } ::
      placesFrom name specs

theorem splitOn_of_readSpec {viewSpec : Text} {spec : Spec} (h : readSpec viewSpec = some spec)
    : viewSpec.splitOn ':' = [spec.view, spec.port, spec.direction] := by
  unfold readSpec at h
  split at h
  . next hsplit =>
    rw [← Option.some.inj h]
    exact hsplit
  . cases h

theorem text_of_readSpec {viewSpec : Text} {spec : Spec} (h : readSpec viewSpec = some spec)
    : spec.text = viewSpec := by
  have hjoin := congrArg (List.intercalate [':']) (splitOn_of_readSpec h)
  rw [List.intercalate_splitOn] at hjoin
  rw [hjoin]
  simp [Spec.text, List.intercalate]

theorem places_eq {viewSpecs : List Text} {specs : List Spec}
    (h : viewSpecs.mapM readSpec = some specs) (name : Text)
    : places viewFilters name viewSpecs =
        .ok (placesFrom name (specs.filter (wanted viewFilters))) := by
  induction viewSpecs generalizing specs name with
  | nil =>
    rw [List.mapM_nil] at h
    cases h
    rfl
  | cons viewSpec viewSpecs ih =>
    rw [List.mapM_cons] at h
    obtain ⟨spec, hspec, h⟩ := Option.bind_eq_some_iff.mp h
    obtain ⟨rest, hrest, h⟩ := Option.bind_eq_some_iff.mp h
    cases h
    have htext := text_of_readSpec hspec
    by_cases hany : viewFilters.any (· viewSpec)
    . have hwanted : wanted viewFilters spec = true := by rw [wanted, htext]; exact hany
      rw [places, if_pos hany, splitOn_of_readSpec hspec, List.filter_cons_of_pos hwanted]
      simp only [ih hrest, placesFrom]
      rfl
    . have hwanted : ¬ wanted viewFilters spec = true := by rw [wanted, htext]; exact hany
      rw [places, if_neg hany, List.filter_cons_of_neg hwanted]
      exact ih hrest name

-- A value on its way into a cell
structure Item where
  isBytes : Bool
  value : Nat
  place : Place

def putItem (tables : Tables) (item : Item) : Tables :=
  put item.isBytes item.value tables item.place

def items (m : ViewMetric) : List Item :=
  (placesFrom m.block (matched viewFilters m)).map fun place =>
    { isBytes := m.isBytes, value := m.value, place }

theorem addMetric_eq {metric : StatsFormat.StatsMetric} {m : ViewMetric} (h : viewMetric metric = some m)
    (tables : Tables)
    : addMetric viewFilters tables metric = .ok ((items viewFilters m).foldl putItem tables) := by
  unfold viewMetric at h
  unfold addMetric
  cases hvalues : metric.values with
  | nil =>
    rw [hvalues] at h
    cases h
  | cons value values =>
    rw [hvalues] at h
    obtain ⟨views, hviews, h⟩ := Option.bind_eq_some_iff.mp h
    obtain ⟨specs, hspecs, h⟩ := Option.bind_eq_some_iff.mp h
    split at h
    . cases h
      dsimp only
      rw [hviews]
      simp only [places_eq viewFilters hspecs]
      unfold items
      rw [List.foldl_map]
      rfl
    . cases h

theorem collect_eq {metrics : List StatsFormat.StatsMetric} {ms : List ViewMetric}
    (h : metrics.mapM viewMetric = some ms) (tables : Tables)
    : metrics.foldlM (addMetric viewFilters) tables =
        .ok ((ms.flatMap (items viewFilters)).foldl putItem tables) := by
  induction metrics generalizing ms tables with
  | nil =>
    rw [List.mapM_nil] at h
    cases h
    rfl
  | cons metric metrics ih =>
    rw [List.mapM_cons] at h
    obtain ⟨m, hm, h⟩ := Option.bind_eq_some_iff.mp h
    obtain ⟨ms', hms, h⟩ := Option.bind_eq_some_iff.mp h
    cases h
    rw [List.foldlM_cons, addMetric_eq viewFilters hm, List.flatMap_cons, List.foldl_append]
    exact ih hms _

end Metrics

section Cells

def cell (tables : Tables) (view name key : Text) : Option Metric :=
  ((((tables.views.get? view).getD .empty).rows.get? name).getD .empty).get? key

def total (tables : Tables) (view key : Text) : Option Metric :=
  ((tables.views.get? view).getD .empty).totals.get? key

def keyOf (tables : Tables) (port direction : Text) : Option Text :=
  ((tables.ports.get? port).getD .empty).get? direction

-- What a cell shows of packets or of bytes
def number (isBytes : Bool) (m : Option Metric) : Nat :=
  if isBytes then (m.getD .zero).bytes else (m.getD .zero).packets

variable (isBytes : Bool) (value : Nat) (tables : Tables) (place : Place)

theorem cell_put (view name key : Text)
    : cell (put isBytes value tables place) view name key =
        if view = place.view ∧ name = place.name ∧ key = place.colKey then
          some (assign isBytes value ((cell tables view name key).getD .zero))
        else
          cell tables view name key := by
  unfold cell put
  dsimp only
  rw [Dict.get?_update]
  by_cases hview : view = place.view
  . subst hview
    rw [if_pos rfl, Option.getD_some, View.put]
    dsimp only
    rw [Dict.get?_update]
    by_cases hname : name = place.name
    . subst hname
      rw [if_pos rfl, Option.getD_some, Dict.get?_update]
      by_cases hkey : key = place.colKey
      . subst hkey
        rw [if_pos rfl, if_pos ⟨rfl, rfl, rfl⟩]
      . rw [if_neg hkey, if_neg (fun h => hkey h.2.2)]
    . rw [if_neg hname, if_neg (fun h => hname h.2.1)]
  . rw [if_neg hview, if_neg (fun h => hview h.1)]

theorem total_put (view key : Text)
    : total (put isBytes value tables place) view key =
        if view = place.view ∧ key = place.colKey then
          some (accumulate isBytes value ((total tables view key).getD .zero))
        else
          total tables view key := by
  unfold total put
  dsimp only
  rw [Dict.get?_update]
  by_cases hview : view = place.view
  . subst hview
    rw [if_pos rfl, Option.getD_some, View.put]
    dsimp only
    rw [Dict.get?_update]
    by_cases hkey : key = place.colKey
    . subst hkey
      rw [if_pos rfl, if_pos ⟨rfl, rfl⟩]
    . rw [if_neg hkey, if_neg (fun h => hkey h.2)]
  . rw [if_neg hview, if_neg (fun h => hview h.1)]

theorem number_cell_put (isBytes' : Bool) (view name key : Text)
    : number isBytes' (cell (put isBytes value tables place) view name key) =
        if isBytes' = isBytes ∧ view = place.view ∧ name = place.name ∧ key = place.colKey then
          value
        else
          number isBytes' (cell tables view name key) := by
  rw [cell_put]
  by_cases h : view = place.view ∧ name = place.name ∧ key = place.colKey
  . rw [if_pos h]
    cases isBytes
    all_goals
      cases isBytes'
      all_goals simp [number, assign, h]
  . rw [if_neg h, if_neg (fun h' => h h'.2)]

theorem number_total_put (isBytes' : Bool) (view key : Text)
    : number isBytes' (total (put isBytes value tables place) view key) =
        number isBytes' (total tables view key) +
          if isBytes' = isBytes ∧ view = place.view ∧ key = place.colKey then value else 0 := by
  rw [total_put]
  by_cases h : view = place.view ∧ key = place.colKey
  . rw [if_pos h]
    cases isBytes
    all_goals
      cases isBytes'
      all_goals simp [number, accumulate, h]
  . rw [if_neg h, if_neg (fun h' => h h'.2), Nat.add_zero]

theorem keyOf_put (port direction : Text)
    : keyOf (put isBytes value tables place) port direction =
        if port = place.port ∧ direction = place.direction then
          some ((keyOf tables port direction).getD place.colKey)
        else
          keyOf tables port direction := by
  unfold keyOf put
  dsimp only
  rw [Dict.get?_update]
  by_cases hport : port = place.port
  . subst hport
    rw [if_pos rfl, Option.getD_some, Dict.get?_update]
    by_cases hdirection : direction = place.direction
    . subst hdirection
      rw [if_pos rfl, if_pos ⟨rfl, rfl⟩, id]
    . rw [if_neg hdirection, if_neg (fun h => hdirection h.2)]
  . rw [if_neg hport, if_neg (fun h => hport h.1)]

theorem mem_views_put (view : Text)
    : view ∈ (put isBytes value tables place).views.keys ↔
        view ∈ tables.views.keys ∨ view = place.view := by
  exact Dict.mem_keys_update

def rowNames (tables : Tables) (view : Text) : List Text :=
  ((tables.views.get? view).getD .empty).rows.keys

theorem mem_rowNames_put (view name : Text)
    : name ∈ rowNames (put isBytes value tables place) view ↔
        name ∈ rowNames tables view ∨ (view = place.view ∧ name = place.name) := by
  unfold rowNames put
  dsimp only
  rw [Dict.get?_update]
  by_cases hview : view = place.view
  . subst hview
    rw [if_pos rfl, Option.getD_some, View.put]
    dsimp only
    rw [Dict.mem_keys_update]
    simp
  . simp [hview]

theorem mem_ports_put (port : Text)
    : port ∈ (put isBytes value tables place).ports.keys ↔
        port ∈ tables.ports.keys ∨ port = place.port := by
  exact Dict.mem_keys_update

end Cells

section Puts

variable (as : List Item)

def after : Tables := as.foldl putItem .empty

-- The items of a cell, and the ones of a column in a view
def InCell (isBytes : Bool) (view name key : Text) (a : Item) : Prop :=
  isBytes = a.isBytes ∧ view = a.place.view ∧ name = a.place.name ∧ key = a.place.colKey

def InColumn (isBytes : Bool) (view key : Text) (a : Item) : Prop :=
  isBytes = a.isBytes ∧ view = a.place.view ∧ key = a.place.colKey

instance (isBytes : Bool) (view name key : Text) : DecidablePred (InCell isBytes view name key) :=
  fun _ => inferInstanceAs (Decidable (_ ∧ _))

instance (isBytes : Bool) (view key : Text) : DecidablePred (InColumn isBytes view key) :=
  fun _ => inferInstanceAs (Decidable (_ ∧ _))

-- No two values are put into one cell
def Apart : Prop :=
  as.Pairwise fun a b =>
    ¬ (a.isBytes = b.isBytes ∧ a.place.view = b.place.view ∧ a.place.name = b.place.name ∧
      a.place.colKey = b.place.colKey)

theorem number_total_after (isBytes : Bool) (view key : Text)
    : number isBytes (total (after as) view key) =
        Tally.sumOf (InColumn isBytes view key) (·.value) as := by
  have hempty : number isBytes (total .empty view key) = 0 := by cases isBytes <;> rfl
  have hfold := Tally.foldl_add (fun tables => number isBytes (total tables view key))
    (fun tables (a : Item) => number_total_put a.isBytes a.value tables a.place isBytes view key)
    as .empty
  rw [hempty, Nat.zero_add] at hfold
  exact hfold

variable {as}

theorem Apart.inCell (h : Apart as) (isBytes : Bool) (view name key : Text)
    : as.Pairwise fun a b =>
        ¬ (InCell isBytes view name key a ∧ InCell isBytes view name key b) := by
  apply h.imp
  rintro a b hapart ⟨⟨hbytes, hview, hname, hkey⟩, hbytes', hview', hname', hkey'⟩
  exact hapart ⟨hbytes.symm.trans hbytes', hview.symm.trans hview', hname.symm.trans hname',
    hkey.symm.trans hkey'⟩

theorem number_cell_after (h : Apart as) (isBytes : Bool) (view name key : Text)
    : number isBytes (cell (after as) view name key) =
        Tally.sumOf (InCell isBytes view name key) (·.value) as := by
  apply Tally.foldl_replace fun tables => number isBytes (cell tables view name key)
  . intro tables a
    exact number_cell_put a.isBytes a.value tables a.place isBytes view name key
  . exact h.inCell isBytes view name key
  . cases isBytes <;> rfl

theorem mem_views_after {view : Text}
    : view ∈ (after as).views.keys ↔ ∃ a ∈ as, view = a.place.view := by
  have hfold := Tally.foldl_iff (fun tables => view ∈ tables.views.keys)
    (fun tables (a : Item) => mem_views_put a.isBytes a.value tables a.place view) as .empty
  exact hfold.trans (or_iff_right List.not_mem_nil)

theorem mem_rowNames_after {view name : Text}
    : name ∈ rowNames (after as) view ↔ ∃ a ∈ as, view = a.place.view ∧ name = a.place.name := by
  have hfold := Tally.foldl_iff (fun tables => name ∈ rowNames tables view)
    (fun tables (a : Item) => mem_rowNames_put a.isBytes a.value tables a.place view name) as .empty
  exact hfold.trans (or_iff_right List.not_mem_nil)

theorem isSome_cell_after {view name key : Text}
    : (cell (after as) view name key).isSome ↔
        ∃ a ∈ as, view = a.place.view ∧ name = a.place.name ∧ key = a.place.colKey := by
  have hput : ∀ tables (a : Item), (cell (putItem tables a) view name key).isSome ↔
      (cell tables view name key).isSome ∨
        (view = a.place.view ∧ name = a.place.name ∧ key = a.place.colKey) := by
    intro tables a
    rw [putItem, cell_put]
    split
    . simp [*]
    . simp [*]
  have hfold := Tally.foldl_iff (fun tables => (cell tables view name key).isSome) hput as .empty
  exact hfold.trans (or_iff_right Bool.noConfusion)

theorem mem_ports_after {port : Text}
    : port ∈ (after as).ports.keys ↔ ∃ a ∈ as, port = a.place.port := by
  have hfold := Tally.foldl_iff (fun tables => port ∈ tables.ports.keys)
    (fun tables (a : Item) => mem_ports_put a.isBytes a.value tables a.place port) as .empty
  exact hfold.trans (or_iff_right List.not_mem_nil)

theorem isSome_keyOf_after {port direction : Text}
    : (keyOf (after as) port direction).isSome ↔
        ∃ a ∈ as, port = a.place.port ∧ direction = a.place.direction := by
  have hput : ∀ tables (a : Item), (keyOf (putItem tables a) port direction).isSome ↔
      (keyOf tables port direction).isSome ∨
        (port = a.place.port ∧ direction = a.place.direction) := by
    intro tables a
    rw [putItem, keyOf_put]
    split
    . simp [*]
    . simp [*]
  have hfold := Tally.foldl_iff (fun tables => (keyOf tables port direction).isSome) hput as .empty
  exact hfold.trans (or_iff_right Bool.noConfusion)

theorem keyOf_after {port direction key : Text} (h : keyOf (after as) port direction = some key)
    : key = port ++ direction := by
  unfold after at h
  induction as using List.reverseRecOn generalizing key with
  | nil => cases h
  | append_singleton as a ih =>
    rw [List.foldl_concat, putItem, keyOf_put] at h
    split at h
    . next heq =>
      cases hkey : keyOf (as.foldl putItem .empty) port direction with
      | none =>
        rw [hkey] at h
        rw [← Option.some.inj h, Option.getD_none, Place.colKey, heq.1, heq.2]
      | some key' =>
        rw [hkey] at h
        rw [← Option.some.inj h]
        exact ih hkey
    . exact ih h

-- A column has its own total when each value has its own cell
theorem total_eq_sum (h : Apart as) (isBytes : Bool) (view key : Text)
    : number isBytes (total (after as) view key) =
        ((rowNames (after as) view).map fun name =>
          number isBytes (cell (after as) view name key)).sum := by
  have hrows : ∀ a ∈ as, InColumn isBytes view key a → a.place.name ∈ rowNames (after as) view :=
    fun a ha hcol => mem_rowNames_after.mpr ⟨a, ha, hcol.2.1, rfl⟩
  have hnodup : (rowNames (after as) view).Nodup := Dict.nodup _
  rw [number_total_after, ← Tally.sum_rows (fun a => a.place.name) hnodup hrows]
  congr 1
  apply List.map_congr_left
  intro name _
  rw [number_cell_after h]
  apply Tally.sumOf_congr
  intro a _
  unfold InColumn InCell
  constructor
  . rintro ⟨⟨hbytes, hview, hkey⟩, hname⟩
    exact ⟨hbytes, hview, hname.symm, hkey⟩
  . rintro ⟨hbytes, hview, hname, hkey⟩
    exact ⟨⟨hbytes, hview, hkey⟩, hname.symm⟩

-- A value stays in the cell that it was put into
theorem number_cell_of_mem (h : Apart as) {a : Item} (ha : a ∈ as)
    : number a.isBytes (cell (after as) a.place.view a.place.name a.place.colKey) = a.value := by
  rw [number_cell_after h]
  exact Tally.sumOf_of_mem (h.inCell ..) ha ⟨rfl, rfl, rfl, rfl⟩

end Puts

end StatsView
