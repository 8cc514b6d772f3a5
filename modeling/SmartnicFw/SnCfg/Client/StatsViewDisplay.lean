import SmartnicFw.Lib.Except
import SmartnicFw.SnCfg.Client.StatsViewTables

/-!
This module contains what of the tables is displayed: the columns and sections, and when all lines of
the table can be made up from the columns.
-/

namespace StatsView

open P4bm (Text)
open StatsFormat (Sortable sortNames)

section Sorted

variable {py : Python}

theorem sorted_ok {names out : List Text} (h : sorted py names = .ok out)
    : out.Perm names ∧ ∀ name ∈ names, Sortable py.toPython name := by
  unfold sorted at h
  cases hsort : sortNames py.toPython names with
  | error e =>
    rw [hsort] at h
    cases h
  | ok out' =>
    rw [hsort] at h
    cases h
    exact StatsFormat.sortNames_ok hsort

theorem exists_sorted_iff {names : List Text}
    : (∃ out, sorted py names = .ok out) ↔ ∀ name ∈ names, Sortable py.toPython name := by
  constructor
  . rintro ⟨out, h⟩
    exact (sorted_ok h).2
  . intro h
    obtain ⟨out, hout⟩ := StatsFormat.exists_sortNames h
    refine ⟨out, ?_⟩
    rw [sorted, hout]
    rfl

end Sorted

section Sections

variable {py : Python} {views : Dict Text View} {ss : List Section}

def viewOf (views : Dict Text View) (view : Text) : View := (views.get? view).getD .empty

structure IsSection (views : Dict Text View) (s : Section) : Prop where
  totals_eq : s.totals = (viewOf views s.view).totals
  names : (s.rows.map Prod.fst).Perm (viewOf views s.view).rows.keys
  cells_eq : ∀ row ∈ s.rows, row.2 = ((viewOf views s.view).rows.get? row.1).getD .empty

theorem viewSection_ok {name : Text} {s : Section} (h : viewSection py views name = .ok s)
    : s.view = name ∧ IsSection views s := by
  obtain ⟨rows, hrows, h⟩ := Except.bind_eq_ok_iff.mp h
  cases h
  refine ⟨rfl, rfl, ?_, ?_⟩
  . have hmap : (rows.map fun row =>
        (row, (((views.get? name).getD .empty).rows.get? row).getD .empty)).map Prod.fst = rows := by
      rw [List.map_map]
      exact List.map_id rows
    dsimp only
    rw [hmap]
    exact (sorted_ok hrows).1
  . intro row hrow
    obtain ⟨_, _, rfl⟩ := List.mem_map.mp hrow
    rfl

theorem sections_ok (h : sections py views = .ok ss)
    : (ss.map (·.view)).Perm views.keys ∧ ∀ s ∈ ss, IsSection views s := by
  obtain ⟨names, hnames, hss⟩ := Except.bind_eq_ok_iff.mp h
  have hall := Except.forall₂_of_mapM_eq_ok hss
  have hviews : ss.map (·.view) = names ∧ ∀ s ∈ ss, IsSection views s := by
    clear h hnames hss
    induction hall with
    | nil => simp
    | cons hs _ ih =>
      obtain ⟨hview, hs⟩ := viewSection_ok hs
      refine ⟨?_, ?_⟩
      . rw [List.map_cons, hview, ih.1]
      . exact List.forall_mem_cons.mpr ⟨hs, ih.2⟩
  rw [hviews.1]
  exact ⟨(sorted_ok hnames).1, hviews.2⟩

theorem exists_sections_iff
    : (∃ ss, sections py views = .ok ss) ↔
        ∀ view ∈ views.keys, Sortable py.toPython view ∧
          ∀ name ∈ (viewOf views view).rows.keys, Sortable py.toPython name := by
  constructor
  . rintro ⟨ss, h⟩ view hview
    obtain ⟨names, hnames, hss⟩ := Except.bind_eq_ok_iff.mp h
    obtain ⟨s, hs⟩ := Except.exists_mapM_eq_ok_iff.mp ⟨ss, hss⟩ view
      ((sorted_ok hnames).1.mem_iff.mpr hview)
    obtain ⟨rows, hrows, _⟩ := Except.bind_eq_ok_iff.mp hs
    exact ⟨(sorted_ok hnames).2 view hview, (sorted_ok hrows).2⟩
  . intro h
    obtain ⟨names, hnames⟩ := exists_sorted_iff.mpr fun view hview => (h view hview).1
    have hrows : ∀ name ∈ names, ∃ s, viewSection py views name = .ok s := by
      intro name hname
      obtain ⟨rows, hrows⟩ :=
        exists_sorted_iff.mpr (h name ((sorted_ok hnames).1.mem_iff.mp hname)).2
      exact ⟨_, Except.bind_eq_ok_iff.mpr ⟨rows, hrows, rfl⟩⟩
    obtain ⟨ss, hss⟩ := Except.exists_mapM_eq_ok_iff.mpr hrows
    exact ⟨ss, Except.bind_eq_ok_iff.mpr ⟨names, hnames, hss⟩⟩

end Sections

section Columns

variable {py : Python} {ports : Dict Text (Dict Text Text)} {cols : List Column}

def directionsOf (ports : Dict Text (Dict Text Text)) (port : Text) : Dict Text Text :=
  (ports.get? port).getD .empty

def column (ports : Dict Text (Dict Text Text)) (port direction : Text) : Column :=
  { port, direction, key := ((directionsOf ports port).get? direction).getD [] }

theorem portColumns_ok {port : Text} (h : portColumns py ports port = .ok cols)
    : ∃ directions : List Text, cols = directions.map (column ports port) ∧
        directions.Perm (directionsOf ports port).keys ∧
        ∀ direction ∈ (directionsOf ports port).keys, Sortable py.toPython direction := by
  obtain ⟨directions, hdirections, h⟩ := Except.bind_eq_ok_iff.mp h
  cases h
  exact ⟨directions, rfl, sorted_ok hdirections⟩

-- By induction on the ports in their sorted order
theorem flatten_ok {names : List Text} {groups : List (List Column)}
    (h : List.Forall₂ (fun port cols => portColumns py ports port = .ok cols) names groups)
    (hnodup : names.Nodup)
    : (∀ col, col ∈ groups.flatten ↔ col.port ∈ names ∧
          col.direction ∈ (directionsOf ports col.port).keys ∧
          col = column ports col.port col.direction) ∧
        (groups.flatten.map fun col => (col.port, col.direction)).Nodup := by
  induction h with
  | nil => simp
  | @cons port cols names groups hcols _ ih =>
    obtain ⟨hport, hnodup⟩ := List.nodup_cons.mp hnodup
    obtain ⟨directions, rfl, hperm, _⟩ := portColumns_ok hcols
    obtain ⟨hmem, hrest⟩ := ih hnodup
    refine ⟨?_, ?_⟩
    . intro col
      rw [List.flatten_cons, List.mem_append, hmem, List.mem_cons]
      constructor
      . rintro (hcol | ⟨hname, hdirection, heq⟩)
        . obtain ⟨direction, hdirection, rfl⟩ := List.mem_map.mp hcol
          exact ⟨.inl rfl, hperm.mem_iff.mp hdirection, rfl⟩
        . exact ⟨.inr hname, hdirection, heq⟩
      . rintro ⟨rfl | hname, hdirection, heq⟩
        . left
          rw [heq]
          exact List.mem_map_of_mem (hperm.mem_iff.mpr hdirection)
        . exact .inr ⟨hname, hdirection, heq⟩
    . rw [List.flatten_cons, List.map_append, List.nodup_append]
      refine ⟨?_, hrest, ?_⟩
      . rw [List.map_map]
        apply List.Nodup.map
        . intro d d' heq
          exact (Prod.mk.inj heq).2
        . exact hperm.nodup_iff.mpr (Dict.nodup _)
      . rintro _ hcol _ hcol' rfl
        obtain ⟨col, hcol, heq⟩ := List.mem_map.mp hcol
        obtain ⟨direction, _, rfl⟩ := List.mem_map.mp hcol
        obtain ⟨col', hcol', heq'⟩ := List.mem_map.mp hcol'
        apply hport
        have hports : col'.port = port := congrArg Prod.fst (heq'.trans heq.symm)
        rw [← hports]
        exact ((hmem col').mp hcol').1

theorem columns_ok (h : columns py ports = .ok cols)
    : (∀ col, col ∈ cols ↔ col.port ∈ ports.keys ∧
          col.direction ∈ (directionsOf ports col.port).keys ∧
          col = column ports col.port col.direction) ∧
        (cols.map fun col => (col.port, col.direction)).Nodup := by
  obtain ⟨names, hnames, h⟩ := Except.bind_eq_ok_iff.mp h
  obtain ⟨groups, hgroups, h⟩ := Except.bind_eq_ok_iff.mp h
  cases h
  have hperm := (sorted_ok hnames).1
  have hnodup : names.Nodup := hperm.nodup_iff.mpr (Dict.nodup _)
  obtain ⟨hmem, hnodup⟩ := flatten_ok (Except.forall₂_of_mapM_eq_ok hgroups) hnodup
  refine ⟨?_, hnodup⟩
  intro col
  rw [hmem, hperm.mem_iff]

theorem exists_columns_iff
    : (∃ cols, columns py ports = .ok cols) ↔
        ∀ port ∈ ports.keys, Sortable py.toPython port ∧
          ∀ direction ∈ (directionsOf ports port).keys, Sortable py.toPython direction := by
  constructor
  . rintro ⟨cols, h⟩ port hport
    obtain ⟨names, hnames, h⟩ := Except.bind_eq_ok_iff.mp h
    obtain ⟨groups, hgroups, _⟩ := Except.bind_eq_ok_iff.mp h
    obtain ⟨group, hgroup⟩ := Except.exists_mapM_eq_ok_iff.mp ⟨groups, hgroups⟩ port
      ((sorted_ok hnames).1.mem_iff.mpr hport)
    obtain ⟨_, _, _, hsortable⟩ := portColumns_ok hgroup
    exact ⟨(sorted_ok hnames).2 port hport, hsortable⟩
  . intro h
    obtain ⟨names, hnames⟩ := exists_sorted_iff.mpr fun port hport => (h port hport).1
    have hcols : ∀ port ∈ names, ∃ cols, portColumns py ports port = .ok cols := by
      intro port hport
      obtain ⟨directions, hdirections⟩ :=
        exists_sorted_iff.mpr (h port ((sorted_ok hnames).1.mem_iff.mp hport)).2
      exact ⟨_, Except.bind_eq_ok_iff.mpr ⟨directions, hdirections, rfl⟩⟩
    obtain ⟨groups, hgroups⟩ := Except.exists_mapM_eq_ok_iff.mpr hcols
    refine ⟨groups.flatten, ?_⟩
    exact Except.bind_eq_ok_iff.mpr ⟨names, hnames, Except.bind_eq_ok_iff.mpr ⟨groups, hgroups, rfl⟩⟩

end Columns

section Lines

variable {py : Python} {withBytes : Bool} {devId : Text} {ss : List Section} {cols : List Column}

theorem exists_lineFrom_iff {idx : Nat} {before : Option (Option Text)}
    {all : List (Option Text × List Entry)}
    : (∃ line, lineFrom idx before all = .ok line) ↔ ∀ col ∈ all, idx < col.2.length := by
  induction all generalizing before with
  | nil =>
    constructor
    . intro _ col hcol
      cases hcol
    . intro _
      exact ⟨_, rfl⟩
  | cons col all ih =>
    obtain ⟨port, entries⟩ := col
    rw [List.forall_mem_cons, ← @ih (some port), lineFrom]
    by_cases hidx : idx < entries.length
    . rw [List.getElem?_eq_getElem hidx]
      constructor
      . rintro ⟨line, h⟩
        obtain ⟨rest, hrest, _⟩ := Except.bind_eq_ok_iff.mp h
        exact ⟨hidx, rest, hrest⟩
      . rintro ⟨_, rest, hrest⟩
        exact ⟨_, Except.bind_eq_ok_iff.mpr ⟨rest, hrest, rfl⟩⟩
    . rw [List.getElem?_eq_none (by omega)]
      constructor
      . rintro ⟨line, h⟩
        cases h
      . rintro ⟨h, _⟩
        exact absurd h hidx

-- How many lines there are to a row
def depth (withBytes : Bool) : Nat := if withBytes then 2 else 1

theorem length_nameEntries (name : Text) : (nameEntries withBytes name).length = depth withBytes := by
  cases withBytes <;> rfl

theorem length_numberEntries (m : Option Metric)
    : (numberEntries withBytes m).length = depth withBytes := by
  cases withBytes <;> rfl

theorem length_flatMap_const {α β : Type} {f : α → List β} {n : Nat} (h : ∀ a, (f a).length = n)
    (as : List α)
    : (as.flatMap f).length = as.length * n := by
  induction as with
  | nil => simp
  | cons a as ih =>
    rw [List.flatMap_cons, List.length_append, ih, h, List.length_cons, Nat.succ_mul, Nat.add_comm]

theorem length_nameColumn
    : (nameColumn withBytes devId ss).length =
        3 + (ss.map fun s => 3 + (s.rows.length + 1) * depth withBytes).sum := by
  have hsection : ∀ s : Section,
      (headEntries (some s.view) ++ (s.rows.flatMap fun row => nameEntries withBytes row.1) ++
        nameEntries withBytes ['t', 'o', 't', 'a', 'l', 's']).length =
      3 + (s.rows.length + 1) * depth withBytes := by
    intro s
    rw [List.length_append, List.length_append,
      length_flatMap_const fun row : Text × Dict Text Metric => length_nameEntries row.1, length_nameEntries, Nat.succ_mul]
    simp only [headEntries, List.length_cons, List.length_nil]
    omega
  unfold nameColumn
  simp only [List.length_append, List.length_flatMap, hsection, List.length_cons, List.length_nil]
  omega

theorem length_metricColumn (idx : Nat) (col : Column)
    : (metricColumn py withBytes ss cols idx col).length =
        3 + (ss.map fun s => 3 +
          if (metricCols cols).get? col.key = some idx then
            (s.rows.length + 1) * depth withBytes
          else
            0).sum := by
  have hsection : ∀ s : Section,
      (headEntries none ++
        if (metricCols cols).get? col.key = some idx then
          (s.rows.flatMap fun row => numberEntries withBytes (row.2.get? col.key)) ++
            numberEntries withBytes (s.totals.get? col.key)
        else
          []).length =
      3 + if (metricCols cols).get? col.key = some idx then
        (s.rows.length + 1) * depth withBytes
      else
        0 := by
    intro s
    rw [List.length_append]
    split
    . rw [List.length_append,
        length_flatMap_const fun row : Text × Dict Text Metric =>
          length_numberEntries (row.2.get? col.key),
        length_numberEntries, Nat.succ_mul]
      rfl
    . rfl
  unfold metricColumn
  simp only [List.length_append, List.length_flatMap, hsection, List.length_cons, List.length_nil]
  omega

-- The column that the key of one leads to, which is the last one with it
theorem nodup_iff_metricCols
    : (cols.map (·.key)).Nodup ↔
        ∀ idx col, cols[idx]? = some col → (metricCols cols).get? col.key = some idx := by
  have hget : ∀ key, (metricCols cols).get? key =
      Dict.lastOf (cols.mapIdx fun idx col => (col.key, idx)) key := by
    intro key
    unfold metricCols
    rw [Dict.get?_insertAll, Dict.get?_empty, Option.or_none]
  constructor
  . intro hnodup idx col hcol
    have hconst : ∀ p ∈ cols.mapIdx fun idx col => (col.key, idx), p.1 = col.key → p.2 = idx := by
      intro p hp hkey
      obtain ⟨i, hi, rfl⟩ := List.mem_mapIdx.mp hp
      obtain ⟨hidx, rfl⟩ := List.getElem?_eq_some_iff.mp hcol
      have hlen : i < (cols.map (·.key)).length := by rwa [List.length_map]
      apply (List.getElem?_inj hlen hnodup).mp
      rw [List.getElem?_map, List.getElem?_map, List.getElem?_eq_getElem hi,
        List.getElem?_eq_getElem hidx, Option.map_some, Option.map_some]
      exact congrArg some hkey
    rw [hget, Dict.lastOf_of_const hconst, if_pos]
    obtain ⟨hidx, rfl⟩ := List.getElem?_eq_some_iff.mp hcol
    apply List.mem_map.mpr
    exact ⟨(cols[idx].key, idx), List.mem_mapIdx.mpr ⟨idx, hidx, rfl⟩, rfl⟩
  . intro h
    unfold List.Nodup
    rw [List.pairwise_iff_getElem]
    intro i j hi hj hlt heq
    rw [List.length_map] at hi hj
    have h1 := h i cols[i] (List.getElem?_eq_getElem hi)
    have h2 := h j cols[j] (List.getElem?_eq_getElem hj)
    rw [List.getElem_map, List.getElem_map] at heq
    rw [heq, h2] at h1
    have := Option.some.inj h1
    omega

-- A column that another one has replaced is too short for the lines
theorem exists_lines_iff
    : (∃ ls, lines py withBytes devId ss cols = .ok ls) ↔
        ss = [] ∨ (cols.map (·.key)).Nodup := by
  cases ss with
  | nil =>
    constructor
    . intro _
      exact .inl rfl
    . intro _
      exact ⟨[], rfl⟩
  | cons s ss =>
    have hlen : ∀ idx col, (nameColumn withBytes devId (s :: ss)).length ≤
        (metricColumn py withBytes (s :: ss) cols idx col).length ↔
        (metricCols cols).get? col.key = some idx := by
      intro idx col
      rw [length_nameColumn, length_metricColumn, List.sum_map_add, List.sum_map_add]
      by_cases hlive : (metricCols cols).get? col.key = some idx
      . simp only [if_pos hlive, le_refl, true_iff]
        exact hlive
      . have hpos : 0 < (s.rows.length + 1) * depth withBytes :=
          Nat.mul_pos (Nat.succ_pos _) (by cases withBytes <;> decide)
        have hzero : (ss.map fun _ => 0).sum = 0 := by simp
        simp only [if_neg hlive, List.map_cons, List.sum_cons]
        constructor
        . intro hle
          omega
        . intro h
          exact absurd h hlive
    have hshort : (∀ idx ∈ List.range (nameColumn withBytes devId (s :: ss)).length,
        ∃ line, lineFrom idx none ((none, nameColumn withBytes devId (s :: ss)) ::
          cols.mapIdx fun idx col =>
            (some col.port, metricColumn py withBytes (s :: ss) cols idx col)) = .ok line) ↔
        ∀ idx col, cols[idx]? = some col → (metricCols cols).get? col.key = some idx := by
      simp only [exists_lineFrom_iff, List.forall_mem_cons, List.mem_range]
      constructor
      . intro h idx col hcol
        obtain ⟨hidx, rfl⟩ := List.getElem?_eq_some_iff.mp hcol
        rw [← hlen]
        by_contra hlt
        have hcolumn := (h _ (Nat.lt_of_not_le hlt)).2 _ (List.mem_mapIdx.mpr ⟨idx, hidx, rfl⟩)
        exact Nat.lt_irrefl _ hcolumn
      . intro h idx hidx
        refine ⟨hidx, ?_⟩
        rintro _ hcol
        obtain ⟨i, hi, rfl⟩ := List.mem_mapIdx.mp hcol
        exact Nat.lt_of_lt_of_le hidx ((hlen _ _).mpr (h i _ (List.getElem?_eq_getElem hi)))
    rw [nodup_iff_metricCols, ← hshort, ← Except.exists_mapM_eq_ok_iff]
    simp [lines]

end Lines

end StatsView
