import SmartnicFw.SnP4.Client.StatsFormat

/-!
This module contains the table in which the client shows the metrics of the switch by view
(`_show_stats_view` of `stats.py`).
-/

namespace StatsView

open P4bm (Text)
open StatsFormat (Stats sortNames natText)
open StatsFormat.statsShowFormat (labelDict)

-- `str.capitalize` is the interpreter's
structure Python extends StatsFormat.Python where
  capitalize : Text → Text

inductive ViewError where
  | attributeError
  | indexError
  | valueError
  deriving DecidableEq, Repr

-- A compiled filter is given by the texts that it matches
structure Kargs where
  viewFilters : List (Text → Bool)
  bytes : Bool

structure Metric where
  packets : Nat
  bytes : Nat
  deriving DecidableEq, Repr

namespace Metric

def zero : Metric := { packets := 0, bytes := 0 }

-- The digits of a number, the last one first, with the separators of `:,`
def grouped : Text → Text
  | a :: b :: c :: d :: s => a :: b :: c :: ',' :: grouped (d :: s)
  | s => s

def formatNumber (n : Nat) : Text := (grouped (natText n).reverse).reverse

def formatPackets (m : Metric) : Text := formatNumber m.packets

def formatBytes (m : Metric) : Text := '[' :: formatNumber m.bytes ++ ['B', ']']

end Metric

-- `str.replace`. The characters to skip belong to an occurrence that has been replaced.
def replace (old new : Text) (skip : Nat) : Text → Text
  | [] => []
  | c :: s =>
    match skip with
    | skip + 1 => replace old new skip s
    | 0 =>
      if old.isPrefixOf (c :: s) then
        new ++ replace old new (old.length - 1) s
      else
        c :: replace old new 0 s

-- The name of a row, rewritten for a port
def normalise (port name : Text) : Text :=
  let name := replace (['a', 'p', 'p'] ++ port) ['a', 'p', 'p', '*'] 0 name
  let suffix := '_' :: port
  if suffix.isSuffixOf name then
    name.take (name.length - suffix.length) ++ ['_', '*']
  else
    name

-- Where a value is put, the row by its name
structure Place where
  view : Text
  port : Text
  direction : Text
  name : Text
  deriving DecidableEq, Repr

def Place.colKey (place : Place) : Text := place.port ++ place.direction

-- The specs of one metric in turn. The name goes on from one spec that is shown to the next.
def places (viewFilters : List (Text → Bool)) (name : Text)
    : List Text → Except ViewError (List Place)
  | [] => .ok []
  | viewSpec :: viewSpecs =>
    if viewFilters.any (· viewSpec) then
      match viewSpec.splitOn ':' with
      | [view, port, direction] => do
        let name := normalise port name
        let rest ← places viewFilters name viewSpecs
        .ok ({ view, port, direction, name } :: rest)
      | _ => .error .valueError
    else
      places viewFilters name viewSpecs

structure View where
  rows : Dict Text (Dict Text Metric)
  totals : Dict Text Metric

def View.empty : View := { rows := .empty, totals := .empty }

structure Tables where
  views : Dict Text View
  ports : Dict Text (Dict Text Text)

def Tables.empty : Tables := { views := .empty, ports := .empty }

def assign (isBytes : Bool) (value : Nat) (m : Metric) : Metric :=
  if isBytes then { m with bytes := value } else { m with packets := value }

def accumulate (isBytes : Bool) (value : Nat) (t : Metric) : Metric :=
  if isBytes then { t with bytes := t.bytes + value } else { t with packets := t.packets + value }

def View.put (isBytes : Bool) (value : Nat) (place : Place) (view : View) : View :=
  { rows := view.rows.update place.name .empty fun rowCols =>
      rowCols.update place.colKey .zero (assign isBytes value)
    totals := view.totals.update place.colKey .zero (accumulate isBytes value) }

def put (isBytes : Bool) (value : Nat) (tables : Tables) (place : Place) : Tables :=
  { views := tables.views.update place.view .empty (View.put isBytes value place)
    ports := tables.ports.update place.port .empty fun directions =>
      directions.update place.direction place.colKey id }

def addMetric (viewFilters : List (Text → Bool)) (tables : Tables) (metric : StatsFormat.StatsMetric)
    : Except ViewError Tables :=
  match metric.values with
  | [] => .error .indexError
  | value :: _ =>
    let labels := labelDict value
    let units := (labels.get? ['u', 'n', 'i', 't', 's']).getD ['p', 'a', 'c', 'k', 'e', 't', 's']
    match labels.get? ['v', 'i', 'e', 'w', 's'] with
    | none => .error .attributeError
    | some views => do
      let ps ← places viewFilters metric.block (views.splitOn ',')
      .ok (ps.foldl (put (units = ['b', 'y', 't', 'e', 's']) value.u64.toNat) tables)

def collect (kargs : Kargs) (stats : Stats) : Except ViewError Tables :=
  stats.metrics.foldlM (addMetric kargs.viewFilters) .empty

section Display

variable (py : Python)

def sorted (names : List Text) : Except ViewError (List Text) :=
  (sortNames py.toPython names).mapError fun _ => .valueError

structure Column where
  port : Text
  direction : Text
  key : Text
  deriving DecidableEq, Repr

def portColumns (ports : Dict Text (Dict Text Text)) (port : Text)
    : Except ViewError (List Column) := do
  let directions := (ports.get? port).getD .empty
  let names ← sorted py directions.keys
  return names.map fun direction =>
    { port, direction, key := (directions.get? direction).getD [] }

def columns (ports : Dict Text (Dict Text Text)) : Except ViewError (List Column) := do
  let names ← sorted py ports.keys
  let cols ← names.mapM (portColumns py ports)
  return cols.flatten

-- The rows of a view and their cells, by the keys of the columns
structure Section where
  view : Text
  rows : List (Text × Dict Text Metric)
  totals : Dict Text Metric

def viewSection (views : Dict Text View) (name : Text) : Except ViewError Section := do
  let view := (views.get? name).getD .empty
  let rows ← sorted py view.rows.keys
  return {
    view := name
    rows := rows.map fun row => (row, (view.rows.get? row).getD .empty)
    totals := view.totals }

def sections (views : Dict Text View) : Except ViewError (List Section) := do
  let names ← sorted py views.keys
  names.mapM (viewSection py views)

inductive Align where
  | left
  | right
  deriving DecidableEq, Repr

-- An entry of a column. Without a text there is only the fill.
structure Entry where
  text : Option Text
  fill : Char
  align : Align
  deriving DecidableEq, Repr

def entry (text : Option Text) : Entry := { text, fill := ' ', align := .right }

def rule (fill : Char) : Entry := { text := none, fill, align := .right }

-- What `Column.append` keeps of a text
def Entry.padded (e : Entry) : Text :=
  match e.text with
  | none => []
  | some text => ' ' :: text ++ [' ']

def width (entries : List Entry) : Nat := (entries.map (·.padded.length)).foldl max 0

def Entry.format (width : Nat) (e : Entry) : Text :=
  let padding := List.replicate (width - e.padded.length) e.fill
  match e.align with
  | .left => e.padded ++ padding
  | .right => padding ++ e.padded

variable (withBytes : Bool)

def nameEntries (name : Text) : List Entry :=
  entry (some name) :: if withBytes then [entry none] else []

def numberEntries (m : Option Metric) : List Entry :=
  entry (m.map Metric.formatPackets) ::
    if withBytes then [entry (m.map Metric.formatBytes)] else []

def headEntries (view : Option Text) : List Entry :=
  [rule '=', { text := view, fill := ' ', align := .left }, rule '-']

def nameColumn (devId : Text) (ss : List Section) : List Entry :=
  [rule '=', { text := some (['D', 'e', 'v', 'i', 'c', 'e', ' ', 'I', 'D', ' '] ++ devId)
               fill := ' '
               align := .left }] ++
    (ss.flatMap fun s =>
      headEntries (some s.view) ++ (s.rows.flatMap fun row => nameEntries withBytes row.1) ++
        nameEntries withBytes ['t', 'o', 't', 'a', 'l', 's']) ++
    [rule '=']

-- `metric_cols` has the last column that was made with a key
def metricCols (cols : List Column) : Dict Text Nat :=
  Dict.empty.insertAll (cols.mapIdx fun idx col => (col.key, idx))

def columnHead (col : Column) : Text :=
  ['P', 'o', 'r', 't', ' '] ++ col.port ++ [' '] ++ py.capitalize col.direction

def metricColumn (ss : List Section) (cols : List Column) (idx : Nat) (col : Column)
    : List Entry :=
  [rule '=', entry (some (columnHead py col))] ++
    (ss.flatMap fun s =>
      headEntries none ++
        if (metricCols cols).get? col.key = some idx then
          (s.rows.flatMap fun row => numberEntries withBytes (row.2.get? col.key)) ++
            numberEntries withBytes (s.totals.get? col.key)
        else
          []) ++
    [rule '=']

-- The cells of one line, each after the separator from the column before it
def lineFrom (idx : Nat) (before : Option (Option Text))
    : List (Option Text × List Entry) → Except ViewError Text
  | [] => .ok ['|']
  | (port, entries) :: rest =>
    match entries[idx]? with
    | none => .error .indexError
    | some e => do
      let sep := if before = none ∨ before = some port then ['|'] else ['|', '|']
      let line ← lineFrom idx (some port) rest
      .ok (sep ++ e.format (width entries) ++ line)

def lines (devId : Text) (ss : List Section) (cols : List Column)
    : Except ViewError (List Text) :=
  let name := nameColumn withBytes devId ss
  let all := (none, name) ::
    cols.mapIdx fun idx col => (some col.port, metricColumn py withBytes ss cols idx col)
  if ss.isEmpty then
    .ok []
  else
    (List.range name.length).mapM fun idx => lineFrom idx none all

end Display

-- What is shown, and the lines that it is shown in
structure Display where
  columns : List Column
  sections : List Section
  lines : List Text

def showStatsView (py : Python) (kargs : Kargs) (devId : Text) (stats : Stats)
    : Except ViewError Display := do
  let tables ← collect kargs stats
  let cols ← columns py tables.ports
  let ss ← sections py tables.views
  let lines ← lines py kargs.bytes devId ss cols
  return { columns := cols, sections := ss, lines }

end StatsView
