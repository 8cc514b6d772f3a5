import SmartnicFw.Lib.Dict
import SmartnicFw.SnP4.Client.P4bm

/-!
This module contains the rows in which the client shows a statistics message (`stats.py`).
-/

namespace StatsFormat

open P4bm (Text Unicode P4bmError pyInt)

inductive StatsMetricType where
  | STATS_METRIC_TYPE_COUNTER
  | STATS_METRIC_TYPE_GAUGE
  | STATS_METRIC_TYPE_FLAG
  | other (value : Int)
  deriving DecidableEq, Repr

structure StatsMetricLabel where
  key : Text
  value : Text
  deriving DecidableEq, Repr

-- `f64` is the bits of the floating point number
structure StatsMetricValue where
  u64 : UInt64
  f64 : UInt64
  index : UInt32
  labels : List StatsMetricLabel
  deriving DecidableEq, Repr

structure Timestamp where
  seconds : Int
  nanos : Int
  deriving DecidableEq, Repr

structure StatsMetric where
  type : StatsMetricType
  zone : Text
  block : Text
  name : Text
  numElements : UInt32
  values : List StatsMetricValue
  lastUpdate : Timestamp
  deriving DecidableEq, Repr

structure Stats where
  metrics : List StatsMetric
  deriving DecidableEq, Repr

structure Kargs where
  lastUpdate : Bool
  labels : Bool
  aliases : Bool
  longName : Bool
  deriving DecidableEq, Repr

-- What the interpreter knows of characters and of floating point numbers: `str.isdigit` of one
-- character, and the format `.4g`
structure Python where
  unicode : Unicode
  isdigit : Char → Bool
  formatG : UInt64 → Text

def natText (n : Nat) : Text := Nat.toDigits 10 n

def intText : Int → Text
  | .ofNat n => natText n
  | .negSucc n => '-' :: natText (n + 1)

def formatTimestamp (ts : Timestamp) : Text :=
  intText ts.seconds ++ ['s', '.'] ++ intText ts.nanos ++ ['n', 's']

inductive KeyPart where
  | num (n : Int)
  | text (s : Text)
  deriving DecidableEq, Repr

namespace naturalSortKey

-- `re.split(r'(\d+)', item)`, with the piece that is being read in reverse order
def split (u : Unicode) (inDigits : Bool) (piece : Text) : Text → List Text
  | [] => if inDigits then [piece.reverse, []] else [piece.reverse]
  | c :: s =>
    if (u.decimal c).isSome = inDigits then
      split u inDigits (c :: piece) s
    else
      piece.reverse :: split u (!inDigits) [c] s

def part (py : Python) (d : Text) : Except P4bmError KeyPart :=
  if d ≠ [] ∧ d.all py.isdigit then
    (pyInt py.unicode d).map .num
  else
    .ok (.text d)

end naturalSortKey

def naturalSortKey (py : Python) (item : Text) : Except P4bmError (List KeyPart) :=
  (naturalSortKey.split py.unicode false [] item).mapM (naturalSortKey.part py)

-- Numbers and texts are at the same places of every key, and are not compared with each other
def KeyPart.lt : KeyPart → KeyPart → Bool
  | num n, num m => n < m
  | text s, text t => s < t
  | _, _ => false

def keyLe : List KeyPart → List KeyPart → Bool
  | [], _ => true
  | _ :: _, [] => false
  | a :: as, b :: bs => if a = b then keyLe as bs else a.lt b

-- `sorted(names, key=natural_sort_key)`
def sortNames (py : Python) (names : List Text) : Except P4bmError (List Text) := do
  let keyed ← names.mapM fun name => (naturalSortKey py name).map fun key => (key, name)
  return (keyed.mergeSort fun a b => keyLe a.1 b.1).map Prod.snd

-- The object that is made for a value. `ident` tells it from all others.
structure Item where
  ident : Nat
  shortName : Text
  longName : Text
  value : Text
  lastUpdate : Text
  labels : Dict Text Text

namespace statsShowFormat

def svalue (py : Python) (metric : StatsMetric) (value : StatsMetricValue) : Text :=
  match metric.type with
  | .STATS_METRIC_TYPE_FLAG => if value.u64 ≠ 0 then ['y', 'e', 's'] else ['n', 'o']
  | .STATS_METRIC_TYPE_GAUGE => py.formatG value.f64
  | _ => natText value.u64.toNat

def labelDict (value : StatsMetricValue) : Dict Text Text :=
  Dict.empty.insertAll (value.labels.map fun l => (l.key, l.value))

def baseName (kargs : Kargs) (metric : StatsMetric) (value : StatsMetricValue) : Text :=
  let ownName :=
    if metric.numElements > 0 then
      metric.name ++ '[' :: natText value.index.toNat ++ [']']
    else
      metric.name
  if kargs.aliases then
    match (labelDict value).get? ['a', 'l', 'i', 'a', 's'] with
    | none => ownName
    | some [] => ownName
    | some name => name
  else
    ownName

def longName (metric : StatsMetric) (base : Text) : Text :=
  metric.zone ++ '.' :: (metric.block ++ '.' :: base)

def shortName (metric : StatsMetric) (base : Text) : Text :=
  if metric.block.isPrefixOf base then base else metric.block ++ '.' :: base

def item (py : Python) (kargs : Kargs) (metric : StatsMetric) (value : StatsMetricValue)
    (ident : Nat)
    : Item :=
  let base := baseName kargs metric value
  { ident
    shortName := shortName metric base
    longName := longName metric base
    value := svalue py metric value
    lastUpdate := formatTimestamp metric.lastUpdate
    labels := labelDict value }

end statsShowFormat

open statsShowFormat

-- The objects of a message, in the order in which they are made
def items (py : Python) (kargs : Kargs) (stats : Stats) : List Item :=
  (stats.metrics.flatMap fun metric => metric.values.map fun value => (metric, value)).mapIdx
    fun ident p => item py kargs p.1 p.2 ident

-- What one short name adds to the final dictionary
def assignments (byLongName : Dict Text (List Item)) (shortName : Text) (slist : List Item)
    : List (Text × List Item) :=
  if slist.length = 1 then
    [(shortName, slist)]
  else
    slist.map fun m => (m.longName, (byLongName.get? m.longName).getD [])

def finalDict (kargs : Kargs) (ms : List Item) : Dict Text (List Item) :=
  let byShortName := Dict.group Item.shortName ms
  let byLongName := Dict.group Item.longName ms
  if kargs.longName then
    byLongName
  else
    Dict.empty.insertAll (byShortName.entries.flatMap fun p => assignments byLongName p.1 p.2)

-- A row, with the object that it was made from if it shows a value
structure Row where
  text : Text
  item : Option Item

def padLeft (width : Nat) (s : Text) : Text := List.replicate (width - s.length) ' ' ++ s

def padRight (width : Nat) (s : Text) : Text := s ++ List.replicate (width - s.length) ' '

def maxLength (ss : List Text) : Nat := (ss.map List.length).foldl max 0

def itemRows (kargs : Kargs) (nameLen valueLen : Nat) (name : Text) (m : Item) : List Row :=
  let row := padLeft nameLen name ++ [':', ' '] ++ padRight valueLen m.value
  let row := if kargs.lastUpdate then row ++ [' ', ' ', ' ', ' ', '['] ++ m.lastUpdate ++ [']']
    else row
  let labelRows :=
    if kargs.labels then
      (m.labels.entries.mergeSort fun a b => a.1 ≤ b.1).map fun p =>
        { text := padLeft nameLen [] ++ [' ', ' ', '<'] ++ p.1 ++ ['=', '"'] ++ p.2 ++ ['"', '>']
          item := none }
    else
      []
  { text := row, item := some m } :: labelRows

def statsShowFormat (py : Python) (kargs : Kargs) (stats : Stats) : Except P4bmError (List Row) :=
  let final := finalDict kargs (items py kargs stats)
  let nameLen := maxLength final.keys
  let valueLen := maxLength (final.entries.flatMap fun p => p.2.map Item.value)
  match sortNames py final.keys with
  | .error e => .error e
  | .ok names =>
    .ok <| names.flatMap fun name =>
      ((final.get? name).getD []).flatMap (itemRows kargs nameLen valueLen name)

-- Each object of the message has one row with its value
def ExactlyOnce (py : Python) (kargs : Kargs) (stats : Stats) : Prop :=
  ∃ rows, statsShowFormat py kargs stats = .ok rows ∧
    (rows.filterMap Row.item).Perm (items py kargs stats)

-- The names of the values of a message decide under which names these are shown
section Names

variable (ms : List Item)

-- The short name of one value only
def Single (name : Text) : Prop := (ms.filter (·.shortName = name)).length = 1

instance (name : Text) : Decidable (Single ms name) := inferInstanceAs (Decidable (_ = _))

-- A value that has to be shown under its long name
def Fallback (name : Text) (m : Item) : Prop :=
  m ∈ ms ∧ ¬ Single ms m.shortName ∧ m.longName = name

-- The place of the first value with a short name
def firstUse (name : Text) : Nat := Dict.place (ms.map Item.shortName) name

-- The name shows the values that have it as their long name. Where it is the short name of one
-- value as well, what comes last in the order of the short names counts.
def ShowsLong (name : Text) : Prop :=
  if Single ms name then
    ∃ m, Fallback ms name m ∧ firstUse ms name < firstUse ms m.shortName
  else
    ∃ m, Fallback ms name m

def Shown (kargs : Kargs) (name : Text) : Prop :=
  if kargs.longName then
    ∃ m ∈ ms, m.longName = name
  else
    Single ms name ∨ ∃ m, Fallback ms name m

-- The exact condition on the names
structure NamesApart : Prop where
  single : ∀ m ∈ ms, Single ms m.shortName →
    (ShowsLong ms m.shortName ↔ ShowsLong ms m.longName)
  shared : ∀ m ∈ ms, ¬ Single ms m.shortName → ShowsLong ms m.longName

end Names

def Sortable (py : Python) (name : Text) : Prop := ∃ key, naturalSortKey py name = .ok key

theorem shortName_ne_longName (py : Python) (kargs : Kargs) (stats : Stats) {m : Item}
    (h : m ∈ items py kargs stats)
    : m.shortName ≠ m.longName := by
  obtain ⟨i, hi, hm⟩ := List.mem_mapIdx.mp h
  intro heq
  have hlen := congrArg List.length heq
  rw [← hm] at hlen
  unfold item shortName longName at hlen
  dsimp only at hlen
  split at hlen <;> simp at hlen <;> omega

theorem nodup_items (py : Python) (kargs : Kargs) (stats : Stats) : (items py kargs stats).Nodup := by
  apply List.Nodup.of_map Item.ident
  have hrange : (items py kargs stats).map Item.ident =
      List.range (items py kargs stats).length := by
    apply List.ext_getElem
    . simp
    . intro i hi _
      simp [items, item]
  rw [hrange]
  exact List.nodup_range

section Final

variable (ms : List Item)

def withLong (name : Text) : List Item := ms.filter (·.longName = name)

def withShort (name : Text) : List Item := ms.filter (·.shortName = name)

def groups : List (Text × List Item) := (Dict.group Item.shortName ms).entries

def assigned (ps : List (Text × List Item)) : List (Text × List Item) :=
  ps.flatMap fun p => assignments (Dict.group Item.longName ms) p.1 p.2

theorem mem_assignments {p q : Text × List Item} (hp : p ∈ groups ms)
    : q ∈ assignments (Dict.group Item.longName ms) p.1 p.2 ↔
        (Single ms p.1 ∧ q = (p.1, withShort ms p.1)) ∨
          ∃ m, Fallback ms q.1 m ∧ m.shortName = p.1 ∧ q.2 = withLong ms q.1 := by
  have hlist : p.2 = withShort ms p.1 := Dict.mem_entries_group Item.shortName hp
  unfold assignments
  rw [hlist]
  split
  . next hsingle =>
    rw [List.mem_singleton]
    constructor
    . intro hq
      exact .inl ⟨hsingle, hq⟩
    . rintro (⟨_, hq⟩ | ⟨m, ⟨_, hshared, _⟩, hshort, _⟩)
      . exact hq
      . rw [hshort] at hshared
        exact absurd hsingle hshared
  . next hshared =>
    rw [List.mem_map]
    constructor
    . rintro ⟨m, hm, hq⟩
      obtain ⟨hmem, hshort⟩ := List.mem_filter.mp hm
      rw [decide_eq_true_eq] at hshort
      rw [← hq]
      refine .inr ⟨m, ⟨hmem, ?_, rfl⟩, hshort, ?_⟩
      . rw [hshort]
        exact hshared
      . exact Dict.getD_get?_group Item.longName ms m.longName
    . rintro (⟨hsingle, _⟩ | ⟨m, ⟨hmem, _, hlong⟩, hshort, hq⟩)
      . exact absurd hsingle hshared
      . refine ⟨m, ?_, ?_⟩
        . rw [withShort, List.mem_filter, decide_eq_true_eq]
          exact ⟨hmem, hshort⟩
        . rw [Dict.getD_get?_group Item.longName, hlong]
          exact Prod.ext rfl hq.symm

-- Among entries without the one that has the name alone, only its long use counts
theorem lookup_assigned {ps : List (Text × List Item)} (hps : ∀ p ∈ ps, p ∈ groups ms)
    {name : Text} (hname : ∀ p ∈ ps, ¬ (Single ms name ∧ p.1 = name))
    [Decidable (∃ m, Fallback ms name m ∧ m.shortName ∈ ps.map Prod.fst)]
    : Dict.lastOf (assigned ms ps) name =
        if ∃ m, Fallback ms name m ∧ m.shortName ∈ ps.map Prod.fst then
          some (withLong ms name)
        else
          none := by
  have hconst : ∀ q ∈ assigned ms ps, q.1 = name → q.2 = withLong ms name := by
    intro q hq hfst
    obtain ⟨p, hp, hq⟩ := List.mem_flatMap.mp hq
    rcases (mem_assignments ms (hps p hp)).mp hq with ⟨hsingle, heq⟩ | ⟨m, _, _, hlist⟩
    . rw [heq] at hfst
      dsimp only at hfst
      rw [hfst] at hsingle
      exact absurd ⟨hsingle, hfst⟩ (hname p hp)
    . rw [hlist, hfst]
  have hmem : name ∈ (assigned ms ps).map Prod.fst ↔
      ∃ m, Fallback ms name m ∧ m.shortName ∈ ps.map Prod.fst := by
    rw [List.mem_map]
    constructor
    . rintro ⟨q, hq, hfst⟩
      obtain ⟨p, hp, hq⟩ := List.mem_flatMap.mp hq
      rcases (mem_assignments ms (hps p hp)).mp hq with ⟨hsingle, heq⟩ | ⟨m, hm, hshort, _⟩
      . rw [heq] at hfst
        dsimp only at hfst
        rw [hfst] at hsingle
        exact absurd ⟨hsingle, hfst⟩ (hname p hp)
      . rw [hfst] at hm
        refine ⟨m, hm, ?_⟩
        rw [hshort]
        exact List.mem_map_of_mem hp
    . rintro ⟨m, hm, hshort⟩
      obtain ⟨p, hp, hfst⟩ := List.mem_map.mp hshort
      refine ⟨(name, withLong ms name), ?_, rfl⟩
      apply List.mem_flatMap.mpr
      refine ⟨p, hp, ?_⟩
      rw [mem_assignments ms (hps p hp)]
      exact .inr ⟨m, hm, hfst.symm, rfl⟩
  rw [Dict.lastOf_of_const hconst]
  simp only [hmem]

theorem fallback_mem_keys {name : Text} {m : Item} (h : Fallback ms name m)
    : m.shortName ∈ (groups ms).map Prod.fst :=
  (Dict.mem_keys_group Item.shortName).mpr (List.mem_map_of_mem h.1)

theorem get?_finalDict {kargs : Kargs} (hshort : kargs.longName = false) (name : Text)
    [Decidable (ShowsLong ms name)]
    : (finalDict kargs ms).get? name =
        if ShowsLong ms name then
          some (withLong ms name)
        else if Single ms name then
          some (withShort ms name)
        else
          none := by
  classical
  have hget : (finalDict kargs ms).get? name = Dict.lastOf (assigned ms (groups ms)) name := by
    unfold finalDict
    simp only [hshort, Bool.false_eq_true, ↓reduceIte]
    rw [Dict.get?_insertAll, Dict.get?_empty, Option.or_none]
    rfl
  rw [hget]
  unfold ShowsLong
  by_cases hsingle : Single ms name
  . simp only [hsingle, ↓reduceIte]
    have hkey : name ∈ (groups ms).map Prod.fst := by
      apply (Dict.mem_keys_group Item.shortName).mpr
      have hne : ms.filter (·.shortName = name) ≠ [] := by
        intro hnil
        unfold Single at hsingle
        rw [hnil] at hsingle
        contradiction
      obtain ⟨m, hm⟩ := List.exists_mem_of_ne_nil _ hne
      obtain ⟨hmem, heq⟩ := List.mem_filter.mp hm
      rw [decide_eq_true_eq] at heq
      rw [← heq]
      exact List.mem_map_of_mem hmem
    obtain ⟨p, hp, hfst⟩ := List.mem_map.mp hkey
    obtain ⟨before, after, hsplit⟩ := List.append_of_mem hp
    have hnodup : ((groups ms).map Prod.fst).Nodup := (Dict.group Item.shortName ms).nodup
    rw [hsplit, List.map_append, List.map_cons, hfst] at hnodup
    have hown : assignments (Dict.group Item.longName ms) p.1 p.2 = [(name, withShort ms name)] := by
      have hlist : p.2 = withShort ms p.1 := Dict.mem_entries_group Item.shortName hp
      unfold assignments
      rw [hlist, hfst]
      exact if_pos hsingle
    have hafter : ∀ q ∈ after, q ∈ groups ms := by
      intro q hq
      rw [hsplit]
      exact List.mem_append_right _ (List.mem_cons_of_mem _ hq)
    have hother : ∀ q ∈ after, ¬ (Single ms name ∧ q.1 = name) := by
      rintro q hq ⟨_, heq⟩
      have hnot := (List.nodup_cons.mp (List.nodup_append.mp hnodup).2.1).1
      apply hnot
      rw [← heq]
      exact List.mem_map_of_mem hq
    have hlater : (∃ m, Fallback ms name m ∧ m.shortName ∈ after.map Prod.fst) ↔
        ∃ m, Fallback ms name m ∧ firstUse ms name < firstUse ms m.shortName := by
      apply exists_congr
      intro m
      apply and_congr_right
      intro hm
      have hmem := fallback_mem_keys ms hm
      have hname : name ∈ ms.map Item.shortName := (Dict.mem_keys_group Item.shortName).mp hkey
      have horder := Dict.place_keys_group_lt_iff Item.shortName hname
        (List.mem_map_of_mem (f := Item.shortName) hm.1)
      have hkeys : (Dict.group Item.shortName ms).keys =
          before.map Prod.fst ++ name :: after.map Prod.fst := by
        show (groups ms).map Prod.fst = _
        rw [hsplit, List.map_append, List.map_cons, hfst]
      rw [hsplit, List.map_append, List.map_cons, hfst] at hmem
      unfold firstUse
      rw [← horder, hkeys]
      exact (Dict.place_lt_iff_of_nodup hnodup hmem).symm
    have hassigned : assigned ms (groups ms) =
        assigned ms before ++ ([(name, withShort ms name)] ++ assigned ms after) := by
      unfold assigned
      rw [hsplit, List.flatMap_append, List.flatMap_cons, hown]
    rw [hassigned, Dict.lastOf_append, Dict.lastOf_append, Dict.lastOf_singleton,
      lookup_assigned ms hafter hother]
    simp only [hlater]
    split <;> rfl
  . simp only [hsingle, ↓reduceIte]
    rw [lookup_assigned ms (fun p hp => hp) (fun p _ h => hsingle h.1)]
    congr 1
    rw [eq_iff_iff]
    constructor
    . rintro ⟨m, hm, _⟩
      exact ⟨m, hm⟩
    . rintro ⟨m, hm⟩
      exact ⟨m, hm, fallback_mem_keys ms hm⟩

theorem get?_finalDict_long {kargs : Kargs} (hlong : kargs.longName = true) (name : Text)
    : ((finalDict kargs ms).get? name).getD [] = withLong ms name := by
  unfold finalDict
  simp only [hlong, ↓reduceIte]
  exact Dict.getD_get?_group Item.longName ms name

theorem mem_keys_finalDict {kargs : Kargs} {name : Text}
    : name ∈ (finalDict kargs ms).keys ↔ Shown ms kargs name := by
  classical
  unfold Shown
  cases hlong : kargs.longName with
  | true =>
    have hdict : finalDict kargs ms = Dict.group Item.longName ms := by
      unfold finalDict
      simp only [hlong, ↓reduceIte]
    rw [hdict, Dict.mem_keys_group, List.mem_map]
    rfl
  | false =>
    rw [← Dict.isSome_get?_iff, get?_finalDict ms hlong]
    simp only [Bool.false_eq_true, ↓reduceIte]
    by_cases hsingle : Single ms name
    . simp only [hsingle, ↓reduceIte, true_or, iff_true]
      split <;> rfl
    . have hshows : ShowsLong ms name ↔ ∃ m, Fallback ms name m := by
        unfold ShowsLong
        rw [if_neg hsingle]
      simp only [hsingle, hshows, ↓reduceIte, false_or]
      split
      . next h => simp [h]
      . next h => simp [h]

-- What is shown under a list of names
def displayed (kargs : Kargs) (names : List Text) : List Item :=
  names.flatMap fun name => ((finalDict kargs ms).get? name).getD []

variable {ms}

theorem count_withLong [DecidableEq Item] (hnodup : ms.Nodup) {m : Item} (hm : m ∈ ms)
    (name : Text)
    : (withLong ms name).count m = if m.longName = name then 1 else 0 := by
  split
  . next heq =>
    apply List.count_eq_one_of_mem (hnodup.filter _)
    rw [List.mem_filter, decide_eq_true_eq]
    exact ⟨hm, heq⟩
  . next hne =>
    apply List.count_eq_zero_of_not_mem
    rw [withLong, List.mem_filter, decide_eq_true_eq]
    exact fun h => hne h.2

theorem count_withShort [DecidableEq Item] (hnodup : ms.Nodup) {m : Item} (hm : m ∈ ms)
    (name : Text)
    : (withShort ms name).count m = if m.shortName = name then 1 else 0 := by
  split
  . next heq =>
    apply List.count_eq_one_of_mem (hnodup.filter _)
    rw [List.mem_filter, decide_eq_true_eq]
    exact ⟨hm, heq⟩
  . next hne =>
    apply List.count_eq_zero_of_not_mem
    rw [withShort, List.mem_filter, decide_eq_true_eq]
    exact fun h => hne h.2

theorem count_get?_finalDict [DecidableEq Item] (kargs : Kargs) (hnodup : ms.Nodup) {m : Item}
    (hm : m ∈ ms) (name : Text) [Decidable (ShowsLong ms name)]
    : (((finalDict kargs ms).get? name).getD []).count m =
        if kargs.longName then
          if m.longName = name then 1 else 0
        else if ShowsLong ms name then
          if m.longName = name then 1 else 0
        else if Single ms name then
          if m.shortName = name then 1 else 0
        else
          0 := by
  cases hlong : kargs.longName with
  | true =>
    rw [get?_finalDict_long ms hlong, count_withLong hnodup hm]
    rfl
  | false =>
    rw [get?_finalDict ms hlong]
    simp only [Bool.false_eq_true, ↓reduceIte]
    by_cases hshows : ShowsLong ms name
    . simp only [hshows, ↓reduceIte, Option.getD_some]
      exact count_withLong hnodup hm name
    . by_cases hsingle : Single ms name
      . simp only [hshows, hsingle, ↓reduceIte, Option.getD_some]
        exact count_withShort hnodup hm name
      . simp [hshows, hsingle]

theorem mem_of_mem_get?_finalDict {kargs : Kargs} {m : Item} {name : Text}
    (h : m ∈ ((finalDict kargs ms).get? name).getD [])
    : m ∈ ms := by
  classical
  cases hlong : kargs.longName with
  | true =>
    rw [get?_finalDict_long ms hlong] at h
    exact List.mem_of_mem_filter h
  | false =>
    rw [get?_finalDict ms hlong] at h
    split at h
    . exact List.mem_of_mem_filter h
    . split at h
      . exact List.mem_of_mem_filter h
      . contradiction

theorem count_displayed [DecidableEq Item] {kargs : Kargs} (hnodup : ms.Nodup)
    (hne : ∀ m ∈ ms, m.shortName ≠ m.longName) {m : Item} (hm : m ∈ ms)
    [∀ name, Decidable (ShowsLong ms name)]
    : (displayed ms kargs (finalDict kargs ms).keys).count m =
        if kargs.longName then
          1
        else
          (if ¬ ShowsLong ms m.shortName ∧ Single ms m.shortName then 1 else 0) +
            if ShowsLong ms m.longName then 1 else 0 := by
  let f := fun name => ((finalDict kargs ms).get? name).getD []
  have hcount := fun name => count_get?_finalDict kargs hnodup hm name
  have hother : ∀ name, name ≠ m.shortName → name ≠ m.longName → m ∉ f name := by
    intro name hshort hlong
    rw [← List.count_eq_zero, hcount]
    have hshort' : ¬ m.shortName = name := fun h => hshort h.symm
    have hlong' : ¬ m.longName = name := fun h => hlong h.symm
    simp [hshort', hlong']
  have habsent : ∀ name, name ∉ (finalDict kargs ms).keys → m ∉ f name := by
    intro name hnot
    dsimp only [f]
    rw [Dict.get?_eq_none_iff.mpr hnot]
    exact List.not_mem_nil
  have hkeys : (finalDict kargs ms).keys.Nodup := (finalDict kargs ms).nodup
  have htwo := Dict.count_flatMap_two hkeys f m (hne m hm) hother habsent
  unfold displayed
  rw [htwo]
  dsimp only [f]
  rw [hcount, hcount]
  have hne' : ¬ m.longName = m.shortName := fun h => hne m hm h.symm
  have hne'' := hne m hm
  cases hlong : kargs.longName with
  | true => simp [hne']
  | false =>
    by_cases h₁ : ShowsLong ms m.shortName <;> by_cases h₂ : ShowsLong ms m.longName <;>
      by_cases h₃ : Single ms m.shortName <;> simp [h₁, h₂, h₃, hne', hne'']

theorem perm_displayed_iff {kargs : Kargs} (hnodup : ms.Nodup)
    (hne : ∀ m ∈ ms, m.shortName ≠ m.longName)
    : (displayed ms kargs (finalDict kargs ms).keys).Perm ms ↔ kargs.longName ∨ NamesApart ms := by
  classical
  rw [List.perm_iff_count]
  have houtside : ∀ m, m ∉ ms →
      (displayed ms kargs (finalDict kargs ms).keys).count m = ms.count m := by
    intro m hm
    rw [List.count_eq_zero_of_not_mem hm, List.count_eq_zero]
    intro hmem
    obtain ⟨name, _, hmem⟩ := List.mem_flatMap.mp hmem
    exact hm (mem_of_mem_get?_finalDict hmem)
  have hinside : (∀ m, (displayed ms kargs (finalDict kargs ms).keys).count m = ms.count m) ↔
      ∀ m ∈ ms, (displayed ms kargs (finalDict kargs ms).keys).count m = 1 := by
    constructor
    . intro h m hm
      rw [h m, List.count_eq_one_of_mem hnodup hm]
    . intro h m
      by_cases hm : m ∈ ms
      . rw [h m hm, List.count_eq_one_of_mem hnodup hm]
      . exact houtside m hm
  rw [hinside]
  cases hlong : kargs.longName with
  | true =>
    simp only [true_or, iff_true]
    intro m hm
    rw [count_displayed hnodup hne hm]
    simp only [hlong, ↓reduceIte]
  | false =>
    simp only [Bool.false_eq_true, false_or]
    constructor
    . intro h
      constructor
      . intro m hm hsingle
        have hone := h m hm
        rw [count_displayed hnodup hne hm] at hone
        simp only [hlong, hsingle, Bool.false_eq_true, ↓reduceIte, and_true] at hone
        by_cases h₁ : ShowsLong ms m.shortName <;> by_cases h₂ : ShowsLong ms m.longName <;>
          simp [h₁, h₂] at hone ⊢
      . intro m hm hshared
        have hone := h m hm
        rw [count_displayed hnodup hne hm] at hone
        simp only [hlong, hshared, Bool.false_eq_true, ↓reduceIte, and_false] at hone
        by_contra h₂
        simp [h₂] at hone
    . intro h m hm
      rw [count_displayed hnodup hne hm]
      simp only [hlong, Bool.false_eq_true, ↓reduceIte]
      by_cases hsingle : Single ms m.shortName
      . have hiff := h.single m hm hsingle
        by_cases h₁ : ShowsLong ms m.shortName
        . simp [h₁, hiff.mp h₁]
        . have h₂ : ¬ ShowsLong ms m.longName := fun h₂ => h₁ (hiff.mpr h₂)
          simp [h₁, h₂, hsingle]
      . simp [hsingle, h.shared m hm hsingle]

end Final

theorem sortNames_ok {py : Python} {names sorted : List Text}
    (h : sortNames py names = .ok sorted)
    : sorted.Perm names ∧ ∀ name ∈ names, Sortable py name := by
  unfold sortNames at h
  cases hkeyed : names.mapM fun name => (naturalSortKey py name).map fun key => (key, name) with
  | error e =>
    rw [hkeyed] at h
    contradiction
  | ok keyed =>
    rw [hkeyed] at h
    cases h
    have hnames : keyed.map Prod.snd = names ∧ ∀ name ∈ names, Sortable py name := by
      induction names generalizing keyed with
      | nil =>
        rw [List.mapM_nil] at hkeyed
        cases hkeyed
        simp
      | cons name names ih =>
        rw [List.mapM_cons] at hkeyed
        cases hkey : naturalSortKey py name with
        | error e =>
          rw [hkey] at hkeyed
          contradiction
        | ok key =>
          cases hrest : names.mapM fun name => (naturalSortKey py name).map fun key => (key, name) with
          | error e =>
            rw [hkey, hrest] at hkeyed
            contradiction
          | ok keyed' =>
            rw [hkey, hrest] at hkeyed
            cases hkeyed
            obtain ⟨hmap, hsort⟩ := ih keyed' hrest
            constructor
            . rw [List.map_cons, hmap]
            . intro name' hname'
              rcases List.mem_cons.mp hname' with rfl | hname'
              . exact ⟨key, hkey⟩
              . exact hsort name' hname'
    refine ⟨?_, hnames.2⟩
    have hperm := (List.mergeSort_perm keyed fun a b => keyLe a.1 b.1).map Prod.snd
    rw [hnames.1] at hperm
    exact hperm

theorem exists_sortNames {py : Python} {names : List Text} (h : ∀ name ∈ names, Sortable py name)
    : ∃ sorted, sortNames py names = .ok sorted := by
  have hkeyed : ∃ keyed, (names.mapM fun name =>
      (naturalSortKey py name).map fun key => (key, name)) = .ok keyed := by
    induction names with
    | nil => exact ⟨[], List.mapM_nil⟩
    | cons name names ih =>
      obtain ⟨key, hkey⟩ := h name List.mem_cons_self
      obtain ⟨keyed, hrest⟩ := ih fun name' hname' => h name' (List.mem_cons_of_mem _ hname')
      refine ⟨(key, name) :: keyed, ?_⟩
      rw [List.mapM_cons, hkey, hrest]
      rfl
  obtain ⟨keyed, hkeyed⟩ := hkeyed
  unfold sortNames
  rw [hkeyed]
  exact ⟨_, rfl⟩

theorem itemRows_eq (kargs : Kargs) (nameLen valueLen : Nat) (name : Text) (m : Item)
    : ∃ text labelRows,
        itemRows kargs nameLen valueLen name m = { text, item := some m } :: labelRows ∧
          ∀ row ∈ labelRows, row.item = none := by
  refine ⟨_, _, rfl, ?_⟩
  intro row hrow
  split at hrow
  . obtain ⟨p, _, hp⟩ := List.mem_map.mp hrow
    rw [← hp]
  . contradiction

theorem filterMap_itemRows (kargs : Kargs) (nameLen valueLen : Nat) (name : Text) (ms : List Item)
    : (ms.flatMap (itemRows kargs nameLen valueLen name)).filterMap Row.item = ms := by
  induction ms with
  | nil => rfl
  | cons m ms ih =>
    obtain ⟨text, labelRows, hrows, hnone⟩ := itemRows_eq kargs nameLen valueLen name m
    have hlabels : labelRows.filterMap Row.item = [] := List.filterMap_eq_nil_iff.mpr hnone
    rw [List.flatMap_cons, List.filterMap_append, ih, hrows, List.filterMap_cons, hlabels]
    rfl

theorem filterMap_statsShowFormat {py : Python} {kargs : Kargs} {stats : Stats} {rows : List Row}
    (h : statsShowFormat py kargs stats = .ok rows)
    : ∃ names, sortNames py (finalDict kargs (items py kargs stats)).keys = .ok names ∧
        rows.filterMap Row.item = displayed (items py kargs stats) kargs names := by
  unfold statsShowFormat at h
  dsimp only at h
  split at h
  . contradiction
  . next names hnames =>
    cases h
    refine ⟨names, hnames, ?_⟩
    unfold displayed
    rw [List.filterMap_flatMap]
    simp only [filterMap_itemRows]

theorem perm_displayed {py : Python} {kargs : Kargs} {stats : Stats} {rows : List Row}
    (h : statsShowFormat py kargs stats = .ok rows)
    : (rows.filterMap Row.item).Perm (displayed (items py kargs stats) kargs
        (finalDict kargs (items py kargs stats)).keys) := by
  obtain ⟨names, hnames, hrows⟩ := filterMap_statsShowFormat h
  rw [hrows]
  exact (sortNames_ok hnames).1.flatMap_right _

-- Each value has one row if and only if every name that is used can be sorted and, unless long
-- names are asked for, no name stands for two lists of values
theorem exactlyOnce_iff (py : Python) (kargs : Kargs) (stats : Stats)
    : ExactlyOnce py kargs stats ↔
        (∀ name, Shown (items py kargs stats) kargs name → Sortable py name) ∧
          (kargs.longName ∨ NamesApart (items py kargs stats)) := by
  have hnodup := nodup_items py kargs stats
  have hne : ∀ m ∈ items py kargs stats, m.shortName ≠ m.longName :=
    fun m hm => shortName_ne_longName py kargs stats hm
  constructor
  . intro ⟨rows, hrows, hperm⟩
    obtain ⟨names, hnames, _⟩ := filterMap_statsShowFormat hrows
    constructor
    . intro name hname
      apply (sortNames_ok hnames).2
      exact (mem_keys_finalDict _).mpr hname
    . rw [← perm_displayed_iff hnodup hne]
      exact (perm_displayed hrows).symm.trans hperm
  . intro ⟨hsort, hnames⟩
    obtain ⟨names, hsorted⟩ :=
      exists_sortNames fun name hname => hsort name ((mem_keys_finalDict _).mp hname)
    have hrows : ∃ rows, statsShowFormat py kargs stats = .ok rows := by
      unfold statsShowFormat
      dsimp only
      rw [hsorted]
      exact ⟨_, rfl⟩
    obtain ⟨rows, hrows⟩ := hrows
    refine ⟨rows, hrows, ?_⟩
    rw [← perm_displayed_iff hnodup hne] at hnames
    exact (perm_displayed hrows).trans hnames

section Input

def counter (zone block : Text) : StatsMetric where
  type := .STATS_METRIC_TYPE_COUNTER
  zone := zone
  block := block
  name := ['d']
  numElements := 0
  values := [{ u64 := 1, f64 := 0, index := 0, labels := [] }]
  lastUpdate := { seconds := 0, nanos := 0 }

-- The names `a.b.c.d`, `z.b.c.d` and again `a.b.c.d`
def dotted : Stats where
  metrics := [counter ['a'] ['b', '.', 'c'], counter ['z'] ['b', '.', 'c'],
    counter ['a', '.', 'b'] ['c']]

def python : Python where
  unicode := .ascii
  isdigit := Char.isDigit
  formatG _ := []

def plain : Kargs where
  lastUpdate := false
  labels := false
  aliases := false
  longName := false

-- There are four rows for the three values
theorem not_exactlyOnce_dotted : ¬ ExactlyOnce python plain dotted := by
  intro ⟨rows, hrows, hperm⟩
  have hlen := ((perm_displayed hrows).symm.trans hperm).length_eq
  have hfour : (displayed (items python plain dotted) plain
      (finalDict plain (items python plain dotted)).keys).length = 4 := by decide +kernel
  have hthree : (items python plain dotted).length = 3 := by decide +kernel
  omega

end Input

end StatsFormat
