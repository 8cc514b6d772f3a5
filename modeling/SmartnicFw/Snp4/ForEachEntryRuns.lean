import SmartnicFw.Snp4.ForEachEntry

/-!
This module contains that a driver whose tables are dictionaries enumerates what any sequence of
insertions and deletions has left in them.
-/

namespace Snp4Api

def tableEntry (p : EntryKey × EntryValue) : TableEntry where
  key := p.1.1.getD []
  mask := p.1.2
  priority := p.2.priority
  actionId := p.2.actionId
  params := p.2.params.getD []

namespace MapTable

def list (table : MapTable) : List TableEntry := table.entries.entries.map tableEntry

def live (table : MapTable) : Finset TableEntry := table.list.toFinset

def ofAction (table : MapTable) (actionId : UInt32) : List TableEntry :=
  table.list.filter fun e => e.actionId = actionId

end MapTable

namespace MapTarget

/--
The positions of an action's entries are those in the dictionary. A mask or a priority where the
mode has none is refused, and so is the lack of one.
-/
def reads (keyBits paramsBits : UInt32) : DrvReads MapTarget String where
  toDrvIntf := MapTarget.intf
  getKeySizeBits target name := (target name).map fun _ => keyBits
  getActionParamsSizeBits target name := (target name).map fun _ => paramsBits
  getNumActions target name := (target name).map fun table => UInt32.ofNat table.actions.length
  getActionName target name actionId numBytes := do
    let table ← target name
    let actionName ← table.actions[actionId.toNat]?
    if actionName.utf8ByteSize < numBytes.toNat then some actionName else none
  getByKey target name key mask withPriority := do
    let table ← target name
    if mask.isSome = !decide table.mode.NullMask ∧ withPriority = !decide table.mode.NullMask then
      let value ← table.entries.get? (some key, mask)
      some (value.priority, value.actionId, value.params.getD [])
    else
      none
  getByResponse target name actionId _ _ position withMask :=
    match target name with
    | none => .error .failed
    | some table =>
      if withMask = !decide table.mode.NullMask then
        match (table.ofAction actionId)[position.toNat]? with
        | none => .error .camErrKeyNotFound
        | some e => .ok (position + 1, e.key, e.mask.getD [])
      else
        .error .failed

end MapTarget

-- What holds of the entries that are inserted with a mask that is not NULL
structure MapTable.Sound (table : MapTable) : Prop where
  key_isSome : ∀ p ∈ table.entries.entries, p.1.1.isSome
  mask_isSome : ∀ p ∈ table.entries.entries, p.1.2.isSome = !decide table.mode.NullMask
  action_known : ∀ p ∈ table.entries.entries, p.2.actionId ∈ table.actionIds

section Sound

variable {table : MapTable} {target : MapTarget} {name : String} {keyBits paramsBits : UInt32}

def contextOf (name : String) (table : MapTable) (keyBits paramsBits : UInt32)
    : Snp4TableGetContext String where
  name := name
  handle := name
  keyWidth := keyBits
  paramsWidth := paramsBits
  mode := table.mode
  numActions := UInt32.ofNat table.actions.length

theorem openTable_reads (h : target name = some table)
    : openTable (MapTarget.reads keyBits paramsBits) target name =
        some (contextOf name table keyBits paramsBits) := by
  unfold openTable MapTarget.reads MapTarget.intf
  simp only [h, Option.map_some, Option.bind_eq_bind, Option.bind_some]
  rfl

theorem exists_of_mem_list {e : TableEntry} (h : table.Sound) (he : e ∈ table.list)
    : ∃ value, ((some e.key, e.mask), value) ∈ table.entries.entries ∧
        e.priority = value.priority ∧ e.actionId = value.actionId ∧
        e.params = value.params.getD [] := by
  obtain ⟨⟨⟨key, mask⟩, value⟩, hp, rfl⟩ := List.mem_map.mp he
  obtain ⟨key, rfl⟩ := Option.isSome_iff_exists.mp (h.key_isSome _ hp)
  exact ⟨value, hp, rfl, rfl, rfl⟩

theorem nodup_list (h : table.Sound) : table.list.Nodup := by
  have hkeys : table.list.map (fun e => (some e.key, e.mask)) =
      table.entries.entries.map Prod.fst := by
    unfold MapTable.list
    rw [List.map_map]
    apply List.map_congr_left
    rintro ⟨⟨key, mask⟩, value⟩ hp
    obtain ⟨key, rfl⟩ := Option.isSome_iff_exists.mp (h.key_isSome _ hp)
    rfl
  apply List.Nodup.of_map fun e : TableEntry => (some e.key, e.mask)
  rw [hkeys]
  exact table.entries.nodup

theorem length_ofAction_le (actionId : UInt32)
    : (table.ofAction actionId).length ≤ table.entries.entries.length := by
  apply (List.length_filter_le _ _).trans
  rw [MapTable.list, List.length_map]

theorem nextResponse_reads (htarget : target name = some table) (h : table.Sound)
    (actionId position : UInt32)
    : nextResponse (MapTarget.reads keyBits paramsBits) target
        (contextOf name table keyBits paramsBits) (!decide table.mode.NullMask) actionId position =
        (table.ofAction actionId)[position.toNat]?.elim .exhausted fun e =>
          .item (position + 1) (itemOf e) := by
  unfold nextResponse contextOf MapTarget.reads
  dsimp only
  rw [htarget]
  dsimp only
  rw [if_pos rfl]
  cases hget : (table.ofAction actionId)[position.toNat]? with
  | none => rfl
  | some e =>
    obtain ⟨he, hid⟩ := List.mem_filter.mp (List.mem_of_getElem? hget)
    obtain ⟨value, hp, _⟩ := exists_of_mem_list h he
    have hmask := h.mask_isSome _ hp
    dsimp only at hmask ⊢
    rw [← hmask, ← of_decide_eq_true hid]
    rw [Option.elim_some]
    unfold itemOf
    cases e.mask <;> rfl

-- By induction on what is left of the entries
theorem gives_from (htarget : target name = some table) (h : table.Sound)
    (hsmall : table.entries.entries.length < 2 ^ 32) (actionId : UInt32) (left i : Nat)
    (hleft : i + left = (table.ofAction actionId).length)
    : Cursor.Gives (nextResponse (MapTarget.reads keyBits paramsBits) target
        (contextOf name table keyBits paramsBits) (!decide table.mode.NullMask) actionId)
        (UInt32.ofNat i) (((table.ofAction actionId).drop i).map itemOf) true := by
  have hle := @length_ofAction_le table actionId
  have hi : (UInt32.ofNat i).toNat = i := UInt32.toNat_ofNat_of_lt' (by
    show i < 2 ^ 32
    omega)
  induction left generalizing i with
  | zero =>
    rw [List.drop_eq_nil_of_le (by omega)]
    apply Cursor.Gives.exhausted
    rw [nextResponse_reads htarget h, hi, List.getElem?_eq_none (by omega), Option.elim_none]
  | succ left ih =>
    have hlt : i < (table.ofAction actionId).length := by omega
    rw [List.drop_eq_getElem_cons hlt, List.map_cons]
    refine @Cursor.Gives.item _ _ _ _ (UInt32.ofNat (i + 1)) _ _ _ ?_ ?_
    . rw [nextResponse_reads htarget h, hi, List.getElem?_eq_getElem hlt, UInt32.ofNat_add]
      rfl
    . apply ih (i + 1) (by omega)
      apply UInt32.toNat_ofNat_of_lt'
      show i + 1 < 2 ^ 32
      omega

theorem enumerates_reads (htarget : target name = some table) (h : table.Sound)
    (hactions : table.actions.length < 2 ^ 32) (hsmall : table.entries.entries.length < 2 ^ 32)
    : (MapTarget.reads keyBits paramsBits).Enumerates target
        (contextOf name table keyBits paramsBits) table.live where
  action_known := by
    intro e he
    obtain ⟨value, hp, _, hid, _⟩ := exists_of_mem_list h (List.mem_toFinset.mp he)
    unfold Snp4TableGetContext.actionIds contextOf
    dsimp only
    rw [UInt32.toNat_ofNat_of_lt' hactions, hid]
    exact h.action_known _ hp
  mask_isSome := by
    intro e he
    obtain ⟨value, hp, _⟩ := exists_of_mem_list h (List.mem_toFinset.mp he)
    exact h.mask_isSome _ hp
  gives := by
    intro actionId _
    refine ⟨table.ofAction actionId, table.ofAction actionId, true, (nodup_list h).filter _, ?_,
      List.prefix_rfl, fun _ => rfl, ?_⟩
    . intro e
      rw [MapTable.ofAction, List.mem_filter, MapTable.live, List.mem_toFinset, decide_eq_true_iff]
    . exact gives_from htarget h hsmall actionId _ 0 (Nat.zero_add _)
  getByKey_eq := by
    intro e he
    obtain ⟨value, hp, hpriority, hid, hparams⟩ := exists_of_mem_list h (List.mem_toFinset.mp he)
    have hmask : e.mask.isSome = !decide table.mode.NullMask := h.mask_isSome _ hp
    unfold MapTarget.reads contextOf
    simp only [htarget, Option.bind_eq_bind, Option.bind_some, hmask, and_self, if_true,
      Dict.get?_of_mem hp, hpriority, hid, hparams]

end Sound

-- The calls that change the tables, with a key and a mask that are not NULL
inductive TableOp where
  | insertKma (name : String) (key mask : Bytes) (actionName : String) (params : Option Bytes)
    (priority : UInt32) (replace : Bool)
  | deleteK (name : String) (key mask : Bytes)
  deriving DecidableEq, Repr

def TableOp.apply {σ τ : Type} (intf : DrvIntf σ τ) (op : TableOp) (target : σ) : σ :=
  match op with
  | .insertKma name key mask actionName params priority replace =>
    (snp4TableInsertKma intf name (some key) (some mask) actionName params priority replace target).2
  | .deleteK name key mask => (snp4TableDeleteK intf name (some key) (some mask) target).2

def TableOp.run {σ τ : Type} (intf : DrvIntf σ τ) (ops : List TableOp) (target : σ) : σ :=
  ops.foldl (fun target op => op.apply intf target) target

section Runs

variable {target : MapTarget}

def MapTarget.Sound (target : MapTarget) : Prop := ∀ name table, target name = some table → table.Sound

theorem isSome_passedMask (mode : XilVitisNetP4TableMode) (mask : Bytes)
    : (passedMask mode (some mask)).isSome = !decide mode.NullMask := by
  unfold passedMask
  by_cases h : mode.NullMask <;> simp [h]

theorem MapTable.Sound.insert {table : MapTable} (h : table.Sound) (key mask : Bytes)
    {value : EntryValue} (hknown : value.actionId ∈ table.actionIds)
    : MapTable.Sound { table with
        entries := table.entries.insert (some key, passedMask table.mode (some mask)) value } := by
  constructor
  . intro p hp
    rcases Dict.mem_entries_insert hp with hp | rfl
    . exact h.key_isSome p hp
    . rfl
  . intro p hp
    rcases Dict.mem_entries_insert hp with hp | rfl
    . exact h.mask_isSome p hp
    . exact isSome_passedMask table.mode mask
  . intro p hp
    rcases Dict.mem_entries_insert hp with hp | rfl
    . exact h.action_known p hp
    . exact hknown

theorem MapTable.Sound.erase {table : MapTable} (h : table.Sound) (key : EntryKey)
    : MapTable.Sound { table with entries := table.entries.erase key } := by
  constructor
  . intro p hp
    exact h.key_isSome p (List.mem_of_mem_filter hp)
  . intro p hp
    exact h.mask_isSome p (List.mem_of_mem_filter hp)
  . intro p hp
    exact h.action_known p (List.mem_of_mem_filter hp)

theorem MapTarget.Sound.setEntries (h : target.Sound) {name : String} {table : MapTable}
    {entries : Dict EntryKey EntryValue} (hset : MapTable.Sound { table with entries })
    : (target.setEntries name table entries).Sound := by
  intro name' table' htable
  unfold MapTarget.setEntries at htable
  by_cases hname : name' = name
  . rw [hname, Function.update_self] at htable
    cases htable
    exact hset
  . rw [Function.update_of_ne hname] at htable
    exact h name' table' htable

theorem sound_apply (h : target.Sound) (op : TableOp) : (op.apply MapTarget.intf target).Sound := by
  cases op with
  | insertKma name key mask actionName params priority replace =>
    show MapTarget.Sound (snp4TableInsertKma _ _ _ _ _ _ _ _ _).2
    rcases hcall : snp4TableInsertKma MapTarget.intf name (some key) (some mask) actionName params
      priority replace target with ⟨inserted, target'⟩
    rcases MapTarget.snp4TableInsertKma_cases hcall with rfl | ⟨table, value, htable, hknown, rfl⟩
    . exact h
    . exact h.setEntries ((h name table htable).insert key mask hknown)
  | deleteK name key mask =>
    show MapTarget.Sound (snp4TableDeleteK _ _ _ _ _).2
    cases htable : target name with
    | none =>
      rw [MapTarget.snp4TableDeleteK_of_none htable]
      exact h
    | some table =>
      rw [MapTarget.snp4TableDeleteK_of_table htable]
      split
      . exact h
      . exact h.setEntries ((h name table htable).erase _)

-- Every run of insertions and deletions leaves tables that can be read
theorem sound_run (h : target.Sound) (ops : List TableOp)
    : (TableOp.run MapTarget.intf ops target).Sound := by
  induction ops generalizing target with
  | nil => exact h
  | cons op ops ih => exact ih (sound_apply h op)

end Runs

section Cases

def emptyTables (tables : List (String × XilVitisNetP4TableMode × List String)) : MapTarget :=
  fun name => (tables.lookup name).map fun (mode, actions) =>
    { mode, actions, entries := Dict.empty }

theorem sound_emptyTables (tables : List (String × XilVitisNetP4TableMode × List String))
    : (emptyTables tables).Sound := by
  intro name table h
  obtain ⟨_, _, rfl⟩ := Option.map_eq_some_iff.mp h
  constructor <;> intro p hp <;> cases hp

-- Two entries are left of the three
def ternaryTarget : MapTarget :=
  TableOp.run MapTarget.intf [
    .insertKma "t" [1] [0xff] "a_nop" none 5 false,
    .insertKma "t" [2] [0xf0] "a_set" (some [7]) 6 false,
    .insertKma "t" [2] [0xff] "a_set" (some [8]) 7 false,
    .deleteK "t" [2] [0xf0]] (emptyTables [("t", .tcam, ["a_set", "a_nop"])])

def ternaryTable : MapTable := (ternaryTarget "t").getD ⟨.tcam, [], Dict.empty⟩

theorem ternaryTarget_table : ternaryTarget "t" = some ternaryTable := rfl

theorem sound_ternaryTable : ternaryTable.Sound :=
  sound_run (sound_emptyTables _) _ "t" _ ternaryTarget_table

theorem forEachEntry_visits_ternary
    : ternaryTable.live.card = 2 ∧ ∃ order given : List TableEntry,
        order.Nodup ∧ (∀ e, e ∈ order ↔ e ∈ ternaryTable.live) ∧ given <+: order ∧
        (¬ (MapTarget.reads 8 8).Fails ternaryTarget (contextOf "t" ternaryTable 8 8) →
          given = order) ∧
        ∀ (ρ : Type) (callback : Snp4TableEntry → ρ → Bool × ρ) (arg : ρ), ∃ enough,
          ∀ fuel, enough ≤ fuel → ∃ done,
            snp4TableForEachEntry (MapTarget.reads 8 8) ternaryTarget fuel "t" callback arg =
              some (done, (Cursor.visit callback (given.map (entryView (MapTarget.reads 8 8)
                ternaryTarget (contextOf "t" ternaryTable 8 8))) arg).2) ∧
            (done = true ↔
              (Cursor.visit callback (given.map (entryView (MapTarget.reads 8 8)
                ternaryTarget (contextOf "t" ternaryTable 8 8))) arg).1 = false ∨
              ¬ (MapTarget.reads 8 8).Fails ternaryTarget (contextOf "t" ternaryTable 8 8)) :=
  ⟨by decide +kernel, (forEachEntry_visits (openTable_reads ternaryTarget_table) (by decide)
    (enumerates_reads ternaryTarget_table sound_ternaryTable (by decide) (by decide))).2⟩

-- One entry in each of two tables without masks, for an action whose name takes 256 bytes
def longName : String := String.ofList (List.replicate 256 'a')

def narrowTarget : MapTarget :=
  TableOp.run MapTarget.intf [
    .insertKma "t_bcam" [1] [0xff] longName none 7 false,
    .insertKma "t_tiny" [1] [0xff] longName none 7 false]
    (emptyTables [("t_bcam", .bcam, [longName]), ("t_tiny", .tinyBcam, [longName])])

def narrowTable (name : String) : MapTable := (narrowTarget name).getD ⟨.tcam, [], Dict.empty⟩

theorem narrowTarget_of_isSome {name : String} (h : (narrowTarget name).isSome)
    : narrowTarget name = some (narrowTable name) := by
  obtain ⟨table, htable⟩ := Option.isSome_iff_exists.mp h
  rw [narrowTable, htable, Option.getD_some]

-- What is seen of the entries of a table
def seen (name : String) : Option (Bool × List (String × UInt32)) :=
  snp4TableForEachEntry (MapTarget.reads 8 8) narrowTarget 3 name
    (fun e seen => (true, seen ++ [(e.actionName, e.priority)])) []

/--
The driver cannot write the name, and yet the loop succeeds with another one; the priority is 0
where none is read. The entry of the second table is not seen at all.
-/
theorem not_visited_narrow
    : (∀ name ∈ ["t_bcam", "t_tiny"],
        (MapTarget.reads 8 8).Enumerates narrowTarget (contextOf name (narrowTable name) 8 8)
          (narrowTable name).live ∧
        (narrowTable name).live = {⟨[1], none, 7, 0, []⟩} ∧
        (MapTarget.reads 8 8).getActionName narrowTarget name 0 256 = none) ∧
      (narrowTable "t_bcam").actions = [longName] ∧
      seen "t_bcam" = some (true, [("<buffer-too-small>", 0)]) ∧
      seen "t_tiny" = some (false, []) := by
  refine ⟨?_, by decide +kernel, by decide +kernel, by decide +kernel⟩
  intro name hname
  have hsound : narrowTarget.Sound := sound_run (sound_emptyTables _) _
  have henumerates : (narrowTarget name).isSome → (narrowTable name).actions.length < 2 ^ 32 →
      (narrowTable name).entries.entries.length < 2 ^ 32 →
      (MapTarget.reads 8 8).Enumerates narrowTarget (contextOf name (narrowTable name) 8 8)
        (narrowTable name).live := by
    intro hsome hactions hsmall
    have htable := narrowTarget_of_isSome hsome
    exact enumerates_reads htable (hsound _ _ htable) hactions hsmall
  rcases List.mem_cons.mp hname with rfl | hname
  . exact ⟨henumerates (by decide +kernel) (by decide +kernel) (by decide +kernel),
      by decide +kernel, by decide +kernel⟩
  . obtain rfl := List.mem_singleton.mp hname
    exact ⟨henumerates (by decide +kernel) (by decide +kernel) (by decide +kernel),
      by decide +kernel, by decide +kernel⟩

end Cases

end Snp4Api
