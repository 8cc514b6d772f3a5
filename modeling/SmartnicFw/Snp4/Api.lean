import SmartnicFw.Lib.Dict

/-!
This module contains the insertion and the deletion of the entries of a table as they are passed on
to the driver (`snp4_api.c`), and a driver whose tables are dictionaries.
-/

namespace Snp4Api

abbrev Bytes := List UInt8

inductive XilVitisNetP4TableMode where
  | bcam
  | stcam
  | tcam
  | dcam
  | tinyBcam
  | tinyTcam
  deriving DecidableEq, Repr

/--
What the driver offers (`vitisnetp4drv-intf.h`): `σ` is what a target holds, `τ` a handle to one of
its tables. A lookup that fails gives nothing, `none` is also NULL.
-/
structure DrvIntf (σ τ : Type) where
  getTableByName : σ → String → Option τ
  getActionId : σ → τ → String → Option UInt32
  getMode : σ → τ → Option XilVitisNetP4TableMode
  update (table : τ) (key mask : Option Bytes) (actionId : UInt32) (params : Option Bytes)
    : σ → Bool × σ
  insert (table : τ) (key mask : Option Bytes) (priority actionId : UInt32) (params : Option Bytes)
    : σ → Bool × σ
  delete (table : τ) (key mask : Option Bytes) : σ → Bool × σ

section Calls

variable {σ τ : Type} (intf : DrvIntf σ τ)

def snp4TableInsertKma (tableName : String) (key mask : Option Bytes) (actionName : String)
    (params : Option Bytes) (priority : UInt32) (replace : Bool) (target : σ)
    : Bool × σ :=
  match intf.getTableByName target tableName with
  | none => (false, target)
  | some table =>
    match intf.getActionId target table actionName with
    | none => (false, target)
    | some actionId =>
      match intf.getMode target table with
      | none => (false, target)
      | some tableMode =>
        -- Certain table modes insist on a NULL mask parameter
        let mask := match tableMode with
          | .dcam | .bcam | .tinyBcam => none
          | _ => mask
        if replace then
          intf.update table key mask actionId params target
        else
          intf.insert table key mask priority actionId params target

def snp4TableDeleteK (tableName : String) (key mask : Option Bytes) (target : σ) : Bool × σ :=
  match intf.getTableByName target tableName with
  | none => (false, target)
  | some table =>
    match intf.getMode target table with
    | none => (false, target)
    | some tableMode =>
      let mask := match tableMode with
        | .dcam | .bcam | .tinyBcam => none
        | _ => mask
      intf.delete table key mask target

end Calls

-- The modes whose tables have no masks
def XilVitisNetP4TableMode.NullMask (mode : XilVitisNetP4TableMode) : Prop :=
  mode ∈ [.dcam, .bcam, .tinyBcam]

instance (mode : XilVitisNetP4TableMode) : Decidable mode.NullMask :=
  inferInstanceAs (Decidable (mode ∈ _))

def passedMask (mode : XilVitisNetP4TableMode) (mask : Option Bytes) : Option Bytes :=
  if mode.NullMask then none else mask

section Passed

variable {σ τ : Type} {intf : DrvIntf σ τ} {target : σ} {tableName : String} {table : τ}
variable {mode : XilVitisNetP4TableMode}

theorem snp4TableInsertKma_eq (htable : intf.getTableByName target tableName = some table)
    {actionName : String} {actionId : UInt32}
    (haction : intf.getActionId target table actionName = some actionId)
    (hmode : intf.getMode target table = some mode) (key mask params : Option Bytes)
    (priority : UInt32) (replace : Bool)
    : snp4TableInsertKma intf tableName key mask actionName params priority replace target =
        if replace then
          intf.update table key (passedMask mode mask) actionId params target
        else
          intf.insert table key (passedMask mode mask) priority actionId params target := by
  unfold snp4TableInsertKma
  rw [htable]
  dsimp only
  rw [haction]
  dsimp only
  rw [hmode]
  cases mode <;> rfl

theorem snp4TableDeleteK_eq (htable : intf.getTableByName target tableName = some table)
    (hmode : intf.getMode target table = some mode) (key mask : Option Bytes)
    : snp4TableDeleteK intf tableName key mask target =
        intf.delete table key (passedMask mode mask) target := by
  unfold snp4TableDeleteK
  rw [htable]
  dsimp only
  rw [hmode]
  cases mode <;> rfl

end Passed

-- What a driver does that leaves everything as it is when it fails
structure DrvIntf.FailsWhole {σ τ : Type} (intf : DrvIntf σ τ) : Prop where
  update_fails : ∀ table key mask actionId params target target',
    intf.update table key mask actionId params target = (false, target') → target' = target
  insert_fails : ∀ table key mask priority actionId params target target',
    intf.insert table key mask priority actionId params target = (false, target') →
    target' = target
  delete_fails : ∀ table key mask target target',
    intf.delete table key mask target = (false, target') → target' = target

section Fails

variable {σ τ : Type} {intf : DrvIntf σ τ} {target target' : σ}

theorem snp4TableInsertKma_fails (h : intf.FailsWhole) {tableName actionName : String}
    {key mask params : Option Bytes} {priority : UInt32} {replace : Bool}
    (hfails : snp4TableInsertKma intf tableName key mask actionName params priority replace target =
      (false, target'))
    : target' = target := by
  unfold snp4TableInsertKma at hfails
  split at hfails
  . exact (Prod.mk.inj hfails).2.symm
  . split at hfails
    . exact (Prod.mk.inj hfails).2.symm
    . split at hfails
      . exact (Prod.mk.inj hfails).2.symm
      . dsimp only at hfails
        split at hfails
        . exact h.update_fails _ _ _ _ _ _ _ hfails
        . exact h.insert_fails _ _ _ _ _ _ _ _ hfails

theorem snp4TableDeleteK_fails (h : intf.FailsWhole) {tableName : String} {key mask : Option Bytes}
    (hfails : snp4TableDeleteK intf tableName key mask target = (false, target'))
    : target' = target := by
  unfold snp4TableDeleteK at hfails
  split at hfails
  . exact (Prod.mk.inj hfails).2.symm
  . split at hfails
    . exact (Prod.mk.inj hfails).2.symm
    . exact h.delete_fails _ _ _ _ _ hfails

end Fails

-- An entry goes by what the driver is passed for it
abbrev EntryKey := Option Bytes × Option Bytes

structure EntryValue where
  priority : UInt32
  actionId : UInt32
  params : Option Bytes
  deriving DecidableEq, Repr

structure MapTable where
  mode : XilVitisNetP4TableMode
  actions : List String
  entries : Dict EntryKey EntryValue

-- The driver numbers the actions of a table in their order
def MapTable.actionIds (table : MapTable) : List UInt32 :=
  (List.range table.actions.length).map UInt32.ofNat

abbrev MapTarget := String → Option MapTable

namespace MapTarget

def lookup (target : MapTarget) (tableName : String) (key : EntryKey) : Option EntryValue := do
  let table ← target tableName
  table.entries.get? key

def setEntries (target : MapTarget) (tableName : String) (table : MapTable)
    (entries : Dict EntryKey EntryValue)
    : MapTarget :=
  Function.update target tableName (some { table with entries })

def intf : DrvIntf MapTarget String where
  getTableByName target name := (target name).map fun _ => name
  getActionId target tableName actionName := do
    let table ← target tableName
    let i ← table.actions.idxOf? actionName
    some (UInt32.ofNat i)
  getMode target tableName := (target tableName).map MapTable.mode
  update tableName key mask actionId params target :=
    match target tableName with
    | none => (false, target)
    | some table =>
      match table.entries.get? (key, mask) with
      | none => (false, target)
      | some value =>
        (true, target.setEntries tableName table
          (table.entries.insert (key, mask) { value with actionId, params }))
  insert tableName key mask priority actionId params target :=
    match target tableName with
    | none => (false, target)
    | some table =>
      match table.entries.get? (key, mask) with
      | none =>
        (true, target.setEntries tableName table
          (table.entries.insert (key, mask) { priority, actionId, params }))
      | some _ => (false, target)
  delete tableName key mask target :=
    match target tableName with
    | none => (false, target)
    | some table =>
      match table.entries.get? (key, mask) with
      | none => (false, target)
      | some _ => (true, target.setEntries tableName table (table.entries.erase (key, mask)))

section Calls

variable {target target' : MapTarget} {name : String} {table : MapTable} {key mask : Option Bytes}

theorem lookup_setEntries (entries : Dict EntryKey EntryValue) (name' : String) (k : EntryKey)
    : (target.setEntries name table entries).lookup name' k =
        if name' = name then entries.get? k else target.lookup name' k := by
  unfold MapTarget.lookup MapTarget.setEntries
  by_cases h : name' = name
  . rw [if_pos h, h, Function.update_self]
    rfl
  . rw [if_neg h, Function.update_of_ne h]

theorem lookup_of_table (h : target name = some table) (k : EntryKey)
    : target.lookup name k = table.entries.get? k := by
  unfold MapTarget.lookup
  rw [h]
  rfl

theorem getTableByName_eq (h : target name = some table)
    : MapTarget.intf.getTableByName target name = some name := by
  show (target name).map _ = _
  rw [h]
  rfl

theorem getMode_eq (h : target name = some table)
    : MapTarget.intf.getMode target name = some table.mode := by
  show (target name).map _ = _
  rw [h]
  rfl

theorem snp4TableDeleteK_of_table (h : target name = some table)
    : snp4TableDeleteK MapTarget.intf name key mask target =
        match table.entries.get? (key, passedMask table.mode mask) with
        | none => (false, target)
        | some _ => (true, target.setEntries name table
            (table.entries.erase (key, passedMask table.mode mask))) := by
  rw [snp4TableDeleteK_eq (getTableByName_eq h) (getMode_eq h)]
  cases hget : table.entries.get? (key, passedMask table.mode mask) with
  | none => simp only [MapTarget.intf, h, hget]
  | some value => simp only [MapTarget.intf, h, hget]

theorem snp4TableDeleteK_of_none (h : target name = none)
    : snp4TableDeleteK MapTarget.intf name key mask target = (false, target) := by
  unfold snp4TableDeleteK MapTarget.intf
  dsimp only
  rw [h]
  rfl

theorem mem_actionIds_of_getActionId (h : target name = some table) {actionName : String}
    {actionId : UInt32} (haction : MapTarget.intf.getActionId target name actionName = some actionId)
    : actionId ∈ table.actionIds := by
  obtain ⟨table', htable, haction⟩ := Option.bind_eq_some_iff.mp haction
  cases h.symm.trans htable
  obtain ⟨i, hi, hsome⟩ := Option.bind_eq_some_iff.mp haction
  cases hsome
  apply List.mem_map_of_mem
  rw [List.mem_range]
  rw [List.idxOf?_eq_some_iff] at hi
  exact hi.1

-- An insertion or an update adds an entry for one of the table's actions, or nothing
theorem snp4TableInsertKma_cases {actionName : String} {params : Option Bytes} {priority : UInt32}
    {replace inserted : Bool}
    (h : snp4TableInsertKma MapTarget.intf name key mask actionName params priority replace
      target = (inserted, target'))
    : target' = target ∨ ∃ table value, target name = some table ∧
        value.actionId ∈ table.actionIds ∧
        target' = target.setEntries name table
          (table.entries.insert (key, passedMask table.mode mask) value) := by
  cases htable : target name with
  | none =>
    unfold snp4TableInsertKma MapTarget.intf at h
    dsimp only at h
    rw [htable] at h
    exact .inl (Prod.mk.inj h).2.symm
  | some table =>
    cases haction : MapTarget.intf.getActionId target name actionName with
    | none =>
      unfold snp4TableInsertKma at h
      rw [getTableByName_eq htable] at h
      dsimp only at h
      rw [haction] at h
      exact .inl (Prod.mk.inj h).2.symm
    | some actionId =>
      have hknown := mem_actionIds_of_getActionId htable haction
      rw [snp4TableInsertKma_eq (getTableByName_eq htable) haction (getMode_eq htable)] at h
      -- An update and an insertion read the same table
      split at h
      . unfold MapTarget.intf at h
        dsimp only at h
        rw [htable] at h
        dsimp only at h
        split at h
        . exact .inl (Prod.mk.inj h).2.symm
        . exact .inr ⟨table, _, rfl, hknown, (Prod.mk.inj h).2.symm⟩
      . unfold MapTarget.intf at h
        dsimp only at h
        rw [htable] at h
        dsimp only at h
        split at h
        . exact .inr ⟨table, _, rfl, hknown, (Prod.mk.inj h).2.symm⟩
        . exact .inl (Prod.mk.inj h).2.symm

end Calls

end MapTarget

end Snp4Api
