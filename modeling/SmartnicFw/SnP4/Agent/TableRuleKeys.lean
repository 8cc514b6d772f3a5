import SmartnicFw.SnP4.Agent.TableRuleOutcome

/-!
This module contains that a deletion passes to the driver what the insertion of the same matches has
passed, so that it removes this entry and no other.
-/

namespace TableRules

open Snp4Api

def tableDriver {σ τ : Type} (intf : DrvIntf σ τ) : TableDriver σ where
  snp4TableInsertKma tableName key mask actionName params priority replace target :=
    match tableName, actionName with
    | some tableName, some actionName =>
      snp4TableInsertKma intf tableName key mask actionName params priority replace target
    -- A rule that has been built has its names
    | _, _ => (false, target)
  snp4TableDeleteK tableName key mask target :=
    match tableName with
    | some tableName => snp4TableDeleteK intf tableName key mask target
    | none => (false, target)

section Pack

theorem snp4RulePackParams_keeps {specs : List Snp4InfoParam} {params : List SnParam}
    {tableBits actionBits : UInt32} {pack pack' : SnPack}
    (h : snp4RulePackParams specs tableBits actionBits params pack = .ok pack')
    : pack'.key = pack.key ∧ pack'.mask = pack.mask := by
  unfold snp4RulePackParams at h
  split at h
  . cases h
    exact ⟨rfl, rfl⟩
  . obtain ⟨all, _, h⟩ := Except.bind_eq_ok_iff.mp h
    dsimp only at h
    split at h
    . contradiction
    . cases h
      exact ⟨rfl, rfl⟩

-- The matches of an accepted rule are packed alike without the rest of it
theorem snp4RulePackMatches_of_snp4RulePack {info : Snp4InfoPipeline} {rule : SnRule}
    {pack : SnPack} (h : snp4RulePack (some info) (some rule) (some snp4PackInit) = .ok pack)
    : ∃ table dpack, snp4InfoGetTableByName (some info) rule.tableName = some table ∧
        snp4RulePackMatches table.matchList table.keyBits.toUInt32 rule.matchList snp4PackInit =
          .ok dpack ∧
        dpack.key = pack.key ∧ dpack.mask = pack.mask := by
  by_cases hres : ∃ table action, rule.Resolves info table action
  . obtain ⟨table, action, hres⟩ := hres
    rw [snp4RulePack_of_resolves _ hres] at h
    obtain ⟨dpack, hmatches, hparams⟩ := Except.bind_eq_ok_iff.mp h
    obtain ⟨hkey, hmask⟩ := snp4RulePackParams_keeps hparams
    exact ⟨table, dpack, hres.table_found, hmatches, hkey.symm, hmask.symm⟩
  . simp only [not_exists] at hres
    obtain ⟨e, herror, _⟩ := snp4RulePack_of_not_resolves snp4PackInit hres
    rw [herror] at h
    contradiction

end Pack

section Load

variable {info : Snp4InfoPipeline} {rule rule' : TableRule} {ti : Snp4InfoTable} {sr : SnRule}

-- The rule that a deletion builds from the same matches
theorem loadRule_delete (htable : rule'.tableName = rule.tableName)
    (hmatches : rule'.matchList = rule.matchList) (h : loadRule info true rule = .ok (ti, sr))
    : ∃ sr', loadRule info false rule' = .ok (ti, sr') ∧ sr'.matchList = sr.matchList ∧
        sr'.tableName = sr.tableName := by
  unfold loadRule at h ⊢
  rw [htable, hmatches]
  split at h
  . contradiction
  . obtain ⟨ms, hms, h⟩ := Except.bind_eq_ok_iff.mp h
    obtain ⟨⟨name, params⟩, _, h⟩ := Except.bind_eq_ok_iff.mp h
    cases h
    dsimp only
    rw [hms]
    exact ⟨_, rfl, rfl, rfl⟩

theorem snp4InfoGetTableByName_of_loadRule {doInsert : Bool}
    (h : loadRule info doInsert rule = .ok (ti, sr))
    : snp4InfoGetTableByName (some info) sr.tableName = some ti ∧ sr.tableName = some ti.name := by
  have hloads := loads_of_loadRule h
  have hname : ti.name = rule.tableName := by
    simpa using List.find?_some hloads.table_found
  refine ⟨?_, hloads.table_name⟩
  rw [hloads.table_name, hname]
  exact hloads.table_found

end Load

-- The table and the key that the driver is passed for the matches of a rule
def passedKey (info : Snp4InfoPipeline) (target : MapTarget) (rule : TableRule)
    : Option (String × EntryKey) :=
  match loadRule info false rule with
  | .error _ => none
  | .ok (ti, sr) =>
    match snp4RulePackMatches ti.matchList ti.keyBits.toUInt32 sr.matchList snp4PackInit with
    | .error _ => none
    | .ok pack =>
      (target ti.name).map fun table => (ti.name, pack.key, passedMask table.mode pack.mask)

abbrev mapDriver : TableDriver MapTarget := tableDriver MapTarget.intf

section Map

variable {info : Snp4InfoPipeline} {rule rule' : TableRule} {target target' : MapTarget}
variable {name : String} {table : MapTable} {key mask : Option Bytes}

theorem mapDriver_delete (h : target name = some table)
    : mapDriver.snp4TableDeleteK (some name) key mask target =
        match table.entries.get? (key, passedMask table.mode mask) with
        | none => (false, target)
        | some _ => (true, target.setEntries name table
            (table.entries.erase (key, passedMask table.mode mask))) :=
  MapTarget.snp4TableDeleteK_of_table h

theorem mapDriver_delete_none (h : target name = none)
    : mapDriver.snp4TableDeleteK (some name) key mask target = (false, target) :=
  MapTarget.snp4TableDeleteK_of_none h

theorem mapDriver_insert {actionName : Option String} {params : Option Bytes} {priority : UInt32}
    {replace inserted : Bool}
    (h : mapDriver.snp4TableInsertKma (some name) key mask actionName params priority replace
      target = (inserted, target'))
    : target' = target ∨ ∃ table value, target name = some table ∧
        target' = target.setEntries name table
          (table.entries.insert (key, passedMask table.mode mask) value) := by
  cases actionName with
  | none => exact .inl (Prod.mk.inj h).2.symm
  | some actionName =>
    rcases MapTarget.snp4TableInsertKma_cases h with hsame | ⟨table, value, htable, _, hset⟩
    . exact .inl hsame
    . exact .inr ⟨table, value, htable, hset⟩

end Map

section Outcomes

variable {info : Snp4InfoPipeline} {rule rule' : TableRule} {target target' : MapTarget}

theorem callDriver_delete {σ : Type} (driver : TableDriver σ) (sr : SnRule) (replace : Bool)
    (pack : SnPack) (handle : σ)
    : (callDriver driver false sr replace pack handle).2 =
        (driver.snp4TableDeleteK sr.tableName pack.key pack.mask handle).2 := by
  unfold callDriver
  simp only [Bool.false_eq_true, if_false]
  rcases driver.snp4TableDeleteK sr.tableName pack.key pack.mask handle with ⟨_ | _, _⟩ <;> rfl

theorem callDriver_insert {σ : Type} (driver : TableDriver σ) (sr : SnRule) (replace : Bool)
    (pack : SnPack) (handle : σ)
    : (callDriver driver true sr replace pack handle).2 =
        (driver.snp4TableInsertKma sr.tableName pack.key pack.mask sr.actionName pack.params
          sr.priority replace handle).2 := by
  unfold callDriver
  simp only [if_true]
  rcases driver.snp4TableInsertKma sr.tableName pack.key pack.mask sr.actionName pack.params
    sr.priority replace handle with ⟨_ | _, _⟩ <;> rfl

-- A deletion erases the key that is passed for its matches, if it is there
theorem outcome_delete (info : Snp4InfoPipeline) (rule : TableRule) (target : MapTarget)
    : (outcome mapDriver false info rule target).2 =
        match passedKey info target rule with
        | none => target
        | some (name, key) =>
          match target name with
          | none => target
          | some table =>
            if (table.entries.get? key).isSome then
              target.setEntries name table (table.entries.erase key)
            else
              target := by
  unfold outcome passedKey
  cases hload : loadRule info false rule with
  | error err => rfl
  | ok r =>
    obtain ⟨ti, sr⟩ := r
    have hname := (snp4InfoGetTableByName_of_loadRule hload).2
    dsimp only [packRule]
    simp only [Bool.false_eq_true, if_false]
    cases snp4RulePackMatches ti.matchList ti.keyBits.toUInt32 sr.matchList snp4PackInit with
    | error rc => rfl
    | ok pack =>
      dsimp only
      rw [callDriver_delete, hname]
      cases htable : target ti.name with
      | none => rw [mapDriver_delete_none htable, Option.map_none]
      | some table =>
        rw [mapDriver_delete htable, Option.map_some]
        dsimp only
        rw [htable]
        dsimp only
        cases table.entries.get? (pack.key, passedMask table.mode pack.mask) with
        | none => rfl
        | some value => rfl

-- An insertion adds the key that is passed for its matches, or nothing
theorem outcome_insert (htable : rule'.tableName = rule.tableName)
    (hmatches : rule'.matchList = rule.matchList)
    (h : (outcome mapDriver true info rule target).2 = target')
    : target' = target ∨ ∃ name key table value, passedKey info target rule' = some (name, key) ∧
        passedKey info target' rule' = some (name, key) ∧ target name = some table ∧
        target' = target.setEntries name table (table.entries.insert key value) := by
  unfold outcome at h
  cases hload : loadRule info true rule with
  | error err =>
    rw [hload] at h
    exact .inl h.symm
  | ok r =>
    obtain ⟨ti, sr⟩ := r
    obtain ⟨sr', hload', hms, _⟩ := loadRule_delete htable hmatches hload
    obtain ⟨hfound, hname⟩ := snp4InfoGetTableByName_of_loadRule hload
    rw [hload] at h
    dsimp only [packRule] at h
    simp only [if_true] at h
    cases hpack : snp4RulePack (some info) (some sr) (some snp4PackInit) with
    | error rc =>
      rw [hpack] at h
      exact .inl h.symm
    | ok pack =>
      obtain ⟨ti', dpack, hti, hdpack, hkey, hmask⟩ := snp4RulePackMatches_of_snp4RulePack hpack
      rw [hfound] at hti
      cases hti
      rw [hpack] at h
      dsimp only at h
      rw [callDriver_insert, hname] at h
      have hpassed : ∀ target : MapTarget, passedKey info target rule' =
          (target ti.name).map fun table => (ti.name, pack.key, passedMask table.mode pack.mask) := by
        intro target
        unfold passedKey
        rw [hload']
        dsimp only
        rw [hms, hdpack]
        dsimp only
        rw [hkey, hmask]
      rcases hcall : mapDriver.snp4TableInsertKma (some ti.name) pack.key pack.mask sr.actionName
        pack.params sr.priority rule.replace target with ⟨inserted, after⟩
      rw [hcall] at h
      cases h
      rcases mapDriver_insert hcall with hsame | ⟨table, value, hget, hset⟩
      . exact .inl hsame
      . refine .inr ⟨ti.name, _, table, value, ?_, ?_, hget, hset⟩
        . rw [hpassed, hget]
          rfl
        . rw [hpassed, hset, MapTarget.setEntries]
          dsimp only
          rw [Function.update_self]
          rfl

-- What has been inserted under a new key is gone after a deletion of the same matches
theorem outcome_delete_insert (htable : rule'.tableName = rule.tableName)
    (hmatches : rule'.matchList = rule.matchList)
    (habsent : ∀ name key, passedKey info target rule' = some (name, key) →
      target.lookup name key = none)
    : (outcome mapDriver false info rule' (outcome mapDriver true info rule target).2).2 = target := by
  rcases outcome_insert htable hmatches rfl with hsame |
    ⟨name, key, table, value, hpassed, hpassed', hget, hset⟩
  . rw [hsame, outcome_delete]
    split
    . rfl
    . next name key hpassed =>
      have hnone := habsent name key hpassed
      split
      . rfl
      . next table hget =>
        rw [MapTarget.lookup_of_table hget] at hnone
        rw [hnone]
        rfl
  . have hnone := habsent name key hpassed
    rw [MapTarget.lookup_of_table hget] at hnone
    have hnew : key ∉ table.entries.keys := Dict.get?_eq_none_iff.mp hnone
    rw [outcome_delete, hpassed', hset]
    unfold MapTarget.setEntries
    dsimp only
    rw [Function.update_self]
    dsimp only
    rw [Dict.get?_insert, if_pos rfl, Option.isSome_some, if_pos rfl, Dict.erase_insert hnew,
      Function.update_idem, ← hget, Function.update_eq_self]

-- Every other entry stays
theorem lookup_outcome_delete {name : String} {key : EntryKey}
    (h : passedKey info target rule ≠ some (name, key))
    : (outcome mapDriver false info rule target).2.lookup name key = target.lookup name key := by
  rw [outcome_delete]
  split
  . rfl
  . next name' key' hpassed =>
    split
    . rfl
    . next table hget =>
      split
      . rw [MapTarget.lookup_setEntries]
        split
        . next heq =>
          have hne : key ≠ key' := by
            rintro rfl
            apply h
            rw [hpassed, heq]
          rw [Dict.get?_erase_of_ne _ hne, heq, MapTarget.lookup_of_table hget]
        . rfl
      . rfl

end Outcomes

theorem turn_snd {σ : Type} (driver : TableDriver σ) (doInsert : Bool) (info : Snp4InfoPipeline)
    (rule : TableRule) (handle : σ) (heap : ByteHeap)
    : (turn driver doInsert info rule handle heap).2.1 =
        (outcome driver doInsert info rule handle).2 := by
  obtain ⟨heap', heq⟩ := turn_eq driver doInsert info rule handle heap
  rw [heq]

/--
The packers agree on the key and the mask of the same matches, the two calls on whether the driver
gets the mask. So a deletion undoes the insertion of a new key, and it removes nothing but what the
driver is passed for its own matches.
-/
theorem insert_delete_agree (info : Snp4InfoPipeline)
    : (∀ rule pack, snp4RulePack (some info) (some rule) (some snp4PackInit) = .ok pack →
          ∃ table dpack, snp4InfoGetTableByName (some info) rule.tableName = some table ∧
            snp4RulePackMatches table.matchList table.keyBits.toUInt32 rule.matchList
              snp4PackInit = .ok dpack ∧
            dpack.key = pack.key ∧ dpack.mask = pack.mask) ∧
        (∀ (σ τ : Type) (intf : DrvIntf σ τ) (target : σ) (tableName actionName : String)
            (table : τ) (actionId : UInt32) (mode : XilVitisNetP4TableMode)
            (key mask params : Option Bytes) (priority : UInt32),
          intf.getTableByName target tableName = some table →
          intf.getActionId target table actionName = some actionId →
          intf.getMode target table = some mode →
          snp4TableInsertKma intf tableName key mask actionName params priority false target =
              intf.insert table key (passedMask mode mask) priority actionId params target ∧
            snp4TableInsertKma intf tableName key mask actionName params priority true target =
              intf.update table key (passedMask mode mask) actionId params target ∧
            snp4TableDeleteK intf tableName key mask target =
              intf.delete table key (passedMask mode mask) target) ∧
        (∀ (rule rule' : TableRule) (target : MapTarget) (heap heap' : ByteHeap),
          rule'.tableName = rule.tableName → rule'.matchList = rule.matchList →
          (∀ name key, passedKey info target rule' = some (name, key) →
            target.lookup name key = none) →
          (turn mapDriver false info rule' (turn mapDriver true info rule target heap).2.1
            heap').2.1 = target) ∧
        ∀ (rule' : TableRule) (target : MapTarget) (heap : ByteHeap) (name : String)
            (key : EntryKey),
          passedKey info target rule' ≠ some (name, key) →
          (turn mapDriver false info rule' target heap).2.1.lookup name key =
            target.lookup name key := by
  refine ⟨?_, ?_, ?_, ?_⟩
  . intro rule pack hpack
    exact snp4RulePackMatches_of_snp4RulePack hpack
  . intro σ τ intf target tableName actionName table actionId mode key mask params priority htable
      haction hmode
    exact ⟨snp4TableInsertKma_eq htable haction hmode .., snp4TableInsertKma_eq htable haction
      hmode .., snp4TableDeleteK_eq htable hmode ..⟩
  . intro rule rule' target heap heap' htable hmatches habsent
    rw [turn_snd, turn_snd]
    exact outcome_delete_insert htable hmatches habsent
  . intro rule' target heap name key hne
    rw [turn_snd]
    exact lookup_outcome_delete hne

-- Two rules of one key that ask for all of its bits, and for none
section Bitfield

def bitfieldRule (mask : Text) : TableRule where
  tableName := "t_b17"
  priority := 0
  replace := false
  matchList := [.keyMask ['5'] mask]
  action := { name := "a_nop", parameters := [] }

def bcamTarget : MapTarget := fun name =>
  if name = "t_b17" then
    some { mode := .bcam, actions := ["a_nop"], entries := Dict.empty }
  else
    none

def exactKey : EntryKey := (some [0, 0, 5], none)

def insertedTarget : MapTarget :=
  (turn mapDriver true snp4InfoPipeline (bitfieldRule "0x1ffff".toList) bcamTarget Heap.empty).2.1

theorem not_kept_otherMask
    : snp4InfoPipeline.Consistent ∧
        (∃ pack pack',
          snp4RulePackMatches [⟨.bitfield, 17⟩] 17 [.keyMask 5 0x1ffff] snp4PackInit = .ok pack ∧
          snp4RulePackMatches [⟨.bitfield, 17⟩] 17 [.keyMask 5 0] snp4PackInit = .ok pack' ∧
          pack.mask ≠ pack'.mask) ∧
        (insertedTarget.lookup "t_b17" exactKey).isSome ∧
        (turn mapDriver false snp4InfoPipeline (bitfieldRule "0".toList) insertedTarget
          Heap.empty).2.1.lookup "t_b17" exactKey = none := by
  refine ⟨by decide, ⟨_, _, rfl, rfl, by decide +kernel⟩, by decide +kernel, by decide +kernel⟩

end Bitfield

end TableRules
