import SmartnicFw.SnP4.Agent.TableRule
import SmartnicFw.Snp4.Table.Accept

/-!
This module contains the ownership of the buffers of a packed rule: which of them are released, and
how often, while the agent inserts or deletes the rules of a request.
-/

namespace TableRules

-- What is known of a rule that has been built
structure Loads (info : Snp4InfoPipeline) (doInsert : Bool) (rule : TableRule) (ti : Snp4InfoTable)
    (sr : SnRule) : Prop where
  table_found : info.tables.find? (fun ti => ti.name == rule.tableName) = some ti
  matches_loaded : loadMatches ti rule.matchList = .ok sr.matchList
  table_name : sr.tableName = some ti.name
  action_loaded : doInsert → ∃ name, sr.actionName = some name ∧
    loadAction ti rule.action = .ok (name, sr.params)

theorem loads_of_loadRule {info : Snp4InfoPipeline} {doInsert : Bool} {rule : TableRule}
    {ti : Snp4InfoTable} {sr : SnRule} (h : loadRule info doInsert rule = .ok (ti, sr))
    : Loads info doInsert rule ti sr := by
  unfold loadRule at h
  split at h
  . contradiction
  . next ti' hfound =>
    obtain ⟨ms, hms, h⟩ := Except.bind_eq_ok_iff.mp h
    cases doInsert with
    | false =>
      cases h
      exact ⟨hfound, hms, rfl, fun h => Bool.noConfusion h⟩
    | true =>
      obtain ⟨⟨name, params⟩, haction, h⟩ := Except.bind_eq_ok_iff.mp h
      cases h
      exact ⟨hfound, hms, rfl, fun _ => ⟨name, rfl, haction⟩⟩

theorem length_of_loadMatches {ti : Snp4InfoTable} {ms : List Match} {ms' : List SnMatch}
    (h : loadMatches ti ms = .ok ms')
    : ms'.length = ti.matchList.length := by
  unfold loadMatches at h
  split at h
  . contradiction
  . split at h
    . contradiction
    . have hlen := (Except.forall₂_of_mapM_eq_ok h).length_eq
      omega

section Turn

variable {σ : Type} (driver : TableDriver σ) (doInsert : Bool) (info : Snp4InfoPipeline)
variable (handle : σ) (heap : ByteHeap)

-- What comes of the driver does not matter to the buffers
theorem applyRule_heap (ti : Snp4InfoTable) (sr : SnRule) (replace : Bool)
    : (applyRule driver doInsert info ti sr replace handle heap).2.2 =
        match tableRulePack info (if doInsert then none else some ti) sr snp4PackInitBuffers heap with
        | (.error _, _, heap) => heap
        | (.ok (), pack, heap) => (snp4PackClear pack heap).2 := by
  unfold applyRule
  generalize tableRulePack info _ sr snp4PackInitBuffers heap = r
  rcases r with ⟨err | _, pack, heap⟩
  . rfl
  . rfl

theorem releasesIff_applyRule_insert (ti : Snp4InfoTable) (sr : SnRule) (replace : Bool)
    : heap.ReleasesIff (applyRule driver true info ti sr replace handle heap).2.2
        (¬ sr.Overflows info) := by
  rw [applyRule_heap]
  unfold tableRulePack
  have hpacks := @packsRule info sr heap snp4PackInit
  revert hpacks
  generalize snp4RulePack (some info) (some sr) (some snp4PackInit) = pure
  dsimp only [if_true]
  generalize snp4RulePackBuffers info sr heap = r
  rintro (⟨rc, pack, heap', hfits, _, hleaves⟩ | ⟨rc, pack, heap', hover, htwice⟩ |
    ⟨pack, heap', k, m, p, hfits, hkey, hmask, hparams, hleaves⟩)
  . exact .of_leaves hleaves hfits
  . exact ⟨fun hfits => absurd hover hfits, fun _ => htwice⟩
  . refine .of_leaves (leaves_snp4PackClear ?_) hfits
    simpa [PackBuffers.handles, hkey, hmask, hparams] using hleaves

theorem leaves_applyRule_delete {ti : Snp4InfoTable} {sr : SnRule}
    (hlen : sr.matchList.length = ti.matchList.length) (replace : Bool)
    : heap.Leaves (applyRule driver false info ti sr replace handle heap).2.2 [] := by
  rw [applyRule_heap]
  unfold tableRulePack
  have hpacks := packsMatches hlen ti.keyBits.toUInt32 heap
  revert hpacks
  generalize snp4RulePackMatches ti.matchList ti.keyBits.toUInt32 sr.matchList snp4PackInit = pure
  simp only [Bool.false_eq_true, if_false]
  generalize snp4RulePackMatchesBuffers ti.matchList ti.keyBits.toUInt32 sr.matchList
    snp4PackInitBuffers heap = r
  rintro (⟨rc, _⟩ | ⟨rc, pack, heap', k, m, _, _, _, _, _, hleaves, _⟩ |
    ⟨pack, heap', k, m, _, _, hkey, hmask, hparams, hleaves⟩)
  . exact Heap.Leaves.refl heap
  . exact hleaves
  . apply leaves_snp4PackClear
    simpa [PackBuffers.handles, hkey, hmask, hparams] using hleaves

/--
The rule of an insertion can be built, and then its parts do not fit together.
-/
def Overflows (info : Snp4InfoPipeline) (doInsert : Bool) (rule : TableRule) : Prop :=
  doInsert = true ∧ ∃ ti sr, loadRule info doInsert rule = .ok (ti, sr) ∧ sr.Overflows info

-- Where the widths add up and every table has a key, there is no such rule
theorem not_overflows_of_consistent {info : Snp4InfoPipeline} (hc : info.Consistent)
    (hkeyed : ∀ table ∈ info.tables, table.matchList ≠ []) (doInsert : Bool) (rule : TableRule)
    : ¬ Overflows info doInsert rule := by
  rintro ⟨_, ti, sr, _, hover⟩
  obtain ⟨table, action, hres, hnil⟩ := (overflows_iff_of_consistent hc).mp hover
  exact hkeyed table (snp4InfoGetTableByName_mem hres.table_found) hnil

theorem releasesIff_turn (rule : TableRule)
    : heap.ReleasesIff (turn driver doInsert info rule handle heap).2.2
        (¬ Overflows info doInsert rule) := by
  unfold turn Overflows
  cases hload : loadRule info doInsert rule with
  | error err => exact .of_leaves (Heap.Leaves.refl heap) (by simp)
  | ok r =>
    obtain ⟨ti, sr⟩ := r
    cases doInsert with
    | true =>
      apply (releasesIff_applyRule_insert driver info handle heap ti sr rule.replace).congr
      simp
    | false =>
      have hlen := length_of_loadMatches (loads_of_loadRule hload).matches_loaded
      exact .of_leaves (leaves_applyRule_delete driver info handle heap hlen rule.replace) (by simp)

end Turn

end TableRules
