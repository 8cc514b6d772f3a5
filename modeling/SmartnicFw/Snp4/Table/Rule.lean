import SmartnicFw.Snp4.Table.Matches
import SmartnicFw.Snp4.Table.Params

/-!
This module contains the meaning of packing a whole rule for a consistent pipeline.
-/

-- The names of a rule resolve, and it brings as many matches and parameters as these ask for
structure SnRule.Resolves (rule : SnRule) (pipeline : Snp4InfoPipeline) (table : Snp4InfoTable)
    (action : Snp4InfoAction) : Prop where
  table_found : snp4InfoGetTableByName (some pipeline) rule.tableName = some table
  action_found : snp4InfoGetActionByName (some table) rule.actionName = some action
  num_matches : rule.matchList.length = table.matchList.length
  num_params : rule.params.length = action.params.length

theorem SnRule.Resolves.unique {rule : SnRule} {pipeline : Snp4InfoPipeline}
    {table table' : Snp4InfoTable} {action action' : Snp4InfoAction}
    (h : rule.Resolves pipeline table action) (h' : rule.Resolves pipeline table' action')
    : table = table' ∧ action = action' := by
  obtain rfl : table = table' := by
    have := h.table_found.symm.trans h'.table_found
    simpa using this
  refine ⟨rfl, ?_⟩
  have := h.action_found.symm.trans h'.action_found
  simpa using this

def Snp4InfoTable.paramSizeBits (table : Snp4InfoTable) : UInt32 :=
  table.responseBits.toUInt32 - table.actionidBits.toUInt32

-- The pack of an accepted rule
def packedRule (table : Snp4InfoTable) (action : Snp4InfoAction) (rule : SnRule) : SnPack :=
  let pack := snp4PackInit.withKeyMask table.keyBits.toUInt32
    (packedKey table.matchList rule.matchList) (packedMask table.matchList rule.matchList)
  pack.withParams table.paramSizeBits action rule.params

section

variable {pipeline : Snp4InfoPipeline} {rule : SnRule}
variable {table : Snp4InfoTable} {action : Snp4InfoAction} (pack : SnPack)

theorem snp4RulePack_of_resolves (h : rule.Resolves pipeline table action)
    : snp4RulePack (some pipeline) (some rule) (some pack) =
        (snp4RulePackMatches table.matchList table.keyBits.toUInt32 rule.matchList snp4PackInit >>=
          snp4RulePackParams action.params table.paramSizeBits action.paramBits.toUInt32
            rule.params) := by
  unfold snp4RulePack
  dsimp only
  rw [h.table_found]
  dsimp only
  rw [h.action_found]
  simp only [h.num_matches, h.num_params, ne_eq, not_true_eq_false, ↓reduceIte]
  rfl

theorem snp4RulePack_of_not_resolves
    (h : ∀ table action, ¬ rule.Resolves pipeline table action)
    : ∃ e, snp4RulePack (some pipeline) (some rule) (some pack) = .error e ∧
        e ∈ [.invalidTableName, .invalidActionForTable, .fieldSpecSizeMismatch,
          Snp4Status.paramSpecSizeMismatch] := by
  unfold snp4RulePack
  dsimp only
  cases htable : snp4InfoGetTableByName (some pipeline) rule.tableName with
  | none => exact ⟨_, rfl, by simp⟩
  | some table =>
    dsimp only
    cases haction : snp4InfoGetActionByName (some table) rule.actionName with
    | none => exact ⟨_, rfl, by simp⟩
    | some action =>
      dsimp only
      split
      . exact ⟨_, rfl, by simp⟩
      . next hmatches =>
        split
        . exact ⟨_, rfl, by simp⟩
        . next hparams =>
          exact absurd ⟨htable, haction, not_not.mp hmatches, not_not.mp hparams⟩ (h table action)

theorem snp4RulePack_eq_ok_iff (hc : pipeline.Consistent) (r : SnPack)
    : snp4RulePack (some pipeline) (some rule) (some pack) = .ok r ↔
        ∃ table action, rule.Resolves pipeline table action ∧ table.matchList ≠ [] ∧
          MatchesAccepted table.matchList rule.matchList ∧
          ParamsAccepted action.params rule.params ∧ r = packedRule table action rule := by
  by_cases h : ∃ table action, rule.Resolves pipeline table action
  . obtain ⟨table, action, hres⟩ := h
    have htable := hc table (snp4InfoGetTableByName_mem hres.table_found)
    have haction := snp4InfoGetActionByName_mem hres.action_found
    rw [snp4RulePack_of_resolves pack hres, Except.bind_eq_ok_iff]
    simp only [snp4RulePackMatches.eq_ok_iff hres.num_matches htable.match_bits_sum,
      snp4RulePackParams.eq_ok_iff hres.num_params (htable.param_bits_pos action haction)
        (htable.param_bits_sum action haction)]
    constructor
    . rintro ⟨_, ⟨hne, hmatches, rfl⟩, hparams, hr⟩
      exact ⟨table, action, hres, hne, hmatches, hparams, hr⟩
    . rintro ⟨table', action', hres', hne, hmatches, hparams, hr⟩
      obtain ⟨rfl, rfl⟩ := hres.unique hres'
      exact ⟨_, ⟨hne, hmatches, rfl⟩, hparams, hr⟩
  . simp only [not_exists] at h
    obtain ⟨e, herror, _⟩ := snp4RulePack_of_not_resolves pack h
    rw [herror]
    constructor
    . intro hok
      contradiction
    . rintro ⟨table, action, hres, _⟩
      exact absurd hres (h table action)

end
