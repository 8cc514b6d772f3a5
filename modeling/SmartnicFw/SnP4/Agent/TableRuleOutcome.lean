import SmartnicFw.Snp4.Api
import SmartnicFw.SnP4.Agent.TableRuleBuffers

/-!
This module contains what one rule of a request comes to for the tables, without the buffers that
the agent needs on the way.
-/

namespace TableRules

section Outcome

variable {σ : Type} (driver : TableDriver σ) (doInsert : Bool)

def packRule (info : Snp4InfoPipeline) (ti : Snp4InfoTable) (sr : SnRule)
    : Except Snp4Status SnPack :=
  if doInsert then
    snp4RulePack (some info) (some sr) (some snp4PackInit)
  else
    snp4RulePackMatches ti.matchList ti.keyBits.toUInt32 sr.matchList snp4PackInit

def callDriver (sr : SnRule) (replace : Bool) (pack : SnPack) (handle : σ) : ErrorCode × σ :=
  if doInsert then
    match driver.snp4TableInsertKma sr.tableName pack.key pack.mask sr.actionName pack.params
        sr.priority replace handle with
    | (true, handle) => (.EC_OK, handle)
    | (false, handle) => (.EC_FAILED_INSERT_TABLE_RULE, handle)
  else
    match driver.snp4TableDeleteK sr.tableName pack.key pack.mask handle with
    | (true, handle) => (.EC_OK, handle)
    | (false, handle) => (.EC_FAILED_DELETE_TABLE_RULE, handle)

-- A rule that cannot be built or packed does not get to the driver
def outcome (info : Snp4InfoPipeline) (rule : TableRule) (handle : σ) : ErrorCode × σ :=
  match loadRule info doInsert rule with
  | .error err => (err, handle)
  | .ok (ti, sr) =>
    match packRule doInsert info ti sr with
    | .error rc => (errorOfStatus rc, handle)
    | .ok pack => callDriver driver doInsert sr rule.replace pack handle

-- The rules before the first one that fails
def outcomes (info : Snp4InfoPipeline) (rules : List TableRule) (handle : σ) : ErrorCode × σ :=
  match rules with
  | [] => (.EC_OK, handle)
  | rule :: rules =>
    match outcome driver doInsert info rule handle with
    | (.EC_OK, handle) => outcomes info rules handle
    | (err, handle) => (err, handle)

end Outcome

section Turn

variable {σ : Type} (driver : TableDriver σ) (doInsert : Bool) (info : Snp4InfoPipeline)

theorem tableRulePack_refines {ti : Snp4InfoTable} {sr : SnRule}
    (hlen : sr.matchList.length = ti.matchList.length) (heap : ByteHeap)
    : match packRule doInsert info ti sr with
      | .error rc => ∃ buffers heap', tableRulePack info (if doInsert then none else some ti) sr
          snp4PackInitBuffers heap = (.error (errorOfStatus rc), buffers, heap')
      | .ok pack => ∃ buffers heap', tableRulePack info (if doInsert then none else some ti) sr
          snp4PackInitBuffers heap = (.ok (), buffers, heap') ∧ buffers.load heap' = pack := by
  unfold packRule tableRulePack
  cases doInsert with
  | true =>
    have hpacks := @packsRule info sr heap snp4PackInit
    revert hpacks
    dsimp only [if_true]
    generalize snp4RulePack (some info) (some sr) (some snp4PackInit) = pure
    generalize snp4RulePackBuffers info sr heap = r
    rintro (_ | _ | _)
    . exact ⟨_, _, rfl⟩
    . exact ⟨_, _, rfl⟩
    . exact ⟨_, _, rfl, rfl⟩
  | false =>
    have hpacks := packsMatches hlen ti.keyBits.toUInt32 heap
    revert hpacks
    simp only [Bool.false_eq_true, if_false]
    generalize snp4RulePackMatches ti.matchList ti.keyBits.toUInt32 sr.matchList snp4PackInit = pure
    generalize snp4RulePackMatchesBuffers ti.matchList ti.keyBits.toUInt32 sr.matchList
      snp4PackInitBuffers heap = r
    rintro (_ | _ | _)
    . exact ⟨_, _, rfl⟩
    . exact ⟨_, _, rfl⟩
    . exact ⟨_, _, rfl, rfl⟩

theorem applyRule_eq {ti : Snp4InfoTable} {sr : SnRule}
    (hlen : sr.matchList.length = ti.matchList.length) (replace : Bool) (handle : σ)
    (heap : ByteHeap)
    : ∃ heap', applyRule driver doInsert info ti sr replace handle heap =
        (match packRule doInsert info ti sr with
          | .error rc => (errorOfStatus rc, handle, heap')
          | .ok pack =>
            let (err, handle) := callDriver driver doInsert sr replace pack handle
            (err, handle, heap')) := by
  have hpack := tableRulePack_refines doInsert info hlen heap
  unfold applyRule
  cases hpure : packRule doInsert info ti sr with
  | error rc =>
    rw [hpure] at hpack
    obtain ⟨buffers, heap', heq⟩ := hpack
    rw [heq]
    exact ⟨heap', rfl⟩
  | ok pack =>
    rw [hpure] at hpack
    obtain ⟨buffers, heap', heq, rfl⟩ := hpack
    rw [heq]
    refine ⟨(snp4PackClear buffers heap').2, ?_⟩
    unfold callDriver
    cases doInsert <;> rfl

-- The heap has no part in what comes of a rule
theorem turn_eq (rule : TableRule) (handle : σ) (heap : ByteHeap)
    : ∃ heap', turn driver doInsert info rule handle heap =
        ((outcome driver doInsert info rule handle).1, (outcome driver doInsert info rule handle).2,
          heap') := by
  unfold turn outcome
  cases hload : loadRule info doInsert rule with
  | error err => exact ⟨heap, rfl⟩
  | ok r =>
    obtain ⟨ti, sr⟩ := r
    have hlen := length_of_loadMatches (loads_of_loadRule hload).matches_loaded
    obtain ⟨heap', heq⟩ := applyRule_eq driver doInsert info hlen rule.replace handle heap
    refine ⟨heap', ?_⟩
    dsimp only
    rw [heq]
    cases packRule doInsert info ti sr with
    | error rc => rfl
    | ok pack => rfl

theorem turns_eq (rules : List TableRule) (handle : σ) (heap : ByteHeap)
    : ∃ heap', turns driver doInsert info rules handle heap =
        ((outcomes driver doInsert info rules handle).1,
          (outcomes driver doInsert info rules handle).2, heap') := by
  induction rules generalizing handle heap with
  | nil => exact ⟨heap, rfl⟩
  | cons rule rules ih =>
    obtain ⟨heap', hturn⟩ := turn_eq driver doInsert info rule handle heap
    unfold turns outcomes
    rw [hturn]
    rcases outcome driver doInsert info rule handle with ⟨err, handle'⟩
    by_cases hok : err = .EC_OK
    . subst hok
      exact ih handle' heap'
    . refine ⟨heap', ?_⟩
      cases err <;> first | rfl | exact absurd rfl hok

end Turn

end TableRules
