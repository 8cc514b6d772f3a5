import SmartnicFw.Lib.UpdateEach
import SmartnicFw.SnP4.Agent.TableRuleKeys

/-!
This module contains what a request to insert or delete rules does to the tables of all pipelines,
and what it is answered with.
-/

namespace TableRules

open Snp4Api

-- The errors of a rule are errors
section Errors

theorem tableRuleParseMatch_error {m : Match} {err : ErrorCode}
    (h : tableRuleParseMatch m = .error err)
    : err ≠ .EC_OK := by
  rintro rfl
  unfold tableRuleParseMatch at h
  repeat' split at h
  all_goals cases h

theorem tableRuleParseActionParameter_error {param : ActionParameter} {err : ErrorCode}
    (h : tableRuleParseActionParameter param = .error err)
    : err ≠ .EC_OK := by
  rintro rfl
  unfold tableRuleParseActionParameter at h
  split at h <;> cases h

theorem loadMatches_error {ti : Snp4InfoTable} {ms : List Match} {err : ErrorCode}
    (h : loadMatches ti ms = .error err)
    : err ≠ .EC_OK := by
  unfold loadMatches at h
  split at h
  . cases h
    decide
  . split at h
    . cases h
      decide
    . obtain ⟨m, _, hm⟩ := Except.exists_of_mapM_eq_error h
      exact tableRuleParseMatch_error hm

theorem loadAction_error {ti : Snp4InfoTable} {action : Action} {err : ErrorCode}
    (h : loadAction ti action = .error err)
    : err ≠ .EC_OK := by
  unfold loadAction at h
  split at h
  . cases h
    decide
  . split at h
    . cases h
      decide
    . split at h
      . cases h
        decide
      . rcases Except.bind_eq_error_iff.mp h with hparams | ⟨_, _, h⟩
        . obtain ⟨param, _, hparam⟩ := Except.exists_of_mapM_eq_error hparams
          exact tableRuleParseActionParameter_error hparam
        . cases h

theorem loadRule_error {info : Snp4InfoPipeline} {doInsert : Bool} {rule : TableRule}
    {err : ErrorCode} (h : loadRule info doInsert rule = .error err)
    : err ≠ .EC_OK := by
  unfold loadRule at h
  split at h
  . cases h
    decide
  . rcases Except.bind_eq_error_iff.mp h with hmatches | ⟨_, _, h⟩
    . exact loadMatches_error hmatches
    . cases doInsert with
      | true =>
        rcases Except.bind_eq_error_iff.mp h with haction | ⟨_, _, h⟩
        . exact loadAction_error haction
        . cases h
      | false => cases h

theorem snp4RulePackMatches_error {specs : List Snp4InfoMatch} {ms : List SnMatch}
    {keyBits : UInt32} {pack : SnPack} {rc : Snp4Status}
    (h : snp4RulePackMatches specs keyBits ms pack = .error rc)
    : rc ≠ .ok := by
  unfold snp4RulePackMatches at h
  rcases Except.bind_eq_error_iff.mp h with hgo | ⟨acc, _, h⟩
  . exact (snp4RulePackMatches.go_error hgo).ne_ok
  . dsimp only at h
    split at h
    . cases h
      decide
    . split at h <;> cases h
      decide

theorem snp4RulePackParams_error {specs : List Snp4InfoParam} {params : List SnParam}
    {tableBits actionBits : UInt32} {pack : SnPack} {rc : Snp4Status}
    (h : snp4RulePackParams specs tableBits actionBits params pack = .error rc)
    : rc ≠ .ok := by
  unfold snp4RulePackParams at h
  split at h
  . cases h
  . rcases Except.bind_eq_error_iff.mp h with hgo | ⟨acc, _, h⟩
    . exact (snp4RulePackParams.go_error hgo).ne_ok
    . dsimp only at h
      split at h <;> cases h
      decide

theorem packRule_error {doInsert : Bool} {info : Snp4InfoPipeline} {ti : Snp4InfoTable}
    {sr : SnRule} {rc : Snp4Status} (h : packRule doInsert info ti sr = .error rc)
    : rc ≠ .ok := by
  cases doInsert with
  | false => exact snp4RulePackMatches_error h
  | true =>
    change snp4RulePack (some info) (some sr) (some snp4PackInit) = .error rc at h
    by_cases hres : ∃ table action, sr.Resolves info table action
    . obtain ⟨table, action, hres⟩ := hres
      rw [snp4RulePack_of_resolves _ hres] at h
      rcases Except.bind_eq_error_iff.mp h with hmatches | ⟨_, _, hparams⟩
      . exact snp4RulePackMatches_error hmatches
      . exact snp4RulePackParams_error hparams
    . simp only [not_exists] at hres
      obtain ⟨e, herror, he⟩ := snp4RulePack_of_not_resolves snp4PackInit hres
      rw [herror] at h
      cases h
      rintro rfl
      revert he
      decide

theorem errorOfStatus_eq_ok_iff (rc : Snp4Status) : errorOfStatus rc = .EC_OK ↔ rc = .ok := by
  cases rc <;> decide

end Errors

section Rules

variable {σ : Type} (driver : TableDriver σ) (doInsert : Bool) (info : Snp4InfoPipeline)

-- The rule can be built and packed, and the driver takes it
def Applies (rule : TableRule) (handle handle' : σ) : Prop :=
  ∃ ti sr pack, loadRule info doInsert rule = .ok (ti, sr) ∧
    packRule doInsert info ti sr = .ok pack ∧
    (if doInsert then
      driver.snp4TableInsertKma sr.tableName pack.key pack.mask sr.actionName pack.params
        sr.priority rule.replace handle
    else
      driver.snp4TableDeleteK sr.tableName pack.key pack.mask handle) = (true, handle')

inductive AppliesAll : List TableRule → σ → σ → Prop where
  | nil (handle : σ) : AppliesAll [] handle handle
  | cons {rule : TableRule} {rules : List TableRule} {handle handle' handle'' : σ}
    (hrule : Applies driver doInsert info rule handle handle')
    (hrules : AppliesAll rules handle' handle'')
    : AppliesAll (rule :: rules) handle handle''

-- The rules before the first one that fails have been applied, and nothing else has
def AppliesFirst (rules : List TableRule) (handle : σ) (err : ErrorCode) (handle' : σ) : Prop :=
  ∃ applied rest, rules = applied ++ rest ∧ AppliesAll driver doInsert info applied handle handle' ∧
    (rest = [] ∧ err = .EC_OK ∨
      ∃ rule rest', rest = rule :: rest' ∧
        (¬ ∃ handle'', Applies driver doInsert info rule handle' handle'') ∧ err ≠ .EC_OK ∧
        (outcome driver doInsert info rule handle').1 = err)

end Rules

structure TableDriver.FailsWhole {σ : Type} (driver : TableDriver σ) : Prop where
  insert_fails : ∀ tableName key mask actionName params priority replace handle handle',
    driver.snp4TableInsertKma tableName key mask actionName params priority replace handle =
      (false, handle') → handle' = handle
  delete_fails : ∀ tableName key mask handle handle',
    driver.snp4TableDeleteK tableName key mask handle = (false, handle') → handle' = handle

theorem tableDriver_failsWhole {σ τ : Type} {intf : DrvIntf σ τ} (h : intf.FailsWhole)
    : (tableDriver intf).FailsWhole where
  insert_fails := by
    intro tableName key mask actionName params priority replace handle handle' hfails
    unfold tableDriver at hfails
    dsimp only at hfails
    split at hfails
    . exact snp4TableInsertKma_fails h hfails
    . exact (Prod.mk.inj hfails).2.symm
  delete_fails := by
    intro tableName key mask handle handle' hfails
    unfold tableDriver at hfails
    dsimp only at hfails
    split at hfails
    . exact snp4TableDeleteK_fails h hfails
    . exact (Prod.mk.inj hfails).2.symm

section Steps

variable {σ : Type} {driver : TableDriver σ} {doInsert : Bool} {info : Snp4InfoPipeline}
variable {rule : TableRule} {handle handle' : σ}

theorem applies_of_outcome (h : outcome driver doInsert info rule handle = (.EC_OK, handle'))
    : Applies driver doInsert info rule handle handle' := by
  unfold outcome at h
  split at h
  . next err hload => exact absurd (Prod.mk.inj h).1 (loadRule_error hload)
  . next ti sr hload =>
    split at h
    . next rc hpack =>
      exact absurd ((errorOfStatus_eq_ok_iff rc).mp (Prod.mk.inj h).1) (packRule_error hpack)
    . next pack hpack =>
      refine ⟨ti, sr, pack, hload, hpack, ?_⟩
      unfold callDriver at h
      cases doInsert with
      | true =>
        simp only [if_true] at h ⊢
        split at h
        . next hcall => rw [hcall, (Prod.mk.inj h).2]
        . cases h
      | false =>
        simp only [Bool.false_eq_true, if_false] at h ⊢
        split at h
        . next hcall => rw [hcall, (Prod.mk.inj h).2]
        . cases h

theorem outcome_of_applies (h : Applies driver doInsert info rule handle handle')
    : outcome driver doInsert info rule handle = (.EC_OK, handle') := by
  obtain ⟨ti, sr, pack, hload, hpack, hcall⟩ := h
  unfold outcome
  rw [hload]
  dsimp only
  rw [hpack]
  unfold callDriver
  dsimp only
  cases doInsert with
  | true =>
    simp only [if_true] at hcall ⊢
    rw [hcall]
  | false =>
    simp only [Bool.false_eq_true, if_false] at hcall ⊢
    rw [hcall]

theorem outcome_of_ne (hwhole : driver.FailsWhole) {err : ErrorCode}
    (h : outcome driver doInsert info rule handle = (err, handle')) (herr : err ≠ .EC_OK)
    : handle' = handle := by
  unfold outcome at h
  split at h
  . exact (Prod.mk.inj h).2.symm
  . split at h
    . exact (Prod.mk.inj h).2.symm
    . unfold callDriver at h
      split at h
      . split at h
        . exact absurd (Prod.mk.inj h).1.symm herr
        . next hcall =>
          rw [← (Prod.mk.inj h).2]
          exact hwhole.insert_fails _ _ _ _ _ _ _ _ _ hcall
      . split at h
        . exact absurd (Prod.mk.inj h).1.symm herr
        . next hcall =>
          rw [← (Prod.mk.inj h).2]
          exact hwhole.delete_fails _ _ _ _ _ hcall

-- By induction on the rules: the first one is applied and counts to those before the failure, or it
-- is the failure
theorem appliesFirst_outcomes (hwhole : driver.FailsWhole) (rules : List TableRule) (handle : σ)
    : AppliesFirst driver doInsert info rules handle
        (outcomes driver doInsert info rules handle).1
        (outcomes driver doInsert info rules handle).2 := by
  induction rules generalizing handle with
  | nil => exact ⟨[], [], rfl, .nil handle, .inl ⟨rfl, rfl⟩⟩
  | cons rule rules ih =>
    rcases hout : outcome driver doInsert info rule handle with ⟨err, handle'⟩
    by_cases hok : err = .EC_OK
    . subst hok
      have hcons : outcomes driver doInsert info (rule :: rules) handle =
          outcomes driver doInsert info rules handle' := by
        rw [outcomes, hout]
      rw [hcons]
      obtain ⟨applied, rest, rfl, happlied, hrest⟩ := ih handle'
      exact ⟨rule :: applied, rest, rfl, .cons (applies_of_outcome hout) happlied, hrest⟩
    . have hstop : outcomes driver doInsert info (rule :: rules) handle = (err, handle') := by
        rw [outcomes, hout]
        cases err <;> first | rfl | exact absurd rfl hok
      have hsame := outcome_of_ne hwhole hout hok
      subst hsame
      rw [hstop]
      have hnot : ¬ ∃ handle'', Applies driver doInsert info rule handle' handle'' := by
        rintro ⟨handle'', happlies⟩
        rw [outcome_of_applies happlies] at hout
        exact hok (Prod.mk.inj hout).1.symm
      exact ⟨[], rule :: rules, rfl, .nil _, .inr ⟨rule, rules, rfl, hnot, hok, by rw [hout]⟩⟩

end Steps

-- The loops over devices and pipelines, without the heap
section Loops

variable {σ : Type} (driver : TableDriver σ) (doInsert : Bool)

def pipelineAnswer (rules : List TableRule) (devId pipelineId : Nat) (pipeline : DevicePipeline σ)
    : TableRuleResponse × DevicePipeline σ :=
  let (err, handle) := outcomes driver doInsert pipeline.info rules pipeline.handle
  ({ errorCode := err, devId := devId, pipelineId := pipelineId }, { pipeline with handle := handle })

def deviceAnswer (req : TableRuleRequest) (devId : Nat) (dev : Device σ)
    : List TableRuleResponse × Device σ :=
  if req.pipelineId > (dev.pipelines.length : Int) - 1 then
    ([{ errorCode := .EC_INVALID_PIPELINE_ID, devId := devId, pipelineId := 0 }], dev)
  else
    let (resps, pipelines) := updateEach (pipelineAnswer driver doInsert req.rules devId)
      (selected req.pipelineId dev.pipelines.length) dev.pipelines
    (resps, { dev with pipelines := pipelines })

theorem pipelineLoop_eq (rules : List TableRule) (devId : Nat) (pipelineIds : List Nat)
    (pipelines : List (DevicePipeline σ)) (heap : ByteHeap)
    : ∃ heap', pipelineLoop driver doInsert rules devId pipelineIds pipelines heap =
        ((updateEach (pipelineAnswer driver doInsert rules devId) pipelineIds pipelines).1,
          (updateEach (pipelineAnswer driver doInsert rules devId) pipelineIds pipelines).2,
          heap') := by
  induction pipelineIds generalizing pipelines heap with
  | nil => exact ⟨heap, rfl⟩
  | cons id ids ih =>
    unfold pipelineLoop updateEach
    cases hget : pipelines[id]? with
    | none => exact ih pipelines heap
    | some pipeline =>
      obtain ⟨heap', hturns⟩ := turns_eq driver doInsert pipeline.info rules pipeline.handle heap
      dsimp only
      rw [hturns]
      obtain ⟨heap'', hloop⟩ := ih (pipelines.set id { pipeline with
        handle := (outcomes driver doInsert pipeline.info rules pipeline.handle).2 }) heap'
      refine ⟨heap'', ?_⟩
      dsimp only
      rw [hloop]
      rfl

theorem deviceTurn_eq (req : TableRuleRequest) (devId : Nat) (dev : Device σ) (heap : ByteHeap)
    : ∃ heap', deviceTurn driver doInsert req devId dev heap =
        ((deviceAnswer driver doInsert req devId dev).1,
          (deviceAnswer driver doInsert req devId dev).2, heap') := by
  unfold deviceTurn deviceAnswer
  split
  . exact ⟨heap, rfl⟩
  . obtain ⟨heap', hloop⟩ := pipelineLoop_eq driver doInsert req.rules devId
      (selected req.pipelineId dev.pipelines.length) dev.pipelines heap
    rw [hloop]
    exact ⟨heap', rfl⟩

theorem deviceLoop_eq (req : TableRuleRequest) (devIds : List Nat) (devices : List (Device σ))
    (heap : ByteHeap)
    : ∃ heap', deviceLoop driver doInsert req devIds devices heap =
        ((updateEach (deviceAnswer driver doInsert req) devIds devices).1.flatten,
          (updateEach (deviceAnswer driver doInsert req) devIds devices).2, heap') := by
  induction devIds generalizing devices heap with
  | nil => exact ⟨heap, rfl⟩
  | cons id ids ih =>
    unfold deviceLoop updateEach
    cases hget : devices[id]? with
    | none => exact ih devices heap
    | some dev =>
      obtain ⟨heap', hturn⟩ := deviceTurn_eq driver doInsert req id dev heap
      dsimp only
      rw [hturn]
      obtain ⟨heap'', hloop⟩ := ih (devices.set id (deviceAnswer driver doInsert req id dev).2) heap'
      refine ⟨heap'', ?_⟩
      dsimp only
      rw [hloop]
      rfl

end Loops

section Selected

variable {id : Int} {n i : Nat}

theorem nodup_selected (id : Int) (n : Nat) : (selected id n).Nodup := by
  unfold selected
  split
  . exact List.nodup_singleton _
  . exact List.nodup_range

theorem lt_of_mem_selected (h : ¬ id > (n : Int) - 1) (hi : i ∈ selected id n) : i < n := by
  unfold selected at hi
  split at hi
  . rw [List.mem_singleton] at hi
    omega
  . exact List.mem_range.mp hi

theorem mem_selected_iff (hi : i < n) : i ∈ selected id n ↔ id < 0 ∨ id = i := by
  unfold selected
  split
  . rw [List.mem_singleton]
    omega
  . rw [List.mem_range]
    omega

end Selected

section Answered

variable {σ : Type}

def pipelineAt (devices : List (Device σ)) (devId pipelineId : Nat) : Option (DevicePipeline σ) := do
  let dev ← devices[devId]?
  dev.pipelines[pipelineId]?

-- One response for each pipeline that is selected, or for an id that is too large
def responses (req : TableRuleRequest) (devices : List (Device σ)) (code : Nat → Nat → ErrorCode)
    : List TableRuleResponse :=
  if req.devId > (devices.length : Int) - 1 then
    [{ errorCode := .EC_INVALID_DEVICE_ID, devId := 0, pipelineId := 0 }]
  else
    (selected req.devId devices.length).flatMap fun devId =>
      match devices[devId]? with
      | none => []
      | some dev =>
        if req.pipelineId > (dev.pipelines.length : Int) - 1 then
          [{ errorCode := .EC_INVALID_PIPELINE_ID, devId := devId, pipelineId := 0 }]
        else
          (selected req.pipelineId dev.pipelines.length).map fun pipelineId =>
            { errorCode := code devId pipelineId, devId := devId, pipelineId := pipelineId }

def TableRuleRequest.Selects (req : TableRuleRequest) (devId pipelineId : Nat) : Prop :=
  (req.devId < 0 ∨ req.devId = devId) ∧ (req.pipelineId < 0 ∨ req.pipelineId = pipelineId)

def Answered (driver : TableDriver σ) (doInsert : Bool) (req : TableRuleRequest)
    (devices : List (Device σ)) (resps : List TableRuleResponse) (devices' : List (Device σ))
    : Prop :=
  ∃ code, resps = responses req devices code ∧ ∀ devId pipelineId,
    match pipelineAt devices devId pipelineId with
    | none => pipelineAt devices' devId pipelineId = none
    | some pipeline =>
      ∃ handle', pipelineAt devices' devId pipelineId = some { pipeline with handle := handle' } ∧
        (req.Selects devId pipelineId →
          AppliesFirst driver doInsert pipeline.info req.rules pipeline.handle
            (code devId pipelineId) handle') ∧
        (¬ req.Selects devId pipelineId → handle' = pipeline.handle)

variable (driver : TableDriver σ) (doInsert : Bool) (req : TableRuleRequest)

-- The code that a pipeline is answered with
def codeOf (devices : List (Device σ)) (devId pipelineId : Nat) : ErrorCode :=
  match pipelineAt devices devId pipelineId with
  | none => .EC_UNKNOWN
  | some pipeline => (outcomes driver doInsert pipeline.info req.rules pipeline.handle).1

theorem fst_deviceAnswer {devices : List (Device σ)} {devId : Nat} {dev : Device σ}
    (hdev : devices[devId]? = some dev)
    : (deviceAnswer driver doInsert req devId dev).1 =
        if req.pipelineId > (dev.pipelines.length : Int) - 1 then
          [{ errorCode := .EC_INVALID_PIPELINE_ID, devId := devId, pipelineId := 0 }]
        else
          (selected req.pipelineId dev.pipelines.length).map fun pipelineId =>
            { errorCode := codeOf driver doInsert req devices devId pipelineId,
              devId := devId, pipelineId := pipelineId } := by
  unfold deviceAnswer
  split
  . rfl
  . next hvalid =>
    dsimp only
    rw [updateEach_fst (nodup_selected _ _), ← List.filterMap_eq_map]
    apply List.filterMap_congr
    intro pipelineId hmem
    have hlt := lt_of_mem_selected hvalid hmem
    have hat : pipelineAt devices devId pipelineId = some dev.pipelines[pipelineId] := by
      unfold pipelineAt
      rw [hdev, Option.bind_eq_bind, Option.bind_some, List.getElem?_eq_getElem hlt]
    have hcode : codeOf driver doInsert req devices devId pipelineId =
        (outcomes driver doInsert dev.pipelines[pipelineId].info req.rules
          dev.pipelines[pipelineId].handle).1 := by
      unfold codeOf
      rw [hat]
    rw [List.getElem?_eq_getElem hlt, Option.map_some, Function.comp_apply, hcode]
    rfl

theorem pipelineAt_deviceAnswer (devId : Nat) (dev : Device σ) (pipelineId : Nat)
    : (deviceAnswer driver doInsert req devId dev).2.pipelines[pipelineId]? =
        if req.pipelineId < 0 ∨ req.pipelineId = pipelineId then
          dev.pipelines[pipelineId]?.map fun pipeline =>
            { pipeline with
              handle := (outcomes driver doInsert pipeline.info req.rules pipeline.handle).2 }
        else
          dev.pipelines[pipelineId]? := by
  by_cases hlt : pipelineId < dev.pipelines.length
  . unfold deviceAnswer
    split
    . rw [if_neg (by omega)]
    . dsimp only
      rw [updateEach_getElem? (nodup_selected _ _)]
      simp only [mem_selected_iff hlt]
      rfl
  . have hnone : dev.pipelines[pipelineId]? = none := List.getElem?_eq_none (by omega)
    have hlen : (deviceAnswer driver doInsert req devId dev).2.pipelines.length =
        dev.pipelines.length := by
      unfold deviceAnswer
      split
      . rfl
      . exact updateEach_length _ _
    rw [hnone, List.getElem?_eq_none (by omega)]
    simp

instance (devId pipelineId : Nat) : Decidable (req.Selects devId pipelineId) :=
  inferInstanceAs (Decidable (_ ∧ _))

variable (devices : List (Device σ)) (heap : ByteHeap)

theorem fst_insertOrDeleteTableRule
    : (insertOrDeleteTableRule driver doInsert req devices heap).1 =
        responses req devices (codeOf driver doInsert req devices) := by
  unfold insertOrDeleteTableRule responses
  split
  . rfl
  . obtain ⟨heap', hloop⟩ := deviceLoop_eq driver doInsert req
      (selected req.devId devices.length) devices heap
    rw [hloop]
    dsimp only
    rw [updateEach_fst (nodup_selected _ _), flatten_filterMap]
    apply List.flatMap_congr
    intro devId _
    cases hdev : devices[devId]? with
    | none => rfl
    | some dev =>
      rw [Option.map_some, Option.getD_some]
      exact fst_deviceAnswer driver doInsert req hdev

theorem length_insertOrDeleteTableRule
    : (insertOrDeleteTableRule driver doInsert req devices heap).2.1.length = devices.length := by
  unfold insertOrDeleteTableRule
  split
  . rfl
  . obtain ⟨heap', hloop⟩ := deviceLoop_eq driver doInsert req
      (selected req.devId devices.length) devices heap
    rw [hloop]
    exact updateEach_length _ _

theorem pipelineAt_insertOrDeleteTableRule (devId pipelineId : Nat)
    : pipelineAt (insertOrDeleteTableRule driver doInsert req devices heap).2.1 devId pipelineId =
        (pipelineAt devices devId pipelineId).map fun pipeline =>
          if req.Selects devId pipelineId then
            { pipeline with
              handle := (outcomes driver doInsert pipeline.info req.rules pipeline.handle).2 }
          else
            pipeline := by
  cases hdev : devices[devId]? with
  | none =>
    have hlen := length_insertOrDeleteTableRule driver doInsert req devices heap
    have hge := List.getElem?_eq_none_iff.mp hdev
    unfold pipelineAt
    rw [hdev, List.getElem?_eq_none (by omega)]
    rfl
  | some dev =>
    obtain ⟨hlt, _⟩ := List.getElem?_eq_some_iff.mp hdev
    have hat : pipelineAt devices devId pipelineId = dev.pipelines[pipelineId]? := by
      unfold pipelineAt
      rw [hdev]
      rfl
    rw [hat]
    unfold insertOrDeleteTableRule TableRuleRequest.Selects
    split
    . have hnot : ¬ (req.devId < 0 ∨ req.devId = devId) := by omega
      simp only [hnot, false_and, if_false, Option.map_id_fun', id_eq]
      exact hat
    . obtain ⟨heap', hloop⟩ := deviceLoop_eq driver doInsert req
        (selected req.devId devices.length) devices heap
      rw [hloop]
      unfold pipelineAt
      dsimp only
      rw [updateEach_getElem? (nodup_selected _ _), hdev]
      simp only [mem_selected_iff hlt]
      by_cases hsel : req.devId < 0 ∨ req.devId = devId
      . simp only [hsel, true_and, if_true, Option.map_some]
        show (deviceAnswer driver doInsert req devId dev).2.pipelines[pipelineId]? = _
        rw [pipelineAt_deviceAnswer]
        split
        . rfl
        . rw [Option.map_id_fun', id_eq]
      . simp only [hsel, false_and, if_false, Option.map_id_fun', id_eq]
        rfl

end Answered

/--
The tables of each pipeline that is selected come from the rules before the first one that fails,
and it is answered with the code of that one. No other pipeline is touched, whatever the driver
does.
-/
theorem request_answered {σ τ : Type} {intf : DrvIntf σ τ} (h : intf.FailsWhole) (doInsert : Bool)
    (req : TableRuleRequest) (devices : List (Device σ)) (heap : ByteHeap)
    : Answered (tableDriver intf) doInsert req devices
        (insertOrDeleteTableRule (tableDriver intf) doInsert req devices heap).1
        (insertOrDeleteTableRule (tableDriver intf) doInsert req devices heap).2.1 ∧
      ∀ (driver : TableDriver σ) (devId pipelineId : Nat), ¬ req.Selects devId pipelineId →
        pipelineAt (insertOrDeleteTableRule driver doInsert req devices heap).2.1 devId pipelineId =
          pipelineAt devices devId pipelineId := by
  refine ⟨⟨_, fst_insertOrDeleteTableRule .., ?_⟩, ?_⟩
  . intro devId pipelineId
    rw [pipelineAt_insertOrDeleteTableRule]
    unfold codeOf
    cases pipelineAt devices devId pipelineId with
    | none => rfl
    | some pipeline =>
      dsimp only [Option.map_some]
      by_cases hsel : req.Selects devId pipelineId
      . refine ⟨_, by rw [if_pos hsel], fun _ => ?_, fun hnot => absurd hsel hnot⟩
        exact appliesFirst_outcomes (tableDriver_failsWhole h) req.rules pipeline.handle
      . exact ⟨pipeline.handle, by rw [if_neg hsel], fun hyes => absurd hyes hsel, fun _ => rfl⟩
  . intro driver devId pipelineId hnot
    rw [pipelineAt_insertOrDeleteTableRule]
    simp only [hnot, if_false, Option.map_id_fun', id_eq]

section Map

theorem mapTarget_failsWhole : MapTarget.intf.FailsWhole where
  update_fails := by
    intro table key mask actionId params target target' hfails
    unfold MapTarget.intf at hfails
    dsimp only at hfails
    split at hfails
    . exact (Prod.mk.inj hfails).2.symm
    . split at hfails
      . exact (Prod.mk.inj hfails).2.symm
      . cases hfails
  insert_fails := by
    intro table key mask priority actionId params target target' hfails
    unfold MapTarget.intf at hfails
    dsimp only at hfails
    split at hfails
    . exact (Prod.mk.inj hfails).2.symm
    . split at hfails
      . cases hfails
      . exact (Prod.mk.inj hfails).2.symm
  delete_fails := by
    intro table key mask target target' hfails
    unfold MapTarget.intf at hfails
    dsimp only at hfails
    split at hfails
    . exact (Prod.mk.inj hfails).2.symm
    . split at hfails
      . exact (Prod.mk.inj hfails).2.symm
      . cases hfails

def bitfieldDevices : List (Device MapTarget) :=
  [{ pipelines := [{ info := snp4InfoPipeline, handle := bcamTarget }] }]

-- The second rule has the key of the first one, and the third one is never reached
def bitfieldRequest (devId : Int) : TableRuleRequest where
  devId := devId
  pipelineId := -1
  rules := [bitfieldRule "0x1ffff".toList, bitfieldRule "0".toList, bitfieldRule "x".toList]

theorem request_answered_bitfield
    : Answered mapDriver true (bitfieldRequest 0) bitfieldDevices
        [{ errorCode := .EC_FAILED_INSERT_TABLE_RULE, devId := 0, pipelineId := 0 }]
        (insertOrDeleteTableRule mapDriver true (bitfieldRequest 0) bitfieldDevices
          Heap.empty).2.1 := by
  have hresps : (insertOrDeleteTableRule mapDriver true (bitfieldRequest 0) bitfieldDevices
      Heap.empty).1 =
        [{ errorCode := .EC_FAILED_INSERT_TABLE_RULE, devId := 0, pipelineId := 0 }] := by
    decide +kernel
  rw [← hresps]
  exact (request_answered mapTarget_failsWhole true (bitfieldRequest 0) bitfieldDevices
    Heap.empty).1

-- There is no device -2, and yet the first rule is inserted
theorem not_refused_belowZero
    : bcamTarget.lookup "t_b17" exactKey = none ∧
        (insertOrDeleteTableRule mapDriver true (bitfieldRequest (-2)) bitfieldDevices
          Heap.empty).1.map TableRuleResponse.errorCode ≠ [.EC_INVALID_DEVICE_ID] ∧
        ((pipelineAt (insertOrDeleteTableRule mapDriver true (bitfieldRequest (-2)) bitfieldDevices
          Heap.empty).2.1 0 0).bind fun pipeline =>
            pipeline.handle.lookup "t_b17" exactKey).isSome := by
  decide +kernel

end Map

end TableRules
