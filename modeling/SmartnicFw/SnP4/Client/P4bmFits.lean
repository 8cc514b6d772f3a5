import SmartnicFw.SnP4.Client.P4bmTables

/-!
This module contains that the rules of a behaviour-model file fit the tables that they are sent to: what a
client checks of a rule by the description of a pipeline is what the agent checks of it again.
-/

namespace P4bmTables

open Snp4Api
open P4bm (P4bmError P4bmOp Call Pipeline applyOps applyPipelines applyP4bm parseP4bm)
open PipelineAgent (PipelineInfoResponse toPipelineInfo)
open Rpc
open TableRules

-- The codes with which a rule is refused that does not fit its table
def misfits : List ErrorCode :=
  [.EC_INVALID_DEVICE_ID, .EC_INVALID_PIPELINE_ID, .EC_INVALID_TABLE_NAME, .EC_INVALID_ACTION_NAME,
    .EC_TABLE_RULE_TOO_FEW_MATCHES, .EC_TABLE_RULE_TOO_MANY_MATCHES,
    .EC_TABLE_RULE_TOO_FEW_ACTION_PARAMETERS, .EC_TABLE_RULE_TOO_MANY_ACTION_PARAMETERS]

structure FitsRule (info : Snp4InfoPipeline) (tableName actionName : String) (nmatches nparams : Nat)
    : Prop where
  fits : ∃ ti ai, info.tables.find? (fun ti => ti.name == tableName) = some ti ∧
    nmatches = ti.matchList.length ∧ ti.actions.find? (fun ai => ai.name == actionName) = some ai ∧
    nparams = ai.params.length

section Agent

theorem tableRuleParseMatch_not_misfit {m : Match} {err : ErrorCode}
    (h : tableRuleParseMatch m = .error err)
    : err ∉ misfits := by
  unfold tableRuleParseMatch at h
  repeat' split at h
  all_goals first | cases h; decide | cases h

theorem tableRuleParseActionParameter_not_misfit {param : ActionParameter} {err : ErrorCode}
    (h : tableRuleParseActionParameter param = .error err)
    : err ∉ misfits := by
  unfold tableRuleParseActionParameter at h
  split at h
  . cases h
    decide
  . cases h

theorem errorOfStatus_not_misfit (rc : Snp4Status) : errorOfStatus rc ∉ misfits := by
  cases rc <;> decide

theorem callDriver_not_misfit {σ : Type} (driver : TableDriver σ) (doInsert : Bool) (sr : SnRule)
    (replace : Bool) (pack : SnPack) (handle : σ)
    : (callDriver driver doInsert sr replace pack handle).1 ∉ misfits := by
  unfold callDriver
  repeat' split
  all_goals simp [misfits]

variable {info : Snp4InfoPipeline} {rule : TableRule}

theorem loadRule_not_misfit
    (h : FitsRule info rule.tableName rule.action.name rule.matchList.length rule.action.parameters.length)
    {err : ErrorCode} (herror : loadRule info true rule = .error err)
    : err ∉ misfits := by
  obtain ⟨ti, ai, hti, hmatches, hai, hparams⟩ := h.fits
  unfold loadRule at herror
  rw [hti] at herror
  rcases Except.bind_eq_error_iff.mp herror with hms | ⟨ms, _, herror⟩
  . unfold loadMatches at hms
    rw [if_neg (by omega), if_neg (by omega)] at hms
    obtain ⟨m, _, hm⟩ := Except.exists_of_mapM_eq_error hms
    exact tableRuleParseMatch_not_misfit hm
  . rcases Except.bind_eq_error_iff.mp herror with haction | ⟨_, _, herror⟩
    . unfold loadAction at haction
      rw [hai] at haction
      dsimp only at haction
      rw [if_neg (by omega), if_neg (by omega)] at haction
      rcases Except.bind_eq_error_iff.mp haction with hps | ⟨_, _, haction⟩
      . obtain ⟨param, _, hparam⟩ := Except.exists_of_mapM_eq_error hps
        exact tableRuleParseActionParameter_not_misfit hparam
      . cases haction
    . cases herror

theorem outcome_not_misfit
    (h : FitsRule info rule.tableName rule.action.name rule.matchList.length rule.action.parameters.length)
    {σ : Type} (driver : TableDriver σ) (handle : σ)
    : (outcome driver true info rule handle).1 ∉ misfits := by
  unfold outcome
  cases hload : loadRule info true rule with
  | error err => exact loadRule_not_misfit h hload
  | ok r =>
    dsimp only
    split
    . exact errorOfStatus_not_misfit _
    . exact callDriver_not_misfit driver true r.2 rule.replace _ handle

end Agent

section Client

theorem parseFinalize_fits {u : P4bm.Unicode} {lineno : Nat} {tableName actionName : Text}
    {matchTexts actionParams params : List Text} {priority : Option Int} {info : Pipeline}
    (h : P4bm.P4bmTableAdd.parseFinalize u lineno tableName actionName matchTexts actionParams info =
      .ok (params, priority))
    : ∃ tableInfo actionInfo, info.tables.find? (·.name = tableName) = some tableInfo ∧
        matchTexts.length = tableInfo.numMatches ∧
        tableInfo.actions.find? (·.name = actionName) = some actionInfo ∧
        params.length = actionInfo.numParameters := by
  unfold P4bm.P4bmTableAdd.parseFinalize at h
  dsimp only at h
  cases htable : info.tables.find? (·.name = tableName) with
  | none =>
    rw [htable] at h
    cases h
  | some tableInfo =>
    rw [htable] at h
    dsimp only at h
    by_cases hmatches : matchTexts.length ≠ tableInfo.numMatches
    . rw [if_pos hmatches] at h
      cases h
    . rw [if_neg hmatches] at h
      cases haction : tableInfo.actions.find? (·.name = actionName) with
      | none =>
        rw [haction] at h
        cases h
      | some actionInfo =>
        rw [haction] at h
        dsimp only at h
        refine ⟨tableInfo, actionInfo, rfl, not_not.mp hmatches, haction, ?_⟩
        split at h
        . obtain ⟨_, _, h⟩ := Except.bind_eq_ok_iff.mp h
          obtain ⟨r, _, h⟩ := Except.bind_eq_ok_iff.mp h
          obtain ⟨hlen, heq⟩ := Except.ite_error_eq_ok_iff.mp h
          rw [← (Prod.mk.inj (Except.ok.inj heq)).1]
          exact not_not.mp hlen
        . obtain ⟨r, _, h⟩ := Except.bind_eq_ok_iff.mp h
          obtain ⟨hlen, heq⟩ := Except.ite_error_eq_ok_iff.mp h
          rw [← (Prod.mk.inj (Except.ok.inj heq)).1]
          exact not_not.mp hlen

open Snp4InfoHw (InfoPipeline InfoTable)

theorem decide_toList_eq (s : String) (text : Text)
    : decide (s.toList = text) = (s == String.ofList text) := by
  rw [Bool.eq_iff_iff, beq_iff_eq, decide_eq_true_iff]
  constructor
  . rintro rfl
    simp
  . rintro rfl
    simp

-- The rule that is sent has the names and the numbers that the client has checked
theorem fitsRule_of_call {u : TableClient.Unicode} {d p : Nat} {info : InfoPipeline} {op : P4bmOp}
    {call : Call} {req : TableRuleRequest} {rule : TableRule}
    (hcall : op.call u.toUnicode (toPipeline ⟨.EC_OK, d, p, some (toPipelineInfo info)⟩) = .ok call)
    (hreq : request u call = .ok (.insertTableRule req)) (hmem : rule ∈ req.rules)
    : FitsRule info.toSnp4InfoPipeline rule.tableName rule.action.name rule.matchList.length
        rule.action.parameters.length := by
  cases op with
  | clearAll lineno =>
    obtain rfl := Except.ok.inj hcall
    obtain ⟨_, _, hreq⟩ := Except.bind_eq_ok_iff.mp hreq
    obtain ⟨_, _, hreq⟩ := Except.bind_eq_ok_iff.mp hreq
    cases hreq
  | tableClear lineno tableName =>
    obtain rfl := Except.ok.inj hcall
    obtain ⟨_, _, hreq⟩ := Except.bind_eq_ok_iff.mp hreq
    obtain ⟨_, _, hreq⟩ := Except.bind_eq_ok_iff.mp hreq
    cases hreq
  | tableAdd lineno tableName actionName matchTexts actionParams =>
    obtain ⟨⟨params, priority⟩, hfinalize, hcall⟩ := Except.bind_eq_ok_iff.mp hcall
    obtain rfl := Except.ok.inj hcall
    obtain ⟨tableInfo, actionInfo, htable, hmatches, haction, hparams⟩ := parseFinalize_fits hfinalize
    obtain ⟨req', hreq', heq⟩ := Except.bind_eq_ok_iff.mp hreq
    obtain rfl := TableRuns.TableCall.insertTableRule.inj (Except.ok.inj heq)
    unfold TableClient.tableRuleReq ruleKargs at hreq'
    obtain ⟨_, _, hreq'⟩ := Except.bind_eq_ok_iff.mp hreq'
    obtain ⟨ms, hms, hreq'⟩ := Except.bind_eq_ok_iff.mp hreq'
    obtain ⟨action, haction', hreq'⟩ := Except.bind_eq_ok_iff.mp hreq'
    obtain ⟨_, _, hreq'⟩ := Except.bind_eq_ok_iff.mp hreq'
    obtain ⟨_, _, hreq'⟩ := Except.bind_eq_ok_iff.mp hreq'
    obtain rfl := Except.ok.inj hreq'
    obtain rfl := List.mem_singleton.mp hmem
    obtain ⟨parameters, hps, haction'⟩ := Except.bind_eq_ok_iff.mp haction'
    obtain rfl := Except.ok.inj haction'
    have hlen := (Except.forall₂_of_mapM_eq_ok hms).length_eq
    have hlen' := (Except.forall₂_of_mapM_eq_ok hps).length_eq
    unfold toPipeline toPipelineInfo at htable
    dsimp only [Option.elim_some] at htable
    rw [List.map_map, List.find?_map, Option.map_eq_some_iff] at htable
    obtain ⟨table, hfind, rfl⟩ := htable
    unfold toTableInfo PipelineAgent.toTableInfo at haction hmatches
    dsimp only [Function.comp_apply] at haction hmatches
    rw [List.map_map, List.find?_map, Option.map_eq_some_iff] at haction
    obtain ⟨ai, hfind', rfl⟩ := haction
    refine ⟨table.toSnp4InfoTable, ai, ?_, ?_, ?_, ?_⟩
    . unfold InfoPipeline.toSnp4InfoPipeline
      rw [List.find?_map, Option.map_eq_some_iff]
      refine ⟨table, Eq.trans ?_ hfind, rfl⟩
      refine congrArg (List.find? · info.tables) ?_
      funext ti
      exact (decide_toList_eq ti.name tableName).symm
    . simpa using hlen.symm.trans hmatches
    . dsimp only
      refine Eq.trans ?_ hfind'
      refine congrArg (List.find? · table.actions) ?_
      funext ai
      exact (decide_toList_eq ai.name actionName).symm
    . simpa [toActionInfo, PipelineAgent.toActionInfo] using hlen'.symm.trans hparams

theorem mem_applyOps {u : P4bm.Unicode} {stub : P4bm.Stub} {pipeline : Pipeline} {ops : List P4bmOp}
    {calls : List Call} {call : Call} (h : call ∈ (applyOps u stub pipeline ops calls).1)
    : call ∈ calls ∨ ∃ op : P4bmOp, op.call u pipeline = .ok call := by
  induction ops generalizing calls with
  | nil => exact .inl h
  | cons op ops ih =>
    have hconcat {call' : Call} (hcall' : op.call u pipeline = .ok call') (hmem : call ∈ calls ++ [call'])
        : call ∈ calls ∨ ∃ op : P4bmOp, op.call u pipeline = .ok call := by
      rcases List.mem_append.mp hmem with hmem | hmem
      . exact .inl hmem
      . rw [List.mem_singleton.mp hmem]
        exact .inr ⟨op, hcall'⟩
    unfold applyOps at h
    split at h
    . exact .inl h
    . next call' hcall' =>
      split at h
      . exact hconcat hcall' h
      . rcases ih h with hmem | hop
        . exact hconcat hcall' hmem
        . exact .inr hop

theorem mem_applyPipelines {u : P4bm.Unicode} {stub : P4bm.Stub} {ops : List P4bmOp}
    {pipelines : List Pipeline} {ending : Except P4bmError Unit} {calls : List Call} {call : Call}
    (h : call ∈ (applyPipelines u stub ops pipelines ending calls).1)
    : call ∈ calls ∨ ∃ pipeline ∈ pipelines, ∃ op : P4bmOp, op.call u pipeline = .ok call := by
  induction pipelines generalizing calls with
  | nil => exact .inl h
  | cons pipeline pipelines ih =>
    rcases hops : applyOps u stub pipeline ops calls with ⟨calls', outcome⟩
    have hmem : call ∈ calls' → call ∈ calls ∨ ∃ pipeline' ∈ pipeline :: pipelines,
        ∃ op : P4bmOp, op.call u pipeline' = .ok call := by
      intro hmem
      have hfst : call ∈ (applyOps u stub pipeline ops calls).1 := by
        rw [hops]
        exact hmem
      rcases mem_applyOps hfst with hmem | hop
      . exact .inl hmem
      . exact .inr ⟨pipeline, List.mem_cons_self, hop⟩
    rw [applyPipelines, hops] at h
    cases outcome with
    | error e => exact hmem h
    | ok _ =>
      rcases ih h with h | ⟨pipeline', hin, hop⟩
      . exact hmem h
      . exact .inr ⟨pipeline', List.mem_cons_of_mem _ hin, hop⟩

theorem mem_applyP4bm {u : P4bm.Unicode} {stub : P4bm.Stub} {pipelines : List Pipeline}
    {ending : Except P4bmError Unit} {p4bmFile : Text} {call : Call}
    (h : call ∈ (applyP4bm u stub pipelines ending p4bmFile).1)
    : ∃ pipeline ∈ pipelines, ∃ op : P4bmOp, op.call u pipeline = .ok call := by
  unfold applyP4bm at h
  split at h
  . cases h
  . rcases mem_applyPipelines h with hmem | hop
    . cases hmem
    . exact hop

end Client

section Sent

open ForSelected (partAt)

variable {σ τ : Type} {intf : TableIntf σ τ} {u : TableClient.Unicode} {devices : List (Device σ)}
variable {heap : ByteHeap} {infos : List (List PipelineAgent.DevicePipeline)}

-- No call changes the description of a pipeline
theorem info_serve (req : TableRuns.TableCall) (d p : Nat)
    : (pipelineAt (TableRuns.serve intf req devices heap).2.1 d p).map DevicePipeline.info =
        (pipelineAt devices d p).map DevicePipeline.info := by
  obtain ⟨f, hat, hinfo, _⟩ := @exists_pipelineAt_serve _ _ intf devices heap req d p
  rw [hat, Option.map_map]
  exact congrArg (Option.map · (pipelineAt devices d p)) (funext hinfo)

theorem info_issueAll (calls : List Call) (d p : Nat)
    : (pipelineAt (issueAll intf u calls devices heap).1 d p).map DevicePipeline.info =
        (pipelineAt devices d p).map DevicePipeline.info := by
  induction calls using List.reverseRecOn with
  | nil => rfl
  | append_singleton calls call ih =>
    rw [issueAll_concat, ← ih]
    unfold issue
    dsimp only
    split
    . rfl
    . exact info_serve _ d p

/--
Whatever a behaviour-model file says and whatever has been sent before, the agent never refuses a rule of it
for the pipeline, for the names of the table and of the action, or for the numbers of matches and of
parameters: a file with such a rule is refused by the client.
-/
theorem rules_of_file_fit (hinfos : DescribedBy infos devices) {devId pipelineId : Int}
    {p4bmFile : P4bm.Text} {before after : List Call} {call : Call}
    (hcalls : (applyP4bm u.toUnicode (agentStub intf u devices heap)
      ((rpcGetPipelineInfo infos devId pipelineId).1.map toPipeline)
      (rpcGetPipelineInfo infos devId pipelineId).2 p4bmFile).1 = before ++ call :: after)
    {req : TableRuleRequest} (hreq : request u call = .ok (.insertTableRule req))
    : let world := issueAll intf u before devices heap
      ∀ resp ∈ (insertOrDeleteTableRule (tableDriver intf.toDrvIntf) true req world.1 world.2).1,
        resp.errorCode ∉ misfits := by
  intro world resp hresp
  have hmem : call ∈ (applyP4bm u.toUnicode (agentStub intf u devices heap)
      ((rpcGetPipelineInfo infos devId pipelineId).1.map toPipeline)
      (rpcGetPipelineInfo infos devId pipelineId).2 p4bmFile).1 := by
    rw [hcalls]
    simp
  obtain ⟨shown, hshown, op, hcall⟩ := mem_applyP4bm hmem
  obtain ⟨told, htold, rfl⟩ := List.mem_map.mp hshown
  have hfor := isFor_of_request hreq (callsFor_of_call hcall)
  obtain ⟨d, p, info, hpart, _, _, rfl⟩ := exists_of_mem_rpcGetPipelineInfo htold
  have hinfo : (pipelineAt world.1 d p).map DevicePipeline.info =
      (pipelineAt devices d p).map DevicePipeline.info :=
    info_issueAll before d p
  rw [partAt_of_describedBy hinfos, hpart, Option.map_some, Option.map_eq_some_iff] at hinfo
  obtain ⟨pipeline, hpipeline, hpinfo⟩ := hinfo
  obtain ⟨hdev, hid, rule, hrules⟩ := hfor
  rw [fst_insertOrDeleteTableRule, responses_eq_singleton hdev hid hpipeline, List.mem_singleton] at hresp
  have hfits := fitsRule_of_call hcall hreq (hrules ▸ List.mem_singleton_self rule)
  have hcode : codeOf (tableDriver intf.toDrvIntf) true req world.1 d p =
      (outcome (tableDriver intf.toDrvIntf) true pipeline.info rule pipeline.handle).1 := by
    unfold codeOf
    rw [hpipeline, hrules]
    dsimp only
    rw [outcomes]
    rcases outcome (tableDriver intf.toDrvIntf) true pipeline.info rule pipeline.handle with ⟨err, handle⟩
    cases err <;> rfl
  rw [hresp, hcode, hpinfo]
  exact outcome_not_misfit hfits _ _

end Sent

def aclReq : TableRuleRequest where
  devId := 0
  pipelineId := 0
  rules := [{
    tableName := "acl"
    priority := 7
    replace := false
    matchList := [.keyPrefix "0xa000000".toList 8, .keyMask "80".toList "0xffff".toList]
    action := { name := "forward", parameters := [{ value := ['3'] }] } }]

def aclCall : Call :=
  .insertTableRule 0 0 ⟨"acl".toList, "forward".toList,
    ["0xa000000/8".toList, "80&&&0xffff".toList], [['3']], some 7⟩

theorem request_aclCall : request .ascii aclCall = .ok (.insertTableRule aclReq) := by
  have hreq : TableClient.tableRuleReq .ascii (ruleKargs 0 0 ⟨"acl".toList, "forward".toList,
      ["0xa000000/8".toList, "80&&&0xffff".toList], [['3']], some 7⟩) = .ok aclReq := by
    decide +kernel
  unfold aclCall request
  dsimp only
  rw [hreq]
  rfl

theorem rules_of_file_fit_acl
    : let world := issueAll ListedTarget.intf .ascii [.clearTable 0 0 []] (aclDevices aclEntries) Heap.empty
      ∀ resp ∈ (insertOrDeleteTableRule (tableDriver ListedTarget.intf.toDrvIntf) true aclReq world.1
        world.2).1, resp.errorCode ∉ misfits := by
  have hcalls : (applyP4bm P4bm.Unicode.ascii
      (agentStub ListedTarget.intf .ascii (aclDevices aclEntries) Heap.empty)
      ((rpcGetPipelineInfo aclInfos (-1) 0).1.map toPipeline) (rpcGetPipelineInfo aclInfos (-1) 0).2
      aclFile).1 = [.clearTable 0 0 []] ++ aclCall :: [] := by
    decide +kernel
  exact rules_of_file_fit (describedBy_aclInfos aclEntries) hcalls request_aclCall

end P4bmTables
