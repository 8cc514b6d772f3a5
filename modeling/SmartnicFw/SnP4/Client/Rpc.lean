import SmartnicFw.SnP4.Agent.PipelineInfo
import SmartnicFw.SnP4.Agent.TableRuns
import SmartnicFw.SnP4.Client.TableRule

/-!
This module contains the calls of the client to the agent, and what it makes of the responses (`table.py`,
`pipeline.py`, `error.py`).
-/

namespace Rpc

open P4bm (P4bmError Call)
open PipelineAgent (PipelineInfoRequest PipelineInfoResponse getPipelineInfo)
open TableClient (Kargs sint32Field tableRuleReq)
open TableClears (TableResponse clearTable clearTables)
open TableRules (Device DevicePipeline TableRuleResponse insertOrDeleteTableRule outcomes pipelineAt)
open TableRuns (TableAnswer TableCall serve)

section Errors

def errorCodeStr : TableRules.ErrorCode → String
  | .EC_UNKNOWN => "UNKNOWN"
  | .EC_OK => "OK"
  | .EC_INVALID_DEVICE_ID => "INVALID_DEVICE_ID"
  | .EC_INVALID_PIPELINE_ID => "INVALID_PIPELINE_ID"
  | .EC_INVALID_TABLE_NAME => "INVALID_TABLE_NAME"
  | .EC_INVALID_ACTION_NAME => "INVALID_ACTION_NAME"
  | .EC_TABLE_RULE_TOO_FEW_MATCHES => "TABLE_RULE_TOO_FEW_MATCHES"
  | .EC_TABLE_RULE_TOO_MANY_MATCHES => "TABLE_RULE_TOO_MANY_MATCHES"
  | .EC_TABLE_RULE_TOO_FEW_ACTION_PARAMETERS => "TABLE_RULE_TOO_FEW_ACTION_PARAMETERS"
  | .EC_TABLE_RULE_TOO_MANY_ACTION_PARAMETERS => "TABLE_RULE_TOO_MANY_ACTION_PARAMETERS"
  | .EC_TABLE_RULE_INVALID_ACTION_PARAMETER_FORMAT => "TABLE_RULE_INVALID_ACTION_PARAMETER_FORMAT"
  | .EC_TABLE_RULE_MATCH_INVALID_KEY_FORMAT => "TABLE_RULE_MATCH_INVALID_KEY_FORMAT"
  | .EC_TABLE_RULE_MATCH_INVALID_MASK_FORMAT => "TABLE_RULE_MATCH_INVALID_MASK_FORMAT"
  | .EC_TABLE_RULE_MATCH_INVALID_PREFIX_LENGTH => "TABLE_RULE_MATCH_INVALID_PREFIX_LENGTH"
  | .EC_TABLE_RULE_MATCH_RANGE_LOWER_TOO_BIG => "TABLE_RULE_MATCH_RANGE_LOWER_TOO_BIG"
  | .EC_TABLE_RULE_MATCH_RANGE_UPPER_TOO_BIG => "TABLE_RULE_MATCH_RANGE_UPPER_TOO_BIG"
  | .EC_UNKNOWN_TABLE_RULE_MATCH_TYPE => "UNKNOWN_TABLE_RULE_MATCH_TYPE"
  | .EC_FAILED_INSERT_TABLE_RULE => "FAILED_INSERT_TABLE_RULE"
  | .EC_FAILED_DELETE_TABLE_RULE => "FAILED_DELETE_TABLE_RULE"
  | .EC_TABLE_RULE_FIELD_SPEC_OVERFLOW => "TABLE_RULE_FIELD_SPEC_OVERFLOW"
  | .EC_TABLE_RULE_FIELD_SPEC_FORMAT_INVALID => "TABLE_RULE_FIELD_SPEC_FORMAT_INVALID"
  | .EC_TABLE_RULE_FIELD_SPEC_UNKNOWN_TYPE => "TABLE_RULE_FIELD_SPEC_UNKNOWN_TYPE"
  | .EC_TABLE_RULE_FIELD_SPEC_SIZE_MISMATCH => "TABLE_RULE_FIELD_SPEC_SIZE_MISMATCH"
  | .EC_TABLE_RULE_PACK_KEY_TOO_BIG => "TABLE_RULE_PACK_KEY_TOO_BIG"
  | .EC_TABLE_RULE_PACK_MASK_TOO_BIG => "TABLE_RULE_PACK_MASK_TOO_BIG"
  | .EC_TABLE_RULE_PACK_PARAMS_TOO_BIG => "TABLE_RULE_PACK_PARAMS_TOO_BIG"
  | .EC_TABLE_RULE_MATCH_INVALID_FORMAT => "TABLE_RULE_MATCH_INVALID_FORMAT"
  | .EC_TABLE_RULE_MATCH_MASK_TOO_WIDE => "TABLE_RULE_MATCH_MASK_TOO_WIDE"
  | .EC_TABLE_RULE_MATCH_INVALID_BITFIELD_MASK => "TABLE_RULE_MATCH_INVALID_BITFIELD_MASK"
  | .EC_TABLE_RULE_MATCH_INVALID_CONSTANT_MASK => "TABLE_RULE_MATCH_INVALID_CONSTANT_MASK"
  | .EC_TABLE_RULE_MATCH_INVALID_PREFIX_MASK => "TABLE_RULE_MATCH_INVALID_PREFIX_MASK"
  | .EC_TABLE_RULE_MATCH_INVALID_RANGE_MASK => "TABLE_RULE_MATCH_INVALID_RANGE_MASK"
  | .EC_TABLE_RULE_MATCH_INVALID_UNUSED_MASK => "TABLE_RULE_MATCH_INVALID_UNUSED_MASK"
  | .EC_TABLE_RULE_MATCH_KEY_TOO_BIG => "TABLE_RULE_MATCH_KEY_TOO_BIG"
  | .EC_TABLE_RULE_MATCH_MASK_TOO_BIG => "TABLE_RULE_MATCH_MASK_TOO_BIG"
  | .EC_TABLE_RULE_INVALID_TABLE_NAME => "TABLE_RULE_INVALID_TABLE_NAME"
  | .EC_TABLE_RULE_INVALID_TABLE_CONFIG => "TABLE_RULE_INVALID_TABLE_CONFIG"
  | .EC_TABLE_RULE_INVALID_ACTION_FOR_TABLE => "TABLE_RULE_INVALID_ACTION_FOR_TABLE"
  | .EC_TABLE_RULE_PARAM_INVALID_FORMAT => "TABLE_RULE_PARAM_INVALID_FORMAT"
  | .EC_TABLE_RULE_PARAM_SPEC_OVERFLOW => "TABLE_RULE_PARAM_SPEC_OVERFLOW"
  | .EC_TABLE_RULE_PARAM_SPEC_SIZE_MISMATCH => "TABLE_RULE_PARAM_SPEC_SIZE_MISMATCH"
  | .EC_TABLE_RULE_PARAM_TOO_BIG => "TABLE_RULE_PARAM_TOO_BIG"

-- The codes with which a clearing of tables can be answered
def clearErrorCodeStr : TableClears.ErrorCode → String
  | .EC_OK => "OK"
  | .EC_INVALID_DEVICE_ID => "INVALID_DEVICE_ID"
  | .EC_INVALID_PIPELINE_ID => "INVALID_PIPELINE_ID"
  | .EC_INVALID_TABLE_NAME => "INVALID_TABLE_NAME"
  | .EC_FAILED_CLEAR_ALL_TABLES => "FAILED_CLEAR_ALL_TABLES"
  | .EC_FAILED_CLEAR_TABLE => "FAILED_CLEAR_TABLE"

end Errors

section Responses

def ruleFailure (resp : TableRuleResponse) : Option String :=
  if resp.errorCode ≠ .EC_OK then some (errorCodeStr resp.errorCode) else none

def tableFailure (resp : TableResponse) : Option String :=
  if resp.errorCode ≠ .EC_OK then some (clearErrorCodeStr resp.errorCode) else none

def pipelineFailure (resp : PipelineInfoResponse) : Option String :=
  if resp.errorCode ≠ .EC_OK then some (errorCodeStr resp.errorCode) else none

-- The responses that are passed on, and how they end: the first failure among them is raised
def receive {R : Type} (failure : R → Option String) (resps : List R) : List R × Except P4bmError Unit :=
  match resps with
  | [] => ([], .ok ())
  | resp :: resps =>
    match failure resp with
    | some text => ([], .error (.clickException ("Remote failure: " ++ text)))
    | none =>
      let (received, ending) := receive failure resps
      (resp :: received, ending)

variable {R : Type} {failure : R → Option String}

theorem receive_sublist (resps : List R) : (receive failure resps).1.Sublist resps := by
  induction resps with
  | nil => exact .refl []
  | cons resp resps ih =>
    unfold receive
    split
    . exact List.nil_sublist _
    . exact ih.cons_cons resp

theorem failure_of_mem_receive {resps : List R} {resp : R} (h : resp ∈ (receive failure resps).1)
    : failure resp = none := by
  induction resps with
  | nil => cases h
  | cons r resps ih =>
    unfold receive at h
    split at h
    . cases h
    . next hnone =>
      rcases List.mem_cons.mp h with rfl | h
      . exact hnone
      . exact ih h

theorem receive_of_ok {resps : List R} (h : (receive failure resps).2 = .ok ())
    : (receive failure resps).1 = resps := by
  induction resps with
  | nil => rfl
  | cons resp resps ih =>
    unfold receive at h ⊢
    cases hfailure : failure resp with
    | some text =>
      rw [hfailure] at h
      cases h
    | none =>
      rw [hfailure] at h
      exact congrArg (resp :: ·) (ih h)

theorem receive_singleton_iff (resp : R) : (receive failure [resp]).2 = .ok () ↔ failure resp = none := by
  unfold receive
  cases failure resp with
  | none => simp [receive]
  | some text => simp

end Responses

section Requests

-- An insertion by a behaviour-model file, which passes no `replace`
def ruleKargs (devId pipelineId : Int) (rule : P4bm.TableRule) : Kargs where
  devId := devId
  pipelineId := pipelineId
  tableName := String.ofList rule.tableName
  priority := rule.priority
  replace := none
  matchList := rule.matchTexts
  actionName := some (String.ofList rule.actionName)
  actionParams := some rule.actionParams

def request (u : TableClient.Unicode) : Call → Except P4bmError TableCall
  | .clearTable devId pipelineId tableName => do
    let devId ← sint32Field devId
    let pipelineId ← sint32Field pipelineId
    return .clearTable { devId := devId, pipelineId := pipelineId, tableName := String.ofList tableName }
  | .insertTableRule devId pipelineId rule => do
    let req ← tableRuleReq u (ruleKargs devId pipelineId rule)
    return .insertTableRule req

-- How a call to the agent ends for the client
def ending : TableAnswer → Except P4bmError Unit
  | .rules resps => (receive ruleFailure resps).2
  | .tables resps => (receive tableFailure resps).2

variable {σ τ : Type} (intf : Snp4Api.TableIntf σ τ) (u : TableClient.Unicode)

def issue (call : Call) (devices : List (Device σ)) (heap : ByteHeap)
    : Except P4bmError Unit × List (Device σ) × ByteHeap :=
  match request u call with
  | .error e => (.error e, devices, heap)
  | .ok req =>
    let (answer, devices, heap) := serve intf req devices heap
    (ending answer, devices, heap)

def issueAll (calls : List Call) (devices : List (Device σ)) (heap : ByteHeap)
    : List (Device σ) × ByteHeap :=
  calls.foldl (fun world call => (issue intf u call world.1 world.2).2) (devices, heap)

-- The agent as the stub of its clients, with what it holds before the first call
def agentStub (devices : List (Device σ)) (heap : ByteHeap) : P4bm.Stub :=
  fun calls call =>
    let world := issueAll intf u calls devices heap
    (issue intf u call world.1 world.2).1

def pipelineInfoReq (devId pipelineId : Int) : Except P4bmError PipelineInfoRequest := do
  let devId ← sint32Field devId
  let pipelineId ← sint32Field pipelineId
  return { devId := devId, pipelineId := pipelineId }

def rpcGetPipelineInfo (infos : List (List PipelineAgent.DevicePipeline)) (devId pipelineId : Int)
    : List PipelineInfoResponse × Except P4bmError Unit :=
  match pipelineInfoReq devId pipelineId with
  | .error e => ([], .error e)
  | .ok req => receive pipelineFailure (getPipelineInfo req infos)

end Requests

-- A call for one pipeline by its ids
section Exact

def IsFor (call : TableCall) (devId pipelineId : Nat) : Prop :=
  match call with
  | .insertTableRule req => req.devId = devId ∧ req.pipelineId = pipelineId ∧ ∃ rule, req.rules = [rule]
  | .deleteTableRule req => req.devId = devId ∧ req.pipelineId = pipelineId ∧ ∃ rule, req.rules = [rule]
  | .clearTable req => req.devId = devId ∧ req.pipelineId = pipelineId

def CallsFor (call : Call) (devId pipelineId : Nat) : Prop :=
  match call with
  | .clearTable d p _ => d = devId ∧ p = pipelineId
  | .insertTableRule d p _ => d = devId ∧ p = pipelineId

theorem sint32Field_eq_ok {n m : Int} (h : sint32Field n = .ok m) : m = n := by
  unfold sint32Field at h
  split at h
  . exact (Except.ok.inj h).symm
  . cases h

theorem tableRuleReq_isFor {u : TableClient.Unicode} {kargs : Kargs} {req : TableRules.TableRuleRequest}
    (h : tableRuleReq u kargs = .ok req)
    : req.devId = kargs.devId ∧ req.pipelineId = kargs.pipelineId ∧ ∃ rule, req.rules = [rule] := by
  unfold tableRuleReq at h
  obtain ⟨priority, _, h⟩ := Except.bind_eq_ok_iff.mp h
  obtain ⟨ms, _, h⟩ := Except.bind_eq_ok_iff.mp h
  obtain ⟨action, _, h⟩ := Except.bind_eq_ok_iff.mp h
  obtain ⟨devId, hdev, h⟩ := Except.bind_eq_ok_iff.mp h
  obtain ⟨pipelineId, hpipeline, h⟩ := Except.bind_eq_ok_iff.mp h
  obtain rfl := Except.ok.inj h
  exact ⟨sint32Field_eq_ok hdev, sint32Field_eq_ok hpipeline, _, rfl⟩

theorem isFor_of_request {u : TableClient.Unicode} {call : Call} {req : TableCall} {devId pipelineId : Nat}
    (h : request u call = .ok req) (hcall : CallsFor call devId pipelineId)
    : IsFor req devId pipelineId := by
  cases call with
  | clearTable d p tableName =>
    obtain ⟨rfl, rfl⟩ := hcall
    obtain ⟨d', hd, h⟩ := Except.bind_eq_ok_iff.mp h
    obtain ⟨p', hp, h⟩ := Except.bind_eq_ok_iff.mp h
    obtain rfl := Except.ok.inj h
    exact ⟨sint32Field_eq_ok hd, sint32Field_eq_ok hp⟩
  | insertTableRule d p rule =>
    obtain ⟨rfl, rfl⟩ := hcall
    obtain ⟨req', hreq, h⟩ := Except.bind_eq_ok_iff.mp h
    obtain rfl := Except.ok.inj h
    exact tableRuleReq_isFor hreq

variable {σ τ : Type} {intf : Snp4Api.TableIntf σ τ} {devices : List (Device σ)} {heap : ByteHeap}
variable {call : TableCall} {devId pipelineId : Nat} {pipeline : DevicePipeline σ}

theorem selects_iff (h : IsFor call devId pipelineId) (d p : Nat)
    : call.Selects d p ↔ d = devId ∧ p = pipelineId := by
  cases call with
  | insertTableRule req =>
    obtain ⟨hd, hp, _⟩ := h
    change (req.devId < 0 ∨ req.devId = d) ∧ (req.pipelineId < 0 ∨ req.pipelineId = p) ↔ _
    omega
  | deleteTableRule req =>
    obtain ⟨hd, hp, _⟩ := h
    change (req.devId < 0 ∨ req.devId = d) ∧ (req.pipelineId < 0 ∨ req.pipelineId = p) ↔ _
    omega
  | clearTable req =>
    obtain ⟨hd, hp⟩ := h
    change (req.devId < 0 ∨ req.devId = d) ∧ (req.pipelineId < 0 ∨ req.pipelineId = p) ↔ _
    omega

theorem selected_natCast (i n : Nat) : TableRules.selected i n = [i] := by
  unfold TableRules.selected
  rw [if_pos (by omega), Int.toNat_natCast]

theorem responses_eq_singleton {req : TableRules.TableRuleRequest} (hdev : req.devId = devId)
    (hid : req.pipelineId = pipelineId)
    (hpipeline : pipelineAt devices devId pipelineId = some pipeline)
    (code : Nat → Nat → TableRules.ErrorCode)
    : TableRules.responses req devices code = [⟨code devId pipelineId, devId, pipelineId⟩] := by
  obtain ⟨dev, hget, hget'⟩ := Option.bind_eq_some_iff.mp hpipeline
  obtain ⟨hlt, _⟩ := List.getElem?_eq_some_iff.mp hget
  obtain ⟨hlt', _⟩ := List.getElem?_eq_some_iff.mp hget'
  unfold TableRules.responses
  rw [if_neg (by omega), hdev, selected_natCast, List.flatMap_singleton, hget]
  dsimp only
  rw [if_neg (by omega), hid, selected_natCast, List.map_singleton]

theorem ending_rules_iff {req : TableRules.TableRuleRequest} (hdev : req.devId = devId)
    (hid : req.pipelineId = pipelineId)
    (hpipeline : pipelineAt devices devId pipelineId = some pipeline)
    (driver : TableRules.TableDriver σ) (doInsert : Bool)
    : let answer := TableAnswer.rules (insertOrDeleteTableRule driver doInsert req devices heap).1
      ending answer = .ok () ↔ answer.Ok devId pipelineId := by
  intro answer
  unfold answer TableAnswer.Ok ending
  dsimp only
  rw [TableRules.fst_insertOrDeleteTableRule, responses_eq_singleton hdev hid hpipeline,
    receive_singleton_iff, List.mem_singleton]
  unfold ruleFailure
  simp [eq_comm]

-- The client goes on exactly when the pipeline has been answered for with success
theorem ending_serve_iff (hfor : IsFor call devId pipelineId)
    (hpipeline : pipelineAt devices devId pipelineId = some pipeline)
    : ending (serve intf call devices heap).1 = .ok () ↔
        (serve intf call devices heap).1.Ok devId pipelineId := by
  cases call with
  | insertTableRule req => exact ending_rules_iff hfor.1 hfor.2.1 hpipeline _ true
  | deleteTableRule req => exact ending_rules_iff hfor.1 hfor.2.1 hpipeline _ false
  | clearTable req =>
    obtain ⟨hdev, hid⟩ := hfor
    have hpart : ForSelected.partAt (devices.map Device.pipelines) devId pipelineId = some pipeline := by
      rw [TableClears.partAt_pipelines, hpipeline]
    unfold serve TableAnswer.Ok ending clearTable
    dsimp only
    rw [hdev, hid, ForSelected.fst_forSelectedIn_of_partAt _ _ _ _ hpart, receive_singleton_iff,
      List.mem_singleton]
    unfold tableFailure TableClears.clearPipeline
    simp [eq_comm]

end Exact

-- The responses with which the agent tells of its pipelines
section Pipelines

open ForSelected (Selects partAt)
open PipelineAgent (getDevice toPipelineInfo)

variable {infos : List (List PipelineAgent.DevicePipeline)} {req : PipelineInfoRequest}

theorem mem_selected_iff {id : Int} {n : Nat} (h : ¬ id > (n : Int) - 1) (i : Nat)
    : i ∈ TableRules.selected id n ↔ i < n ∧ Selects id i :=
  ForSelected.mem_selected_iff h

theorem mem_getDevice_iff (devId : Nat) (pipelines : List PipelineAgent.DevicePipeline)
    {resp : PipelineInfoResponse} (hok : resp.errorCode = .EC_OK)
    : resp ∈ getDevice req devId pipelines ↔
        ∃ p pipeline, pipelines[p]? = some pipeline ∧ Selects req.pipelineId p ∧
          resp = ⟨.EC_OK, devId, p, some (toPipelineInfo pipeline.info)⟩ := by
  unfold getDevice
  split
  . next hgt =>
    constructor
    . intro hmem
      obtain rfl := List.mem_singleton.mp hmem
      cases hok
    . rintro ⟨p, pipeline, hget, hsel, _⟩
      obtain ⟨hlt, _⟩ := List.getElem?_eq_some_iff.mp hget
      exact absurd hsel (ForSelected.not_selects hgt hlt)
  . next hle =>
    rw [List.mem_filterMap]
    constructor
    . rintro ⟨p, hmem, hresp⟩
      obtain ⟨pipeline, hget, rfl⟩ := Option.map_eq_some_iff.mp hresp
      exact ⟨p, pipeline, hget, ((mem_selected_iff hle p).mp hmem).2, rfl⟩
    . rintro ⟨p, pipeline, hget, hsel, rfl⟩
      obtain ⟨hlt, _⟩ := List.getElem?_eq_some_iff.mp hget
      exact ⟨p, (mem_selected_iff hle p).mpr ⟨hlt, hsel⟩, by rw [hget]; rfl⟩

theorem mem_getPipelineInfo_iff {resp : PipelineInfoResponse} (hok : resp.errorCode = .EC_OK)
    : resp ∈ getPipelineInfo req infos ↔
        ∃ d p pipeline, partAt infos d p = some pipeline ∧ Selects req.devId d ∧
          Selects req.pipelineId p ∧ resp = ⟨.EC_OK, d, p, some (toPipelineInfo pipeline.info)⟩ := by
  unfold getPipelineInfo
  split
  . next hgt =>
    constructor
    . intro hmem
      obtain rfl := List.mem_singleton.mp hmem
      cases hok
    . rintro ⟨d, p, pipeline, hpart, hsel, _⟩
      obtain ⟨pipelines, hget, _⟩ := Option.bind_eq_some_iff.mp hpart
      obtain ⟨hlt, _⟩ := List.getElem?_eq_some_iff.mp hget
      exact absurd hsel (ForSelected.not_selects hgt hlt)
  . next hle =>
    rw [List.mem_flatMap]
    constructor
    . rintro ⟨d, hmem, hresp⟩
      cases hget : infos[d]? with
      | none =>
        rw [hget] at hresp
        cases hresp
      | some pipelines =>
        rw [hget] at hresp
        obtain ⟨p, pipeline, hget', hsel, rfl⟩ := (mem_getDevice_iff d pipelines hok).mp hresp
        refine ⟨d, p, pipeline, ?_, ((mem_selected_iff hle d).mp hmem).2, hsel, rfl⟩
        unfold partAt
        rw [hget]
        exact hget'
    . rintro ⟨d, p, pipeline, hpart, hsel, hsel', rfl⟩
      obtain ⟨pipelines, hget, hget'⟩ := Option.bind_eq_some_iff.mp hpart
      obtain ⟨hlt, _⟩ := List.getElem?_eq_some_iff.mp hget
      refine ⟨d, (mem_selected_iff hle d).mpr ⟨hlt, hsel⟩, ?_⟩
      rw [hget]
      exact (mem_getDevice_iff d pipelines rfl).mpr ⟨p, pipeline, hget', hsel', rfl⟩

def idsOf (resp : PipelineInfoResponse) : Nat × Nat := (resp.devId, resp.pipelineId)

theorem idsOf_getDevice (devId : Nat) (pipelines : List PipelineAgent.DevicePipeline)
    : ((getDevice req devId pipelines).map idsOf).Nodup ∧
        ∀ resp ∈ getDevice req devId pipelines, resp.devId = devId := by
  unfold getDevice
  split
  . exact ⟨List.nodup_singleton _, by simp⟩
  . rw [List.map_filterMap]
    constructor
    . refine (TableRules.nodup_selected _ _).filterMap ?_
      intro p p' ids hids hids'
      simp only [Option.mem_def, Option.map_map, Option.map_eq_some_iff] at hids hids'
      obtain ⟨_, _, rfl⟩ := hids
      obtain ⟨_, _, heq⟩ := hids'
      exact (Prod.mk.inj heq).2.symm
    . intro resp hmem
      obtain ⟨p, _, hresp⟩ := List.mem_filterMap.mp hmem
      obtain ⟨_, _, rfl⟩ := Option.map_eq_some_iff.mp hresp
      rfl

-- No pipeline is told of twice
theorem nodup_idsOf_getPipelineInfo : ((getPipelineInfo req infos).map idsOf).Nodup := by
  unfold getPipelineInfo
  split
  . exact List.nodup_singleton _
  . rw [List.map_flatMap, List.nodup_flatMap]
    have hdevice : ∀ d resp, resp ∈ infos[d]?.elim [] (getDevice req d) → resp.devId = d := by
      intro d resp hmem
      cases hget : infos[d]? with
      | none =>
        rw [hget] at hmem
        cases hmem
      | some pipelines =>
        rw [hget] at hmem
        exact (idsOf_getDevice d pipelines).2 resp hmem
    constructor
    . intro d _
      cases infos[d]? with
      | none => exact List.nodup_nil
      | some pipelines => exact (idsOf_getDevice d pipelines).1
    . refine (TableRules.nodup_selected _ _).imp ?_
      intro d d' hne ids hmem hmem'
      obtain ⟨resp, hresp, rfl⟩ := List.mem_map.mp hmem
      obtain ⟨resp', hresp', heq⟩ := List.mem_map.mp hmem'
      apply hne
      rw [← hdevice d resp hresp, ← hdevice d' resp' hresp']
      exact (Prod.mk.inj heq).1.symm

variable {devId pipelineId : Int}

-- A request is only refused by the client when an id does not fit its field
theorem rpcGetPipelineInfo_cases (infos : List (List PipelineAgent.DevicePipeline))
    (devId pipelineId : Int)
    : (∃ e, rpcGetPipelineInfo infos devId pipelineId = ([], .error e)) ∨
        rpcGetPipelineInfo infos devId pipelineId =
          receive pipelineFailure (getPipelineInfo ⟨devId, pipelineId⟩ infos) := by
  unfold rpcGetPipelineInfo
  cases hreq : pipelineInfoReq devId pipelineId with
  | error e => exact .inl ⟨e, rfl⟩
  | ok req =>
    obtain ⟨devId', hdev, hreq⟩ := Except.bind_eq_ok_iff.mp hreq
    obtain ⟨pipelineId', hpipeline, hreq⟩ := Except.bind_eq_ok_iff.mp hreq
    obtain rfl := Except.ok.inj hreq
    obtain rfl := sint32Field_eq_ok hdev
    obtain rfl := sint32Field_eq_ok hpipeline
    exact .inr rfl

-- What a client receives is told of selected pipelines
theorem exists_of_mem_rpcGetPipelineInfo {resp : PipelineInfoResponse}
    (h : resp ∈ (rpcGetPipelineInfo infos devId pipelineId).1)
    : ∃ d p pipeline, partAt infos d p = some pipeline ∧ Selects devId d ∧ Selects pipelineId p ∧
        resp = ⟨.EC_OK, d, p, some (toPipelineInfo pipeline.info)⟩ := by
  rcases rpcGetPipelineInfo_cases infos devId pipelineId with ⟨e, hrefused⟩ | hsent
  . rw [hrefused] at h
    cases h
  . rw [hsent] at h
    have hok : resp.errorCode = .EC_OK := by
      have hnone := failure_of_mem_receive h
      unfold pipelineFailure at hnone
      by_contra hne
      rw [if_pos hne] at hnone
      cases hnone
    exact (mem_getPipelineInfo_iff hok).mp ((receive_sublist _).mem h)

theorem nodup_rpcGetPipelineInfo : ((rpcGetPipelineInfo infos devId pipelineId).1.map idsOf).Nodup := by
  rcases rpcGetPipelineInfo_cases infos devId pipelineId with ⟨e, hrefused⟩ | hsent
  . rw [hrefused]
    exact List.nodup_nil
  . rw [hsent]
    exact nodup_idsOf_getPipelineInfo.sublist ((receive_sublist _).map idsOf)

-- When nothing fails, all of them are told of
theorem mem_rpcGetPipelineInfo {d p : Nat} {pipeline : PipelineAgent.DevicePipeline}
    (hok : (rpcGetPipelineInfo infos devId pipelineId).2 = .ok ())
    (hpart : partAt infos d p = some pipeline) (hdev : Selects devId d) (hid : Selects pipelineId p)
    : (⟨.EC_OK, d, p, some (toPipelineInfo pipeline.info)⟩ : PipelineInfoResponse) ∈
        (rpcGetPipelineInfo infos devId pipelineId).1 := by
  rcases rpcGetPipelineInfo_cases infos devId pipelineId with ⟨e, hrefused⟩ | hsent
  . rw [hrefused] at hok
    cases hok
  . rw [hsent] at hok ⊢
    rw [receive_of_ok hok]
    exact (mem_getPipelineInfo_iff rfl).mpr ⟨d, p, pipeline, hpart, hdev, hid, rfl⟩

end Pipelines

end Rpc
