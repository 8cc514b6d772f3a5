import SmartnicFw.Lib.MpzText
import SmartnicFw.Snp4.Table.Buffers

/-!
This module contains the insertion and the deletion of table rules as the agent performs them
(`table.cpp`).
-/

namespace TableRules

inductive ErrorCode where
  | EC_UNKNOWN
  | EC_OK
  | EC_INVALID_DEVICE_ID
  | EC_INVALID_PIPELINE_ID
  | EC_INVALID_TABLE_NAME
  | EC_INVALID_ACTION_NAME
  | EC_TABLE_RULE_TOO_FEW_MATCHES
  | EC_TABLE_RULE_TOO_MANY_MATCHES
  | EC_TABLE_RULE_TOO_FEW_ACTION_PARAMETERS
  | EC_TABLE_RULE_TOO_MANY_ACTION_PARAMETERS
  | EC_TABLE_RULE_INVALID_ACTION_PARAMETER_FORMAT
  | EC_TABLE_RULE_MATCH_INVALID_KEY_FORMAT
  | EC_TABLE_RULE_MATCH_INVALID_MASK_FORMAT
  | EC_TABLE_RULE_MATCH_INVALID_PREFIX_LENGTH
  | EC_TABLE_RULE_MATCH_RANGE_LOWER_TOO_BIG
  | EC_TABLE_RULE_MATCH_RANGE_UPPER_TOO_BIG
  | EC_UNKNOWN_TABLE_RULE_MATCH_TYPE
  | EC_FAILED_INSERT_TABLE_RULE
  | EC_FAILED_DELETE_TABLE_RULE
  | EC_TABLE_RULE_FIELD_SPEC_OVERFLOW
  | EC_TABLE_RULE_FIELD_SPEC_FORMAT_INVALID
  | EC_TABLE_RULE_FIELD_SPEC_UNKNOWN_TYPE
  | EC_TABLE_RULE_FIELD_SPEC_SIZE_MISMATCH
  | EC_TABLE_RULE_PACK_KEY_TOO_BIG
  | EC_TABLE_RULE_PACK_MASK_TOO_BIG
  | EC_TABLE_RULE_PACK_PARAMS_TOO_BIG
  | EC_TABLE_RULE_MATCH_INVALID_FORMAT
  | EC_TABLE_RULE_MATCH_MASK_TOO_WIDE
  | EC_TABLE_RULE_MATCH_INVALID_BITFIELD_MASK
  | EC_TABLE_RULE_MATCH_INVALID_CONSTANT_MASK
  | EC_TABLE_RULE_MATCH_INVALID_PREFIX_MASK
  | EC_TABLE_RULE_MATCH_INVALID_RANGE_MASK
  | EC_TABLE_RULE_MATCH_INVALID_UNUSED_MASK
  | EC_TABLE_RULE_MATCH_KEY_TOO_BIG
  | EC_TABLE_RULE_MATCH_MASK_TOO_BIG
  | EC_TABLE_RULE_INVALID_TABLE_NAME
  | EC_TABLE_RULE_INVALID_TABLE_CONFIG
  | EC_TABLE_RULE_INVALID_ACTION_FOR_TABLE
  | EC_TABLE_RULE_PARAM_INVALID_FORMAT
  | EC_TABLE_RULE_PARAM_SPEC_OVERFLOW
  | EC_TABLE_RULE_PARAM_SPEC_SIZE_MISMATCH
  | EC_TABLE_RULE_PARAM_TOO_BIG
  deriving DecidableEq, Repr

abbrev Text := List Char

/--
The `oneof` of the message, `unset` if it has none.
-/
inductive Match where
  | unset
  | keyMask (key mask : Text)
  | keyOnly (key : Text)
  | keyPrefix (key : Text) (prefixLength : UInt32)
  | range (lower upper : UInt32)
  | unused
  deriving DecidableEq, Repr

structure ActionParameter where
  value : Text
  deriving DecidableEq, Repr

structure Action where
  name : String
  parameters : List ActionParameter
  deriving DecidableEq, Repr

structure TableRule where
  tableName : String
  priority : UInt32
  replace : Bool
  matchList : List Match
  action : Action
  deriving DecidableEq, Repr

structure TableRuleRequest where
  devId : Int
  pipelineId : Int
  rules : List TableRule
  deriving DecidableEq, Repr

structure TableRuleResponse where
  errorCode : ErrorCode
  devId : Nat
  pipelineId : Nat
  deriving DecidableEq, Repr

def uint16Max : UInt32 := 0xffff

def tableRuleParseMatch (m : Match) : Except ErrorCode SnMatch :=
  match m with
  | .keyMask key mask =>
    match mpzInitSetStr key with
    | none => .error .EC_TABLE_RULE_MATCH_INVALID_KEY_FORMAT
    | some key =>
      match mpzInitSetStr mask with
      | none => .error .EC_TABLE_RULE_MATCH_INVALID_MASK_FORMAT
      | some mask => .ok (.keyMask key mask)
  | .keyOnly key =>
    match mpzInitSetStr key with
    | none => .error .EC_TABLE_RULE_MATCH_INVALID_KEY_FORMAT
    | some key => .ok (.keyOnly key)
  | .keyPrefix key length =>
    if length > uint16Max then
      .error .EC_TABLE_RULE_MATCH_INVALID_PREFIX_LENGTH
    else
      match mpzInitSetStr key with
      | none => .error .EC_TABLE_RULE_MATCH_INVALID_KEY_FORMAT
      | some key => .ok (.keyPrefix key length.toUInt16)
  | .range lower upper =>
    if lower > uint16Max then
      .error .EC_TABLE_RULE_MATCH_RANGE_LOWER_TOO_BIG
    else if upper > uint16Max then
      .error .EC_TABLE_RULE_MATCH_RANGE_UPPER_TOO_BIG
    else
      .ok (.range lower.toUInt16 upper.toUInt16)
  | .unused => .ok .unused
  | .unset => .error .EC_UNKNOWN_TABLE_RULE_MATCH_TYPE

def tableRuleParseActionParameter (param : ActionParameter) : Except ErrorCode SnParam :=
  match mpzInitSetStr param.value with
  | none => .error .EC_TABLE_RULE_INVALID_ACTION_PARAMETER_FORMAT
  | some mpz => .ok (.mpz mpz)

def errorOfStatus (status : Snp4Status) : ErrorCode :=
  match status with
  | .ok => .EC_OK
  | .fieldSpecOverflow => .EC_TABLE_RULE_FIELD_SPEC_OVERFLOW
  | .fieldSpecFormatInvalid => .EC_TABLE_RULE_FIELD_SPEC_FORMAT_INVALID
  | .fieldSpecUnknownType => .EC_TABLE_RULE_FIELD_SPEC_UNKNOWN_TYPE
  | .fieldSpecSizeMismatch => .EC_TABLE_RULE_FIELD_SPEC_SIZE_MISMATCH
  | .packKeyTooBig => .EC_TABLE_RULE_PACK_KEY_TOO_BIG
  | .packMaskTooBig => .EC_TABLE_RULE_PACK_MASK_TOO_BIG
  | .packParamsTooBig => .EC_TABLE_RULE_PACK_PARAMS_TOO_BIG
  | .matchInvalidFormat => .EC_TABLE_RULE_MATCH_INVALID_FORMAT
  | .matchMaskTooWide => .EC_TABLE_RULE_MATCH_MASK_TOO_WIDE
  | .matchInvalidBitfieldMask => .EC_TABLE_RULE_MATCH_INVALID_BITFIELD_MASK
  | .matchInvalidConstantMask => .EC_TABLE_RULE_MATCH_INVALID_CONSTANT_MASK
  | .matchInvalidPrefixMask => .EC_TABLE_RULE_MATCH_INVALID_PREFIX_MASK
  | .matchInvalidRangeMask => .EC_TABLE_RULE_MATCH_INVALID_RANGE_MASK
  | .matchInvalidUnusedMask => .EC_TABLE_RULE_MATCH_INVALID_UNUSED_MASK
  | .matchKeyTooBig => .EC_TABLE_RULE_MATCH_KEY_TOO_BIG
  | .matchMaskTooBig => .EC_TABLE_RULE_MATCH_MASK_TOO_BIG
  | .invalidTableName => .EC_TABLE_RULE_INVALID_TABLE_NAME
  | .invalidTableConfig => .EC_TABLE_RULE_INVALID_TABLE_CONFIG
  | .invalidActionForTable => .EC_TABLE_RULE_INVALID_ACTION_FOR_TABLE
  | .paramInvalidFormat => .EC_TABLE_RULE_PARAM_INVALID_FORMAT
  | .paramSpecOverflow => .EC_TABLE_RULE_PARAM_SPEC_OVERFLOW
  | .paramSpecSizeMismatch => .EC_TABLE_RULE_PARAM_SPEC_SIZE_MISMATCH
  | .paramTooBig => .EC_TABLE_RULE_PARAM_TOO_BIG
  | _ => .EC_UNKNOWN

/--
A deletion brings the table, and only its matches are packed.
-/
def tableRulePack (info : Snp4InfoPipeline) (ti : Option Snp4InfoTable) (rule : SnRule)
    (pack : PackBuffers) (heap : ByteHeap)
    : Except ErrorCode Unit × PackBuffers × ByteHeap :=
  let (status, pack, heap) :=
    match ti with
    | some ti =>
      snp4RulePackMatchesBuffers ti.matchList ti.keyBits.toUInt32 rule.matchList pack heap
    | none => snp4RulePackBuffers info rule heap
  (status.mapError errorOfStatus, pack, heap)

-- The driver of one pipeline, with what its handle leads to as the state
structure TableDriver (σ : Type) where
  snp4TableInsertKma (tableName : Option String) (key mask : Option (List UInt8))
    (actionName : Option String) (params : Option (List UInt8)) (priority : UInt32)
    (replace : Bool) : σ → Bool × σ
  snp4TableDeleteK (tableName : Option String) (key mask : Option (List UInt8)) : σ → Bool × σ

structure DevicePipeline (σ : Type) where
  info : Snp4InfoPipeline
  handle : σ
  deriving DecidableEq, Repr

structure Device (σ : Type) where
  pipelines : List (DevicePipeline σ)
  deriving DecidableEq, Repr

def loadMatches (ti : Snp4InfoTable) (ms : List Match) : Except ErrorCode (List SnMatch) :=
  if ms.length < ti.matchList.length then
    .error .EC_TABLE_RULE_TOO_FEW_MATCHES
  else if ms.length > ti.matchList.length then
    .error .EC_TABLE_RULE_TOO_MANY_MATCHES
  else
    ms.mapM tableRuleParseMatch

def loadAction (ti : Snp4InfoTable) (action : Action)
    : Except ErrorCode (String × List SnParam) :=
  match ti.actions.find? fun ai => ai.name == action.name with
  | none => .error .EC_INVALID_ACTION_NAME
  | some ai =>
    if action.parameters.length < ai.params.length then
      .error .EC_TABLE_RULE_TOO_FEW_ACTION_PARAMETERS
    else if action.parameters.length > ai.params.length then
      .error .EC_TABLE_RULE_TOO_MANY_ACTION_PARAMETERS
    else do
      let params ← action.parameters.mapM tableRuleParseActionParameter
      return (ai.name, params)

/--
The rule that is built from the message, with the table that it is for. Only an insertion looks at
the action.
-/
def loadRule (info : Snp4InfoPipeline) (doInsert : Bool) (rule : TableRule)
    : Except ErrorCode (Snp4InfoTable × SnRule) :=
  match info.tables.find? fun ti => ti.name == rule.tableName with
  | none => .error .EC_INVALID_TABLE_NAME
  | some ti => do
    let ms ← loadMatches ti rule.matchList
    let sr : SnRule := {
      tableName := some ti.name
      matchList := ms
      actionName := none
      params := []
      priority := rule.priority }
    if doInsert then do
      let (name, params) ← loadAction ti rule.action
      return (ti, { sr with actionName := some name, params := params })
    else
      return (ti, sr)

section Driver

variable {σ : Type} (driver : TableDriver σ) (doInsert : Bool)

def applyRule (info : Snp4InfoPipeline) (ti : Snp4InfoTable) (sr : SnRule) (replace : Bool)
    (handle : σ) (heap : ByteHeap)
    : ErrorCode × σ × ByteHeap :=
  match tableRulePack info (if doInsert then none else some ti) sr snp4PackInitBuffers heap with
  -- The pack is left as it is
  | (.error err, _, heap) => (err, handle, heap)
  | (.ok (), pack, heap) =>
    let key := pack.key.bind heap.read
    let mask := pack.mask.bind heap.read
    let params := pack.params.bind heap.read
    let (err, handle) : ErrorCode × σ :=
      if doInsert then
        match driver.snp4TableInsertKma sr.tableName key mask sr.actionName params sr.priority
            replace handle with
        | (true, handle) => (.EC_OK, handle)
        | (false, handle) => (.EC_FAILED_INSERT_TABLE_RULE, handle)
      else
        match driver.snp4TableDeleteK sr.tableName key mask handle with
        | (true, handle) => (.EC_OK, handle)
        | (false, handle) => (.EC_FAILED_DELETE_TABLE_RULE, handle)
    (err, handle, (snp4PackClear pack heap).2)

def turn (info : Snp4InfoPipeline) (rule : TableRule) (handle : σ) (heap : ByteHeap)
    : ErrorCode × σ × ByteHeap :=
  match loadRule info doInsert rule with
  | .error err => (err, handle, heap)
  | .ok (ti, sr) => applyRule driver doInsert info ti sr rule.replace handle heap

-- The first rule that fails ends the loop
def turns (info : Snp4InfoPipeline) (rules : List TableRule) (handle : σ) (heap : ByteHeap)
    : ErrorCode × σ × ByteHeap :=
  match rules with
  | [] => (.EC_OK, handle, heap)
  | rule :: rules =>
    match turn driver doInsert info rule handle heap with
    | (.EC_OK, handle, heap) => turns info rules handle heap
    | (err, handle, heap) => (err, handle, heap)

-- The positions that an id selects: an id below 0 selects all
def selected (id : Int) (n : Nat) : List Nat :=
  if id > -1 then [id.toNat] else List.range n

def pipelineLoop (rules : List TableRule) (devId : Nat) (pipelineIds : List Nat)
    (pipelines : List (DevicePipeline σ)) (heap : ByteHeap)
    : List TableRuleResponse × List (DevicePipeline σ) × ByteHeap :=
  match pipelineIds with
  | [] => ([], pipelines, heap)
  | pipelineId :: pipelineIds =>
    match pipelines[pipelineId]? with
    | none => pipelineLoop rules devId pipelineIds pipelines heap
    | some pipeline =>
      let (err, handle, heap) := turns driver doInsert pipeline.info rules pipeline.handle heap
      let pipelines := pipelines.set pipelineId { pipeline with handle := handle }
      let (resps, pipelines, heap) := pipelineLoop rules devId pipelineIds pipelines heap
      ({ errorCode := err, devId := devId, pipelineId := pipelineId } :: resps, pipelines, heap)

def deviceTurn (req : TableRuleRequest) (devId : Nat) (dev : Device σ) (heap : ByteHeap)
    : List TableRuleResponse × Device σ × ByteHeap :=
  if req.pipelineId > (dev.pipelines.length : Int) - 1 then
    ([{ errorCode := .EC_INVALID_PIPELINE_ID, devId := devId, pipelineId := 0 }], dev, heap)
  else
    let (resps, pipelines, heap) := pipelineLoop driver doInsert req.rules devId
      (selected req.pipelineId dev.pipelines.length) dev.pipelines heap
    (resps, { dev with pipelines := pipelines }, heap)

def deviceLoop (req : TableRuleRequest) (devIds : List Nat) (devices : List (Device σ))
    (heap : ByteHeap)
    : List TableRuleResponse × List (Device σ) × ByteHeap :=
  match devIds with
  | [] => ([], devices, heap)
  | devId :: devIds =>
    match devices[devId]? with
    | none => deviceLoop req devIds devices heap
    | some dev =>
      let (resps, dev, heap) := deviceTurn driver doInsert req devId dev heap
      let (resps', devices, heap) := deviceLoop req devIds (devices.set devId dev) heap
      (resps ++ resps', devices, heap)

/--
A field of the response that is not set is 0.
-/
def insertOrDeleteTableRule (req : TableRuleRequest) (devices : List (Device σ)) (heap : ByteHeap)
    : List TableRuleResponse × List (Device σ) × ByteHeap :=
  if req.devId > (devices.length : Int) - 1 then
    ([{ errorCode := .EC_INVALID_DEVICE_ID, devId := 0, pipelineId := 0 }], devices, heap)
  else
    deviceLoop driver doInsert req (selected req.devId devices.length) devices heap

end Driver

end TableRules
