import SmartnicFw.SnP4.Agent.PipelineSetUp
import SmartnicFw.SnP4.Agent.TableRule

/-!
This module contains what the agent tells of the pipelines of its devices (`pipeline.cpp`).
-/

namespace PipelineAgent

open Snp4InfoHw
open TableRules (ErrorCode selected)

inductive MatchType where
  | MATCH_TYPE_UNKNOWN
  | MATCH_TYPE_BITFIELD
  | MATCH_TYPE_CONSTANT
  | MATCH_TYPE_PREFIX
  | MATCH_TYPE_RANGE
  | MATCH_TYPE_TERNARY
  | MATCH_TYPE_UNUSED
  deriving DecidableEq, Repr

structure MatchInfo where
  type : MatchType
  width : UInt32
  deriving DecidableEq, Repr

structure ActionParameterInfo where
  name : String
  width : UInt32
  deriving DecidableEq, Repr

structure ActionInfo where
  name : String
  width : UInt32
  parameters : List ActionParameterInfo
  deriving DecidableEq, Repr

inductive TableEndian where
  | TABLE_ENDIAN_UNKNOWN
  | TABLE_ENDIAN_LITTLE
  | TABLE_ENDIAN_BIG
  deriving DecidableEq, Repr

inductive TableMode where
  | TABLE_MODE_UNKNOWN
  | TABLE_MODE_BCAM
  | TABLE_MODE_STCAM
  | TABLE_MODE_TCAM
  | TABLE_MODE_DCAM
  | TABLE_MODE_TINY_BCAM
  | TABLE_MODE_TINY_TCAM
  deriving DecidableEq, Repr

structure TableInfo where
  name : String
  numEntries : UInt32
  endian : TableEndian
  mode : TableMode
  numMasks : UInt32
  priorityRequired : Bool
  keyWidth : UInt32
  responseWidth : UInt32
  priorityWidth : UInt32
  actionIdWidth : UInt32
  matchList : List MatchInfo
  actions : List ActionInfo
  deriving DecidableEq, Repr

inductive CounterType where
  | COUNTER_TYPE_UNKNOWN
  | COUNTER_TYPE_PACKETS
  | COUNTER_TYPE_BYTES
  | COUNTER_TYPE_PACKETS_AND_BYTES
  | COUNTER_TYPE_FLAG
  deriving DecidableEq, Repr

structure CounterBlockInfo where
  name : List UInt8
  type : CounterType
  width : UInt32
  numCounters : UInt32
  deriving DecidableEq, Repr

structure PipelineInfo where
  name : String
  tables : List TableInfo
  counterBlocks : List CounterBlockInfo
  deriving DecidableEq, Repr

structure PipelineInfoRequest where
  devId : Int
  pipelineId : Int
  deriving DecidableEq, Repr

structure PipelineInfoResponse where
  errorCode : ErrorCode
  devId : Nat
  pipelineId : Nat
  info : Option PipelineInfo
  deriving DecidableEq, Repr

def toMatchType : Snp4InfoMatchType → MatchType
  | .invalid => .MATCH_TYPE_UNKNOWN
  | .bitfield => .MATCH_TYPE_BITFIELD
  | .constant => .MATCH_TYPE_CONSTANT
  | .prefixed => .MATCH_TYPE_PREFIX
  | .range => .MATCH_TYPE_RANGE
  | .ternary => .MATCH_TYPE_TERNARY
  | .unused => .MATCH_TYPE_UNUSED

def toMatchInfo (mi : Snp4InfoMatch) : MatchInfo where
  type := toMatchType mi.type
  width := mi.bits.toUInt32

def toParameterInfo (pi : Snp4InfoParam) : ActionParameterInfo where
  name := pi.name
  width := pi.bits.toUInt32

def toActionInfo (ai : Snp4InfoAction) : ActionInfo where
  name := ai.name
  width := ai.paramBits.toUInt32
  parameters := ai.params.map toParameterInfo

def toTableEndian : Snp4InfoTableEndian → TableEndian
  | .little => .TABLE_ENDIAN_LITTLE
  | .big => .TABLE_ENDIAN_BIG

-- The number of masks is left unset for the other modes
def toTableMode : Snp4InfoTableMode → TableMode × UInt32
  | .bcam => (.TABLE_MODE_BCAM, 0)
  | .stcam numMasks => (.TABLE_MODE_STCAM, numMasks)
  | .tcam => (.TABLE_MODE_TCAM, 0)
  | .dcam => (.TABLE_MODE_DCAM, 0)
  | .tinyBcam => (.TABLE_MODE_TINY_BCAM, 0)
  | .tinyTcam => (.TABLE_MODE_TINY_TCAM, 0)

def toTableInfo (ti : InfoTable) : TableInfo where
  name := ti.name
  numEntries := ti.numEntries
  endian := toTableEndian ti.endian
  mode := (toTableMode ti.mode).1
  numMasks := (toTableMode ti.mode).2
  priorityRequired := ti.priorityRequired
  keyWidth := ti.keyBits.toUInt32
  responseWidth := ti.responseBits.toUInt32
  priorityWidth := ti.priorityBits.toUInt32
  actionIdWidth := ti.actionidBits.toUInt32
  matchList := ti.matchList.map toMatchInfo
  actions := ti.actions.map toActionInfo

def toCounterType : Snp4InfoCounterType → CounterType
  | .packets => .COUNTER_TYPE_PACKETS
  | .bytes => .COUNTER_TYPE_BYTES
  | .packetsAndBytes => .COUNTER_TYPE_PACKETS_AND_BYTES
  | .flag => .COUNTER_TYPE_FLAG

def toCounterBlockInfo (bi : InfoCounterBlock) : CounterBlockInfo where
  name := bi.name
  type := toCounterType bi.type
  width := bi.width
  numCounters := bi.numCounters

def toPipelineInfo (pi : InfoPipeline) : PipelineInfo where
  name := pi.name
  tables := pi.tables.map toTableInfo
  counterBlocks := pi.counterBlocks.map toCounterBlockInfo

-- The loop over the pipelines of a device
def getDevice (req : PipelineInfoRequest) (devId : Nat) (pipelines : List DevicePipeline)
    : List PipelineInfoResponse :=
  if req.pipelineId > (pipelines.length : Int) - 1 then
    [⟨.EC_INVALID_PIPELINE_ID, devId, 0, none⟩]
  else
    (selected req.pipelineId pipelines.length).filterMap fun pipelineId =>
      pipelines[pipelineId]?.map fun pipeline =>
        ⟨.EC_OK, devId, pipelineId, some (toPipelineInfo pipeline.info)⟩

def getPipelineInfo (req : PipelineInfoRequest) (devices : List (List DevicePipeline))
    : List PipelineInfoResponse :=
  if req.devId > (devices.length : Int) - 1 then
    [⟨.EC_INVALID_DEVICE_ID, 0, 0, none⟩]
  else
    (selected req.devId devices.length).flatMap fun devId =>
      devices[devId]?.elim [] (getDevice req devId)

-- How a message is read
section Read

def readMatchType : MatchType → Option Snp4InfoMatchType
  | .MATCH_TYPE_UNKNOWN => none
  | .MATCH_TYPE_BITFIELD => some .bitfield
  | .MATCH_TYPE_CONSTANT => some .constant
  | .MATCH_TYPE_PREFIX => some .prefixed
  | .MATCH_TYPE_RANGE => some .range
  | .MATCH_TYPE_TERNARY => some .ternary
  | .MATCH_TYPE_UNUSED => some .unused

def readMatch (m : MatchInfo) : Option Snp4InfoMatch := do
  let type ← readMatchType m.type
  some { type, bits := m.width.toUInt16 }

def readParam (p : ActionParameterInfo) : Snp4InfoParam where
  name := p.name
  bits := p.width.toUInt16

def readAction (a : ActionInfo) : Snp4InfoAction where
  name := a.name
  paramBits := a.width.toUInt16
  params := a.parameters.map readParam

def readEndian : TableEndian → Option Snp4InfoTableEndian
  | .TABLE_ENDIAN_UNKNOWN => none
  | .TABLE_ENDIAN_LITTLE => some .little
  | .TABLE_ENDIAN_BIG => some .big

def readMode (mode : TableMode) (numMasks : UInt32) : Option Snp4InfoTableMode :=
  match mode with
  | .TABLE_MODE_UNKNOWN => none
  | .TABLE_MODE_BCAM => some .bcam
  | .TABLE_MODE_STCAM => some (.stcam numMasks)
  | .TABLE_MODE_TCAM => some .tcam
  | .TABLE_MODE_DCAM => some .dcam
  | .TABLE_MODE_TINY_BCAM => some .tinyBcam
  | .TABLE_MODE_TINY_TCAM => some .tinyTcam

def readTable (t : TableInfo) : Option InfoTable := do
  let endian ← readEndian t.endian
  let mode ← readMode t.mode t.numMasks
  let matchList ← t.matchList.mapM readMatch
  some {
    name := t.name
    keyBits := t.keyWidth.toUInt16
    matchList
    responseBits := t.responseWidth.toUInt16
    actionidBits := t.actionIdWidth.toUInt16
    actions := t.actions.map readAction
    numEntries := t.numEntries
    endian
    mode
    priorityRequired := t.priorityRequired
    priorityBits := t.priorityWidth.toUInt16 }

def readCounterType : CounterType → Option Snp4InfoCounterType
  | .COUNTER_TYPE_UNKNOWN => none
  | .COUNTER_TYPE_PACKETS => some .packets
  | .COUNTER_TYPE_BYTES => some .bytes
  | .COUNTER_TYPE_PACKETS_AND_BYTES => some .packetsAndBytes
  | .COUNTER_TYPE_FLAG => some .flag

-- A message does not have the aliases
def readCounterBlock (b : CounterBlockInfo) : Option InfoCounterBlock := do
  let type ← readCounterType b.type
  some { name := b.name, type, numCounters := b.numCounters, width := b.width, aliases := [] }

def readPipeline (p : PipelineInfo) : Option InfoPipeline := do
  let tables ← p.tables.mapM readTable
  let counterBlocks ← p.counterBlocks.mapM readCounterBlock
  some { name := p.name, tables, counterBlocks }

-- A description without what no message has
def InfoPipeline.shown (pipeline : InfoPipeline) : InfoPipeline :=
  { pipeline with counterBlocks := pipeline.counterBlocks.map fun block => { block with aliases := [] } }

theorem readMatch_toMatchInfo {m : Snp4InfoMatch} (h : m.type ≠ .invalid)
    : readMatch (toMatchInfo m) = some m := by
  obtain ⟨type, bits⟩ := m
  cases type with
  | invalid => exact absurd rfl h
  | _ => simp [readMatch, toMatchInfo, toMatchType, readMatchType]

theorem readAction_toActionInfo (action : Snp4InfoAction)
    : readAction (toActionInfo action) = action := by
  have hparams : ((action.params.map toParameterInfo).map readParam) = action.params := by
    rw [List.map_map]
    conv_rhs => rw [← List.map_id action.params]
    apply List.map_congr_left
    intro param _
    simp [readParam, toParameterInfo]
  unfold readAction toActionInfo
  dsimp only
  rw [hparams]
  simp

theorem readEndian_toTableEndian (endian : Snp4InfoTableEndian)
    : readEndian (toTableEndian endian) = some endian := by
  cases endian <;> rfl

theorem readMode_toTableMode (mode : Snp4InfoTableMode)
    : readMode (toTableMode mode).1 (toTableMode mode).2 = some mode := by
  cases mode <;> rfl

theorem readTable_toTableInfo {table : InfoTable} (h : ∀ m ∈ table.matchList, m.type ≠ .invalid)
    : readTable (toTableInfo table) = some table := by
  have hmatches : (table.matchList.map toMatchInfo).mapM readMatch = some table.matchList := by
    apply mapM_render
    intro m hmem
    exact readMatch_toMatchInfo (h m hmem)
  have hactions : ((table.actions.map toActionInfo).map readAction) = table.actions := by
    rw [List.map_map]
    conv_rhs => rw [← List.map_id table.actions]
    exact List.map_congr_left fun action _ => readAction_toActionInfo action
  unfold readTable toTableInfo
  dsimp only
  rw [readEndian_toTableEndian, readMode_toTableMode, hmatches, hactions]
  simp

theorem readCounterBlock_toCounterBlockInfo (block : InfoCounterBlock)
    : readCounterBlock (toCounterBlockInfo block) = some { block with aliases := [] } := by
  obtain ⟨⟨name, type, numCounters⟩, width, aliases⟩ := block
  cases type <;> rfl

-- The message has all of a description but the aliases
theorem readPipeline_toPipelineInfo {pipeline : InfoPipeline} (h : pipeline.Described)
    : readPipeline (toPipelineInfo pipeline) = some (InfoPipeline.shown pipeline) := by
  have htables : (pipeline.tables.map toTableInfo).mapM readTable = some pipeline.tables := by
    apply mapM_render
    intro table hmem
    exact readTable_toTableInfo (h.tables table hmem).matches_valid
  have hblocks : (pipeline.counterBlocks.map toCounterBlockInfo).mapM readCounterBlock =
      some (pipeline.counterBlocks.map fun block => { block with aliases := [] }) := by
    apply mapM_of_forall₂
    rw [List.forall₂_map_left_iff, List.forall₂_map_right_iff, List.forall₂_same]
    intro block _
    exact readCounterBlock_toCounterBlockInfo block
  unfold readPipeline toPipelineInfo
  dsimp only
  rw [htables, hblocks]
  rfl

end Read

-- From the drivers of the devices to what is read from the responses
section Answers

structure Answer where
  errorCode : ErrorCode
  devId : Nat
  pipelineId : Nat
  info : Option InfoPipeline
  deriving DecidableEq, Repr

def readResponse (resp : PipelineInfoResponse) : Answer where
  errorCode := resp.errorCode
  devId := resp.devId
  pipelineId := resp.pipelineId
  info := resp.info.bind readPipeline

-- The pipelines of a device are counted without the ones that are not there
def deviceAnswers (req : PipelineInfoRequest) (devId : Nat) (pipelines : List InfoPipeline)
    : List Answer :=
  if req.pipelineId > (pipelines.length : Int) - 1 then
    [⟨.EC_INVALID_PIPELINE_ID, devId, 0, none⟩]
  else
    (selected req.pipelineId pipelines.length).filterMap fun pipelineId =>
      pipelines[pipelineId]?.map fun pipeline =>
        ⟨.EC_OK, devId, pipelineId, some (InfoPipeline.shown pipeline)⟩

def answers (req : PipelineInfoRequest) (devices : List (List (Option InfoPipeline))) : List Answer :=
  if req.devId > (devices.length : Int) - 1 then
    [⟨.EC_INVALID_DEVICE_ID, 0, 0, none⟩]
  else
    (selected req.devId devices.length).flatMap fun devId =>
      devices[devId]?.elim [] fun pipelines => deviceAnswers req devId pipelines.reduceOption

theorem getDevice_reads (req : PipelineInfoRequest) (devId : Nat) {devPipelines : List DevicePipeline}
    (h : ∀ pipeline ∈ devPipelines.map DevicePipeline.info, pipeline.Described)
    : (getDevice req devId devPipelines).map readResponse =
        deviceAnswers req devId (devPipelines.map DevicePipeline.info) := by
  unfold getDevice deviceAnswers
  rw [List.length_map]
  split
  . rfl
  . rw [List.map_filterMap]
    apply List.filterMap_congr
    intro pipelineId _
    rw [List.getElem?_map, Option.map_map, Option.map_map]
    cases hget : devPipelines[pipelineId]? with
    | none => rfl
    | some pipeline =>
      have hdescribed := h pipeline.info (List.mem_map_of_mem (List.mem_of_getElem? hget))
      simp [readResponse, readPipeline_toPipelineInfo hdescribed]

-- A device with the pipelines that its drivers describe, of which some are not there
structure DeviceSetUp where
  setUp : SetUp
  domain : StatsDomainSpec
  pipelines : List (Option InfoPipeline)

def initDevice (labels : StatsMetricSpec → Nat → List StatsLabel) (dev : DeviceSetUp)
    : Option (List DevicePipeline) :=
  initPipeline dev.setUp dev.domain labels (dev.pipelines.map (Option.map renderPipeline))

def DeviceSetUp.Succeeds (dev : DeviceSetUp) : Prop :=
  ∀ (id : Nat) pipeline, dev.pipelines[id]? = some (some pipeline) → dev.setUp.Succeeds id pipeline

theorem initDevice_render (labels : StatsMetricSpec → Nat → List StatsLabel) {dev : DeviceSetUp}
    (h : ∀ pipeline, some pipeline ∈ dev.pipelines → pipeline.Described)
    : ((∃ devPipelines, initDevice labels dev = some devPipelines) ↔ dev.Succeeds) ∧
        ∀ devPipelines, initDevice labels dev = some devPipelines →
          devPipelines.map DevicePipeline.info = dev.pipelines.reduceOption := by
  have hgo := @initPipeline_go_render dev.setUp dev.domain labels dev.pipelines h 0
  simp only [Nat.zero_add] at hgo
  exact hgo

/--
The agent gets through the set-up of its devices exactly when that of every pipeline succeeds. Then
whatever the drivers are configured with to describe is what a client reads: for each selected pipeline
there is one response, in their order, with all of its description but the aliases.
-/
theorem getPipelineInfo_reads (labels : StatsMetricSpec → Nat → List StatsLabel)
    (req : PipelineInfoRequest) (devices : List DeviceSetUp)
    (h : ∀ dev ∈ devices, ∀ pipeline, some pipeline ∈ dev.pipelines → pipeline.Described)
    : ((∃ devs, devices.mapM (initDevice labels) = some devs) ↔
          ∀ dev ∈ devices, dev.Succeeds) ∧
        ∀ devs, devices.mapM (initDevice labels) = some devs →
          (getPipelineInfo req devs).map readResponse =
            answers req (devices.map DeviceSetUp.pipelines) := by
  constructor
  . rw [exists_mapM_iff]
    exact forall₂_congr fun dev hmem => (initDevice_render labels (h dev hmem)).1
  . intro devs hdevs
    have hall := forall₂_of_mapM hdevs
    unfold getPipelineInfo answers
    rw [List.length_map, hall.length_eq]
    split
    . rfl
    . rw [List.map_flatMap]
      congr 1
      funext devId
      rw [List.getElem?_map]
      cases hdev : devs[devId]? with
      | none =>
        rw [List.getElem?_eq_none (by rw [hall.length_eq]; exact List.getElem?_eq_none_iff.mp hdev)]
        rfl
      | some devPipelines =>
        obtain ⟨dev, hget, hinit⟩ := getElem?_of_forall₂ hall hdev
        have hdescribed := h dev (List.mem_of_getElem? hget)
        have hinfos := (initDevice_render labels hdescribed).2 devPipelines hinit
        rw [hget, Option.map_some, Option.elim_some, Option.elim_some, ← hinfos]
        apply getDevice_reads
        intro pipeline hmem
        rw [hinfos, List.reduceOption_mem_iff] at hmem
        exact hdescribed pipeline hmem

-- A device that has one pipeline, with a block of counters, and one that has none
def aclDevices : List DeviceSetUp :=
  [{ setUp := {
      snp4Init := fun _ => true
      snp4ResetAllTables := fun _ => true
      countersZoneAlloc := fun _ => true
      tableEccZoneAlloc := fun _ => true }
     domain := { name := Counters.ascii "counters" }
     pipelines := [none, some aclPipeline] },
    { setUp := {
        snp4Init := fun _ => false
        snp4ResetAllTables := fun _ => false
        countersZoneAlloc := fun _ => false
        tableEccZoneAlloc := fun _ => false }
      domain := { name := Counters.ascii "counters" }
      pipelines := [] }]

theorem getPipelineInfo_reads_acl
    : ∃ devs, aclDevices.mapM (initDevice fun _ _ => []) = some devs ∧
        (getPipelineInfo ⟨-1, 0⟩ devs).map readResponse =
          answers ⟨-1, 0⟩ [[none, some aclPipeline], []] := by
  have hdescribed : ∀ dev ∈ aclDevices, ∀ pipeline, some pipeline ∈ dev.pipelines →
      pipeline.Described := by
    intro dev hdev pipeline hmem
    simp only [aclDevices, List.mem_cons, List.not_mem_nil, or_false] at hdev
    rcases hdev with rfl | rfl
    . obtain rfl : pipeline = aclPipeline := by simpa using hmem
      exact aclPipeline_described
    . cases hmem
  obtain ⟨hexists, hreads⟩ := getPipelineInfo_reads (fun _ _ => []) ⟨-1, 0⟩ aclDevices hdescribed
  obtain ⟨devs, hdevs⟩ : ∃ devs, aclDevices.mapM (initDevice fun _ _ => []) = some devs := by
    apply hexists.mpr
    intro dev hdev id pipeline hget
    simp only [aclDevices, List.mem_cons, List.not_mem_nil, or_false] at hdev
    rcases hdev with rfl | rfl
    . obtain rfl : pipeline = aclPipeline := by
        have hmem := List.mem_of_getElem? hget
        simpa using hmem
      exact ⟨rfl, rfl, by decide, fun _ => rfl, fun _ => rfl⟩
    . cases hget
  exact ⟨devs, hdevs, hreads devs hdevs⟩

end Answers

end PipelineAgent
