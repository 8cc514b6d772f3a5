import SmartnicFw.Lib.ForSelected
import SmartnicFw.Snp4.Reset
import SmartnicFw.SnP4.Agent.TableRuleBatch

/-!
This module contains how the agent clears the tables of pipelines (`table.cpp`, `pipeline.cpp`).
-/

namespace TableClears

open Snp4Api
open TableRules (Device DevicePipeline)
open ForSelected (forSelectedIn)

inductive ErrorCode where
  | EC_OK
  | EC_INVALID_DEVICE_ID
  | EC_INVALID_PIPELINE_ID
  | EC_INVALID_TABLE_NAME
  | EC_FAILED_CLEAR_ALL_TABLES
  | EC_FAILED_CLEAR_TABLE
  deriving DecidableEq, Repr

structure TableRequest where
  devId : Int
  pipelineId : Int
  tableName : String
  deriving DecidableEq, Repr

structure TableResponse where
  errorCode : ErrorCode
  devId : Nat
  pipelineId : Nat
  deriving DecidableEq, Repr

def pipelineHasTable (info : Snp4InfoPipeline) (tableName : String) : Bool :=
  (info.tables.find? fun ti => ti.name == tableName).isSome

section Clear

variable {σ τ : Type} (intf : TableIntf σ τ)

-- A request without a name is for all tables of the pipeline
def clearTables (info : Snp4InfoPipeline) (tableName : String) (handle : σ) : ErrorCode × σ :=
  if tableName = "" then
    match snp4ResetAllTables intf handle with
    | (false, handle) => (.EC_FAILED_CLEAR_ALL_TABLES, handle)
    | (true, handle) => (.EC_OK, handle)
  else if !pipelineHasTable info tableName then
    (.EC_INVALID_TABLE_NAME, handle)
  else
    match snp4ResetOneTable intf tableName handle with
    | (false, handle) => (.EC_FAILED_CLEAR_TABLE, handle)
    | (true, handle) => (.EC_OK, handle)

def clearPipeline (tableName : String) (devId pipelineId : Nat) (pipeline : DevicePipeline σ)
    : TableResponse × DevicePipeline σ :=
  let (err, handle) := clearTables intf pipeline.info tableName pipeline.handle
  ({ errorCode := err, devId := devId, pipelineId := pipelineId }, { pipeline with handle := handle })

-- A field of the response that is not set is 0
def clearTable (req : TableRequest) (devices : List (Device σ)) : List TableResponse × List (Device σ) :=
  let (resps, pipelines) := forSelectedIn req.devId req.pipelineId
    { errorCode := .EC_INVALID_DEVICE_ID, devId := 0, pipelineId := 0 }
    (fun devId => { errorCode := .EC_INVALID_PIPELINE_ID, devId := devId, pipelineId := 0 })
    (clearPipeline intf req.tableName) (devices.map Device.pipelines)
  (resps, pipelines.map Device.mk)

-- The part of `init_pipeline` that resets the tables, after which the agent exits if one is not reset
def resetPipeline (pipeline : DevicePipeline σ) : Option (DevicePipeline σ) :=
  match snp4ResetAllTables intf pipeline.handle with
  | (false, _) => none
  | (true, handle) => some { pipeline with handle := handle }

def resetDevices (devices : List (Device σ)) : Option (List (Device σ)) :=
  devices.mapM fun dev => (dev.pipelines.mapM (resetPipeline intf)).map Device.mk

end Clear

def TableRequest.Selects (req : TableRequest) (devId pipelineId : Nat) : Prop :=
  (req.devId < 0 ∨ req.devId = devId) ∧ (req.pipelineId < 0 ∨ req.pipelineId = pipelineId)

instance (req : TableRequest) (devId pipelineId : Nat) : Decidable (req.Selects devId pipelineId) :=
  inferInstanceAs (Decidable (_ ∧ _))

section Answers

variable {σ τ : Type} {intf : TableIntf σ τ} (req : TableRequest) (devices : List (Device σ))

theorem partAt_pipelines (devId pipelineId : Nat)
    : ForSelected.partAt (devices.map Device.pipelines) devId pipelineId =
        TableRules.pipelineAt devices devId pipelineId := by
  unfold ForSelected.partAt TableRules.pipelineAt
  rw [List.getElem?_map]
  cases devices[devId]? <;> rfl

theorem pipelineAt_mk (pipelines : List (List (DevicePipeline σ))) (devId pipelineId : Nat)
    : TableRules.pipelineAt (pipelines.map Device.mk) devId pipelineId =
        ForSelected.partAt pipelines devId pipelineId := by
  unfold ForSelected.partAt TableRules.pipelineAt
  rw [List.getElem?_map]
  cases pipelines[devId]? <;> rfl

theorem pipelineAt_clearTable (devId pipelineId : Nat)
    : TableRules.pipelineAt (clearTable intf req devices).2 devId pipelineId =
        (TableRules.pipelineAt devices devId pipelineId).map fun pipeline =>
          if req.Selects devId pipelineId then
            { pipeline with handle := (clearTables intf pipeline.info req.tableName pipeline.handle).2 }
          else
            pipeline := by
  unfold clearTable
  dsimp only
  rw [pipelineAt_mk, ForSelected.partAt_forSelectedIn, partAt_pipelines]
  rfl

-- A pipeline is answered with success when it is selected and its tables have been cleared
theorem mem_clearTable_ok_iff (devId pipelineId : Nat)
    : { errorCode := .EC_OK, devId := devId, pipelineId := pipelineId } ∈ (clearTable intf req devices).1 ↔
        req.Selects devId pipelineId ∧ ∃ pipeline,
          TableRules.pipelineAt devices devId pipelineId = some pipeline ∧
          (clearTables intf pipeline.info req.tableName pipeline.handle).1 = .EC_OK := by
  unfold clearTable
  dsimp only
  rw [ForSelected.mem_forSelectedIn_iff]
  simp only [partAt_pipelines]
  constructor
  . rintro (⟨_, heq⟩ | ⟨_, _, _, _, _, heq⟩ | ⟨d, p, pipeline, hpart, hsel, hsel', heq⟩)
    . cases heq
    . cases heq
    . obtain ⟨hcode, rfl, rfl⟩ := TableResponse.mk.inj heq
      exact ⟨⟨hsel, hsel'⟩, pipeline, hpart, hcode.symm⟩
  . rintro ⟨⟨hsel, hsel'⟩, pipeline, hpart, hcode⟩
    refine .inr (.inr ⟨devId, pipelineId, pipeline, hpart, hsel, hsel', ?_⟩)
    unfold clearPipeline
    dsimp only
    rw [hcode]

-- The pipelines that the agent begins to serve
theorem pipelineAt_resetDevices {devices devices' : List (Device σ)}
    (h : resetDevices intf devices = some devices') {devId pipelineId : Nat} {pipeline' : DevicePipeline σ}
    (hpipeline : TableRules.pipelineAt devices' devId pipelineId = some pipeline')
    : ∃ pipeline, TableRules.pipelineAt devices devId pipelineId = some pipeline ∧
        pipeline'.info = pipeline.info ∧
        snp4ResetAllTables intf pipeline.handle = (true, pipeline'.handle) := by
  obtain ⟨dev', hdev', hpipeline⟩ := Option.bind_eq_some_iff.mp hpipeline
  obtain ⟨dev, hdev, hreset⟩ := getElem?_of_forall₂ (forall₂_of_mapM h) hdev'
  obtain ⟨pipelines, hpipelines, rfl⟩ := Option.map_eq_some_iff.mp hreset
  obtain ⟨pipeline, hget, hreset⟩ := getElem?_of_forall₂ (forall₂_of_mapM hpipelines) hpipeline
  refine ⟨pipeline, ?_, ?_⟩
  . unfold TableRules.pipelineAt
    rw [hdev]
    exact hget
  . unfold resetPipeline at hreset
    split at hreset
    . cases hreset
    . next handle hall =>
      obtain rfl := Option.some.inj hreset
      exact ⟨rfl, hall⟩

end Answers

end TableClears
