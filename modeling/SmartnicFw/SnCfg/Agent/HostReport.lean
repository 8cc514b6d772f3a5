import SmartnicFw.Lib.Accepted
import SmartnicFw.Lib.ForSelected
import SmartnicFw.OpenNic.Cmac
import SmartnicFw.SnCfg.Agent.HostFunctions
import SmartnicFw.SnCfg.Agent.HostRanges

/-!
This module contains the request that reports the configuration of the hosts (`host.cpp`), and the settings
that the request to configure them makes, one after another.
-/

namespace SnCfg.Host

open Accepted (Performs)
open Qdma (Layout Regs functionMax channelMax functionSetQueues functionGetQueues channelSetQueues)

inductive ReportErrorCode where
  | EC_OK
  | EC_INVALID_DEVICE_ID
  | EC_INVALID_HOST_ID
  | EC_UNSUPPORTED_HOST_FUNCTION
  | EC_FAILED_GET_HOST_FUNCTION_DMA_QUEUES
  | EC_FAILED_GET_HOST_FC_EGR_THRESHOLD
  deriving DecidableEq, Repr

-- The fields that are not set by then are left at their defaults
structure HostConfigReport where
  functions : List HostFunctionDmaConfig
  egressThreshold : Option Int32
  deriving DecidableEq

structure HostConfigResponse where
  errorCode : ReportErrorCode
  devId : Nat
  hostId : Nat
  config : Option HostConfigReport
  deriving DecidableEq

def noFunction : HostFunctionDmaConfig := ⟨⟨.HOST_FUNC_UNKNOWN, 0⟩, 0, 0⟩

def HostConfigReport.addFunction (config : HostConfigReport) (func : HostFunctionDmaConfig)
    : HostConfigReport :=
  { config with functions := config.functions ++ [func] }

-- The loop over the functions from `qf` on, of which each reads the threshold again
def getFunctions (L : Layout) (dev : Device) (hostId : Nat) (qfs : List Nat) (config : HostConfigReport)
    : ReportErrorCode × HostConfigReport :=
  match qfs with
  | [] => (.EC_OK, config)
  | qf :: qfs =>
    match functionGetQueues L dev.qdma hostId qf with
    | none => (.EC_FAILED_GET_HOST_FUNCTION_DMA_QUEUES, config)
    | some (baseQueue, numQueues) =>
      match convertFromDriverQdmaFunction qf with
      | none => (.EC_UNSUPPORTED_HOST_FUNCTION, config.addFunction noFunction)
      | some funcId =>
        let config := config.addFunction ⟨funcId, baseQueue, numQueues⟩
        match FlowControl.fcGetEgressThreshold dev.egrFcThresh (hostInterface hostId) with
        | none => (.EC_FAILED_GET_HOST_FC_EGR_THRESHOLD, config)
        | some threshold =>
          getFunctions L dev hostId qfs { config with egressThreshold := some (fromThreshold threshold) }

def getHost (L : Layout) (devId hostId : Nat) (dev : Device) : HostConfigResponse :=
  let (err, config) := getFunctions L dev hostId (List.range functionMax) ⟨[], none⟩
  ⟨err, devId, hostId, some config⟩

def getHosts (L : Layout) (req : HostConfigRequest) (devId : Nat) (dev : Device) : List HostConfigResponse :=
  if req.hostId > (nhosts : Int) - 1 then
    [⟨.EC_INVALID_HOST_ID, devId, 0, none⟩]
  else
    (ForSelected.selected req.hostId nhosts).map fun hostId => getHost L devId hostId dev

def getHostConfig (L : Layout) (req : HostConfigRequest) (devices : List Device)
    : List HostConfigResponse :=
  if req.devId > (devices.length : Int) - 1 then
    [⟨.EC_INVALID_DEVICE_ID, 0, 0, none⟩]
  else
    (ForSelected.selected req.devId devices.length).flatMap fun devId =>
      devices[devId]?.elim [] (getHosts L req devId)

-- A change that can be made to a host
inductive HostSetting where
  | hashBase (func : Nat) (baseQueue : BitVec 32)
  | queues (func : Nat) (baseQueue numQueues : BitVec 32)
  | channel (baseQueue numQueues : BitVec 32)
  | channelOfFunctions
  | egressThreshold (et : Int32)
  deriving DecidableEq

def Device.setQdma (dev : Device) (qdma : Regs) : Device := { dev with qdma := qdma }

section Settings

variable (L : Layout)

def channelOfFunctions (hostId : Nat) (regs : Regs) : Regs :=
  match channelRange L regs hostId (List.range functionMax) (BitVec.allOnes 32) 0 with
  | none => regs
  | some (chanBase, chanQueues) =>
    if chanQueues.toNat > 0 then (channelSetQueues L regs hostId chanBase chanQueues).2 else regs

def Device.apply (hostId : Nat) (dev : Device) (setting : HostSetting) : Device :=
  match setting with
  | .hashBase func baseQueue =>
    dev.setQdma (dev.qdma.setQConfig hostId func (L.hashBase.set 0 baseQueue))
  | .queues func baseQueue numQueues =>
    dev.setQdma (functionSetQueues L dev.qdma hostId func baseQueue numQueues).2
  | .channel baseQueue numQueues => dev.setQdma (channelSetQueues L dev.qdma hostId baseQueue numQueues).2
  | .channelOfFunctions => dev.setQdma (channelOfFunctions L hostId dev.qdma)
  | .egressThreshold et =>
    { dev with
      egrFcThresh := (FlowControl.fcSetEgressThreshold dev.egrFcThresh (hostInterface hostId)
        (toThreshold et)).getD dev.egrFcThresh }

-- The base of a function is written before it turns out that there are too many queues, but not when
-- the driver has no such function
def queueSettings (func : Nat) (baseQueue numQueues : BitVec 32) : List (Option HostSetting) :=
  if func ≥ functionMax then
    [none]
  else if numQueues.toNat > L.tableSize func then
    [some (.hashBase func baseQueue), none]
  else
    [some (.queues func baseQueue numQueues)]

def HostFunctionDmaConfig.settings (func : HostFunctionDmaConfig) : List (Option HostSetting) :=
  (convertToDriverQdmaFunction func.funcId).elim [none] fun qf =>
    queueSettings L qf func.baseQueue func.numQueues

def resetSettings : List HostSetting :=
  (List.range functionMax).map (fun qf => .queues qf 0 0) ++ [.channel 0 0]

def HostDmaConfig.settings (dma : HostDmaConfig) : List (Option HostSetting) :=
  (if dma.reset then resetSettings else []).map some ++
    (dma.functions.flatMap (HostFunctionDmaConfig.settings L) ++ [some .channelOfFunctions])

-- With `n` thresholds, a host that has none of them rejects one
def HostFlowControl.settings (n hostId : Nat) (fc : HostFlowControl) : List (Option HostSetting) :=
  [if 2 + hostId < n then some (.egressThreshold fc.egressThreshold) else none]

def HostConfig.settings (n hostId : Nat) (config : HostConfig) : List (Option HostSetting) :=
  config.dma.elim [] (HostDmaConfig.settings L) ++
    config.flowControl.elim [] (HostFlowControl.settings n hostId)

variable {L : Layout} {n hostId : Nat}

theorem has_hostInterface (hhost : hostId < channelMax) : (hostInterface hostId).Has n ↔ 2 + hostId < n := by
  have htid : FlowControl.fcInterfaceToEgrThresholdTid (hostInterface hostId) = some (2 + hostId) := by
    exact if_neg (Nat.not_le_of_lt hhost)
  unfold FlowControl.FcInterface.Has
  simp [htid]

-- No setting changes the number of thresholds
theorem length_apply (dev : Device) (setting : HostSetting) (h : dev.egrFcThresh.length = n)
    : (dev.apply L hostId setting).egrFcThresh.length = n := by
  cases setting with
  | egressThreshold et =>
    unfold Device.apply
    dsimp only
    rw [FlowControl.length_getD_set, h]
  | _ => exact h

theorem channelRange_ne_none (hhost : hostId < channelMax) (regs : Regs) {qfs : List Nat}
    (h : ∀ qf ∈ qfs, qf < functionMax) (chanBase chanQueues : BitVec 32)
    : channelRange L regs hostId qfs chanBase chanQueues ≠ none := by
  induction qfs generalizing chanBase chanQueues with
  | nil => simp [channelRange]
  | cons qf qfs ih =>
    have hqf := h qf List.mem_cons_self
    have hget : functionGetQueues L regs hostId qf = some ((L.igrBase hostId).get (regs.igrQConfig hostId qf),
        (L.igrNumQ hostId).get (regs.igrQConfig hostId qf)) := by
      exact if_neg (by omega)
    unfold channelRange
    rw [hget]
    dsimp only
    split
    . exact ih (fun qf hmem => h qf (List.mem_cons_of_mem _ hmem)) _ _
    . exact ih (fun qf hmem => h qf (List.mem_cons_of_mem _ hmem)) _ _

abbrev PerformsHost (L : Layout) (n hostId : Nat) :=
  Performs (fun dev : Device => dev.egrFcThresh.length = n) (Device.apply L hostId) ErrorCode.EC_OK

def onQdma (run : Regs → ErrorCode × Regs) (dev : Device) : ErrorCode × Device :=
  ((run dev.qdma).1, dev.setQdma (run dev.qdma).2)

-- The part after the functions
def setChannel (L : Layout) (hostId : Nat) (regs : Regs) : ErrorCode × Regs :=
  (.EC_OK, channelOfFunctions L hostId regs)

theorem performs_setFunctions (hhost : hostId < channelMax) (functions : List HostFunctionDmaConfig)
    : PerformsHost L n hostId (onQdma (setFunctions L hostId functions))
        (functions.flatMap (HostFunctionDmaConfig.settings L)) := by
  induction functions with
  | nil => exact .nil
  | cons func functions ih =>
    rw [List.flatMap_cons]
    cases hqf : convertToDriverQdmaFunction func.funcId with
    | none =>
      have hsettings : func.settings L = [none] := by
        unfold HostFunctionDmaConfig.settings
        rw [hqf]
        rfl
      have hne : ErrorCode.EC_UNSUPPORTED_HOST_FUNCTION ≠ .EC_OK := by decide
      rw [hsettings]
      refine (Performs.rejected hne _).congr ?_
      intro dev _
      unfold onQdma setFunctions
      rw [hqf]
      rfl
    | some qf =>
      have hsettings : func.settings L = queueSettings L qf func.baseQueue func.numQueues := by
        unfold HostFunctionDmaConfig.settings
        rw [hqf]
        rfl
      have hne : ErrorCode.EC_FAILED_SET_HOST_FUNCTION_DMA_QUEUES ≠ .EC_OK := by decide
      rw [hsettings]
      unfold queueSettings
      by_cases hmax : qf ≥ functionMax
      . rw [if_pos hmax]
        refine (Performs.rejected hne _).congr ?_
        intro dev _
        have hset := @Qdma.functionSetQueues_of_not_valid L hostId qf dev.qdma func.baseQueue
          func.numQueues (.inr hmax)
        unfold onQdma setFunctions
        rw [hqf]
        dsimp only
        rw [hset]
        rfl
      rw [if_neg hmax]
      have hvalid : ¬ (hostId ≥ channelMax ∨ qf ≥ functionMax) := by omega
      by_cases hsize : func.numQueues.toNat > L.tableSize qf
      . rw [if_pos hsize]
        refine (Performs.rejected hne _).cons length_apply ?_
        intro dev _
        have hset := Qdma.functionSetQueues_of_not_fits dev.qdma func.baseQueue hvalid hsize
        unfold onQdma setFunctions
        rw [hqf]
        dsimp only
        rw [hset]
        rfl
      . rw [if_neg hsize]
        refine ih.cons length_apply ?_
        intro dev _
        obtain ⟨regs, hset, _⟩ := Qdma.functionSetQueues_of_fits dev.qdma func.baseQueue hvalid hsize
        have happly : dev.apply L hostId (.queues qf func.baseQueue func.numQueues) = dev.setQdma regs := by
          unfold Device.apply
          dsimp only
          rw [hset]
        rw [happly]
        unfold onQdma
        conv_lhs => unfold setFunctions
        rw [hqf]
        dsimp only
        rw [hset]
        rfl

theorem setDma_eq (hhost : hostId < channelMax) (dma : HostDmaConfig) (regs : Regs)
    : setDma L hostId dma regs =
        let r := setFunctions L hostId dma.functions (if dma.reset then resetQueues L hostId regs else regs)
        if r.1 = .EC_OK then setChannel L hostId r.2 else r := by
  unfold setDma
  dsimp only
  generalize setFunctions L hostId dma.functions (if dma.reset then resetQueues L hostId regs else regs) = r
  obtain ⟨err, regs'⟩ := r
  have hne := @channelRange_ne_none L hostId hhost regs' (List.range functionMax)
    (fun qf => List.mem_range.mp) (BitVec.allOnes 32) 0
  cases err with
  | EC_OK =>
    dsimp only
    rw [if_pos rfl]
    unfold setChannel channelOfFunctions
    cases hrange : channelRange L regs' hostId (List.range functionMax) (BitVec.allOnes 32) 0 with
    | none => exact absurd hrange hne
    | some range =>
      dsimp only
      split <;> rfl
  | _ => rfl

def setFunctionsAndChannel (L : Layout) (hostId : Nat) (functions : List HostFunctionDmaConfig) (regs : Regs)
    : ErrorCode × Regs :=
  let r := setFunctions L hostId functions regs
  if r.1 = .EC_OK then setChannel L hostId r.2 else r

theorem performs_setFunctionsAndChannel (hhost : hostId < channelMax) (functions : List HostFunctionDmaConfig)
    : PerformsHost L n hostId (onQdma (setFunctionsAndChannel L hostId functions))
        (functions.flatMap (HostFunctionDmaConfig.settings L) ++ [some .channelOfFunctions]) := by
  have hchannel : PerformsHost L n hostId (onQdma (setChannel L hostId)) [some .channelOfFunctions] :=
    Performs.nil.cons length_apply fun _ _ => rfl
  apply (performs_setFunctions hhost functions).append hchannel length_apply
  intro dev _
  unfold onQdma setFunctionsAndChannel
  dsimp only
  split <;> rfl

theorem performs_setDma (hhost : hostId < channelMax) (dma : HostDmaConfig)
    : PerformsHost L n hostId (onQdma (setDma L hostId dma)) (dma.settings L) := by
  refine (performs_setFunctionsAndChannel hhost dma.functions).prepend length_apply _ ?_
  intro dev _
  unfold onQdma
  rw [setDma_eq hhost]
  cases dma.reset with
  | false => rfl
  | true => rfl

def setFlowControl (hostId : Nat) (fc : HostFlowControl) (dev : Device) : ErrorCode × Device :=
  match FlowControl.fcSetEgressThreshold dev.egrFcThresh (hostInterface hostId)
      (toThreshold fc.egressThreshold) with
  | none => (.EC_FAILED_SET_HOST_FC_EGR_THRESHOLD, dev)
  | some thresholds => (.EC_OK, { dev with egrFcThresh := thresholds })

theorem performs_setFlowControl (hhost : hostId < channelMax) (fc : HostFlowControl)
    : PerformsHost L n hostId (setFlowControl hostId fc) (fc.settings n hostId) := by
  unfold HostFlowControl.settings
  by_cases hlt : 2 + hostId < n
  . rw [if_pos hlt]
    refine Performs.nil.cons length_apply ?_
    intro dev hlen
    obtain ⟨thresholds, hset, _⟩ := @FlowControl.fcSetEgressThreshold_of_has dev.egrFcThresh
      (hostInterface hostId) ((has_hostInterface hhost).mpr (by omega)) (toThreshold fc.egressThreshold)
    unfold setFlowControl Device.apply
    dsimp only
    rw [hset, Option.getD_some]
  . have hne : ErrorCode.EC_FAILED_SET_HOST_FC_EGR_THRESHOLD ≠ .EC_OK := by decide
    rw [if_neg hlt]
    refine (Performs.rejected hne []).congr ?_
    intro dev hlen
    have hhas : ¬ (hostInterface hostId).Has dev.egrFcThresh.length := by
      rw [has_hostInterface hhost, hlen]
      exact hlt
    unfold setFlowControl
    rw [FlowControl.fcSetEgressThreshold_of_not_has hhas]

theorem performs_dma (hhost : hostId < channelMax) (dma : Option HostDmaConfig)
    : PerformsHost L n hostId (dma.elim (fun dev => (.EC_OK, dev)) fun dma => onQdma (setDma L hostId dma))
        (dma.elim [] (HostDmaConfig.settings L)) := by
  cases dma with
  | none => exact .nil
  | some dma => exact performs_setDma hhost dma

theorem performs_flowControl (hhost : hostId < channelMax) (flowControl : Option HostFlowControl)
    : PerformsHost L n hostId (flowControl.elim (fun dev => (.EC_OK, dev)) (setFlowControl hostId))
        (flowControl.elim [] (HostFlowControl.settings n hostId)) := by
  cases flowControl with
  | none => exact .nil
  | some fc => exact performs_setFlowControl hhost fc

-- A request for a host makes its settings up to the first one that is rejected
theorem performs_setHost (hhost : hostId < channelMax) (config : HostConfig)
    : PerformsHost L n hostId (setHost L hostId config) (config.settings L n hostId) := by
  apply (performs_dma hhost config.dma).append (performs_flowControl hhost config.flowControl) length_apply
  intro dev _
  obtain ⟨dma, flowControl⟩ := config
  unfold setHost
  cases dma with
  | none =>
    cases flowControl with
    | none => rfl
    | some fc => rfl
  | some dma =>
    rcases hr : setDma L hostId dma dev.qdma with ⟨err, regs⟩
    have hon : onQdma (setDma L hostId dma) dev = (err, dev.setQdma regs) := by
      unfold onQdma
      rw [hr]
    simp only [Option.elim_some, hon, hr]
    cases err <;> cases flowControl <;> rfl

end Settings

-- What can be read of a host
structure HostView where
  queues : Nat → BitVec 32 × BitVec 32
  threshold : Option (BitVec 32)

def hostView (L : Layout) (hostId : Nat) (dev : Device) : HostView where
  queues := fun func => ((L.igrBase hostId).get (dev.qdma.igrQConfig hostId func),
    (L.igrNumQ hostId).get (dev.qdma.igrQConfig hostId func))
  threshold := FlowControl.fcGetEgressThreshold dev.egrFcThresh (hostInterface hostId)

def HostView.function (view : HostView) (func : Nat) : HostFunctionDmaConfig :=
  ⟨(convertFromDriverQdmaFunction func).getD noFunction.funcId, (view.queues func).1, (view.queues func).2⟩

-- A host without a threshold is left after the first function
def HostView.response (devId hostId : Nat) (view : HostView) : HostConfigResponse :=
  match view.threshold with
  | none =>
    ⟨.EC_FAILED_GET_HOST_FC_EGR_THRESHOLD, devId, hostId, some ⟨[view.function 0], none⟩⟩
  | some threshold =>
    ⟨.EC_OK, devId, hostId,
      some ⟨(List.range functionMax).map view.function, some (fromThreshold threshold)⟩⟩

-- What a setting leaves to be read of the queues of a function
def HostSetting.queuesOf (L : Layout) (hostId func : Nat) (setting : HostSetting)
    : Option (BitVec 32 × BitVec 32) :=
  match setting with
  | .queues f baseQueue numQueues =>
    if f = func ∧ numQueues.toNat ≤ L.tableSize f then
      some (baseQueue &&& (L.igrBase hostId).ones, numQueues &&& (L.igrNumQ hostId).ones)
    else
      none
  | _ => none

def HostSetting.thresholdOf (setting : HostSetting) : Option (BitVec 32) :=
  match setting with
  | .egressThreshold et => some (toThreshold et)
  | _ => none

section View

variable {L : Layout} {hostId : Nat}

theorem getHost_eq (hhost : hostId < channelMax) (devId : Nat) (dev : Device)
    : getHost L devId hostId dev = (hostView L hostId dev).response devId hostId := by
  have hget (func : Nat) (hfunc : func < functionMax)
      : functionGetQueues L dev.qdma hostId func = some ((hostView L hostId dev).queues func) :=
    if_neg (by omega)
  have hrange : List.range functionMax = [0, 1, 2, 3] := by decide
  unfold getHost HostView.response
  cases hthreshold : FlowControl.fcGetEgressThreshold dev.egrFcThresh (hostInterface hostId) with
  | none =>
    have hview : (hostView L hostId dev).threshold = none := hthreshold
    simp [hrange, getFunctions, hget 0 (by decide), hthreshold, hview, convertFromDriverQdmaFunction,
      HostConfigReport.addFunction, HostView.function]
  | some threshold =>
    have hview : (hostView L hostId dev).threshold = some threshold := hthreshold
    simp [hrange, getFunctions, hget 0 (by decide), hget 1 (by decide), hget 2 (by decide),
      hget 3 (by decide), hthreshold, hview, convertFromDriverQdmaFunction,
      HostConfigReport.addFunction, HostView.function]

theorem channelSetQueues_igrQConfig (regs : Regs) (hostId : Nat) (baseQueue numQueues : BitVec 32)
    : (channelSetQueues L regs hostId baseQueue numQueues).2.igrQConfig = regs.igrQConfig := by
  unfold channelSetQueues
  split <;> rfl

theorem channelOfFunctions_igrQConfig (hostId : Nat) (regs : Regs)
    : (channelOfFunctions L hostId regs).igrQConfig = regs.igrQConfig := by
  unfold channelOfFunctions
  split
  . rfl
  . split
    . exact channelSetQueues_igrQConfig ..
    . rfl

theorem hostView_queues_congr {dev dev' : Device} {func : Nat}
    (h : dev'.qdma.igrQConfig hostId func = dev.qdma.igrQConfig hostId func)
    : (hostView L hostId dev').queues func = (hostView L hostId dev).queues func := by
  unfold hostView
  dsimp only
  rw [h]

theorem hostView_queues_apply (hhost : hostId < channelMax) {func : Nat} (hfunc : func < functionMax)
    (dev : Device) (setting : HostSetting)
    : (hostView L hostId (dev.apply L hostId setting)).queues func =
        (setting.queuesOf L hostId func).getD ((hostView L hostId dev).queues func) := by
  cases setting with
  | hashBase f baseQueue => rfl
  | queues f baseQueue numQueues =>
    unfold HostSetting.queuesOf
    dsimp only
    by_cases hf : f = func
    . subst hf
      have hvalid : ¬ (hostId ≥ channelMax ∨ f ≥ functionMax) := by omega
      by_cases hsize : numQueues.toNat > L.tableSize f
      . rw [if_neg (by omega)]
        apply hostView_queues_congr
        unfold Device.apply
        dsimp only
        rw [Qdma.functionSetQueues_of_not_fits dev.qdma baseQueue hvalid hsize]
        rfl
      . obtain ⟨regs, hset, _, hget⟩ := Qdma.functionSetQueues_of_fits dev.qdma baseQueue hvalid hsize
        rw [if_pos ⟨rfl, by omega⟩]
        unfold hostView Device.apply Device.setQdma
        simp only [hset, hget, Option.getD_some]
        rw [RegField.get_set_of_disjoint (L.igr_disjoint hostId), RegField.get_set, RegField.get_set]
    . rw [if_neg fun h => hf h.1]
      apply hostView_queues_congr
      exact (functionSetQueues_frame L dev.qdma hostId f baseQueue numQueues).2 hostId func
        fun h => hf h.2.symm
  | channel baseQueue numQueues =>
    apply hostView_queues_congr
    unfold Device.apply Device.setQdma
    dsimp only
    rw [channelSetQueues_igrQConfig]
  | channelOfFunctions =>
    apply hostView_queues_congr
    unfold Device.apply Device.setQdma
    dsimp only
    rw [channelOfFunctions_igrQConfig]
  | egressThreshold et => rfl

theorem apply_igrQConfig_of_ne {hostId' : Nat} (h : hostId' ≠ hostId) (dev : Device)
    (setting : HostSetting) (func : Nat)
    : (dev.apply L hostId' setting).qdma.igrQConfig hostId func = dev.qdma.igrQConfig hostId func := by
  cases setting with
  | hashBase f baseQueue => rfl
  | queues f baseQueue numQueues =>
    exact (functionSetQueues_frame L dev.qdma hostId' f baseQueue numQueues).2 hostId func
      fun heq => h heq.1.symm
  | channel baseQueue numQueues =>
    unfold Device.apply Device.setQdma
    dsimp only
    rw [channelSetQueues_igrQConfig]
  | channelOfFunctions =>
    unfold Device.apply Device.setQdma
    dsimp only
    rw [channelOfFunctions_igrQConfig]
  | egressThreshold et => rfl

theorem fcGetEgressThreshold_apply (intf : FlowControl.FcInterface) (dev : Device) (setting : HostSetting)
    : FlowControl.fcGetEgressThreshold (dev.apply L hostId setting).egrFcThresh intf =
        (FlowControl.fcGetEgressThreshold dev.egrFcThresh intf).map fun threshold =>
          (if intf = hostInterface hostId then setting.thresholdOf else none).getD threshold := by
  cases setting with
  | egressThreshold et =>
    unfold Device.apply HostSetting.thresholdOf
    dsimp only
    rw [FlowControl.fcGetEgressThreshold_getD_set]
    congr 1
    funext threshold
    split <;> rfl
  | _ => simp [Device.apply, Device.setQdma, HostSetting.thresholdOf]

end View

end SnCfg.Host
