import SmartnicFw.Lib.Accepted
import SmartnicFw.Lib.ForSelected
import SmartnicFw.OpenNic.Cmac
import SmartnicFw.SnCfg.Agent.HostConfig
import SmartnicFw.SnCfg.Agent.SwitchConfig

/-!
This module contains the requests that configure the ports (`port.cpp`), on all the registers of a device
that the agent configures.
-/

namespace SnCfg.Config

open Accepted (Performs accepted)
open FlowControl (FcInterface fcGetEgressThreshold fcSetEgressThreshold)

structure Layouts where
  cmac : Cmac.Layout
  switch : Switch.Layout
  qdma : Qdma.Layout

-- The MACs are by their port
structure Device where
  cmac : Nat → Cmac.Regs
  switch : Switch.Regs
  qdma : Qdma.Regs
  egrFcThresh : List (BitVec 32)

def nports : Nat := 2

def numCmacs : Nat := 2

inductive PortErrorCode where
  | EC_OK
  | EC_INVALID_DEVICE_ID
  | EC_INVALID_PORT_ID
  | EC_UNSUPPORTED_PORT_ID
  | EC_MISSING_PORT_CONFIG
  | EC_UNSUPPORTED_PORT_STATE
  | EC_UNSUPPORTED_PORT_FEC
  | EC_UNSUPPORTED_PORT_LOOPBACK
  | EC_FAILED_GET_PORT_FC_EGR_THRESHOLD
  | EC_FAILED_SET_PORT_FC_EGR_THRESHOLD
  deriving DecidableEq, Repr

-- Values that an enumeration does not name are received as they are
inductive PortState where
  | PORT_STATE_UNKNOWN
  | PORT_STATE_DISABLE
  | PORT_STATE_ENABLE
  | other (value : Int)
  deriving DecidableEq, Repr

inductive PortFec where
  | PORT_FEC_UNKNOWN
  | PORT_FEC_NONE
  | PORT_FEC_REED_SOLOMON
  | other (value : Int)
  deriving DecidableEq, Repr

inductive PortLoopback where
  | PORT_LOOPBACK_UNKNOWN
  | PORT_LOOPBACK_NONE
  | PORT_LOOPBACK_NEAR_END_PMA
  | other (value : Int)
  deriving DecidableEq, Repr

structure PortConfig where
  state : PortState
  fec : PortFec
  loopback : PortLoopback
  egressThreshold : Option Int32
  deriving DecidableEq

structure PortConfigRequest where
  devId : Int
  portId : Int
  config : Option PortConfig
  deriving DecidableEq

structure PortConfigResponse where
  errorCode : PortErrorCode
  devId : Nat
  portId : Nat
  config : Option PortConfig
  deriving DecidableEq

def portInterface (portId : Nat) : FcInterface where
  type := .PORT
  index := portId

def Device.setCmac (dev : Device) (portId : Nat) (regs : Cmac.Regs) : Device :=
  { dev with cmac := Function.update dev.cmac portId regs }

section Set

variable (L : Layouts)

def setState (state : PortState) (portId : Nat) (dev : Device) : PortErrorCode × Device :=
  match state with
  | .PORT_STATE_UNKNOWN => (.EC_OK, dev)
  | .PORT_STATE_DISABLE => (.EC_OK, dev.setCmac portId (Cmac.disable L.cmac (dev.cmac portId)))
  | .PORT_STATE_ENABLE => (.EC_OK, dev.setCmac portId (Cmac.enable L.cmac (dev.cmac portId)))
  | .other _ => (.EC_UNSUPPORTED_PORT_STATE, dev)

def setFec (fec : PortFec) (portId : Nat) (dev : Device) : PortErrorCode × Device :=
  match fec with
  | .PORT_FEC_UNKNOWN => (.EC_OK, dev)
  | .PORT_FEC_NONE => (.EC_OK, dev.setCmac portId (Cmac.rsfecDisable L.cmac (dev.cmac portId)))
  | .PORT_FEC_REED_SOLOMON => (.EC_OK, dev.setCmac portId (Cmac.rsfecEnable L.cmac (dev.cmac portId)))
  | .other _ => (.EC_UNSUPPORTED_PORT_FEC, dev)

def setLoopback (loopback : PortLoopback) (portId : Nat) (dev : Device) : PortErrorCode × Device :=
  match loopback with
  | .PORT_LOOPBACK_UNKNOWN => (.EC_OK, dev)
  | .PORT_LOOPBACK_NONE => (.EC_OK, dev.setCmac portId (Cmac.loopbackDisable (dev.cmac portId)))
  | .PORT_LOOPBACK_NEAR_END_PMA => (.EC_OK, dev.setCmac portId (Cmac.loopbackEnable (dev.cmac portId)))
  | .other _ => (.EC_UNSUPPORTED_PORT_LOOPBACK, dev)

def setFlowControl (egressThreshold : Option Int32) (portId : Nat) (dev : Device)
    : PortErrorCode × Device :=
  match egressThreshold with
  | none => (.EC_OK, dev)
  | some et =>
    match fcSetEgressThreshold dev.egrFcThresh (portInterface portId) (toThreshold et) with
    | none => (.EC_FAILED_SET_PORT_FC_EGR_THRESHOLD, dev)
    | some thresholds => (.EC_OK, { dev with egrFcThresh := thresholds })

-- The first step that fails ends it
def andThen (run next : Device → PortErrorCode × Device) (dev : Device) : PortErrorCode × Device :=
  match run dev with
  | (.EC_OK, dev) => next dev
  | (err, dev) => (err, dev)

def setPort (config : PortConfig) (portId : Nat) (dev : Device) : PortErrorCode × Device :=
  if portId ≥ numCmacs then
    (.EC_UNSUPPORTED_PORT_ID, dev)
  else
    andThen (setState L config.state portId) (andThen (setFec L config.fec portId)
      (andThen (setLoopback config.loopback portId) (setFlowControl config.egressThreshold portId))) dev

def portLoop (config : PortConfig) (devId : Nat) (portIds : List Nat) (dev : Device)
    : List PortConfigResponse × Device :=
  match portIds with
  | [] => ([], dev)
  | portId :: portIds =>
    let (err, dev) := setPort L config portId dev
    let (resps, dev) := portLoop config devId portIds dev
    (⟨err, devId, portId, none⟩ :: resps, dev)

def setPorts (req : PortConfigRequest) (config : PortConfig) (devId : Nat) (dev : Device)
    : List PortConfigResponse × Device :=
  if req.portId > (nports : Int) - 1 then
    ([⟨.EC_INVALID_PORT_ID, devId, 0, none⟩], dev)
  else
    portLoop L config devId (ForSelected.selected req.portId nports) dev

def setPortConfig (req : PortConfigRequest) (devices : List Device)
    : List PortConfigResponse × List Device :=
  if req.devId > (devices.length : Int) - 1 then
    ([⟨.EC_INVALID_DEVICE_ID, 0, 0, none⟩], devices)
  else
    match req.config with
    | none => ([⟨.EC_MISSING_PORT_CONFIG, 0, 0, none⟩], devices)
    | some config =>
      let (resps, devices) := updateEach (setPorts L req config)
        (ForSelected.selected req.devId devices.length) devices
      (resps.flatten, devices)

def getPort (devId portId : Nat) (dev : Device) : PortConfigResponse :=
  if portId ≥ numCmacs then
    ⟨.EC_UNSUPPORTED_PORT_ID, devId, portId, none⟩
  else
    let cmac := dev.cmac portId
    let config : PortConfig := {
      state := if Cmac.isEnabled L.cmac cmac then .PORT_STATE_ENABLE else .PORT_STATE_DISABLE
      fec := if Cmac.rsfecIsEnabled L.cmac cmac then .PORT_FEC_REED_SOLOMON else .PORT_FEC_NONE
      loopback :=
        if Cmac.loopbackIsEnabled cmac then .PORT_LOOPBACK_NEAR_END_PMA else .PORT_LOOPBACK_NONE
      egressThreshold := none }
    match fcGetEgressThreshold dev.egrFcThresh (portInterface portId) with
    | none => ⟨.EC_FAILED_GET_PORT_FC_EGR_THRESHOLD, devId, portId, some config⟩
    | some threshold =>
      ⟨.EC_OK, devId, portId, some { config with egressThreshold := some (fromThreshold threshold) }⟩

def getPorts (req : PortConfigRequest) (devId : Nat) (dev : Device) : List PortConfigResponse :=
  if req.portId > (nports : Int) - 1 then
    [⟨.EC_INVALID_PORT_ID, devId, 0, none⟩]
  else
    (ForSelected.selected req.portId nports).map fun portId => getPort L devId portId dev

def getPortConfig (req : PortConfigRequest) (devices : List Device) : List PortConfigResponse :=
  if req.devId > (devices.length : Int) - 1 then
    [⟨.EC_INVALID_DEVICE_ID, 0, 0, none⟩]
  else
    (ForSelected.selected req.devId devices.length).flatMap fun devId =>
      devices[devId]?.elim [] (getPorts L req devId)

end Set

-- A change that can be made to a port
inductive PortSetting where
  | state (enable : Bool)
  | fec (reedSolomon : Bool)
  | loopback (nearEnd : Bool)
  | egressThreshold (et : Int32)
  deriving DecidableEq

section Settings

variable (L : Layouts)

def Device.apply (portId : Nat) (dev : Device) (setting : PortSetting) : Device :=
  match setting with
  | .state true => dev.setCmac portId (Cmac.enable L.cmac (dev.cmac portId))
  | .state false => dev.setCmac portId (Cmac.disable L.cmac (dev.cmac portId))
  | .fec true => dev.setCmac portId (Cmac.rsfecEnable L.cmac (dev.cmac portId))
  | .fec false => dev.setCmac portId (Cmac.rsfecDisable L.cmac (dev.cmac portId))
  | .loopback true => dev.setCmac portId (Cmac.loopbackEnable (dev.cmac portId))
  | .loopback false => dev.setCmac portId (Cmac.loopbackDisable (dev.cmac portId))
  | .egressThreshold et =>
    { dev with
      egrFcThresh := (fcSetEgressThreshold dev.egrFcThresh (portInterface portId) (toThreshold et)).getD
        dev.egrFcThresh }

def PortState.settings : PortState → List (Option PortSetting)
  | .PORT_STATE_UNKNOWN => []
  | .PORT_STATE_DISABLE => [some (.state false)]
  | .PORT_STATE_ENABLE => [some (.state true)]
  | .other _ => [none]

def PortFec.settings : PortFec → List (Option PortSetting)
  | .PORT_FEC_UNKNOWN => []
  | .PORT_FEC_NONE => [some (.fec false)]
  | .PORT_FEC_REED_SOLOMON => [some (.fec true)]
  | .other _ => [none]

def PortLoopback.settings : PortLoopback → List (Option PortSetting)
  | .PORT_LOOPBACK_UNKNOWN => []
  | .PORT_LOOPBACK_NONE => [some (.loopback false)]
  | .PORT_LOOPBACK_NEAR_END_PMA => [some (.loopback true)]
  | .other _ => [none]

-- With `n` thresholds, a port that has none of them rejects one
def thresholdSettings (n portId : Nat) : Option Int32 → List (Option PortSetting)
  | none => []
  | some et => [if portId < n then some (.egressThreshold et) else none]

def PortConfig.settings (n portId : Nat) (config : PortConfig) : List (Option PortSetting) :=
  config.state.settings ++ (config.fec.settings ++
    (config.loopback.settings ++ thresholdSettings n portId config.egressThreshold))

variable {L} {n portId : Nat}

theorem has_portInterface (hport : portId < numCmacs) : (portInterface portId).Has n ↔ portId < n := by
  have htid : FlowControl.fcInterfaceToEgrThresholdTid (portInterface portId) = some portId := by
    exact if_neg (Nat.not_le_of_lt hport)
  unfold FcInterface.Has
  simp [htid]

-- No setting changes the number of thresholds
theorem length_apply (dev : Device) (setting : PortSetting) (h : dev.egrFcThresh.length = n)
    : (dev.apply L portId setting).egrFcThresh.length = n := by
  unfold Device.apply
  split
  case h_7 et => exact (FlowControl.length_getD_set ..).trans h
  all_goals exact h

abbrev PerformsPort (L : Layouts) (n portId : Nat) :=
  Performs (fun dev : Device => dev.egrFcThresh.length = n) (Device.apply L portId) PortErrorCode.EC_OK

theorem performs_andThen {run next : Device → PortErrorCode × Device}
    {settings rest : List (Option PortSetting)} (hrun : PerformsPort L n portId run settings)
    (hnext : PerformsPort L n portId next rest)
    : PerformsPort L n portId (andThen run next) (settings ++ rest) := by
  apply hrun.append hnext length_apply
  intro dev _
  unfold andThen
  rcases run dev with ⟨err, dev'⟩
  cases err <;> rfl

theorem performs_single {run : Device → PortErrorCode × Device} {setting : PortSetting}
    (hrun : ∀ dev, run dev = (.EC_OK, dev.apply L portId setting))
    : PerformsPort L n portId run [some setting] := by
  refine Performs.nil.cons length_apply fun dev _ => hrun dev

theorem performs_setState (state : PortState)
    : PerformsPort L n portId (setState L state portId) state.settings := by
  cases state with
  | PORT_STATE_UNKNOWN => exact .nil
  | PORT_STATE_DISABLE => exact performs_single fun _ => rfl
  | PORT_STATE_ENABLE => exact performs_single fun _ => rfl
  | other value => exact .rejected (by decide) []

theorem performs_setFec (fec : PortFec)
    : PerformsPort L n portId (setFec L fec portId) fec.settings := by
  cases fec with
  | PORT_FEC_UNKNOWN => exact .nil
  | PORT_FEC_NONE => exact performs_single fun _ => rfl
  | PORT_FEC_REED_SOLOMON => exact performs_single fun _ => rfl
  | other value => exact .rejected (by decide) []

theorem performs_setLoopback (loopback : PortLoopback)
    : PerformsPort L n portId (setLoopback loopback portId) loopback.settings := by
  cases loopback with
  | PORT_LOOPBACK_UNKNOWN => exact .nil
  | PORT_LOOPBACK_NONE => exact performs_single fun _ => rfl
  | PORT_LOOPBACK_NEAR_END_PMA => exact performs_single fun _ => rfl
  | other value => exact .rejected (by decide) []

theorem performs_setFlowControl (hport : portId < numCmacs) (egressThreshold : Option Int32)
    : PerformsPort L n portId (setFlowControl egressThreshold portId)
        (thresholdSettings n portId egressThreshold) := by
  cases egressThreshold with
  | none => exact .nil
  | some et =>
    by_cases hlt : portId < n
    . have hsettings : thresholdSettings n portId (some et) = [some (.egressThreshold et)] := by
        unfold thresholdSettings
        dsimp only
        rw [if_pos hlt]
      rw [hsettings]
      refine Performs.nil.cons length_apply ?_
      intro dev hlen
      obtain ⟨thresholds, hset, _⟩ := @FlowControl.fcSetEgressThreshold_of_has dev.egrFcThresh
        (portInterface portId) ((has_portInterface hport).mpr (by omega)) (toThreshold et)
      unfold setFlowControl Device.apply
      dsimp only
      rw [hset, Option.getD_some]
    . have hsettings : thresholdSettings n portId (some et) = [none] := by
        unfold thresholdSettings
        dsimp only
        rw [if_neg hlt]
      have hne : PortErrorCode.EC_FAILED_SET_PORT_FC_EGR_THRESHOLD ≠ .EC_OK := by decide
      rw [hsettings]
      refine (Performs.rejected hne []).congr ?_
      intro dev hlen
      have hhas : ¬ (portInterface portId).Has dev.egrFcThresh.length := by
        rw [has_portInterface hport, hlen]
        exact hlt
      unfold setFlowControl
      dsimp only
      rw [FlowControl.fcSetEgressThreshold_of_not_has hhas]

-- A request for a port makes its settings up to the first one that is rejected
theorem performs_setPort (hport : portId < numCmacs) (config : PortConfig)
    : PerformsPort L n portId (setPort L config portId) (config.settings n portId) := by
  have hall := performs_andThen (@performs_setState L n portId config.state)
    (performs_andThen (performs_setFec config.fec) (performs_andThen (performs_setLoopback config.loopback)
      (performs_setFlowControl hport config.egressThreshold)))
  refine hall.congr ?_
  intro dev _
  unfold setPort
  rw [if_neg (Nat.not_le_of_lt hport)]

end Settings

end SnCfg.Config
