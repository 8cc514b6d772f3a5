import SmartnicFw.OpenNic.Switch

/-!
This module contains the requests that set and get the configuration of the switch (`switch.cpp`), and
what is read back after any number of them.
-/

namespace SnCfg.SwitchAgent

open Switch (Layout Regs Setting numPorts)

inductive ErrorCode where
  | EC_OK
  | EC_INVALID_DEVICE_ID
  | EC_MISSING_SWITCH_CONFIG
  | EC_UNSUPPORTED_IGR_SEL_INTF
  | EC_UNSUPPORTED_IGR_SEL_DEST
  | EC_FAILED_GET_IGR_SEL
  | EC_FAILED_SET_IGR_SEL
  | EC_UNSUPPORTED_EGR_SEL_INTF
  | EC_FAILED_GET_EGR_SEL
  | EC_FAILED_SET_EGR_SEL
  | EC_UNSUPPORTED_BYPASS_MODE
  | EC_FAILED_SET_BYPASS_MODE
  deriving DecidableEq, Repr

-- Values that the enumerations do not name are received as they are
inductive SwitchInterface where
  | SW_INTF_UNKNOWN
  | SW_INTF_PHYSICAL
  | SW_INTF_TEST
  | other (value : Int)
  deriving DecidableEq, Repr

inductive SwitchDestination where
  | SW_DEST_UNKNOWN
  | SW_DEST_BYPASS
  | SW_DEST_DROP
  | SW_DEST_APP
  | other (value : Int)
  deriving DecidableEq, Repr

inductive SwitchBypassMode where
  | SW_BYPASS_UNKNOWN
  | SW_BYPASS_STRAIGHT
  | SW_BYPASS_SWAP
  | other (value : Int)
  deriving DecidableEq, Repr

structure SwitchIngressSelector where
  index : Nat
  intf : SwitchInterface
  dest : SwitchDestination
  deriving DecidableEq, Repr

structure SwitchEgressSelector where
  index : Nat
  intf : SwitchInterface
  deriving DecidableEq, Repr

structure SwitchConfig where
  ingressSelectors : List SwitchIngressSelector
  egressSelectors : List SwitchEgressSelector
  bypassMode : SwitchBypassMode
  deriving DecidableEq, Repr

structure SwitchConfigRequest where
  devId : Int
  config : Option SwitchConfig
  deriving DecidableEq, Repr

structure SwitchConfigResponse where
  errorCode : ErrorCode
  devId : Nat
  config : Option SwitchConfig
  deriving DecidableEq, Repr

def nports : Nat := 2

def convertToDriverInterface (intf : SwitchInterface) : Option Switch.SwitchInterface :=
  match intf with
  | .SW_INTF_PHYSICAL => some .PHYSICAL
  | .SW_INTF_TEST => some .TEST
  | _ => none

def convertFromDriverInterface (intf : Switch.SwitchInterface) : Option SwitchInterface :=
  match intf with
  | .PHYSICAL => some .SW_INTF_PHYSICAL
  | .TEST => some .SW_INTF_TEST
  | .UNKNOWN => none

def convertToDriverDestination (dest : SwitchDestination) : Option Switch.SwitchDestination :=
  match dest with
  | .SW_DEST_BYPASS => some .BYPASS
  | .SW_DEST_DROP => some .DROP
  | .SW_DEST_APP => some .APP
  | _ => none

def convertFromDriverDestination (dest : Switch.SwitchDestination) : Option SwitchDestination :=
  match dest with
  | .BYPASS => some .SW_DEST_BYPASS
  | .DROP => some .SW_DEST_DROP
  | .APP => some .SW_DEST_APP
  | .UNKNOWN => none

def convertToDriverBypassMode (mode : SwitchBypassMode) : Option Switch.SwitchBypassMode :=
  match mode with
  | .SW_BYPASS_STRAIGHT => some .STRAIGHT
  | .SW_BYPASS_SWAP => some .SWAP
  | _ => none

def convertFromDriverBypassMode (mode : Switch.SwitchBypassMode) : Option SwitchBypassMode :=
  match mode with
  | .STRAIGHT => some .SW_BYPASS_STRAIGHT
  | .SWAP => some .SW_BYPASS_SWAP
  | .UNKNOWN => none

def setIngressSelectors (L : Layout) (sels : List SwitchIngressSelector) (regs : Regs)
    : ErrorCode × Regs :=
  match sels with
  | [] => (.EC_OK, regs)
  | sel :: sels =>
    match convertToDriverInterface sel.intf, convertToDriverDestination sel.dest with
    | none, _ => (.EC_UNSUPPORTED_IGR_SEL_INTF, regs)
    | some _, none => (.EC_UNSUPPORTED_IGR_SEL_DEST, regs)
    | some intf, some dest =>
      match Switch.setIngressSelector L regs sel.index intf dest with
      | (false, regs) => (.EC_FAILED_SET_IGR_SEL, regs)
      | (true, regs) => setIngressSelectors L sels regs

def setEgressSelectors (L : Layout) (sels : List SwitchEgressSelector) (regs : Regs)
    : ErrorCode × Regs :=
  match sels with
  | [] => (.EC_OK, regs)
  | sel :: sels =>
    match convertToDriverInterface sel.intf with
    | none => (.EC_UNSUPPORTED_EGR_SEL_INTF, regs)
    | some intf =>
      match Switch.setEgressSelector L regs sel.index intf with
      | (false, regs) => (.EC_FAILED_SET_EGR_SEL, regs)
      | (true, regs) => setEgressSelectors L sels regs

def setBypassMode (L : Layout) (mode : SwitchBypassMode) (regs : Regs) : ErrorCode × Regs :=
  if mode ≠ .SW_BYPASS_UNKNOWN then
    match convertToDriverBypassMode mode with
    | none => (.EC_UNSUPPORTED_BYPASS_MODE, regs)
    | some mode =>
      match Switch.setBypassMode L regs mode with
      | (false, regs) => (.EC_FAILED_SET_BYPASS_MODE, regs)
      | (true, regs) => (.EC_OK, regs)
  else
    (.EC_OK, regs)

-- What a request does to one device
def setDevice (L : Layout) (config : SwitchConfig) (regs : Regs) : ErrorCode × Regs :=
  match setIngressSelectors L config.ingressSelectors regs with
  | (.EC_OK, regs) =>
    match setEgressSelectors L config.egressSelectors regs with
    | (.EC_OK, regs) => setBypassMode L config.bypassMode regs
    | (err, regs) => (err, regs)
  | (err, regs) => (err, regs)

-- A negative id selects all devices
def selectDevices (devId : Int) (n : Nat) : List Nat :=
  if devId > -1 then [devId.toNat] else List.range n

def setSwitchConfig (L : Layout) (req : SwitchConfigRequest) (devices : List Regs)
    : List SwitchConfigResponse × List Regs :=
  if req.devId > (devices.length : Int) - 1 then
    ([⟨.EC_INVALID_DEVICE_ID, 0, none⟩], devices)
  else
    match req.config with
    | none => ([⟨.EC_MISSING_SWITCH_CONFIG, 0, none⟩], devices)
    | some config =>
      updateEach
        (fun devId regs =>
          let (err, regs) := setDevice L config regs
          (⟨err, devId, none⟩, regs))
        (selectDevices req.devId devices.length) devices

def SwitchConfig.addIngress (config : SwitchConfig) (sel : SwitchIngressSelector) : SwitchConfig :=
  { config with ingressSelectors := config.ingressSelectors ++ [sel] }

def SwitchConfig.addEgress (config : SwitchConfig) (sel : SwitchEgressSelector) : SwitchConfig :=
  { config with egressSelectors := config.egressSelectors ++ [sel] }

-- The loop over the ports. The selectors that are added before an error stay in the response.
def getPorts (L : Layout) (regs : Regs) (portIds : List Nat) (config : SwitchConfig)
    : ErrorCode × SwitchConfig :=
  match portIds with
  | [] => (.EC_OK, config)
  | portId :: portIds =>
    match Switch.getIngressSelector L regs portId with
    | none => (.EC_FAILED_GET_IGR_SEL, config)
    | some (intf, dest) =>
      match convertFromDriverInterface intf, convertFromDriverDestination dest with
      | none, _ =>
        (.EC_UNSUPPORTED_IGR_SEL_INTF,
          config.addIngress ⟨portId, .SW_INTF_UNKNOWN, .SW_DEST_UNKNOWN⟩)
      | some intf, none =>
        (.EC_UNSUPPORTED_IGR_SEL_DEST, config.addIngress ⟨portId, intf, .SW_DEST_UNKNOWN⟩)
      | some intf, some dest =>
        let config := config.addIngress ⟨portId, intf, dest⟩
        match Switch.getEgressSelector L regs portId with
        | none => (.EC_FAILED_GET_EGR_SEL, config)
        | some intf =>
          match convertFromDriverInterface intf with
          | none =>
            (.EC_UNSUPPORTED_EGR_SEL_INTF, config.addEgress ⟨portId, .SW_INTF_UNKNOWN⟩)
          | some intf => getPorts L regs portIds (config.addEgress ⟨portId, intf⟩)

def getDevice (L : Layout) (devId : Nat) (regs : Regs) : SwitchConfigResponse :=
  match getPorts L regs (List.range nports) ⟨[], [], .SW_BYPASS_UNKNOWN⟩ with
  | (.EC_OK, config) =>
    match convertFromDriverBypassMode (Switch.getBypassMode L regs) with
    | none => ⟨.EC_UNSUPPORTED_BYPASS_MODE, devId, some config⟩
    | some mode => ⟨.EC_OK, devId, some { config with bypassMode := mode }⟩
  | (err, config) => ⟨err, devId, some config⟩

def getSwitchConfig (L : Layout) (req : SwitchConfigRequest) (devices : List Regs)
    : List SwitchConfigResponse :=
  if req.devId > (devices.length : Int) - 1 then
    [⟨.EC_INVALID_DEVICE_ID, 0, none⟩]
  else
    (selectDevices req.devId devices.length).filterMap fun devId =>
      devices[devId]?.map (getDevice L devId)

end SnCfg.SwitchAgent
