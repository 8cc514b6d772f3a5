import SmartnicFw.Lib.Transition
import SmartnicFw.OpenNic.Cmac
import SmartnicFw.OpenNic.Qdma

/-!
This module contains the requests that configure the queues of the hosts (`host.cpp`, and the part of
`defaults.cpp` that does), with the agent building the range of a channel from those of its functions.
-/

namespace SnCfg

-- In a request, a negative threshold is for none
def toThreshold (et : Int32) : BitVec 32 :=
  if et < 0 then FlowControl.fcThresholdUnlimited else et.toBitVec

-- A threshold is told as -1 when there is none
def fromThreshold (threshold : BitVec 32) : Int32 :=
  if threshold = FlowControl.fcThresholdUnlimited then -1 else .ofBitVec threshold

namespace Host

open Qdma (Layout Regs functionMax)

inductive ErrorCode where
  | EC_OK
  | EC_INVALID_DEVICE_ID
  | EC_INVALID_HOST_ID
  | EC_MISSING_HOST_CONFIG
  | EC_UNSUPPORTED_HOST_FUNCTION
  | EC_FAILED_SET_HOST_FUNCTION_DMA_QUEUES
  | EC_FAILED_SET_HOST_FC_EGR_THRESHOLD
  | EC_UNKNOWN_DEFAULTS_PROFILE
  deriving DecidableEq, Repr

-- Values that the enumeration does not name are received as they are
inductive HostFunctionType where
  | HOST_FUNC_UNKNOWN
  | HOST_FUNC_PHYSICAL
  | HOST_FUNC_VIRTUAL
  | other (value : Int)
  deriving DecidableEq, Repr

structure HostFunctionId where
  ftype : HostFunctionType
  index : BitVec 32
  deriving DecidableEq, Repr

structure HostFunctionDmaConfig where
  funcId : HostFunctionId
  baseQueue : BitVec 32
  numQueues : BitVec 32
  deriving DecidableEq, Repr

structure HostDmaConfig where
  functions : List HostFunctionDmaConfig
  reset : Bool
  deriving DecidableEq, Repr

structure HostFlowControl where
  egressThreshold : Int32
  deriving DecidableEq

structure HostConfig where
  dma : Option HostDmaConfig
  flowControl : Option HostFlowControl
  deriving DecidableEq

structure HostConfigRequest where
  devId : Int
  hostId : Int
  config : Option HostConfig
  deriving DecidableEq

inductive DefaultsProfile where
  | DS_ONE_TO_ONE
  | other (value : Int)
  deriving DecidableEq, Repr

structure DefaultsRequest where
  devId : Int
  profile : DefaultsProfile
  deriving DecidableEq, Repr

structure Response where
  errorCode : ErrorCode
  devId : Nat
  hostId : Nat
  deriving DecidableEq, Repr

structure Device where
  qdma : Regs
  egrFcThresh : List (BitVec 32)

def nhosts : Nat := 2

-- `VF_MIN + index` is an unsigned sum, and the enumeration it is stored in is compared as an int
def convertToDriverQdmaFunction (id : HostFunctionId) : Option Nat :=
  match id.ftype with
  | .HOST_FUNC_PHYSICAL => if id.index ≠ 0 then none else some 0
  | .HOST_FUNC_VIRTUAL =>
    let func := 1 + id.index
    if func.toInt ≥ functionMax then none else some func.toNat
  | _ => none

def hostInterface (hostId : Nat) : FlowControl.FcInterface where
  type := .HOST
  index := hostId

-- The loop over the functions of a request, up to the first that is rejected
def setFunctions (L : Layout) (hostId : Nat) (functions : List HostFunctionDmaConfig) (regs : Regs)
    : ErrorCode × Regs :=
  match functions with
  | [] => (.EC_OK, regs)
  | func :: functions =>
    match convertToDriverQdmaFunction func.funcId with
    | none => (.EC_UNSUPPORTED_HOST_FUNCTION, regs)
    | some qf =>
      match Qdma.functionSetQueues L regs hostId qf func.baseQueue func.numQueues with
      | (false, regs) => (.EC_FAILED_SET_HOST_FUNCTION_DMA_QUEUES, regs)
      | (true, regs) => setFunctions L hostId functions regs

-- The loop over the functions from `qf` on, which adds up their queues
def channelRange (L : Layout) (regs : Regs) (hostId : Nat) (qfs : List Nat)
    (chanBase chanQueues : BitVec 32)
    : Option (BitVec 32 × BitVec 32) :=
  match qfs with
  | [] => some (chanBase, chanQueues)
  | qf :: qfs =>
    match Qdma.functionGetQueues L regs hostId qf with
    | none => none
    | some (funcBase, funcQueues) =>
      if funcQueues.toNat > 0 then
        channelRange L regs hostId qfs (if funcBase < chanBase then funcBase else chanBase)
          (chanQueues + funcQueues)
      else
        channelRange L regs hostId qfs chanBase chanQueues

def resetQueues (L : Layout) (hostId : Nat) (regs : Regs) : Regs :=
  let regs := (List.range functionMax).foldl
    (fun regs qf => (Qdma.functionSetQueues L regs hostId qf 0 0).2) regs
  (Qdma.channelSetQueues L regs hostId 0 0).2

def setDma (L : Layout) (hostId : Nat) (dma : HostDmaConfig) (regs : Regs) : ErrorCode × Regs :=
  let regs := if dma.reset then resetQueues L hostId regs else regs
  match setFunctions L hostId dma.functions regs with
  | (.EC_OK, regs) =>
    match channelRange L regs hostId (List.range functionMax) (BitVec.allOnes 32) 0 with
    | none => (.EC_FAILED_SET_HOST_FUNCTION_DMA_QUEUES, regs)
    | some (chanBase, chanQueues) =>
      if chanQueues.toNat > 0 then
        (.EC_OK, (Qdma.channelSetQueues L regs hostId chanBase chanQueues).2)
      else
        (.EC_OK, regs)
  | (err, regs) => (err, regs)

-- What a request does to one host of a device
def setHost (L : Layout) (hostId : Nat) (config : HostConfig) (dev : Device)
    : ErrorCode × Device :=
  let (err, dev) : ErrorCode × Device :=
    match config.dma with
    | none => (.EC_OK, dev)
    | some dma =>
      let (err, qdma) := setDma L hostId dma dev.qdma
      (err, { dev with qdma := qdma })
  match err, config.flowControl with
  | .EC_OK, some fc =>
    match FlowControl.fcSetEgressThreshold dev.egrFcThresh (hostInterface hostId)
        (toThreshold fc.egressThreshold) with
    | none => (.EC_FAILED_SET_HOST_FC_EGR_THRESHOLD, dev)
    | some thresholds => (.EC_OK, { dev with egrFcThresh := thresholds })
  | err, _ => (err, dev)

def hostLoop (L : Layout) (config : HostConfig) (devId : Nat) (hostIds : List Nat) (dev : Device)
    : List Response × Device :=
  match hostIds with
  | [] => ([], dev)
  | hostId :: hostIds =>
    let (err, dev) := setHost L hostId config dev
    let (resps, dev) := hostLoop L config devId hostIds dev
    (⟨err, devId, hostId⟩ :: resps, dev)

-- What a request does to one device
def setDevice (L : Layout) (req : HostConfigRequest) (config : HostConfig) (devId : Nat)
    (dev : Device)
    : List Response × Device :=
  if req.hostId > (nhosts : Int) - 1 then
    ([⟨.EC_INVALID_HOST_ID, devId, 0⟩], dev)
  else
    hostLoop L config devId (if req.hostId > -1 then [req.hostId.toNat] else List.range nhosts) dev

-- The loop over the devices that are selected by `devId`, where a negative one selects all
def deviceLoop (f : Nat → Device → List Response × Device) (devIds : List Nat)
    (devices : List Device)
    : List Response × List Device :=
  match devIds with
  | [] => ([], devices)
  | devId :: devIds =>
    match devices[devId]? with
    | none => ([], devices)
    | some dev =>
      let (resps, dev) := f devId dev
      let (rest, devices) := deviceLoop f devIds (devices.set devId dev)
      (resps ++ rest, devices)

def selectDevices (devId : Int) (devices : List Device) : List Nat :=
  if devId > -1 then [devId.toNat] else List.range devices.length

def setHostConfig (L : Layout) (req : HostConfigRequest) (devices : List Device)
    : List Response × List Device :=
  if req.devId > (devices.length : Int) - 1 then
    ([⟨.EC_INVALID_DEVICE_ID, 0, 0⟩], devices)
  else
    match req.config with
    | none => ([⟨.EC_MISSING_HOST_CONFIG, 0, 0⟩], devices)
    | some config => deviceLoop (setDevice L req config) (selectDevices req.devId devices) devices

-- The host interfaces' part of the defaults, from the host `index` on
def defaultHosts (L : Layout) (hostIds : List Nat) (regs : Regs) : ErrorCode × Regs :=
  match hostIds with
  | [] => (.EC_OK, regs)
  | index :: hostIds =>
    match Qdma.functionSetQueues L regs index 0 (BitVec.ofNat 32 index) 1 with
    | (false, regs) => (.EC_FAILED_SET_HOST_FUNCTION_DMA_QUEUES, regs)
    | (true, regs) =>
      match Qdma.channelSetQueues L regs index (BitVec.ofNat 32 index) 1 with
      | (false, regs) => (.EC_FAILED_SET_HOST_FUNCTION_DMA_QUEUES, regs)
      | (true, regs) => defaultHosts L hostIds regs

def setDefaultsDevice (L : Layout) (profile : DefaultsProfile) (devId : Nat) (dev : Device)
    : List Response × Device :=
  match profile with
  | .DS_ONE_TO_ONE =>
    let (err, qdma) := defaultHosts L (List.range nhosts) dev.qdma
    ([⟨err, devId, 0⟩], { dev with qdma := qdma })
  | .other _ => ([⟨.EC_UNKNOWN_DEFAULTS_PROFILE, devId, 0⟩], dev)

def setDefaults (L : Layout) (req : DefaultsRequest) (devices : List Device)
    : List Response × List Device :=
  if req.devId > (devices.length : Int) - 1 then
    ([⟨.EC_INVALID_DEVICE_ID, 0, 0⟩], devices)
  else
    deviceLoop (setDefaultsDevice L req.profile) (selectDevices req.devId devices) devices

inductive Request where
  | hostConfig (req : HostConfigRequest)
  | defaults (req : DefaultsRequest)
  deriving DecidableEq

def handle (L : Layout) (req : Request) (devices : List Device) : List Response × List Device :=
  match req with
  | .hostConfig req => setHostConfig L req devices
  | .defaults req => setDefaults L req devices

-- A request that is answered EC_OK throughout
def step (L : Layout) (devices : List Device) (req : Request) : Option (List Device) :=
  let (resps, devices) := handle L req devices
  if resps.all fun resp => resp.errorCode = .EC_OK then some devices else none

end Host

end SnCfg
