import SmartnicFw.SnCfg.Agent.ModuleRequest

/-!
This module contains the requests for what the pages of a module say about it, and for its alarms and
monitors (`module.cpp`).
-/

namespace SnCfg

-- The optional page is one of those that only some modules have
structure ModulePages where
  lower : CmsModulePage
  upper00 : CmsModulePage
  upper02 : Option CmsModulePage
  deriving DecidableEq, Repr

-- `lo->status.flags.flat_mem`
def flatMem (lower : CmsModulePage) : Bool := ((lower.u8 2).getD 0).toNat.testBit 2

-- `u00->options.device.page_02`, in the byte 195 of the module
def hasPage02 (upper00 : CmsModulePage) : Bool :=
  ((upper00.u8 (195 - cmsModulePageSize)).getD 0).toNat.testBit 7

-- The pages, unless one of those that the module has cannot be read, and the time after the reads
def modulePages (cms : Cms) (modId time : Nat) : Option ModulePages × Nat :=
  let id : CmsModuleId :=
    { cage := UInt8.ofNat modId, page := 0, upper := false, cmis := false, bank := 0
      sfpDiag := false }
  match cmsModulePageRead cms time id with
  | none => (none, time + 1)
  | some lower =>
    let id := { id with upper := true }
    match cmsModulePageRead cms (time + 1) id with
    | none => (none, time + 2)
    | some upper00 =>
      if !flatMem lower && hasPage02 upper00 then
        match cmsModulePageRead cms (time + 2) { id with page := 2 } with
        | none => (none, time + 3)
        | some upper02 => (some { lower, upper00, upper02 := some upper02 }, time + 3)
      else
        (some { lower, upper00, upper02 := none }, time + 2)

section Info

variable {Info : Type}

-- What the response says about the vendor and the device is a function of the pages
def moduleInfoResponse (moduleInfo : ModulePages → Info) (isRange : Bool) (devId : Nat)
    (dev : Device) (modId time : Nat)
    : Option (ModuleResponse Info) × Nat :=
  match checkModulePresent dev.cms time modId with
  | .EC_OK =>
    match modulePages dev.cms modId (time + 1) with
    | (none, time) => (some ⟨.EC_MODULE_PAGE_READ_FAILED, devId, modId, none⟩, time)
    | (some pages, time) => (some ⟨.EC_OK, devId, modId, some (moduleInfo pages)⟩, time)
  | err => (if isRange then none else some ⟨err, devId, modId, none⟩, time + 1)

def getModuleInfo (moduleInfo : ModulePages → Info) (devices : List Device) (devId modId : Int)
    (time : Nat)
    : Except Stop (List (ModuleResponse Info)) :=
  requestResponses devices Device.nports { devId, modId, refused := none }
    (moduleInfoResponse moduleInfo (decide (modId < 0))) time

end Info

inductive CmsModuleMetricType where
  | gpio
  | alarm
  | monitorTemp
  | monitorVoltage
  | monitorCurrent
  | monitorOpticalPower
  deriving DecidableEq, Repr

-- A metric of a module, with the value of its only element in both representations
structure ModuleMetric (F64 : Type) where
  name : List UInt8
  type : CmsModuleMetricType
  u64 : UInt64
  f64 : F64
  deriving DecidableEq, Repr

structure ModuleAlarm where
  name : List UInt8
  active : Bool
  deriving DecidableEq, Repr

structure ModuleMonitor (F64 : Type) where
  name : List UInt8
  value : F64
  deriving DecidableEq, Repr

structure ModuleStatus (F64 : Type) where
  alarms : List ModuleAlarm
  monitors : List (ModuleMonitor F64)
  deriving DecidableEq, Repr

section Status

variable {F64 : Type}

-- A device has a zone of metrics for each of its ports
structure MonitoredDevice (F64 : Type) where
  device : Device
  zones : List (List (ModuleMetric F64))
  zones_length : zones.length = device.nports

def cmsModuleStatsIsAlarmMetric (metric : ModuleMetric F64) : Bool :=
  decide (metric.type = .alarm)

def cmsModuleStatsIsMonitorMetric (metric : ModuleMetric F64) : Bool :=
  match metric.type with
  | .gpio | .alarm => false
  | .monitorTemp | .monitorVoltage | .monitorCurrent | .monitorOpticalPower => true

-- The callback that is called for each metric of the zone
def getModuleStats (status : ModuleStatus F64) (metric : ModuleMetric F64) : ModuleStatus F64 :=
  if cmsModuleStatsIsAlarmMetric metric then
    { status with alarms := status.alarms ++ [⟨metric.name, decide (metric.u64 ≠ 0)⟩] }
  else if cmsModuleStatsIsMonitorMetric metric then
    { status with monitors := status.monitors ++ [⟨metric.name, metric.f64⟩] }
  else
    status

-- The error code of the check is not the one that is put into the response
def moduleStatusResponse (isRange : Bool) (devId : Nat) (dev : MonitoredDevice F64)
    (modId time : Nat)
    : Option (ModuleResponse (ModuleStatus F64)) × Nat :=
  match checkModulePresent dev.device.cms time modId with
  | .EC_OK =>
    let status := (dev.zones.getD modId []).foldl getModuleStats { alarms := [], monitors := [] }
    (some ⟨.EC_OK, devId, modId, some status⟩, time + 1)
  | _ => (if isRange then none else some ⟨.EC_OK, devId, modId, none⟩, time + 1)

def getModuleStatus (devices : List (MonitoredDevice F64)) (devId modId : Int) (time : Nat)
    : Except Stop (List (ModuleResponse (ModuleStatus F64))) :=
  requestResponses devices (fun dev => dev.device.nports) { devId, modId, refused := none }
    (moduleStatusResponse (decide (modId < 0))) time

end Status

end SnCfg
