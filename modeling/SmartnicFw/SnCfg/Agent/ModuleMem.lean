import SmartnicFw.Lib.Buffer
import SmartnicFw.OpenNic.Cms

/-!
This module contains the read of a range of a module's memory by the configuration agent
(`module.cpp`), for the modules and devices that a request selects.
-/

namespace SnCfg

inductive ErrorCode where
  | EC_OK
  | EC_INVALID_DEVICE_ID
  | EC_INVALID_MODULE_ID
  | EC_MODULE_GPIO_READ_FAILED
  | EC_MODULE_NOT_PRESENT
  | EC_MODULE_PAGE_READ_FAILED
  | EC_MODULE_MEM_READ_FAILED
  | EC_MODULE_MEM_WRITE_FAILED
  | EC_INVALID_MODULE_MEM_OFFSET
  | EC_INVALID_MODULE_MEM_PAGE
  | EC_INVALID_MODULE_MEM_COUNT
  deriving DecidableEq, Repr

structure ModuleMem where
  offset : UInt32
  page : UInt32
  count : UInt32
  data : List UInt8
  deriving DecidableEq, Repr

structure ModuleMemRequest where
  devId : Int
  modId : Int
  mem : ModuleMem
  deriving DecidableEq, Repr

structure ModuleMemResponse where
  errorCode : ErrorCode
  devId : Nat
  modId : Nat
  mem : Option ModuleMem
  deriving DecidableEq, Repr

-- The mailbox has two bits for the cage of a module; the agent's devices have two ports
structure Device where
  cms : Cms
  nports : Nat
  nports_le : nports ≤ 4

-- What ends the model of a request without a result
inductive Stop where
  | outOfFuel
  | outOfBounds
  deriving DecidableEq, Repr

def checkModulePresent (cms : Cms) (time : Nat) (modId : Nat) : ErrorCode :=
  match cmsModuleGpioRead cms time (UInt8.ofNat modId) with
  | none => .EC_MODULE_GPIO_READ_FAILED
  | some gpio =>
    if !gpio.present || gpio.reset then
      .EC_MODULE_NOT_PRESENT
    else
      .EC_OK

-- The loop that copies the pages into the buffer, whose counters have 8 bits. It ends with the
-- bytes, or without them when a page cannot be read, and with the time.
def copyPages (cms : Cms) (count : UInt32) (fuel : Nat) (cmsId : CmsModuleId)
    (pageOffset dataCount dataOffset : UInt8) (data : List UInt8) (time : Nat)
    : Except Stop (Option (List UInt8) × Nat) :=
  match fuel with
  | 0 => .error .outOfFuel
  | fuel + 1 =>
    match cmsModulePageRead cms time cmsId with
    | none => .ok (none, time + 1)
    | some cmsPage =>
      match Buffer.copy data dataOffset.toNat cmsPage.u8 pageOffset.toNat dataCount.toNat with
      | none => .error .outOfBounds
      | some data =>
        let cmsId := { cmsId with upper := true }
        let dataOffset := dataOffset + dataCount
        let dataCount := (count - dataOffset.toUInt32).toUInt8
        if dataCount > 0 then
          copyPages cms count fuel cmsId 0 dataCount dataOffset data (time + 1)
        else
          .ok (some data, time + 1)

-- The read from one module. The bytes of `stack` are those that the buffer holds at first.
def readModuleMem (cms : Cms) (fuel : Nat) (stack : Nat → UInt8) (cmsId : CmsModuleId)
    (offset page count : UInt32) (time : Nat)
    : Except Stop (Except ErrorCode ModuleMem × Nat) :=
  if count > 1 then do
    let pageOffset := (offset &&& 127).toUInt8
    let dataCount := (min count (128 - pageOffset.toUInt32)).toUInt8
    let buffer := (List.range count.toNat).map stack
    let (copied, time) ← copyPages cms count fuel { cmsId with upper := decide (offset ≥ 128) }
      pageOffset dataCount 0 buffer time
    match copied with
    | none => .ok (.error .EC_MODULE_PAGE_READ_FAILED, time)
    | some data => .ok (.ok { offset := offset, page := page, count := count, data := data }, time)
  else
    match cmsModuleByteRead cms time cmsId offset.toUInt8 with
    | none => .ok (.error .EC_MODULE_MEM_READ_FAILED, time + 1)
    | some byte =>
      .ok (.ok { offset := offset, page := page, count := 1, data := [byte] }, time + 1)

-- The `cms_id` of a request, for one of the modules
def cmsModuleId (modId : Nat) (page : UInt32) : CmsModuleId :=
  { cage := UInt8.ofNat modId, page := page.toUInt8, upper := false, cmis := false, bank := 0
    sfpDiag := false }

def moduleLoop (cms : Cms) (fuel : Nat) (stack : Nat → UInt8) (isRange : Bool) (devId : Nat)
    (offset page count : UInt32) (modIds : List Nat) (time : Nat)
    : Except Stop (List ModuleMemResponse × Nat) :=
  match modIds with
  | [] => .ok ([], time)
  | modId :: modIds =>
    match checkModulePresent cms time modId with
    | .EC_OK => do
      let (mem, time) ← readModuleMem cms fuel stack (cmsModuleId modId page) offset page count
        (time + 1)
      let (resps, time) ← moduleLoop cms fuel stack isRange devId offset page count modIds time
      match mem with
      | .error err => .ok (⟨err, devId, modId, none⟩ :: resps, time)
      | .ok mem => .ok (⟨.EC_OK, devId, modId, some mem⟩ :: resps, time)
    | err => do
      let (resps, time) ← moduleLoop cms fuel stack isRange devId offset page count modIds
        (time + 1)
      if isRange then
        .ok (resps, time)
      else
        .ok (⟨err, devId, modId, none⟩ :: resps, time)

-- The ids from `begin_id` to `end_id`, where a negative one selects all
def idRange (id : Int) (n : Nat) : List Nat :=
  if id > -1 then [id.toNat] else List.range n

def deviceLoop (devices : List Device) (fuel : Nat) (stack : Nat → UInt8) (req : ModuleMemRequest)
    (devIds : List Nat) (time : Nat)
    : Except Stop (List ModuleMemResponse) :=
  match devIds with
  | [] => .ok []
  | devId :: devIds =>
    match devices[devId]? with
    | none => .error .outOfBounds
    | some dev =>
      if req.modId > (dev.nports : Int) - 1 then do
        let resps ← deviceLoop devices fuel stack req devIds time
        .ok (⟨.EC_INVALID_MODULE_ID, devId, 0, none⟩ :: resps)
      else
        let offset := req.mem.offset
        let page := req.mem.page
        if offset > 255 then
          .ok [⟨.EC_INVALID_MODULE_MEM_OFFSET, 0, 0, none⟩]
        else if page > 255 then
          .ok [⟨.EC_INVALID_MODULE_MEM_PAGE, 0, 0, none⟩]
        else if 1 ≤ req.mem.count ∧ req.mem.count > 255 - offset + 1 then
          .ok [⟨.EC_INVALID_MODULE_MEM_COUNT, 0, 0, none⟩]
        else do
          let count := if req.mem.count < 1 then 128 else req.mem.count
          let (resps, time) ← moduleLoop dev.cms fuel stack (decide (req.modId < 0)) devId offset
            page count (idRange req.modId dev.nports) time
          let rest ← deviceLoop devices fuel stack req devIds time
          .ok (resps ++ rest)

def getModuleMem (devices : List Device) (fuel : Nat) (stack : Nat → UInt8)
    (req : ModuleMemRequest) (time : Nat)
    : Except Stop (List ModuleMemResponse) :=
  if req.devId > (devices.length : Int) - 1 then
    .ok [⟨.EC_INVALID_DEVICE_ID, 0, 0, none⟩]
  else
    deviceLoop devices fuel stack req (idRange req.devId devices.length) time

end SnCfg
