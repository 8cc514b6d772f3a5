import SmartnicFw.OpenNic.CmsWrite
import SmartnicFw.SnCfg.Agent.ModuleMemSpec

/-!
This module contains the write of a range of a module's memory by the configuration agent
(`module.cpp`), and what is read back after it.
-/

namespace SnCfg

structure RamDevice where
  ram : CmsRam
  modules : BitVec 2 → CmsModule
  nports : Nat
  nports_le : nports ≤ 4

-- What the reads see of the device
def RamDevice.device (dev : RamDevice) : Device :=
  { cms := dev.ram.card dev.modules, nports := dev.nports, nports_le := dev.nports_le }

-- The loop over the bytes, from the byte `b` on
def writeBytes (ram : CmsRam) (cmsId : CmsModuleId) (offset b : UInt32) (data : List UInt8)
    (modules : BitVec 2 → CmsModule) (time : Nat)
    : ErrorCode × (BitVec 2 → CmsModule) × Nat :=
  match data with
  | [] => (.EC_OK, modules, time)
  | value :: data =>
    match cmsModuleByteWrite ram time cmsId (offset + b).toUInt8 value modules with
    | none => (.EC_MODULE_MEM_WRITE_FAILED, modules, time + 1)
    | some modules => writeBytes ram cmsId offset (b + 1) data modules (time + 1)

-- What the loop over the modules does for one of them. There is no response when it is passed over.
def setModule (ram : CmsRam) (isRange : Bool) (devId : Nat) (mem : ModuleMem) (modId : Nat)
    (modules : BitVec 2 → CmsModule) (time : Nat)
    : Option ModuleMemResponse × (BitVec 2 → CmsModule) × Nat :=
  match checkModulePresent (ram.card modules) time modId with
  | .EC_OK =>
    let (err, modules, time) := writeBytes ram (cmsModuleId modId mem.page) mem.offset 0 mem.data
      modules (time + 1)
    (some ⟨err, devId, modId, none⟩, modules, time)
  | err =>
    if isRange then
      (none, modules, time + 1)
    else
      (some ⟨err, devId, modId, none⟩, modules, time + 1)

def setModuleLoop (ram : CmsRam) (isRange : Bool) (devId : Nat) (mem : ModuleMem)
    (modIds : List Nat) (modules : BitVec 2 → CmsModule) (time : Nat)
    : List ModuleMemResponse × (BitVec 2 → CmsModule) × Nat :=
  match modIds with
  | [] => ([], modules, time)
  | modId :: modIds =>
    let (resp, modules, time) := setModule ram isRange devId mem modId modules time
    let (resps, modules, time) := setModuleLoop ram isRange devId mem modIds modules time
    (resp.toList ++ resps, modules, time)

def setDeviceLoop (req : ModuleMemRequest) (devIds : List Nat) (devices : List RamDevice)
    (time : Nat)
    : Except Stop (List ModuleMemResponse × List RamDevice × Nat) :=
  match devIds with
  | [] => .ok ([], devices, time)
  | devId :: devIds =>
    match devices[devId]? with
    | none => .error .outOfBounds
    | some dev =>
      if req.modId > (dev.nports : Int) - 1 then do
        let (resps, devices, time) ← setDeviceLoop req devIds devices time
        .ok (⟨.EC_INVALID_MODULE_ID, devId, 0, none⟩ :: resps, devices, time)
      else if req.mem.offset > 255 then
        .ok ([⟨.EC_INVALID_MODULE_MEM_OFFSET, 0, 0, none⟩], devices, time)
      else if req.mem.page > 255 then
        .ok ([⟨.EC_INVALID_MODULE_MEM_PAGE, 0, 0, none⟩], devices, time)
      else if req.mem.data.length > (255 - req.mem.offset + 1).toNat then
        .ok ([⟨.EC_INVALID_MODULE_MEM_COUNT, 0, 0, none⟩], devices, time)
      else do
        let (resps, modules, time) := setModuleLoop dev.ram (decide (req.modId < 0)) devId req.mem
          (idRange req.modId dev.nports) dev.modules time
        let (rest, devices, time) ← setDeviceLoop req devIds
          (devices.set devId { dev with modules := modules }) time
        .ok (resps ++ rest, devices, time)

def setModuleMem (devices : List RamDevice) (req : ModuleMemRequest) (time : Nat)
    : Except Stop (List ModuleMemResponse × List RamDevice × Nat) :=
  if req.devId > (devices.length : Int) - 1 then
    .ok ([⟨.EC_INVALID_DEVICE_ID, 0, 0, none⟩], devices, time)
  else
    setDeviceLoop req (idRange req.devId devices.length) devices time

-- What the mailbox says about the presence of a module: bit 0 of its signals is set while it is not
-- held in reset, and bit 3 while it is absent
def cagePresence (cms : Cms) (modId time : Nat) : Except ErrorCode Unit :=
  match cms.post time (.readModuleLowSpeedIo (BitVec.ofNat 2 modId)) with
  | none => .error .EC_MODULE_GPIO_READ_FAILED
  | some mailbox =>
    if (mailbox 2).toNat.testBit 0 ∧ ¬ (mailbox 2).toNat.testBit 3 then
      .ok ()
    else
      .error .EC_MODULE_NOT_PRESENT

-- The code that a module is answered with once its presence is checked
def presenceCode (res : Except ErrorCode Unit) : ErrorCode :=
  match res with
  | .ok () => .EC_OK
  | .error err => err

-- What a byte of a module is addressed by on the mailbox
def byteSelect (modId : Nat) (page : UInt8) (address : Nat) : CmsOpModuleI2cSelect :=
  { cage := BitVec.ofNat 2 modId
    page := if address < cmsModulePageSize then 0 else page.toBitVec
    upper := decide (cmsModulePageSize ≤ address)
    sfpDiag := false
    cmisBankValid := false
    cmisBank := 0 }

-- How many bytes are written before the first one whose transaction the mailbox fails
def acceptedWrites (ram : CmsRam) (modId : Nat) (page : UInt8) (address : Nat) (data : List UInt8)
    (modules : BitVec 2 → CmsModule) (time : Nat)
    : Nat :=
  match data with
  | [] => 0
  | value :: data =>
    match ram.post time (byteSelect modId page address) (BitVec.ofNat 8 address) value.toBitVec
      modules with
    | none => 0
    | some modules => acceptedWrites ram modId page (address + 1) data modules (time + 1) + 1

-- The bytes that a request writes to a module
def writtenBytes (ram : CmsRam) (mem : ModuleMem) (modId : Nat) (modules : BitVec 2 → CmsModule)
    (time : Nat)
    : List UInt8 :=
  match cagePresence (ram.card modules) modId time with
  | .ok () =>
    mem.data.take (acceptedWrites ram modId mem.page.toUInt8 mem.offset.toNat mem.data modules
      (time + 1))
  | .error _ => []

-- The response for a module that is present says whether all of the bytes are among them
def writeResponse (ram : CmsRam) (isRange : Bool) (devId : Nat) (mem : ModuleMem) (modId : Nat)
    (modules : BitVec 2 → CmsModule) (time : Nat)
    : Option ModuleMemResponse :=
  match cagePresence (ram.card modules) modId time with
  | .ok () =>
    if writtenBytes ram mem modId modules time = mem.data then
      some ⟨.EC_OK, devId, modId, none⟩
    else
      some ⟨.EC_MODULE_MEM_WRITE_FAILED, devId, modId, none⟩
  | .error err => if isRange then none else some ⟨err, devId, modId, none⟩

def ModuleMemRequest.Accepted (req : ModuleMemRequest) : Prop :=
  req.mem.offset.toNat ≤ 255 ∧ req.mem.page.toNat ≤ 255 ∧
    req.mem.offset.toNat + req.mem.data.length ≤ 256

def ModuleMemRequest.Selects (req : ModuleMemRequest) (devices : List RamDevice)
    (devId modId : Nat) : Prop :=
  req.Accepted ∧ (req.devId < 0 ∨ req.devId = devId) ∧ (req.modId < 0 ∨ req.modId = modId) ∧
    ∃ dev, devices[devId]? = some dev ∧ modId < dev.nports

-- What an accepted request does to a device that it selects
def setDevice (req : ModuleMemRequest) (devId : Nat) (dev : RamDevice) (time : Nat)
    : List ModuleMemResponse × RamDevice × Nat :=
  if req.modId > (dev.nports : Int) - 1 then
    ([⟨.EC_INVALID_MODULE_ID, devId, 0, none⟩], dev, time)
  else
    let (resps, modules, time) := setModuleLoop dev.ram (decide (req.modId < 0)) devId req.mem
      (idRange req.modId dev.nports) dev.modules time
    (resps, { dev with modules := modules }, time)

-- The state in which a request comes to a module
def ModuleMemRequest.Reaches (req : ModuleMemRequest) (devices : List RamDevice) (time : Nat)
    (devId modId : Nat) (dev : RamDevice) (modules : BitVec 2 → CmsModule) (time' : Nat) : Prop :=
  ∃ resps devices' start,
    setDeviceLoop req ((idRange req.devId devices.length).takeWhile (· ≠ devId)) devices time =
      .ok (resps, devices', start) ∧
    (setModuleLoop dev.ram (decide (req.modId < 0)) devId req.mem
      ((idRange req.modId dev.nports).takeWhile (· ≠ modId)) dev.modules start).2 = (modules, time')

section Write

variable {ram : CmsRam}

theorem checkModulePresent_eq_cage (cms : Cms) (modId time : Nat)
    : checkModulePresent cms time modId = presenceCode (cagePresence cms modId time) := by
  unfold checkModulePresent cmsModuleGpioRead cagePresence
  rw [setWidth_ofNat]
  cases cms.post time (.readModuleLowSpeedIo (BitVec.ofNat 2 modId)) with
  | none => rfl
  | some mailbox =>
    simp only [Option.bind_eq_bind, Option.bind_some, Bool.not_not]
    cases (mailbox 2).toNat.testBit 0 <;> cases (mailbox 2).toNat.testBit 3 <;> rfl

theorem cagePresence_error {cms : Cms} {modId time : Nat} {err : ErrorCode}
    (h : cagePresence cms modId time = .error err)
    : err = .EC_MODULE_GPIO_READ_FAILED ∨ err = .EC_MODULE_NOT_PRESENT := by
  unfold cagePresence at h
  split at h
  . cases h
    exact .inl rfl
  . split at h
    . cases h
    . cases h
      exact .inr rfl

-- The address of a byte reaches the mailbox as it is
theorem cmsModuleByteWrite_cmsModuleId {address : Nat} (haddress : address < 256) (modId : Nat)
    (page : UInt32) (value : UInt8) (modules : BitVec 2 → CmsModule) (time : Nat)
    : cmsModuleByteWrite ram time (cmsModuleId modId page) (UInt8.ofNat address) value modules =
        ram.post time (byteSelect modId page.toUInt8 address) (BitVec.ofNat 8 address)
          value.toBitVec modules := by
  have htoNat : (UInt8.ofNat address).toNat = address := by
    rw [UInt8.toNat_ofNat']
    omega
  have hpage : (if cmsModulePageSize ≤ address then page.toUInt8 else 0).toBitVec =
      if address < cmsModulePageSize then 0 else page.toUInt8.toBitVec := by
    by_cases hlower : address < cmsModulePageSize
    . rw [if_pos hlower, if_neg (Nat.not_le.mpr hlower)]
      rfl
    . rw [if_neg hlower, if_pos (Nat.le_of_not_lt hlower)]
  unfold cmsModuleByteWrite cmsModuleId byteSelect
  simp only [htoNat, setWidth_ofNat, decide_eq_true_eq, hpage]
  rfl

theorem acceptedWrites_le (ram : CmsRam) (modId : Nat) (page : UInt8) (address : Nat)
    (data : List UInt8) (modules : BitVec 2 → CmsModule) (time : Nat)
    : acceptedWrites ram modId page address data modules time ≤ data.length := by
  induction data generalizing address modules time with
  | nil => exact le_refl 0
  | cons value data ih =>
    unfold acceptedWrites
    split
    . apply Nat.zero_le
    . apply Nat.succ_le_succ
      apply ih

-- The loop ends with the bytes stored that come before the first one that is refused
theorem writeBytes_spec (ram : CmsRam) (modId : Nat) (page : UInt32) {offset : UInt32}
    {data : List UInt8} (b : UInt32) (hfits : offset.toNat + b.toNat + data.length ≤ 256)
    (modules : BitVec 2 → CmsModule) (time : Nat)
    : ∃ n modules' time',
        n = acceptedWrites ram modId page.toUInt8 (offset.toNat + b.toNat) data modules time ∧
        writeBytes ram (cmsModuleId modId page) offset b data modules time =
          (if n = data.length then .EC_OK else .EC_MODULE_MEM_WRITE_FAILED, modules', time') ∧
        (modules (BitVec.ofNat 2 modId)).Stored (modules' (BitVec.ofNat 2 modId)) page.toUInt8
          (offset.toNat + b.toNat) (data.take n) ∧
        ∀ cage, cage ≠ BitVec.ofNat 2 modId → modules' cage = modules cage := by
  induction data generalizing b modules time with
  | nil => exact ⟨0, modules, time, rfl, rfl, CmsModule.Stored.nil, fun _ _ => rfl⟩
  | cons value data ih =>
    rw [List.length_cons] at hfits
    have haddress : (offset + b).toUInt8 = UInt8.ofNat (offset.toNat + b.toNat) := by
      apply UInt8.toNat_inj.mp
      rw [UInt32.toNat_toUInt8, UInt32.toNat_add, UInt8.toNat_ofNat']
      omega
    have htoNat : (UInt8.ofNat (offset.toNat + b.toNat)).toNat = offset.toNat + b.toNat := by
      rw [UInt8.toNat_ofNat']
      omega
    have hnext : (b + 1).toNat = b.toNat + 1 := by
      rw [UInt32.toNat_add]
      show (b.toNat + 1) % 2 ^ 32 = _
      omega
    have hpost := @cmsModuleByteWrite_cmsModuleId ram (offset.toNat + b.toNat) (by omega) modId page
      value modules time
    unfold writeBytes acceptedWrites
    rw [haddress, ← hpost]
    cases hwrite : cmsModuleByteWrite ram time (cmsModuleId modId page)
      (UInt8.ofNat (offset.toNat + b.toNat)) value modules with
    | none =>
      refine ⟨0, modules, time + 1, rfl, ?_, CmsModule.Stored.nil, fun _ _ => rfl⟩
      rw [if_neg (by simp)]
    | some modules₁ =>
      have hmodules₁ := cmsModuleByteWrite_eq hwrite rfl rfl
      have hcage : (cmsModuleId modId page).cage.toBitVec.setWidth 2 = BitVec.ofNat 2 modId :=
        setWidth_ofNat modId
      rw [htoNat, hcage] at hmodules₁
      obtain ⟨n, modules', time', hn, hloop, hstored, hkept⟩ := ih (b + 1) (by omega) modules₁
        (time + 1)
      rw [hnext] at hn hstored
      refine ⟨n + 1, modules', time', ?_, ?_, ?_, ?_⟩
      . rw [hn]
        rfl
      . simp only [hloop, List.length_cons, Nat.add_right_cancel_iff]
      . rw [hmodules₁, Function.update_self] at hstored
        apply CmsModule.Stored.cons (by omega)
        exact hstored
      . intro cage hne
        rw [hkept cage hne, hmodules₁, Function.update_of_ne hne]

variable {isRange : Bool} {devId : Nat} {mem : ModuleMem}

theorem setModule_spec (ram : CmsRam) (isRange : Bool) (devId : Nat) (hfits : mem.offset.toNat + mem.data.length ≤ 256) (modId : Nat)
    (modules : BitVec 2 → CmsModule) (time : Nat)
    : ∃ modules' time', setModule ram isRange devId mem modId modules time =
          (writeResponse ram isRange devId mem modId modules time, modules', time') ∧
        (modules (BitVec.ofNat 2 modId)).Stored (modules' (BitVec.ofNat 2 modId))
          mem.page.toUInt8 mem.offset.toNat (writtenBytes ram mem modId modules time) ∧
        ∀ cage, cage ≠ BitVec.ofNat 2 modId → modules' cage = modules cage := by
  unfold setModule writeResponse writtenBytes
  rw [checkModulePresent_eq_cage]
  unfold presenceCode
  cases hpresent : cagePresence (ram.card modules) modId time with
  | ok _ =>
    obtain ⟨n, modules', time', hn, hloop, hstored, hkept⟩ := writeBytes_spec ram modId mem.page 0
      (by simpa using hfits) modules (time + 1)
    have hle := acceptedWrites_le ram modId mem.page.toUInt8 mem.offset.toNat mem.data modules
      (time + 1)
    simp only [UInt32.toNat_zero, Nat.add_zero] at hn hstored
    have htake : mem.data.take n = mem.data ↔ n = mem.data.length := by
      rw [List.take_eq_self_iff]
      omega
    simp only [hloop, ← hn, htake]
    refine ⟨modules', time', ?_, hstored, hkept⟩
    split <;> rfl
  | error err =>
    refine ⟨modules, time + 1, ?_, CmsModule.Stored.nil, fun _ _ => rfl⟩
    rcases cagePresence_error hpresent with rfl | rfl <;> cases isRange <;> rfl

theorem writeResponse_ids {modId : Nat} {modules : BitVec 2 → CmsModule} {time : Nat}
    {resp : ModuleMemResponse}
    (h : resp ∈ (writeResponse ram isRange devId mem modId modules time).toList)
    : resp.devId = devId ∧ resp.modId = modId := by
  unfold writeResponse at h
  rw [Option.mem_toList] at h
  split at h
  . split at h <;> cases h <;> exact ⟨rfl, rfl⟩
  . split at h <;> cases h
    exact ⟨rfl, rfl⟩

theorem ofNat_ne {m n : Nat} (hm : m < 4) (hn : n < 4) (hne : m ≠ n)
    : BitVec.ofNat 2 m ≠ BitVec.ofNat 2 n := by
  intro h
  have htoNat := congrArg BitVec.toNat h
  rw [BitVec.toNat_ofNat, BitVec.toNat_ofNat] at htoNat
  omega

theorem filter_append_of_ne {p : ModuleMemResponse → Bool} {l l' : List ModuleMemResponse}
    (h : ∀ resp ∈ l, ¬ p resp)
    : (l ++ l').filter p = l'.filter p := by
  rw [List.filter_append, List.filter_eq_nil_iff.mpr h, List.nil_append]

theorem filter_append_of_all {p : ModuleMemResponse → Bool} {l l' : List ModuleMemResponse}
    (h : ∀ resp ∈ l, p resp) (h' : ∀ resp ∈ l', ¬ p resp)
    : (l ++ l').filter p = l := by
  rw [List.filter_append, List.filter_eq_nil_iff.mpr h', List.filter_eq_self.mpr h, List.append_nil]

-- Each module has its own response, and its own bytes, from the state in which the loop comes to it
theorem setModuleLoop_spec (ram : CmsRam) (isRange : Bool) (devId : Nat)
    (hfits : mem.offset.toNat + mem.data.length ≤ 256) {modIds : List Nat}
    (hnodup : modIds.Nodup) (hlt : ∀ modId ∈ modIds, modId < 4) (modules : BitVec 2 → CmsModule)
    (time : Nat)
    : ∃ resps modules' time', setModuleLoop ram isRange devId mem modIds modules time =
          (resps, modules', time') ∧
        (∀ resp ∈ resps, resp.devId = devId ∧ resp.modId ∈ modIds) ∧
        (∀ modId ∈ modIds, ∃ modules₁ time₁,
          (setModuleLoop ram isRange devId mem (modIds.takeWhile (· ≠ modId)) modules time).2 =
            (modules₁, time₁) ∧
          resps.filter (fun resp => resp.modId = modId) =
            (writeResponse ram isRange devId mem modId modules₁ time₁).toList ∧
          (modules (BitVec.ofNat 2 modId)).Stored (modules' (BitVec.ofNat 2 modId))
            mem.page.toUInt8 mem.offset.toNat (writtenBytes ram mem modId modules₁ time₁)) ∧
        ∀ cage, (∀ modId ∈ modIds, cage ≠ BitVec.ofNat 2 modId) → modules' cage = modules cage := by
  induction modIds generalizing modules time with
  | nil => exact ⟨[], modules, time, rfl, by simp, by simp, fun _ _ => rfl⟩
  | cons modId modIds ih =>
    obtain ⟨hnew, hnodup⟩ := List.nodup_cons.mp hnodup
    have hhead := hlt modId List.mem_cons_self
    have htail : ∀ modId' ∈ modIds, modId' < 4 := by
      intro modId' hmem
      exact hlt modId' (List.mem_cons_of_mem _ hmem)
    obtain ⟨modules₁, time₁, hset, hstored, hkept⟩ := setModule_spec ram isRange devId hfits modId
      modules time
    obtain ⟨resps, modules', time', hloop, hids, hmodules, hothers⟩ := ih hnodup htail modules₁
      time₁
    have hcons : ∀ l, setModuleLoop ram isRange devId mem (modId :: l) modules time =
        ((writeResponse ram isRange devId mem modId modules time).toList ++
            (setModuleLoop ram isRange devId mem l modules₁ time₁).1,
          (setModuleLoop ram isRange devId mem l modules₁ time₁).2) := by
      intro l
      rw [setModuleLoop, hset]
    refine ⟨_ ++ resps, modules', time', by rw [hcons, hloop], ?_, ?_, ?_⟩
    . intro resp hresp
      rcases List.mem_append.mp hresp with hresp | hresp
      . obtain ⟨hdevId, hmodId⟩ := writeResponse_ids hresp
        rw [hmodId]
        exact ⟨hdevId, List.mem_cons_self⟩
      . obtain ⟨hdevId, hmodId⟩ := hids resp hresp
        exact ⟨hdevId, List.mem_cons_of_mem _ hmodId⟩
    . intro modId' hmem
      rcases List.mem_cons.mp hmem with rfl | hmem
      . -- The module is the first one, and the later ones have cages of their own
        refine ⟨modules, time, by simp [setModuleLoop], ?_, ?_⟩
        . apply filter_append_of_all
          . intro resp hresp
            simpa using (writeResponse_ids hresp).2
          . intro resp hresp heq
            simp only [decide_eq_true_eq] at heq
            exact hnew (heq ▸ (hids resp hresp).2)
        . rw [hothers]
          . exact hstored
          . intro modId'' hmem
            apply ofNat_ne hhead (htail _ hmem)
            rintro rfl
            exact hnew hmem
      . have hne : modId ≠ modId' := by
          rintro rfl
          exact hnew hmem
        obtain ⟨modules₂, time₂, hbefore, hresp, hstored'⟩ := hmodules modId' hmem
        refine ⟨modules₂, time₂, ?_, ?_, ?_⟩
        . rw [List.takeWhile_cons_of_pos (by simpa using hne), hcons, hbefore]
        . rw [filter_append_of_ne, hresp]
          intro resp hresp heq
          rw [(writeResponse_ids hresp).2] at heq
          simp only [decide_eq_true_eq] at heq
          exact hne heq
        . rw [hkept _ (ofNat_ne (htail _ hmem) hhead hne.symm)] at hstored'
          exact hstored'
    . intro cage hcage
      rw [hothers, hkept]
      . exact hcage modId List.mem_cons_self
      . intro modId' hmem
        exact hcage modId' (List.mem_cons_of_mem _ hmem)

end Write

section Request

variable {req : ModuleMemRequest}

theorem accepted_iff
    : req.Accepted ↔ ¬ req.mem.offset > 255 ∧ ¬ req.mem.page > 255 ∧
        ¬ req.mem.data.length > (255 - req.mem.offset + 1).toNat := by
  have hoffset : ¬ req.mem.offset > 255 ↔ req.mem.offset.toNat ≤ 255 := by
    rw [gt_iff_lt, UInt32.lt_iff_toNat_lt]
    exact Nat.not_lt
  have hpage : ¬ req.mem.page > 255 ↔ req.mem.page.toNat ≤ 255 := by
    rw [gt_iff_lt, UInt32.lt_iff_toNat_lt]
    exact Nat.not_lt
  unfold ModuleMemRequest.Accepted
  rw [hoffset, hpage]
  constructor
  . rintro ⟨hoffset, hpage, hfits⟩
    rw [toNat_max_count hoffset]
    exact ⟨hoffset, hpage, by omega⟩
  . rintro ⟨hoffset, hpage, hfits⟩
    rw [toNat_max_count hoffset] at hfits
    exact ⟨hoffset, hpage, by omega⟩

theorem setDeviceLoop_cons (haccepted : req.Accepted) {devices : List RamDevice} {devId : Nat}
    {dev : RamDevice} (hdev : devices[devId]? = some dev) (devIds : List Nat) (time : Nat)
    : setDeviceLoop req (devId :: devIds) devices time =
        (setDeviceLoop req devIds (devices.set devId (setDevice req devId dev time).2.1)
          (setDevice req devId dev time).2.2).map fun res =>
            ((setDevice req devId dev time).1 ++ res.1, res.2) := by
  obtain ⟨hoffset, hpage, hcount⟩ := accepted_iff.mp haccepted
  unfold setDevice
  rw [setDeviceLoop, hdev]
  by_cases hmodId : req.modId > (dev.nports : Int) - 1
  . have hset : devices.set devId dev = devices := by
      obtain ⟨hlt, heq⟩ := List.getElem?_eq_some_iff.mp hdev
      rw [← heq, List.set_getElem_self]
    simp only [if_pos hmodId, hset]
    cases setDeviceLoop req devIds devices time <;> rfl
  . simp only [if_neg hmodId, if_neg hoffset, if_neg hpage, if_neg hcount]
    cases setDeviceLoop req devIds _ _ <;> rfl

-- A request that is not accepted does nothing
theorem setDeviceLoop_rejected (hnot : ¬ req.Accepted) {devIds : List Nat}
    {devices : List RamDevice} (hlt : ∀ devId ∈ devIds, devId < devices.length) (time : Nat)
    : ∃ resps, setDeviceLoop req devIds devices time = .ok (resps, devices, time) ∧
        ∀ resp ∈ resps, resp.errorCode ≠ .EC_OK ∧
          resp.errorCode ≠ .EC_MODULE_MEM_WRITE_FAILED := by
  induction devIds with
  | nil => exact ⟨[], rfl, by simp⟩
  | cons devId devIds ih =>
    have hdev := List.getElem?_eq_getElem (hlt devId List.mem_cons_self)
    obtain ⟨resps, hloop, hresps⟩ := ih fun devId' hmem => hlt devId' (List.mem_cons_of_mem _ hmem)
    rw [setDeviceLoop, hdev]
    simp only
    split
    . refine ⟨⟨.EC_INVALID_MODULE_ID, devId, 0, none⟩ :: resps, by rw [hloop]; rfl, ?_⟩
      intro resp hresp
      rcases List.mem_cons.mp hresp with rfl | hresp
      . exact ⟨by simp, by simp⟩
      . exact hresps resp hresp
    . by_cases hoffset : req.mem.offset > 255
      . exact ⟨_, by rw [if_pos hoffset], by simp⟩
      by_cases hpage : req.mem.page > 255
      . exact ⟨_, by rw [if_neg hoffset, if_pos hpage], by simp⟩
      by_cases hcount : req.mem.data.length > (255 - req.mem.offset + 1).toNat
      . exact ⟨_, by rw [if_neg hoffset, if_neg hpage, if_pos hcount], by simp⟩
      exact absurd (accepted_iff.mpr ⟨hoffset, hpage, hcount⟩) hnot

theorem idRange_nodup (id : Int) (n : Nat) : (idRange id n).Nodup := by
  unfold idRange
  split
  . exact List.nodup_singleton _
  . exact List.nodup_range

theorem setDevice_devId (haccepted : req.Accepted) (devId : Nat) (dev : RamDevice) (time : Nat)
    : ∀ resp ∈ (setDevice req devId dev time).1, resp.devId = devId := by
  unfold setDevice
  split
  . simp
  . rename_i hmodId
    obtain ⟨resps, modules', time', hloop, hids, _⟩ := setModuleLoop_spec dev.ram
      (decide (req.modId < 0)) devId haccepted.2.2 (idRange_nodup _ _)
      (fun modId hmem => lt_of_lt_of_le (idRange_lt hmodId hmem) dev.nports_le) dev.modules time
    simp only [hloop]
    intro resp hresp
    exact (hids resp hresp).1

-- Each device has its own responses, from the time at which the loop comes to it
theorem setDeviceLoop_spec (haccepted : req.Accepted) {devIds : List Nat} (hnodup : devIds.Nodup)
    {devices : List RamDevice} (hlt : ∀ devId ∈ devIds, devId < devices.length) (time : Nat)
    : ∃ resps devices' time', setDeviceLoop req devIds devices time =
          .ok (resps, devices', time') ∧
        devices'.length = devices.length ∧
        (∀ resp ∈ resps, resp.devId ∈ devIds) ∧
        (∀ devId ∈ devIds, ∀ dev, devices[devId]? = some dev → ∃ before devices₁ start,
          setDeviceLoop req (devIds.takeWhile (· ≠ devId)) devices time =
            .ok (before, devices₁, start) ∧
          resps.filter (fun resp => resp.devId = devId) = (setDevice req devId dev start).1 ∧
          devices'[devId]? = some (setDevice req devId dev start).2.1) ∧
        ∀ devId, devId ∉ devIds → devices'[devId]? = devices[devId]? := by
  induction devIds generalizing devices time with
  | nil => exact ⟨[], devices, time, rfl, rfl, by simp, by simp, fun _ _ => rfl⟩
  | cons devId devIds ih =>
    obtain ⟨hnew, hnodup⟩ := List.nodup_cons.mp hnodup
    have hhead := hlt devId List.mem_cons_self
    have hdev := List.getElem?_eq_getElem hhead
    obtain ⟨resps, dev', time₁, hset⟩ : ∃ resps dev' time₁,
        setDevice req devId devices[devId] time = (resps, dev', time₁) := ⟨_, _, _, rfl⟩
    have hids := setDevice_devId haccepted devId devices[devId] time
    have htail : ∀ devId' ∈ devIds, devId' < (devices.set devId dev').length := by
      intro devId' hmem
      rw [List.length_set]
      exact hlt devId' (List.mem_cons_of_mem _ hmem)
    obtain ⟨rest, devices', time', hloop, hlen, hrest, hdevices, hothers⟩ := ih hnodup htail time₁
    have hcons : ∀ l, setDeviceLoop req (devId :: l) devices time =
        (setDeviceLoop req l (devices.set devId dev') time₁).map fun res =>
          (resps ++ res.1, res.2) := by
      intro l
      rw [setDeviceLoop_cons haccepted hdev, hset]
    rw [hset] at hids
    refine ⟨resps ++ rest, devices', time', by rw [hcons, hloop]; rfl, ?_, ?_, ?_, ?_⟩
    . rw [hlen, List.length_set]
    . intro resp hresp
      rcases List.mem_append.mp hresp with hresp | hresp
      . rw [hids resp hresp]
        exact List.mem_cons_self
      . exact List.mem_cons_of_mem _ (hrest resp hresp)
    . intro devId' hmem dev hdev'
      rcases List.mem_cons.mp hmem with rfl | hmem
      . rw [hdev] at hdev'
        cases hdev'
        refine ⟨[], devices, time, by simp [setDeviceLoop], ?_, ?_⟩
        . rw [hset]
          apply filter_append_of_all
          . intro resp hresp
            simpa using hids resp hresp
          . intro resp hresp heq
            simp only [decide_eq_true_eq] at heq
            exact hnew (heq ▸ hrest resp hresp)
        . rw [hothers _ hnew, hset, List.getElem?_set_self hhead]
      . have hne : devId ≠ devId' := by
          rintro rfl
          exact hnew hmem
        obtain ⟨before, devices₁, start, hbefore, hresps, hdev₁⟩ := hdevices devId' hmem dev (by
          rw [List.getElem?_set_ne hne, hdev'])
        refine ⟨resps ++ before, devices₁, start, ?_, ?_, hdev₁⟩
        . rw [List.takeWhile_cons_of_pos (by simpa using hne), hcons, hbefore]
          rfl
        . rw [filter_append_of_ne, hresps]
          intro resp hresp heq
          rw [hids resp hresp] at heq
          simp only [decide_eq_true_eq] at heq
          exact hne heq
    . intro devId' hmem
      have hne : devId ≠ devId' := by
        rintro rfl
        exact hmem List.mem_cons_self
      rw [hothers devId' (fun h => hmem (List.mem_cons_of_mem _ h)), List.getElem?_set_ne hne]

theorem mem_idRange {id : Int} {n k : Nat} (hid : ¬ id > (n : Int) - 1)
    : k ∈ idRange id n ↔ (id < 0 ∨ id = k) ∧ k < n := by
  unfold idRange
  split
  . rw [List.mem_singleton]
    omega
  . rw [List.mem_range]
    omega

-- A response about the writes to a module is for one that the request selects
theorem setDevice_selects (haccepted : req.Accepted) (devId : Nat) (dev : RamDevice) (time : Nat)
    {resp : ModuleMemResponse} (hresp : resp ∈ (setDevice req devId dev time).1)
    (hcode : resp.errorCode = .EC_OK ∨ resp.errorCode = .EC_MODULE_MEM_WRITE_FAILED)
    : (req.modId < 0 ∨ req.modId = resp.modId) ∧ resp.modId < dev.nports := by
  unfold setDevice at hresp
  split at hresp
  . rw [List.mem_singleton] at hresp
    subst hresp
    simp at hcode
  . rename_i hmodId
    obtain ⟨resps, modules', time', hloop, hids, _⟩ := setModuleLoop_spec dev.ram
      (decide (req.modId < 0)) devId haccepted.2.2 (idRange_nodup _ _)
      (fun modId hmem => lt_of_lt_of_le (idRange_lt hmodId hmem) dev.nports_le) dev.modules time
    simp only [hloop] at hresp
    exact (mem_idRange hmodId).mp (hids resp hresp).2

theorem setDevice_spec (haccepted : req.Accepted) (devId : Nat) (dev : RamDevice) (time : Nat)
    : (setDevice req devId dev time).2.1.ram = dev.ram ∧
        (setDevice req devId dev time).2.1.nports = dev.nports ∧
        (∀ modId : Nat, (req.modId < 0 ∨ req.modId = modId) → modId < dev.nports → ∃ modules₁ time₁,
          (setModuleLoop dev.ram (decide (req.modId < 0)) devId req.mem
            ((idRange req.modId dev.nports).takeWhile (· ≠ modId)) dev.modules time).2 =
              (modules₁, time₁) ∧
          (setDevice req devId dev time).1.filter (fun resp => resp.modId = modId) =
            (writeResponse dev.ram (decide (req.modId < 0)) devId req.mem modId modules₁
              time₁).toList ∧
          (dev.modules (BitVec.ofNat 2 modId)).Stored
            ((setDevice req devId dev time).2.1.modules (BitVec.ofNat 2 modId))
            req.mem.page.toUInt8 req.mem.offset.toNat
            (writtenBytes dev.ram req.mem modId modules₁ time₁)) ∧
        ∀ modId : Nat, modId < 4 → ¬ ((req.modId < 0 ∨ req.modId = modId) ∧ modId < dev.nports) →
          (setDevice req devId dev time).2.1.modules (BitVec.ofNat 2 modId) =
            dev.modules (BitVec.ofNat 2 modId) := by
  unfold setDevice
  by_cases hmodId : req.modId > (dev.nports : Int) - 1
  . simp only [if_pos hmodId]
    refine ⟨trivial, trivial, ?_, fun _ _ _ => trivial⟩
    intro modId hsel hlt
    omega
  . have hlt : ∀ modId ∈ idRange req.modId dev.nports, modId < 4 := by
      intro modId hmem
      exact lt_of_lt_of_le (idRange_lt hmodId hmem) dev.nports_le
    obtain ⟨resps, modules', time', hloop, _, hmodules, hothers⟩ := setModuleLoop_spec dev.ram
      (decide (req.modId < 0)) devId haccepted.2.2 (idRange_nodup _ _) hlt dev.modules time
    simp only [if_neg hmodId, hloop]
    refine ⟨trivial, trivial, ?_, ?_⟩
    . intro modId hsel hlt
      exact hmodules modId ((mem_idRange hmodId).mpr ⟨hsel, hlt⟩)
    . intro modId hmodId' hsel
      apply hothers
      intro modId' hmem
      apply ofNat_ne hmodId' (hlt modId' hmem)
      rintro rfl
      exact hsel ((mem_idRange hmodId).mp hmem)

theorem setModuleMem_spec (devices : List RamDevice) (req : ModuleMemRequest) (time : Nat)
    : ∃ resps devices' time', setModuleMem devices req time = .ok (resps, devices', time') ∧
        devices'.length = devices.length ∧
        (∀ resp ∈ resps,
          resp.errorCode = .EC_OK ∨ resp.errorCode = .EC_MODULE_MEM_WRITE_FAILED →
            req.Selects devices resp.devId resp.modId) ∧
        ∀ devId dev, devices[devId]? = some dev → ∃ dev', devices'[devId]? = some dev' ∧
          dev'.ram = dev.ram ∧ dev'.nports = dev.nports ∧
          (∀ modId, req.Selects devices devId modId → ∃ modules₁ time₁,
            req.Reaches devices time devId modId dev modules₁ time₁ ∧
            resps.filter (fun resp => resp.devId = devId ∧ resp.modId = modId) =
              (writeResponse dev.ram (decide (req.modId < 0)) devId req.mem modId modules₁
                time₁).toList ∧
            (dev.modules (BitVec.ofNat 2 modId)).Stored (dev'.modules (BitVec.ofNat 2 modId))
              req.mem.page.toUInt8 req.mem.offset.toNat
              (writtenBytes dev.ram req.mem modId modules₁ time₁)) ∧
          ∀ modId < 4, ¬ req.Selects devices devId modId →
            dev'.modules (BitVec.ofNat 2 modId) = dev.modules (BitVec.ofNat 2 modId) := by
  unfold setModuleMem
  by_cases hdevId : req.devId > (devices.length : Int) - 1
  . refine ⟨_, devices, time, by rw [if_pos hdevId], rfl, by simp, ?_⟩
    intro devId dev hdev
    refine ⟨dev, hdev, rfl, rfl, ?_, fun _ _ _ => rfl⟩
    rintro modId ⟨_, hsel, _⟩
    have := (List.getElem?_eq_some_iff.mp hdev).1
    omega
  rw [if_neg hdevId]
  have hlt : ∀ devId ∈ idRange req.devId devices.length, devId < devices.length := by
    intro devId hmem
    exact idRange_lt hdevId hmem
  by_cases haccepted : req.Accepted
  . obtain ⟨resps, devices', time', hloop, hlen, hids, hdevices, hothers⟩ :=
      setDeviceLoop_spec haccepted (idRange_nodup _ _) hlt time
    refine ⟨resps, devices', time', hloop, hlen, ?_, ?_⟩
    . intro resp hresp hcode
      have hmem := hids resp hresp
      obtain ⟨dev, hdev⟩ : ∃ dev, devices[resp.devId]? = some dev :=
        ⟨_, List.getElem?_eq_getElem (hlt _ hmem)⟩
      obtain ⟨_, _, start, _, hresps, _⟩ := hdevices resp.devId hmem dev hdev
      have hresp' : resp ∈ (setDevice req resp.devId dev start).1 := by
        rw [← hresps]
        exact List.mem_filter.mpr ⟨hresp, by simp⟩
      obtain ⟨hsel, hlt'⟩ := setDevice_selects haccepted _ _ _ hresp' hcode
      exact ⟨haccepted, ((mem_idRange hdevId).mp hmem).1, hsel, _, hdev, hlt'⟩
    . intro devId dev hdev
      have hlt' := (List.getElem?_eq_some_iff.mp hdev).1
      by_cases hmem : devId ∈ idRange req.devId devices.length
      . obtain ⟨before, devices₁, start, hbefore, hresps, hdev'⟩ := hdevices devId hmem dev hdev
        obtain ⟨hram, hnports, hmodules, hkept⟩ := setDevice_spec haccepted devId dev start
        refine ⟨_, hdev', hram, hnports, ?_, ?_⟩
        . rintro modId ⟨_, _, hsel, dev₁, hdev₁, hport⟩
          rw [hdev] at hdev₁
          cases hdev₁
          obtain ⟨modules₁, time₁, hreach, hfilter, hstored⟩ := hmodules modId hsel hport
          refine ⟨modules₁, time₁, ⟨before, devices₁, start, hbefore, hreach⟩, ?_, hstored⟩
          rw [← hfilter, ← hresps, List.filter_filter]
          congr 1
          funext resp
          simp [Bool.and_comm]
        . intro modId hmodId hnot
          apply hkept modId hmodId
          rintro ⟨hsel, hport⟩
          exact hnot ⟨haccepted, ((mem_idRange hdevId).mp hmem).1, hsel, dev, hdev, hport⟩
      . refine ⟨dev, by rw [hothers devId hmem, hdev], rfl, rfl, ?_, fun _ _ _ => rfl⟩
        rintro modId ⟨_, hsel, _⟩
        exact absurd ((mem_idRange hdevId).mpr ⟨hsel, hlt'⟩) hmem
  . obtain ⟨resps, hloop, hresps⟩ := setDeviceLoop_rejected haccepted hlt time
    refine ⟨resps, devices, time, hloop, rfl, ?_, ?_⟩
    . rintro resp hresp (hok | hfailed)
      . exact absurd hok (hresps resp hresp).1
      . exact absurd hfailed (hresps resp hresp).2
    . intro devId dev hdev
      refine ⟨dev, hdev, rfl, rfl, ?_, fun _ _ _ => rfl⟩
      rintro modId ⟨hacc, _⟩
      exact absurd hacc haccepted

theorem writeResponse_ok {ram : CmsRam} {isRange : Bool} {devId modId : Nat} {mem : ModuleMem}
    {modules : BitVec 2 → CmsModule} {time : Nat} {resp : ModuleMemResponse}
    (h : resp ∈ (writeResponse ram isRange devId mem modId modules time).toList)
    (hok : resp.errorCode = .EC_OK)
    : writtenBytes ram mem modId modules time = mem.data := by
  unfold writeResponse at h
  rw [Option.mem_toList] at h
  split at h
  . split at h
    . assumption
    . cases h
      contradiction
  . next err herr =>
    split at h
    . contradiction
    . cases h
      rcases cagePresence_error herr with rfl | rfl <;> contradiction

-- What a read returns of bytes that have been stored
theorem reads_stored {mem get : ModuleMem} {before after : CmsModule} {offset page : UInt32}
    {data : List UInt8} (hreads : mem.Reads get after)
    (hstored : before.Stored after page.toUInt8 offset.toNat data) (hoffset : get.offset = offset)
    (hpage : get.page = page) (hcount : get.count.toNat = data.length) (hne : get.count ≠ 0)
    : mem.data = data := by
  have hlen : mem.count.toNat = data.length := by rw [hreads.count_eq hne, hcount]
  apply List.ext_getElem?
  intro i
  by_cases hi : i < data.length
  . rw [hreads.data_eq i (by omega), hreads.offset_eq, hreads.page_eq, hoffset, hpage]
    exact hstored.byte_eq hi
  . have hout : mem.data.length ≤ i := by
      rw [hreads.length_eq]
      omega
    rw [List.getElem?_eq_none hout, List.getElem?_eq_none (by omega)]

end Request

-- Two bytes, one in each page
example : (setModuleMem [⟨CmsRam.ideal fun _ => true, fun _ => addressModule, 2, by decide⟩]
    ⟨0, 1, ⟨127, 3, 0, [7, 9]⟩⟩ 0).map (fun res => (res.1, res.2.1.map fun dev =>
      ((dev.modules 1).byte 5 127, (dev.modules 1).byte 3 128, (dev.modules 1).byte 5 128))) =
    .ok ([⟨.EC_OK, 0, 1, none⟩], [(some 7, some 9, some 128)]) := by decide +kernel

end SnCfg
