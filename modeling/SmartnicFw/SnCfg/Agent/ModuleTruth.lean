import SmartnicFw.SnCfg.Agent.ModuleReports

/-!
This module contains for which requests about modules, and in which states of the modules, all
responses report what is so.
-/

namespace SnCfg

section GetMem

variable {req : ModuleMemRequest} {fuel : Nat} {stack : Nat → UInt8}

-- The checks of the range that is to be read
def getMemRefused (mem : ModuleMem) : Option ErrorCode :=
  if mem.offset > 255 then
    some .EC_INVALID_MODULE_MEM_OFFSET
  else if mem.page > 255 then
    some .EC_INVALID_MODULE_MEM_PAGE
  else if 1 ≤ mem.count ∧ mem.count > 255 - mem.offset + 1 then
    some .EC_INVALID_MODULE_MEM_COUNT
  else
    none

def getMemCount (mem : ModuleMem) : UInt32 := if mem.count < 1 then 128 else mem.count

def getMemRange (cms : Cms) (mem : ModuleMem) (modId time : Nat) : Except ErrorCode Unit × Nat :=
  rangeRead cms (cmsModuleId modId mem.page) mem.offset (getMemCount mem) time

def getMemNext (mem : ModuleMem) (_ : Nat) (dev : Device) (modId time : Nat) : Nat :=
  match modulePresent dev.cms modId time with
  | .ok () => (getMemRange dev.cms mem modId (time + 1)).2
  | .error _ => time + 1

def getMemFound (mem : ModuleMem) (_ : Nat) (dev : Device) (modId time : Nat)
    : Except ErrorCode (Option ModuleMem → Prop) := do
  modulePresent dev.cms modId time
  (getMemRange dev.cms mem modId (time + 1)).1
  .ok fun content => ∃ read : ModuleMem, content = some read ∧
    read.Reads mem (moduleOf dev.cms modId)

def ModuleMemResponse.report (resp : ModuleMemResponse) : ModuleResponse ModuleMem :=
  ⟨resp.errorCode, resp.devId, resp.modId, resp.mem⟩

-- The response that the loop over the modules writes for one of them
def getMemResponse (fuel : Nat) (stack : Nat → UInt8) (mem : ModuleMem) (isRange : Bool)
    (devId : Nat) (dev : Device) (modId time : Nat)
    : Option (ModuleResponse ModuleMem) × Nat :=
  let resp := match modulePresent dev.cms modId time with
    | .ok () =>
      match readModuleMem dev.cms fuel stack (cmsModuleId modId mem.page) mem.offset mem.page
        (getMemCount mem) (time + 1) with
      | .ok (.ok read, _) => some ⟨.EC_OK, devId, modId, some read⟩
      | .ok (.error err, _) => some ⟨err, devId, modId, none⟩
      | .error _ => none
    | .error err => if isRange then none else some ⟨err, devId, modId, none⟩
  (resp, getMemNext mem devId dev modId time)

-- What the checks leave is in the range that the copies stay in
structure ModuleMem.Checked (mem : ModuleMem) : Prop where
  offset_le : mem.offset.toNat ≤ 255
  range_le : mem.count ≠ 0 → mem.offset.toNat + mem.count.toNat ≤ 256
  count_pos : 1 ≤ (getMemCount mem).toNat
  count_le : (getMemCount mem).toNat ≤ 256 - mem.offset.toNat % 128

theorem checked_of_not_refused {mem : ModuleMem} (h : getMemRefused mem = none)
    : mem.Checked := by
  unfold getMemRefused at h
  split at h
  . contradiction
  . next hoffset =>
    split at h
    . contradiction
    . split at h
      . contradiction
      . next hcount =>
        obtain ⟨h₁, h₂, h₃, h₄⟩ := checked_range hoffset hcount
        exact ⟨h₁, h₂, h₃, h₄⟩

theorem readModuleMem_of_checked {mem : ModuleMem} (hchecked : mem.Checked) (fuel : Nat)
    (stack : Nat → UInt8) (cms : Cms) (modId time : Nat)
    : ∃ res, readModuleMem cms (fuel + 2) stack (cmsModuleId modId mem.page) mem.offset mem.page
          (getMemCount mem) time = .ok (res, (getMemRange cms mem modId time).2) ∧
        (getMemRange cms mem modId time).1 = res.map (fun _ => ()) ∧
        ∀ read, res = .ok read →
          read.Copied mem.offset mem.page (getMemCount mem) (moduleOf cms modId) := by
  obtain ⟨res, hread, hres, hcopied⟩ := readModuleMem_spec (cmsModuleId modId mem.page)
    (show 2 ≤ fuel + 2 by omega) rfl rfl (show _ = mem.page.toUInt8 from rfl) hchecked.offset_le
    hchecked.count_pos hchecked.count_le cms stack time
  refine ⟨res, hread, hres, ?_⟩
  intro read hok
  have hmodule := hcopied read hok
  unfold CmsModuleId.module cmsModuleId at hmodule
  rw [setWidth_ofNat] at hmodule
  exact hmodule

theorem moduleLoop_eq {mem : ModuleMem} (hchecked : mem.Checked) (fuel : Nat) (stack : Nat → UInt8)
    (isRange : Bool) (devId : Nat) (dev : Device) (modIds : List Nat) (time : Nat)
    : ∃ resps time', moduleLoop dev.cms (fuel + 2) stack isRange devId mem.offset mem.page
          (getMemCount mem) modIds time = .ok (resps, time') ∧
        moduleResponses (getMemResponse (fuel + 2) stack mem isRange devId dev) modIds time =
          (resps.map ModuleMemResponse.report, time') := by
  induction modIds generalizing time with
  | nil => exact ⟨[], time, rfl, rfl⟩
  | cons modId modIds ih =>
    obtain ⟨resps, time', hloop, hresps⟩ := ih (getMemNext mem devId dev modId time)
    unfold moduleLoop moduleResponses
    rw [checkModulePresent_eq]
    unfold presenceCode
    simp only [getMemResponse]
    cases hpresent : modulePresent dev.cms modId time with
    | ok _ =>
      have hnext : getMemNext mem devId dev modId time =
          (getMemRange dev.cms mem modId (time + 1)).2 := by
        unfold getMemNext
        rw [hpresent]
      obtain ⟨res, hread, -, -⟩ := readModuleMem_of_checked hchecked fuel stack dev.cms modId
        (time + 1)
      rw [hnext] at hloop hresps ⊢
      rw [hresps]
      simp only [hread, bind, Except.bind, hloop]
      cases res <;> exact ⟨_, _, rfl, rfl⟩
    | error err =>
      have hnext : getMemNext mem devId dev modId time = time + 1 := by
        unfold getMemNext
        rw [hpresent]
      rw [hnext] at hloop hresps ⊢
      rw [hresps]
      rcases modulePresent_error hpresent with ⟨rfl, -⟩ | ⟨rfl, -⟩ <;>
        simp only [bind, Except.bind, hloop] <;>
        cases isRange <;> exact ⟨_, _, rfl, rfl⟩

theorem deviceLoop_eq {devices : List Device} (fuel : Nat) (stack : Nat → UInt8)
    (req : ModuleMemRequest) (devIds : List Nat) (h : ∀ devId ∈ devIds, devId < devices.length)
    (time : Nat)
    : ∃ resps, deviceLoop devices (fuel + 2) stack req devIds time = .ok resps ∧
        deviceResponses devices Device.nports ⟨req.devId, req.modId, getMemRefused req.mem⟩
          (getMemResponse (fuel + 2) stack req.mem (decide (req.modId < 0))) devIds time =
          .ok (resps.map ModuleMemResponse.report) := by
  induction devIds generalizing time with
  | nil => exact ⟨[], rfl, rfl⟩
  | cons devId devIds ih =>
    have hlt : devId < devices.length := h devId List.mem_cons_self
    have hdev := List.getElem?_eq_getElem hlt
    have hrest := ih fun devId hmem => h devId (List.mem_cons_of_mem _ hmem)
    unfold deviceLoop deviceResponses
    simp only [hdev]
    by_cases hmod : req.modId > (devices[devId].nports : Int) - 1
    . obtain ⟨resps, hloop, hresps⟩ := hrest time
      rw [if_pos hmod, if_pos hmod, hloop, hresps]
      exact ⟨_, rfl, rfl⟩
    . rw [if_neg hmod, if_neg hmod]
      cases hrefused : getMemRefused req.mem with
      | some err =>
        unfold getMemRefused at hrefused
        split at hrefused
        . next hoffset =>
          cases hrefused
          rw [if_pos hoffset]
          exact ⟨_, rfl, rfl⟩
        . next hoffset =>
          rw [if_neg hoffset]
          split at hrefused
          . next hpage =>
            cases hrefused
            rw [if_pos hpage]
            exact ⟨_, rfl, rfl⟩
          . next hpage =>
            rw [if_neg hpage]
            split at hrefused
            . next hcount =>
              cases hrefused
              rw [if_pos hcount]
              exact ⟨_, rfl, rfl⟩
            . contradiction
      | none =>
        obtain ⟨resps, time', hloop, hresps⟩ := moduleLoop_eq (checked_of_not_refused hrefused) fuel
          stack (decide (req.modId < 0)) devId devices[devId]
          (idRange req.modId devices[devId].nports) time
        obtain ⟨rest, hloop', hresps'⟩ := hrest time'
        unfold getMemRefused at hrefused
        split at hrefused
        . contradiction
        . next hoffset =>
          split at hrefused
          . contradiction
          . next hpage =>
            split at hrefused
            . contradiction
            . next hcount =>
              unfold getMemCount at hloop
              rw [if_neg hoffset, if_neg hpage, if_neg hcount]
              simp only [bind, Except.bind, hloop, hloop', hresps]
              simp only [getMemRefused, if_neg hoffset, if_neg hpage, if_neg hcount] at hresps'
              rw [hresps']
              refine ⟨resps ++ rest, rfl, ?_⟩
              rw [List.map_append]

theorem getModuleMem_eq (devices : List Device) (fuel : Nat) (stack : Nat → UInt8)
    (req : ModuleMemRequest) (time : Nat)
    : ∃ resps, getModuleMem devices (fuel + 2) stack req time = .ok resps ∧
        requestResponses devices Device.nports ⟨req.devId, req.modId, getMemRefused req.mem⟩
          (getMemResponse (fuel + 2) stack req.mem (decide (req.modId < 0))) time =
          .ok (resps.map ModuleMemResponse.report) := by
  unfold getModuleMem requestResponses
  by_cases hdev : req.devId > (devices.length : Int) - 1
  . rw [if_pos hdev, if_pos hdev]
    exact ⟨_, rfl, rfl⟩
  . rw [if_neg hdev, if_neg hdev]
    apply deviceLoop_eq
    intro devId hmem
    exact idRange_lt hdev hmem

theorem getMemResponse_error {mem : ModuleMem} {isRange : Bool} {devId : Nat} {dev : Device}
    {modId time : Nat} {err : ErrorCode} (h : modulePresent dev.cms modId time = .error err)
    : (getMemResponse fuel stack mem isRange devId dev modId time).1 =
        if isRange then none else some ⟨err, devId, modId, none⟩ := by
  unfold getMemResponse
  rw [h]

-- A whole page by default is more than there is from an offset in the upper page on
theorem getMemResponse_reports_iff {mem : ModuleMem} (hchecked : mem.Checked) (fuel : Nat)
    (stack : Nat → UInt8) (isRange : Bool) (devId : Nat) (dev : Device) (modId time : Nat)
    : Reports isRange devId modId (getMemFound mem devId dev modId time)
          (getMemResponse (fuel + 2) stack mem isRange devId dev modId time).1.toList ↔
        (isRange = true → cmsModuleGpioRead dev.cms time (UInt8.ofNat modId) ≠ none) ∧
          (modulePresent dev.cms modId time = .ok () →
            (getMemRange dev.cms mem modId (time + 1)).1 = .ok () →
              mem.count ≠ 0 ∨ mem.offset.toNat ≤ 128) := by
  apply reports_iff_of_check _ fun err h => getMemResponse_error h
  intro hpresent
  obtain ⟨res, hread, hres, hcopied⟩ := readModuleMem_of_checked hchecked fuel stack dev.cms modId
    (time + 1)
  unfold getMemResponse
  rw [hpresent]
  simp only [hread, hres]
  cases res with
  | error err =>
    have hne : err ≠ .EC_MODULE_NOT_PRESENT := by
      rintro rfl
      unfold getMemRange rangeRead at hres
      split at hres <;> simp only at hres <;> split at hres <;> cases hres
    simp [Except.map, Reports, bind, Except.bind, hne]
  | ok read =>
    have hiff := (hcopied read rfl).reads_iff rfl hchecked.range_le
    simp only [Except.map, true_implies]
    rw [← hiff]
    constructor
    . rintro ⟨c, ⟨read', rfl, hreads⟩, heq⟩
      cases heq
      exact hreads
    . intro hreads
      exact ⟨some read, ⟨read, rfl, hreads⟩, rfl⟩

theorem getMemResponse_skip {mem : ModuleMem} {isRange : Bool} {devId : Nat} {dev : Device}
    {modId time : Nat} (h : (getMemResponse fuel stack mem isRange devId dev modId time).1 ≠ none)
    : getMemFound mem devId dev modId time ≠ .error .EC_MODULE_NOT_PRESENT ∨ isRange = false := by
  unfold getMemFound
  cases hpresent : modulePresent dev.cms modId time with
  | ok _ =>
    left
    unfold getMemRange rangeRead
    split
    . simp only
      split <;> simp [bind, Except.bind]
    . simp only
      split <;> simp [bind, Except.bind]
  | error err =>
    right
    rw [getMemResponse_error hpresent] at h
    cases isRange <;> simp_all

end GetMem

section SetMem

-- The modules of each device, and the time
abbrev SetState : Type := (Nat → BitVec 2 → CmsModule) × Nat

def setMemRefused (mem : ModuleMem) : Option ErrorCode :=
  if mem.offset > 255 then
    some .EC_INVALID_MODULE_MEM_OFFSET
  else if mem.page > 255 then
    some .EC_INVALID_MODULE_MEM_PAGE
  else if mem.data.length > (255 - mem.offset + 1).toNat then
    some .EC_INVALID_MODULE_MEM_COUNT
  else
    none

def setMemResponse (mem : ModuleMem) (isRange : Bool) (devId : Nat) (dev : RamDevice) (modId : Nat)
    (s : SetState)
    : Option (ModuleResponse ModuleMem) × SetState :=
  let (resp, modules, time) := setModule dev.ram isRange devId mem modId (s.1 devId) s.2
  (resp.map ModuleMemResponse.report, Function.update s.1 devId modules, time)

-- Are all bytes of the request written?
def allWritten (ram : CmsRam) (mem : ModuleMem) (modId : Nat) (modules : BitVec 2 → CmsModule)
    (time : Nat)
    : Bool :=
  decide (acceptedWrites ram modId mem.page.toUInt8 mem.offset.toNat mem.data modules time =
    mem.data.length)

def setMemFound (mem : ModuleMem) (devId : Nat) (dev : RamDevice) (modId : Nat) (s : SetState)
    : Except ErrorCode (Option ModuleMem → Prop) := do
  modulePresent (dev.ram.card (s.1 devId)) modId s.2
  needing (allWritten dev.ram mem modId (s.1 devId) (s.2 + 1)) .EC_MODULE_MEM_WRITE_FAILED
    fun content => content = none

def startModules (devices : List RamDevice) (devId : Nat) : BitVec 2 → CmsModule :=
  match devices[devId]? with
  | some dev => dev.modules
  | none => fun _ => { lower := Vector.replicate _ 0, upper := fun _ => Vector.replicate _ 0 }

-- The devices with modules in this state
def withModules (devices : List RamDevice) (modules : Nat → BitVec 2 → CmsModule)
    : List RamDevice :=
  devices.mapIdx fun devId dev => { dev with modules := modules devId }

theorem withModules_start (devices : List RamDevice)
    : withModules devices (startModules devices) = devices := by
  apply List.ext_getElem?
  intro devId
  unfold withModules
  rw [List.getElem?_mapIdx]
  cases hdev : devices[devId]? with
  | none => rfl
  | some dev =>
    unfold startModules
    simp only [hdev]
    rfl

theorem withModules_set {devices : List RamDevice} {devId : Nat} {dev : RamDevice}
    (hdev : devices[devId]? = some dev) (modules : Nat → BitVec 2 → CmsModule)
    (new : BitVec 2 → CmsModule)
    : (withModules devices modules).set devId { dev with modules := new } =
        withModules devices (Function.update modules devId new) := by
  apply List.ext_getElem?
  intro devId'
  unfold withModules
  rw [List.getElem?_mapIdx]
  by_cases heq : devId = devId'
  . subst heq
    have hlt := (List.getElem?_eq_some_iff.mp hdev).1
    rw [List.getElem?_set_self (by simpa using hlt), hdev]
    simp
  . rw [List.getElem?_set_ne heq, List.getElem?_mapIdx]
    have hne : devId' ≠ devId := fun h => heq h.symm
    simp only [Function.update_of_ne hne]

theorem setModuleLoop_eq (mem : ModuleMem) (isRange : Bool) (devId : Nat) (dev : RamDevice)
    (modIds : List Nat) (modules : Nat → BitVec 2 → CmsModule) (time : Nat)
    : moduleResponses (setMemResponse mem isRange devId dev) modIds (modules, time) =
        let (resps, new, time') := setModuleLoop dev.ram isRange devId mem modIds (modules devId)
          time
        (resps.map ModuleMemResponse.report, Function.update modules devId new, time') := by
  induction modIds generalizing modules time with
  | nil => simp [moduleResponses, setModuleLoop]
  | cons modId modIds ih =>
    simp only [moduleResponses, setMemResponse, setModuleLoop, ih, Function.update_self,
      Function.update_idem, List.map_append]
    congr 2
    cases (setModule dev.ram isRange devId mem modId (modules devId) time).1 <;> rfl

theorem setDeviceLoop_eq {devices : List RamDevice} (req : ModuleMemRequest) (devIds : List Nat)
    (h : ∀ devId ∈ devIds, devId < devices.length) (modules : Nat → BitVec 2 → CmsModule)
    (time : Nat)
    : ∃ resps devices' time',
        setDeviceLoop req devIds (withModules devices modules) time =
          .ok (resps, devices', time') ∧
        deviceResponses devices RamDevice.nports ⟨req.devId, req.modId, setMemRefused req.mem⟩
          (setMemResponse req.mem (decide (req.modId < 0))) devIds (modules, time) =
          .ok (resps.map ModuleMemResponse.report) := by
  induction devIds generalizing modules time with
  | nil => exact ⟨[], _, _, rfl, rfl⟩
  | cons devId devIds ih =>
    have hlt : devId < devices.length := h devId List.mem_cons_self
    have hdev := List.getElem?_eq_getElem hlt
    have hcur : (withModules devices modules)[devId]? =
        some { devices[devId] with modules := modules devId } := by
      unfold withModules
      rw [List.getElem?_mapIdx, hdev]
      rfl
    have hrest := ih fun devId hmem => h devId (List.mem_cons_of_mem _ hmem)
    unfold setDeviceLoop deviceResponses
    simp only [hdev, hcur]
    by_cases hmod : req.modId > (devices[devId].nports : Int) - 1
    . obtain ⟨resps, devices', time', hloop, hresps⟩ := hrest modules time
      rw [if_pos hmod, if_pos hmod, hloop, hresps]
      exact ⟨_, _, _, rfl, rfl⟩
    . rw [if_neg hmod, if_neg hmod]
      unfold setMemRefused at hrest ⊢
      by_cases hoffset : req.mem.offset > 255
      . rw [if_pos hoffset, if_pos hoffset]
        exact ⟨_, _, _, rfl, rfl⟩
      by_cases hpage : req.mem.page > 255
      . rw [if_neg hoffset, if_neg hoffset, if_pos hpage, if_pos hpage]
        exact ⟨_, _, _, rfl, rfl⟩
      by_cases hcount : req.mem.data.length > (255 - req.mem.offset + 1).toNat
      . rw [if_neg hoffset, if_neg hoffset, if_neg hpage, if_neg hpage, if_pos hcount,
          if_pos hcount]
        exact ⟨_, _, _, rfl, rfl⟩
      . simp only [if_neg hoffset, if_neg hpage, if_neg hcount] at hrest ⊢
        rw [setModuleLoop_eq]
        generalize setModuleLoop devices[devId].ram (decide (req.modId < 0)) devId req.mem
          (idRange req.modId devices[devId].nports) (modules devId) time = res
        obtain ⟨resps, new, time₁⟩ := res
        obtain ⟨rest, devices', time', hloop, hresps⟩ := hrest (Function.update modules devId new)
          time₁
        rw [← withModules_set hdev] at hloop
        refine ⟨resps ++ rest, devices', time', ?_, ?_⟩
        . simp only [bind, Except.bind, hloop]
        . simp only [bind, Except.bind, hresps, List.map_append]

theorem setModuleMem_eq (devices : List RamDevice) (req : ModuleMemRequest) (time : Nat)
    : ∃ resps devices' time', setModuleMem devices req time = .ok (resps, devices', time') ∧
        requestResponses devices RamDevice.nports ⟨req.devId, req.modId, setMemRefused req.mem⟩
          (setMemResponse req.mem (decide (req.modId < 0))) (startModules devices, time) =
          .ok (resps.map ModuleMemResponse.report) := by
  unfold setModuleMem requestResponses
  by_cases hdev : req.devId > (devices.length : Int) - 1
  . rw [if_pos hdev, if_pos hdev]
    exact ⟨_, _, _, rfl, rfl⟩
  . rw [if_neg hdev, if_neg hdev]
    have hloop := setDeviceLoop_eq req (idRange req.devId devices.length)
      (fun devId hmem => idRange_lt hdev hmem) (startModules devices) time
    rw [withModules_start] at hloop
    exact hloop

theorem setMemResponse_error {mem : ModuleMem} {isRange : Bool} {devId : Nat} {dev : RamDevice}
    {modId : Nat} {s : SetState} {err : ErrorCode}
    (h : modulePresent (dev.ram.card (s.1 devId)) modId s.2 = .error err)
    : (setMemResponse mem isRange devId dev modId s).1 =
        if isRange then none else some ⟨err, devId, modId, none⟩ := by
  unfold setMemResponse setModule
  rw [checkModulePresent_eq, h]
  unfold presenceCode
  rcases modulePresent_error h with ⟨rfl, -⟩ | ⟨rfl, -⟩ <;> cases isRange <;> rfl

theorem setMemResponse_reports_iff {mem : ModuleMem}
    (hfits : mem.offset.toNat + mem.data.length ≤ 256) (isRange : Bool) (devId : Nat)
    (dev : RamDevice) (modId : Nat) (s : SetState)
    : Reports isRange devId modId (setMemFound mem devId dev modId s)
          (setMemResponse mem isRange devId dev modId s).1.toList ↔
        (isRange = true →
          cmsModuleGpioRead (dev.ram.card (s.1 devId)) s.2 (UInt8.ofNat modId) ≠ none) := by
  unfold setMemFound
  rw [reports_iff_of_check (p := True) _ fun err h => setMemResponse_error h]
  . simp
  . intro hpresent
    obtain ⟨modules', time', hset, -, -⟩ := setModule_spec dev.ram isRange devId hfits modId
      (s.1 devId) s.2
    have hcheck : cagePresence (dev.ram.card (s.1 devId)) modId s.2 = .ok () := by
      rw [cagePresence_eq]
      exact hpresent
    have hle := acceptedWrites_le dev.ram modId mem.page.toUInt8 mem.offset.toNat mem.data
      (s.1 devId) (s.2 + 1)
    have htake : writtenBytes dev.ram mem modId (s.1 devId) s.2 = mem.data ↔
        allWritten dev.ram mem modId (s.1 devId) (s.2 + 1) = true := by
      unfold writtenBytes allWritten
      simp only [hcheck]
      rw [List.take_eq_self_iff, decide_eq_true_iff]
      omega
    simp only [setMemResponse, hset, writeResponse, hcheck, htake, iff_true]
    cases allWritten dev.ram mem modId (s.1 devId) (s.2 + 1) <;>
      simp [needing, Reports, ModuleMemResponse.report]

theorem setMemResponse_skip {mem : ModuleMem} {isRange : Bool} {devId : Nat} {dev : RamDevice}
    {modId : Nat} {s : SetState} (h : (setMemResponse mem isRange devId dev modId s).1 ≠ none)
    : setMemFound mem devId dev modId s ≠ .error .EC_MODULE_NOT_PRESENT ∨ isRange = false :=
  skip_of_check (by decide) (fun _ herr => setMemResponse_error herr) h

theorem fits_of_not_refused {mem : ModuleMem} (h : setMemRefused mem = none)
    : mem.offset.toNat + mem.data.length ≤ 256 := by
  unfold setMemRefused at h
  split at h
  . contradiction
  . next hoffset =>
    have hle : mem.offset.toNat ≤ 255 := by
      rw [gt_iff_lt, UInt32.lt_iff_toNat_lt] at hoffset
      have hoffset : ¬ 255 < mem.offset.toNat := hoffset
      omega
    split at h
    . contradiction
    . split at h
      . contradiction
      . next hcount =>
        rw [toNat_max_count hle] at hcount
        omega

end SetMem

-- A request about modules, with the devices that it meets
inductive ModuleCall (Info F64 : Type) where
  | getInfo (moduleInfo : ModulePages → Info) (devices : List Device) (devId modId : Int)
    (time : Nat)
  | getMem (devices : List Device) (req : ModuleMemRequest) (time : Nat)
  | setMem (devices : List RamDevice) (req : ModuleMemRequest) (time : Nat)
  | getStatus (devices : List (MonitoredDevice F64)) (devId modId : Int) (time : Nat)

section Calls

variable {Info F64 : Type}

def infoTurns (moduleInfo : ModulePages → Info) (devices : List Device) (devId modId : Int)
    (time : Nat)
    : List (Turn Device Nat) :=
  requestTurns devices Device.nports ⟨devId, modId, none⟩
    (fun devId dev modId' time =>
      (moduleInfoResponse moduleInfo (decide (modId < 0)) devId dev modId' time).2) time

def getMemTurns (devices : List Device) (req : ModuleMemRequest) (time : Nat)
    : List (Turn Device Nat) :=
  requestTurns devices Device.nports ⟨req.devId, req.modId, getMemRefused req.mem⟩
    (getMemNext req.mem) time

def setMemTurns (devices : List RamDevice) (req : ModuleMemRequest) (time : Nat)
    : List (Turn RamDevice SetState) :=
  requestTurns devices RamDevice.nports ⟨req.devId, req.modId, setMemRefused req.mem⟩
    (fun devId dev modId s =>
      (setMemResponse req.mem (decide (req.modId < 0)) devId dev modId s).2)
    (startModules devices, time)

def statusTurns (devices : List (MonitoredDevice F64)) (devId modId : Int) (time : Nat)
    : List (Turn (MonitoredDevice F64) Nat) :=
  requestTurns devices (fun dev => dev.device.nports) ⟨devId, modId, none⟩
    (fun devId dev modId' time =>
      (moduleStatusResponse (decide (modId < 0)) devId dev modId' time).2) time

-- Each turn of the request has the response that it is to have, and there is no other one
def ModuleCall.Truthful (call : ModuleCall Info F64) : Prop :=
  match call with
  | .getInfo moduleInfo devices devId modId time =>
    ∃ resps, getModuleInfo moduleInfo devices devId modId time = .ok resps ∧
      Segments.Joined (Turn.Reports (decide (modId < 0)) (infoFound moduleInfo))
        (infoTurns moduleInfo devices devId modId time) resps
  | .getMem devices req time =>
    ∀ fuel stack, ∃ resps, getModuleMem devices (fuel + 2) stack req time = .ok resps ∧
      Segments.Joined (Turn.Reports (decide (req.modId < 0)) (getMemFound req.mem))
        (getMemTurns devices req time) (resps.map ModuleMemResponse.report)
  | .setMem devices req time =>
    ∃ resps devices' time', setModuleMem devices req time = .ok (resps, devices', time') ∧
      Segments.Joined (Turn.Reports (decide (req.modId < 0)) (setMemFound req.mem))
        (setMemTurns devices req time) (resps.map ModuleMemResponse.report)
  | .getStatus devices devId modId time =>
    ∃ resps, getModuleStatus devices devId modId time = .ok resps ∧
      Segments.Joined (Turn.Reports (decide (modId < 0)) statusFound)
        (statusTurns devices devId modId time) resps

-- The signals of the modules of a range can be read, the status is not that of a module by itself
-- that is not found to be present, and no whole page is read from an offset in the upper page on
def ModuleCall.Reportable (call : ModuleCall Info F64) : Prop :=
  match call with
  | .getInfo moduleInfo devices devId modId time =>
    ∀ devId' dev modId' s,
      .module devId' dev modId' s ∈ infoTurns moduleInfo devices devId modId time →
        modId < 0 → cmsModuleGpioRead dev.cms s (UInt8.ofNat modId') ≠ none
  | .getMem devices req time =>
    ∀ devId dev modId s, .module devId dev modId s ∈ getMemTurns devices req time →
      (req.modId < 0 → cmsModuleGpioRead dev.cms s (UInt8.ofNat modId) ≠ none) ∧
        (modulePresent dev.cms modId s = .ok () →
          (getMemRange dev.cms req.mem modId (s + 1)).1 = .ok () →
            req.mem.count ≠ 0 ∨ req.mem.offset.toNat ≤ 128)
  | .setMem devices req time =>
    ∀ devId dev modId s, .module devId dev modId s ∈ setMemTurns devices req time →
      req.modId < 0 →
        cmsModuleGpioRead (dev.ram.card (s.1 devId)) s.2 (UInt8.ofNat modId) ≠ none
  | .getStatus devices devId modId time =>
    ∀ devId' dev modId' s, .module devId' dev modId' s ∈ statusTurns devices devId modId time →
      (modId < 0 → cmsModuleGpioRead dev.device.cms s (UInt8.ofNat modId') ≠ none) ∧
        (0 ≤ modId → modulePresent dev.device.cms modId' s = .ok ())

-- A request that is refused comes to no module
theorem not_refused_of_mem {Dev σ : Type} {devices : List Dev} {nports : Dev → Nat}
    {sel : Selection} {next : Nat → Dev → Nat → σ → σ} {s s' : σ} {devId modId : Nat} {dev : Dev}
    (h : .module devId dev modId s' ∈ requestTurns devices nports sel next s)
    : sel.refused = none := by
  have hdevices : ∀ devIds s, .module devId dev modId s' ∈
      deviceTurns devices nports sel next devIds s → sel.refused = none := by
    intro devIds
    induction devIds with
    | nil => simp [deviceTurns]
    | cons devId₁ devIds ih =>
      intro s hmem
      unfold deviceTurns at hmem
      split at hmem
      . contradiction
      . split at hmem
        . simp only [List.mem_cons, reduceCtorEq, false_or] at hmem
          exact ih s hmem
        . split at hmem
          . simp at hmem
          . assumption
  unfold requestTurns at h
  split at h
  . simp at h
  . exact hdevices _ _ h

theorem getInfo_truthful_iff (moduleInfo : ModulePages → Info) (devices : List Device)
    (devId modId : Int) (time : Nat)
    : (ModuleCall.getInfo moduleInfo devices devId modId time : ModuleCall Info F64).Truthful ↔
        (ModuleCall.getInfo moduleInfo devices devId modId time : ModuleCall Info F64).Reportable := by
  simp only [ModuleCall.Truthful, ModuleCall.Reportable, getModuleInfo]
  rw [requestResponses_eq]
  simp only [Except.ok.injEq, exists_eq_left']
  unfold infoTurns
  rw [reports_iff]
  . apply forall_congr'
    intro devId'
    simp only [moduleInfoResponse_reports_iff, decide_eq_true_eq]
  . intro devId' dev modId' s hresp
    exact skip_of_check (by decide) (fun _ herr => moduleInfoResponse_error moduleInfo herr) hresp

theorem getStatus_truthful_iff (devices : List (MonitoredDevice F64)) (devId modId : Int)
    (time : Nat)
    : (ModuleCall.getStatus devices devId modId time : ModuleCall Info F64).Truthful ↔
        (ModuleCall.getStatus devices devId modId time : ModuleCall Info F64).Reportable := by
  simp only [ModuleCall.Truthful, ModuleCall.Reportable, getModuleStatus]
  rw [requestResponses_eq]
  simp only [Except.ok.injEq, exists_eq_left']
  unfold statusTurns
  rw [reports_iff]
  . apply forall_congr'
    intro devId'
    simp only [moduleStatusResponse_reports_iff, decide_eq_true_eq, decide_eq_false_iff_not, not_lt]
  . intro devId' dev modId' s hresp
    exact moduleStatusResponse_skip hresp

theorem getMem_truthful_iff (devices : List Device) (req : ModuleMemRequest) (time : Nat)
    : (ModuleCall.getMem devices req time : ModuleCall Info F64).Truthful ↔
        (ModuleCall.getMem devices req time : ModuleCall Info F64).Reportable := by
  have hone : ∀ fuel stack, (∃ resps, getModuleMem devices (fuel + 2) stack req time = .ok resps ∧
      Segments.Joined (Turn.Reports (decide (req.modId < 0)) (getMemFound req.mem))
        (getMemTurns devices req time) (resps.map ModuleMemResponse.report)) ↔
      (ModuleCall.getMem devices req time : ModuleCall Info F64).Reportable := by
    intro fuel stack
    obtain ⟨resps, hget, hresps⟩ := getModuleMem_eq devices fuel stack req time
    rw [requestResponses_eq, Except.ok.injEq] at hresps
    rw [hget]
    simp only [Except.ok.injEq, exists_eq_left']
    rw [← hresps]
    refine (reports_iff ?_).trans (forall₅_congr ?_)
    . intro devId dev modId s hresp
      exact getMemResponse_skip hresp
    . intro devId dev modId s hmem
      rw [getMemResponse_reports_iff (checked_of_not_refused (not_refused_of_mem hmem)),
        decide_eq_true_iff]
  constructor
  . intro h
    exact (hone 0 fun _ => 0).mp (h 0 fun _ => 0)
  . intro h fuel stack
    exact (hone fuel stack).mpr h

theorem setMem_truthful_iff (devices : List RamDevice) (req : ModuleMemRequest) (time : Nat)
    : (ModuleCall.setMem devices req time : ModuleCall Info F64).Truthful ↔
        (ModuleCall.setMem devices req time : ModuleCall Info F64).Reportable := by
  obtain ⟨resps, devices', time', hset, hresps⟩ := setModuleMem_eq devices req time
  rw [requestResponses_eq, Except.ok.injEq] at hresps
  have hjoined : (ModuleCall.setMem devices req time : ModuleCall Info F64).Truthful ↔
      Segments.Joined (Turn.Reports (decide (req.modId < 0)) (setMemFound req.mem))
        (setMemTurns devices req time) (resps.map ModuleMemResponse.report) := by
    simp only [ModuleCall.Truthful]
    rw [hset]
    constructor
    . rintro ⟨_, _, _, heq, h⟩
      cases heq
      exact h
    . intro h
      exact ⟨_, _, _, rfl, h⟩
  rw [hjoined, ← hresps]
  refine (reports_iff ?_).trans (forall₅_congr ?_)
  . intro devId dev modId s hresp
    exact setMemResponse_skip hresp
  . intro devId dev modId s hmem
    rw [setMemResponse_reports_iff (fits_of_not_refused (not_refused_of_mem hmem)),
      decide_eq_true_iff]

-- The requests whose responses report what is so
theorem truthful_iff (call : ModuleCall Info F64) : call.Truthful ↔ call.Reportable := by
  cases call with
  | getInfo moduleInfo devices devId modId time => apply getInfo_truthful_iff
  | getMem devices req time => apply getMem_truthful_iff
  | setMem devices req time => apply setMem_truthful_iff
  | getStatus devices devId modId time => apply getStatus_truthful_iff

end Calls

-- A card without modules: only the signals can be read, and say that none is present
def emptyCage : Cms :=
  { modules := fun _ => { lower := Vector.replicate _ 0, upper := fun _ => Vector.replicate _ 0 }
    post := fun _ req =>
      match req with
      | .readModuleLowSpeedIo _ => some fun _ => 8
      | .blockReadModuleI2c _ | .byteReadModuleI2c _ _ => none
    malloc := fun _ => true
    block_read := by
      intro _ _ _ h
      contradiction
    byte_read := by
      intro _ _ _ _ h
      contradiction }

def emptyDevice : MonitoredDevice Unit :=
  { device := { cms := emptyCage, nports := 1, nports_le := by decide }
    zones := [[]]
    zones_length := rfl }

-- The status of a module that is not there
theorem not_truthful_absent
    : ¬ ∀ call : ModuleCall Unit Unit, call.Truthful := by
  intro hall
  have hreport := (getStatus_truthful_iff _ _ _ _).mp (hall (.getStatus [emptyDevice] 0 0 0))
  have hturn : .module 0 emptyDevice 0 0 ∈ statusTurns [emptyDevice] 0 0 0 :=
    List.mem_singleton.mpr rfl
  have hpresent := (hreport 0 emptyDevice 0 0 hturn).2 (le_refl 0)
  have habsent : modulePresent emptyCage 0 0 = .error .EC_MODULE_NOT_PRESENT := rfl
  exact absurd (habsent.symm.trans hpresent) (by simp)

end SnCfg
