import SmartnicFw.SnCfg.Agent.ModuleTruth

/-!
This module contains what is read back of the memory of a module after a request has written to it
(`module.cpp`).
-/

namespace SnCfg

-- From `start` on, the module in a cage is there and the mailbox answers what is read from it
structure Answers (cms : Cms) (modId start : Nat) : Prop where
  present : ∀ t ≥ start, cagePresence cms modId t = .ok ()
  block_read : ∀ t ≥ start, cms.malloc t = true ∧
    ∀ select : CmsOpModuleI2cSelect, select.cage = BitVec.ofNat 2 modId →
      ∃ mailbox, cms.post t (.blockReadModuleI2c select) = some mailbox ∧
        (mailbox 4).toNat = cmsModulePageSize
  byte_read : ∀ t ≥ start, ∀ (select : CmsOpModuleI2cSelect) offset,
    select.cage = BitVec.ofNat 2 modId →
      (cms.post t (.byteReadModuleI2c select offset)).isSome

section Responses

variable {Dev σ α : Type}

def ModuleResponse.About (devId modId : Nat) (resp : ModuleResponse α) : Prop :=
  resp.devId = devId ∧ resp.modId = modId

instance (devId modId : Nat) (resp : ModuleResponse α) : Decidable (resp.About devId modId) :=
  inferInstanceAs (Decidable (_ ∧ _))

variable {respond : Nat → Dev → Nat → σ → Option (ModuleResponse α) × σ} {inv : σ → Prop}
variable {devices : List Dev} {nports : Dev → Nat} {sel : Selection} {devId modId : Nat} {dev : Dev}

theorem about_of_mem_moduleResponses
    (hids : ∀ modId s, ∀ resp ∈ (respond devId dev modId s).1, resp.About devId modId)
    {modIds : List Nat} {s : σ} {resp : ModuleResponse α}
    (h : resp ∈ (moduleResponses (respond devId dev) modIds s).1)
    : ∃ modId ∈ modIds, resp.About devId modId := by
  induction modIds generalizing s with
  | nil => cases h
  | cons modId modIds ih =>
    rcases List.mem_append.mp h with h | h
    . exact ⟨modId, List.mem_cons_self, hids modId s resp (Option.mem_toList.mp h)⟩
    . obtain ⟨modId', hmem, habout⟩ := ih h
      exact ⟨modId', List.mem_cons_of_mem _ hmem, habout⟩

theorem inv_moduleResponses
    (hinv : ∀ modId s, inv s → inv (respond devId dev modId s).2) {modIds : List Nat} {s : σ}
    (hs : inv s)
    : inv (moduleResponses (respond devId dev) modIds s).2 := by
  induction modIds generalizing s with
  | nil => exact hs
  | cons modId modIds ih => exact ih (hinv modId s hs)

-- A module that the loop comes to has its own response, and no other one
theorem moduleResponses_filter
    (hids : ∀ modId s, ∀ resp ∈ (respond devId dev modId s).1, resp.About devId modId)
    (hinv : ∀ modId s, inv s → inv (respond devId dev modId s).2) {modIds : List Nat}
    (hnodup : modIds.Nodup) (hmem : modId ∈ modIds) {s : σ} (hs : inv s)
    : ∃ s', inv s' ∧
        (moduleResponses (respond devId dev) modIds s).1.filter (·.About devId modId) =
          (respond devId dev modId s').1.toList := by
  induction modIds generalizing s with
  | nil => cases hmem
  | cons modId₁ modIds ih =>
    obtain ⟨hnew, hnodup⟩ := List.nodup_cons.mp hnodup
    unfold moduleResponses
    simp only [List.filter_append]
    rcases List.mem_cons.mp hmem with rfl | hmem
    . refine ⟨s, hs, ?_⟩
      rw [List.filter_eq_self.mpr, List.filter_eq_nil_iff.mpr, List.append_nil]
      . intro resp hresp
        obtain ⟨modId', hmem', habout⟩ := about_of_mem_moduleResponses hids hresp
        rw [decide_eq_true_iff]
        rintro ⟨-, heq⟩
        rw [habout.2] at heq
        exact hnew (heq ▸ hmem')
      . intro resp hresp
        rw [decide_eq_true_iff]
        exact hids modId s resp (Option.mem_toList.mp hresp)
    . obtain ⟨s', hs', hfilter⟩ := ih hnodup hmem (hinv modId₁ s hs)
      refine ⟨s', hs', ?_⟩
      rw [hfilter, List.filter_eq_nil_iff.mpr, List.nil_append]
      intro resp hresp
      rw [decide_eq_true_iff]
      rintro ⟨-, heq⟩
      rw [(hids modId₁ s resp (Option.mem_toList.mp hresp)).2] at heq
      exact hnew (heq ▸ hmem)

-- What the loop over the devices does for one of them, when nothing else is wrong with the request
def ofDevice (nports : Dev → Nat) (sel : Selection)
    (respond : Nat → Dev → Nat → σ → Option (ModuleResponse α) × σ) (devId : Nat) (dev : Dev) (s : σ)
    : List (ModuleResponse α) × σ :=
  if sel.modId > (nports dev : Int) - 1 then
    ([⟨.EC_INVALID_MODULE_ID, devId, 0, none⟩], s)
  else
    moduleResponses (respond devId dev) (idRange sel.modId (nports dev)) s

theorem deviceResponses_cons (hrefused : sel.refused = none) (hdev : devices[devId]? = some dev)
    (devIds : List Nat) (s : σ)
    : deviceResponses devices nports sel respond (devId :: devIds) s =
        (deviceResponses devices nports sel respond devIds
          (ofDevice nports sel respond devId dev s).2).map
            ((ofDevice nports sel respond devId dev s).1 ++ ·) := by
  unfold ofDevice
  rw [deviceResponses, hdev, hrefused]
  by_cases hmod : sel.modId > (nports dev : Int) - 1
  . simp only [if_pos hmod]
    cases deviceResponses devices nports sel respond devIds s <;> rfl
  . simp only [if_neg hmod]
    cases deviceResponses devices nports sel respond devIds _ <;> rfl

theorem devId_of_mem_ofDevice
    (hids : ∀ modId s, ∀ resp ∈ (respond devId dev modId s).1, resp.About devId modId) {s : σ}
    {resp : ModuleResponse α} (h : resp ∈ (ofDevice nports sel respond devId dev s).1)
    : resp.devId = devId := by
  unfold ofDevice at h
  split at h
  . rw [List.mem_singleton.mp h]
  . obtain ⟨_, -, habout⟩ := about_of_mem_moduleResponses hids h
    exact habout.1

theorem inv_ofDevice (hinv : ∀ modId s, inv s → inv (respond devId dev modId s).2) {s : σ}
    (hs : inv s)
    : inv (ofDevice nports sel respond devId dev s).2 := by
  unfold ofDevice
  split
  . exact hs
  . exact inv_moduleResponses hinv hs

theorem exists_deviceResponses
    (hids : ∀ devId dev modId s, ∀ resp ∈ (respond devId dev modId s).1, resp.About devId modId)
    (hrefused : sel.refused = none) {devIds : List Nat}
    (hlt : ∀ devId ∈ devIds, devId < devices.length) (s : σ)
    : ∃ resps, deviceResponses devices nports sel respond devIds s = .ok resps ∧
        ∀ resp ∈ resps, resp.devId ∈ devIds := by
  induction devIds generalizing s with
  | nil => exact ⟨[], rfl, List.forall_mem_nil _⟩
  | cons devId devIds ih =>
    rw [List.forall_mem_cons] at hlt
    have hdev := List.getElem?_eq_getElem hlt.1
    obtain ⟨resps, hloop, hresps⟩ := ih hlt.2 (ofDevice nports sel respond devId devices[devId] s).2
    refine ⟨_, by rw [deviceResponses_cons hrefused hdev, hloop]; rfl, ?_⟩
    intro resp hresp
    rcases List.mem_append.mp hresp with hresp | hresp
    . rw [devId_of_mem_ofDevice (hids devId _) hresp]
      exact List.mem_cons_self
    . exact List.mem_cons_of_mem _ (hresps resp hresp)

theorem deviceResponses_filter
    (hids : ∀ devId dev modId s, ∀ resp ∈ (respond devId dev modId s).1, resp.About devId modId)
    (hinv : ∀ devId dev modId s, inv s → inv (respond devId dev modId s).2)
    (hrefused : sel.refused = none) {devIds : List Nat} (hnodup : devIds.Nodup)
    (hlt : ∀ devId ∈ devIds, devId < devices.length) (hmem : devId ∈ devIds)
    (hdev : devices[devId]? = some dev) (hmod : ¬ sel.modId > (nports dev : Int) - 1)
    (hmodId : modId ∈ idRange sel.modId (nports dev)) {s : σ} (hs : inv s)
    : ∃ resps s', inv s' ∧ deviceResponses devices nports sel respond devIds s = .ok resps ∧
        resps.filter (·.About devId modId) = (respond devId dev modId s').1.toList := by
  induction devIds generalizing s with
  | nil => cases hmem
  | cons devId₁ devIds ih =>
    obtain ⟨hnew, hnodup⟩ := List.nodup_cons.mp hnodup
    rw [List.forall_mem_cons] at hlt
    have hdev₁ := List.getElem?_eq_getElem hlt.1
    rcases List.mem_cons.mp hmem with rfl | hmem
    . obtain ⟨s', hs', hfilter⟩ := moduleResponses_filter (hids devId dev) (hinv devId dev)
        (idRange_nodup _ _) hmodId hs
      obtain ⟨rest, hloop, hrest⟩ := exists_deviceResponses hids hrefused hlt.2
        (ofDevice nports sel respond devId dev s).2
      refine ⟨_, s', hs', by rw [deviceResponses_cons hrefused hdev, hloop]; rfl, ?_⟩
      have hfirst : (ofDevice nports sel respond devId dev s).1 =
          (moduleResponses (respond devId dev) (idRange sel.modId (nports dev)) s).1 := by
        rw [ofDevice, if_neg hmod]
      rw [List.filter_append, hfirst, hfilter, List.filter_eq_nil_iff.mpr, List.append_nil]
      intro resp hresp
      rw [decide_eq_true_iff]
      rintro ⟨heq, -⟩
      exact hnew (heq ▸ hrest resp hresp)
    . have hs₁ : inv (ofDevice nports sel respond devId₁ devices[devId₁] s).2 :=
        inv_ofDevice (hinv devId₁ _) hs
      obtain ⟨rest, s', hs', hloop, hfilter⟩ := ih hnodup hlt.2 hmem hs₁
      refine ⟨_, s', hs', by rw [deviceResponses_cons hrefused hdev₁, hloop]; rfl, ?_⟩
      rw [List.filter_append, hfilter, List.filter_eq_nil_iff.mpr, List.nil_append]
      intro resp hresp
      rw [decide_eq_true_iff]
      rintro ⟨heq, -⟩
      rw [devId_of_mem_ofDevice (hids devId₁ _) hresp] at heq
      exact hnew (heq ▸ hmem)

-- A module that the request selects has one response
theorem requestResponses_filter
    (hids : ∀ devId dev modId s, ∀ resp ∈ (respond devId dev modId s).1, resp.About devId modId)
    (hinv : ∀ devId dev modId s, inv s → inv (respond devId dev modId s).2)
    (hrefused : sel.refused = none) (hdev : devices[devId]? = some dev)
    (hmodId : modId < nports dev) (hdevs : sel.devId < 0 ∨ sel.devId = devId)
    (hmods : sel.modId < 0 ∨ sel.modId = modId) {s : σ} (hs : inv s)
    : ∃ resps s', inv s' ∧ requestResponses devices nports sel respond s = .ok resps ∧
        resps.filter (·.About devId modId) = (respond devId dev modId s').1.toList := by
  have hlt := (List.getElem?_eq_some_iff.mp hdev).1
  have hdevice : ¬ sel.devId > (devices.length : Int) - 1 := by omega
  have hmodule : ¬ sel.modId > (nports dev : Int) - 1 := by omega
  unfold requestResponses
  rw [if_neg hdevice]
  exact deviceResponses_filter hids hinv hrefused (idRange_nodup _ _)
    (fun _ hmem => idRange_lt hdevice hmem) ((mem_idRange hdevice).mpr ⟨hdevs, hlt⟩) hdev hmodule
    ((mem_idRange hmodule).mpr ⟨hmods, hmodId⟩) hs

end Responses

section GetMem

variable {cms : Cms} {modId start time : Nat}

theorem Answers.modulePresent (h : Answers cms modId start) (htime : start ≤ time)
    : SnCfg.modulePresent cms modId time = .ok () := by
  rw [← cagePresence_eq]
  exact h.present time htime

theorem Answers.pageRead (h : Answers cms modId start) (htime : start ≤ time) {id : CmsModuleId}
    (hcage : id.cage = UInt8.ofNat modId)
    : (cmsModulePageRead cms time id).isSome := by
  obtain ⟨hmalloc, hpost⟩ := h.block_read time htime
  unfold cmsModulePageRead
  simp only
  obtain ⟨mailbox, hsome, hsize⟩ := hpost {
    cage := id.cage.toBitVec.setWidth 2
    page := if id.upper then id.page.toBitVec else 0
    upper := id.upper
    sfpDiag := id.sfpDiag
    cmisBankValid := id.cmis
    cmisBank := if id.cmis then id.bank.toBitVec.setWidth 5 else 0 }
    (by rw [hcage, setWidth_ofNat])
  rw [hsome, Option.bind_eq_bind, Option.bind_some, if_neg (not_not.mpr hsize), hmalloc]
  rfl

theorem Answers.byteRead (h : Answers cms modId start) (htime : start ≤ time) {id : CmsModuleId}
    (hcage : id.cage = UInt8.ofNat modId) (offset : UInt8)
    : (cmsModuleByteRead cms time id offset).isSome := by
  unfold cmsModuleByteRead
  simp only
  obtain ⟨mailbox, hsome⟩ := Option.isSome_iff_exists.mp (h.byte_read time htime {
    cage := id.cage.toBitVec.setWidth 2
    page := (if decide (cmsModulePageSize ≤ offset.toNat) then id.page else 0).toBitVec
    upper := decide (cmsModulePageSize ≤ offset.toNat)
    sfpDiag := id.sfpDiag
    cmisBankValid := id.cmis
    cmisBank := if id.cmis then id.bank.toBitVec.setWidth 5 else 0 } offset.toBitVec
    (by rw [hcage, setWidth_ofNat]))
  rw [hsome]
  rfl

theorem Answers.rangeRead (h : Answers cms modId start) (htime : start ≤ time) (page : UInt32)
    (offset count : UInt32)
    : (SnCfg.rangeRead cms (cmsModuleId modId page) offset count time).1 = .ok () := by
  unfold SnCfg.rangeRead
  split
  . have hpages : (pagesRead cms { cmsModuleId modId page with upper := decide (offset ≥ 128) }
        offset.toNat count.toNat time).1 = true := by
      unfold pagesRead
      obtain ⟨_, hread⟩ := Option.isSome_iff_exists.mp (h.pageRead htime
        (show ({ cmsModuleId modId page with upper := decide (offset ≥ 128) } : CmsModuleId).cage =
          UInt8.ofNat modId from rfl))
      rw [hread]
      simp only
      split
      . rfl
      . exact h.pageRead (Nat.le_succ_of_le htime) rfl
    simp only [hpages, if_true]
  . simp only [h.byteRead htime (show (cmsModuleId modId page).cage = UInt8.ofNat modId from rfl),
      if_true]

theorem rangeRead_time (cms : Cms) (cmsId : CmsModuleId) (offset count : UInt32) (time : Nat)
    : time ≤ (rangeRead cms cmsId offset count time).2 := by
  unfold rangeRead
  split
  . exact Nat.le_add_right _ _
  . exact Nat.le_add_right _ _

theorem getMemNext_le (mem : ModuleMem) (devId : Nat) (dev : Device) (modId time : Nat)
    : time ≤ getMemNext mem devId dev modId time := by
  unfold getMemNext
  split
  . exact Nat.le_of_succ_le (rangeRead_time ..)
  . exact Nat.le_succ time

theorem about_getMemResponse {fuel : Nat} {stack : Nat → UInt8} {mem : ModuleMem} {isRange : Bool}
    {devId : Nat} {dev : Device} {resp : ModuleResponse ModuleMem}
    (h : resp ∈ (getMemResponse fuel stack mem isRange devId dev modId time).1)
    : resp.About devId modId := by
  unfold getMemResponse at h
  split at h
  . split at h <;> cases h <;> exact ⟨rfl, rfl⟩
  . split at h <;> cases h
    exact ⟨rfl, rfl⟩

-- A module that a read selects, and that answers it, is in the responses once
theorem getModuleMem_filter {devices : List Device} {req : ModuleMemRequest} {devId : Nat}
    {dev : Device} (hdev : devices[devId]? = some dev) (hmodId : modId < dev.nports)
    (hdevs : req.devId < 0 ∨ req.devId = devId) (hmods : req.modId < 0 ∨ req.modId = modId)
    (hrefused : getMemRefused req.mem = none) (hanswers : Answers dev.cms modId start) (fuel : Nat)
    (stack : Nat → UInt8)
    : ∃ resps read, getModuleMem devices (fuel + 2) stack req start = .ok resps ∧
        resps.filter (fun resp => resp.devId = devId ∧ resp.modId = modId) =
          [⟨.EC_OK, devId, modId, some read⟩] := by
  obtain ⟨resps, hget, hresps⟩ := getModuleMem_eq devices fuel stack req start
  obtain ⟨reports, time, htime, hreports, hfilter⟩ := @requestResponses_filter Device Nat ModuleMem
    (getMemResponse (fuel + 2) stack req.mem (decide (req.modId < 0))) (start ≤ ·) devices
    Device.nports ⟨req.devId, req.modId, getMemRefused req.mem⟩ devId modId dev
    (fun _ _ _ _ _ h => about_getMemResponse h)
    (fun devId dev modId time h => Nat.le_trans h (getMemNext_le req.mem devId dev modId time))
    hrefused hdev hmodId hdevs hmods start (Nat.le_refl start)
  rw [hresps] at hreports
  cases hreports
  obtain ⟨res, hread, hres, -⟩ := readModuleMem_of_checked (checked_of_not_refused hrefused) fuel
    stack dev.cms modId (time + 1)
  have hrange := hanswers.rangeRead (Nat.le_succ_of_le htime) req.mem.page req.mem.offset
    (getMemCount req.mem)
  unfold getMemRange at hres
  rw [hrange] at hres
  cases res with
  | error err => cases hres
  | ok read =>
    have hresponse : (getMemResponse (fuel + 2) stack req.mem (decide (req.modId < 0)) devId dev
        modId time).1 = some ⟨.EC_OK, devId, modId, some read⟩ := by
      unfold getMemResponse
      rw [hanswers.modulePresent htime]
      simp only [hread]
    refine ⟨resps, read, hget, ?_⟩
    rw [hresponse, List.filter_map] at hfilter
    obtain ⟨resp, hsingle, hresp⟩ := List.map_eq_singleton_iff.mp hfilter
    cases resp
    cases hresp
    exact hsingle

end GetMem

theorem getMemRefused_of_accepted {req get : ModuleMemRequest} (haccepted : req.Accepted)
    (hoffset : get.mem.offset = req.mem.offset) (hpage : get.mem.page = req.mem.page)
    (hcount : get.mem.count.toNat = req.mem.data.length)
    : getMemRefused get.mem = none := by
  obtain ⟨hoffset', hpage', hcount'⟩ := accepted_iff.mp haccepted
  have hfits : ¬ (1 ≤ get.mem.count ∧ get.mem.count > 255 - get.mem.offset + 1) := by
    rintro ⟨-, hgt⟩
    rw [gt_iff_lt, UInt32.lt_iff_toNat_lt, hcount, hoffset] at hgt
    exact hcount' hgt
  unfold getMemRefused
  rw [hoffset, if_neg hoffset', hpage, if_neg hpage', ← hoffset, if_neg hfits]

-- What is stored in a module is what a read of the same range answers for it
theorem getModuleMem_of_stored {devices : List RamDevice} {devId modId : Nat} {dev : RamDevice}
    (hdev : devices[devId]? = some dev) {written : CmsModule} {mem : ModuleMem}
    (hstored : written.Stored (dev.modules (BitVec.ofNat 2 modId)) mem.page.toUInt8
      mem.offset.toNat mem.data)
    (hpos : 1 ≤ mem.data.length) {get : ModuleMemRequest} (hoffset : get.mem.offset = mem.offset)
    (hpage : get.mem.page = mem.page) (hcount : get.mem.count.toNat = mem.data.length)
    (stack : Nat → UInt8) (fuel later : Nat)
    : ∃ reads, getModuleMem (devices.map RamDevice.device) (fuel + 2) stack get later = .ok reads ∧
        ∀ read ∈ reads, read.errorCode = .EC_OK → read.devId = devId → read.modId = modId →
          read.mem = some ⟨mem.offset, mem.page, get.mem.count, mem.data⟩ := by
  obtain ⟨reads, hget, hreads⟩ := getModuleMem_spec (devices.map RamDevice.device) get stack
    (show 2 ≤ fuel + 2 by omega) later
  refine ⟨reads, hget, ?_⟩
  have hne : get.mem.count ≠ 0 := by
    intro hzero
    rw [hzero] at hcount
    have hzero' : (0 : UInt32).toNat = 0 := rfl
    omega
  intro read hread hreadOk hreadDev hreadMod
  obtain ⟨device, content, hdevice, _, hcontent, hreads⟩ :=
    (hreads read hread hreadOk).mpr (.inl hne)
  rw [List.getElem?_map, hreadDev, hdev] at hdevice
  cases hdevice
  rw [hreadMod] at hreads
  unfold RamDevice.device at hreads
  rw [dev.ram.card_modules] at hreads
  have hdata := reads_stored hreads hstored hoffset hpage hcount hne
  rw [hcontent, ← hdata, ← hoffset, ← hpage, ← hreads.offset_eq, ← hreads.page_eq,
    ← hreads.count_eq hne]

-- A request writes to each module that it selects the bytes that come before the first one whose
-- transaction fails, and answers for it accordingly. Nothing else changes. A read of the same range
-- that the mailbox answers has one response for a module that has been written, with the data.
theorem setModuleMem_then_getModuleMem (devices : List RamDevice) (req : ModuleMemRequest)
    (time : Nat)
    : ∃ resps devices' time', setModuleMem devices req time = .ok (resps, devices', time') ∧
        devices'.length = devices.length ∧
        (∀ resp ∈ resps,
          resp.errorCode = .EC_OK ∨ resp.errorCode = .EC_MODULE_MEM_WRITE_FAILED →
            req.Selects devices resp.devId resp.modId) ∧
        (∀ devId dev, devices[devId]? = some dev → ∃ dev', devices'[devId]? = some dev' ∧
          dev'.ram = dev.ram ∧ dev'.nports = dev.nports ∧
          (∀ modId, req.Selects devices devId modId → ∃ modules₁ time₁,
            req.Reaches devices time devId modId dev modules₁ time₁ ∧
            resps.filter (fun resp => resp.devId = devId ∧ resp.modId = modId) =
              (writeResponse dev.ram (decide (req.modId < 0)) devId req.mem modId modules₁
                time₁).toList ∧
            (dev.modules (BitVec.ofNat 2 modId)).Stored (dev'.modules (BitVec.ofNat 2 modId))
              req.mem.page.toUInt8 req.mem.offset.toNat
              (writtenBytes dev.ram req.mem modId modules₁ time₁)) ∧
          ∀ modId < 4, ¬ req.Selects devices devId modId →
            dev'.modules (BitVec.ofNat 2 modId) = dev.modules (BitVec.ofNat 2 modId)) ∧
        ∀ resp ∈ resps, resp.errorCode = .EC_OK → 1 ≤ req.mem.data.length →
          ∀ (get : ModuleMemRequest) (stack : Nat → UInt8) (fuel later : Nat),
            get.mem.offset = req.mem.offset → get.mem.page = req.mem.page →
            get.mem.count.toNat = req.mem.data.length →
            ∃ reads,
              getModuleMem (devices'.map RamDevice.device) (fuel + 2) stack get later = .ok reads ∧
              (∀ read ∈ reads, read.errorCode = .EC_OK → read.devId = resp.devId →
                read.modId = resp.modId → read.mem.map ModuleMem.data = some req.mem.data) ∧
              ((get.devId < 0 ∨ get.devId = resp.devId) →
                (get.modId < 0 ∨ get.modId = resp.modId) →
                (∀ dev ∈ devices'[resp.devId]?, Answers dev.device.cms resp.modId later) →
                reads.filter (fun read => read.devId = resp.devId ∧ read.modId = resp.modId) =
                  [⟨.EC_OK, resp.devId, resp.modId,
                    some ⟨req.mem.offset, req.mem.page, get.mem.count, req.mem.data⟩⟩]) := by
  obtain ⟨resps, devices', time', hset, hlen, hselects, hdevices⟩ := setModuleMem_spec devices req
    time
  refine ⟨resps, devices', time', hset, hlen, hselects, hdevices, ?_⟩
  intro resp hresp hok hpos get stack fuel later hoffset hpage hcount
  have hsel := hselects resp hresp (.inl hok)
  obtain ⟨dev, hdev, _⟩ := hsel.2.2.2
  obtain ⟨dev', hdev', _, hnports, hmodules, _⟩ := hdevices resp.devId dev hdev
  obtain ⟨modules₁, time₁, _, hfilter, hstored⟩ := hmodules resp.modId hsel
  have hresp' : resp ∈ resps.filter fun r => r.devId = resp.devId ∧ r.modId = resp.modId :=
    List.mem_filter.mpr ⟨hresp, by simp⟩
  rw [hfilter] at hresp'
  rw [writeResponse_ok hresp' hok] at hstored
  obtain ⟨reads, hget, hreads⟩ :=
    getModuleMem_of_stored hdev' hstored hpos hoffset hpage hcount stack fuel later
  refine ⟨reads, hget, ?_, ?_⟩
  . intro read hread hreadOk hreadDev hreadMod
    rw [hreads read hread hreadOk hreadDev hreadMod]
    rfl
  . intro hdevs hmods hanswers
    have hdevice : (devices'.map RamDevice.device)[resp.devId]? = some dev'.device := by
      rw [List.getElem?_map, hdev']
      rfl
    have hport : resp.modId < dev'.device.nports := by
      obtain ⟨dev₁, hdev₁, hlt⟩ := hsel.2.2.2
      rw [hdev] at hdev₁
      cases hdev₁
      show resp.modId < dev'.nports
      rw [hnports]
      exact hlt
    obtain ⟨reads', read, hget', hfilter⟩ := getModuleMem_filter hdevice hport hdevs hmods
      (getMemRefused_of_accepted hsel.1 hoffset hpage hcount) (hanswers dev' hdev') fuel stack
    rw [hget] at hget'
    cases hget'
    have hmem : ⟨.EC_OK, resp.devId, resp.modId, some read⟩ ∈ reads := by
      have hin := List.mem_singleton_self (ModuleMemResponse.mk .EC_OK resp.devId resp.modId read)
      rw [← hfilter] at hin
      exact List.mem_of_mem_filter hin
    have hread := Option.some.inj (hreads _ hmem rfl rfl rfl)
    rw [hfilter, hread]

-- A device all of whose transactions succeed, and two bytes, one in each page
def idealDevice : RamDevice :=
  ⟨CmsRam.ideal fun _ => true, fun _ => addressModule, 2, Nat.le_add_right 2 2⟩

theorem answers_ideal (modules : BitVec 2 → CmsModule) (modId : Nat)
    : Answers (Cms.ideal modules) modId 0 := by
  constructor
  . intro t _
    have hsignals : (1 : UInt32).toNat.testBit 0 ∧ ¬ (1 : UInt32).toNat.testBit 3 := by decide
    exact if_pos hsignals
  . intro t _
    exact ⟨rfl, fun select _ => ⟨_, rfl, rfl⟩⟩
  . intro t _ select offset _
    rfl

theorem setModuleMem_then_getModuleMem_ideal
    : ∃ devices' time', setModuleMem [idealDevice] ⟨0, 1, ⟨127, 3, 0, [7, 9]⟩⟩ 0 =
          .ok ([⟨.EC_OK, 0, 1, none⟩], devices', time') ∧
        ∃ reads, getModuleMem (devices'.map RamDevice.device) 2 (fun _ => 0)
            ⟨0, -1, ⟨127, 3, 2, []⟩⟩ 0 = .ok reads ∧
          reads.filter (fun read => read.devId = 0 ∧ read.modId = 1) =
            [⟨.EC_OK, 0, 1, some ⟨127, 3, 2, [7, 9]⟩⟩] := by
  obtain ⟨resps, devices', time', hset, -, -, hdevices, hback⟩ :=
    setModuleMem_then_getModuleMem [idealDevice] ⟨0, 1, ⟨127, 3, 0, [7, 9]⟩⟩ 0
  have hresps : (setModuleMem [idealDevice] ⟨0, 1, ⟨127, 3, 0, [7, 9]⟩⟩ 0).map (·.1) =
      .ok [⟨.EC_OK, 0, 1, none⟩] := by
    decide +kernel
  rw [hset] at hresps
  cases hresps
  obtain ⟨dev', hdev', hram, -⟩ := hdevices 0 idealDevice rfl
  obtain ⟨reads, hget, -, hone⟩ := hback _ (List.mem_singleton_self _) rfl (by decide)
    ⟨0, -1, ⟨127, 3, 2, []⟩⟩ (fun _ => 0) 0 0 rfl rfl rfl
  refine ⟨devices', time', hset, reads, hget, hone (.inr rfl) (.inl (by decide)) ?_⟩
  intro dev hdev
  rw [hdev'] at hdev
  cases hdev
  unfold RamDevice.device
  rw [hram]
  exact answers_ideal _ 1

end SnCfg
