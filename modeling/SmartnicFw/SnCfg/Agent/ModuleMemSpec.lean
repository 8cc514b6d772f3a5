import SmartnicFw.SnCfg.Agent.ModuleRequest

/-!
This module contains what a read of a module's memory is to return, and for which requests it does.
-/

namespace SnCfg

-- A range of the memory of a module, as it was asked for
structure ModuleMem.Reads (mem req : ModuleMem) (module : CmsModule) : Prop where
  offset_eq : mem.offset = req.offset
  page_eq : mem.page = req.page
  count_pos : 1 ≤ mem.count.toNat
  count_eq : req.count ≠ 0 → mem.count = req.count
  range_le : mem.offset.toNat + mem.count.toNat ≤ 256
  length_eq : mem.data.length = mem.count.toNat
  data_eq : ∀ i < mem.count.toNat,
    mem.data[i]? = module.byte mem.page.toUInt8 (mem.offset.toNat + i)

def ModuleMemResponse.Reads (resp : ModuleMemResponse) (devices : List Device)
    (req : ModuleMemRequest) : Prop :=
  ∃ dev mem, devices[resp.devId]? = some dev ∧ resp.modId < dev.nports ∧ resp.mem = some mem ∧
    mem.Reads req.mem (dev.cms.modules (BitVec.ofNat 2 resp.modId))

-- What the two pages that the loop reads hold, where the second one is always an upper page
def CmsModule.rangeByte (module : CmsModule) (page : UInt8) (offset i : Nat) : Option UInt8 :=
  if i < 128 - offset % 128 then
    module.pageByte (decide (128 ≤ offset)) page (offset % 128 + i)
  else
    module.pageByte true page (i - (128 - offset % 128))

structure ModuleMem.Copied (mem : ModuleMem) (offset page count : UInt32) (module : CmsModule)
    : Prop where
  offset_eq : mem.offset = offset
  page_eq : mem.page = page
  count_eq : mem.count = count
  length_eq : mem.data.length = count.toNat
  data_eq : ∀ i < count.toNat,
    mem.data[i]? = CmsModule.rangeByte module page.toUInt8 offset.toNat i

theorem CmsModule.rangeByte_eq_byte {module : CmsModule} {page : UInt8} {offset i : Nat}
    (h : offset + i < 256)
    : CmsModule.rangeByte module page offset i = module.byte page (offset + i) := by
  unfold CmsModule.rangeByte CmsModule.byte cmsModulePageSize
  by_cases hupper : 128 ≤ offset
  . have hmod : offset % 128 = offset - 128 := by omega
    have hsub : offset - 128 + i = offset + i - 128 := by omega
    rw [if_pos (by omega), if_neg (by omega), decide_eq_true hupper, hmod, hsub]
  . have hmod : offset % 128 = offset := by omega
    by_cases hlower : offset + i < 128
    . rw [if_pos (by omega), if_pos hlower, decide_eq_false hupper, hmod]
    . have hsub : i - (128 - offset) = offset + i - 128 := by omega
      rw [hmod, if_neg (by omega), if_neg hlower, hsub]

theorem toNat_dataCount {count : UInt32} {dataOffset dataCount : UInt8}
    (hsum : dataOffset.toNat + dataCount.toNat ≤ count.toNat) (hcount : count.toNat ≤ 256)
    : (count - (dataOffset + dataCount).toUInt32).toUInt8.toNat =
        (count.toNat - (dataOffset.toNat + dataCount.toNat)) % 256 := by
  have hle : (dataOffset + dataCount).toUInt32 ≤ count := by
    rw [UInt32.le_iff_toNat_le, UInt8.toNat_toUInt32, UInt8.toNat_add]
    omega
  rw [UInt32.toNat_toUInt8, UInt32.toNat_sub_of_le _ _ hle, UInt8.toNat_toUInt32, UInt8.toNat_add]
  omega

theorem toNat_min (a b : UInt32) : (min a b).toNat = min a.toNat b.toNat := by
  show (if a ≤ b then a else b).toNat = min a.toNat b.toNat
  split
  . rename_i h
    rw [min_eq_left (UInt32.le_iff_toNat_le.mp h)]
  . rename_i h
    rw [UInt32.le_iff_toNat_le] at h
    rw [min_eq_right (by omega)]

section Copy

variable {cms : Cms} {fuel time : Nat} {cmsId : CmsModuleId}

-- A page gives the bytes from `pageOffset` on, and the buffer has room for them
theorem copy_page {page : CmsModulePage} (hpage : cmsModulePageRead cms time cmsId = some page)
    (hsfp : cmsId.sfpDiag = false) (hcmis : cmsId.cmis = false) {data : List UInt8}
    {dst start n : Nat} (hdst : dst + n ≤ data.length) (hstart : start + n ≤ 128)
    : ∃ data', Buffer.copy data dst page.u8 start n = some data' ∧ data'.length = data.length ∧
        (∀ k < n, data'[dst + k]? =
          (cmsId.module cms).pageByte cmsId.upper cmsId.page (start + k)) ∧
        ∀ i, i < dst ∨ dst + n ≤ i → data'[i]? = data[i]? := by
  have hread : ∀ k < n, page.u8 (start + k) =
      (cmsId.module cms).pageByte cmsId.upper cmsId.page (start + k) := by
    intro k hk
    apply cmsModulePageRead_u8 hpage hsfp hcmis
    show _ < 128
    omega
  have hsome : ∀ k < n, (page.u8 (start + k)).isSome := by
    intro k hk
    have hlt : start + k < cmsModulePageSize := by
      show _ < 128
      omega
    rw [hread k hk]
    unfold CmsModule.pageByte
    cases cmsId.upper <;> simp [hlt]
  obtain ⟨data', hcopy, hlen, hcopied, hkept⟩ := Buffer.exists_copy hdst hsome
  refine ⟨data', hcopy, hlen, ?_, hkept⟩
  intro k hk
  rw [hcopied k hk, hread k hk]

-- Whether the pages of a range can be read, and how many of them are asked for
def pagesRead (cms : Cms) (cmsId : CmsModuleId) (offset count time : Nat) : Bool × Nat :=
  match cmsModulePageRead cms time cmsId with
  | none => (false, 1)
  | some _ =>
    if count ≤ 128 - offset % 128 then
      (true, 1)
    else
      ((cmsModulePageRead cms (time + 1) { cmsId with upper := true }).isSome, 2)

-- What stands against the read of a range, and the time after it
def rangeRead (cms : Cms) (cmsId : CmsModuleId) (offset count : UInt32) (time : Nat)
    : Except ErrorCode Unit × Nat :=
  if count > 1 then
    let (ok, n) := pagesRead cms { cmsId with upper := decide (offset ≥ 128) } offset.toNat
      count.toNat time
    (if ok then .ok () else .error .EC_MODULE_PAGE_READ_FAILED, time + n)
  else
    let byte := cmsModuleByteRead cms time cmsId offset.toUInt8
    (if byte.isSome then .ok () else .error .EC_MODULE_MEM_READ_FAILED, time + 1)

theorem copyPages_none (hpage : cmsModulePageRead cms time cmsId = none) (hfuel : 1 ≤ fuel)
    (count : UInt32) (pageOffset dataCount dataOffset : UInt8) (data : List UInt8)
    : copyPages cms count fuel cmsId pageOffset dataCount dataOffset data time =
        .ok (none, time + 1) := by
  obtain ⟨fuel, rfl⟩ := Nat.exists_eq_add_of_le' hfuel
  simp only [copyPages, hpage]

-- One iteration of the loop, which leaves nothing to copy
theorem copyPages_last {page : CmsModulePage}
    (hpage : cmsModulePageRead cms time cmsId = some page) (hfuel : 1 ≤ fuel)
    (hsfp : cmsId.sfpDiag = false) (hcmis : cmsId.cmis = false) {count : UInt32}
    {pageOffset dataCount dataOffset : UInt8} {data : List UInt8}
    (hsum : dataOffset.toNat + dataCount.toNat = count.toNat)
    (hcount : count.toNat ≤ 256) (hpageOffset : pageOffset.toNat + dataCount.toNat ≤ 128)
    (hdata : data.length = count.toNat)
    : ∃ data', copyPages cms count fuel cmsId pageOffset dataCount dataOffset data time =
            .ok (some data', time + 1) ∧
          data'.length = count.toNat ∧
          (∀ i < dataOffset.toNat, data'[i]? = data[i]?) ∧
          ∀ k < dataCount.toNat, data'[dataOffset.toNat + k]? =
            (cmsId.module cms).pageByte cmsId.upper cmsId.page (pageOffset.toNat + k) := by
  obtain ⟨fuel, rfl⟩ := Nat.exists_eq_add_of_le' hfuel
  obtain ⟨data', hcopy, hlen, hcopied, hkept⟩ := copy_page hpage hsfp hcmis
    (show dataOffset.toNat + dataCount.toNat ≤ data.length by omega) hpageOffset
  have hzero : ¬ (count - (dataOffset + dataCount).toUInt32).toUInt8 > 0 := by
    rw [gt_iff_lt, UInt8.lt_iff_toNat_lt, toNat_dataCount (le_of_eq hsum) hcount, hsum]
    simp
  refine ⟨data', ?_, by omega, ?_, hcopied⟩
  . simp only [copyPages, hpage, hcopy]
    rw [if_neg hzero]
  . intro i hi
    exact hkept i (.inl hi)

-- One iteration of the loop, which goes on with the upper page
theorem copyPages_more {page : CmsModulePage}
    (hpage : cmsModulePageRead cms time cmsId = some page) (hsfp : cmsId.sfpDiag = false)
    (hcmis : cmsId.cmis = false) {count : UInt32} {pageOffset dataCount : UInt8}
    {data : List UInt8} (hpos : 0 < dataCount.toNat) (hsum : dataCount.toNat < count.toNat)
    (hcount : count.toNat ≤ 256) (hpageOffset : pageOffset.toNat + dataCount.toNat ≤ 128)
    (hdata : data.length = count.toNat)
    : ∃ data' rest, copyPages cms count (fuel + 1) cmsId pageOffset dataCount 0 data time =
            copyPages cms count fuel { cmsId with upper := true } 0 rest dataCount data'
              (time + 1) ∧
          rest.toNat = count.toNat - dataCount.toNat ∧
          data'.length = count.toNat ∧
          ∀ k < dataCount.toNat, data'[k]? =
            (cmsId.module cms).pageByte cmsId.upper cmsId.page (pageOffset.toNat + k) := by
  obtain ⟨data', hcopy, hlen, hcopied, _⟩ := copy_page hpage hsfp hcmis
    (show 0 + dataCount.toNat ≤ data.length by omega) hpageOffset
  have hrest := toNat_dataCount (show (0 : UInt8).toNat + dataCount.toNat ≤ count.toNat by
    simp only [UInt8.toNat_zero]
    omega) hcount
  simp only [UInt8.toNat_zero, Nat.zero_add, UInt8.zero_add] at hrest
  rw [Nat.mod_eq_of_lt (by omega)] at hrest
  have hgo : (count - dataCount.toUInt32).toUInt8 > 0 := by
    rw [gt_iff_lt, UInt8.lt_iff_toNat_lt, hrest, UInt8.toNat_zero]
    omega
  refine ⟨data', (count - dataCount.toUInt32).toUInt8, ?_, hrest, by omega, ?_⟩
  . simp only [copyPages, hpage, UInt8.toNat_zero, hcopy, UInt8.zero_add]
    rw [if_pos hgo]
  . intro k hk
    rw [← hcopied k hk, Nat.zero_add]

-- The loop copies one or two pages, and is done, whatever its counters start from
theorem copyPages_spec (cms : Cms) (time : Nat) (cmsId : CmsModuleId) (hfuel : 2 ≤ fuel)
    (hsfp : cmsId.sfpDiag = false) (hcmis : cmsId.cmis = false) {offset count : UInt32}
    {pageOffset dataCount : UInt8} {data : List UInt8}
    (hupper : cmsId.upper = decide (128 ≤ offset.toNat))
    (hpageOffset : pageOffset.toNat = offset.toNat % 128)
    (hdataCount : dataCount.toNat = min count.toNat (128 - offset.toNat % 128))
    (hcount : count.toNat ≤ 256 - offset.toNat % 128) (hdata : data.length = count.toNat)
    : ∃ copied, copyPages cms count fuel cmsId pageOffset dataCount 0 data time =
        .ok (copied, time + (pagesRead cms cmsId offset.toNat count.toNat time).2) ∧
      copied.isSome = (pagesRead cms cmsId offset.toNat count.toNat time).1 ∧
      ∀ data', copied = some data' → data'.length = count.toNat ∧
        ∀ i < count.toNat, data'[i]? =
          CmsModule.rangeByte (cmsId.module cms) cmsId.page offset.toNat i := by
  obtain ⟨fuel, rfl⟩ := Nat.exists_eq_add_of_le' (show 1 ≤ fuel by omega)
  cases hpage : cmsModulePageRead cms time cmsId with
  | none =>
    simp only [pagesRead, hpage]
    exact ⟨none, copyPages_none hpage (by omega) _ _ _ _ _, rfl, by simp⟩
  | some page =>
    by_cases hfits : count.toNat ≤ 128 - offset.toNat % 128
    . -- The bytes are all in the first page
      have hdataCount : dataCount.toNat = count.toNat := by omega
      obtain ⟨data', hcopy, hlen, _, hcopied⟩ := copyPages_last hpage
        (show 1 ≤ fuel + 1 by omega) hsfp hcmis
        (show (0 : UInt8).toNat + dataCount.toNat = count.toNat by simpa using hdataCount)
        (by omega) (show pageOffset.toNat + dataCount.toNat ≤ 128 by omega) hdata
      simp only [pagesRead, hpage, if_pos hfits]
      refine ⟨some data', hcopy, rfl, ?_⟩
      rintro _ ⟨⟩
      refine ⟨hlen, ?_⟩
      intro i hi
      have hi' := hcopied i (by omega)
      simp only [UInt8.toNat_zero, Nat.zero_add] at hi'
      rw [hi', CmsModule.rangeByte, if_pos (by omega), hupper, hpageOffset]
    . obtain ⟨data₁, rest, hmore, hrest, hlen₁, hcopied₁⟩ := copyPages_more hpage hsfp hcmis
        (show 0 < dataCount.toNat by omega) (show dataCount.toNat < count.toNat by omega)
        (by omega) (show pageOffset.toNat + dataCount.toNat ≤ 128 by omega) hdata
      have hrest' : (0 : UInt8).toNat + rest.toNat ≤ 128 := by
        simp only [UInt8.toNat_zero]
        omega
      have hsfp' : CmsModuleId.sfpDiag { cmsId with upper := true } = false := hsfp
      simp only [pagesRead, hpage, if_neg hfits]
      cases hpage' : cmsModulePageRead cms (time + 1) { cmsId with upper := true } with
      | none =>
        refine ⟨none, ?_, rfl, by simp⟩
        rw [hmore, copyPages_none hpage' (by omega)]
      | some page' =>
        obtain ⟨data', hcopy, hlen, hkept, hcopied⟩ := copyPages_last hpage'
          (show 1 ≤ fuel by omega) hsfp' hcmis
          (show dataCount.toNat + rest.toNat = count.toNat by omega) (by omega) hrest' hlen₁
        refine ⟨some data', by rw [hmore, hcopy], rfl, ?_⟩
        rintro _ ⟨⟩
        refine ⟨hlen, ?_⟩
        intro i hi
        by_cases hfirst : i < dataCount.toNat
        . rw [hkept i hfirst, hcopied₁ i hfirst, CmsModule.rangeByte, if_pos (by omega), hupper,
            hpageOffset]
        . have hsecond := hcopied (i - dataCount.toNat) (by omega)
          rw [show dataCount.toNat + (i - dataCount.toNat) = i by omega] at hsecond
          rw [hsecond, CmsModule.rangeByte, if_neg (by omega), UInt8.toNat_zero, Nat.zero_add,
            hdataCount, min_eq_right (by omega)]
          rfl

theorem readModuleMem_spec (cmsId : CmsModuleId) {offset page count : UInt32} (hfuel : 2 ≤ fuel)
    (hsfp : cmsId.sfpDiag = false) (hcmis : cmsId.cmis = false) (hpage : cmsId.page = page.toUInt8)
    (hoffset : offset.toNat ≤ 255) (hpos : 1 ≤ count.toNat)
    (hcount : count.toNat ≤ 256 - offset.toNat % 128) (cms : Cms) (stack : Nat → UInt8) (time : Nat)
    : ∃ res, readModuleMem cms fuel stack cmsId offset page count time =
          .ok (res, (rangeRead cms cmsId offset count time).2) ∧
        (rangeRead cms cmsId offset count time).1 = res.map (fun _ => ()) ∧
        ∀ mem, res = .ok mem → mem.Copied offset page count (cmsId.module cms) := by
  unfold readModuleMem rangeRead
  by_cases hone : count > 1
  . have hone' : 1 < count.toNat := by
      simpa [UInt32.lt_iff_toNat_lt] using hone
    have hpageOffset : (offset &&& 127).toUInt8.toNat = offset.toNat % 128 := by
      rw [UInt32.toNat_toUInt8, UInt32.toNat_and]
      have hand : offset.toNat &&& 127 = offset.toNat % 2 ^ 7 := Nat.and_two_pow_sub_one_eq_mod _ 7
      show (offset.toNat &&& 127) % 256 = _
      omega
    have hsub : (128 - (offset &&& 127).toUInt8.toUInt32).toNat = 128 - offset.toNat % 128 := by
      have hle : (offset &&& 127).toUInt8.toUInt32 ≤ 128 := by
        rw [UInt32.le_iff_toNat_le, UInt8.toNat_toUInt32, hpageOffset]
        show _ ≤ 128
        omega
      rw [UInt32.toNat_sub_of_le _ _ hle, UInt8.toNat_toUInt32, hpageOffset]
      rfl
    have hmin : (min count (128 - (offset &&& 127).toUInt8.toUInt32)).toUInt8.toNat =
        min count.toNat (128 - offset.toNat % 128) := by
      rw [UInt32.toNat_toUInt8, toNat_min, hsub]
      omega
    have hbuffer : ((List.range count.toNat).map stack).length = count.toNat := by simp
    have hupper : decide (offset ≥ 128) = decide (128 ≤ offset.toNat) := by
      show decide (128 ≤ offset) = decide (128 ≤ offset.toNat)
      rw [decide_eq_decide, UInt32.le_iff_toNat_le]
      rfl
    obtain ⟨copied, hcopy, hsome, hspec⟩ := copyPages_spec cms time
      { cmsId with upper := decide (offset ≥ 128) } hfuel hsfp hcmis hupper hpageOffset hmin hcount
      hbuffer
    rw [if_pos hone, if_pos hone]
    simp only [bind, Except.bind, hcopy, ← hsome]
    cases copied with
    | none => exact ⟨_, rfl, rfl, by simp⟩
    | some data =>
      refine ⟨_, rfl, rfl, ?_⟩
      rintro _ ⟨⟩
      obtain ⟨hlen, hdata⟩ := hspec data rfl
      refine ⟨rfl, rfl, rfl, hlen, ?_⟩
      intro i hi
      rw [← hpage]
      exact hdata i hi
  . have htoNat : count.toNat = 1 := by
      rw [gt_iff_lt, UInt32.lt_iff_toNat_lt] at hone
      have hone' : ¬ 1 < count.toNat := hone
      omega
    have hcount_one : count = 1 := UInt32.toNat_inj.mp htoNat
    rw [if_neg hone, if_neg hone]
    cases hbyte : cmsModuleByteRead cms time cmsId offset.toUInt8 with
    | none => exact ⟨_, rfl, rfl, by simp⟩
    | some value =>
      refine ⟨_, rfl, rfl, ?_⟩
      rintro _ ⟨⟩
      refine ⟨rfl, rfl, hcount_one.symm, htoNat.symm, ?_⟩
      intro i hi
      have hi : i = 0 := by omega
      have hread := cmsModuleByteRead_eq hbyte hsfp hcmis
      rw [hi, CmsModule.rangeByte_eq_byte (by omega), ← hpage, Nat.add_zero]
      rw [UInt32.toNat_toUInt8, Nat.mod_eq_of_lt (by omega)] at hread
      rw [hread]
      rfl

theorem rangeRead_ne (cms : Cms) (cmsId : CmsModuleId) (offset count : UInt32) (time : Nat)
    : (rangeRead cms cmsId offset count time).1 ≠ .error .EC_OK := by
  unfold rangeRead
  split
  . simp only
    split <;> simp
  . simp only
    split <;> simp

end Copy

-- The range that is copied for a request is the one it asks for, unless the count is the default and
-- there are fewer bytes from the offset on
theorem ModuleMem.Copied.reads_iff {mem req : ModuleMem} {count : UInt32} {module : CmsModule}
    (h : mem.Copied req.offset req.page count module)
    (hcount : count = if req.count < 1 then 128 else req.count)
    (hrange : req.count ≠ 0 → req.offset.toNat + req.count.toNat ≤ 256)
    : mem.Reads req module ↔ req.count ≠ 0 ∨ req.offset.toNat ≤ 128 := by
  have hdefault : req.count = 0 → count.toNat = 128 := by
    intro hzero
    rw [hcount, hzero]
    rfl
  have hexplicit : req.count ≠ 0 → count = req.count ∧ 1 ≤ count.toNat := by
    intro hne
    have hpos : 1 ≤ req.count.toNat := by
      have hne' : req.count.toNat ≠ 0 := fun hzero => hne (UInt32.toNat_inj.mp hzero)
      omega
    have hlt : ¬ req.count < 1 := by
      rw [UInt32.lt_iff_toNat_lt]
      show ¬ req.count.toNat < 1
      omega
    rw [if_neg hlt] at hcount
    rw [hcount]
    exact ⟨rfl, hpos⟩
  constructor
  . intro hreads
    by_cases hzero : req.count = 0
    . right
      have hle := hreads.range_le
      rw [h.offset_eq, h.count_eq, hdefault hzero] at hle
      omega
    . left
      exact hzero
  . intro hcond
    have hle : req.offset.toNat + count.toNat ≤ 256 ∧ 1 ≤ count.toNat := by
      by_cases hzero : req.count = 0
      . have hoffset := hcond.resolve_left (fun hne => hne hzero)
        have := hdefault hzero
        omega
      . obtain ⟨heq, hpos⟩ := hexplicit hzero
        have := hrange hzero
        rw [heq] at hpos ⊢
        omega
    constructor
    . exact h.offset_eq
    . exact h.page_eq
    . rw [h.count_eq]
      exact hle.2
    . intro hne
      rw [h.count_eq]
      exact (hexplicit hne).1
    . rw [h.offset_eq, h.count_eq]
      exact hle.1
    . rw [h.length_eq, h.count_eq]
    . intro i hi
      rw [h.count_eq] at hi
      rw [h.data_eq i hi, h.offset_eq, h.page_eq, CmsModule.rangeByte_eq_byte]
      omega

section Request

variable {fuel : Nat} {stack : Nat → UInt8}

theorem setWidth_ofNat (modId : Nat)
    : (UInt8.ofNat modId).toBitVec.setWidth 2 = BitVec.ofNat 2 modId := by
  apply BitVec.eq_of_toNat_eq
  rw [BitVec.toNat_setWidth, BitVec.toNat_ofNat]
  show (modId % 256) % 4 = modId % 4
  omega

theorem moduleLoop_spec (stack : Nat → UInt8) (page : UInt32) {offset count : UInt32} (hfuel : 2 ≤ fuel)
    (hoffset : offset.toNat ≤ 255) (hpos : 1 ≤ count.toNat)
    (hcount : count.toNat ≤ 256 - offset.toNat % 128) (cms : Cms) (isRange : Bool) (devId : Nat)
    (modIds : List Nat) (time : Nat)
    : ∃ resps time', moduleLoop cms fuel stack isRange devId offset page count modIds time =
        .ok (resps, time') ∧
      ∀ resp ∈ resps, resp.errorCode = .EC_OK → resp.devId = devId ∧ resp.modId ∈ modIds ∧
        ∃ mem, resp.mem = some mem ∧
          mem.Copied offset page count (cms.modules (BitVec.ofNat 2 resp.modId)) := by
  induction modIds generalizing time with
  | nil => exact ⟨[], time, rfl, by simp⟩
  | cons modId modIds ih =>
    -- A response for a later module is one for a module of the whole list
    have hlater : ∀ resps : List ModuleMemResponse, (∀ resp ∈ resps, resp.errorCode = .EC_OK →
        resp.devId = devId ∧ resp.modId ∈ modIds ∧ ∃ mem, resp.mem = some mem ∧
          mem.Copied offset page count (cms.modules (BitVec.ofNat 2 resp.modId))) →
        ∀ resp ∈ resps, resp.errorCode = .EC_OK →
          resp.devId = devId ∧ resp.modId ∈ modId :: modIds ∧ ∃ mem, resp.mem = some mem ∧
            mem.Copied offset page count (cms.modules (BitVec.ofNat 2 resp.modId)) := by
      intro resps h resp hresp hok
      obtain ⟨hdev, hmem, hrest⟩ := h resp hresp hok
      exact ⟨hdev, List.mem_cons_of_mem modId hmem, hrest⟩
    by_cases hpresent : checkModulePresent cms time modId = .EC_OK
    . obtain ⟨res, hread, hres, hspec⟩ := readModuleMem_spec
        (cmsModuleId modId page) hfuel rfl rfl (show _ = page.toUInt8 from rfl) hoffset hpos hcount
        cms stack (time + 1)
      have hne : res ≠ .error .EC_OK := by
        rintro rfl
        exact rangeRead_ne _ _ _ _ _ hres
      obtain ⟨resps, time₂, hloop, hresps⟩ := ih
        (rangeRead cms (cmsModuleId modId page) offset count (time + 1)).2
      have hresps := hlater resps hresps
      cases res with
      | error err =>
        refine ⟨⟨err, devId, modId, none⟩ :: resps, time₂, ?_, ?_⟩
        . simp only [moduleLoop, hpresent, bind, Except.bind, hread, hloop]
        . intro resp hresp hok
          rcases List.mem_cons.mp hresp with rfl | hresp
          . exact absurd (congrArg Except.error hok) hne
          . exact hresps resp hresp hok
      | ok mem =>
        refine ⟨⟨.EC_OK, devId, modId, some mem⟩ :: resps, time₂, ?_, ?_⟩
        . simp only [moduleLoop, hpresent, bind, Except.bind, hread, hloop]
        . intro resp hresp hok
          rcases List.mem_cons.mp hresp with rfl | hresp
          . refine ⟨rfl, List.mem_cons_self, mem, rfl, ?_⟩
            have hcopied := hspec mem rfl
            unfold CmsModuleId.module cmsModuleId at hcopied
            rwa [setWidth_ofNat] at hcopied
          . exact hresps resp hresp hok
    . obtain ⟨resps, time₁, hloop, hresps⟩ := ih (time + 1)
      have hresps := hlater resps hresps
      cases hrange : isRange with
      | true =>
        refine ⟨resps, time₁, ?_, hresps⟩
        rw [hrange] at hloop
        unfold moduleLoop
        split
        . contradiction
        . simp only [bind, Except.bind, hloop, if_true]
      | false =>
        refine ⟨⟨checkModulePresent cms time modId, devId, modId, none⟩ :: resps, time₁, ?_, ?_⟩
        . rw [hrange] at hloop
          unfold moduleLoop
          split
          . contradiction
          . simp [bind, Except.bind, hloop]
        . intro resp hresp hok
          rcases List.mem_cons.mp hresp with rfl | hresp
          . exact absurd hok hpresent
          . exact hresps resp hresp hok

theorem toNat_max_count {offset : UInt32} (hoffset : offset.toNat ≤ 255)
    : (255 - offset + 1).toNat = 256 - offset.toNat := by
  have hle : offset ≤ 255 := UInt32.le_iff_toNat_le.mpr hoffset
  rw [UInt32.toNat_add, UInt32.toNat_sub_of_le _ _ hle]
  show (255 - offset.toNat + 1) % 2 ^ 32 = _
  omega

-- What the checks of a request leave
theorem checked_range {offset count : UInt32} (hoffset : ¬ offset > 255)
    (hcount : ¬ (1 ≤ count ∧ count > 255 - offset + 1))
    : offset.toNat ≤ 255 ∧ (count ≠ 0 → offset.toNat + count.toNat ≤ 256) ∧
        1 ≤ (if count < 1 then 128 else count : UInt32).toNat ∧
        (if count < 1 then 128 else count : UInt32).toNat ≤ 256 - offset.toNat % 128 := by
  have hoffset' : offset.toNat ≤ 255 := by
    rw [gt_iff_lt, UInt32.lt_iff_toNat_lt] at hoffset
    have hoffset : ¬ 255 < offset.toNat := hoffset
    omega
  rw [gt_iff_lt, UInt32.lt_iff_toNat_lt, UInt32.le_iff_toNat_le, toNat_max_count hoffset'] at hcount
  have hcount : ¬ (1 ≤ count.toNat ∧ 256 - offset.toNat < count.toNat) := hcount
  by_cases hzero : count = 0
  . subst hzero
    refine ⟨hoffset', by simp, by decide, ?_⟩
    show 128 ≤ 256 - offset.toNat % 128
    omega
  . have hne : count.toNat ≠ 0 := fun h => hzero (UInt32.toNat_inj.mp h)
    have hlt : ¬ count < 1 := by
      rw [UInt32.lt_iff_toNat_lt]
      show ¬ count.toNat < 1
      omega
    rw [if_neg hlt]
    refine ⟨hoffset', ?_, by omega, by omega⟩
    intro _
    omega

theorem deviceLoop_spec {devices : List Device} {req : ModuleMemRequest} (hfuel : 2 ≤ fuel)
    {devIds : List Nat} (hdevIds : ∀ devId ∈ devIds, devId < devices.length) (time : Nat)
    : ∃ resps, deviceLoop devices fuel stack req devIds time = .ok resps ∧
      ∀ resp ∈ resps, resp.errorCode = .EC_OK →
        (resp.Reads devices req ↔ req.mem.count ≠ 0 ∨ req.mem.offset.toNat ≤ 128) := by
  induction devIds generalizing time with
  | nil => exact ⟨[], rfl, by simp⟩
  | cons devId devIds ih =>
    have hlt : devId < devices.length := hdevIds devId List.mem_cons_self
    have hrest : ∀ devId ∈ devIds, devId < devices.length := by
      intro devId hmem
      exact hdevIds devId (List.mem_cons_of_mem _ hmem)
    have hdev := List.getElem?_eq_getElem hlt
    unfold deviceLoop
    simp only [hdev]
    by_cases hmodId : req.modId > (devices[devId].nports : Int) - 1
    . obtain ⟨resps, hloop, hresps⟩ := ih hrest time
      refine ⟨⟨.EC_INVALID_MODULE_ID, devId, 0, none⟩ :: resps, ?_, ?_⟩
      . rw [if_pos hmodId]
        simp only [bind, Except.bind, hloop]
      . intro resp hresp hok
        rcases List.mem_cons.mp hresp with rfl | hresp
        . contradiction
        . exact hresps resp hresp hok
    rw [if_neg hmodId]
    by_cases hoffset : req.mem.offset > 255
    . exact ⟨_, by rw [if_pos hoffset], by simp⟩
    rw [if_neg hoffset]
    by_cases hpage : req.mem.page > 255
    . exact ⟨_, by rw [if_pos hpage], by simp⟩
    rw [if_neg hpage]
    by_cases hcount : 1 ≤ req.mem.count ∧ req.mem.count > 255 - req.mem.offset + 1
    . exact ⟨_, by rw [if_pos hcount], by simp⟩
    rw [if_neg hcount]
    obtain ⟨hoffset, hrange, hpos, hle⟩ := checked_range hoffset hcount
    obtain ⟨resps, time₁, hloop, hresps⟩ := moduleLoop_spec stack req.mem.page hfuel hoffset
      hpos hle devices[devId].cms (decide (req.modId < 0)) devId
      (idRange req.modId devices[devId].nports) time
    obtain ⟨rest, hloop', hresps'⟩ := ih hrest time₁
    refine ⟨resps ++ rest, ?_, ?_⟩
    . simp only [bind, Except.bind, hloop, hloop']
    . intro resp hresp hok
      rcases List.mem_append.mp hresp with hresp | hresp
      . obtain ⟨hdevId, hmem, mem, hsome, hcopied⟩ := hresps resp hresp hok
        rw [← hcopied.reads_iff rfl hrange]
        constructor
        . rintro ⟨dev, mem', hdev', _, hsome', hreads⟩
          rw [hdevId, hdev] at hdev'
          rw [hsome] at hsome'
          cases hdev'
          cases hsome'
          exact hreads
        . intro hreads
          exact ⟨devices[devId], mem, by rw [hdevId, hdev], idRange_lt hmodId hmem, hsome, hreads⟩
      . exact hresps' resp hresp hok

theorem getModuleMem_spec (devices : List Device) (req : ModuleMemRequest) (stack : Nat → UInt8)
    (hfuel : 2 ≤ fuel) (time : Nat)
    : ∃ resps, getModuleMem devices fuel stack req time = .ok resps ∧
        ∀ resp ∈ resps, resp.errorCode = .EC_OK →
          (resp.Reads devices req ↔ req.mem.count ≠ 0 ∨ req.mem.offset.toNat ≤ 128) := by
  unfold getModuleMem
  by_cases hdevId : req.devId > (devices.length : Int) - 1
  . exact ⟨_, by rw [if_pos hdevId], by simp⟩
  . rw [if_neg hdevId]
    apply deviceLoop_spec hfuel
    intro devId hmem
    exact idRange_lt hdevId hmem

end Request

-- Every request ends, and no copy leaves the buffer or a page. A response that is EC_OK has the range
-- that was asked for exactly when the count was given or the default one fits. A byte is the same
-- whichever way it is read.
theorem getModuleMem_reads_iff (devices : List Device) (req : ModuleMemRequest)
    (stack : Nat → UInt8) (fuel time : Nat)
    : (∃ resps, getModuleMem devices (fuel + 2) stack req time = .ok resps ∧
        ∀ resp ∈ resps, resp.errorCode = .EC_OK →
          (resp.Reads devices req ↔ req.mem.count ≠ 0 ∨ req.mem.offset.toNat ≤ 128)) ∧
      ∀ (cms : Cms) (time time' modId : Nat) (page : UInt32) (offset value : UInt8) cmsPage,
        cmsModuleByteRead cms time (cmsModuleId modId page) offset = some value →
        cmsModulePageRead cms time'
          { cmsModuleId modId page with upper := decide (128 ≤ offset.toNat) } = some cmsPage →
        cmsPage.u8 (offset.toNat % 128) = some value := by
  constructor
  . apply getModuleMem_spec
    omega
  . intro cms time time' modId page offset value cmsPage hbyte hpage
    exact cmsModuleByteRead_eq_pageRead hbyte hpage rfl rfl

-- Each byte of this module is its address
def addressModule : CmsModule :=
  { lower := Vector.ofFn fun i => UInt8.ofNat i
    upper := fun _ => Vector.ofFn fun i => UInt8.ofNat (128 + i) }

def addressDevice : Device :=
  { cms := Cms.ideal fun _ => addressModule, nports := 2, nports_le := by decide }

def defaultCountReq : ModuleMemRequest :=
  { devId := 0, modId := 0, mem := { offset := 200, page := 0, count := 0, data := [] } }

-- After the 56 bytes from address 200 on, the response goes on with those from address 128 on
theorem defaultCount_not_reads
    : ∃ resp mem, getModuleMem [addressDevice] 2 (fun _ => 0) defaultCountReq 0 = .ok [resp] ∧
        resp.errorCode = .EC_OK ∧ resp.mem = some mem ∧ mem.data[55]? = some 255 ∧
        mem.data[56]? = some 128 ∧ ¬ resp.Reads [addressDevice] defaultCountReq := by
  have hget : getModuleMem [addressDevice] 2 (fun _ => 0) defaultCountReq 0 = .ok [⟨.EC_OK, 0, 0,
      some ⟨200, 0, 128, (List.range 56).map (fun i => UInt8.ofNat (200 + i)) ++
        (List.range 72).map fun i => UInt8.ofNat (128 + i)⟩⟩] := by
    decide +kernel
  refine ⟨_, _, hget, rfl, rfl, by decide, by decide, ?_⟩
  rintro ⟨dev, mem, _, _, hmem, hreads⟩
  cases hmem
  have hle : (200 : UInt32).toNat + (128 : UInt32).toNat ≤ 256 := hreads.range_le
  exact absurd hle (by decide)

end SnCfg
