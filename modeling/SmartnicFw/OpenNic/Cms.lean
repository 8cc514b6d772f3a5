import Mathlib

/-!
This module contains the reads of the memory of a module through the mailbox of the card management
system (`cms.c`). The mailbox and the modules behind it are the hardware's: a transaction can fail at
any time, and one that succeeds answers with what the module holds.
-/

def cmsModulePageSize : Nat := 128

-- The 256 bytes of a module: the lower page is fixed, the upper one is selected
structure CmsModule where
  lower : Vector UInt8 cmsModulePageSize
  upper : UInt8 → Vector UInt8 cmsModulePageSize

def CmsModule.pageByte (module : CmsModule) (upper : Bool) (page : UInt8) (i : Nat)
    : Option UInt8 :=
  if upper then (module.upper page)[i]? else module.lower[i]?

def CmsModule.byte (module : CmsModule) (page : UInt8) (address : Nat) : Option UInt8 :=
  if address < cmsModulePageSize then
    module.pageByte false page address
  else
    module.pageByte true page (address - cmsModulePageSize)

structure CmsModuleId where
  cage : UInt8
  page : UInt8
  upper : Bool
  cmis : Bool
  bank : UInt8
  sfpDiag : Bool
  deriving DecidableEq, Repr

structure CmsOpModuleI2cSelect where
  cage : BitVec 2
  page : BitVec 8
  upper : Bool
  sfpDiag : Bool
  cmisBankValid : Bool
  cmisBank : BitVec 5
  deriving DecidableEq, Repr

inductive CmsMailboxReq where
  | blockReadModuleI2c (select : CmsOpModuleI2cSelect)
  | byteReadModuleI2c (select : CmsOpModuleI2cSelect) (offset : BitVec 8)
  | readModuleLowSpeedIo (cage : BitVec 2)
  deriving DecidableEq, Repr

-- The words of the mailbox after a transaction, the header being word 0
abbrev CmsMailbox := Nat → UInt32

-- A 32-bit word in the memory of a little-endian host
def wordByte (word : UInt32) (n : Nat) : UInt8 := UInt8.ofNat (word.toNat / 256 ^ n)

-- `post n` is the outcome of the transaction that is made at time `n`, and `malloc n` that of the
-- allocation which follows it
structure Cms where
  modules : BitVec 2 → CmsModule
  post : Nat → CmsMailboxReq → Option CmsMailbox
  malloc : Nat → Bool
  block_read : ∀ n (select : CmsOpModuleI2cSelect) mailbox,
    post n (.blockReadModuleI2c select) = some mailbox → select.sfpDiag = false →
    select.cmisBankValid = false → (mailbox 4).toNat = cmsModulePageSize →
    ∀ i < cmsModulePageSize, some (wordByte (mailbox (5 + i / 4)) (i % 4)) =
      (modules select.cage).pageByte select.upper ⟨select.page⟩ i
  byte_read : ∀ n (select : CmsOpModuleI2cSelect) offset mailbox,
    post n (.byteReadModuleI2c select offset) = some mailbox → select.sfpDiag = false →
    select.cmisBankValid = false → select.upper = decide (cmsModulePageSize ≤ offset.toNat) →
    some (mailbox 5).toUInt8 = (modules select.cage).byte ⟨select.page⟩ offset.toNat

-- The page as the words that are copied out of the mailbox
structure CmsModulePage where
  u32 : List UInt32
  deriving DecidableEq, Repr

def CmsModulePage.u8 (page : CmsModulePage) (i : Nat) : Option UInt8 :=
  page.u32[i / 4]?.map fun word => wordByte word (i % 4)

def cmsModulePageRead (cms : Cms) (time : Nat) (id : CmsModuleId) : Option CmsModulePage := do
  let select : CmsOpModuleI2cSelect :=
    { cage := id.cage.toBitVec.setWidth 2
      page := if id.upper then id.page.toBitVec else 0
      upper := id.upper
      sfpDiag := id.sfpDiag
      cmisBankValid := id.cmis
      cmisBank := if id.cmis then id.bank.toBitVec.setWidth 5 else 0 }
  let mailbox ← cms.post time (.blockReadModuleI2c select)
  let size := (mailbox 4).toNat
  if size ≠ cmsModulePageSize then
    none
  else if !cms.malloc time then
    none
  else
    some { u32 := (List.range (size / 4)).map fun n => mailbox (5 + n) }

def cmsModuleByteRead (cms : Cms) (time : Nat) (id : CmsModuleId) (offset : UInt8)
    : Option UInt8 := do
  let upper : Bool := decide (cmsModulePageSize ≤ offset.toNat)
  let page : UInt8 := if upper then id.page else 0
  let select : CmsOpModuleI2cSelect :=
    { cage := id.cage.toBitVec.setWidth 2
      page := page.toBitVec
      upper := upper
      sfpDiag := id.sfpDiag
      cmisBankValid := id.cmis
      cmisBank := if id.cmis then id.bank.toBitVec.setWidth 5 else 0 }
  let mailbox ← cms.post time (.byteReadModuleI2c select offset.toBitVec)
  some (mailbox 5).toUInt8

structure CmsModuleGpioQsfp where
  reset : Bool
  lowPowerMode : Bool
  select : Bool
  present : Bool
  interrupt : Bool
  deriving DecidableEq, Repr

-- `cms_module_gpio_read` of a module of type QSFP
def cmsModuleGpioRead (cms : Cms) (time : Nat) (cage : UInt8) : Option CmsModuleGpioQsfp := do
  let mailbox ← cms.post time (.readModuleLowSpeedIo (cage.toBitVec.setWidth 2))
  let word := (mailbox 2).toNat
  some
    { reset := !word.testBit 0
      lowPowerMode := word.testBit 1
      select := !word.testBit 2
      present := !word.testBit 3
      interrupt := !word.testBit 4 }

def CmsModuleId.module (id : CmsModuleId) (cms : Cms) : CmsModule :=
  cms.modules (id.cage.toBitVec.setWidth 2)

theorem cmsModulePageRead_u8 {cms : Cms} {time : Nat} {id : CmsModuleId} {page : CmsModulePage}
    (h : cmsModulePageRead cms time id = some page) (hsfp : id.sfpDiag = false)
    (hcmis : id.cmis = false) {i : Nat} (hi : i < cmsModulePageSize)
    : page.u8 i = (id.module cms).pageByte id.upper id.page i := by
  obtain ⟨mailbox, hpost, h⟩ := Option.bind_eq_some_iff.mp h
  simp only at h
  split at h
  . contradiction
  . rename_i hsize
    have hsize : (mailbox 4).toNat = cmsModulePageSize := by
      by_contra hne
      exact hsize hne
    split at h
    . contradiction
    . cases h
      have hread := cms.block_read time _ mailbox hpost hsfp hcmis hsize i hi
      have hlt : i / 4 < (mailbox 4).toNat / 4 := by
        rw [hsize]
        unfold cmsModulePageSize at hi ⊢
        omega
      simp only [CmsModulePage.u8, List.getElem?_map, List.getElem?_range hlt, Option.map_some]
      rw [hread]
      unfold CmsModule.pageByte CmsModuleId.module
      cases hupper : id.upper <;> rfl

theorem cmsModuleByteRead_eq {cms : Cms} {time : Nat} {id : CmsModuleId} {offset value : UInt8}
    (h : cmsModuleByteRead cms time id offset = some value) (hsfp : id.sfpDiag = false)
    (hcmis : id.cmis = false)
    : (id.module cms).byte id.page offset.toNat = some value := by
  obtain ⟨mailbox, hpost, h⟩ := Option.bind_eq_some_iff.mp h
  have hread := cms.byte_read time _ _ mailbox hpost hsfp hcmis rfl
  cases h
  rw [hread]
  unfold CmsModule.byte CmsModule.pageByte CmsModuleId.module
  by_cases hupper : cmsModulePageSize ≤ offset.toNat
  . have hlt : ¬ offset.toNat < cmsModulePageSize := by omega
    simp [hupper, hlt]
  . have hlt : offset.toNat < cmsModulePageSize := by omega
    simp [hlt]

-- A byte that is read alone is the one in the page that a block read returns
theorem cmsModuleByteRead_eq_pageRead {cms : Cms} {time time' : Nat} {id : CmsModuleId}
    {offset value : UInt8} {page : CmsModulePage}
    (hbyte : cmsModuleByteRead cms time id offset = some value)
    (hpage : cmsModulePageRead cms time'
      { id with upper := decide (cmsModulePageSize ≤ offset.toNat) } = some page)
    (hsfp : id.sfpDiag = false) (hcmis : id.cmis = false)
    : page.u8 (offset.toNat % cmsModulePageSize) = some value := by
  have hoffset : offset.toNat < 2 ^ 8 := offset.toNat_lt
  have hlt : offset.toNat % cmsModulePageSize < cmsModulePageSize := by
    apply Nat.mod_lt
    decide
  rw [cmsModulePageRead_u8 hpage hsfp hcmis hlt, ← cmsModuleByteRead_eq hbyte hsfp hcmis]
  show (id.module cms).pageByte (decide (cmsModulePageSize ≤ offset.toNat)) id.page _ = _
  unfold CmsModule.byte
  unfold cmsModulePageSize at *
  split
  . rename_i hlower
    rw [Nat.mod_eq_of_lt hlower, decide_eq_false (by omega)]
  . rename_i hupper
    have hmod : offset.toNat % 128 = offset.toNat - 128 := by omega
    rw [decide_eq_true (by omega), hmod]

def packWord (byte : Nat → UInt8) : UInt32 :=
  UInt32.ofNat ((byte 0).toNat + 256 * (byte 1).toNat + 256 ^ 2 * (byte 2).toNat +
    256 ^ 3 * (byte 3).toNat)

theorem wordByte_packWord (byte : Nat → UInt8) {n : Nat} (hn : n < 4)
    : wordByte (packWord byte) n = byte n := by
  have h0 := (byte 0).toNat_lt
  have h1 := (byte 1).toNat_lt
  have h2 := (byte 2).toNat_lt
  have h3 := (byte 3).toNat_lt
  apply UInt8.toNat_inj.mp
  unfold wordByte packWord
  rw [UInt8.toNat_ofNat', UInt32.toNat_ofNat']
  obtain rfl | rfl | rfl | rfl : n = 0 ∨ n = 1 ∨ n = 2 ∨ n = 3 := by omega
  . omega
  . omega
  . omega
  . omega

-- The words of a mailbox after a transaction that succeeded
def CmsModule.answer (modules : BitVec 2 → CmsModule) (req : CmsMailboxReq) : CmsMailbox :=
  match req with
  | .blockReadModuleI2c select => fun word =>
    if word < 5 then
      128
    else
      packWord fun n =>
        ((modules select.cage).pageByte select.upper ⟨select.page⟩ (4 * (word - 5) + n)).getD 0
  | .byteReadModuleI2c select offset => fun _ =>
    (((modules select.cage).byte ⟨select.page⟩ offset.toNat).getD 0).toUInt32
  | .readModuleLowSpeedIo _ => fun _ => 1

theorem CmsModule.pageByte_isSome (module : CmsModule) (upper : Bool) (page : UInt8) {i : Nat}
    (hi : i < cmsModulePageSize)
    : (module.pageByte upper page i).isSome := by
  unfold CmsModule.pageByte
  cases upper <;> simp [hi]

theorem CmsModule.byte_isSome (module : CmsModule) (page : UInt8) {address : Nat}
    (haddress : address < 256)
    : (module.byte page address).isSome := by
  unfold CmsModule.byte
  split
  . rename_i hlower
    exact module.pageByte_isSome false page hlower
  . rename_i hupper
    apply module.pageByte_isSome true page
    unfold cmsModulePageSize at hupper ⊢
    omega

theorem CmsModule.answer_block (modules : BitVec 2 → CmsModule) (_ : Nat)
    (select : CmsOpModuleI2cSelect) (mailbox : CmsMailbox)
    (hpost : some (CmsModule.answer modules (.blockReadModuleI2c select)) = some mailbox)
    (_ : select.sfpDiag = false) (_ : select.cmisBankValid = false)
    (_ : (mailbox 4).toNat = cmsModulePageSize) (i : Nat) (hi : i < cmsModulePageSize)
    : some (wordByte (mailbox (5 + i / 4)) (i % 4)) =
        (modules select.cage).pageByte select.upper ⟨select.page⟩ i := by
  cases hpost
  have hword : ¬ 5 + i / 4 < 5 := by omega
  have hi' : 4 * (5 + i / 4 - 5) + i % 4 = i := by omega
  obtain ⟨byte, hbyte⟩ := Option.isSome_iff_exists.mp
    ((modules select.cage).pageByte_isSome select.upper ⟨select.page⟩ hi)
  simp only [CmsModule.answer, if_neg hword]
  rw [wordByte_packWord _ (by omega), hi', hbyte]
  rfl

theorem CmsModule.answer_byte (modules : BitVec 2 → CmsModule) (_ : Nat)
    (select : CmsOpModuleI2cSelect) (offset : BitVec 8) (mailbox : CmsMailbox)
    (hpost : some (CmsModule.answer modules (.byteReadModuleI2c select offset)) = some mailbox)
    (_ : select.sfpDiag = false) (_ : select.cmisBankValid = false)
    (_ : select.upper = decide (cmsModulePageSize ≤ offset.toNat))
    : some (mailbox 5).toUInt8 = (modules select.cage).byte ⟨select.page⟩ offset.toNat := by
  cases hpost
  obtain ⟨byte, hbyte⟩ := Option.isSome_iff_exists.mp
    ((modules select.cage).byte_isSome ⟨select.page⟩ offset.isLt)
  simp only [CmsModule.answer]
  rw [hbyte, Option.getD_some, UInt8.toUInt8_toUInt32]

-- A card with a module in each cage, none of whose transactions fails
def Cms.ideal (modules : BitVec 2 → CmsModule) : Cms :=
  { modules := modules
    post := fun _ req => some (CmsModule.answer modules req)
    malloc := fun _ => true
    block_read := CmsModule.answer_block modules
    byte_read := CmsModule.answer_byte modules }
