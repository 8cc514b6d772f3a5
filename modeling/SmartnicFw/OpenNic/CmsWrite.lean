import SmartnicFw.OpenNic.Cms

/-!
This module contains the writes to the memory of a module through the mailbox of the card management
system (`cms.c`), for memory that keeps what is written to it.
-/

def CmsModule.store (module : CmsModule) (page : UInt8) (address : Nat) (value : UInt8)
    : CmsModule :=
  if address < cmsModulePageSize then
    { module with lower := module.lower.setIfInBounds address value }
  else
    { module with
      upper := Function.update module.upper page
        ((module.upper page).setIfInBounds (address - cmsModulePageSize) value) }

-- The modules in the cages of a card, and the transactions that write to them. A transaction that
-- fails leaves the modules alone, and `card` is what the reads see of them.
structure CmsRam where
  card : (BitVec 2 → CmsModule) → Cms
  card_modules : ∀ modules, (card modules).modules = modules
  post : Nat → CmsOpModuleI2cSelect → BitVec 8 → BitVec 8 → (BitVec 2 → CmsModule) →
    Option (BitVec 2 → CmsModule)
  byte_write : ∀ n (select : CmsOpModuleI2cSelect) (offset value : BitVec 8) modules modules',
    post n select offset value modules = some modules' → select.sfpDiag = false →
    select.cmisBankValid = false → select.upper = decide (cmsModulePageSize ≤ offset.toNat) →
    modules' = Function.update modules select.cage
      ((modules select.cage).store ⟨select.page⟩ offset.toNat ⟨value⟩)

def cmsModuleByteWrite (ram : CmsRam) (time : Nat) (id : CmsModuleId) (offset value : UInt8)
    (modules : BitVec 2 → CmsModule)
    : Option (BitVec 2 → CmsModule) :=
  let upper : Bool := decide (cmsModulePageSize ≤ offset.toNat)
  let page : UInt8 := if upper then id.page else 0
  let select : CmsOpModuleI2cSelect :=
    { cage := id.cage.toBitVec.setWidth 2
      page := page.toBitVec
      upper := upper
      sfpDiag := id.sfpDiag
      cmisBankValid := id.cmis
      cmisBank := if id.cmis then id.bank.toBitVec.setWidth 5 else 0 }
  ram.post time select offset.toBitVec value.toBitVec modules

-- `n` bytes have been stored from an address on, and the other bytes are as they were. The lower
-- page is the same for every number of the upper one.
def CmsModule.Stored (before after : CmsModule) (page : UInt8) (offset : Nat) (data : List UInt8)
    : Prop :=
  ∀ page' address, after.byte page' address =
    if (offset ≤ address ∧ address < offset + data.length) ∧
        (address < cmsModulePageSize ∨ page' = page) then
      data[address - offset]?
    else
      before.byte page' address

section Store

variable {module before after : CmsModule} {page : UInt8} {address offset : Nat}

-- The number of the upper page does not matter below it
theorem CmsModule.store_lower (module : CmsModule) (page page' : UInt8)
    (h : address < cmsModulePageSize) (value : UInt8)
    : module.store page address value = module.store page' address value := by
  unfold CmsModule.store
  rw [if_pos h, if_pos h]

theorem CmsModule.byte_store (module : CmsModule) (page : UInt8) (value : UInt8)
    (haddress : address < 256) (page' : UInt8) (a : Nat)
    : (module.store page address value).byte page' a =
        if a = address ∧ (a < cmsModulePageSize ∨ page' = page) then
          some value
        else
          module.byte page' a := by
  unfold CmsModule.store CmsModule.byte CmsModule.pageByte
  by_cases hlower : address < cmsModulePageSize
  . rw [if_pos hlower]
    by_cases ha : a < cmsModulePageSize
    . by_cases heq : a = address
      . subst heq
        simp [ha]
      . have hne : ¬ address = a := fun h => heq h.symm
        simp [ha, heq, hne]
    . have hne : ¬ a = address := by omega
      simp [ha, hne]
  . rw [if_neg hlower]
    have hlt : address - cmsModulePageSize < cmsModulePageSize := by
      unfold cmsModulePageSize at hlower ⊢
      omega
    by_cases ha : a < cmsModulePageSize
    . have hne : ¬ a = address := by omega
      simp [ha, hne]
    . by_cases hpage : page' = page
      . subst hpage
        by_cases heq : a = address
        . subst heq
          simp [ha, hlt]
        . have hne : ¬ address - cmsModulePageSize = a - cmsModulePageSize := by omega
          simp [ha, heq, hne]
      . simp [ha, hpage]

theorem CmsModule.Stored.nil : module.Stored module page offset [] := by
  intro page' a
  rw [if_neg]
  rintro ⟨⟨hle, hlt⟩, _⟩
  simp only [List.length_nil] at hlt
  omega

theorem CmsModule.Stored.cons {value : UInt8} {data : List UInt8} (hoffset : offset < 256)
    (h : (before.store page offset value).Stored after page (offset + 1) data)
    : before.Stored after page offset (value :: data) := by
  intro page' a
  rw [h page' a, CmsModule.byte_store before page value hoffset, List.length_cons]
  by_cases hpage : a < cmsModulePageSize ∨ page' = page
  . by_cases heq : a = offset
    . subst heq
      rw [if_neg (by omega), if_pos ⟨rfl, hpage⟩, if_pos ⟨by omega, hpage⟩, Nat.sub_self]
      rfl
    . have hne : ¬ (a = offset ∧ (a < cmsModulePageSize ∨ page' = page)) := fun h => heq h.1
      by_cases hin : offset + 1 ≤ a ∧ a < offset + 1 + data.length
      . have hindex : a - offset = a - (offset + 1) + 1 := by omega
        rw [if_pos ⟨hin, hpage⟩, if_pos ⟨by omega, hpage⟩, hindex, List.getElem?_cons_succ]
      . rw [if_neg (fun h => hin h.1), if_neg hne, if_neg (by omega)]
  . rw [if_neg (fun h => hpage h.2), if_neg (fun h => hpage h.2), if_neg (fun h => hpage h.2)]

-- What was stored is read back
theorem CmsModule.Stored.byte_eq {data : List UInt8} (h : before.Stored after page offset data)
    {i : Nat} (hi : i < data.length)
    : after.byte page (offset + i) = data[i]? := by
  rw [h page (offset + i), if_pos ⟨by omega, .inr rfl⟩, Nat.add_sub_cancel_left]

end Store

-- A write that succeeds stores the byte in the page that a read takes it from
theorem cmsModuleByteWrite_eq {ram : CmsRam} {time : Nat} {id : CmsModuleId} {offset value : UInt8}
    {modules modules' : BitVec 2 → CmsModule}
    (h : cmsModuleByteWrite ram time id offset value modules = some modules')
    (hsfp : id.sfpDiag = false) (hcmis : id.cmis = false)
    : modules' = Function.update modules (id.cage.toBitVec.setWidth 2)
        ((modules (id.cage.toBitVec.setWidth 2)).store id.page offset.toNat value) := by
  have hwrite := ram.byte_write time _ _ _ modules modules' h hsfp hcmis rfl
  rw [hwrite]
  by_cases hupper : cmsModulePageSize ≤ offset.toNat
  . simp [hupper]
  . have hlower : offset.toNat < cmsModulePageSize := by omega
    congr 1
    apply CmsModule.store_lower
    exact hlower

-- The modules after a byte is written to one of them, unless the hardware refuses it
def CmsRam.store (accepts : Nat → Bool) (n : Nat) (select : CmsOpModuleI2cSelect)
    (offset value : BitVec 8) (modules : BitVec 2 → CmsModule)
    : Option (BitVec 2 → CmsModule) :=
  if accepts n then
    some (Function.update modules select.cage
      ((modules select.cage).store ⟨select.page⟩ offset.toNat ⟨value⟩))
  else
    none

theorem CmsRam.store_eq {accepts : Nat → Bool} (n : Nat) (select : CmsOpModuleI2cSelect)
    (offset value : BitVec 8) (modules modules' : BitVec 2 → CmsModule)
    (h : CmsRam.store accepts n select offset value modules = some modules')
    (_ : select.sfpDiag = false) (_ : select.cmisBankValid = false)
    (_ : select.upper = decide (cmsModulePageSize ≤ offset.toNat))
    : modules' = Function.update modules select.cage
        ((modules select.cage).store ⟨select.page⟩ offset.toNat ⟨value⟩) := by
  unfold CmsRam.store at h
  split at h
  . exact (Option.some.inj h).symm
  . contradiction

theorem Cms.ideal_modules (modules : BitVec 2 → CmsModule)
    : (Cms.ideal modules).modules = modules := rfl

def CmsRam.ideal (accepts : Nat → Bool) : CmsRam :=
  { card := Cms.ideal
    card_modules := Cms.ideal_modules
    post := CmsRam.store accepts
    byte_write := CmsRam.store_eq }
