import SmartnicFw.SnCfg.Agent.HostConfig

/-!
This module contains the functions of a host under the names of the requests and under those of the
driver (`host.cpp`).
-/

namespace SnCfg.Host

open Qdma (Layout Regs functionMax)

def convertFromDriverQdmaFunction (func : Nat) : Option HostFunctionId :=
  match func with
  | 0 => some { ftype := .HOST_FUNC_PHYSICAL, index := 0 }
  | 1 | 2 | 3 => some { ftype := .HOST_FUNC_VIRTUAL, index := BitVec.ofNat 32 (func - 1) }
  | _ => none

-- A virtual function whose number the comparison takes for a negative one, or for the physical function
def Misnumbered (id : HostFunctionId) : Prop :=
  id.ftype = .HOST_FUNC_VIRTUAL ∧ id.index.toNat ≥ 2 ^ 31 - 1

instance (id : HostFunctionId) : Decidable (Misnumbered id) := inferInstanceAs (Decidable (_ ∧ _))

-- The index that the sum takes to the physical function
def wrappedFunctionId : HostFunctionId where
  ftype := .HOST_FUNC_VIRTUAL
  index := BitVec.allOnes 32

def SameFunction (id id' : HostFunctionId) : Prop :=
  ∃ func, convertToDriverQdmaFunction id = some func ∧ convertToDriverQdmaFunction id' = some func

-- Everything that an entry for the function and the entries after it do to the registers
def LeftAlone (err : ErrorCode) (id : HostFunctionId) : Prop :=
  ∀ L hostId baseQueue numQueues after regs before reset,
    (setFunctions L hostId before (if reset then resetQueues L hostId regs else regs)).1 = .EC_OK →
    let entry : HostFunctionDmaConfig := { funcId := id, baseQueue, numQueues }
    setDma L hostId { functions := before ++ entry :: after, reset } regs =
      (err, (setFunctions L hostId before (if reset then resetQueues L hostId regs else regs)).2)

theorem convertTo_virtual {id : HostFunctionId} (h : id.ftype = .HOST_FUNC_VIRTUAL)
    : convertToDriverQdmaFunction id =
        if (1 + id.index).toInt ≥ functionMax then none else some (1 + id.index).toNat := by
  unfold convertToDriverQdmaFunction
  rw [h]

-- The sum is what is compared up to the largest int
theorem toInt_toNat_of_lt {index : BitVec 32} (h : index.toNat < 2 ^ 31 - 1)
    : (1 + index).toInt = index.toNat + 1 ∧ (1 + index).toNat = index.toNat + 1 := by
  have hone : (1 : BitVec 32).toNat = 1 := rfl
  have hsum : (1 + index).toNat = index.toNat + 1 := by
    rw [BitVec.toNat_add]
    omega
  refine ⟨?_, hsum⟩
  rw [BitVec.toInt_eq_toNat_of_lt (by omega), hsum]
  rfl

theorem toInt_neg_of_ge {index : BitVec 32} (h : index.toNat ≥ 2 ^ 31 - 1)
    (hne : index ≠ BitVec.allOnes 32)
    : (1 + index).toInt < 0 ∧ (1 + index).toNat = index.toNat + 1 := by
  have hone : (1 : BitVec 32).toNat = 1 := rfl
  have hlt : index.toNat < 2 ^ 32 - 1 := by
    have htop := index.isLt
    by_contra hge
    apply hne
    apply BitVec.eq_of_toNat_eq
    rw [BitVec.toNat_allOnes]
    omega
  have hsum : (1 + index).toNat = index.toNat + 1 := by
    rw [BitVec.toNat_add]
    omega
  refine ⟨?_, hsum⟩
  rw [BitVec.toInt_eq_toNat_cond, hsum]
  split
  . omega
  . omega

theorem convertFrom_convertTo {id : HostFunctionId} {func : Nat} (hnot : ¬ Misnumbered id)
    (h : convertToDriverQdmaFunction id = some func)
    : convertFromDriverQdmaFunction func = some id := by
  obtain ⟨ftype, index⟩ := id
  cases ftype with
  | HOST_FUNC_PHYSICAL =>
    simp only [convertToDriverQdmaFunction, ne_eq, ite_not] at h
    split at h
    . next hzero =>
      cases h
      rw [hzero]
      rfl
    . contradiction
  | HOST_FUNC_VIRTUAL =>
    have hlow : index.toNat < 2 ^ 31 - 1 := by
      by_contra hge
      exact hnot ⟨rfl, Nat.le_of_not_lt hge⟩
    obtain ⟨hint, hsum⟩ := toInt_toNat_of_lt hlow
    rw [convertTo_virtual rfl] at h
    dsimp only at h
    rw [hint, hsum] at h
    split at h
    . contradiction
    . next hlt =>
      cases h
      have hcases : index.toNat = 0 ∨ index.toNat = 1 ∨ index.toNat = 2 := by
        unfold functionMax at hlt
        omega
      have hback : index = BitVec.ofNat 32 index.toNat := by simp
      rw [hback]
      rcases hcases with h0 | h1 | h2
      . rw [h0]
        rfl
      . rw [h1]
        rfl
      . rw [h2]
        rfl
  | HOST_FUNC_UNKNOWN => contradiction
  | other value => contradiction

-- A virtual function whose number is taken for a negative one is accepted, under a number that the
-- driver has no function for
theorem convertTo_of_misnumbered {id : HostFunctionId} (h : Misnumbered id)
    (hne : id ≠ wrappedFunctionId)
    : ∃ func, convertToDriverQdmaFunction id = some func ∧ func ≥ functionMax ∧
        convertFromDriverQdmaFunction func = none := by
  obtain ⟨ftype, index⟩ := id
  obtain ⟨rfl, hge⟩ := h
  have hwrap : index ≠ BitVec.allOnes 32 := by
    rintro rfl
    exact hne rfl
  rw [convertTo_virtual rfl]
  obtain ⟨hneg, hsum⟩ := toInt_neg_of_ge hge hwrap
  dsimp only at hge hneg hsum ⊢
  have hlt : ¬ (1 + index).toInt ≥ functionMax := by
    have : (0 : Int) ≤ functionMax := by decide
    omega
  rw [if_neg hlt, hsum]
  refine ⟨index.toNat + 1, rfl, ?_, ?_⟩
  . unfold functionMax
    omega
  . unfold convertFromDriverQdmaFunction
    split <;> first | omega | rfl

theorem setFunctions_append {L : Layout} {hostId : Nat} {before : List HostFunctionDmaConfig}
    {regs : Regs} (h : (setFunctions L hostId before regs).1 = .EC_OK)
    (after : List HostFunctionDmaConfig)
    : setFunctions L hostId (before ++ after) regs =
        setFunctions L hostId after (setFunctions L hostId before regs).2 := by
  induction before generalizing regs with
  | nil => rfl
  | cons func before ih =>
    cases hto : convertToDriverQdmaFunction func.funcId with
    | none =>
      simp only [setFunctions, hto] at h
      contradiction
    | some qf =>
      cases hset : Qdma.functionSetQueues L regs hostId qf func.baseQueue func.numQueues with
      | mk ok regs' =>
        simp only [List.cons_append, setFunctions, hto, hset] at h ⊢
        cases ok with
        | false => contradiction
        | true =>
          apply ih
          exact h

theorem leftAlone_of_refused {id : HostFunctionId} (h : convertToDriverQdmaFunction id = none)
    : LeftAlone .EC_UNSUPPORTED_HOST_FUNCTION id := by
  intro L hostId baseQueue numQueues after regs before reset hok
  dsimp only
  unfold setDma
  dsimp only
  rw [setFunctions_append hok]
  simp only [setFunctions, h]

-- The driver refuses the numbers that it has no function for
theorem leftAlone_of_ge {id : HostFunctionId} {func : Nat}
    (h : convertToDriverQdmaFunction id = some func) (hge : func ≥ functionMax)
    : LeftAlone .EC_FAILED_SET_HOST_FUNCTION_DMA_QUEUES id := by
  intro L hostId baseQueue numQueues after regs before reset hok
  dsimp only
  unfold setDma
  dsimp only
  rw [setFunctions_append hok]
  simp only [setFunctions, h, Qdma.functionSetQueues_of_not_valid _ _ _ (.inr hge)]

-- What is accepted without being a driver function changes no register either
theorem leftAlone_of_misnumbered {id : HostFunctionId} (h : Misnumbered id)
    (hne : id ≠ wrappedFunctionId)
    : LeftAlone .EC_FAILED_SET_HOST_FUNCTION_DMA_QUEUES id := by
  obtain ⟨func, hto, hge, _⟩ := convertTo_of_misnumbered h hne
  exact leftAlone_of_ge hto hge

-- For the identifiers that a set of requests uses
theorem convert_faithful_iff (ids : HostFunctionId → Prop)
    : ((∀ id func, ids id → convertToDriverQdmaFunction id = some func →
            convertFromDriverQdmaFunction func = some id) ∧
        (∀ id id', ids id → ids id' → SameFunction id id' → id = id') ∧
        ∀ id, ids id → (∀ func, convertFromDriverQdmaFunction func ≠ some id) →
          ∃ err, err ≠ .EC_OK ∧ LeftAlone err id) ↔
      ∀ id, ids id → ¬ Misnumbered id := by
  constructor
  . intro ⟨hround, _, _⟩ id hid hmis
    by_cases hwrap : id = wrappedFunctionId
    . subst hwrap
      have hback := hround wrappedFunctionId 0 hid (by decide)
      revert hback
      decide
    . obtain ⟨func, hto, _, hnone⟩ := convertTo_of_misnumbered hmis hwrap
      have hback := hround id func hid hto
      rw [hnone] at hback
      cases hback
  . intro hnot
    have hround : ∀ id func, ids id → convertToDriverQdmaFunction id = some func →
        convertFromDriverQdmaFunction func = some id :=
      fun id func hid hto => convertFrom_convertTo (hnot id hid) hto
    refine ⟨hround, ?_, ?_⟩
    . intro id id' hid hid' ⟨func, hto, hto'⟩
      have hback := hround id func hid hto
      rw [hround id' func hid' hto'] at hback
      exact (Option.some.inj hback).symm
    . intro id hid hother
      refine ⟨.EC_UNSUPPORTED_HOST_FUNCTION, by decide, leftAlone_of_refused ?_⟩
      cases hto : convertToDriverQdmaFunction id with
      | none => rfl
      | some func => exact absurd (hround id func hid hto) (hother func)

-- Two identifiers for the physical function, of which one reads back as the other
theorem not_convert_faithful_wrapped
    : convertToDriverQdmaFunction wrappedFunctionId = some 0 ∧
        convertFromDriverQdmaFunction 0 ≠ some wrappedFunctionId ∧
        SameFunction wrappedFunctionId { ftype := .HOST_FUNC_PHYSICAL, index := 0 } := by
  refine ⟨by decide, by decide, 0, by decide, by decide⟩

end SnCfg.Host
