import SmartnicFw.Lib.Words

/-!
This module contains the `BitArray` of the statistics agent (`stats.cpp`): one bit for each element
of a metric, packed into words of 64 bits. The bits above the last element are never set, which the
comparisons of whole words rely on.
-/

namespace BitArray

abbrev Word := BitVec 64

def nbitsPerWord : Nat := 64

def fullMask : Word := ~~~0

def nwords (nbits : Nat) : Nat :=
  if nbits > nbitsPerWord then (nbits + nbitsPerWord - 1) / nbitsPerWord else 1

-- The mask of valid bits in the upper word
def upperMask (nbits : Nat) : Word :=
  let rem := nbits % nbitsPerWord
  if rem > 0 then (1#64 <<< rem) - 1 else fullMask

def maskWords (nbits : Nat) : List Word :=
  List.replicate (nwords nbits - 1) fullMask ++ [upperMask nbits]

theorem nwords_pos (nbits : Nat) : 0 < nwords nbits := by
  unfold nwords nbitsPerWord
  split <;> omega

theorem le_nwords (nbits : Nat) : nbits ≤ 64 * nwords nbits := by
  unfold nwords nbitsPerWord
  split <;> omega

theorem nwords_le {nbits : Nat} (h : 0 < nbits) : 64 * (nwords nbits - 1) < nbits := by
  unfold nwords nbitsPerWord
  split <;> omega

theorem upperMask_eq {nbits : Nat} (h : 0 < nbits)
    : upperMask nbits = BitVec.ofNat 64 (2 ^ (nbits - 64 * (nwords nbits - 1)) - 1) := by
  have hrem : nbits - 64 * (nwords nbits - 1) =
      if nbits % 64 > 0 then nbits % 64 else 64 := by
    unfold nwords nbitsPerWord
    split <;> split <;> omega
  rw [hrem]
  by_cases hpos : nbits % 64 > 0
  . simp only [upperMask, nbitsPerWord, hpos, ↓reduceIte]
    apply BitVec.eq_of_toNat_eq
    have hlt : 2 ^ (nbits % 64) < 2 ^ 64 := Nat.pow_lt_pow_right (by decide) (by omega)
    have hone : 0 < 2 ^ (nbits % 64) := Nat.two_pow_pos _
    rw [BitVec.toNat_sub, BitVec.toNat_shiftLeft, BitVec.toNat_ofNat, BitVec.toNat_ofNat]
    have htoNat : BitVec.toNat (1 : Word) = 1 := rfl
    rw [Nat.shiftLeft_eq, Nat.one_mod, Nat.one_mul, htoNat]
    omega
  . simp only [upperMask, nbitsPerWord, hpos, ↓reduceIte]
    rfl

theorem maskWords_eq {nbits : Nat} (h : 0 < nbits)
    : maskWords nbits = Words.ones 64 (nwords nbits) nbits := by
  rw [maskWords, upperMask_eq h]
  rfl

@[simp]
theorem length_maskWords (nbits : Nat) : (maskWords nbits).length = nwords nbits := by
  have := nwords_pos nbits
  simp only [maskWords, List.length_append, List.length_replicate, List.length_singleton]
  omega

theorem bit_maskWords {nbits : Nat} (h : 0 < nbits) (pos : Nat)
    : Words.bit (maskWords nbits) pos = decide (pos < nbits) := by
  rw [maskWords_eq h]
  exact Words.bit_ones (by decide) (nwords_pos nbits) (Nat.le_of_lt (nwords_le h))
    (le_nwords nbits) pos

theorem div_lt_nwords {nbits pos : Nat} (h : pos < nbits) : pos / 64 < nwords nbits := by
  have := le_nwords nbits
  omega

end BitArray

structure BitArray (nbits : Nat) where
  words : List BitArray.Word
  nbits_pos : 0 < nbits
  length_words : words.length = BitArray.nwords nbits
  upper_clear : ∀ pos, nbits ≤ pos → Words.bit words pos = false

namespace BitArray

variable {nbits : Nat}

-- The constructor
def new (nbits : Nat) (h : 0 < nbits) : BitArray nbits where
  words := List.replicate (nwords nbits) 0
  nbits_pos := h
  length_words := List.length_replicate
  upper_clear pos _ := Words.bit_replicate_zero _ pos

def size (_ : BitArray nbits) : Nat := nbits

def isBitSet (v : BitArray nbits) (pos : Nat) : Bool :=
  if pos < nbits then
    v.words.getD (pos / nbitsPerWord) 0 &&& BitVec.twoPow 64 (pos % nbitsPerWord) != 0
  else
    false

def isAllSet (v : BitArray nbits) : Bool := v.words == maskWords nbits

def isAllCleared (v : BitArray nbits) : Bool := v.words.all fun word => word == 0

theorem isBitSet_eq_bit (v : BitArray nbits) (pos : Nat)
    : v.isBitSet pos = Words.bit v.words pos := by
  unfold isBitSet
  split
  . have hlt : pos % 64 < 64 := Nat.mod_lt pos (by decide)
    have hne : BitVec.twoPow 64 (pos % 64) ≠ 0 := by
      intro h
      have hbit := congrArg (fun x : Word => x.getLsbD (pos % 64)) h
      simp [hlt] at hbit
    rw [nbitsPerWord, BitVec.and_twoPow, Words.bit]
    cases (v.words.getD (pos / 64) 0).getLsbD (pos % 64) with
    | true => simpa using hne
    | false => simp
  . rw [v.upper_clear pos (by omega)]

def setBit (v : BitArray nbits) (pos : Nat) : BitArray nbits :=
  if h : pos < nbits then
    { v with
      words := v.words.modify (pos / nbitsPerWord) (· ||| BitVec.twoPow 64 (pos % nbitsPerWord))
      length_words := by rw [List.length_modify, v.length_words]
      upper_clear := by
        intro i hi
        rw [nbitsPerWord, Words.bit_modify_or (by decide)
          (by rw [v.length_words]; exact div_lt_nwords h)]
        rw [v.upper_clear i hi, Bool.false_or, decide_eq_false_iff_not]
        omega }
  else
    v

def clearBit (v : BitArray nbits) (pos : Nat) : BitArray nbits :=
  if h : pos < nbits then
    { v with
      words := v.words.modify (pos / nbitsPerWord)
        (· &&& ~~~BitVec.twoPow 64 (pos % nbitsPerWord))
      length_words := by rw [List.length_modify, v.length_words]
      upper_clear := by
        intro i hi
        rw [nbitsPerWord, Words.bit_modify_and_not (by decide)
          (by rw [v.length_words]; exact div_lt_nwords h)]
        rw [v.upper_clear i hi, Bool.false_and] }
  else
    v

def negateBit (v : BitArray nbits) (pos : Nat) : BitArray nbits :=
  if h : pos < nbits then
    { v with
      words := v.words.modify (pos / nbitsPerWord) (· ^^^ BitVec.twoPow 64 (pos % nbitsPerWord))
      length_words := by rw [List.length_modify, v.length_words]
      upper_clear := by
        intro i hi
        rw [nbitsPerWord, Words.bit_modify_xor (by decide)
          (by rw [v.length_words]; exact div_lt_nwords h)]
        rw [v.upper_clear i hi, Bool.false_xor, decide_eq_false_iff_not]
        omega }
  else
    v

def setAll (v : BitArray nbits) : BitArray nbits where
  words := maskWords nbits
  nbits_pos := v.nbits_pos
  length_words := length_maskWords nbits
  upper_clear pos h := by
    rw [bit_maskWords v.nbits_pos, decide_eq_false_iff_not]
    omega

def clearAll (v : BitArray nbits) : BitArray nbits := new nbits v.nbits_pos

-- What the operations on two arrays share: they work word by word
def zipWords (f : Word → Word → Word) (g : Bool → Bool → Bool)
    (hf : ∀ x y p, (f x y).getLsbD p = g (x.getLsbD p) (y.getLsbD p)) (hg : g false false = false)
    (v rhs : BitArray nbits)
    : BitArray nbits where
  words := List.zipWith f v.words rhs.words
  nbits_pos := v.nbits_pos
  length_words := by rw [List.length_zipWith, v.length_words, rhs.length_words, Nat.min_self]
  upper_clear pos h := by
    rw [Words.bit_zipWith hf hg (v.length_words.trans rhs.length_words.symm)]
    rw [v.upper_clear pos h, rhs.upper_clear pos h, hg]

def negateAll (v : BitArray nbits) : BitArray nbits :=
  zipWords (· ^^^ ·) xor (by simp) rfl v v.setAll

def andAssign (v rhs : BitArray nbits) : BitArray nbits :=
  zipWords (· &&& ·) and (by simp) rfl v rhs

def orAssign (v rhs : BitArray nbits) : BitArray nbits :=
  zipWords (· ||| ·) or (by simp) rfl v rhs

def assignBit (v : BitArray nbits) (pos : Nat) (value : Bool) : BitArray nbits :=
  if value then v.setBit pos else v.clearBit pos

def assignAll (v : BitArray nbits) (value : Bool) : BitArray nbits :=
  if value then v.setAll else v.clearAll

section Bits

variable (v rhs : BitArray nbits) (pos i : Nat)

@[simp]
theorem isBitSet_new (h : 0 < nbits) : (new nbits h).isBitSet i = false := by
  rw [isBitSet_eq_bit]
  exact Words.bit_replicate_zero _ i

theorem isBitSet_of_le (h : nbits ≤ i) : v.isBitSet i = false := by
  rw [isBitSet_eq_bit, v.upper_clear i h]

@[simp]
theorem isBitSet_setBit
    : (v.setBit pos).isBitSet i = (v.isBitSet i || (decide (i = pos) && decide (i < nbits))) := by
  by_cases h : pos < nbits
  . have hwords : pos / 64 < v.words.length := by
      rw [v.length_words]
      exact div_lt_nwords h
    simp only [isBitSet_eq_bit, setBit, h, ↓reduceDIte]
    rw [nbitsPerWord, Words.bit_modify_or (by decide) hwords]
    by_cases hi : i = pos <;> simp [hi, h]
  . have hi : (decide (i = pos) && decide (i < nbits)) = false := by
      simp
      omega
    simp only [setBit, h, ↓reduceDIte, hi, Bool.or_false]

@[simp]
theorem isBitSet_clearBit
    : (v.clearBit pos).isBitSet i = (v.isBitSet i && !decide (i = pos)) := by
  by_cases h : pos < nbits
  . have hwords : pos / 64 < v.words.length := by
      rw [v.length_words]
      exact div_lt_nwords h
    simp only [isBitSet_eq_bit, clearBit, h, ↓reduceDIte]
    rw [nbitsPerWord, Words.bit_modify_and_not (by decide) hwords]
  . simp only [clearBit, h, ↓reduceDIte]
    by_cases hi : i = pos
    . rw [v.isBitSet_of_le i (by omega), Bool.false_and]
    . simp [hi]

@[simp]
theorem isBitSet_negateBit
    : (v.negateBit pos).isBitSet i =
        (v.isBitSet i ^^ (decide (i = pos) && decide (i < nbits))) := by
  by_cases h : pos < nbits
  . have hwords : pos / 64 < v.words.length := by
      rw [v.length_words]
      exact div_lt_nwords h
    simp only [isBitSet_eq_bit, negateBit, h, ↓reduceDIte]
    rw [nbitsPerWord, Words.bit_modify_xor (by decide) hwords]
    by_cases hi : i = pos <;> simp [hi, h]
  . have hi : (decide (i = pos) && decide (i < nbits)) = false := by
      simp
      omega
    simp only [negateBit, h, ↓reduceDIte, hi, Bool.xor_false]

@[simp]
theorem isBitSet_setAll : v.setAll.isBitSet i = decide (i < nbits) := by
  rw [isBitSet_eq_bit]
  exact bit_maskWords v.nbits_pos i

@[simp]
theorem isBitSet_clearAll : v.clearAll.isBitSet i = false := by
  exact isBitSet_new i v.nbits_pos

theorem isBitSet_zipWords (f : Word → Word → Word) (g : Bool → Bool → Bool)
    (hf : ∀ x y p, (f x y).getLsbD p = g (x.getLsbD p) (y.getLsbD p)) (hg : g false false = false)
    : (zipWords f g hf hg v rhs).isBitSet i = g (v.isBitSet i) (rhs.isBitSet i) := by
  simp only [isBitSet_eq_bit]
  exact Words.bit_zipWith hf hg (v.length_words.trans rhs.length_words.symm) i

@[simp]
theorem isBitSet_negateAll
    : v.negateAll.isBitSet i = (decide (i < nbits) && !v.isBitSet i) := by
  rw [negateAll, isBitSet_zipWords, isBitSet_setAll]
  by_cases h : i < nbits
  . simp [h]
  . rw [v.isBitSet_of_le i (by omega)]
    simp [h]

@[simp]
theorem isBitSet_andAssign : (v.andAssign rhs).isBitSet i = (v.isBitSet i && rhs.isBitSet i) := by
  exact isBitSet_zipWords v rhs i _ _ _ _

@[simp]
theorem isBitSet_orAssign : (v.orAssign rhs).isBitSet i = (v.isBitSet i || rhs.isBitSet i) := by
  exact isBitSet_zipWords v rhs i _ _ _ _

@[simp]
theorem isBitSet_assignAll (value : Bool)
    : (v.assignAll value).isBitSet i = (decide (i < nbits) && value) := by
  cases value <;> simp [assignAll]

end Bits

-- Comparing whole words is sound since the bits above the last element are clear
theorem words_eq_iff (v rhs : BitArray nbits)
    : v.words = rhs.words ↔ ∀ i < nbits, v.isBitSet i = rhs.isBitSet i := by
  constructor
  . intro h i _
    rw [isBitSet_eq_bit, isBitSet_eq_bit, h]
  . intro h
    apply Words.ext (v.length_words.trans rhs.length_words.symm)
    intro i
    by_cases hi : i < nbits
    . rw [← isBitSet_eq_bit, ← isBitSet_eq_bit]
      exact h i hi
    . rw [v.upper_clear i (by omega), rhs.upper_clear i (by omega)]

theorem isAllSet_iff (v : BitArray nbits)
    : v.isAllSet = true ↔ ∀ i < nbits, v.isBitSet i = true := by
  rw [isAllSet, beq_iff_eq]
  rw [show maskWords nbits = v.setAll.words from rfl, words_eq_iff]
  constructor
  . intro h i hi
    rw [h i hi, isBitSet_setAll, decide_eq_true hi]
  . intro h i hi
    rw [h i hi, isBitSet_setAll, decide_eq_true hi]

theorem isAllCleared_iff (v : BitArray nbits)
    : v.isAllCleared = true ↔ ∀ i < nbits, v.isBitSet i = false := by
  have hclear : v.isAllCleared = true ↔ v.words = v.clearAll.words := by
    rw [isAllCleared, List.all_eq_true]
    show _ ↔ v.words = List.replicate (nwords nbits) 0
    rw [List.eq_replicate_iff]
    simp [v.length_words]
  rw [hclear, words_eq_iff]
  constructor
  . intro h i hi
    rw [h i hi, isBitSet_clearAll]
  . intro h i hi
    rw [h i hi, isBitSet_clearAll]

end BitArray
