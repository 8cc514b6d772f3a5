import SmartnicFw.Lib.BitFields

/-!
This module contains the part of the GMP integer functions that bit packing code uses, as the GMP
manual documents them: `mpz_t` is an unbounded integer and its bits are those of its two's
complement representation.
-/

abbrev Mpz := Int

/--
The largest `unsigned long`, what a bit scan answers when there is no such bit.
-/
def ulongMax : Nat := 2 ^ 64 - 1

/--
`mpz_sizeinbase (op, 2)`: the sign is ignored and the result for zero is 1.
-/
def mpzSizeinbase2 (op : Mpz) : Nat :=
  if op = 0 then 1 else op.natAbs.log2 + 1

def mpzMul2exp (op : Mpz) (n : Nat) : Mpz := op * 2 ^ n

def mpzIor (op1 op2 : Mpz) : Mpz := Int.lor op1 op2

/--
The first bit at or above `start` that equals `b`. From bit `mpzSizeinbase2 op` on every bit is the
sign, so a window of that many bits plus one decides.
-/
def mpzScan (b : Bool) (op : Mpz) (start : Nat) : Nat :=
  ((List.range' start (mpzSizeinbase2 op + 1)).find? fun i => op.testBit i == b).getD ulongMax

def mpzScan0 (op : Mpz) (start : Nat) : Nat := mpzScan false op start

def mpzScan1 (op : Mpz) (start : Nat) : Nat := mpzScan true op start

/--
`mpz_export` with one byte words, most significant word first. The sign is ignored and nothing is
written for zero.
-/
def mpzExport (op : Mpz) : List UInt8 :=
  if op = 0 then [] else toBytesBE ((mpzSizeinbase2 op + 7) / 8) op.natAbs

theorem mpzSizeinbase2_pos (x : Mpz) : 0 < mpzSizeinbase2 x := by
  unfold mpzSizeinbase2
  split <;> omega

theorem natAbs_lt_two_pow_mpzSizeinbase2 (x : Mpz) : x.natAbs < 2 ^ mpzSizeinbase2 x := by
  unfold mpzSizeinbase2
  split
  . next h => simp [h]
  . exact Nat.lt_log2_self

theorem mpzSizeinbase2_le_iff (x : Mpz) {n : Nat} (hn : 0 < n)
    : mpzSizeinbase2 x ≤ n ↔ x.natAbs < 2 ^ n := by
  unfold mpzSizeinbase2
  split
  . next h =>
    simp only [h, Int.natAbs_zero]
    constructor
    . intro _
      positivity
    . intro _
      omega
  . next h =>
    have := Nat.log2_lt (k := n) (Int.natAbs_ne_zero.mpr h)
    omega

theorem length_mpzExport_le (x : Mpz) : (mpzExport x).length ≤ (mpzSizeinbase2 x + 7) / 8 := by
  unfold mpzExport
  split <;> simp

theorem ofBytesBE_mpzExport (x : Mpz) : ofBytesBE (mpzExport x) = x.natAbs := by
  unfold mpzExport
  split
  . next h => simp [h, ofBytesBE]
  . apply ofBytesBE_toBytesBE_of_lt
    have hlt := natAbs_lt_two_pow_mpzSizeinbase2 x
    have hle : 2 ^ mpzSizeinbase2 x ≤ 2 ^ (8 * ((mpzSizeinbase2 x + 7) / 8)) :=
      Nat.pow_le_pow_right (by omega) (by omega)
    rw [pow_mul] at hle
    exact Nat.lt_of_lt_of_le hlt hle

section Scan

theorem testBit_of_mpzSizeinbase2_le (x : Mpz) {i : Nat} (hi : mpzSizeinbase2 x ≤ i)
    : x.testBit i = decide (x < 0) := by
  have hlt : x.natAbs < 2 ^ i :=
    Nat.lt_of_lt_of_le (natAbs_lt_two_pow_mpzSizeinbase2 x) (Nat.pow_le_pow_right (by omega) hi)
  cases x with
  | ofNat m =>
    simp only [Int.ofNat_eq_natCast, Int.natAbs_natCast] at hlt
    simp [Int.testBit, Nat.testBit_lt_two_pow hlt]
  | negSucc m =>
    simp only [Int.natAbs_negSucc] at hlt
    simp [Int.testBit, Nat.testBit_lt_two_pow (Nat.lt_of_succ_lt hlt)]

/--
A scan answers at least `n` iff there is no matching bit before `n`.
-/
theorem le_mpzScan_iff (b : Bool) (x : Mpz) (start : Nat) {n : Nat} (hn : n ≤ ulongMax)
    : n ≤ mpzScan b x start ↔ ∀ i, start ≤ i → i < n → x.testBit i ≠ b := by
  unfold mpzScan
  cases hfind : (List.range' start (mpzSizeinbase2 x + 1)).find? fun i => x.testBit i == b with
  | none =>
    simp only [Option.getD_none]
    simp only [List.find?_range'_eq_none, Bool.not_eq_true'] at hfind
    refine ⟨?_, fun _ => hn⟩
    intro _ i hstart _
    by_cases hwin : i < start + (mpzSizeinbase2 x + 1)
    . simpa using hfind i hstart hwin
    . have hsign := hfind (start + mpzSizeinbase2 x) (by omega) (by omega)
      rw [testBit_of_mpzSizeinbase2_le x (by omega)] at hsign ⊢
      simpa using hsign
  | some k =>
    simp only [Option.getD_some]
    simp only [List.find?_range'_eq_some, beq_iff_eq] at hfind
    obtain ⟨hk, hmem, hbefore⟩ := hfind
    constructor
    . intro hle i hstart hi
      simpa using hbefore i hstart (by omega)
    . intro hall
      by_contra hlt
      exact hall k (List.left_le_of_mem_range' hmem) (by omega) hk

end Scan

section Ior

theorem testBit_eq_false_of_le {n w i : Nat} (hn : n < 2 ^ w) (hi : w ≤ i) : n.testBit i = false :=
  Nat.testBit_lt_two_pow (Nat.lt_of_lt_of_le hn (Nat.pow_le_pow_right (by omega) hi))

theorem ldiff_mul_two_pow (n m : Nat) {w : Nat} (hn : n < 2 ^ w) : Nat.ldiff n (m * 2 ^ w) = n := by
  apply Nat.eq_of_testBit_eq
  intro i
  rw [Nat.testBit_ldiff, Nat.testBit_mul_two_pow]
  by_cases hi : w ≤ i
  . simp [testBit_eq_false_of_le hn hi]
  . simp [hi]

theorem testBit_ones_below (a i : Nat) {w : Nat} (hi : i < w)
    : (a * 2 ^ w + (2 ^ w - 1)).testBit i = true := by
  rw [Nat.mul_comm, Nat.testBit_two_pow_mul_add _ (by have := Nat.two_pow_pos w; omega)]
  simp [hi]

/--
Below the shift the shifted operand is zero, so a non-negative part is simply added.
-/
theorem mpzIor_mul2exp_of_nonneg (x : Mpz) (p : Nat) {w : Nat} (hp : p < 2 ^ w)
    : mpzIor (mpzMul2exp x w) p = x * 2 ^ w + p := by
  unfold mpzIor mpzMul2exp
  cases x with
  | ofNat a =>
    have hcast : Int.ofNat a * 2 ^ w = ((a * 2 ^ w : Nat) : Int) := by simp
    rw [hcast]
    have hor := Nat.shiftLeft_add_eq_or_of_lt hp a
    rw [Nat.shiftLeft_eq] at hor
    show ((a * 2 ^ w ||| p : Nat) : Int) = _
    rw [← hor]
    simp
  | negSucc a =>
    have hpos := Nat.two_pow_pos w
    have hcast : Int.negSucc a * 2 ^ w = Int.negSucc (a * 2 ^ w + (2 ^ w - 1)) := by
      rw [Int.negSucc_eq, Int.negSucc_eq]
      push_cast [Nat.one_le_two_pow]
      ring
    rw [hcast]
    have hclear : Nat.ldiff (a * 2 ^ w + (2 ^ w - 1)) p = a * 2 ^ w + (2 ^ w - (p + 1)) := by
      apply Nat.eq_of_testBit_eq
      intro i
      rw [Nat.testBit_ldiff, Nat.mul_comm]
      rw [Nat.testBit_two_pow_mul_add _ (by omega), Nat.testBit_two_pow_mul_add _ (by omega)]
      by_cases hi : i < w
      . simp [hi, Nat.testBit_two_pow_sub_succ hp]
      . simp [hi, testBit_eq_false_of_le hp (Nat.le_of_not_lt hi)]
    show Int.negSucc (Nat.ldiff (a * 2 ^ w + (2 ^ w - 1)) p) = _
    rw [hclear, Int.negSucc_eq, Int.negSucc_eq]
    have hsub : ((2 ^ w - (p + 1) : Nat) : Int) = 2 ^ w - (p + 1) := by
      push_cast [Nat.succ_le_of_lt hp]
      ring
    push_cast at hsub ⊢
    rw [hsub]
    push_cast [Nat.one_le_two_pow]
    ring

/--
All bits of a negative part from `w` on are set, so it absorbs everything that was shifted.
-/
theorem mpzIor_mul2exp_of_neg (x p : Mpz) {w : Nat} (hneg : p < 0) (hp : p.natAbs ≤ 2 ^ w)
    : mpzIor (mpzMul2exp x w) p = p := by
  unfold mpzIor mpzMul2exp
  cases p with
  | ofNat n => exact absurd hneg (Int.not_lt.mpr (Int.natCast_nonneg n))
  | negSucc n =>
    replace hp : n < 2 ^ w := hp
    cases x with
    | ofNat a =>
      have hcast : Int.ofNat a * 2 ^ w = ((a * 2 ^ w : Nat) : Int) := by simp
      rw [hcast]
      show Int.negSucc (Nat.ldiff n (a * 2 ^ w)) = _
      rw [ldiff_mul_two_pow n a hp]
    | negSucc a =>
      have hcast : Int.negSucc a * 2 ^ w = Int.negSucc (a * 2 ^ w + (2 ^ w - 1)) := by
        rw [Int.negSucc_eq, Int.negSucc_eq]
        push_cast [Nat.one_le_two_pow]
        ring
      rw [hcast]
      have hand : (a * 2 ^ w + (2 ^ w - 1)) &&& n = n := by
        apply Nat.eq_of_testBit_eq
        intro i
        rw [Nat.testBit_and]
        by_cases hi : i < w
        . simp [testBit_ones_below a i hi]
        . simp [testBit_eq_false_of_le hp (Nat.le_of_not_lt hi)]
      show Int.negSucc ((a * 2 ^ w + (2 ^ w - 1)) &&& n) = _
      rw [hand]

/--
Appending a part never leaves the width of the operands, whatever their signs.
-/
theorem natAbs_mpzIor_mul2exp_lt (x p : Mpz) {n w : Nat} (hx : x.natAbs < 2 ^ n)
    (hp : p.natAbs < 2 ^ w)
    : (mpzIor (mpzMul2exp x w) p).natAbs < 2 ^ (n + w) := by
  have hpow : 2 ^ (n + w) = 2 ^ n * 2 ^ w := pow_add 2 n w
  have hn := Nat.two_pow_pos n
  have hw := Nat.two_pow_pos w
  by_cases hneg : p < 0
  . rw [mpzIor_mul2exp_of_neg x p hneg (Nat.le_of_lt hp), hpow]
    calc
      p.natAbs < 2 ^ w := hp
      _ = 1 * 2 ^ w := by ring
      _ ≤ 2 ^ n * 2 ^ w := Nat.mul_le_mul_right _ hn
  . obtain ⟨q, rfl⟩ := Int.eq_ofNat_of_zero_le (Int.not_lt.mp hneg)
    simp only [Int.natAbs_natCast] at hp
    rw [mpzIor_mul2exp_of_nonneg x q hp, hpow]
    have hx' : |x| < 2 ^ n := by
      rw [Int.abs_eq_natAbs]
      exact_mod_cast hx
    obtain ⟨hx1, hx2⟩ := abs_lt.mp hx'
    have hlow : (-2 ^ n + 1 : Int) * 2 ^ w ≤ x * 2 ^ w :=
      Int.mul_le_mul_of_nonneg_right hx1 (by positivity)
    have hhigh : (x + 1) * 2 ^ w ≤ (2 ^ n : Int) * 2 ^ w :=
      Int.mul_le_mul_of_nonneg_right hx2 (by positivity)
    have hq : (q : Int) < 2 ^ w := by exact_mod_cast hp
    have hgoal : ((x * 2 ^ w + q).natAbs : Int) < 2 ^ n * 2 ^ w := by
      rw [Int.natCast_natAbs, abs_lt]
      constructor <;> nlinarith
    exact_mod_cast hgoal

end Ior

section Append

-- Parts with their widths, shifted in one after the other
def mpzAppend (acc : Mpz) (part : Nat × Mpz) : Mpz := mpzIor (mpzMul2exp acc part.1) part.2

theorem natAbs_foldl_mpzAppend_lt (parts : List (Nat × Mpz))
    (hparts : ∀ part ∈ parts, part.2.natAbs < 2 ^ part.1) (acc : Mpz) {n : Nat}
    (hacc : acc.natAbs < 2 ^ n)
    : (parts.foldl mpzAppend acc).natAbs < 2 ^ (n + (parts.map Prod.fst).sum) := by
  induction parts generalizing acc n with
  | nil => simpa using hacc
  | cons part parts ih =>
    have hstep := natAbs_mpzIor_mul2exp_lt acc part.2 hacc (hparts part (by simp))
    have := ih (fun q hq => hparts q (by simp [hq])) (mpzAppend acc part) hstep
    simpa [Nat.add_assoc] using this

-- Non-negative parts within their widths are bit fields, and appending them lays these out
theorem foldl_mpzAppend_bitFields (fs : List BitField) (acc : Nat)
    : (fs.map fun f => (f.width, (f.value : Mpz))).foldl mpzAppend acc
        = (fs.foldl BitField.append acc : Nat) := by
  induction fs generalizing acc with
  | nil => rfl
  | cons f fs ih =>
    simp only [List.map_cons, List.foldl_cons, mpzAppend]
    rw [mpzIor_mul2exp_of_nonneg _ _ f.value_lt, ← ih]
    simp [BitField.append]

-- The bit fields of non-negative parts
theorem exists_bitFields (parts : List (Nat × Mpz))
    (hparts : ∀ part ∈ parts, 0 ≤ part.2 ∧ part.2.natAbs < 2 ^ part.1)
    : ∃ fs : List BitField, (fs.map fun f => (f.width, (f.value : Mpz))) = parts := by
  induction parts with
  | nil => exact ⟨[], rfl⟩
  | cons part parts ih =>
    obtain ⟨fs, hfs⟩ := ih fun q hq => hparts q (by simp [hq])
    obtain ⟨hnonneg, hlt⟩ := hparts part (by simp)
    refine ⟨⟨part.1, part.2.natAbs, hlt⟩ :: fs, ?_⟩
    simp [hfs, abs_of_nonneg hnonneg]

-- Cutting what was shifted in along the widths gives the parts back
theorem cut_foldl_mpzAppend (parts : List (Nat × Mpz))
    (hparts : ∀ part ∈ parts, 0 ≤ part.2 ∧ part.2.natAbs < 2 ^ part.1)
    : (BitField.cut (parts.map Prod.fst) (parts.foldl mpzAppend 0).natAbs).map Nat.cast
        = parts.map Prod.snd := by
  obtain ⟨fs, rfl⟩ := exists_bitFields parts hparts
  have hfold := foldl_mpzAppend_bitFields fs 0
  rw [BitField.foldl_append_zero] at hfold
  rw [show ((0 : Nat) : Mpz) = 0 from rfl] at hfold
  rw [hfold, Int.natAbs_natCast, List.map_map, List.map_map]
  have hcut := BitField.cut_concat fs
  simp only [Function.comp_def] at hcut ⊢
  rw [hcut, List.map_map]
  rfl

end Append
