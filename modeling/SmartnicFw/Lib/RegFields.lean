import Mathlib

/-!
This module contains the bit fields of hardware registers: reading one, and writing one without
touching the others.
-/

-- A field of a register of `n` bits
structure RegField (n : Nat) where
  shift : Nat
  width : Nat
  shift_add_width_le : shift + width ≤ n

namespace RegField

variable {n : Nat}

def Disjoint (f g : RegField n) : Prop :=
  f.shift + f.width ≤ g.shift ∨ g.shift + g.width ≤ f.shift

def Holds (f : RegField n) (i : Nat) : Prop := f.shift ≤ i ∧ i < f.shift + f.width

instance (f : RegField n) (i : Nat) : Decidable (f.Holds i) :=
  inferInstanceAs (Decidable (_ ∧ _))

def ones (f : RegField n) : BitVec n := BitVec.allOnes n >>> (n - f.width)

def get (f : RegField n) (v : BitVec n) : BitVec n := (v >>> f.shift) &&& f.ones

-- A value that is too wide for the field is cut
def set (f : RegField n) (v x : BitVec n) : BitVec n :=
  (v &&& ~~~(f.ones <<< f.shift)) ||| ((x &&& f.ones) <<< f.shift)

def Fits (f : RegField n) (x : BitVec n) : Prop := x.toNat < 2 ^ f.width

theorem getLsbD_ones (f : RegField n) (i : Nat) : f.ones.getLsbD i = decide (i < f.width) := by
  have hle := f.shift_add_width_le
  unfold ones
  rw [BitVec.getLsbD_ushiftRight, BitVec.getLsbD_allOnes]
  rw [decide_eq_decide]
  omega

theorem getLsbD_get (f : RegField n) (v : BitVec n) (i : Nat)
    : (f.get v).getLsbD i = (decide (i < f.width) && v.getLsbD (f.shift + i)) := by
  unfold get
  rw [BitVec.getLsbD_and, BitVec.getLsbD_ushiftRight, getLsbD_ones, Bool.and_comm]

theorem getLsbD_set (f : RegField n) (v x : BitVec n) (i : Nat)
    : (f.set v x).getLsbD i =
        if f.Holds i then x.getLsbD (i - f.shift) else v.getLsbD i := by
  have hle := f.shift_add_width_le
  unfold set
  simp only [BitVec.getLsbD_or, BitVec.getLsbD_and, BitVec.getLsbD_not, BitVec.getLsbD_shiftLeft,
    getLsbD_ones]
  by_cases hholds : f.Holds i
  . obtain ⟨hlow, hhigh⟩ := hholds
    have hi : i < n := by omega
    have hshift : ¬ i < f.shift := by omega
    have hwidth : i - f.shift < f.width := by omega
    rw [if_pos ⟨hlow, hhigh⟩]
    simp [hi, hshift, hwidth]
  . rw [if_neg hholds]
    by_cases hi : i < n
    . have hout : i < f.shift ∨ ¬ i - f.shift < f.width := by
        by_contra hnot
        apply hholds
        constructor <;> omega
      rcases hout with hout | hout <;> simp [hi, hout]
    . rw [BitVec.getLsbD_of_ge v i (by omega)]
      simp [hi]

theorem get_set (f : RegField n) (v x : BitVec n) : f.get (f.set v x) = x &&& f.ones := by
  apply BitVec.eq_of_getLsbD_eq
  intro i _
  rw [getLsbD_get, getLsbD_set, BitVec.getLsbD_and, getLsbD_ones]
  by_cases hi : i < f.width
  . have hholds : f.Holds (f.shift + i) := ⟨by omega, by omega⟩
    rw [if_pos hholds, Nat.add_sub_cancel_left]
    simp [hi]
  . simp [hi]

theorem get_set_of_disjoint {f g : RegField n} (h : f.Disjoint g) (v x : BitVec n)
    : f.get (g.set v x) = f.get v := by
  apply BitVec.eq_of_getLsbD_eq
  intro i _
  rw [getLsbD_get, getLsbD_get, getLsbD_set]
  by_cases hi : i < f.width
  . have hout : ¬ g.Holds (f.shift + i) := by
      rintro ⟨hlow, hhigh⟩
      rcases h with h | h <;> omega
    rw [if_neg hout]
  . simp [hi]

theorem toNat_and_ones (f : RegField n) (x : BitVec n)
    : (x &&& f.ones).toNat = x.toNat % 2 ^ f.width := by
  apply Nat.eq_of_testBit_eq
  intro i
  rw [BitVec.testBit_toNat, BitVec.getLsbD_and, getLsbD_ones, Nat.testBit_mod_two_pow,
    BitVec.testBit_toNat, Bool.and_comm]

theorem and_ones_of_fits {f : RegField n} {x : BitVec n} (h : f.Fits x) : x &&& f.ones = x := by
  apply BitVec.eq_of_toNat_eq
  rw [toNat_and_ones]
  exact Nat.mod_eq_of_lt h

end RegField
