import Mathlib

/-!
This module contains bit vectors packed into a list of words of `w` bits: the word at index `i`
holds the bits from `w * i` on, the lowest bit first.
-/

namespace Words

variable {w : Nat}

def bit (words : List (BitVec w)) (pos : Nat) : Bool := (words.getD (pos / w) 0).getLsbD (pos % w)

-- The words whose first `n` bits are set, all but the last of `k` words being full
def ones (w k n : Nat) : List (BitVec w) :=
  List.replicate (k - 1) (BitVec.allOnes w) ++ [BitVec.ofNat w (2 ^ (n - w * (k - 1)) - 1)]

theorem bit_of_length_le {words : List (BitVec w)} {pos : Nat} (h : w * words.length ≤ pos)
    (hw : 0 < w)
    : bit words pos = false := by
  have hlen : words.length ≤ pos / w := (Nat.le_div_iff_mul_le hw).mpr (by rwa [Nat.mul_comm])
  simp [bit, List.getElem?_eq_none hlen]

-- Words of one length are equal when they agree in every bit
theorem ext {a b : List (BitVec w)} (hlen : a.length = b.length)
    (h : ∀ pos, bit a pos = bit b pos)
    : a = b := by
  apply List.ext_getElem hlen
  intro i ha hb
  apply BitVec.eq_of_getLsbD_eq
  intro p hp
  have hpos : 0 < w := by omega
  have hbit := h (w * i + p)
  have hdiv : (w * i + p) / w = i := by
    rw [Nat.mul_add_div hpos, Nat.div_eq_of_lt hp, Nat.add_zero]
  have hmod : (w * i + p) % w = p := by
    rw [Nat.mul_add_mod, Nat.mod_eq_of_lt hp]
  simpa [bit, hdiv, hmod, ha, hb] using hbit

theorem bit_replicate_zero (k pos : Nat) : bit (List.replicate k (0 : BitVec w)) pos = false := by
  unfold bit
  by_cases h : pos / w < k <;>
  . simp [h]

theorem bit_zipWith {f : BitVec w → BitVec w → BitVec w} {g : Bool → Bool → Bool}
    (hf : ∀ x y p, (f x y).getLsbD p = g (x.getLsbD p) (y.getLsbD p))
    (hg : g false false = false)
    {a b : List (BitVec w)} (hlen : a.length = b.length) (pos : Nat)
    : bit (List.zipWith f a b) pos = g (bit a pos) (bit b pos) := by
  unfold bit
  by_cases h : pos / w < a.length
  . have hb : pos / w < b.length := by omega
    simp [h, hb, hf]
  . have hb : ¬ pos / w < b.length := by omega
    simp [h, hb, hg]

theorem decide_eq_div_mod (w i pos : Nat)
    : decide (i = pos) = (decide (i / w = pos / w) && decide (i % w = pos % w)) := by
  rw [← Bool.decide_and, decide_eq_decide]
  constructor
  . rintro rfl
    exact ⟨rfl, rfl⟩
  . rintro ⟨hdiv, hmod⟩
    rw [← Nat.div_add_mod i w, ← Nat.div_add_mod pos w, hdiv, hmod]

-- Changing one word changes the bits of this word only
theorem bit_modify (f : BitVec w → BitVec w) {words : List (BitVec w)} {j : Nat}
    (hj : j < words.length) (i : Nat)
    : bit (words.modify j f) i =
        if i / w = j then (f (words[j])).getLsbD (i % w) else bit words i := by
  unfold bit
  by_cases hdiv : i / w = j
  . simp [hdiv, hj]
  . simp [hdiv, Ne.symm hdiv]

theorem bit_modify_or (hw : 0 < w) {words : List (BitVec w)} {pos : Nat}
    (hpos : pos / w < words.length) (i : Nat)
    : bit (words.modify (pos / w) (· ||| BitVec.twoPow w (pos % w))) i =
        (bit words i || decide (i = pos)) := by
  have hmod : i % w < w := Nat.mod_lt i hw
  rw [bit_modify _ hpos, decide_eq_div_mod w i pos]
  by_cases hdiv : i / w = pos / w
  . simp [bit, hdiv, hpos, hmod, eq_comm]
  . simp [hdiv]

theorem bit_modify_and_not (hw : 0 < w) {words : List (BitVec w)} {pos : Nat}
    (hpos : pos / w < words.length) (i : Nat)
    : bit (words.modify (pos / w) (· &&& ~~~BitVec.twoPow w (pos % w))) i =
        (bit words i && !decide (i = pos)) := by
  have hmod : i % w < w := Nat.mod_lt i hw
  rw [bit_modify _ hpos, decide_eq_div_mod w i pos]
  by_cases hdiv : i / w = pos / w
  . simp [bit, hdiv, hpos, hmod, eq_comm]
  . simp [hdiv]

theorem bit_modify_xor (hw : 0 < w) {words : List (BitVec w)} {pos : Nat}
    (hpos : pos / w < words.length) (i : Nat)
    : bit (words.modify (pos / w) (· ^^^ BitVec.twoPow w (pos % w))) i =
        (bit words i ^^ decide (i = pos)) := by
  have hmod : i % w < w := Nat.mod_lt i hw
  rw [bit_modify _ hpos, decide_eq_div_mod w i pos]
  by_cases hdiv : i / w = pos / w
  . simp [bit, hdiv, hpos, hmod, eq_comm]
  . simp [hdiv]

@[simp]
theorem length_ones {k : Nat} (hk : 0 < k) (n : Nat) : (ones w k n).length = k := by
  simp only [ones, List.length_append, List.length_replicate, List.length_singleton]
  omega

theorem bit_ones (hw : 0 < w) {k n : Nat} (hk : 0 < k) (hlow : w * (k - 1) ≤ n) (hn : n ≤ w * k)
    (pos : Nat)
    : bit (ones w k n) pos = decide (pos < n) := by
  have hmod : pos % w < w := Nat.mod_lt pos hw
  have hsplit := Nat.div_add_mod pos w
  have hmul : w * k = w * (k - 1) + w := by
    obtain ⟨k, rfl⟩ := Nat.exists_eq_add_of_lt hk
    simp [Nat.mul_add]
  rcases Nat.lt_trichotomy (pos / w) (k - 1) with hlt | heq | hgt
  . -- A full word
    have hle : w * (pos / w) + w ≤ w * (k - 1) := by
      rw [← Nat.mul_succ]
      exact Nat.mul_le_mul_left w hlt
    have hpos : pos < n := by omega
    simp [bit, ones, List.getElem?_append, hlt, hmod, hpos]
  . -- The last word
    rw [heq] at hsplit
    have hiff : pos % w < n - w * (k - 1) ↔ pos < n := by omega
    have hbit : (BitVec.ofNat w (2 ^ (n - w * (k - 1)) - 1)).getLsbD (pos % w)
        = decide (pos < n) := by
      rw [BitVec.getLsbD_ofNat, Nat.testBit_two_pow_sub_one]
      simp [hmod, hiff]
    simpa [bit, ones, heq] using hbit
  . have hle : w * k ≤ w * (pos / w) := Nat.mul_le_mul_left w (by omega)
    rw [bit_of_length_le (by rw [length_ones hk]; omega) hw]
    have hpos : ¬ pos < n := by omega
    simp [hpos]

end Words
