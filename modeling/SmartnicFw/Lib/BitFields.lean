import Mathlib

/-!
This module contains the theory of bit vectors that are laid out as a sequence of fields, the first
field in the most significant bits, and of the big-endian byte strings that carry them.
-/

/--
A value together with the number of bits reserved for it.
-/
structure BitField where
  width : Nat
  value : Nat
  value_lt : value < 2 ^ width

namespace BitField

/--
Concatenate fields, the head of the list ends up in the most significant bits.
-/
def concat : List BitField → Nat
  | [] => 0
  | f :: fs => f.value * 2 ^ (fs.map width).sum + concat fs

/--
Cut a number into fields of the given widths, most significant first.
-/
def cut : List Nat → Nat → List Nat
  | [], _ => []
  | w :: ws, x => x / 2 ^ ws.sum % 2 ^ w :: cut ws x

theorem concat_lt (fs : List BitField) : concat fs < 2 ^ (fs.map width).sum := by
  induction fs with
  | nil => simp [concat]
  | cons f fs ih =>
    have hf := f.value_lt
    simp only [concat, List.map_cons, List.sum_cons, pow_add]
    calc
      f.value * 2 ^ (fs.map width).sum + concat fs
          < f.value * 2 ^ (fs.map width).sum + 2 ^ (fs.map width).sum := by omega
      _ = (f.value + 1) * 2 ^ (fs.map width).sum := by ring
      _ ≤ 2 ^ f.width * 2 ^ (fs.map width).sum := Nat.mul_le_mul_right _ hf

theorem cut_mul_add (ws : List Nat) (a x : Nat) : cut ws (a * 2 ^ ws.sum + x) = cut ws x := by
  induction ws generalizing a with
  | nil => simp [cut]
  | cons w ws ih =>
    have hsplit : a * 2 ^ (w + ws.sum) + x = a * 2 ^ w * 2 ^ ws.sum + x := by
      rw [pow_add]
      ring
    simp only [cut, List.sum_cons, List.cons.injEq]
    rw [hsplit]
    constructor
    . rw [Nat.add_comm, Nat.add_mul_div_right _ _ (by positivity)]
      rw [Nat.add_mul_mod_self_right]
    . rw [ih]

theorem cut_concat (fs : List BitField) : cut (fs.map width) (concat fs) = fs.map value := by
  induction fs with
  | nil => rfl
  | cons f fs ih =>
    have hlow := concat_lt fs
    simp only [List.map_cons, cut, concat, List.cons.injEq]
    constructor
    . rw [Nat.add_comm, Nat.add_mul_div_right _ _ (by positivity)]
      rw [Nat.div_eq_of_lt hlow, Nat.zero_add]
      exact Nat.mod_eq_of_lt f.value_lt
    . rw [cut_mul_add, ih]

/--
Shifting an accumulator left and adding the next field, as done when fields arrive one at a time.
-/
def append (acc : Nat) (f : BitField) : Nat := acc * 2 ^ f.width + f.value

theorem foldl_append (fs : List BitField) (acc : Nat)
    : fs.foldl append acc = acc * 2 ^ (fs.map width).sum + concat fs := by
  induction fs generalizing acc with
  | nil => simp [concat]
  | cons f fs ih =>
    simp only [List.foldl_cons, ih, append, concat, List.map_cons, List.sum_cons, pow_add]
    ring

theorem foldl_append_zero (fs : List BitField) : fs.foldl append 0 = concat fs := by
  simp [foldl_append]

end BitField

/--
The `n` low bytes of a number, most significant byte first.
-/
def toBytesBE : Nat → Nat → List UInt8
  | 0, _ => []
  | n + 1, x => UInt8.ofNat (x / 256 ^ n) :: toBytesBE n x

/--
The number denoted by a byte string, most significant byte first.
-/
def ofBytesBE : List UInt8 → Nat
  | [] => 0
  | b :: bs => b.toNat * 256 ^ bs.length + ofBytesBE bs

@[simp]
theorem length_toBytesBE (n x : Nat) : (toBytesBE n x).length = n := by
  induction n with
  | zero => rfl
  | succ n ih => simp [toBytesBE, ih]

theorem ofBytesBE_toBytesBE (n x : Nat) : ofBytesBE (toBytesBE n x) = x % 256 ^ n := by
  induction n with
  | zero => simp [toBytesBE, ofBytesBE, Nat.mod_one]
  | succ n ih =>
    simp only [toBytesBE, ofBytesBE, length_toBytesBE, ih, UInt8.toNat_ofNat']
    rw [pow_succ 256 n, Nat.mod_mul, Nat.add_comm, Nat.mul_comm (256 ^ n)]

theorem ofBytesBE_toBytesBE_of_lt {n x : Nat} (h : x < 256 ^ n)
    : ofBytesBE (toBytesBE n x) = x := by
  rw [ofBytesBE_toBytesBE, Nat.mod_eq_of_lt h]

@[simp]
theorem ofBytesBE_replicate_zero_append (n : Nat) (bs : List UInt8)
    : ofBytesBE (List.replicate n 0 ++ bs) = ofBytesBE bs := by
  induction n with
  | zero => rfl
  | succ n ih => simp [List.replicate_succ, ofBytesBE, ih]
