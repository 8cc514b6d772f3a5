import SmartnicFw.Lib.Mpz

/-!
This module contains the texts that `mpz_init_set_str` reads with base 0, as the manual of the
library describes them.
-/

namespace MpzText

def isspace (c : Char) : Bool := c = ' ' ∨ ('\t' ≤ c ∧ c ≤ '\r')

def digitValue (c : Char) : Option Nat :=
  if '0' ≤ c ∧ c ≤ '9' then
    some (c.toNat - 48)
  else if 'a' ≤ c ∧ c ≤ 'z' then
    some (c.toNat - 87)
  else if 'A' ≤ c ∧ c ≤ 'Z' then
    some (c.toNat - 55)
  else
    none

def isDigit (base : Nat) (c : Char) : Bool := (digitValue c).any (· < base)

def value (base : Nat) (s : List Char) : Nat :=
  s.foldl (fun n c => n * base + (digitValue c).getD 0) 0

def number (base : Nat) (s : List Char) : Option Nat :=
  if s ≠ [] ∧ s.all (isDigit base) then some (value base s) else none

-- The leading characters tell the base
def magnitude (s : List Char) : Option Nat :=
  match s with
  | [] => none
  | [c] => number 10 [c]
  | c :: x :: ds =>
    if c = '0' then
      if x = 'x' ∨ x = 'X' then
        number 16 ds
      else if x = 'b' ∨ x = 'B' then
        number 2 ds
      else
        number 8 (x :: ds)
    else
      number 10 (c :: x :: ds)

end MpzText

open MpzText

/--
`str` ends at its first NUL. White space is ignored wherever it stands.
-/
def mpzInitSetStr (str : List Char) : Option Mpz :=
  match (str.takeWhile (· ≠ '\x00')).filter (! isspace ·) with
  | '-' :: s => (magnitude s).map fun n => -Int.ofNat n
  | s => (magnitude s).map Int.ofNat

namespace MpzText

variable {c : Char} {s : List Char}

theorem isDigit_iff (base : Nat) (c : Char)
    : isDigit base c ↔
        48 ≤ c.toNat ∧ c.toNat ≤ 57 ∧ c.toNat - 48 < base ∨
        97 ≤ c.toNat ∧ c.toNat ≤ 122 ∧ c.toNat - 87 < base ∨
        65 ≤ c.toNat ∧ c.toNat ≤ 90 ∧ c.toNat - 55 < base := by
  have hval : c.val.toNat = c.toNat := rfl
  unfold isDigit digitValue
  simp only [Char.le_def, UInt32.le_iff_toNat_le, hval, Char.reduceVal, UInt32.reduceToNat]
  split_ifs
  . simp
    omega
  . simp
    omega
  . simp
    omega
  . simp
    omega

theorem isDigit_ten_iff : isDigit 10 c ↔ c.isDigit := by
  have hval : c.val.toNat = c.toNat := rfl
  rw [isDigit_iff]
  simp only [Char.isDigit, Bool.and_eq_true, decide_eq_true_eq, ge_iff_le, UInt32.le_iff_toNat_le,
    hval, UInt32.reduceToNat, Char.reduceVal]
  omega

theorem number_of_digits {base : Nat} (hne : s ≠ []) (h : ∀ c ∈ s, isDigit base c)
    : number base s = some (value base s) := by
  exact if_pos ⟨hne, List.all_eq_true.mpr h⟩

theorem number_of_mem {base : Nat} (hc : c ∈ s) (h : ¬ isDigit base c) : number base s = none := by
  apply if_neg
  intro hall
  exact h (List.all_eq_true.mp hall.2 c hc)

-- A character that a text of digits can have
def IsPlain (c : Char) : Prop := c ≠ '\x00' ∧ ¬ isspace c ∧ c ≠ '-'

theorem isPlain_of_toNat (h : 48 ≤ c.toNat) : IsPlain c := by
  have hval : c.val.toNat = c.toNat := rfl
  refine ⟨?_, ?_, ?_⟩
  . rintro rfl
    contradiction
  . intro hspace
    simp only [isspace, decide_eq_true_eq, Char.le_def, UInt32.le_iff_toNat_le, hval,
      Char.reduceVal, UInt32.reduceToNat] at hspace
    rcases hspace with rfl | hspace
    . contradiction
    . omega
  . rintro rfl
    contradiction

theorem mpzInitSetStr_of_plain (h : ∀ c ∈ s, IsPlain c)
    : mpzInitSetStr s = (magnitude s).map Int.ofNat := by
  have htake : s.takeWhile (· ≠ '\x00') = s := by
    rw [List.takeWhile_eq_self_iff]
    intro c hc
    simpa using (h c hc).1
  have hfilter : s.filter (! isspace ·) = s := by
    rw [List.filter_eq_self]
    intro c hc
    simpa using (h c hc).2.1
  unfold mpzInitSetStr
  rw [htake, hfilter]
  split
  . next s =>
    exact absurd rfl (h '-' List.mem_cons_self).2.2
  . rfl

-- A new line at the end does not count
theorem mpzInitSetStr_append_newline (h : ∀ c ∈ s, IsPlain c)
    : mpzInitSetStr (s ++ ['\n']) = mpzInitSetStr s := by
  have htake : ∀ t : List Char, '\x00' ∉ t → t.takeWhile (· ≠ '\x00') = t := by
    intro t ht
    rw [List.takeWhile_eq_self_iff]
    intro c hc
    rw [decide_eq_true_eq]
    rintro rfl
    contradiction
  have hnot : '\x00' ∉ s := fun hmem => (h _ hmem).1 rfl
  unfold mpzInitSetStr
  rw [htake _ hnot, htake _ (by simpa using hnot), List.filter_append]
  have hnewline : ['\n'].filter (! isspace ·) = [] := by decide
  rw [hnewline, List.append_nil]

end MpzText
