import Mathlib

/-!
This module contains the bytes of a text in UTF-8, and that its ASCII characters can be looked for
among the bytes.
-/

namespace Utf8

def encode (cs : List Char) : List UInt8 := cs.flatMap String.utf8EncodeChar

def bytes (s : String) : List UInt8 := s.toByteArray.data.toList

theorem bytes_ofList (cs : List Char) : bytes (String.ofList cs) = encode cs := by
  unfold bytes
  rw [String.toByteArray_ofList]
  exact List.toList_data_toByteArray

theorem bytes_eq_encode (s : String) : bytes s = encode s.toList := by
  rw [← bytes_ofList, String.ofList_toList]

theorem bytes_append (s t : String) : bytes (s ++ t) = bytes s ++ bytes t := by
  unfold bytes
  rw [String.toByteArray_append, ByteArray.data_append, Array.toList_append]

theorem bytes_inj {s t : String} : bytes s = bytes t ↔ s = t := by
  constructor
  . intro h
    rw [← String.toByteArray_inj]
    exact ByteArray.ext (Array.toList_inj.mp h)
  . intro h
    rw [h]

theorem bytes_of_fromUTF8? {bs : List UInt8} {s : String}
    (h : String.fromUTF8? ⟨bs.toArray⟩ = some s)
    : bytes s = bs := by
  unfold String.fromUTF8? at h
  split at h
  . cases h
    rfl
  . contradiction

variable {a c : Char}

theorem utf8EncodeChar_of_lt (h : c.toNat < 128)
    : String.utf8EncodeChar c = [UInt8.ofNat c.toNat] := by
  unfold String.utf8EncodeChar
  exact if_pos (Nat.le_of_lt_succ h)

-- Every byte of another character has its upper bit set
theorem le_of_mem_utf8EncodeChar (h : 128 ≤ c.toNat) {b : UInt8} (hb : b ∈ String.utf8EncodeChar c)
    : 128 ≤ b.toNat := by
  have hle : ¬ c.val.toNat ≤ 0x7f := Nat.not_le_of_gt h
  have hofNat : ∀ n, 128 ≤ n → n < 256 → 128 ≤ (UInt8.ofNat n).toNat := by
    intro n hlow hhigh
    rwa [UInt8.toNat_ofNat', Nat.mod_eq_of_lt hhigh]
  unfold String.utf8EncodeChar at hb
  simp only [hle, if_false] at hb
  split at hb
  . simp only [List.mem_cons, List.not_mem_nil, or_false] at hb
    rcases hb with rfl | rfl <;> apply hofNat <;> omega
  . split at hb
    . simp only [List.mem_cons, List.not_mem_nil, or_false] at hb
      rcases hb with rfl | rfl | rfl <;> apply hofNat <;> omega
    . simp only [List.mem_cons, List.not_mem_nil, or_false] at hb
      rcases hb with rfl | rfl | rfl | rfl <;> apply hofNat <;> omega

theorem ofNat_inj (ha : a.toNat < 128) (hc : c.toNat < 128)
    : UInt8.ofNat a.toNat = UInt8.ofNat c.toNat ↔ a = c := by
  rw [← UInt8.toNat_inj, UInt8.toNat_ofNat', UInt8.toNat_ofNat', Nat.mod_eq_of_lt (by omega),
    Nat.mod_eq_of_lt (by omega), Char.toNat_inj]

theorem ne_ofNat_of_mem (ha : a.toNat < 128) (hne : c ≠ a) {b : UInt8}
    (hb : b ∈ String.utf8EncodeChar c)
    : b ≠ UInt8.ofNat a.toNat := by
  rintro rfl
  by_cases hc : c.toNat < 128
  . rw [utf8EncodeChar_of_lt hc, List.mem_singleton, ofNat_inj ha hc] at hb
    exact hne hb.symm
  . have hle := le_of_mem_utf8EncodeChar (Nat.le_of_not_lt hc) hb
    rw [UInt8.toNat_ofNat', Nat.mod_eq_of_lt (by omega)] at hle
    omega

-- Cutting the text at an ASCII character cuts its bytes at the byte of this character
theorem takeWhile_encode (ha : a.toNat < 128) (cs : List Char)
    : (encode cs).takeWhile (· ≠ UInt8.ofNat a.toNat) = encode (cs.takeWhile (· ≠ a)) := by
  unfold encode
  induction cs with
  | nil => rfl
  | cons c cs ih =>
    rw [List.flatMap_cons]
    by_cases hc : c = a
    . rw [List.takeWhile_cons_of_neg (by simpa using hc), hc, utf8EncodeChar_of_lt ha,
        List.singleton_append, List.takeWhile_cons_of_neg (by simp), List.flatMap_nil]
    . have hall : ∀ b ∈ String.utf8EncodeChar c, decide (b ≠ UInt8.ofNat a.toNat) = true := by
        intro b hb
        exact decide_eq_true (ne_ofNat_of_mem ha hc hb)
      rw [List.takeWhile_cons_of_pos (by simpa using hc), List.takeWhile_append_of_pos hall, ih,
        List.flatMap_cons]

theorem head?_encode_eq_iff (ha : a.toNat < 128) (cs : List Char)
    : (encode cs).head? = some (UInt8.ofNat a.toNat) ↔ cs.head? = some a := by
  cases cs with
  | nil => exact iff_of_false (by simp [encode]) (by simp)
  | cons c cs =>
    unfold encode
    rw [List.flatMap_cons, List.head?_append_of_ne_nil _ String.utf8EncodeChar_ne_nil,
      List.head?_cons, Option.some.injEq]
    constructor
    . intro h
      by_contra hne
      exact ne_ofNat_of_mem ha hne (List.mem_of_head? h) rfl
    . rintro rfl
      rw [utf8EncodeChar_of_lt ha]
      rfl

theorem encode_append (cs ds : List Char) : encode (cs ++ ds) = encode cs ++ encode ds :=
  List.flatMap_append

theorem encode_cons (c : Char) (cs : List Char)
    : encode (c :: cs) = String.utf8EncodeChar c ++ encode cs :=
  List.flatMap_cons

theorem encode_eq_nil_iff {cs : List Char} : encode cs = [] ↔ cs = [] := by
  constructor
  . intro h
    cases cs with
    | nil => rfl
    | cons c cs =>
      rw [encode_cons] at h
      exact absurd (List.append_eq_nil_iff.mp h).1 String.utf8EncodeChar_ne_nil
  . rintro rfl
    rfl

theorem ofNat_not_mem_encode (ha : a.toNat < 128) {cs : List Char} (h : a ∉ cs)
    : UInt8.ofNat a.toNat ∉ encode cs := by
  intro hmem
  obtain ⟨c, hc, hb⟩ := List.mem_flatMap.mp hmem
  exact ne_ofNat_of_mem ha (fun heq => h (heq ▸ hc)) hb rfl

theorem ofNat_mem_encode (ha : a.toNat < 128) {cs : List Char} (h : a ∈ cs)
    : UInt8.ofNat a.toNat ∈ encode cs := by
  apply List.mem_flatMap.mpr
  refine ⟨a, h, ?_⟩
  rw [utf8EncodeChar_of_lt ha]
  exact List.mem_singleton_self _

-- No character starts with the bytes of another one
theorem eq_of_utf8EncodeChar_append {d : Char} {x y : List UInt8}
    (h : String.utf8EncodeChar c ++ x = String.utf8EncodeChar d ++ y)
    : c = d ∧ x = y := by
  have hdecode : ∀ (c : Char) (x : List UInt8),
      ByteArray.utf8DecodeChar? (String.utf8EncodeChar c ++ x).toByteArray 0 = some c := by
    intro c x
    rw [List.toByteArray_append]
    exact ByteArray.utf8DecodeChar?_utf8EncodeChar_append
  obtain rfl : c = d := by
    apply Option.some.inj
    rw [← hdecode c x, ← hdecode d y, h]
  exact ⟨rfl, List.append_cancel_left h⟩

-- A cut in front of a first byte is a cut of the text
theorem exists_of_encode_eq_append {cs : List Char} {u v : List UInt8} (h : encode cs = u ++ v)
    (hfirst : ∀ b ∈ v.head?, b.IsUTF8FirstByte)
    : ∃ ds es, cs = ds ++ es ∧ u = encode ds ∧ v = encode es := by
  induction cs generalizing u with
  | nil =>
    obtain ⟨rfl, rfl⟩ := List.nil_eq_append_iff.mp h
    exact ⟨[], [], rfl, rfl, rfl⟩
  | cons c cs ih =>
    rw [encode_cons] at h
    rcases List.append_eq_append_iff.mp h with ⟨u', rfl, hv⟩ | ⟨w, hc, rfl⟩
    . obtain ⟨ds, es, rfl, rfl, rfl⟩ := ih hv
      exact ⟨c :: ds, es, rfl, by rw [encode_cons], rfl⟩
    . cases w with
      | nil =>
        rw [List.append_nil] at hc
        exact ⟨[c], cs, rfl, by rw [← hc, encode_cons, encode, List.flatMap_nil, List.append_nil],
          rfl⟩
      | cons b w =>
        have hb := hfirst b rfl
        have hlen : u.length < (String.utf8EncodeChar c).length := by
          rw [hc, List.length_append, List.length_cons]
          omega
        have hget : (String.utf8EncodeChar c)[u.length] = b := by
          simp [hc]
        rw [← hget, UInt8.isUTF8FirstByte_getElem_utf8EncodeChar, List.length_eq_zero_iff] at hb
        subst hb
        exact ⟨[], c :: cs, rfl, rfl, by rw [encode_cons, hc]; rfl⟩

end Utf8
