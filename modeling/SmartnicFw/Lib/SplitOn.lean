import SmartnicFw.Lib.Utf8

/-!
This module contains the parts that a list is split into at a separator: how many there are, what is in
them, and that the bytes of a text are split like its characters.
-/

namespace SplitOn

open Utf8 (encode)

section Intercalate

variable {α : Type} {c sep : α}

theorem mem_intercalate {sep : List α} {fields : List (List α)} (h : c ∈ sep.intercalate fields)
    : c ∈ sep ∨ ∃ f ∈ fields, c ∈ f := by
  induction fields with
  | nil => cases h
  | cons f fields ih =>
    cases fields with
    | nil =>
      rw [List.intercalate_singleton] at h
      exact .inr ⟨f, List.mem_singleton_self f, h⟩
    | cons g fields =>
      rw [List.intercalate_cons_cons, List.mem_append, List.mem_append] at h
      rcases h with (h | h) | h
      . exact .inr ⟨f, List.mem_cons_self, h⟩
      . exact .inl h
      . rcases ih h with h | ⟨f', hf', h⟩
        . exact .inl h
        . exact .inr ⟨f', List.mem_cons_of_mem f hf', h⟩

theorem flatMap_intercalate {β : Type} {g : α → List β} {sep' : β} (hsep : g sep = [sep'])
    (fields : List (List α))
    : ([sep].intercalate fields).flatMap g =
        [sep'].intercalate (fields.map fun f => f.flatMap g) := by
  induction fields with
  | nil => rfl
  | cons f fields ih =>
    cases fields with
    | nil => rw [List.map_singleton, List.intercalate_singleton, List.intercalate_singleton]
    | cons g' fields =>
      rw [List.intercalate_cons_cons, List.flatMap_append, List.flatMap_append, ih,
        List.flatMap_singleton, hsep]
      exact List.intercalate_cons_cons.symm

end Intercalate

section Parts

variable {α : Type} [DecidableEq α] {sep c : α} {f s : List α}

theorem length_splitOn (sep : α) (s : List α) : (s.splitOn sep).length = s.count sep + 1 := by
  induction s with
  | nil => rfl
  | cons c s ih =>
    rw [List.splitOn_cons_eq_if_modifyHead]
    by_cases hc : c = sep
    . subst hc
      rw [if_pos (beq_self_eq_true _), List.length_cons, ih, List.count_cons_self]
    . rw [if_neg (by simpa using hc), List.length_modifyHead, ih, List.count_cons_of_ne hc]

-- A part has symbols of the list only, and no separator
theorem mem_of_mem_splitOn (hf : f ∈ s.splitOn sep) (hc : c ∈ f) : c ∈ s ∧ c ≠ sep := by
  induction s generalizing f with
  | nil =>
    rw [List.splitOn_nil, List.mem_singleton] at hf
    subst hf
    cases hc
  | cons d s ih =>
    rw [List.splitOn_cons_eq_if_modifyHead] at hf
    by_cases hd : d = sep
    . subst hd
      rw [if_pos (beq_self_eq_true _), List.mem_cons] at hf
      rcases hf with rfl | hf
      . cases hc
      . exact ⟨List.mem_cons_of_mem _ (ih hf hc).1, (ih hf hc).2⟩
    . rw [if_neg (by simpa using hd)] at hf
      obtain ⟨first, rest, hsplit⟩ := List.exists_cons_of_ne_nil (List.splitOn_ne_nil sep s)
      rw [hsplit] at ih hf
      rw [List.modifyHead_cons, List.mem_cons] at hf
      rcases hf with rfl | hf
      . rcases List.mem_cons.mp hc with rfl | hc
        . exact ⟨List.mem_cons_self, hd⟩
        . obtain ⟨hmem, hne⟩ := ih List.mem_cons_self hc
          exact ⟨List.mem_cons_of_mem _ hmem, hne⟩
      . obtain ⟨hmem, hne⟩ := ih (List.mem_cons_of_mem _ hf) hc
        exact ⟨List.mem_cons_of_mem _ hmem, hne⟩

end Parts

section Utf8

variable {a : Char}

theorem encode_intercalate (ha : a.toNat < 128) (fields : List (List Char))
    : encode ([a].intercalate fields) =
        [UInt8.ofNat a.toNat].intercalate (fields.map encode) :=
  flatMap_intercalate (Utf8.utf8EncodeChar_of_lt ha) fields

theorem splitOn_encode (ha : a.toNat < 128) (s : List Char)
    : (encode s).splitOn (UInt8.ofNat a.toNat) = (s.splitOn a).map encode := by
  have hjoin : encode s = [UInt8.ofNat a.toNat].intercalate ((s.splitOn a).map encode) := by
    rw [← encode_intercalate ha, List.intercalate_splitOn]
  rw [hjoin]
  apply List.splitOn_intercalate
  . intro f hf
    obtain ⟨f', hf', rfl⟩ := List.mem_map.mp hf
    exact Utf8.ofNat_not_mem_encode ha fun hmem => (mem_of_mem_splitOn hf' hmem).2 rfl
  . intro h
    exact List.splitOn_ne_nil a s (List.map_eq_nil_iff.mp h)

end Utf8

end SplitOn
