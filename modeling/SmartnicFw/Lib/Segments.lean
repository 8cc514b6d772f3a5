import Mathlib.Data.List.Forall2

/-!
This module contains lists that are made up of one segment for each of some items, in their order.
-/

namespace Segments

universe u v

variable {α : Type u} {β : Type v} {R : α → List β → Prop} {items : List α} {f : α → List β}

-- `R` says which segments an item can have
def Joined (R : α → List β → Prop) (items : List α) (out : List β) : Prop :=
  ∃ parts, List.Forall₂ R items parts ∧ out = parts.flatten

theorem joined_flatMap (h : ∀ a ∈ items, R a (f a)) : Joined R items (items.flatMap f) := by
  refine ⟨items.map f, ?_, ?_⟩
  . rw [List.forall₂_map_right_iff, List.forall₂_same]
    exact h
  . rw [List.flatMap_def]

-- Where no item has a segment that is too short, the segments cannot make up for each other
theorem length_le_of_forall₂ {parts : List (List β)} (hparts : List.Forall₂ R items parts)
    (hlen : ∀ a ∈ items, ∀ l, R a l → (f a).length ≤ l.length)
    : (items.flatMap f).length ≤ parts.flatten.length := by
  induction hparts with
  | nil => exact Nat.le_refl _
  | cons hseg _ ih =>
    rw [List.flatMap_cons, List.flatten_cons, List.length_append, List.length_append]
    apply Nat.add_le_add
    . exact hlen _ List.mem_cons_self _ hseg
    . apply ih
      intro a ha
      exact hlen a (List.mem_cons_of_mem _ ha)

theorem joined_flatMap_iff (hlen : ∀ a ∈ items, ∀ l, R a l → (f a).length ≤ l.length)
    : Joined R items (items.flatMap f) ↔ ∀ a ∈ items, R a (f a) := by
  constructor
  . rintro ⟨parts, hparts, heq⟩
    induction hparts with
    | nil => simp
    | @cons a part items parts hseg hrest ih =>
      have hlen' : ∀ a ∈ items, ∀ l, R a l → (f a).length ≤ l.length := by
        intro a ha
        exact hlen a (List.mem_cons_of_mem _ ha)
      have hhead := hlen a List.mem_cons_self part hseg
      have htail := length_le_of_forall₂ hrest hlen'
      rw [List.flatMap_cons, List.flatten_cons] at heq
      have hsum := congrArg List.length heq
      rw [List.length_append, List.length_append] at hsum
      obtain ⟨hfirst, hothers⟩ := List.append_inj heq (by omega)
      intro a' ha'
      rcases List.mem_cons.mp ha' with rfl | ha'
      . rw [hfirst]
        exact hseg
      . exact ih hlen' hothers a' ha'
  . exact joined_flatMap

end Segments
