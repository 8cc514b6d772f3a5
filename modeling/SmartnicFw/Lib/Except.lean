import Mathlib

/-!
This module contains the inversion of computations in `Except`.
-/

namespace Except

variable {ε α β : Type}

@[simp]
theorem throw_bind {e : ε} {f : α → Except ε β} : (throw e : Except ε α) >>= f = .error e := by
  rfl

theorem bind_eq_ok_iff {x : Except ε α} {f : α → Except ε β} {b : β}
    : x >>= f = .ok b ↔ ∃ a, x = .ok a ∧ f a = .ok b := by
  cases x <;> simp [bind, Except.bind]

theorem bind_eq_error_iff {x : Except ε α} {f : α → Except ε β} {e : ε}
    : x >>= f = .error e ↔ x = .error e ∨ ∃ a, x = .ok a ∧ f a = .error e := by
  cases x <;> simp [bind, Except.bind]

theorem ite_error_eq_ok_iff {c : Prop} [Decidable c] {e : ε} {x : Except ε β} {b : β}
    : (if c then .error e else x) = .ok b ↔ ¬c ∧ x = .ok b := by
  split
  . next h => simp [h]
  . next h => simp [h]

theorem forall₂_of_mapM_eq_ok {f : α → Except ε β} {as : List α} {bs : List β}
    (h : as.mapM f = .ok bs)
    : List.Forall₂ (fun a b => f a = .ok b) as bs := by
  induction as generalizing bs with
  | nil =>
    cases h
    exact .nil
  | cons a as ih =>
    rw [List.mapM_cons] at h
    obtain ⟨b, hb, h⟩ := bind_eq_ok_iff.mp h
    obtain ⟨bs, hbs, h⟩ := bind_eq_ok_iff.mp h
    cases h
    exact .cons hb (ih hbs)

theorem exists_mapM_eq_ok_iff {f : α → Except ε β} {as : List α}
    : (∃ bs, as.mapM f = .ok bs) ↔ ∀ a ∈ as, ∃ b, f a = .ok b := by
  induction as with
  | nil =>
    constructor
    . intro _ a ha
      cases ha
    . intro _
      exact ⟨[], List.mapM_nil⟩
  | cons a as ih =>
    rw [List.forall_mem_cons, ← ih, List.mapM_cons]
    constructor
    . rintro ⟨bs, h⟩
      obtain ⟨b, hb, h⟩ := bind_eq_ok_iff.mp h
      obtain ⟨bs', hbs, _⟩ := bind_eq_ok_iff.mp h
      exact ⟨⟨b, hb⟩, bs', hbs⟩
    . rintro ⟨⟨b, hb⟩, bs, hbs⟩
      exact ⟨b :: bs, bind_eq_ok_iff.mpr ⟨b, hb, bind_eq_ok_iff.mpr ⟨bs, hbs, rfl⟩⟩⟩

theorem exists_of_mapM_eq_error {f : α → Except ε β} {as : List α} {e : ε}
    (h : as.mapM f = .error e)
    : ∃ a ∈ as, f a = .error e := by
  induction as with
  | nil => cases h
  | cons a as ih =>
    rw [List.mapM_cons] at h
    rcases bind_eq_error_iff.mp h with ha | ⟨b, _, h⟩
    . exact ⟨a, List.mem_cons_self, ha⟩
    . rcases bind_eq_error_iff.mp h with has | ⟨bs, _, h⟩
      . obtain ⟨a', hmem, ha'⟩ := ih has
        exact ⟨a', List.mem_cons_of_mem _ hmem, ha'⟩
      . cases h

end Except
