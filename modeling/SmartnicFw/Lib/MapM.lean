import Mathlib.Data.List.Forall2

/-!
This module contains `List.mapM` for a function that can fail.
-/

universe u

variable {α β γ δ : Type u} {f : α → Option β} {as : List α} {bs : List β}

theorem forall₂_of_mapM (h : as.mapM f = some bs) : List.Forall₂ (fun a b => f a = some b) as bs := by
  induction as generalizing bs with
  | nil =>
    cases h
    exact .nil
  | cons a as ih =>
    simp only [List.mapM_cons, Option.bind_eq_bind, Option.bind_eq_some_iff, Option.pure_def] at h
    obtain ⟨b, hb, bs', hbs, h⟩ := h
    cases h
    exact .cons hb (ih hbs)

theorem mapM_of_forall₂ (h : List.Forall₂ (fun a b => f a = some b) as bs) : as.mapM f = some bs := by
  induction h with
  | nil => rfl
  | cons hb _ ih => simp [hb, ih]

theorem ne_nil_of_mapM (h : as.mapM f = some bs) (hne : as ≠ []) : bs ≠ [] := by
  rintro rfl
  exact hne (by simpa using (forall₂_of_mapM h).length_eq)

theorem exists_of_mapM_of_mem (h : as.mapM f = some bs) {a : α} (ha : a ∈ as)
    : ∃ b ∈ bs, f a = some b := by
  have hall := forall₂_of_mapM h
  clear h
  induction hall with
  | nil => contradiction
  | cons hb _ ih =>
    rcases List.mem_cons.mp ha with rfl | ha
    . exact ⟨_, by simp, hb⟩
    . obtain ⟨b, hmem, hb⟩ := ih ha
      exact ⟨b, by simp [hmem], hb⟩

theorem exists_of_mem_mapM (h : as.mapM f = some bs) {b : β} (hb : b ∈ bs)
    : ∃ a ∈ as, f a = some b := by
  have hall := forall₂_of_mapM h
  clear h
  induction hall with
  | nil => contradiction
  | cons ha _ ih =>
    rcases List.mem_cons.mp hb with rfl | hb
    . exact ⟨_, by simp, ha⟩
    . obtain ⟨a, hmem, ha⟩ := ih hb
      exact ⟨a, by simp [hmem], ha⟩

theorem exists_mapM (h : ∀ a ∈ as, ∃ b, f a = some b) : ∃ bs, as.mapM f = some bs := by
  induction as with
  | nil => exact ⟨[], rfl⟩
  | cons a as ih =>
    obtain ⟨⟨b, hb⟩, hrest⟩ := List.forall_mem_cons.mp h
    obtain ⟨bs, hbs⟩ := ih hrest
    exact ⟨b :: bs, by simp [hb, hbs]⟩

theorem exists_mapM_iff : (∃ bs, as.mapM f = some bs) ↔ ∀ a ∈ as, ∃ b, f a = some b := by
  constructor
  . rintro ⟨bs, h⟩ a ha
    obtain ⟨b, _, hb⟩ := exists_of_mapM_of_mem h ha
    exact ⟨b, hb⟩
  . exact exists_mapM

theorem mem_mapM_iff (h : as.mapM f = some bs) (b : β) : b ∈ bs ↔ ∃ a ∈ as, f a = some b := by
  constructor
  . apply exists_of_mem_mapM h
  . rintro ⟨a, ha, hb⟩
    obtain ⟨b', hmem, hb'⟩ := exists_of_mapM_of_mem h ha
    cases hb.symm.trans hb'
    exact hmem

-- A result that the argument can be read off from
theorem map_of_mapM {g : β → α} (hg : ∀ a b, f a = some b → g b = a) (h : as.mapM f = some bs)
    : bs.map g = as := by
  have hall := forall₂_of_mapM h
  clear h
  induction hall with
  | nil => rfl
  | cons hb _ ih => rw [List.map_cons, hg _ _ hb, ih]

theorem getElem?_of_forall₂ {R : α → β → Prop} (h : List.Forall₂ R as bs) {i : Nat} {b : β}
    (hb : bs[i]? = some b)
    : ∃ a, as[i]? = some a ∧ R a b := by
  induction h generalizing i with
  | nil => contradiction
  | cons hab _ ih =>
    cases i with
    | zero =>
      cases hb
      exact ⟨_, rfl, hab⟩
    | succ i => exact ih hb
