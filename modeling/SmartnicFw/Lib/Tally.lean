import Mathlib

/-!
This module contains values that are put into cells one after the other while their totals are kept
on the side, and when the totals are the sums of what the cells have in the end.
-/

namespace Tally

variable {α σ ρ : Type}

-- The sum of the values of some of the items
def sumOf (p : α → Prop) [DecidablePred p] (value : α → Nat) (as : List α) : Nat :=
  (as.map fun a => if p a then value a else 0).sum

variable {p : α → Prop} [DecidablePred p] {value : α → Nat}

theorem sumOf_cons (a : α) (as : List α)
    : sumOf p value (a :: as) = (if p a then value a else 0) + sumOf p value as := rfl

theorem sumOf_concat (as : List α) (a : α)
    : sumOf p value (as ++ [a]) = sumOf p value as + if p a then value a else 0 := by
  simp [sumOf]

theorem sumOf_eq_zero {as : List α} (h : ∀ a ∈ as, ¬ p a) : sumOf p value as = 0 := by
  apply List.sum_eq_zero
  intro n hn
  obtain ⟨a, ha, rfl⟩ := List.mem_map.mp hn
  exact if_neg (h a ha)

theorem sumOf_of_mem {as : List α} (hone : as.Pairwise fun a b => ¬ (p a ∧ p b)) {a : α}
    (ha : a ∈ as) (hp : p a)
    : sumOf p value as = value a := by
  induction as with
  | nil => cases ha
  | cons b as ih =>
    rw [sumOf_cons]
    obtain ⟨hfirst, hone⟩ := List.pairwise_cons.mp hone
    rcases List.mem_cons.mp ha with rfl | ha
    . rw [if_pos hp, sumOf_eq_zero fun b hb hpb => hfirst b hb ⟨hp, hpb⟩, Nat.add_zero]
    . rw [if_neg fun hb => hfirst a ha ⟨hb, hp⟩, ih hone ha, Nat.zero_add]

theorem sumOf_congr {q : α → Prop} [DecidablePred q] {as : List α} (h : ∀ a ∈ as, p a ↔ q a)
    : sumOf p value as = sumOf q value as := by
  unfold sumOf
  congr 1
  apply List.map_congr_left
  intro a ha
  simp only [h a ha]

theorem foldl_iff (P : σ → Prop) {Q : α → Prop} {f : σ → α → σ} (h : ∀ s a, P (f s a) ↔ P s ∨ Q a)
    (as : List α) (s : σ)
    : P (as.foldl f s) ↔ P s ∨ ∃ a ∈ as, Q a := by
  induction as generalizing s with
  | nil => simp
  | cons a as ih => simp only [List.foldl_cons, ih, h, List.mem_cons, exists_eq_or_imp, or_assoc]

-- Values that are added up
theorem foldl_add (N : σ → Nat) {f : σ → α → σ}
    (h : ∀ s a, N (f s a) = N s + if p a then value a else 0) (as : List α) (s : σ)
    : N (as.foldl f s) = N s + sumOf p value as := by
  induction as generalizing s with
  | nil => rfl
  | cons a as ih => rw [List.foldl_cons, ih, h, sumOf_cons, Nat.add_assoc]

-- Values of which each replaces the one before, when there is at most one
theorem foldl_replace (N : σ → Nat) {f : σ → α → σ}
    (h : ∀ s a, N (f s a) = if p a then value a else N s) {as : List α}
    (hone : as.Pairwise fun a b => ¬ (p a ∧ p b)) {s : σ} (hs : N s = 0)
    : N (as.foldl f s) = sumOf p value as := by
  induction as using List.reverseRecOn with
  | nil => exact hs
  | append_singleton as a ih =>
    obtain ⟨hone, _, hlast⟩ := List.pairwise_append.mp hone
    rw [List.foldl_concat, h, sumOf_concat]
    by_cases ha : p a
    . have hzero : sumOf p value as = 0 := by
        apply sumOf_eq_zero
        intro b hb hpb
        exact hlast b hb a List.mem_cons_self ⟨hpb, ha⟩
      rw [if_pos ha, if_pos ha, hzero, Nat.zero_add]
    . rw [if_neg ha, if_neg ha, Nat.add_zero]
      exact ih hone

-- Each item is counted on its own row
theorem sum_rows [DecidableEq ρ] (row : α → ρ) {rows : List ρ} (hrows : rows.Nodup) {as : List α}
    (h : ∀ a ∈ as, p a → row a ∈ rows)
    : (rows.map fun r => sumOf (fun a => p a ∧ row a = r) value as).sum = sumOf p value as := by
  induction as with
  | nil => simp [sumOf]
  | cons a as ih =>
    simp only [sumOf_cons, List.sum_map_add]
    rw [ih fun b hb => h b (List.mem_cons_of_mem _ hb)]
    congr 1
    by_cases ha : p a
    . have hsingle := List.sum_map_eq_nsmul_single (l := rows) (row a)
        (fun r => if p a ∧ row a = r then value a else 0)
        (fun r hr _ => if_neg fun hp => hr hp.2.symm)
      rw [hsingle, List.count_eq_one_of_mem hrows (h a List.mem_cons_self ha), if_pos ⟨ha, rfl⟩,
        if_pos ha, one_nsmul]
    . have hzero : ∀ r ∈ rows, (if p a ∧ row a = r then value a else 0) = 0 :=
        fun r _ => if_neg fun hp => ha hp.1
      rw [List.map_congr_left hzero, if_neg ha]
      simp

end Tally
