import Mathlib

/-!
This module contains cursors: sources that give out one item after the other, each with the position
to go on from, and the loop over their items that ends as soon as it is asked to.
-/

namespace Cursor

inductive Next (π α : Type) where
  | exhausted
  | failed
  | item (position : π) (a : α)

inductive Outcome where
  | exhausted
  | failed
  | stopped
  deriving DecidableEq, Repr

section Walk

variable {ι π α σ : Type}

-- Whether to go on is what the function returns
def visit (f : α → σ → Bool × σ) (as : List α) (s : σ) : Bool × σ :=
  match as with
  | [] => (true, s)
  | a :: as =>
    match f a s with
    | (true, s) => visit f as s
    | (false, s) => (false, s)

def walk (next : π → Next π α) (f : α → σ → Bool × σ) (fuel : Nat) (position : π) (s : σ)
    : Option (Outcome × σ) :=
  match fuel with
  | 0 => none
  | fuel + 1 =>
    match next position with
    | .exhausted => some (.exhausted, s)
    | .failed => some (.failed, s)
    | .item position a =>
      match f a s with
      | (true, s) => walk next f fuel position s
      | (false, s) => some (.stopped, s)

-- One cursor after the other. A stop is no failure.
def walkEach (next : ι → π → Next π α) (start : π) (f : α → σ → Bool × σ) (fuel : Nat)
    (is : List ι) (s : σ)
    : Option (Bool × σ) :=
  match is with
  | [] => some (true, s)
  | i :: is =>
    match walk (next i) f fuel start s with
    | none => none
    | some (.exhausted, s) => walkEach next start f fuel is s
    | some (.failed, s) => some (false, s)
    | some (.stopped, s) => some (true, s)

end Walk

section Gives

variable {ι π α σ : Type} {next : π → Next π α} {f : α → σ → Bool × σ} {position : π} {as : List α}
variable {ends : Bool}

-- The items from a position on, and whether there is an end to them or a failure
inductive Gives (next : π → Next π α) : π → List α → Bool → Prop where
  | exhausted {position : π} (h : next position = .exhausted) : Gives next position [] true
  | failed {position : π} (h : next position = .failed) : Gives next position [] false
  | item {position position' : π} {a : α} {as : List α} {ends : Bool}
    (h : next position = .item position' a) (hrest : Gives next position' as ends)
    : Gives next position (a :: as) ends

theorem Gives.unique {as' : List α} {ends' : Bool} (h : Gives next position as ends)
    (h' : Gives next position as' ends')
    : as = as' ∧ ends = ends' := by
  induction h generalizing as' ends' with
  | exhausted hnext =>
    cases h' with
    | exhausted => exact ⟨rfl, rfl⟩
    | failed hnext' => cases hnext.symm.trans hnext'
    | item hnext' => cases hnext.symm.trans hnext'
  | failed hnext =>
    cases h' with
    | exhausted hnext' => cases hnext.symm.trans hnext'
    | failed => exact ⟨rfl, rfl⟩
    | item hnext' => cases hnext.symm.trans hnext'
  | item hnext _ ih =>
    cases h' with
    | exhausted hnext' => cases hnext.symm.trans hnext'
    | failed hnext' => cases hnext.symm.trans hnext'
    | item hnext' hrest' =>
      cases hnext.symm.trans hnext'
      obtain ⟨rfl, rfl⟩ := ih hrest'
      exact ⟨rfl, rfl⟩

theorem visit_cons_of_true {a : α} {s s' : σ} (h : f a s = (true, s'))
    : visit f (a :: as) s = visit f as s' := by
  rw [visit, h]

theorem visit_cons_of_false {a : α} {s s' : σ} (h : f a s = (false, s'))
    : visit f (a :: as) s = (false, s') := by
  rw [visit, h]

theorem visit_append (as bs : List α) (s : σ)
    : visit f (as ++ bs) s =
        if (visit f as s).1 then visit f bs (visit f as s).2 else visit f as s := by
  induction as generalizing s with
  | nil => rfl
  | cons a as ih =>
    rcases hf : f a s with ⟨_ | _, s'⟩
    . rw [List.cons_append, visit_cons_of_false hf, visit_cons_of_false hf]
      rfl
    . rw [List.cons_append, visit_cons_of_true hf, visit_cons_of_true hf]
      exact ih s'

theorem visit_map {β : Type} (g : β → α) (bs : List β) (s : σ)
    : visit f (bs.map g) s = visit (fun b => f (g b)) bs s := by
  induction bs generalizing s with
  | nil => rfl
  | cons b bs ih =>
    rw [List.map_cons]
    rcases hf : f (g b) s with ⟨_ | _, s'⟩
    . rw [visit_cons_of_false hf, @visit_cons_of_false _ _ (fun b => f (g b)) _ b _ _ hf]
    . rw [visit_cons_of_true hf, @visit_cons_of_true _ _ (fun b => f (g b)) _ b _ _ hf]
      exact ih s'

theorem visit_congr {f' : α → σ → Bool × σ} (h : ∀ a ∈ as, ∀ s, f a s = f' a s) (s : σ)
    : visit f as s = visit f' as s := by
  induction as generalizing s with
  | nil => rfl
  | cons a as ih =>
    unfold visit
    rw [h a List.mem_cons_self]
    split
    . apply ih
      intro a' ha'
      exact h a' (List.mem_cons_of_mem a ha')
    . rfl

-- What a walk ends with, by whether all items have been visited
def outcomeOf (went ends : Bool) : Outcome :=
  if went then (if ends then .exhausted else .failed) else .stopped

theorem exists_walk (h : Gives next position as ends) (s : σ)
    : ∃ enough, ∀ fuel, enough ≤ fuel →
        walk next f fuel position s =
          some (outcomeOf (visit f as s).1 ends, (visit f as s).2) := by
  induction h generalizing s with
  | exhausted hnext =>
    refine ⟨1, ?_⟩
    intro fuel hfuel
    obtain ⟨fuel, rfl⟩ := Nat.exists_eq_add_of_le' hfuel
    rw [walk, hnext]
    rfl
  | failed hnext =>
    refine ⟨1, ?_⟩
    intro fuel hfuel
    obtain ⟨fuel, rfl⟩ := Nat.exists_eq_add_of_le' hfuel
    rw [walk, hnext]
    rfl
  | @item position position' a as ends hnext _ ih =>
    rcases hf : f a s with ⟨_ | _, s'⟩
    . refine ⟨1, ?_⟩
      intro fuel hfuel
      obtain ⟨fuel, rfl⟩ := Nat.exists_eq_add_of_le' hfuel
      rw [walk, hnext, visit_cons_of_false hf]
      dsimp only
      rw [hf]
      rfl
    . obtain ⟨enough, hwalk⟩ := ih s'
      refine ⟨enough + 1, ?_⟩
      intro fuel hfuel
      obtain ⟨fuel, rfl⟩ := Nat.exists_eq_add_of_le' (Nat.le_of_add_left_le hfuel)
      rw [walk, hnext, visit_cons_of_true hf]
      dsimp only
      rw [hf]
      exact hwalk fuel (by omega)

-- The items up to the first failure
def untilFailure (parts : List (List α × Bool)) : List α × Bool :=
  match parts with
  | [] => ([], true)
  | (as, true) :: parts => (as ++ (untilFailure parts).1, (untilFailure parts).2)
  | (as, false) :: _ => (as, false)

theorem untilFailure_snd (parts : List (List α × Bool))
    : (untilFailure parts).2 = true ↔ ∀ part ∈ parts, part.2 = true := by
  induction parts with
  | nil => simp [untilFailure]
  | cons part parts ih =>
    rcases part with ⟨as, _ | _⟩
    . simp [untilFailure]
    . rw [untilFailure, List.forall_mem_cons, ih]
      simp

theorem untilFailure_map {β : Type} (g : α → β) (parts : List (List α × Bool))
    : untilFailure (parts.map fun part => (part.1.map g, part.2)) =
        ((untilFailure parts).1.map g, (untilFailure parts).2) := by
  induction parts with
  | nil => rfl
  | cons part parts ih =>
    rcases part with ⟨as, _ | _⟩
    . rfl
    . rw [List.map_cons, untilFailure, untilFailure, ih, List.map_append]

theorem exists_of_mem_untilFailure {parts : List (List α × Bool)} {a : α}
    (h : a ∈ (untilFailure parts).1)
    : ∃ part ∈ parts, a ∈ part.1 := by
  induction parts with
  | nil => cases h
  | cons part parts ih =>
    rcases part with ⟨as, _ | _⟩
    . exact ⟨_, List.mem_cons_self, h⟩
    . rw [untilFailure, List.mem_append] at h
      rcases h with h | h
      . exact ⟨_, List.mem_cons_self, h⟩
      . obtain ⟨part, hpart, ha⟩ := ih h
        exact ⟨part, List.mem_cons_of_mem _ hpart, ha⟩

-- What each cursor gives is where its own items start
theorem untilFailure_fst_isPrefix {parts : List (List α × Bool)} {orders : List (List α)}
    (h : List.Forall₂ (fun part order => part.1 <+: order ∧ (part.2 = true → part.1 = order))
      parts orders)
    : (untilFailure parts).1 <+: orders.flatten ∧
        ((untilFailure parts).2 = true → (untilFailure parts).1 = orders.flatten) := by
  induction h with
  | nil => exact ⟨List.prefix_rfl, fun _ => rfl⟩
  | @cons part order parts orders hpart _ ih =>
    rcases part with ⟨as, _ | _⟩
    . refine ⟨hpart.1.trans (List.prefix_append _ _), ?_⟩
      intro hends
      cases hends
    . obtain rfl : as = order := hpart.2 rfl
      rw [untilFailure, List.flatten_cons]
      refine ⟨List.prefix_append_right_inj as |>.mpr ih.1, ?_⟩
      intro hends
      rw [ih.2 hends]

variable {next : ι → π → Next π α} {start : π}

-- By induction on the cursors: the first failure and the first stop both end the walk
theorem exists_walkEach {is : List ι} {parts : List (List α × Bool)}
    (h : List.Forall₂ (fun i part => Gives (next i) start part.1 part.2) is parts) (s : σ)
    : ∃ enough, ∀ fuel, enough ≤ fuel →
        walkEach next start f fuel is s =
          some (!(visit f (untilFailure parts).1 s).1 || (untilFailure parts).2,
            (visit f (untilFailure parts).1 s).2) := by
  induction h generalizing s with
  | nil => exact ⟨0, fun _ _ => rfl⟩
  | @cons i part is parts hgives _ ih =>
    obtain ⟨enough, hwalk⟩ := @exists_walk π α σ (next i) f start part.1 part.2 hgives s
    rcases part with ⟨as, _ | _⟩
    . refine ⟨enough, ?_⟩
      intro fuel hfuel
      rw [walkEach, hwalk fuel hfuel, untilFailure]
      dsimp only
      cases (visit f as s).1 <;> rfl
    . rcases hvisit : visit f as s with ⟨_ | _, s'⟩
      . refine ⟨enough, ?_⟩
        intro fuel hfuel
        rw [walkEach, hwalk fuel hfuel, untilFailure, visit_append, hvisit]
        rfl
      . obtain ⟨enough', heach⟩ := ih s'
        refine ⟨max enough enough', ?_⟩
        intro fuel hfuel
        rw [walkEach, hwalk fuel (le_of_max_le_left hfuel), untilFailure, visit_append, hvisit]
        exact heach fuel (le_of_max_le_right hfuel)

end Gives

end Cursor
