import Mathlib

/-!
This module contains walks over lists that an exception can leave before their end, with what they
have changed until then, or that never end.
-/

-- How a computation is left, and the state that it leaves
inductive Outcome (S : Type) where
  | returns (s : S)
  | throws (s : S)
  deriving DecidableEq, Repr

namespace Outcome

variable {S T X : Type}

def state : Outcome S → S
  | .returns s => s
  | .throws s => s

def threw : Outcome S → Bool
  | .returns _ => false
  | .throws _ => true

def map (f : S → T) : Outcome S → Outcome T
  | .returns s => .returns (f s)
  | .throws s => .throws (f s)

@[simp]
theorem threw_map (f : S → T) (o : Outcome S) : (o.map f).threw = o.threw := by
  cases o <;> rfl

@[simp]
theorem state_map (f : S → T) (o : Outcome S) : (o.map f).state = f o.state := by
  cases o <;> rfl

-- A walk that updates the items of a list in order. There is no outcome when an item has none.
def walk (f : Nat → X → Option (Outcome X)) (i : Nat) (xs : List X) : Option (Outcome (List X)) :=
  match xs with
  | [] => some (.returns [])
  | x :: xs =>
    match f i x with
    | none => none
    | some (.throws x) => some (.throws (x :: xs))
    | some (.returns x) => (walk f (i + 1) xs).map (map (x :: ·))

-- Whether a walk is left by an exception, if it ends
def walkThrows (d : Nat → X → Option Bool) (i : Nat) (xs : List X) : Option Bool :=
  match xs with
  | [] => some false
  | x :: xs =>
    match d i x with
    | some false => walkThrows d (i + 1) xs
    | thrown => thrown

variable {f : Nat → X → Option (Outcome X)} {d : Nat → X → Option Bool}

theorem map_threw_walk (h : ∀ i x, (f i x).map threw = d i x) (i : Nat) (xs : List X)
    : (walk f i xs).map threw = walkThrows d i xs := by
  induction xs generalizing i with
  | nil => rfl
  | cons x xs ih =>
    unfold walk walkThrows
    rw [← h i x]
    cases f i x with
    | none => rfl
    | some o =>
      cases o with
      | throws x => rfl
      | returns x =>
        simp only [Option.map_some, threw]
        rw [← ih, Option.map_map]
        congr 1
        funext o
        exact threw_map _ o

-- A walk keeps a relation between the items before and after exactly when it is not left by an
-- exception, if an item does
theorem walk_forall₂_iff {R : X → X → Prop}
    (h : ∀ i x o, f i x = some o → (R x o.state ↔ o.threw = false)) (i : Nat) {xs : List X}
    {o : Outcome (List X)} (ho : walk f i xs = some o)
    : List.Forall₂ R xs o.state ↔ o.threw = false := by
  induction xs generalizing i o with
  | nil =>
    cases ho
    exact iff_of_true List.Forall₂.nil rfl
  | cons x xs ih =>
    unfold walk at ho
    cases hx : f i x with
    | none =>
      rw [hx] at ho
      cases ho
    | some ox =>
      have hR := h i x ox hx
      rw [hx] at ho
      cases ox with
      | throws x' =>
        cases ho
        simp only [state, threw] at hR ⊢
        rw [List.forall₂_cons, hR]
        simp
      | returns x' =>
        obtain ⟨os, hos, rfl⟩ := Option.map_eq_some_iff.mp ho
        simp only [state, threw, iff_true] at hR
        rw [state_map, threw_map, List.forall₂_cons, ih (i + 1) hos]
        exact and_iff_right hR

theorem walk_forall₂_of_returns {R : X → X → Prop}
    (h : ∀ i x x', f i x = some (.returns x') → R x x') (i : Nat) {xs xs' : List X}
    (hxs : walk f i xs = some (.returns xs'))
    : List.Forall₂ R xs xs' := by
  induction xs generalizing i xs' with
  | nil =>
    cases hxs
    exact List.Forall₂.nil
  | cons x xs ih =>
    unfold walk at hxs
    split at hxs
    . cases hxs
    . cases hxs
    . rename_i x' hx
      obtain ⟨o, ho, hmap⟩ := Option.map_eq_some_iff.mp hxs
      cases o with
      | throws xs' => cases hmap
      | returns xs' =>
        cases hmap
        exact List.Forall₂.cons (h i x x' hx) (ih (i + 1) ho)

end Outcome
