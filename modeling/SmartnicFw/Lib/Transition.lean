import Mathlib

/-!
This module contains runs of a labelled transition function: what holds in every state of a run and
what holds of every step of it.
-/

namespace Transition

variable {S L : Type} (step : S → L → Option S)

-- A label that is not enabled ends the run
def run (s : S) (ls : List L) : Option S :=
  match ls with
  | [] => some s
  | l :: ls => do
    let s ← step s l
    run s ls

def StatesSatisfy (p : S → Prop) (s : S) (ls : List L) : Prop :=
  match ls with
  | [] => p s
  | l :: ls => p s ∧ ∀ s', step s l = some s' → StatesSatisfy p s' ls

def StepsSatisfy (ok : S → L → Prop) (s : S) (ls : List L) : Prop :=
  match ls with
  | [] => True
  | l :: ls => ∀ s', step s l = some s' → ok s l ∧ StepsSatisfy ok s' ls

variable {step} {p inv : S → Prop} {ok : S → L → Prop}

theorem run_append (s : S) (ls ls' : List L)
    : run step s (ls ++ ls') = (run step s ls).bind (run step · ls') := by
  induction ls generalizing s with
  | nil => rfl
  | cons l ls ih =>
    rw [List.cons_append, run, run]
    cases step s l with
    | none => rfl
    | some s' => exact ih s'

theorem run_keeps (hstep : ∀ s l s', inv s → step s l = some s' → inv s') {s s' : S} {ls : List L}
    (hinv : inv s) (h : run step s ls = some s')
    : inv s' := by
  induction ls generalizing s with
  | nil =>
    cases h
    exact hinv
  | cons l ls ih =>
    obtain ⟨s₁, hs₁, hrest⟩ := Option.bind_eq_some_iff.mp h
    exact ih (hstep s l s₁ hinv hs₁) hrest

theorem StatesSatisfy.head {s : S} {ls : List L} (h : StatesSatisfy step p s ls) : p s := by
  cases ls with
  | nil => exact h
  | cons l ls => exact h.1

-- What holds in every state of a run holds where a part of it ends
theorem StatesSatisfy.of_run {s s' : S} {ls : List L} (h : StatesSatisfy step p s ls)
    (hrun : run step s ls = some s')
    : p s' := by
  induction ls generalizing s with
  | nil =>
    cases hrun
    exact h
  | cons l ls ih =>
    obtain ⟨s₁, hstep, hrest⟩ := Option.bind_eq_some_iff.mp hrun
    exact ih (h.2 s₁ hstep) hrest

-- An invariant that good steps keep carries a property through a run
theorem StatesSatisfy.of_steps (himp : ∀ s, inv s → p s)
    (hgood : ∀ s l s', inv s → step s l = some s' → ok s l → inv s')
    {s : S} {ls : List L} (hinv : inv s) (hsteps : StepsSatisfy step ok s ls)
    : StatesSatisfy step p s ls := by
  induction ls generalizing s with
  | nil => exact himp s hinv
  | cons l ls ih =>
    refine ⟨himp s hinv, ?_⟩
    intro s' hstep
    obtain ⟨hok, hrest⟩ := hsteps s' hstep
    exact ih (hgood s l s' hinv hstep hok) hrest

-- When a step that is not good always ends where the property fails, the property holds in every
-- state of a run exactly when every step is good
theorem statesSatisfy_iff_stepsSatisfy (himp : ∀ s, inv s → p s)
    (hgood : ∀ s l s', inv s → step s l = some s' → ok s l → inv s')
    (hbad : ∀ s l s', inv s → step s l = some s' → ¬ ok s l → ¬ p s')
    {s : S} (hinv : inv s) (ls : List L)
    : StatesSatisfy step p s ls ↔ StepsSatisfy step ok s ls := by
  constructor
  . intro h
    induction ls generalizing s with
    | nil => trivial
    | cons l ls ih =>
      intro s' hstep
      have hrest := h.2 s' hstep
      have hok : ok s l := by
        by_contra hnot
        exact hbad s l s' hinv hstep hnot hrest.head
      exact ⟨hok, ih (hgood s l s' hinv hstep hok) hrest⟩
  . exact StatesSatisfy.of_steps himp hgood hinv

end Transition
