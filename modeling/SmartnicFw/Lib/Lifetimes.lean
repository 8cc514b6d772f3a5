import Mathlib.Data.List.Count
import Mathlib.Data.Set.Insert

/-!
This module contains the lifetimes of resources that lie inside others: which of them a sequence of
starts and ends leaves live.
-/

namespace Lifetimes

inductive Event (R : Type) where
  | starts (r : R)
  | ends (r : R)
  deriving DecidableEq, Repr

variable {R : Type}

-- A resource starts once, inside one that is live, and does not end before what lies inside it
def Event.Allowed (within : R → Option R) (live : Set R) : Event R → Prop
  | .starts r => r ∉ live ∧ ∀ q, within r = some q → q ∈ live
  | .ends r => r ∈ live ∧ ∀ q ∈ live, within q ≠ some r

def Event.after (live : Set R) : Event R → Set R
  | .starts r => insert r live
  | .ends r => live \ {r}

/--
The events are allowed one after the other, from nothing live on.
-/
inductive Runs (within : R → Option R) : List (Event R) → Set R → Prop where
  | nil : Runs within [] ∅
  | concat {events : List (Event R)} {live : Set R} {e : Event R} (h : Runs within events live)
      (he : e.Allowed within live)
      : Runs within (events ++ [e]) (e.after live)

namespace Runs

variable {within : R → Option R} {events : List (Event R)} {live : Set R}

theorem closed (h : Runs within events live) {r q : R} (hr : r ∈ live) (hq : within r = some q)
    : q ∈ live := by
  induction h generalizing r q with
  | nil => cases hr
  | @concat events live e h he ih =>
    cases e with
    | starts p =>
      rcases hr with rfl | hr
      . exact Set.mem_insert_of_mem _ (he.2 q hq)
      . exact Set.mem_insert_of_mem _ (ih hr hq)
    | ends p =>
      refine ⟨ih hr.1 hq, ?_⟩
      rintro rfl
      exact he.2 r hr.1 hq

-- What is live has started once more than it has ended, and anything else as often as it has ended
theorem count_starts [DecidableEq R] (h : Runs within events live) (r : R)
    : (r ∈ live → events.count (.starts r) = events.count (.ends r) + 1) ∧
        (r ∉ live → events.count (.starts r) = events.count (.ends r)) := by
  induction h with
  | nil => simp
  | @concat events live e h he ih =>
    cases e with
    | starts p =>
      by_cases hp : p = r
      . subst hp
        simp [Event.after, List.count_append, ih.2 he.1]
      . have hp' : ¬ r = p := fun h => hp h.symm
        simpa [Event.after, List.count_append, hp, hp'] using ih
    | ends p =>
      by_cases hp : p = r
      . subst hp
        simp [Event.after, List.count_append, ih.1 he.1]
      . have hp' : ¬ r = p := fun h => hp h.symm
        simpa [Event.after, List.count_append, hp, hp'] using ih

end Runs

end Lifetimes
