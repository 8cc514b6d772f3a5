import Mathlib

/-!
This module contains histories of readings, each marked with whether it was a reset, and what was
read since the last reset.
-/

namespace History

variable {α : Type}

def sinceReset (h : List (α × Bool)) : List α :=
  (h.reverse.takeWhile fun p => !p.2).reverse.map Prod.fst

def lastReset (h : List (α × Bool)) : Option α := (h.reverse.find? fun p => p.2).map Prod.fst

def lastReading (h : List (α × Bool)) : Option α := h.getLast?.map Prod.fst

@[simp]
theorem sinceReset_nil : sinceReset ([] : List (α × Bool)) = [] := by
  rfl

@[simp]
theorem lastReset_nil : lastReset ([] : List (α × Bool)) = none := by
  rfl

@[simp]
theorem lastReading_nil : lastReading ([] : List (α × Bool)) = none := by
  rfl

@[simp]
theorem sinceReset_concat_reset (h : List (α × Bool)) (x : α)
    : sinceReset (h ++ [(x, true)]) = [] := by
  simp [sinceReset]

@[simp]
theorem sinceReset_concat (h : List (α × Bool)) (x : α)
    : sinceReset (h ++ [(x, false)]) = sinceReset h ++ [x] := by
  simp [sinceReset]

@[simp]
theorem lastReset_concat_reset (h : List (α × Bool)) (x : α)
    : lastReset (h ++ [(x, true)]) = some x := by
  simp [lastReset]

@[simp]
theorem lastReset_concat (h : List (α × Bool)) (x : α)
    : lastReset (h ++ [(x, false)]) = lastReset h := by
  simp [lastReset]

@[simp]
theorem lastReading_concat (h : List (α × Bool)) (p : α × Bool)
    : lastReading (h ++ [p]) = some p.1 := by
  simp [lastReading]

end History
