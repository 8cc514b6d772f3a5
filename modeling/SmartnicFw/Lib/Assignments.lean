import Mathlib
import SmartnicFw.Lib.MapM

/-!
This module contains texts of lines that assign a quoted value to a key each, and when such a text
is read back as it was meant.
-/

namespace Assignments

variable {α : Type}

def assignment (equals quote : α) (r : List α × List α) : List α :=
  r.1 ++ equals :: quote :: (r.2 ++ [quote])

theorem newline_not_mem_assignment_iff {newline equals quote : α} (hequals : newline ≠ equals)
    (hquote : newline ≠ quote) (r : List α × List α)
    : newline ∉ assignment equals quote r ↔ newline ∉ r.1 ∧ newline ∉ r.2 := by
  unfold assignment
  simp [hequals, hquote]

def terminated (newline : α) (ls : List (List α)) : List α := ls.flatMap (· ++ [newline])

variable [DecidableEq α]

-- Every line ends with a newline; what follows the last one is none
def lines (newline : α) (text : List α) : List (List α) := (text.splitOn newline).dropLast

-- The key ends at the first sign of equality, and the quotes are the ones at both ends
def readAssignment (equals quote : α) (line : List α) : Option (List α × List α) :=
  let key := line.takeWhile (· ≠ equals)
  match line.dropWhile (· ≠ equals) with
  | _ :: first :: rest =>
    if first = quote ∧ rest.getLast? = some quote then some (key, rest.dropLast) else none
  | _ => none

def read (newline equals quote : α) (text : List α) : Option (List (List α × List α)) :=
  (lines newline text).mapM (readAssignment equals quote)

variable {newline equals quote : α}

theorem splitOn_terminated (ls : List (List α))
    : (terminated newline ls).splitOn newline = ls.flatMap (·.splitOn newline) ++ [[]] := by
  unfold terminated
  induction ls with
  | nil => exact List.splitOn_nil newline
  | cons l ls ih =>
    rw [List.flatMap_cons, List.append_assoc, List.singleton_append, List.splitOn_append_cons_self,
      ih, List.flatMap_cons, List.append_assoc]

-- A line that holds newlines is several
theorem lines_terminated (ls : List (List α))
    : lines newline (terminated newline ls) = ls.flatMap (·.splitOn newline) := by
  rw [lines, splitOn_terminated, List.dropLast_concat]

theorem length_splitOn_pos (newline : α) (l : List α) : 0 < (l.splitOn newline).length := by
  rw [List.length_pos_iff]
  exact List.splitOn_ne_nil newline l

theorem length_splitOn_eq_one_iff {l : List α} : (l.splitOn newline).length = 1 ↔ newline ∉ l := by
  constructor
  . intro h hmem
    obtain ⟨before, after, rfl⟩ := List.append_of_mem hmem
    rw [List.splitOn_append_cons_self, List.length_append] at h
    have hbefore := length_splitOn_pos newline before
    have hafter := length_splitOn_pos newline after
    omega
  . intro h
    rw [List.splitOn_eq_singleton h]
    rfl

theorem length_le_lines (newline : α) (ls : List (List α))
    : ls.length ≤ (lines newline (terminated newline ls)).length := by
  rw [lines_terminated]
  induction ls with
  | nil => exact Nat.le_refl _
  | cons l ls ih =>
    have hpos := length_splitOn_pos newline l
    rw [List.flatMap_cons, List.length_append, List.length_cons]
    omega

theorem not_mem_of_length_lines {ls : List (List α)}
    (h : (lines newline (terminated newline ls)).length = ls.length)
    : ∀ l ∈ ls, newline ∉ l := by
  induction ls with
  | nil => exact List.forall_mem_nil _
  | cons l ls ih =>
    have hle := length_le_lines newline ls
    have hpos := length_splitOn_pos newline l
    rw [lines_terminated] at h hle ih
    rw [List.flatMap_cons, List.length_append, List.length_cons] at h
    rw [List.forall_mem_cons]
    exact ⟨length_splitOn_eq_one_iff.mp (by omega), ih (by omega)⟩

theorem lines_terminated_of_not_mem {ls : List (List α)} (h : ∀ l ∈ ls, newline ∉ l)
    : lines newline (terminated newline ls) = ls := by
  rw [lines_terminated]
  induction ls with
  | nil => rfl
  | cons l ls ih =>
    obtain ⟨hl, hls⟩ := List.forall_mem_cons.mp h
    rw [List.flatMap_cons, List.splitOn_eq_singleton hl, ih hls, List.singleton_append]

theorem readAssignment_assignment_iff (r : List α × List α)
    : readAssignment equals quote (assignment equals quote r) = some r ↔ equals ∉ r.1 := by
  obtain ⟨key, value⟩ := r
  constructor
  . intro h
    unfold readAssignment at h
    dsimp only at h
    split at h
    . split at h
      . obtain ⟨hkey, _⟩ := Prod.mk.inj (Option.some.inj h)
        intro hmem
        rw [← hkey] at hmem
        simpa using List.mem_takeWhile_imp hmem
      . contradiction
    . contradiction
  . intro h
    have hall : ∀ c ∈ key, decide (c ≠ equals) = true := by
      intro c hc
      apply decide_eq_true
      rintro rfl
      exact h hc
    unfold readAssignment assignment
    dsimp only
    rw [List.takeWhile_append_of_pos hall, List.dropWhile_append_of_pos hall,
      List.takeWhile_cons_of_neg (by simp), List.dropWhile_cons_of_neg (by simp), List.append_nil]
    simp

-- A text is read back as it was meant exactly when no line of it can be taken for something else
theorem read_terminated_iff (hequals : newline ≠ equals) (hquote : newline ≠ quote)
    (rs : List (List α × List α))
    : read newline equals quote (terminated newline (rs.map (assignment equals quote))) = some rs ↔
        ∀ r ∈ rs, newline ∉ r.1 ∧ newline ∉ r.2 ∧ equals ∉ r.1 := by
  have hlines : (∀ r ∈ rs, newline ∉ assignment equals quote r) →
      lines newline (terminated newline (rs.map (assignment equals quote))) =
        rs.map (assignment equals quote) := by
    intro hnot
    exact lines_terminated_of_not_mem (List.forall_mem_map.mpr hnot)
  constructor
  . intro h
    have hall := forall₂_of_mapM h
    have hlen := hall.length_eq
    rw [← List.length_map (assignment equals quote)] at hlen
    have hnot := List.forall_mem_map.mp (not_mem_of_length_lines hlen)
    rw [hlines hnot, List.forall₂_map_left_iff, List.forall₂_same] at hall
    intro r hr
    obtain ⟨hkey, hvalue⟩ := (newline_not_mem_assignment_iff hequals hquote r).mp (hnot r hr)
    exact ⟨hkey, hvalue, (readAssignment_assignment_iff r).mp (hall r hr)⟩
  . intro h
    have hnot : ∀ r ∈ rs, newline ∉ assignment equals quote r := by
      intro r hr
      obtain ⟨hkey, hvalue, _⟩ := h r hr
      exact (newline_not_mem_assignment_iff hequals hquote r).mpr ⟨hkey, hvalue⟩
    unfold read
    rw [hlines hnot]
    apply mapM_of_forall₂
    rw [List.forall₂_map_left_iff, List.forall₂_same]
    intro r hr
    exact (readAssignment_assignment_iff r).mpr (h r hr).2.2

end Assignments
