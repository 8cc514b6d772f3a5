import Mathlib.Data.List.TakeWhile

/-!
This module contains regular expressions with groups as a backtracking engine matches them: the
repetitions are greedy, and of all the ways to match the first one in that order counts.
-/

inductive RegExp (α G : Type) where
  | eps
  | one (p : α → Bool)
  | many (p : α → Bool)
  | seq (r t : RegExp α G)
  | alt (r t : RegExp α G)
  | group (g : G) (r : RegExp α G)
  | atEnd (newline : α → Bool)

namespace RegExp

variable {α G β : Type}

def concat : List (RegExp α G) → RegExp α G
  | [] => eps
  | r :: rs => seq r (concat rs)

-- What the groups have matched, the last one first
abbrev Captures (α G : Type) := List (G × List α)

abbrev Continuation (α G β : Type) := Captures α G → List α → Option β

def plus (p : α → Bool) : RegExp α G := seq (one p) (many p)

def opt (r : RegExp α G) : RegExp α G := alt r eps

def lit [DecidableEq α] : List α → RegExp α G
  | [] => eps
  | c :: s => seq (one (· = c)) (lit s)

def runMany (p : α → Bool) (k : List α → Option β) : List α → Option β
  | [] => k []
  | c :: s => if p c then (runMany p k s).or (k (c :: s)) else k (c :: s)

-- What has been read of `s` when `rest` is left
def consumed (s rest : List α) : List α := s.take (s.length - rest.length)

def run (r : RegExp α G) (k : Continuation α G β) (caps : Captures α G) (s : List α) : Option β :=
  match r with
  | .eps => k caps s
  | .one p =>
    match s with
    | [] => none
    | c :: s => if p c then k caps s else none
  | .many p => runMany p (k caps) s
  | .seq r t => r.run (t.run k) caps s
  | .alt r t => (r.run k caps s).or (t.run k caps s)
  | .group g r => r.run (fun caps rest => k ((g, consumed s rest) :: caps) rest) caps s
  | .atEnd newline =>
    match s with
    | [] => k caps []
    | c :: s => if newline c ∧ s = [] then k caps (c :: s) else none

def groups (r : RegExp α G) (s : List α) : Option (Captures α G) := r.run (fun caps _ => some caps) [] s

def Captures.get [DecidableEq G] (caps : Captures α G) (g : G) : List α := (caps.lookup g).getD []

variable {p : α → Bool} {k : List α → Option β} {s : List α} {x : β}

@[simp]
theorem consumed_append (u w : List α) : consumed (u ++ w) w = u := by
  simp [consumed]

@[simp]
theorem consumed_cons_append (c : α) (u w : List α) : consumed (c :: (u ++ w)) w = c :: u := by
  apply consumed_append (c :: u)

@[simp]
theorem consumed_self (s : List α) : consumed s s = [] := by
  apply consumed_append []

@[simp]
theorem consumed_nil (s : List α) : consumed s [] = s := by
  simp [consumed]

theorem consumed_dropWhile (s : List α) : consumed s (s.dropWhile p) = s.takeWhile p := by
  conv => lhs; arg 1; rw [← List.takeWhile_append_dropWhile (p := p) (l := s)]
  apply consumed_append

-- The longest repetition counts when what follows it matches
theorem runMany_first (h : k (s.dropWhile p) = some x) : runMany p k s = some x := by
  induction s with
  | nil => simpa [runMany] using h
  | cons c s ih =>
    by_cases hc : p c
    . rw [List.dropWhile_cons_of_pos hc] at h
      simp [runMany, hc, ih h]
    . rw [List.dropWhile_cons_of_neg hc] at h
      simp [runMany, hc, h]

theorem runMany_all (hall : ∀ c ∈ s, p c) (h : k [] = some x) : runMany p k s = some x := by
  apply runMany_first
  rwa [List.dropWhile_eq_nil_iff.mpr hall]

theorem runMany_append {u w : List α} (hu : ∀ c ∈ u, p c) (hw : ∀ c ∈ w.head?, ¬ p c)
    (h : k w = some x)
    : runMany p k (u ++ w) = some x := by
  apply runMany_first
  rw [List.dropWhile_append_of_pos hu]
  cases w with
  | nil => exact h
  | cons c w => rwa [List.dropWhile_cons_of_neg (hw c rfl)]

theorem runMany_eq_none_iff
    : runMany p k s = none ↔ ∀ u w, s = u ++ w → (∀ c ∈ u, p c) → k w = none := by
  induction s with
  | nil =>
    constructor
    . intro h u w hs _
      obtain ⟨_, rfl⟩ := List.nil_eq_append_iff.mp hs
      exact h
    . intro h
      exact h [] [] rfl (by simp)
  | cons c s ih =>
    by_cases hc : p c
    . simp only [runMany, hc, if_true, Option.or_eq_none_iff, ih]
      constructor
      . rintro ⟨hrest, hnone⟩ u w hs hu
        rcases List.cons_eq_append_iff.mp hs with ⟨_, rfl⟩ | ⟨u', rfl, hrest'⟩
        . exact hnone
        . exact hrest u' w hrest' fun d hd => hu d (by simp [hd])
      . intro h
        constructor
        . intro u w hs hu
          apply h (c :: u) w (by simp [hs])
          simpa [hc] using hu
        . exact h [] (c :: s) rfl (by simp)
    . simp only [runMany, hc]
      constructor
      . intro hnone u w hs hu
        rcases List.cons_eq_append_iff.mp hs with ⟨_, rfl⟩ | ⟨u', rfl, _⟩
        . exact hnone
        . exact absurd (hu c (by simp)) hc
      . intro h
        exact h [] (c :: s) rfl (by simp)

-- A repetition of which no longer one lets the rest match
structure IsLongest (p : α → Bool) (k : List α → Option β) (s u w : List α) : Prop where
  split : s = u ++ w
  all : ∀ c ∈ u, p c
  longest : ∀ u' w', s = u' ++ w' → (∀ c ∈ u', p c) → u.length < u'.length → k w' = none

theorem isLongest_cons {c : α} {u w : List α} (hc : p c) (h : IsLongest p k s u w)
    : IsLongest p k (c :: s) (c :: u) w := by
  constructor
  . rw [h.split, List.cons_append]
  . simpa [hc] using h.all
  . intro u' w' hs hu' hlen
    rcases List.cons_eq_append_iff.mp hs with ⟨rfl, _⟩ | ⟨u'', rfl, hrest⟩
    . simp at hlen
    . apply h.longest u'' w' hrest (fun d hd => hu' d (by simp [hd]))
      simpa using hlen

theorem isLongest_nil_of_eq_none {c : α} (h : runMany p k s = none)
    : IsLongest p k (c :: s) [] (c :: s) := by
  constructor
  . rfl
  . simp
  . intro u' w' hs hu' hlen
    rcases List.cons_eq_append_iff.mp hs with ⟨rfl, _⟩ | ⟨u'', rfl, hrest⟩
    . simp at hlen
    . exact runMany_eq_none_iff.mp h u'' w' hrest fun d hd => hu' d (by simp [hd])

theorem isLongest_nil_of_not {c : α} (h : ¬ p c) : IsLongest p k (c :: s) [] (c :: s) := by
  constructor
  . rfl
  . simp
  . intro u' w' hs hu' hlen
    rcases List.cons_eq_append_iff.mp hs with ⟨rfl, _⟩ | ⟨u'', rfl, hrest⟩
    . simp at hlen
    . exact absurd (hu' c (by simp)) h

theorem exists_isLongest (h : runMany p k s = some x) : ∃ u w, IsLongest p k s u w ∧ k w = some x := by
  induction s with
  | nil => exact ⟨[], [], ⟨rfl, by simp, by simp_all⟩, h⟩
  | cons c s ih =>
    by_cases hc : p c
    . simp only [runMany, hc, if_true, Option.or_eq_some_iff] at h
      rcases h with h | ⟨hnone, h⟩
      . obtain ⟨u, w, hlongest, hw⟩ := ih h
        exact ⟨c :: u, w, isLongest_cons hc hlongest, hw⟩
      . exact ⟨[], c :: s, isLongest_nil_of_eq_none hnone, h⟩
    . simp only [runMany, hc] at h
      exact ⟨[], c :: s, isLongest_nil_of_not hc, h⟩

section Rules

variable {k : Continuation α G β} {caps : Captures α G} {g : G} {u w : List α}

@[simp]
theorem run_concat_nil (caps : Captures α G) (s : List α) : (concat []).run k caps s = k caps s := rfl

@[simp]
theorem run_concat_cons (r : RegExp α G) (rs : List (RegExp α G)) (caps : Captures α G) (s : List α)
    : (concat (r :: rs)).run k caps s = r.run ((concat rs).run k) caps s :=
  rfl

theorem run_group (r : RegExp α G) (caps : Captures α G) (s : List α)
    : (group g r).run k caps s
        = r.run (fun caps rest => k ((g, consumed s rest) :: caps) rest) caps s :=
  rfl

theorem run_plus_cons (c : α) (caps : Captures α G) (s : List α)
    : (plus p).run k caps (c :: s) = if p c then runMany p (k caps) s else none :=
  rfl

theorem run_opt (r : RegExp α G) (caps : Captures α G) (s : List α)
    : (opt r).run k caps s = (r.run k caps s).or (k caps s) :=
  rfl

theorem run_lit_cons [DecidableEq α] (c d : α) (l : List α) (caps : Captures α G) (s : List α)
    : (lit (c :: l)).run k caps (d :: s) =
        if decide (d = c) then (lit l).run k caps s else none :=
  rfl

@[simp]
theorem run_atEnd_nil (newline : α → Bool) (caps : Captures α G)
    : (atEnd newline).run k caps [] = k caps [] :=
  rfl

@[simp]
theorem run_lit_append [DecidableEq α] (l : List α) (caps : Captures α G) (s : List α)
    : (lit l).run k caps (l ++ s) = k caps s := by
  induction l with
  | nil => rfl
  | cons c l ih => simpa [run_lit_cons] using ih

theorem run_plus_append (hne : u ≠ []) (hu : ∀ c ∈ u, p c) (hw : ∀ c ∈ w.head?, ¬ p c)
    (h : k caps w = some x)
    : (plus p).run k caps (u ++ w) = some x := by
  obtain ⟨c, u, rfl⟩ := List.exists_cons_of_ne_nil hne
  simp only [List.cons_append, run_plus_cons, hu c (by simp), if_true]
  apply runMany_append (fun d hd => hu d (by simp [hd])) hw h

theorem run_group_plus_append (hne : u ≠ []) (hu : ∀ c ∈ u, p c) (hw : ∀ c ∈ w.head?, ¬ p c)
    (h : k ((g, u) :: caps) w = some x)
    : (group g (plus p)).run k caps (u ++ w) = some x := by
  rw [run_group]
  apply run_plus_append hne hu hw
  rwa [consumed_append]

theorem run_many_first {s : List α} (h : k caps (s.dropWhile p) = some x)
    : (many p).run k caps s = some x :=
  runMany_first h

theorem run_group_plus_first {c : α} {s : List α} (hc : p c)
    (h : k ((g, (c :: s).takeWhile p) :: caps) ((c :: s).dropWhile p) = some x)
    : (group g (plus p)).run k caps (c :: s) = some x := by
  rw [run_group]
  simp only [run_plus_cons, hc, if_true]
  apply runMany_first
  rw [← consumed_dropWhile, List.dropWhile_cons_of_pos hc] at h
  exact h

theorem run_group_many_all {s : List α} (hall : ∀ c ∈ s, p c) (h : k ((g, s) :: caps) [] = some x)
    : (group g (many p)).run k caps s = some x := by
  rw [run_group]
  apply runMany_all hall
  simpa using h

theorem run_plus_eq_none {c : α} {s : List α} (hc : ¬ p c) : (plus p).run k caps (c :: s) = none := by
  simp [run_plus_cons, hc]

theorem exists_of_run_plus {s : List α} (h : (plus p).run k caps s = some x)
    : ∃ u w, s = u ++ w ∧ u ≠ [] ∧ (∀ c ∈ u, p c) ∧ k caps w = some x := by
  cases s with
  | nil => contradiction
  | cons c s =>
    by_cases hc : p c
    . simp only [run_plus_cons, hc, if_true] at h
      obtain ⟨u, w, hlongest, hw⟩ := exists_isLongest h
      refine ⟨c :: u, w, by rw [hlongest.split, List.cons_append], by simp, ?_, hw⟩
      simpa [hc] using hlongest.all
    . rw [run_plus_eq_none hc] at h
      contradiction

theorem exists_of_run_lit [DecidableEq α] {l s : List α} (h : (lit l).run k caps s = some x)
    : ∃ w, s = l ++ w ∧ k caps w = some x := by
  induction l generalizing s with
  | nil => exact ⟨s, rfl, h⟩
  | cons c l ih =>
    cases s with
    | nil => contradiction
    | cons d s =>
      by_cases hd : d = c
      . subst hd
        simp only [run_lit_cons, decide_true, if_true] at h
        obtain ⟨w, rfl, hw⟩ := ih h
        exact ⟨w, rfl, hw⟩
      . simp [run_lit_cons, hd] at h

theorem run_plus_first {c : α} {s : List α} (hc : p c) (h : k caps ((c :: s).dropWhile p) = some x)
    : (plus p).run k caps (c :: s) = some x := by
  simp only [run_plus_cons, hc, if_true]
  apply runMany_first
  rwa [List.dropWhile_cons_of_pos hc] at h

theorem run_opt_of_some {r : RegExp α G} {s : List α} (h : r.run k caps s = some x)
    : (opt r).run k caps s = some x := by
  simp [run_opt, h]

end Rules

end RegExp
