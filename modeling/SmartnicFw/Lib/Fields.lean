import Mathlib.Data.List.DropRight
import Mathlib.Data.List.TakeWhile

/-!
This module contains texts as sequences of fields that runs of separators stand between.
-/

namespace Fields

variable {α : Type}

def strip (sep : α → Bool) (s : List α) : List α := (s.dropWhile sep).rdropWhile sep

-- The pieces between the runs of separators, where a run at either end has an empty piece beside it
def splitRuns.go (sep : α → Bool) (inRun : Bool) (piece : List α) : List α → List (List α)
  | [] => [piece]
  | c :: s =>
    if sep c then
      if inRun then go sep true piece s else piece :: go sep true [] s
    else
      go sep false (piece ++ [c]) s

def splitRuns (sep : α → Bool) (s : List α) : List (List α) := splitRuns.go sep false [] s

def words (sep : α → Bool) (s : List α) : List (List α) := (s.splitOnP sep).filter (! ·.isEmpty)

-- Nothing, or something that a separator begins
def Separated (sep : α → Bool) (s : List α) : Prop := ∀ c ∈ s.head?, sep c

variable {sep : α → Bool}

@[simp]
theorem words_nil : words sep [] = [] := by
  simp [words]

theorem ne_nil_of_mem_words {s t : List α} (h : t ∈ words sep s) : t ≠ [] := by
  simpa using (List.mem_filter.mp h).2

theorem words_append_cons {c : α} (hc : sep c) (x y : List α)
    : words sep (x ++ c :: y) = words sep x ++ words sep y := by
  unfold words
  rw [List.splitOnP_append_cons x y hc, List.filter_append]

theorem words_cons {c : α} (hc : sep c) (y : List α) : words sep (c :: y) = words sep y := by
  simpa using words_append_cons hc [] y

theorem words_append (x : List α) {y : List α} (hy : Separated sep y)
    : words sep (x ++ y) = words sep x ++ words sep y := by
  cases y with
  | nil => simp
  | cons c y => rw [words_append_cons (hy c rfl), words_cons (hy c rfl)]

theorem words_seps_append {x : List α} (hx : ∀ c ∈ x, sep c) (y : List α)
    : words sep (x ++ y) = words sep y := by
  induction x with
  | nil => rfl
  | cons c x ih =>
    rw [List.cons_append, words_cons (hx c (by simp)), ih fun d hd => hx d (by simp [hd])]

theorem words_seps {x : List α} (hx : ∀ c ∈ x, sep c) : words sep x = [] := by
  simpa using words_seps_append hx []

theorem words_word {x : List α} (hne : x ≠ []) (hx : ∀ c ∈ x, ¬ sep c) : words sep x = [x] := by
  unfold words
  rw [List.splitOnP_eq_singleton fun c hc => by simpa using hx c hc]
  simp [hne]

theorem words_word_append {x y : List α} (hne : x ≠ []) (hx : ∀ c ∈ x, ¬ sep c)
    (hy : Separated sep y)
    : words sep (x ++ y) = x :: words sep y := by
  rw [words_append x hy, words_word hne hx, List.singleton_append]

theorem words_dropWhile (s : List α) : words sep (s.dropWhile sep) = words sep s := by
  conv => rhs; rw [← List.takeWhile_append_dropWhile (p := sep) (l := s)]
  rw [words_seps_append]
  intro c hc
  exact List.mem_takeWhile_imp hc

theorem words_rdropWhile (s : List α) : words sep (s.rdropWhile sep) = words sep s := by
  have hall : ∀ c ∈ s.rtakeWhile sep, sep c := by
    intro c hc
    exact List.mem_rtakeWhile_imp hc
  conv => rhs; rw [← List.rdropWhile_append_rtakeWhile (p := sep) (l := s)]
  rw [words_append _ fun c hc => hall c (List.mem_of_head? hc), words_seps hall, List.append_nil]

theorem words_strip (s : List α) : words sep (strip sep s) = words sep s := by
  rw [strip, words_rdropWhile, words_dropWhile]

theorem not_of_mem_head?_dropWhile {p : α → Bool} {s : List α} {c : α} (h : c ∈ (s.dropWhile p).head?)
    : ¬ p c := by
  have hnot := List.head?_dropWhile_not p s
  rw [Option.mem_def.mp h] at hnot
  simpa using hnot

-- A word in a text, with separators on both sides
structure IsWordIn (sep : α → Bool) (s x t y : List α) : Prop where
  split : s = x ++ t ++ y
  before : ∀ c ∈ x.getLast?, sep c
  after : Separated sep y
  nonempty : t ≠ []
  word : ∀ c ∈ t, ¬ sep c

section FirstWord

variable {c : α} {rest : List α}

theorem not_of_mem_takeWhile (rest : List α) : ∀ c ∈ rest.takeWhile (! sep ·), ¬ sep c := by
  intro c hc
  simpa using List.mem_takeWhile_imp hc

theorem separated_dropWhile (rest : List α) : Separated sep (rest.dropWhile (! sep ·)) := by
  intro c hc
  simpa using not_of_mem_head?_dropWhile hc

theorem words_cons_of_not (hc : ¬ sep c)
    : words sep (c :: rest)
        = (c :: rest).takeWhile (! sep ·) :: words sep ((c :: rest).dropWhile (! sep ·)) := by
  conv => lhs; rw [← List.takeWhile_append_dropWhile (p := (! sep ·)) (l := c :: rest)]
  apply words_word_append _ (not_of_mem_takeWhile _) (separated_dropWhile _)
  simp [hc]

theorem words_eq_nil_iff {s : List α} : words sep s = [] ↔ ∀ c ∈ s, sep c := by
  constructor
  . intro h
    rw [← List.dropWhile_eq_nil_iff]
    rw [← words_dropWhile] at h
    cases hrest : s.dropWhile sep with
    | nil => rfl
    | cons c rest =>
      have hc : ¬ sep c := not_of_mem_head?_dropWhile (s := s) (by simp [hrest])
      rw [hrest, words_cons_of_not hc] at h
      contradiction
  . apply words_seps

theorem first_word {s t : List α} {ts : List (List α)} (h : words sep s = t :: ts)
    : ∃ x y, IsWordIn sep s x t y ∧ (∀ c ∈ x, sep c) ∧ words sep y = ts := by
  have hseps : ∀ c ∈ s.takeWhile sep, sep c := fun c hc => List.mem_takeWhile_imp hc
  have hsplit := List.takeWhile_append_dropWhile (p := sep) (l := s)
  rw [← words_dropWhile] at h
  cases hrest : s.dropWhile sep with
  | nil => simp [hrest] at h
  | cons c rest =>
    have hc : ¬ sep c := not_of_mem_head?_dropWhile (s := s) (by simp [hrest])
    rw [hrest, words_cons_of_not hc] at h
    obtain ⟨rfl, rfl⟩ := List.cons.inj h
    refine ⟨s.takeWhile sep, _, ⟨?_, ?_, separated_dropWhile _, ?_, not_of_mem_takeWhile _⟩, hseps,
      rfl⟩
    . rw [List.append_assoc, List.takeWhile_append_dropWhile, ← hrest, hsplit]
    . intro d hd
      exact hseps d (List.mem_of_getLast? hd)
    . simp [hc]

theorem word_at_head {s t : List α} {ts : List (List α)} (hhead : ∀ c ∈ s.head?, ¬ sep c)
    (h : words sep s = t :: ts)
    : ∃ y, IsWordIn sep s [] t y ∧ words sep y = ts := by
  obtain ⟨x, y, hword, hx, hy⟩ := first_word h
  have hnil : x = [] := by
    by_contra hne
    obtain ⟨c, x', rfl⟩ := List.exists_cons_of_ne_nil hne
    apply hhead c
    . simp [hword.split]
    . exact hx c (by simp)
  subst hnil
  exact ⟨y, hword, hy⟩

end FirstWord

theorem word_of_words {s t : List α} {before after : List (List α)}
    (h : words sep s = before ++ t :: after)
    : ∃ x y, IsWordIn sep s x t y ∧ words sep x = before ∧ words sep y = after := by
  induction before generalizing s with
  | nil =>
    obtain ⟨x, y, hword, hx, hy⟩ := first_word h
    exact ⟨x, y, hword, words_seps hx, hy⟩
  | cons a before ih =>
    obtain ⟨x, y, ha, hx, hy⟩ := first_word h
    obtain ⟨x', y', ht, hx', hy'⟩ := ih hy
    have hne : x' ≠ [] := by
      rintro rfl
      obtain ⟨c, t', rfl⟩ := List.exists_cons_of_ne_nil ht.nonempty
      have hc : sep c := ha.after c (by simp [ht.split])
      exact ht.word c (by simp) hc
    refine ⟨x ++ a ++ x', y', ⟨?_, ?_, ht.after, ht.nonempty, ht.word⟩, ?_, hy'⟩
    . simp only [ha.split, ht.split, List.append_assoc]
    . intro c hc
      apply ht.before
      rwa [List.getLast?_append_of_ne_nil _ hne] at hc
    . have hsep : Separated sep x' := by
        intro c hc
        apply ha.after
        obtain ⟨d, x'', rfl⟩ := List.exists_cons_of_ne_nil hne
        simpa [ht.split] using hc
      rw [List.append_assoc, words_seps_append hx, words_word_append ha.nonempty ha.word hsep, hx']

section SplitRuns

theorem filter_go {piece : List α} (hpiece : ∀ c ∈ piece, ¬ sep c) {inRun : Bool}
    (hrun : inRun → piece = []) (s : List α)
    : (splitRuns.go sep inRun piece s).filter (! ·.isEmpty) = words sep (piece ++ s) := by
  induction s generalizing piece inRun with
  | nil =>
    by_cases hne : piece = []
    . simp [splitRuns.go, hne]
    . simp [splitRuns.go, words_word hne hpiece, hne]
  | cons c s ih =>
    by_cases hc : sep c
    . have hrest : (splitRuns.go sep true [] s).filter (! ·.isEmpty) = words sep s := by
        apply ih
        . simp
        . simp
      cases inRun with
      | true =>
        obtain rfl := hrun rfl
        simp [splitRuns.go, hc, hrest, words_cons hc]
      | false =>
        rw [words_append_cons hc]
        by_cases hne : piece = []
        . simp [splitRuns.go, hc, hne, hrest]
        . simp [splitRuns.go, hc, hne, hrest, words_word hne hpiece]
    . have hpiece' : ∀ d ∈ piece ++ [c], ¬ sep d := by
        simpa [or_imp, forall_and, hc] using hpiece
      have hrest := @ih _ hpiece' false (by simp)
      rw [List.append_cons, ← hrest]
      simp [splitRuns.go, hc]

-- Where no run of separators is at an end, there is no empty piece
theorem nil_not_mem_go {piece s : List α} {inRun : Bool} (hnil : s = [] → piece ≠ [])
    (hhead : inRun = false → piece = [] → ∀ c ∈ s.head?, ¬ sep c) (hlast : ∀ c ∈ s.getLast?, ¬ sep c)
    : [] ∉ splitRuns.go sep inRun piece s := by
  induction s generalizing piece inRun with
  | nil => simpa [splitRuns.go, eq_comm] using hnil
  | cons c s ih =>
    have hlast' : ∀ d ∈ s.getLast?, ¬ sep d := by
      intro d hd
      apply hlast
      rw [List.getLast?_cons, Option.mem_def.mp hd]
      rfl
    by_cases hc : sep c
    . have hne : s ≠ [] := by
        rintro rfl
        exact hlast c rfl hc
      have hrest : ∀ piece, [] ∉ splitRuns.go sep true piece s := by
        intro piece
        apply ih _ _ hlast'
        . simp [hne]
        . simp
      cases inRun with
      | true => simp [splitRuns.go, hc, hrest]
      | false =>
        have hpiece : piece ≠ [] := fun h => hhead rfl h c rfl hc
        simp [splitRuns.go, hc, hrest, hpiece.symm]
    . simp only [splitRuns.go, hc]
      apply ih _ _ hlast'
      . simp
      . simp

theorem go_ne_nil (inRun : Bool) (piece s : List α) : splitRuns.go sep inRun piece s ≠ [] := by
  induction s generalizing inRun piece with
  | nil => simp [splitRuns.go]
  | cons c s ih =>
    by_cases hc : sep c
    . cases inRun with
      | false => simp [splitRuns.go, hc]
      | true => simpa [splitRuns.go, hc] using ih true piece
    . simpa [splitRuns.go, hc] using ih false (piece ++ [c])

theorem splitRuns_ne_nil (s : List α) : splitRuns sep s ≠ [] := go_ne_nil false [] s

theorem strip_dropWhile (s : List α) : strip sep (s.dropWhile sep) = strip sep s := by
  rw [strip, strip, List.dropWhile_idempotent]

theorem not_of_mem_head?_strip {s : List α} {c : α} (h : c ∈ (strip sep s).head?) : ¬ sep c := by
  obtain ⟨rest, hrest⟩ := List.rdropWhile_prefix sep (l := s.dropWhile sep)
  have hdrop : c ∈ (s.dropWhile sep).head? := by
    rw [← hrest]
    apply List.mem_head?_append_of_mem_head? h
  exact not_of_mem_head?_dropWhile hdrop

theorem not_of_mem_getLast?_strip {s : List α} {c : α} (h : c ∈ (strip sep s).getLast?) : ¬ sep c := by
  have hne : strip sep s ≠ [] := by
    intro hnil
    simp [hnil] at h
  rw [List.getLast?_eq_some_getLast hne, Option.mem_some_iff] at h
  rw [← h]
  exact List.rdropWhile_last_not sep (s.dropWhile sep) hne

theorem splitRuns_strip {s : List α} (h : words sep s ≠ [])
    : splitRuns sep (strip sep s) = words sep s := by
  have hne : strip sep s ≠ [] := by
    intro hnil
    rw [← words_strip, hnil, words_nil] at h
    contradiction
  have hfilter : (splitRuns sep (strip sep s)).filter (! ·.isEmpty) = words sep s := by
    rw [splitRuns, filter_go (by simp) (by simp), List.nil_append, words_strip]
  have hnil : [] ∉ splitRuns sep (strip sep s) := by
    apply nil_not_mem_go
    . simp [hne]
    . intro _ _ c
      apply not_of_mem_head?_strip
    . intro c
      apply not_of_mem_getLast?_strip
  rw [← hfilter, List.filter_eq_self.mpr]
  intro piece hpiece
  have hpiece' : piece ≠ [] := by
    rintro rfl
    exact hnil hpiece
  simpa using hpiece'

end SplitRuns

end Fields
