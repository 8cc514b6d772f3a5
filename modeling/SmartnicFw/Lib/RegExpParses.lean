import SmartnicFw.Lib.RegExp

/-!
This module contains what a regular expression reads, whatever the order in which the engine tries
it: a match that the engine finds is one of these, and it finds one whenever there is one.
-/

namespace RegExp

variable {α G β : Type}

/--
Read `s` up to `rest`, with the groups that are captured before and after.
-/
def Parses (r : RegExp α G) (caps : Captures α G) (s : List α) (caps' : Captures α G)
    (rest : List α) : Prop :=
  match r with
  | .eps => caps' = caps ∧ s = rest
  | .one p => caps' = caps ∧ ∃ c, p c ∧ s = c :: rest
  | .many p => caps' = caps ∧ ∃ u, (∀ c ∈ u, p c) ∧ s = u ++ rest
  | .seq r t => ∃ caps₁ s₁, r.Parses caps s caps₁ s₁ ∧ t.Parses caps₁ s₁ caps' rest
  | .alt r t => r.Parses caps s caps' rest ∨ t.Parses caps s caps' rest
  | .group g r => ∃ caps₁, r.Parses caps s caps₁ rest ∧ caps' = (g, consumed s rest) :: caps₁
  | .atEnd newline => caps' = caps ∧ s = rest ∧ (s = [] ∨ ∃ c, newline c ∧ s = [c])

@[simp]
theorem parses_concat_nil {caps caps' : Captures α G} {s rest : List α}
    : (concat [] : RegExp α G).Parses caps s caps' rest ↔ caps' = caps ∧ s = rest := by
  rfl

@[simp]
theorem parses_concat_cons {r : RegExp α G} {rs : List (RegExp α G)} {caps caps' : Captures α G}
    {s rest : List α}
    : (concat (r :: rs)).Parses caps s caps' rest ↔
        ∃ caps₁ s₁, r.Parses caps s caps₁ s₁ ∧ (concat rs).Parses caps₁ s₁ caps' rest := by
  rfl

theorem parses_plus_iff {p : α → Bool} {caps caps' : Captures α G} {s rest : List α}
    : (plus p).Parses caps s caps' rest ↔
        caps' = caps ∧ ∃ u, u ≠ [] ∧ (∀ c ∈ u, p c) ∧ s = u ++ rest := by
  constructor
  . rintro ⟨caps₁, s₁, ⟨rfl, c, hc, rfl⟩, rfl, u, hu, rfl⟩
    refine ⟨rfl, c :: u, List.cons_ne_nil c u, ?_, rfl⟩
    intro d hd
    rcases List.mem_cons.mp hd with rfl | hd
    . exact hc
    . exact hu d hd
  . rintro ⟨rfl, u, hne, hu, rfl⟩
    obtain ⟨c, u, rfl⟩ := List.exists_cons_of_ne_nil hne
    have hc := hu c List.mem_cons_self
    refine ⟨caps', u ++ rest, ⟨rfl, c, hc, rfl⟩, rfl, u, ?_, rfl⟩
    intro d hd
    exact hu d (List.mem_cons_of_mem _ hd)

theorem parses_lit_iff [DecidableEq α] {l : List α} {caps caps' : Captures α G} {s rest : List α}
    : (lit l).Parses caps s caps' rest ↔ caps' = caps ∧ s = l ++ rest := by
  induction l generalizing caps s with
  | nil => rfl
  | cons c l ih =>
    constructor
    . rintro ⟨caps₁, s₁, ⟨rfl, d, hd, rfl⟩, hrest⟩
      obtain ⟨rfl, rfl⟩ := ih.mp hrest
      obtain rfl : d = c := by simpa using hd
      exact ⟨rfl, rfl⟩
    . rintro ⟨rfl, rfl⟩
      exact ⟨caps', l ++ rest, ⟨rfl, c, by simp, rfl⟩, ih.mpr ⟨rfl, rfl⟩⟩

variable {p : α → Bool} {k : Continuation α G β} {caps caps' : Captures α G} {s rest : List α}
variable {x : β}

theorem exists_of_runMany {k : List α → Option β} (h : runMany p k s = some x)
    : ∃ u rest, (∀ c ∈ u, p c) ∧ s = u ++ rest ∧ k rest = some x := by
  obtain ⟨u, rest, hlongest, hk⟩ := exists_isLongest h
  exact ⟨u, rest, hlongest.all, hlongest.split, hk⟩

theorem isSome_runMany {k : List α → Option β} {u : List α} (hu : ∀ c ∈ u, p c)
    (hk : (k rest).isSome)
    : (runMany p k (u ++ rest)).isSome := by
  by_contra hnone
  rw [Bool.not_eq_true, Option.isSome_eq_false_iff, Option.isNone_iff_eq_none] at hnone
  have hrest := runMany_eq_none_iff.mp hnone u rest rfl hu
  rw [hrest] at hk
  contradiction

-- By induction on the expression, for every continuation
theorem exists_of_run {r : RegExp α G} (h : r.run k caps s = some x)
    : ∃ caps' rest, r.Parses caps s caps' rest ∧ k caps' rest = some x := by
  induction r generalizing k caps s with
  | eps => exact ⟨caps, s, ⟨rfl, rfl⟩, h⟩
  | one p =>
    cases s with
    | nil => contradiction
    | cons c s =>
      simp only [run] at h
      split at h
      . next hc => exact ⟨caps, s, ⟨rfl, c, hc, rfl⟩, h⟩
      . contradiction
  | many p =>
    obtain ⟨u, rest, hu, hs, hk⟩ := exists_of_runMany h
    exact ⟨caps, rest, ⟨rfl, u, hu, hs⟩, hk⟩
  | seq r t ihr iht =>
    obtain ⟨caps₁, s₁, hr, h⟩ := ihr h
    obtain ⟨caps', rest, ht, h⟩ := iht h
    exact ⟨caps', rest, ⟨caps₁, s₁, hr, ht⟩, h⟩
  | alt r t ihr iht =>
    rcases Option.or_eq_some_iff.mp h with h | ⟨_, h⟩
    . obtain ⟨caps', rest, hr, h⟩ := ihr h
      exact ⟨caps', rest, Or.inl hr, h⟩
    . obtain ⟨caps', rest, ht, h⟩ := iht h
      exact ⟨caps', rest, Or.inr ht, h⟩
  | group g r ih =>
    obtain ⟨caps₁, rest, hr, h⟩ := ih h
    exact ⟨_, rest, ⟨caps₁, hr, rfl⟩, h⟩
  | atEnd newline =>
    cases s with
    | nil => exact ⟨caps, [], ⟨rfl, rfl, Or.inl rfl⟩, h⟩
    | cons c s =>
      simp only [run] at h
      split at h
      . next hc =>
        obtain ⟨hc, rfl⟩ := hc
        exact ⟨caps, [c], ⟨rfl, rfl, Or.inr ⟨c, hc, rfl⟩⟩, h⟩
      . contradiction

theorem isSome_run {r : RegExp α G} (h : r.Parses caps s caps' rest) (hk : (k caps' rest).isSome)
    : (r.run k caps s).isSome := by
  induction r generalizing k caps s caps' rest with
  | eps =>
    obtain ⟨rfl, rfl⟩ := h
    exact hk
  | one p =>
    obtain ⟨rfl, c, hc, rfl⟩ := h
    simpa [run, hc] using hk
  | many p =>
    obtain ⟨rfl, u, hu, rfl⟩ := h
    exact isSome_runMany hu hk
  | seq r t ihr iht =>
    obtain ⟨caps₁, s₁, hr, ht⟩ := h
    exact ihr hr (iht ht hk)
  | alt r t ihr iht =>
    simp only [run, Option.isSome_or, Bool.or_eq_true]
    rcases h with h | h
    . exact Or.inl (ihr h hk)
    . exact Or.inr (iht h hk)
  | group g r ih =>
    obtain ⟨caps₁, hr, rfl⟩ := h
    exact ih hr hk
  | atEnd newline =>
    obtain ⟨rfl, rfl, rfl | ⟨c, hc, rfl⟩⟩ := h
    . exact hk
    . simpa [run, hc] using hk

theorem exists_of_groups {r : RegExp α G} (h : r.groups s = some caps)
    : ∃ rest, r.Parses [] s caps rest := by
  obtain ⟨caps', rest, hparses, heq⟩ := exists_of_run h
  cases heq
  exact ⟨rest, hparses⟩

theorem isSome_groups_iff {r : RegExp α G}
    : (r.groups s).isSome ↔ ∃ caps rest, r.Parses [] s caps rest := by
  constructor
  . intro h
    obtain ⟨caps, hcaps⟩ := Option.isSome_iff_exists.mp h
    obtain ⟨rest, hparses⟩ := exists_of_groups hcaps
    exact ⟨caps, rest, hparses⟩
  . rintro ⟨caps, rest, hparses⟩
    exact isSome_run hparses rfl

end RegExp
