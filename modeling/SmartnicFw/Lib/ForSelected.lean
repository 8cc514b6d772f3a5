import SmartnicFw.Lib.UpdateEach

/-!
This module contains the loop of a request over what it selects by two ids, of which each selects all when
it is negative: the answers, and what becomes of each part.
-/

namespace ForSelected

variable {P R : Type}

def selected (id : Int) (n : Nat) : List Nat := if id > -1 then [id.toNat] else List.range n

def Selects (id : Int) (i : Nat) : Prop := id < 0 ∨ id = i

instance (id : Int) (i : Nat) : Decidable (Selects id i) := inferInstanceAs (Decidable (_ ∨ _))

-- An id that is too large is answered as such
def forSelected (id : Int) (invalid : R) (f : Nat → P → R × P) (ps : List P) : List R × List P :=
  if id > (ps.length : Int) - 1 then
    ([invalid], ps)
  else
    updateEach f (selected id ps.length) ps

def forSelectedIn (outerId id : Int) (invalidOuter : R) (invalid : Nat → R)
    (f : Nat → Nat → P → R × P) (pss : List (List P))
    : List R × List (List P) :=
  if outerId > (pss.length : Int) - 1 then
    ([invalidOuter], pss)
  else
    let (answers, pss) := updateEach (fun d ps => forSelected id (invalid d) (f d) ps)
      (selected outerId pss.length) pss
    (answers.flatten, pss)

def partAt (pss : List (List P)) (d p : Nat) : Option P := do
  let ps ← pss[d]?
  ps[p]?

section Selected

variable {id : Int} {n i : Nat}

theorem nodup_selected (id : Int) (n : Nat) : (selected id n).Nodup := by
  unfold selected
  split
  . exact List.nodup_singleton _
  . exact List.nodup_range

-- When the id is not too large, the positions are those that it selects
theorem mem_selected_iff (h : ¬ id > (n : Int) - 1) : i ∈ selected id n ↔ i < n ∧ Selects id i := by
  unfold selected Selects
  split
  . rw [List.mem_singleton]
    omega
  . rw [List.mem_range]
    omega

theorem not_selects (h : id > (n : Int) - 1) (hi : i < n) : ¬ Selects id i := by
  unfold Selects
  omega

end Selected

section Single

variable (id : Int) (invalid : R) (f : Nat → P → R × P) (ps : List P)

theorem forSelected_getElem? (p : Nat)
    : (forSelected id invalid f ps).2[p]? =
        if Selects id p then ps[p]?.map fun x => (f p x).2 else ps[p]? := by
  unfold forSelected
  split
  . next hgt =>
    by_cases hlt : p < ps.length
    . rw [if_neg (not_selects hgt hlt)]
    . simp [List.getElem?_eq_none (Nat.le_of_not_lt hlt)]
  . next hle =>
    rw [updateEach_getElem? (nodup_selected _ _)]
    by_cases hlt : p < ps.length
    . simp only [mem_selected_iff hle, hlt, true_and]
    . simp [List.getElem?_eq_none (Nat.le_of_not_lt hlt)]

theorem length_forSelected : (forSelected id invalid f ps).2.length = ps.length := by
  unfold forSelected
  split
  . rfl
  . exact updateEach_length _ _

theorem mem_forSelected_iff (r : R)
    : r ∈ (forSelected id invalid f ps).1 ↔
        (id > (ps.length : Int) - 1 ∧ r = invalid) ∨
          ∃ p x, ps[p]? = some x ∧ Selects id p ∧ r = (f p x).1 := by
  unfold forSelected
  split
  . next hgt =>
    rw [List.mem_singleton]
    constructor
    . exact fun h => .inl ⟨hgt, h⟩
    . rintro (⟨_, rfl⟩ | ⟨p, x, hget, hsel, _⟩)
      . rfl
      . obtain ⟨hlt, _⟩ := List.getElem?_eq_some_iff.mp hget
        exact absurd hsel (not_selects hgt hlt)
  . next hle =>
    rw [updateEach_fst (nodup_selected _ _), List.mem_filterMap]
    constructor
    . rintro ⟨p, hmem, hr⟩
      obtain ⟨x, hget, rfl⟩ := Option.map_eq_some_iff.mp hr
      exact .inr ⟨p, x, hget, ((mem_selected_iff hle).mp hmem).2, rfl⟩
    . rintro (⟨hgt, _⟩ | ⟨p, x, hget, hsel, rfl⟩)
      . exact absurd hgt hle
      . obtain ⟨hlt, _⟩ := List.getElem?_eq_some_iff.mp hget
        exact ⟨p, (mem_selected_iff hle).mpr ⟨hlt, hsel⟩, by rw [hget]; rfl⟩

-- An id that is not negative is answered for once
theorem fst_forSelected_of_getElem? {p : Nat} {x : P} (h : ps[p]? = some x)
    : (forSelected p invalid f ps).1 = [(f p x).1] := by
  obtain ⟨hlt, _⟩ := List.getElem?_eq_some_iff.mp h
  unfold forSelected selected
  rw [if_neg (by omega), if_pos (by omega), Int.toNat_natCast]
  unfold updateEach
  rw [h]
  rfl

end Single

section Double

variable (outerId id : Int) (invalidOuter : R) (invalid : Nat → R) (f : Nat → Nat → P → R × P)
variable (pss : List (List P))

-- A part that both ids select is updated, and every other one stays
theorem partAt_forSelectedIn (d p : Nat)
    : partAt (forSelectedIn outerId id invalidOuter invalid f pss).2 d p =
        (partAt pss d p).map fun x => if Selects outerId d ∧ Selects id p then (f d p x).2 else x := by
  have houter : (forSelectedIn outerId id invalidOuter invalid f pss).2[d]? =
      if Selects outerId d then pss[d]?.map fun ps => (forSelected id (invalid d) (f d) ps).2
      else pss[d]? := by
    rw [← forSelected_getElem? outerId [invalidOuter] (fun d ps => forSelected id (invalid d) (f d) ps)]
    unfold forSelectedIn forSelected
    split <;> rfl
  unfold partAt
  rw [houter]
  cases pss[d]? with
  | none => simp
  | some ps =>
    by_cases hd : Selects outerId d
    . simp only [hd, if_true, Option.map_some, Option.bind_eq_bind, Option.bind_some, true_and,
        forSelected_getElem?]
      split <;> simp
    . simp [hd]

theorem mem_forSelectedIn_iff (r : R)
    : r ∈ (forSelectedIn outerId id invalidOuter invalid f pss).1 ↔
        (outerId > (pss.length : Int) - 1 ∧ r = invalidOuter) ∨
          (∃ d ps, pss[d]? = some ps ∧ Selects outerId d ∧ id > (ps.length : Int) - 1 ∧ r = invalid d) ∨
          ∃ d p x, partAt pss d p = some x ∧ Selects outerId d ∧ Selects id p ∧ r = (f d p x).1 := by
  have houter : (forSelectedIn outerId id invalidOuter invalid f pss).1 =
      (forSelected outerId [invalidOuter] (fun d ps => forSelected id (invalid d) (f d) ps) pss).1.flatten := by
    unfold forSelectedIn
    conv_rhs => unfold forSelected
    split <;> rfl
  rw [houter, List.mem_flatten]
  constructor
  . rintro ⟨rs, hrs, hr⟩
    rcases (mem_forSelected_iff _ _ _ _ rs).mp hrs with ⟨hgt, rfl⟩ | ⟨d, ps, hget, hsel, rfl⟩
    . exact .inl ⟨hgt, List.mem_singleton.mp hr⟩
    . rcases (mem_forSelected_iff _ _ _ _ r).mp hr with ⟨hgt, rfl⟩ | ⟨p, x, hpart, hsel', rfl⟩
      . exact .inr (.inl ⟨d, ps, hget, hsel, hgt, rfl⟩)
      . exact .inr (.inr ⟨d, p, x, by unfold partAt; rw [hget]; exact hpart, hsel, hsel', rfl⟩)
  . rintro (⟨hgt, rfl⟩ | ⟨d, ps, hget, hsel, hgt, rfl⟩ | ⟨d, p, x, hpart, hsel, hsel', rfl⟩)
    . exact ⟨_, (mem_forSelected_iff _ _ _ _ _).mpr (.inl ⟨hgt, rfl⟩), List.mem_singleton_self _⟩
    . exact ⟨_, (mem_forSelected_iff _ _ _ _ _).mpr (.inr ⟨d, ps, hget, hsel, rfl⟩),
        (mem_forSelected_iff _ _ _ _ _).mpr (.inl ⟨hgt, rfl⟩)⟩
    . obtain ⟨ps, hget, hpart⟩ := Option.bind_eq_some_iff.mp hpart
      exact ⟨_, (mem_forSelected_iff _ _ _ _ _).mpr (.inr ⟨d, ps, hget, hsel, rfl⟩),
        (mem_forSelected_iff _ _ _ _ _).mpr (.inr ⟨p, x, hpart, hsel', rfl⟩)⟩

theorem fst_forSelectedIn_of_partAt {d p : Nat} {x : P} (h : partAt pss d p = some x)
    : (forSelectedIn d p invalidOuter invalid f pss).1 = [(f d p x).1] := by
  obtain ⟨ps, hps, hx⟩ := Option.bind_eq_some_iff.mp h
  obtain ⟨hlt, _⟩ := List.getElem?_eq_some_iff.mp hps
  unfold forSelectedIn selected
  rw [if_neg (by omega), if_pos (by omega), Int.toNat_natCast]
  unfold updateEach
  rw [hps]
  dsimp only [updateEach]
  rw [fst_forSelected_of_getElem? _ _ _ hx]
  rfl

end Double

end ForSelected
