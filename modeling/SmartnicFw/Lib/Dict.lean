import Mathlib

/-!
This module contains dictionaries that keep their keys in the order in which they were first assigned.
-/

structure Dict (κ ν : Type) where
  entries : List (κ × ν)
  nodup : (entries.map Prod.fst).Nodup

namespace Dict

variable {κ ν α : Type} [DecidableEq κ]

def keys (d : Dict κ ν) : List κ := d.entries.map Prod.fst

def get? (d : Dict κ ν) (k : κ) : Option ν := d.entries.lookup k

def empty : Dict κ ν where
  entries := []
  nodup := List.nodup_nil

-- A key that is there already keeps its place
def insert (d : Dict κ ν) (k : κ) (v : ν) : Dict κ ν :=
  if h : k ∈ d.keys then
    { entries := d.entries.map fun p => if p.1 = k then (k, v) else p
      nodup := by
        have hmap : (d.entries.map fun p => if p.1 = k then (k, v) else p).map Prod.fst = d.keys := by
          unfold keys
          rw [List.map_map]
          apply List.map_congr_left
          intro p _
          simp only [Function.comp_apply]
          split
          . next heq => exact heq.symm
          . rfl
        rw [hmap]
        exact d.nodup }
  else
    { entries := d.entries ++ [(k, v)]
      nodup := by
        rw [List.map_append, List.nodup_append]
        refine ⟨d.nodup, List.nodup_singleton _, ?_⟩
        intro k' hk' k'' hk'' heq
        rw [List.map_singleton, List.mem_singleton] at hk''
        apply h
        have heq' : k = k' := hk''.symm.trans heq.symm
        rw [heq']
        exact hk' }

def insertAll (d : Dict κ ν) (ps : List (κ × ν)) : Dict κ ν := ps.foldl (fun d p => d.insert p.1 p.2) d

-- A value that is made when it is not there, and then changed in its place
def update (d : Dict κ ν) (k : κ) (init : ν) (f : ν → ν) : Dict κ ν :=
  d.insert k (f ((d.get? k).getD init))

def erase (d : Dict κ ν) (k : κ) : Dict κ ν where
  entries := d.entries.filter fun p => p.1 ≠ k
  nodup := d.nodup.sublist (List.filter_sublist.map Prod.fst)

-- Each key with the items that have it, in their order
def group (key : α → κ) (as : List α) : Dict κ (List α) :=
  as.foldl (fun d a => d.insert (key a) ((d.get? (key a)).getD [] ++ [a])) empty

theorem get?_eq_none_iff {d : Dict κ ν} {k : κ} : d.get? k = none ↔ k ∉ d.keys := by
  unfold get? keys
  rw [List.lookup_eq_none_iff]
  simp only [bne_iff_ne, List.mem_map, not_exists, not_and, ne_eq]
  constructor
  . intro h p hp heq
    exact h p hp heq.symm
  . intro h p hp heq
    exact h p hp heq.symm

theorem isSome_get?_iff {d : Dict κ ν} {k : κ} : (d.get? k).isSome ↔ k ∈ d.keys := by
  rw [← not_iff_not, ← get?_eq_none_iff, Option.not_isSome_iff_eq_none]

theorem keys_insert (d : Dict κ ν) (k : κ) (v : ν)
    : (d.insert k v).keys = if k ∈ d.keys then d.keys else d.keys ++ [k] := by
  unfold insert
  split
  . unfold keys
    dsimp only
    rw [List.map_map]
    apply List.map_congr_left
    intro p _
    simp only [Function.comp_apply]
    split
    . next heq => exact heq.symm
    . rfl
  . simp [keys]

theorem mem_keys_insert {d : Dict κ ν} {k k' : κ} {v : ν}
    : k' ∈ (d.insert k v).keys ↔ k' ∈ d.keys ∨ k' = k := by
  rw [keys_insert]
  split
  . next hk =>
    constructor
    . exact .inl
    . rintro (h | rfl)
      . exact h
      . exact hk
  . simp

theorem lookup_map_replace (ps : List (κ × ν)) (k : κ) (v : ν) (k' : κ)
    : (ps.map fun p => if p.1 = k then (k, v) else p).lookup k' =
        if k' = k ∧ k ∈ ps.map Prod.fst then some v else ps.lookup k' := by
  induction ps with
  | nil => simp
  | cons p ps ih =>
    rw [List.map_cons, List.map_cons, List.lookup_cons, List.lookup_cons, ih]
    by_cases hp : p.1 = k
    . by_cases hk' : k' = k
      . simp [hp, hk']
      . have hbeq : (k' == k) = false := beq_eq_false_iff_ne.mpr hk'
        simp [hp, hk', hbeq]
    . by_cases hk' : k' = p.1
      . simp [hp, hk']
      . have hne : ¬ k = p.1 := fun h => hp h.symm
        have hbeq : (k' == p.1) = false := beq_eq_false_iff_ne.mpr hk'
        simp only [hp, hbeq, hne, List.mem_cons, false_or, ↓reduceIte]

theorem mem_entries_insert {d : Dict κ ν} {k : κ} {v : ν} {p : κ × ν}
    (h : p ∈ (d.insert k v).entries)
    : p ∈ d.entries ∨ p = (k, v) := by
  unfold insert at h
  split at h
  . obtain ⟨q, hq, rfl⟩ := List.mem_map.mp h
    split
    . exact .inr rfl
    . exact .inl hq
  . rw [List.mem_append, List.mem_singleton] at h
    exact h

theorem get?_insert (d : Dict κ ν) (k : κ) (v : ν) (k' : κ)
    : (d.insert k v).get? k' = if k' = k then some v else d.get? k' := by
  unfold insert get?
  split
  . next hmem =>
    dsimp only
    rw [lookup_map_replace]
    have hmem' : k ∈ d.entries.map Prod.fst := hmem
    simp [hmem']
  . next hmem =>
    dsimp only
    rw [List.lookup_append]
    split
    . next heq =>
      have hnone : d.entries.lookup k' = none := by
        rw [heq]
        exact get?_eq_none_iff.mpr hmem
      rw [hnone]
      simp [heq]
    . next hne =>
      have hbeq : (k' == k) = false := beq_eq_false_iff_ne.mpr hne
      simp [List.lookup_cons, hbeq]

theorem get?_update (d : Dict κ ν) (k : κ) (init : ν) (f : ν → ν) (k' : κ)
    : (d.update k init f).get? k' = if k' = k then some (f ((d.get? k).getD init)) else d.get? k' := by
  exact get?_insert ..

theorem mem_keys_update {d : Dict κ ν} {k k' : κ} {init : ν} {f : ν → ν}
    : k' ∈ (d.update k init f).keys ↔ k' ∈ d.keys ∨ k' = k := by
  exact mem_keys_insert

theorem get?_erase_of_ne (d : Dict κ ν) {k k' : κ} (h : k' ≠ k)
    : (d.erase k).get? k' = d.get? k' := by
  unfold erase get?
  dsimp only
  generalize d.entries = ps
  induction ps with
  | nil => rfl
  | cons p ps ih =>
    rw [List.filter_cons]
    by_cases hp : p.1 = k
    . have hne : (k' == p.1) = false := by
        rw [hp]
        exact beq_eq_false_iff_ne.mpr h
      rw [List.lookup_cons, hne]
      simpa [hp] using ih
    . rw [if_pos (decide_eq_true hp), List.lookup_cons, List.lookup_cons, ih]

theorem get?_erase_self (d : Dict κ ν) (k : κ) : (d.erase k).get? k = none := by
  rw [get?_eq_none_iff]
  unfold keys erase
  simp

-- Erasing undoes the insertion of a new key
theorem erase_insert {d : Dict κ ν} {k : κ} (h : k ∉ d.keys) (v : ν) : (d.insert k v).erase k = d := by
  have hall : d.entries.filter (fun p => p.1 ≠ k) = d.entries := by
    rw [List.filter_eq_self]
    intro p hp
    rw [decide_eq_true_eq]
    rintro rfl
    exact h (List.mem_map_of_mem hp)
  have hentries : ((d.insert k v).erase k).entries = d.entries := by
    unfold erase insert
    rw [dif_neg h]
    dsimp only
    rw [List.filter_append, hall]
    simp
  cases hd : (d.insert k v).erase k
  cases d
  rw [hd] at hentries
  cases hentries
  rfl

theorem get?_empty (k : κ) : (empty : Dict κ ν).get? k = none := rfl

theorem get?_of_mem {d : Dict κ ν} {k : κ} {v : ν} (h : (k, v) ∈ d.entries)
    : d.get? k = some v := by
  have hnodup := d.nodup
  unfold get?
  revert h hnodup
  generalize d.entries = ps
  intro h hnodup
  induction ps with
  | nil => contradiction
  | cons p ps ih =>
    rw [List.map_cons, List.nodup_cons] at hnodup
    rw [List.lookup_cons]
    rcases List.mem_cons.mp h with heq | hmem
    . simp [← heq]
    . have hne : (k == p.1) = false := by
        rw [beq_eq_false_iff_ne]
        intro heq
        apply hnodup.1
        rw [← heq]
        exact List.mem_map_of_mem (f := Prod.fst) hmem
      rw [hne]
      exact ih hmem hnodup.2

-- What the last of several assignments gives to a key
def lastOf (ps : List (κ × ν)) (k : κ) : Option ν := ps.reverse.lookup k

theorem lastOf_append (ps qs : List (κ × ν)) (k : κ)
    : lastOf (ps ++ qs) k = (lastOf qs k).or (lastOf ps k) := by
  unfold lastOf
  rw [List.reverse_append, List.lookup_append]

theorem lastOf_singleton (k : κ) (v : ν) : lastOf [(k, v)] k = some v := by
  simp [lastOf]

theorem lookup_of_const {ps : List (κ × ν)} {k : κ} {v : ν} (h : ∀ p ∈ ps, p.1 = k → p.2 = v)
    : ps.lookup k = if k ∈ ps.map Prod.fst then some v else none := by
  induction ps with
  | nil => rfl
  | cons p ps ih =>
    have hrest := ih fun p' hp' => h p' (List.mem_cons_of_mem _ hp')
    rw [List.lookup_cons, hrest]
    by_cases hk : k = p.1
    . have hv := h p List.mem_cons_self hk.symm
      simp [hk, hv]
    . have hbeq : (k == p.1) = false := beq_eq_false_iff_ne.mpr hk
      simp only [hbeq, hk, List.map_cons, List.mem_cons, false_or]

theorem lastOf_of_const {ps : List (κ × ν)} {k : κ} {v : ν} (h : ∀ p ∈ ps, p.1 = k → p.2 = v)
    : lastOf ps k = if k ∈ ps.map Prod.fst then some v else none := by
  unfold lastOf
  rw [lookup_of_const fun p hp => h p (List.mem_reverse.mp hp)]
  simp only [List.map_reverse, List.mem_reverse]

theorem get?_insertAll (d : Dict κ ν) (ps : List (κ × ν)) (k : κ)
    : (d.insertAll ps).get? k = (lastOf ps k).or (d.get? k) := by
  induction ps generalizing d with
  | nil => rfl
  | cons p ps ih =>
    unfold insertAll at ih ⊢
    rw [List.foldl_cons, ih, get?_insert]
    have hcons : lastOf (p :: ps) k = (lastOf ps k).or (lastOf [p] k) := lastOf_append [p] ps k
    rw [hcons]
    cases lastOf ps k with
    | some v => rfl
    | none =>
      split
      . next heq =>
        rw [heq, lastOf_singleton p.1 p.2]
        rfl
      . next hne =>
        have hbeq : (k == p.1) = false := beq_eq_false_iff_ne.mpr hne
        have hnone : lastOf [p] k = none := by
          show List.lookup k [p] = none
          rw [List.lookup_cons, hbeq]
          rfl
        rw [hnone]
        rfl

-- Where a key stands first
def place (ks : List κ) (k : κ) : Nat := ks.idxOf k

theorem place_lt_iff_of_nodup {before after : List κ} {a b : κ}
    (h : (before ++ a :: after).Nodup) (hb : b ∈ before ++ a :: after)
    : place (before ++ a :: after) a < place (before ++ a :: after) b ↔ b ∈ after := by
  obtain ⟨_, hcons, hdisjoint⟩ := List.nodup_append.mp h
  have ha : a ∉ before := fun hmem => hdisjoint a hmem a List.mem_cons_self rfl
  have hplace : place (before ++ a :: after) a = before.length := by
    unfold place
    rw [List.idxOf_append_of_notMem ha]
    simp
  rw [hplace]
  unfold place
  rcases List.mem_append.mp hb with hbefore | hrest
  . rw [List.idxOf_append_of_mem hbefore]
    have hlt := List.idxOf_lt_length_of_mem hbefore
    constructor
    . intro hgt
      omega
    . intro hafter
      exact absurd rfl (hdisjoint b hbefore b (List.mem_cons_of_mem _ hafter))
  . have hnot : b ∉ before := fun hmem => hdisjoint b hmem b hrest rfl
    rw [List.idxOf_append_of_notMem hnot]
    rcases List.mem_cons.mp hrest with heq | hafter
    . subst heq
      have hnot' : b ∉ after := (List.nodup_cons.mp hcons).1
      simp [hnot']
    . have hne : a ≠ b := by
        intro heq
        subst heq
        exact (List.nodup_cons.mp hcons).1 hafter
      simp [hafter, hne]

section Group

variable (key : α → κ)

theorem group_concat (as : List α) (a : α)
    : group key (as ++ [a]) =
        (group key as).insert (key a) (((group key as).get? (key a)).getD [] ++ [a]) := by
  simp [group]

theorem getD_get?_group (as : List α) (k : κ)
    : ((group key as).get? k).getD [] = as.filter (key · = k) := by
  induction as using List.reverseRecOn with
  | nil => rfl
  | append_singleton as a ih =>
    rw [group_concat, get?_insert, List.filter_append]
    by_cases hk : k = key a
    . rw [if_pos hk, ← hk, ih]
      simp [hk]
    . have hne : ¬ key a = k := fun h => hk h.symm
      rw [if_neg hk, ih]
      simp [hne]

theorem mem_keys_group {as : List α} {k : κ} : k ∈ (group key as).keys ↔ k ∈ as.map key := by
  induction as using List.reverseRecOn with
  | nil => simp [group, empty, keys]
  | append_singleton as a ih =>
    rw [group_concat, mem_keys_insert, ih, List.map_append, List.mem_append, List.map_singleton,
      List.mem_singleton]

theorem mem_entries_group {as : List α} {k : κ} {l : List α} (h : (k, l) ∈ (group key as).entries)
    : l = as.filter (key · = k) := by
  rw [← getD_get?_group, get?_of_mem h]
  rfl

-- The keys are ordered as their first uses are
theorem place_keys_group_lt_iff {as : List α} {k k' : κ} (hk : k ∈ as.map key)
    (hk' : k' ∈ as.map key)
    : place (group key as).keys k < place (group key as).keys k' ↔
        place (as.map key) k < place (as.map key) k' := by
  unfold place
  induction as using List.reverseRecOn with
  | nil => contradiction
  | append_singleton as a ih =>
    rw [group_concat, keys_insert, List.map_append, List.map_singleton]
    rw [List.map_append, List.map_singleton, List.mem_append, List.mem_singleton] at hk hk'
    by_cases hold : key a ∈ as.map key
    . have hmem : k ∈ as.map key := by
        rcases hk with h | rfl
        . exact h
        . exact hold
      have hmem' : k' ∈ as.map key := by
        rcases hk' with h | rfl
        . exact h
        . exact hold
      rw [if_pos ((mem_keys_group key).mpr hold), List.idxOf_append_of_mem hmem,
        List.idxOf_append_of_mem hmem']
      exact ih hmem hmem'
    . have hnew : key a ∉ (group key as).keys := fun h => hold ((mem_keys_group key).mp h)
      have hlast : ∀ {l : List κ}, key a ∉ l → (l ++ [key a]).idxOf (key a) = l.length := by
        intro l hl
        rw [List.idxOf_append_of_notMem hl]
        simp
      rw [if_neg hnew]
      rcases hk with hmem | rfl
      . have hkeys := (mem_keys_group key).mpr hmem
        rw [List.idxOf_append_of_mem hkeys, List.idxOf_append_of_mem hmem]
        rcases hk' with hmem' | rfl
        . have hkeys' := (mem_keys_group key).mpr hmem'
          rw [List.idxOf_append_of_mem hkeys', List.idxOf_append_of_mem hmem']
          exact ih hmem hmem'
        . rw [hlast hnew, hlast hold]
          simp only [List.idxOf_lt_length_iff, hkeys, hmem]
      . rw [hlast hnew, hlast hold]
        rcases hk' with hmem' | rfl
        . have hkeys' := (mem_keys_group key).mpr hmem'
          rw [List.idxOf_append_of_mem hkeys', List.idxOf_append_of_mem hmem']
          have h1 := List.idxOf_lt_length_of_mem hkeys'
          have h2 := List.idxOf_lt_length_of_mem hmem'
          omega
        . rw [hlast hnew, hlast hold]
          simp

end Group

theorem count_flatMap_aux [DecidableEq α] {ks : List κ} (hks : ks.Nodup) (f : κ → List α) (a : α)
    {k₁ k₂ : κ} (hne : k₁ ≠ k₂) (hother : ∀ k, k ≠ k₁ → k ≠ k₂ → a ∉ f k)
    : (ks.flatMap f).count a =
        (if k₁ ∈ ks then (f k₁).count a else 0) + if k₂ ∈ ks then (f k₂).count a else 0 := by
  induction ks with
  | nil => simp
  | cons k ks ih =>
    obtain ⟨hk, hnodup⟩ := List.nodup_cons.mp hks
    rw [List.flatMap_cons, List.count_append, ih hnodup]
    by_cases h₁ : k = k₁
    . subst h₁
      have h₂ : ¬ k₂ = k := fun h => hne h.symm
      simp [hk, h₂]
    . by_cases h₂ : k = k₂
      . subst h₂
        simp [hk, hne]
        omega
      . have h₁' : ¬ k₁ = k := fun h => h₁ h.symm
        have h₂' : ¬ k₂ = k := fun h => h₂ h.symm
        simp [h₁', h₂', List.count_eq_zero_of_not_mem (hother k h₁ h₂)]

-- The number of times that an item is shown under two keys, and under no other
theorem count_flatMap_two [DecidableEq α] {ks : List κ} (hks : ks.Nodup) (f : κ → List α) (a : α)
    {k₁ k₂ : κ} (hne : k₁ ≠ k₂) (hother : ∀ k, k ≠ k₁ → k ≠ k₂ → a ∉ f k)
    (habsent : ∀ k, k ∉ ks → a ∉ f k)
    : (ks.flatMap f).count a = (f k₁).count a + (f k₂).count a := by
  have hite : ∀ k, (if k ∈ ks then (f k).count a else 0) = (f k).count a := by
    intro k
    split
    . rfl
    . next hk => exact (List.count_eq_zero_of_not_mem (habsent k hk)).symm
  rw [count_flatMap_aux hks f a hne hother, hite, hite]

end Dict
