import Mathlib

/-!
This module contains the loop that updates some of the items of a list and answers for each of them,
and the last value that a sequence of steps has given to a part of a state.
-/

theorem flatten_filterMap {α β : Type} (f : α → Option (List β)) (as : List α)
    : (as.filterMap f).flatten = as.flatMap fun a => (f a).getD [] := by
  induction as with
  | nil => rfl
  | cons a as ih =>
    rw [List.flatMap_cons, ← ih]
    cases h : f a with
    | none => rw [List.filterMap_cons_none h, Option.getD_none, List.nil_append]
    | some bs => rw [List.filterMap_cons_some h, List.flatten_cons, Option.getD_some]

section UpdateEach

variable {D R : Type}

def updateEach (f : Nat → D → R × D) (ids : List Nat) (ds : List D) : List R × List D :=
  match ids with
  | [] => ([], ds)
  | id :: ids =>
    match ds[id]? with
    | none => updateEach f ids ds
    | some d =>
      let (resp, d) := f id d
      let (resps, ds) := updateEach f ids (ds.set id d)
      (resp :: resps, ds)

variable {f : Nat → D → R × D}

theorem updateEach_getElem? {ids : List Nat} (hnodup : ids.Nodup) (ds : List D) (i : Nat)
    : (updateEach f ids ds).2[i]? =
        if i ∈ ids then ds[i]?.map fun d => (f i d).2 else ds[i]? := by
  induction ids generalizing ds with
  | nil => rfl
  | cons id ids ih =>
    obtain ⟨hnotin, hnodup⟩ := List.nodup_cons.mp hnodup
    unfold updateEach
    cases hid : ds[id]? with
    | none =>
      simp only
      rw [ih hnodup]
      by_cases hi : i = id
      . subst hi
        simp [hnotin, hid]
      . simp [hi]
    | some d =>
      simp only
      rw [ih hnodup]
      by_cases hi : i = id
      . subst hi
        obtain ⟨hlt, rfl⟩ := List.getElem?_eq_some_iff.mp hid
        simp [hnotin, hlt]
      . simp [hi, List.getElem?_set_ne (Ne.symm hi)]

theorem updateEach_length (ids : List Nat) (ds : List D)
    : (updateEach f ids ds).2.length = ds.length := by
  induction ids generalizing ds with
  | nil => rfl
  | cons id ids ih =>
    unfold updateEach
    split
    . apply ih
    . simp only
      rw [ih, List.length_set]

-- Every answer is computed from the item as it was before the loop
theorem updateEach_fst {ids : List Nat} (hnodup : ids.Nodup) (ds : List D)
    : (updateEach f ids ds).1 = ids.filterMap fun i => ds[i]?.map fun d => (f i d).1 := by
  induction ids generalizing ds with
  | nil => rfl
  | cons id ids ih =>
    obtain ⟨hnotin, hnodup⟩ := List.nodup_cons.mp hnodup
    unfold updateEach
    cases hid : ds[id]? with
    | none => simp [hid, ih hnodup]
    | some d =>
      simp only
      rw [ih hnodup]
      rw [List.filterMap_cons_some (by rw [hid]; rfl)]
      congr 1
      apply List.filterMap_congr
      intro i hi
      rw [List.getElem?_set_ne]
      rintro rfl
      contradiction

-- A loop over the items that is carried out on what they are seen as
theorem updateEach_map {D' R' : Type} {f' : Nat → D' → R' × D'} (g : D → D') (r : R → R')
    (h : ∀ i d, f' i (g d) = (r (f i d).1, g (f i d).2)) (ids : List Nat) (ds : List D)
    : updateEach f' ids (ds.map g) = ((updateEach f ids ds).1.map r, (updateEach f ids ds).2.map g) := by
  induction ids generalizing ds with
  | nil => rfl
  | cons id ids ih =>
    unfold updateEach
    rw [List.getElem?_map]
    cases ds[id]? with
    | none => exact ih ds
    | some d =>
      simp only [Option.map_some, h, ← List.map_set, ih, List.map_cons]

end UpdateEach

section LastSome

variable {S A V : Type}

def lastSome (f : A → Option V) (l : List A) : Option V := l.reverse.findSome? f

@[simp]
theorem lastSome_nil (f : A → Option V) : lastSome f [] = none := by
  rfl

theorem lastSome_concat (f : A → Option V) (l : List A) (a : A)
    : lastSome f (l ++ [a]) = (f a).or (lastSome f l) := by
  unfold lastSome
  rw [List.reverse_append, List.reverse_singleton, List.singleton_append, List.findSome?_cons]
  cases f a <;> rfl

theorem lastSome_append (f : A → Option V) (l l' : List A)
    : lastSome f (l ++ l') = (lastSome f l').or (lastSome f l) := by
  unfold lastSome
  rw [List.reverse_append, List.findSome?_append]

theorem lastSome_cons (f : A → Option V) (a : A) (l : List A)
    : lastSome f (a :: l) = (lastSome f l).or (f a) := by
  rw [← List.singleton_append, lastSome_append]
  congr 1
  unfold lastSome
  cases h : f a <;> simp [h]

theorem lastSome_eq_none_iff {f : A → Option V} {l : List A}
    : lastSome f l = none ↔ ∀ a ∈ l, f a = none := by
  unfold lastSome
  rw [List.findSome?_eq_none_iff]
  simp

theorem lastSome_filter {f : A → Option V} (p : A → Bool) {l : List A}
    (h : ∀ a ∈ l, p a = false → f a = none)
    : lastSome f (l.filter p) = lastSome f l := by
  induction l using List.reverseRecOn with
  | nil => rfl
  | append_singleton l a ih =>
    have hinit := ih fun a ha => h a (List.mem_append_left _ ha)
    rw [List.filter_append, lastSome_concat]
    cases hp : p a with
    | true => rw [List.filter_cons_of_pos hp, List.filter_nil, lastSome_concat, hinit]
    | false => simp [hp, h a (by simp) hp, hinit]

theorem lastSome_mem {f : A → Option V} {l : List A} {v : V} (h : lastSome f l = some v)
    : ∃ a ∈ l, f a = some v := by
  obtain ⟨a, hmem, ha⟩ := List.exists_of_findSome?_eq_some h
  exact ⟨a, List.mem_reverse.mp hmem, ha⟩

theorem lastSome_map {B : Type} (g : V → B) (f : A → Option V) (l : List A)
    : lastSome (fun a => (f a).map g) l = (lastSome f l).map g := by
  induction l using List.reverseRecOn with
  | nil => rfl
  | append_singleton l a ih =>
    rw [lastSome_concat, lastSome_concat, ih]
    cases f a <;> rfl

-- A part of the state that every step either sets or keeps has the last value that it was set to
theorem get_foldl_lastSome (step : S → A → S) (get : S → V) {f : A → Option V} {l : List A}
    (h : ∀ s, ∀ a ∈ l, get (step s a) = (f a).getD (get s)) (s : S)
    : get (l.foldl step s) = (lastSome f l).getD (get s) := by
  induction l using List.reverseRecOn with
  | nil => rfl
  | append_singleton l a ih =>
    have hinit : ∀ s, ∀ a ∈ l, get (step s a) = (f a).getD (get s) := by
      intro s a hmem
      exact h s a (List.mem_append_left _ hmem)
    rw [List.foldl_concat, h _ a (by simp), lastSome_concat, ih hinit]
    cases f a <;> rfl

-- The same for a part that a state has or has not
theorem get_foldl_map_lastSome (step : S → A → S) (get : S → Option V) {f : A → Option V} {l : List A}
    (h : ∀ s, ∀ a ∈ l, get (step s a) = (get s).map fun v => (f a).getD v) (s : S)
    : get (l.foldl step s) = (get s).map fun v => (lastSome f l).getD v := by
  induction l using List.reverseRecOn with
  | nil => simp
  | append_singleton l a ih =>
    have hinit : ∀ s, ∀ a ∈ l, get (step s a) = (get s).map fun v => (f a).getD v := by
      intro s a hmem
      exact h s a (List.mem_append_left _ hmem)
    rw [List.foldl_concat, h _ a (by simp), lastSome_concat, ih hinit, Option.map_map]
    cases f a <;> rfl

theorem get_foldl_of_keeps (step : S → A → S) (get : S → V) {l : List A}
    (h : ∀ s, ∀ a ∈ l, get (step s a) = get s) (s : S)
    : get (l.foldl step s) = get s := by
  induction l generalizing s with
  | nil => rfl
  | cons a l ih =>
    rw [List.foldl_cons, ih, h s a List.mem_cons_self]
    intro s b hmem
    exact h s b (List.mem_cons_of_mem _ hmem)

end LastSome
