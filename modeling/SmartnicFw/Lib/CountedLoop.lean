import Mathlib

/-!
This module contains loops whose counter has 32 bits while the bound of the loop can have more.
-/

namespace CountedLoop

variable {σ : Type}

-- The counter wraps around. There is no result where the body has none or the fuel is used up.
def loop (bound : Nat) (body : UInt32 → σ → Option σ) (fuel : Nat) (n : UInt32) (s : σ) : Option σ :=
  match fuel with
  | 0 => none
  | fuel + 1 =>
    if n.toNat < bound then do
      let s ← body n s
      loop bound body fuel (n + 1) s
    else
      some s

variable {bound : Nat} {body : UInt32 → σ → Option σ}

-- A counter that cannot reach its bound never ends the loop
theorem loop_eq_none (h : 2 ^ 32 ≤ bound) (fuel : Nat) (n : UInt32) (s : σ)
    : loop bound body fuel n s = none := by
  induction fuel generalizing n s with
  | zero => rfl
  | succ fuel ih =>
    have hn := n.toNat_lt
    rw [loop, if_pos (by omega)]
    cases body n s with
    | none => rfl
    | some s => apply ih

theorem toNat_add_one {n : UInt32} (h : n.toNat + 1 < 2 ^ 32) : (n + 1).toNat = n.toNat + 1 := by
  rw [UInt32.toNat_add]
  exact Nat.mod_eq_of_lt h

-- By induction on what is left of the loop, the invariant being indexed by the counter
theorem exists_loop_from (hbound : bound < 2 ^ 32) (inv : Nat → σ → Prop)
    (hstep : ∀ (n : UInt32) s, n.toNat < bound → inv n.toNat s →
      ∃ s', body n s = some s' ∧ inv (n.toNat + 1) s')
    (left : Nat) (n : UInt32) (hn : n.toNat + left = bound) (s : σ) (hinv : inv n.toNat s)
    {fuel : Nat} (hfuel : left < fuel)
    : ∃ s', loop bound body fuel n s = some s' ∧ inv bound s' := by
  induction left generalizing n s fuel with
  | zero =>
    obtain ⟨fuel, rfl⟩ := Nat.exists_eq_succ_of_ne_zero (Nat.ne_of_gt hfuel)
    refine ⟨s, ?_, ?_⟩
    . rw [loop, if_neg (by omega)]
    . rw [← hn, Nat.add_zero]
      exact hinv
  | succ left ih =>
    obtain ⟨fuel, rfl⟩ := Nat.exists_eq_succ_of_ne_zero (Nat.ne_of_gt (Nat.zero_lt_of_lt hfuel))
    obtain ⟨s', hbody, hinv'⟩ := hstep n s (by omega) hinv
    have hnext : (n + 1).toNat = n.toNat + 1 := toNat_add_one (by omega)
    rw [← hnext] at hinv'
    obtain ⟨out, hloop, hout⟩ := @ih (n + 1) (by omega) s' hinv' fuel (by omega)
    refine ⟨out, ?_, hout⟩
    rw [loop, if_pos (by omega), hbody]
    exact hloop

theorem exists_loop (hbound : bound < 2 ^ 32) (inv : Nat → σ → Prop) {s : σ} (hinv : inv 0 s)
    (hstep : ∀ (n : UInt32) s, n.toNat < bound → inv n.toNat s →
      ∃ s', body n s = some s' ∧ inv (n.toNat + 1) s')
    {fuel : Nat} (hfuel : bound < fuel)
    : ∃ s', loop bound body fuel 0 s = some s' ∧ inv bound s' :=
  exists_loop_from hbound inv hstep bound 0 (Nat.zero_add bound) s hinv hfuel

section Items

variable {α : Type} {as : List α}

-- A loop over a list, the invariant being indexed by the items that are done
theorem exists_loop_items (hbound : as.length < 2 ^ 32) (inv : List α → σ → Prop) {s : σ}
    (hinv : inv [] s)
    (hstep : ∀ (n : UInt32) a done s, as[n.toNat]? = some a → inv done s →
      ∃ s', body n s = some s' ∧ inv (done ++ [a]) s')
    {fuel : Nat} (hfuel : as.length < fuel)
    : ∃ s', loop as.length body fuel 0 s = some s' ∧ inv as s' := by
  obtain ⟨s', hloop, hinv'⟩ := exists_loop hbound (fun n s => inv (as.take n) s) hinv
    (fun n s hn h => by
      have ha := List.getElem?_eq_getElem hn
      rw [List.take_add_one, ha]
      exact hstep n as[n.toNat] _ s ha h) hfuel
  rw [List.take_length] at hinv'
  exact ⟨s', hloop, hinv'⟩

-- What a loop over a list has done when it ends
theorem inv_of_loop_items (inv : List α → σ → Prop) {s out : σ} (hinv : inv [] s)
    (hstep : ∀ (n : UInt32) a done s s', as[n.toNat]? = some a → inv done s → body n s = some s' →
      inv (done ++ [a]) s')
    {fuel : Nat} (h : loop as.length body fuel 0 s = some out)
    : as.length < 2 ^ 32 ∧ inv as out := by
  have hbound : as.length < 2 ^ 32 := by
    by_contra hle
    rw [loop_eq_none (Nat.le_of_not_lt hle)] at h
    cases h
  refine ⟨hbound, ?_⟩
  suffices ∀ (n : UInt32) s, n.toNat ≤ as.length → inv (as.take n.toNat) s →
      loop as.length body fuel n s = some out → inv as out from
    this 0 s (Nat.zero_le _) hinv h
  clear hinv h s
  intro n s hn hinv h
  induction fuel generalizing n s with
  | zero => cases h
  | succ fuel ih =>
    rw [loop] at h
    split at h
    . next hlt =>
      obtain ⟨s', hbody, h⟩ := Option.bind_eq_some_iff.mp h
      have hnext : (n + 1).toNat = n.toNat + 1 := toNat_add_one (by omega)
      have ha := List.getElem?_eq_getElem hlt
      apply ih (n + 1) s' (by omega) _ h
      rw [hnext, List.take_add_one, ha]
      exact hstep n as[n.toNat] _ s s' ha hinv hbody
    . next hge =>
      cases h
      rwa [List.take_of_length_le (by omega)] at hinv

end Items

-- Enough fuel is all that the fuel is about
theorem loop_unique {fuel fuel' : Nat} {n : UInt32} {s out out' : σ}
    (h : loop bound body fuel n s = some out) (h' : loop bound body fuel' n s = some out')
    : out = out' := by
  induction fuel generalizing fuel' n s with
  | zero => cases h
  | succ fuel ih =>
    cases fuel' with
    | zero => cases h'
    | succ fuel' =>
      rw [loop] at h h'
      split at h
      . rename_i hlt
        rw [if_pos hlt] at h'
        obtain ⟨s', hbody, h⟩ := Option.bind_eq_some_iff.mp h
        obtain ⟨s'', hbody', h'⟩ := Option.bind_eq_some_iff.mp h'
        rw [hbody] at hbody'
        cases hbody'
        exact ih h h'
      . rename_i hlt
        rw [if_neg hlt] at h'
        rw [← Option.some.inj h, ← Option.some.inj h']

-- Any step on the way that has no result leaves the loop without one
theorem loop_eq_none_of_body {n : UInt32} {s : σ} (hlt : n.toNat < bound) (h : body n s = none)
    (fuel : Nat)
    : loop bound body fuel n s = none := by
  cases fuel with
  | zero => rfl
  | succ fuel => rw [loop, if_pos hlt, h, Option.bind_eq_bind, Option.bind_none]

-- The same for a step that comes later, if what it needs to have no result is kept until then
theorem loop_eq_none_of_inv (inv : σ → Prop)
    (hstep : ∀ (n : UInt32) s s', n.toNat < bound → inv s → body n s = some s' → inv s')
    {k : UInt32} (hk : k.toNat < bound) (hnone : ∀ s, inv s → body k s = none)
    {n : UInt32} (hle : n.toNat ≤ k.toNat) {s : σ} (hinv : inv s) (fuel : Nat)
    : loop bound body fuel n s = none := by
  induction fuel generalizing n s with
  | zero => rfl
  | succ fuel ih =>
    rcases Nat.eq_or_lt_of_le hle with heq | hlt
    . rw [UInt32.toNat_inj.mp heq]
      exact loop_eq_none_of_body hk (hnone s hinv) (fuel + 1)
    . rw [loop, if_pos (by omega)]
      cases hbody : body n s with
      | none => rfl
      | some s' =>
        have hnext : (n + 1).toNat = n.toNat + 1 := by
          apply toNat_add_one
          have := k.toNat_lt
          omega
        exact ih (by omega) (hstep n s s' (by omega) hinv hbody)

section Fill

variable {α : Type} {as : List α} {body : UInt32 → List α → Option (List α)}

-- A loop that writes one item after the other
theorem exists_fill (hbound : bound < 2 ^ 32) (hlen : bound ≤ as.length) (g : Nat → α)
    (hbody : ∀ (n : UInt32) as', n.toNat < bound → as'.length = as.length →
      (∀ i, n.toNat ≤ i → as'[i]? = as[i]?) → body n as' = some (as'.set n.toNat (g n.toNat)))
    {fuel : Nat} (hfuel : bound < fuel)
    : ∃ as', loop bound body fuel 0 as = some as' ∧ as'.length = as.length ∧
        (∀ i < bound, as'[i]? = some (g i)) ∧ ∀ i, bound ≤ i → as'[i]? = as[i]? := by
  refine exists_loop hbound
    (fun n (as' : List α) => as'.length = as.length ∧ (∀ i < n, as'[i]? = some (g i)) ∧
      ∀ i, n ≤ i → as'[i]? = as[i]?) ⟨rfl, ?_, ?_⟩ ?_ hfuel
  . intro i hi
    omega
  . intro i _
    rfl
  . rintro n as' hn ⟨hlen', hdone, hrest⟩
    refine ⟨_, hbody n as' hn hlen' hrest, ?_, ?_, ?_⟩
    . rw [List.length_set, hlen']
    . intro i hi
      rcases Nat.lt_succ_iff_lt_or_eq.mp hi with hlt | rfl
      . rw [List.getElem?_set_ne (by omega)]
        exact hdone i hlt
      . exact List.getElem?_set_self (by omega)
    . intro i hi
      rw [List.getElem?_set_ne (by omega)]
      exact hrest i (by omega)

-- One that updates every item is a map
theorem loop_eq_mapIdx (hbound : as.length < 2 ^ 32) (f : Nat → α → α)
    (hbody : ∀ (n : UInt32) as' a, as'.length = as.length → as'[n.toNat]? = some a →
      as[n.toNat]? = some a → body n as' = some (as'.set n.toNat (f n.toNat a)))
    {fuel : Nat} (hfuel : as.length < fuel)
    : loop as.length body fuel 0 as = some (as.mapIdx f) := by
  obtain ⟨as', hloop, hinv⟩ := exists_loop hbound
    (fun n (as' : List α) => as'.length = as.length ∧
      (∀ i < n, as'[i]? = as[i]?.map (f i)) ∧ ∀ i, n ≤ i → as'[i]? = as[i]?)
    ⟨rfl, by omega, fun _ _ => rfl⟩
    (fun n as' hn ⟨hlen, hdone, hrest⟩ => by
      have ha := List.getElem?_eq_getElem hn
      refine ⟨_, hbody n as' _ hlen ((hrest _ (Nat.le_refl _)).trans ha) ha, ?_, ?_, ?_⟩
      . rw [List.length_set, hlen]
      . intro i hi
        rcases Nat.lt_succ_iff_lt_or_eq.mp hi with hlt | rfl
        . rw [List.getElem?_set_ne (by omega)]
          exact hdone i hlt
        . rw [List.getElem?_set_self (by omega), ha, Option.map_some]
      . intro i hi
        rw [List.getElem?_set_ne (by omega)]
        exact hrest i (by omega)) hfuel
  obtain ⟨hlen, hdone, -⟩ := hinv
  rw [hloop, Option.some.injEq]
  apply List.ext_getElem?
  intro i
  rw [List.getElem?_mapIdx]
  by_cases hi : i < as.length
  . exact hdone i hi
  . rw [List.getElem?_eq_none (by omega), List.getElem?_eq_none (by omega), Option.map_none]

end Fill

section All

-- A loop that ends at the first counter that does not have a property
def all (bound : Nat) (p : UInt32 → Option Bool) (fuel : Nat) (n : UInt32) : Option Bool :=
  match fuel with
  | 0 => none
  | fuel + 1 =>
    if n.toNat < bound then do
      if ← p n then
        all bound p fuel (n + 1)
      else
        some false
    else
      some true

variable {p : UInt32 → Option Bool}

theorem all_from_eq (hbound : bound < 2 ^ 32) {q : Nat → Bool}
    (hp : ∀ n : UInt32, n.toNat < bound → p n = some (q n.toNat))
    (left : Nat) (n : UInt32) (hn : n.toNat + left = bound) {fuel : Nat} (hfuel : left < fuel)
    : all bound p fuel n = some (decide (∀ i < bound, n.toNat ≤ i → q i = true)) := by
  induction left generalizing n fuel with
  | zero =>
    obtain ⟨fuel, rfl⟩ := Nat.exists_eq_succ_of_ne_zero (Nat.ne_of_gt hfuel)
    have htrue : ∀ i < bound, n.toNat ≤ i → q i = true := by
      intro i hi hle
      omega
    rw [all, if_neg (by omega), decide_eq_true htrue]
  | succ left ih =>
    obtain ⟨fuel, rfl⟩ := Nat.exists_eq_succ_of_ne_zero (Nat.ne_of_gt (Nat.zero_lt_of_lt hfuel))
    have hlt : n.toNat < bound := by omega
    have hnext : (n + 1).toNat = n.toNat + 1 := toNat_add_one (by omega)
    rw [all, if_pos hlt, hp n hlt, Option.bind_eq_bind, Option.bind_some]
    cases hq : q n.toNat with
    | false =>
      have hfalse : ¬ ∀ i < bound, n.toNat ≤ i → q i = true := by
        intro h
        have := h n.toNat hlt (Nat.le_refl _)
        rw [hq] at this
        cases this
      rw [if_neg (by decide), decide_eq_false hfalse]
    | true =>
      rw [if_pos rfl, @ih (n + 1) (by omega) fuel (by omega), hnext, Option.some.injEq,
        decide_eq_decide]
      constructor
      . intro h i hi hle
        rcases Nat.eq_or_lt_of_le hle with rfl | hlt
        . exact hq
        . exact h i hi hlt
      . intro h i hi hle
        exact h i hi (by omega)

theorem all_eq (hbound : bound < 2 ^ 32) {q : Nat → Bool}
    (hp : ∀ n : UInt32, n.toNat < bound → p n = some (q n.toNat))
    {fuel : Nat} (hfuel : bound < fuel)
    : all bound p fuel 0 = some (decide (∀ i < bound, q i = true)) := by
  rw [all_from_eq hbound hp bound 0 (Nat.zero_add bound) hfuel, Option.some.injEq,
    decide_eq_decide]
  constructor
  . intro h i hi
    exact h i hi (Nat.zero_le i)
  . intro h i hi _
    exact h i hi

end All

end CountedLoop
