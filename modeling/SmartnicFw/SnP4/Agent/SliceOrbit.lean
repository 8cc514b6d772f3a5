import SmartnicFw.SnP4.Agent.LongStep
import SmartnicFw.SnP4.Agent.MetricFilter

/-!
This module contains the loop over an index slice for arrays of any size (`stats.cpp`): the indices
it comes to, as `set_bit` is given them, and when they are those that the slice selects.
-/

namespace applyMetricFilterMatchIndices

-- The index after `k` steps, as an `unsigned int`
def orbit (first step k : Nat) : Nat := (first + k * step) % 2 ^ 32

-- As an `int` the index is past the end
def Ends (stop u : Nat) : Prop := stop < u ∧ u < 2 ^ 31

-- The loop ends, and the elements that it comes to are those of `p`
def Covers (nbits first step stop : Nat) (p : Nat → Prop) : Prop :=
  ∃ count, (∀ k < count, ¬ Ends stop (orbit first step k)) ∧ Ends stop (orbit first step count) ∧
    ∀ i < nbits, p i ↔ ∃ k < count, orbit first step k = i

section Orbit

variable {first step stop : Nat}

theorem orbit_lt (first step k : Nat) : orbit first step k < 2 ^ 32 := by
  apply Nat.mod_lt
  decide

theorem orbit_of_lt {k : Nat} (h : first + k * step < 2 ^ 32)
    : orbit first step k = first + k * step :=
  Nat.mod_eq_of_lt h

theorem orbit_of_ge {k : Nat} (hge : 2 ^ 32 ≤ first + k * step) (hlt : first + k * step < 2 ^ 33)
    : orbit first step k = first + k * step - 2 ^ 32 := by
  unfold orbit
  omega

theorem orbit_add (first step j k : Nat)
    : orbit first step (j + k) = (orbit first step j + k * step) % 2 ^ 32 := by
  unfold orbit
  rw [Nat.mod_add_mod, Nat.add_mul, Nat.add_assoc]

-- A loop that comes back to its first index never ends
theorem not_ends_of_period (period : Nat) (hperiod : orbit first step period = first)
    (hpos : 0 < period) (h : ∀ k < period, ¬ Ends stop (orbit first step k)) (k : Nat)
    : ¬ Ends stop (orbit first step k) := by
  induction k using Nat.strong_induction_on with
  | _ k ih =>
    by_cases hk : k < period
    . exact h k hk
    . have hback := orbit_add first step period (k - period)
      rw [hperiod, show period + (k - period) = k by omega] at hback
      rw [hback]
      exact ih (k - period) (by omega)

end Orbit

section Loop

variable {nbits first stop : Nat} {step : UInt32}

theorem toInt32_le_iff {u : Nat} (hu : u < 2 ^ 32) (hstop : stop < 2 ^ 31)
    : toInt32 u ≤ stop ↔ ¬ Ends stop u := by
  unfold Ends
  by_cases hlt : u < 2 ^ 31
  . rw [toInt32_of_mem (by omega) (by omega)]
    omega
  . rw [toInt32_of_ge (by omega) (by omega)]
    omega

theorem toInt32_emod (u : Nat) (hu : u < 2 ^ 32) : (toInt32 u % 2 ^ 32).toNat = u := by
  by_cases hlt : u < 2 ^ 31
  . rw [toInt32_of_mem (by omega) (by omega)]
    omega
  . rw [toInt32_of_ge (by omega) (by omega)]
    omega

theorem toInt32_orbit_succ (k : Nat)
    : toInt32 (toInt32 (orbit first step.toNat k) + step.toNat) =
        toInt32 (orbit first step.toNat (k + 1)) := by
  rw [orbit_add, one_mul]
  unfold toInt32
  rw [Int.bmod_add_bmod]
  push_cast
  exact (Int.emod_bmod _ _).symm

theorem loop_orbit_of_ends (hstop : stop < 2 ^ 31) {k : Nat}
    (h : Ends stop (orbit first step.toNat k)) (fuel : Nat) (v : BitArray nbits)
    : loop (fuel + 1) (toInt32 (orbit first step.toNat k)) stop step v = some v := by
  apply loop_of_lt
  have hnot := (toInt32_le_iff (orbit_lt first step.toNat k) hstop).not.mpr (not_not.mpr h)
  omega

theorem loop_orbit_of_not_ends (hstop : stop < 2 ^ 31) {k : Nat}
    (h : ¬ Ends stop (orbit first step.toNat k)) (fuel : Nat) (v : BitArray nbits)
    : loop (fuel + 1) (toInt32 (orbit first step.toNat k)) stop step v =
        loop fuel (toInt32 (orbit first step.toNat (k + 1))) stop step
          (v.setBit (orbit first step.toNat k)) := by
  have hlt := orbit_lt first step.toNat k
  rw [loop_of_le ((toInt32_le_iff hlt hstop).mpr h), toInt32_orbit_succ, toInt32_emod _ hlt]

-- The first indices of the loop
theorem loop_orbit (hstop : stop < 2 ^ 31) (count : Nat)
    (h : ∀ k < count, ¬ Ends stop (orbit first step.toNat k)) (v : BitArray nbits)
    : ∃ v', (∀ fuel, loop (fuel + count) (toInt32 (orbit first step.toNat 0)) stop step v =
          loop fuel (toInt32 (orbit first step.toNat count)) stop step v') ∧
        ∀ i < nbits, v'.isBitSet i = true ↔
          v.isBitSet i = true ∨ ∃ k < count, orbit first step.toNat k = i := by
  induction count with
  | zero =>
    refine ⟨v, fun fuel => rfl, ?_⟩
    intro i _
    simp
  | succ count ih =>
    obtain ⟨v', hrun, hbits⟩ := ih fun k hk => h k (by omega)
    refine ⟨v'.setBit (orbit first step.toNat count), ?_, ?_⟩
    . intro fuel
      rw [show fuel + (count + 1) = fuel + 1 + count by omega, hrun]
      exact loop_orbit_of_not_ends hstop (h count (by omega)) fuel v'
    . intro i hi
      simp only [BitArray.isBitSet_setBit, Bool.or_eq_true, Bool.and_eq_true, decide_eq_true_eq,
        hbits i hi, Nat.lt_succ_iff_lt_or_eq, or_and_right, exists_or, exists_eq_left, or_assoc]
      apply or_congr_right
      apply or_congr_right
      constructor
      . rintro ⟨rfl, -⟩
        rfl
      . intro horbit
        exact ⟨horbit.symm, hi⟩

theorem loop_of_covers (hstop : stop < 2 ^ 31) {p : Nat → Prop}
    (h : Covers nbits first step.toNat stop p) (v : BitArray nbits)
    : ∃ fuel v', loop fuel (toInt32 (orbit first step.toNat 0)) stop step v = some v' ∧
        ∀ i < nbits, v'.isBitSet i = true ↔ v.isBitSet i = true ∨ p i := by
  obtain ⟨count, hnot, hends, hp⟩ := h
  obtain ⟨v', hrun, hbits⟩ := loop_orbit hstop count hnot v
  refine ⟨0 + 1 + count, v', ?_, ?_⟩
  . rw [hrun]
    exact loop_orbit_of_ends hstop hends 0 v'
  . intro i hi
    rw [hbits i hi, hp i hi]

theorem exists_ends_of_loop (hstop : stop < 2 ^ 31) {fuel : Nat} {v v' : BitArray nbits}
    (h : loop fuel (toInt32 (orbit first step.toNat 0)) stop step v = some v')
    : ∃ k, Ends stop (orbit first step.toNat k) := by
  by_contra hnone
  push Not at hnone
  obtain ⟨v₁, hrun, -⟩ := loop_orbit hstop fuel (fun k _ => hnone k) v
  have hzero := hrun 0
  rw [Nat.zero_add, h] at hzero
  contradiction

theorem covers_of_loop (hstop : stop < 2 ^ 31) {p : Nat → Prop} {fuel : Nat} {v v' : BitArray nbits}
    (hv : ∀ i < nbits, v.isBitSet i = false)
    (h : loop fuel (toInt32 (orbit first step.toNat 0)) stop step v = some v')
    (hp : ∀ i < nbits, v'.isBitSet i = true ↔ p i)
    : Covers nbits first step.toNat stop p := by
  have hends := exists_ends_of_loop hstop h
  classical
  obtain ⟨v₁, hrun, hbits⟩ := loop_orbit hstop (Nat.find hends) (fun k hk => Nat.find_min hends hk) v
  have hstopped := hrun (0 + 1)
  rw [loop_orbit_of_ends hstop (Nat.find_spec hends) 0 v₁] at hstopped
  have hfuel := loop_mono h (0 + 1 + Nat.find hends)
  rw [Nat.add_comm fuel] at hfuel
  have hsame := loop_mono hstopped fuel
  rw [hfuel] at hsame
  cases hsame
  refine ⟨Nat.find hends, fun k hk => Nat.find_min hends hk, Nat.find_spec hends, ?_⟩
  intro i hi
  rw [← hp i hi, hbits i hi, hv i hi]
  simp

end Loop

-- The indices from the first one up to the last one, in steps
def Selected (first step last i : Nat) : Prop := ∃ k, i = first + k * step ∧ i ≤ last

-- The index after the last selected one
def next (first step last : Nat) : Nat := first + ((last - first) / step + 1) * step

section Short

variable {nbits first step stop : Nat}

theorem le_of_le_div (hle : first ≤ stop) {k : Nat} (hk : k ≤ (stop - first) / step)
    : first + k * step ≤ stop := by
  have hmul : k * step ≤ (stop - first) / step * step := Nat.mul_le_mul_right step hk
  have hdiv := Nat.div_mul_le_self (stop - first) step
  omega

theorem lt_next (hpos : 0 < step) : stop < next first step stop := by
  have hlt := Nat.lt_div_mul_add (a := stop - first) hpos
  unfold next
  rw [Nat.add_mul, one_mul]
  omega

theorem next_le (hle : first ≤ stop) : next first step stop ≤ stop + step := by
  have hlast : first + (stop - first) / step * step ≤ stop := le_of_le_div hle (le_refl _)
  unfold next
  rw [Nat.add_mul, one_mul]
  omega

theorem selected_iff (hpos : 0 < step) (hle : first ≤ stop) {i : Nat}
    : Selected first step stop i ↔ ∃ k ≤ (stop - first) / step, first + k * step = i := by
  unfold Selected
  constructor
  . rintro ⟨k, rfl, hk⟩
    refine ⟨k, ?_, rfl⟩
    rw [Nat.le_div_iff_mul_le hpos]
    omega
  . rintro ⟨k, hk, rfl⟩
    exact ⟨k, rfl, le_of_le_div hle hk⟩

-- Up to the last selected index the loop goes through the selected ones
theorem orbit_selected (hle : first ≤ stop) (hstop : stop < 2 ^ 31) {k : Nat}
    (hk : k ≤ (stop - first) / step)
    : orbit first step k = first + k * step ∧ ¬ Ends stop (orbit first step k) := by
  have hlast := le_of_le_div hle hk
  have horbit : orbit first step k = first + k * step := orbit_of_lt (by omega)
  refine ⟨horbit, ?_⟩
  unfold Ends
  omega

theorem first_add_eq_next (first step stop j : Nat)
    : first + ((stop - first) / step + 1 + j) * step = next first step stop + j * step := by
  unfold next
  ring

-- The indices after the last selected one, as long as they do not wrap around
theorem orbit_next {j : Nat} (h : next first step stop + j * step < 2 ^ 32)
    : orbit first step ((stop - first) / step + 1 + j) = next first step stop + j * step := by
  rw [← first_add_eq_next] at h ⊢
  exact orbit_of_lt h

-- How the loop comes back when the next index is not an `int`
theorem exists_orbit_return (first stop : Nat) (hpos : 0 < step) (hshort : step < 2 ^ 31)
    (hge : 2 ^ 31 ≤ next first step stop) (hlt : next first step stop < 2 ^ 32)
    : ∃ j, 0 < j ∧ (∀ k < j, next first step stop + k * step < 2 ^ 32) ∧
        (orbit first step ((stop - first) / step + 1 + j) : Int) =
          ((first : Int) - 2 ^ 32) % step := by
  obtain ⟨j, hj, hneg, -⟩ := exists_return hpos (n := (next first step stop : Int) - 2 ^ 32)
    (by omega)
  have hresidue : ((next first step stop : Int) - 2 ^ 32) % step =
      ((first : Int) - 2 ^ 32) % step := by
    have hnext : (next first step stop : Int) - 2 ^ 32 =
        (first - 2 ^ 32) + (((stop - first) / step : Nat) + 1 : Int) * step := by
      unfold next
      push_cast
      ring
    rw [hnext, Int.add_mul_emod_self_right]
  have hnonneg := Int.emod_nonneg ((first : Int) - 2 ^ 32) (b := (step : Int)) (by omega)
  have hmod_lt := Int.emod_lt_of_pos ((first : Int) - 2 ^ 32) (b := (step : Int)) (by omega)
  rw [hresidue] at hj
  clear hresidue
  generalize ((first : Int) - 2 ^ 32) % step = r at hj hnonneg hmod_lt ⊢
  have hsum : ((next first step stop + j * step : Nat) : Int) = r + 2 ^ 32 := by
    push_cast
    omega
  refine ⟨j, ?_, ?_, ?_⟩
  . by_contra hzero
    have hj : j = 0 := by omega
    subst hj
    omega
  . intro k hk
    have hk' := hneg k hk
    have hcast : ((next first step stop + k * step : Nat) : Int) =
        next first step stop + k * step := by push_cast; rfl
    omega
  . have hnext := first_add_eq_next first step stop j
    rw [orbit_of_ge (by rw [hnext]; omega) (by rw [hnext]; omega), hnext]
    omega

-- The selected indices are the first ones that the loop comes to
theorem selected_iff_orbit (hpos : 0 < step) (hle : first ≤ stop) (hstop : stop < 2 ^ 31) {i : Nat}
    : Selected first step stop i ↔ ∃ k < (stop - first) / step + 1, orbit first step k = i := by
  rw [selected_iff hpos hle]
  constructor
  . rintro ⟨k, hk, rfl⟩
    exact ⟨k, by omega, (orbit_selected hle hstop hk).1⟩
  . rintro ⟨k, hk, rfl⟩
    exact ⟨k, by omega, (orbit_selected hle hstop (by omega)).1.symm⟩

-- A loop that has left the `int`s has not ended before it comes back
theorem not_ends_before_return (hle : first ≤ stop) (hstop : stop < 2 ^ 31)
    (hge : 2 ^ 31 ≤ next first step stop) {j : Nat}
    (hj : ∀ k < j, next first step stop + k * step < 2 ^ 32) {k : Nat}
    (hk : k < (stop - first) / step + 1 + j)
    : ¬ Ends stop (orbit first step k) := by
  by_cases hsel : k ≤ (stop - first) / step
  . exact (orbit_selected hle hstop hsel).2
  . obtain ⟨i, rfl⟩ : ∃ i, k = (stop - first) / step + 1 + i := Nat.exists_eq_add_of_le (by omega)
    rw [orbit_next (hj i (by omega))]
    unfold Ends
    omega

-- The index after the last selected one, with which the loop goes on
theorem orbit_of_next (h : next first step stop < 2 ^ 32)
    : orbit first step ((stop - first) / step + 1) = next first step stop := by
  simpa using orbit_next (j := 0) (by simpa using h)

-- A loop that comes back to an index of the slice has come back to the first one, and never ends
theorem ends_of_covers_return (hle : first ≤ stop) (hstop : stop < 2 ^ 31) (hsize : stop < nbits)
    (hge : 2 ^ 31 ≤ next first step stop) {j : Nat}
    (hbefore : ∀ k < j, next first step stop + k * step < 2 ^ 32)
    (hback : orbit first step ((stop - first) / step + 1 + j) < step)
    (h : Covers nbits first step stop (Selected first step stop))
    : stop < orbit first step ((stop - first) / step + 1 + j) := by
  obtain ⟨count, hcount, hends, hsel⟩ := h
  have hnot := fun k => not_ends_before_return hle hstop hge hbefore (k := k)
  by_contra hlow
  have hback_not : ¬ Ends stop (orbit first step ((stop - first) / step + 1 + j)) := by
    unfold Ends
    omega
  have hgt : (stop - first) / step + 1 + j < count := by
    by_contra hle
    rcases Nat.lt_or_eq_of_le (Nat.le_of_not_lt hle) with h | h
    . exact hnot count h hends
    . rw [h] at hends
      contradiction
  obtain ⟨k, hk, _⟩ := (hsel (orbit first step ((stop - first) / step + 1 + j))
    (by omega)).mpr ⟨_, hgt, rfl⟩
  have hperiod : orbit first step ((stop - first) / step + 1 + j) = first := by
    cases k with
    | zero => simpa using hk
    | succ k =>
      rw [Nat.add_mul, one_mul] at hk
      have hnonneg := Nat.zero_le (k * step)
      omega
  exact not_ends_of_period _ hperiod (Nat.add_pos_left (Nat.succ_pos _) j) (fun k hk => hnot k hk)
    count hends

theorem covers_of_return (hpos : 0 < step) (hle : first ≤ stop) (hstop : stop < 2 ^ 31)
    (hge : 2 ^ 31 ≤ next first step stop) (hfar : nbits ≤ next first step stop) {j : Nat}
    (hbefore : ∀ k < j, next first step stop + k * step < 2 ^ 32)
    (hends : Ends stop (orbit first step ((stop - first) / step + 1 + j)))
    : Covers nbits first step stop (Selected first step stop) := by
  refine ⟨(stop - first) / step + 1 + j, ?_, hends, ?_⟩
  . intro k hk
    exact not_ends_before_return hle hstop hge hbefore hk
  . intro i hi
    rw [selected_iff_orbit hpos hle hstop]
    constructor
    . rintro ⟨k, hk, rfl⟩
      exact ⟨k, by omega, rfl⟩
    . rintro ⟨k, hk, rfl⟩
      refine ⟨k, ?_, rfl⟩
      by_contra hlater
      obtain ⟨i, rfl⟩ : ∃ i, k = (stop - first) / step + 1 + i :=
        Nat.exists_eq_add_of_le (by omega)
      rw [orbit_next (hbefore i (by omega))] at hi
      omega

-- No index after the last selected one is an element
theorem le_next_of_covers (hpos : 0 < step) (hle : first ≤ stop) (hstop : stop < 2 ^ 31)
    (hge : 2 ^ 31 ≤ next first step stop) (hlt : next first step stop < 2 ^ 32)
    (h : Covers nbits first step stop (Selected first step stop))
    : nbits ≤ next first step stop := by
  obtain ⟨count, hcount, hends, hsel⟩ := h
  have hpast : stop < next first step stop := lt_next hpos
  have horbit := orbit_of_next hlt
  have hnot : ∀ k ≤ (stop - first) / step + 1, ¬ Ends stop (orbit first step k) := by
    intro k hk
    apply not_ends_before_return hle hstop hge (j := 1) _ (by omega)
    intro i hi
    obtain rfl : i = 0 := by omega
    omega
  have hgt : (stop - first) / step + 1 < count := by
    by_contra hge
    exact hnot count (by omega) hends
  by_contra hmarked
  obtain ⟨_, _, hle⟩ := (hsel (next first step stop) (by omega)).mpr ⟨_, hgt, horbit⟩
  omega

theorem covers_short_iff (hpos : 0 < step) (hshort : step < 2 ^ 31) (hle : first ≤ stop)
    (hstop : stop < 2 ^ 31) (hsize : stop < nbits)
    : Covers nbits first step stop (Selected first step stop) ↔
        next first step stop < 2 ^ 31 ∨
          nbits ≤ next first step stop ∧ (stop : Int) < ((first : Int) - 2 ^ 32) % step := by
  have hpast : stop < next first step stop := lt_next hpos
  have hnext : next first step stop ≤ stop + step := next_le hle
  by_cases hint : next first step stop < 2 ^ 31
  . simp only [hint, true_or, iff_true]
    refine ⟨(stop - first) / step + 1, ?_, ?_, ?_⟩
    . intro k hk
      exact (orbit_selected hle hstop (by omega)).2
    . rw [orbit_of_next (by omega)]
      exact ⟨hpast, hint⟩
    . intro i _
      exact selected_iff_orbit hpos hle hstop
  . simp only [hint, false_or]
    obtain ⟨j, hj, hbefore, hback⟩ := exists_orbit_return first stop hpos hshort (by omega)
      (by omega)
    have hmod_lt := Int.emod_lt_of_pos ((first : Int) - 2 ^ 32) (b := (step : Int)) (by omega)
    rw [← hback] at hmod_lt ⊢
    constructor
    . intro hcovers
      refine ⟨le_next_of_covers hpos hle hstop (by omega) (by omega) hcovers, ?_⟩
      exact_mod_cast ends_of_covers_return hle hstop hsize (by omega) hbefore (by omega) hcovers
    . rintro ⟨hfar, hends⟩
      apply covers_of_return hpos hle hstop (by omega) hfar hbefore
      unfold Ends
      omega

end Short

section Long

variable {nbits first step stop : Nat}

theorem selected_long_iff (hlong : 2 ^ 31 ≤ step) (hle : first ≤ stop) (hstop : stop < 2 ^ 31)
    {i : Nat}
    : Selected first step stop i ↔ i = first := by
  constructor
  . rintro ⟨k, rfl, hk⟩
    cases k with
    | zero => simp
    | succ k =>
      rw [Nat.add_mul, one_mul] at hk
      have hnonneg := Nat.zero_le (k * step)
      omega
  . rintro rfl
    exact ⟨0, by simp, hle⟩

-- Below zero a long step goes down
theorem orbit_descend (hstep : step < 2 ^ 32) {k : Nat} (hlow : first < k * (2 ^ 32 - step))
    (hhigh : k * (2 ^ 32 - step) ≤ first + 2 ^ 32)
    : orbit first step k = first + 2 ^ 32 - k * (2 ^ 32 - step) := by
  have hsum : k * step + k * (2 ^ 32 - step) = k * 2 ^ 32 := by
    rw [← Nat.mul_add, Nat.add_sub_cancel' (Nat.le_of_lt hstep)]
  unfold orbit
  omega

-- The last index of the descent, after which the loop comes back
theorem descent_bounds (hstep : step < 2 ^ 32) (hfirst : first < 2 ^ 32 - step) {k : Nat}
    (hpos : 0 < k) (hk : k ≤ (first + 2 ^ 31) / (2 ^ 32 - step))
    : orbit first step k = first + 2 ^ 32 - k * (2 ^ 32 - step) ∧
        2 ^ 31 + (first + 2 ^ 31) % (2 ^ 32 - step) ≤ orbit first step k := by
  have hdiv := Nat.div_add_mod' (first + 2 ^ 31) (2 ^ 32 - step)
  have hmul := Nat.mul_le_mul_right (2 ^ 32 - step) hk
  have hone := Nat.mul_le_mul_right (2 ^ 32 - step) (show 1 ≤ k by omega)
  have horbit : orbit first step k = first + 2 ^ 32 - k * (2 ^ 32 - step) :=
    orbit_descend hstep (by omega) (by omega)
  exact ⟨horbit, by omega⟩

theorem orbit_return (hlong : 2 ^ 31 ≤ step) (hstep : step < 2 ^ 32)
    (hfirst : first < 2 ^ 32 - step)
    : orbit first step ((first + 2 ^ 31) / (2 ^ 32 - step) + 1) + (2 ^ 32 - step) =
        2 ^ 31 + (first + 2 ^ 31) % (2 ^ 32 - step) := by
  have hdiv := Nat.div_add_mod' (first + 2 ^ 31) (2 ^ 32 - step)
  have hlt := Nat.mod_lt (first + 2 ^ 31) (y := 2 ^ 32 - step) (by omega)
  have hsucc := Nat.add_mul ((first + 2 ^ 31) / (2 ^ 32 - step)) 1 (2 ^ 32 - step)
  rw [orbit_descend hstep (by omega) (by omega)]
  omega

theorem not_ends_in_descent (hstep : step < 2 ^ 32) (hle : first ≤ stop)
    (hstop : stop < 2 ^ 31) (hfirst : first < 2 ^ 32 - step) {k : Nat}
    (hk : k < (first + 2 ^ 31) / (2 ^ 32 - step) + 1)
    : ¬ Ends stop (orbit first step k) := by
  unfold Ends
  cases k with
  | zero =>
    rw [orbit_of_lt (by omega)]
    omega
  | succ k =>
    have hbound := (descent_bounds hstep hfirst (k := k + 1) (Nat.succ_pos k) (by omega)).2
    omega

theorem lt_descent_of_covers (hlong : 2 ^ 31 ≤ step) (hstep : step < 2 ^ 32) (hle : first ≤ stop)
    (hstop : stop < 2 ^ 31) (hsize : stop < nbits)
    (h : Covers nbits first step stop (Selected first step stop))
    : first < 2 ^ 32 - step := by
  obtain ⟨count, hcount, hends, hsel⟩ := h
  by_contra hge
  have hzero : orbit first step 0 = first := by
    rw [orbit_of_lt (by omega)]
    omega
  have hone : orbit first step 1 = first + step - 2 ^ 32 := by
    rw [orbit_of_ge (by omega) (by omega)]
    omega
  have hgt : 1 < count := by
    by_contra hcount_le
    unfold Ends at hends
    interval_cases count <;> omega
  have hmarked := (hsel (orbit first step 1) (by omega)).mpr ⟨1, hgt, rfl⟩
  rw [selected_long_iff hlong hle hstop] at hmarked
  omega

theorem covers_long_iff (hlong : 2 ^ 31 ≤ step) (hstep : step < 2 ^ 32) (hle : first ≤ stop)
    (hstop : stop < 2 ^ 31) (hsize : stop < nbits)
    : Covers nbits first step stop (Selected first step stop) ↔
        first < 2 ^ 32 - step ∧ nbits ≤ 2 ^ 31 + (first + 2 ^ 31) % (2 ^ 32 - step) ∧
          stop + (2 ^ 32 - step) < 2 ^ 31 + (first + 2 ^ 31) % (2 ^ 32 - step) := by
  constructor
  . intro hcovers
    have hfirst := lt_descent_of_covers hlong hstep hle hstop hsize hcovers
    refine ⟨hfirst, ?_⟩
    obtain ⟨count, hcount, hends, hsel⟩ := hcovers
    simp only [selected_long_iff hlong hle hstop] at hsel
    have hnot := fun k => not_ends_in_descent hstep hle hstop hfirst (k := k)
    have hback := orbit_return hlong hstep hfirst
    have hquot : 1 ≤ (first + 2 ^ 31) / (2 ^ 32 - step) :=
      (Nat.le_div_iff_mul_le (by omega)).mpr (by omega)
    have hlowest := descent_bounds hstep hfirst hquot (le_refl _)
    have hdiv := Nat.div_add_mod' (first + 2 ^ 31) (2 ^ 32 - step)
    have hmod_lt := Nat.mod_lt (first + 2 ^ 31) (y := 2 ^ 32 - step) (by omega)
    have hge : (first + 2 ^ 31) / (2 ^ 32 - step) + 1 ≤ count := by
      by_contra hlt
      exact hnot count (by omega) hends
    constructor
    . by_contra hlt
      have hmarked := (hsel _ (by omega)).mpr
        ⟨(first + 2 ^ 31) / (2 ^ 32 - step), by omega, rfl⟩
      omega
    . by_contra hlow
      have hgt : (first + 2 ^ 31) / (2 ^ 32 - step) + 1 < count := by
        by_contra hle
        have heq : count = (first + 2 ^ 31) / (2 ^ 32 - step) + 1 := by omega
        rw [heq] at hends
        unfold Ends at hends
        omega
      have hperiod := (hsel _ (by omega)).mpr ⟨_, hgt, rfl⟩
      exact not_ends_of_period _ hperiod (Nat.succ_pos _) (fun k hk => hnot k hk) count hends
  . rintro ⟨hfirst, hfar, hpast⟩
    have hback := orbit_return hlong hstep hfirst
    have hmod_lt := Nat.mod_lt (first + 2 ^ 31) (y := 2 ^ 32 - step) (by omega)
    refine ⟨(first + 2 ^ 31) / (2 ^ 32 - step) + 1, ?_, ?_, ?_⟩
    . intro k hk
      exact not_ends_in_descent hstep hle hstop hfirst hk
    . unfold Ends
      omega
    . intro i hi
      rw [selected_long_iff hlong hle hstop]
      constructor
      . rintro rfl
        refine ⟨0, Nat.succ_pos _, ?_⟩
        rw [orbit_of_lt (by omega)]
        omega
      . rintro ⟨k, hk, rfl⟩
        cases k with
        | zero =>
          rw [orbit_of_lt (by omega)]
          omega
        | succ k =>
          have hbound := (descent_bounds hstep hfirst (k := k + 1) (Nat.succ_pos k) (by omega)).2
          omega

end Long

-- The last index is no `int`, and what the loop ends at has lost its upper half
section Wrapped

variable {nbits first step stop last : Nat}

theorem le_of_lt_div {k : Nat} (hk : (stop - first) / step < k)
    : next first step stop ≤ first + k * step := by
  have hmul := Nat.mul_le_mul_right step (show (stop - first) / step + 1 ≤ k by omega)
  unfold next
  omega

theorem covers_of_wrapped (hpos : 0 < step) (hstep : step < 2 ^ 32) (hle : first ≤ stop)
    (hlast : last = stop + 2 ^ 32) (hjump : 2 ^ 31 ≤ next first step stop)
    (hnext : next first step last < 2 ^ 32 + step)
    (hends : next first step last < 2 ^ 32 + 2 ^ 31)
    : Covers nbits first step stop (Selected first step last) := by
  have hpast : last < next first step last := lt_next hpos
  have hsucc : next first step last = first + (last - first) / step * step + step := by
    unfold next
    ring
  have horbit : ∀ k ≤ (last - first) / step, orbit first step k = first + k * step := by
    intro k hk
    have hmul := Nat.mul_le_mul_right step hk
    exact orbit_of_lt (by omega)
  have hselected : ∀ i, Selected first step last i ↔
      ∃ k ≤ (last - first) / step, first + k * step = i := fun i => selected_iff hpos (by omega)
  refine ⟨(last - first) / step + 1, ?_, ?_, ?_⟩
  . intro k hk
    rw [horbit k (by omega)]
    unfold Ends
    by_cases hlow : k ≤ (stop - first) / step
    . have hlow_le := le_of_le_div hle hlow
      omega
    . have hhigh : next first step stop ≤ first + k * step := le_of_lt_div (Nat.lt_of_not_le hlow)
      omega
  . have hmul : first + ((last - first) / step + 1) * step = next first step last := rfl
    rw [orbit_of_ge (by omega) (by omega), hmul]
    unfold Ends
    omega
  . intro i _
    rw [hselected i]
    constructor
    . rintro ⟨k, hk, rfl⟩
      exact ⟨k, by omega, horbit k hk⟩
    . rintro ⟨k, hk, rfl⟩
      exact ⟨k, by omega, (horbit k (by omega)).symm⟩

-- The selected indices are the first ones of the loop, or it does not come to all of them
theorem orbit_of_covers_wrapped (hpos : 0 < step) (hle : first ≤ last) (hsize : last < nbits)
    {count : Nat} (hsel : ∀ i < nbits, Selected first step last i ↔ ∃ k < count, orbit first step k = i)
    {k : Nat} (hk : k ≤ (last - first) / step)
    : orbit first step k = first + k * step ∧ k < count := by
  have hmarked : ∀ j ≤ (last - first) / step, ∃ i < count, orbit first step i = first + j * step := by
    intro j hj
    have hj_le := le_of_le_div hle hj
    exact (hsel _ (by omega)).mp ⟨j, rfl, hj_le⟩
  have horbit : ∀ j ≤ (last - first) / step, orbit first step j = first + j * step := by
    intro j hj
    obtain ⟨i, _, hi⟩ := hmarked j hj
    have hlt := orbit_lt first step i
    exact orbit_of_lt (by omega)
  refine ⟨horbit k hk, ?_⟩
  by_contra hge
  obtain ⟨i, hi, hi'⟩ := hmarked k hk
  have hmul := Nat.mul_lt_mul_of_pos_right (show i < k by omega) hpos
  rw [horbit i (by omega)] at hi'
  omega

theorem covers_wrapped_iff (hpos : 0 < step) (hstep : step < 2 ^ 32) (hle : first ≤ stop)
    (hstop : stop < 2 ^ 31) {c : Nat} (hc : 0 < c) (hlast : last = stop + c * 2 ^ 32)
    (hsize : last < nbits)
    : Covers nbits first step stop (Selected first step last) ↔
        last = stop + 2 ^ 32 ∧ 2 ^ 31 ≤ next first step stop ∧
          next first step last < 2 ^ 32 + step ∧ next first step last < 2 ^ 32 + 2 ^ 31 := by
  constructor
  . rintro ⟨count, hcount, hends, hsel⟩
    have hpast : last < next first step last := lt_next hpos
    have hstart := fun k =>
      orbit_of_covers_wrapped hpos (show first ≤ last by omega) hsize hsel (k := k)
    obtain ⟨hlastSelected, hlt⟩ := hstart _ (le_refl _)
    have hsucc : next first step last = first + (last - first) / step * step + step := by
      unfold next
      ring
    have hlastSelected_lt := orbit_lt first step ((last - first) / step)
    have hnext : next first step last < 2 ^ 32 + step := by omega
    have hjump : 2 ^ 31 ≤ next first step stop := by
      by_contra hshort
      have hpast_stop : stop < next first step stop := lt_next hpos
      have hmul : first + ((stop - first) / step + 1) * step = next first step stop := rfl
      have hquot : (stop - first) / step + 1 ≤ (last - first) / step := by
        rw [Nat.le_div_iff_mul_le hpos]
        omega
      obtain ⟨horbit, hk⟩ := hstart _ hquot
      apply hcount _ hk
      unfold Ends
      omega
    have hone : c = 1 := by omega
    subst hone
    have hmul : first + ((last - first) / step + 1) * step = next first step last := rfl
    have horbit : orbit first step ((last - first) / step + 1) =
        next first step last - 2 ^ 32 := by
      rw [orbit_of_ge (by omega) (by omega), hmul]
    refine ⟨by omega, hjump, hnext, ?_⟩
    by_contra hfar
    have hgt : (last - first) / step + 1 < count := by
      by_contra hge
      have heq : count = (last - first) / step + 1 := by omega
      rw [heq, horbit] at hends
      unfold Ends at hends
      omega
    obtain ⟨k, hk, _⟩ := (hsel (next first step last - 2 ^ 32) (by omega)).mpr ⟨_, hgt, horbit⟩
    cases k with
    | zero => omega
    | succ k =>
      rw [Nat.add_mul, one_mul] at hk
      have hnonneg := Nat.zero_le (k * step)
      omega
  . rintro ⟨hlast, hjump, hnext, hends⟩
    exact covers_of_wrapped hpos hstep hle hlast hjump hnext hends

end Wrapped

end applyMetricFilterMatchIndices
