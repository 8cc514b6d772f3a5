import SmartnicFw.SnP4.Agent.IndexSlice

/-!
This module contains the index slices with a step of 2 ^ 31 or more (`stats.cpp`): as an `int` such
a step goes down, and the loop comes back from below. With the other slices this settles for each
slice whether the loop marks what the slice selects.
-/

namespace StatsMetricMatchIndexSlice

-- How far a long step goes down
def descent (s : StatsMetricMatchIndexSlice) : Int := 2 ^ 32 - s.increment.toNat

-- The loop leaves the array at once, and is past the end when it comes back from below
def FitsLong (s : StatsMetricMatchIndexSlice) (n : Nat) : Prop :=
  s.first n ≤ s.last n →
    s.first n < s.descent ∧ s.last n < (s.first n + 2 ^ 31) % s.descent + 2 ^ 31 - s.descent

def FitsAny (s : StatsMetricMatchIndexSlice) (n : Nat) : Prop :=
  if s.step.toNat < 2 ^ 31 then s.Fits n else s.FitsLong n

instance (s : StatsMetricMatchIndexSlice) (n : Nat) : Decidable (s.Fits n) := by
  unfold Fits
  infer_instance

instance (s : StatsMetricMatchIndexSlice) (n : Nat) : Decidable (s.FitsLong n) := by
  unfold FitsLong
  infer_instance

instance (s : StatsMetricMatchIndexSlice) (n : Nat) : Decidable (s.FitsAny n) := by
  unfold FitsAny
  infer_instance

variable {s : StatsMetricMatchIndexSlice} {n : Nat}

theorem fitsAny_iff_fits (hstep : s.step.toNat < 2 ^ 31) : s.FitsAny n ↔ s.Fits n := by
  rw [FitsAny, if_pos hstep]

theorem fitsAny_iff_fitsLong (hstep : ¬ s.step.toNat < 2 ^ 31) : s.FitsAny n ↔ s.FitsLong n := by
  rw [FitsAny, if_neg hstep]

theorem increment_of_long (hstep : ¬ s.step.toNat < 2 ^ 31)
    : 2 ^ 31 ≤ (s.increment.toNat : Int) ∧ (s.increment.toNat : Int) < 2 ^ 32 := by
  have hlt : s.increment.toNat < 2 ^ 32 := s.increment.toNat_lt
  refine ⟨?_, by omega⟩
  unfold increment
  split
  . next h =>
    rw [UInt32.lt_iff_toNat_lt, UInt32.toNat_one] at h
    omega
  . omega

-- The second index is past the end of every array
theorem selects_of_long (hstep : ¬ s.step.toNat < 2 ^ 31) (hsmall : n < 2 ^ 31)
    (hrange : s.first n ≤ s.last n) (i : Nat)
    : s.Selects n i ↔ (i : Int) = s.first n := by
  obtain ⟨hinc, _⟩ := increment_of_long hstep
  have hlast_lt := s.last_lt n
  have hfirst_nonneg := s.first_nonneg n
  constructor
  . rintro ⟨k, hi, hle⟩
    have hk : k = 0 := by
      by_contra hne
      have hmul : (1 : Int) * s.increment.toNat ≤ k * s.increment.toNat :=
        Int.mul_le_mul_of_nonneg_right (by omega) (by omega)
      omega
    simpa [hk] using hi
  . intro hi
    exact ⟨0, by simpa using hi, by omega⟩

end StatsMetricMatchIndexSlice

namespace applyMetricFilterMatchIndices

variable {nbits : Nat} {stop : Int} {step : UInt32}

-- Going down below zero: there is no element to mark at a negative index
theorem loop_descend (hstop : 0 ≤ stop) (hsmall : nbits < 2 ^ 31) (hstep : 2 ^ 31 ≤ step.toNat)
    (k : Nat) {n : Int} (hneg : n < 0) (hlow : -2 ^ 31 ≤ n - k * (2 ^ 32 - step.toNat))
    (v : BitArray nbits) (fuel : Nat)
    : loop (fuel + k) n stop step v = loop fuel (n - k * (2 ^ 32 - step.toNat)) stop step v := by
  have hlt : step.toNat < 2 ^ 32 := step.toNat_lt
  induction k generalizing n with
  | zero => simp
  | succ k ih =>
    have hpos : (0 : Int) ≤ k * (2 ^ 32 - step.toNat) := Int.mul_nonneg (by omega) (by omega)
    have hsucc : ((k + 1 : Nat) : Int) * (2 ^ 32 - step.toNat) =
        k * (2 ^ 32 - step.toNat) + (2 ^ 32 - step.toNat) := by
      push_cast
      ring
    rw [hsucc] at hlow ⊢
    have hset : v.setBit (n % 2 ^ 32).toNat = v := by
      have hge : ¬ (n % 2 ^ 32).toNat < nbits := by omega
      rw [BitArray.setBit, dif_neg hge]
    rw [← Nat.add_assoc, loop_of_le (by omega), hset, toInt32_of_ge (by omega) (by omega),
      ih (by omega) (by omega)]
    congr 1
    ring

-- One round: down from the first index, and from below zero to the index where the loop comes back
theorem loop_round (hsmall : nbits < 2 ^ 31) {s : StatsMetricMatchIndexSlice}
    (hstep : ¬ s.step.toNat < 2 ^ 31) (hrange : s.first nbits ≤ s.last nbits)
    (hdescent : s.first nbits < s.descent)
    : ∃ k ≤ 2 ^ 31, ∀ (v : BitArray nbits) fuel,
        loop (fuel + (k + 1)) (s.first nbits) (s.last nbits) s.increment v =
          loop fuel ((s.first nbits + 2 ^ 31) % s.descent + 2 ^ 31 - s.descent) (s.last nbits)
            s.increment (v.setBit (s.first nbits).toNat) := by
  obtain ⟨hinc, hinc'⟩ := StatsMetricMatchIndexSlice.increment_of_long hstep
  have hlast_lt := s.last_lt nbits
  have hfirst_nonneg := s.first_nonneg nbits
  have hdescent_eq : s.descent = 2 ^ 32 - s.increment.toNat := rfl
  have hmod_nonneg := Int.emod_nonneg (s.first nbits + 2 ^ 31) (b := s.descent) (by omega)
  have hmod_lt := Int.emod_lt_of_pos (s.first nbits + 2 ^ 31) (b := s.descent) (by omega)
  have hdiv := Int.mul_ediv_add_emod (s.first nbits + 2 ^ 31) s.descent
  have hquot : 1 ≤ (s.first nbits + 2 ^ 31) / s.descent :=
    (Int.le_ediv_iff_mul_le (by omega)).mpr (by omega)
  -- `q` descents after the first one, the next one is below -2 ^ 31
  obtain ⟨q, hq⟩ := Int.eq_ofNat_of_zero_le (a := (s.first nbits + 2 ^ 31) / s.descent - 1)
    (by omega)
  have hquot_eq : (s.first nbits + 2 ^ 31) / s.descent = q + 1 := by omega
  have hlowest : s.first nbits - s.descent - q * s.descent =
      (s.first nbits + 2 ^ 31) % s.descent - 2 ^ 31 := by
    rw [hquot_eq] at hdiv
    linarith
  have hq_le : (q : Int) * 1 ≤ q * s.descent := Int.mul_le_mul_of_nonneg_left (by omega) (by omega)
  have hset : ∀ v : BitArray nbits, v.setBit
      (((s.first nbits + 2 ^ 31) % s.descent - 2 ^ 31) % 2 ^ 32).toNat = v := by
    intro v
    have hge : ¬ (((s.first nbits + 2 ^ 31) % s.descent - 2 ^ 31) % 2 ^ 32).toNat < nbits := by
      omega
    rw [BitArray.setBit, dif_neg hge]
  have hfirst_mod : s.first nbits % 2 ^ 32 = s.first nbits := by omega
  refine ⟨q + 1, by omega, ?_⟩
  intro v fuel
  have hfuel : fuel + (q + 1 + 1) = fuel + 1 + q + 1 := by ring
  rw [hfuel, loop_of_le hrange, hfirst_mod, toInt32_of_ge (by omega) (by omega)]
  have hdown : s.first nbits + s.increment.toNat - 2 ^ 32 = s.first nbits - s.descent := by
    rw [hdescent_eq]
    ring
  rw [hdown, loop_descend (by omega) hsmall (by omega) q (by omega) (by rw [← hdescent_eq]; omega),
    ← hdescent_eq, hlowest, loop_of_le (by omega), hset, toInt32_of_mem (by omega) (by omega)]
  congr 1
  rw [hdescent_eq]
  ring

-- A long step that fits marks the first element
theorem slice_of_fitsLong (hsmall : nbits < 2 ^ 31) {s : StatsMetricMatchIndexSlice}
    (hstep : ¬ s.step.toNat < 2 ^ 31) (hfits : s.FitsLong nbits) {fuel : Nat}
    (hfuel : sliceFuel ≤ fuel) (v : BitArray nbits)
    : ∃ v', slice fuel s v = some v' ∧
        ∀ i, v'.isBitSet i = true ↔ v.isBitSet i = true ∨ s.Selects nbits i := by
  unfold sliceFuel at hfuel
  rw [slice_eq hsmall]
  by_cases hrange : s.first nbits ≤ s.last nbits
  . obtain ⟨hdescent, hpast⟩ := hfits hrange
    obtain ⟨k, hk, hrun⟩ := loop_round hsmall hstep hrange hdescent
    obtain ⟨rest, rfl⟩ : ∃ rest, fuel = rest + 1 + (k + 1) := ⟨fuel - k - 2, by omega⟩
    have hlast_lt := s.last_lt nbits
    have hfirst_nonneg := s.first_nonneg nbits
    refine ⟨v.setBit (s.first nbits).toNat, ?_, ?_⟩
    . rw [if_pos hrange, hrun, loop_of_lt hpast]
    . intro i
      rw [StatsMetricMatchIndexSlice.selects_of_long hstep hsmall hrange]
      simp only [BitArray.isBitSet_setBit, Bool.or_eq_true, Bool.and_eq_true, decide_eq_true_eq]
      apply or_congr_right
      omega
  . rw [if_neg hrange]
    refine ⟨v, rfl, ?_⟩
    intro i
    simp [StatsMetricMatchIndexSlice.not_selects_of_lt (by omega : s.last nbits < s.first nbits)]

-- When the loop comes back to where it started, it never ends
theorem loop_eq_none_of_round {n : Int} {k : Nat}
    (hround : ∀ (v : BitArray nbits), ∃ v', ∀ fuel,
      loop (fuel + (k + 1)) n stop step v = loop fuel n stop step v')
    (fuel : Nat) (v : BitArray nbits)
    : loop fuel n stop step v = none := by
  induction fuel using Nat.strong_induction_on generalizing v with
  | _ fuel ih =>
    obtain ⟨v', hrun⟩ := hround v
    by_cases hfuel : fuel ≤ k
    . by_contra hne
      obtain ⟨v₁, hv₁⟩ := Option.ne_none_iff_exists'.mp hne
      have hmono := loop_mono hv₁ (k + 1 - fuel)
      have hzero : fuel + (k + 1 - fuel) = 0 + (k + 1) := by omega
      rw [hzero, hrun] at hmono
      contradiction
    . obtain ⟨rest, rfl⟩ : ∃ rest, fuel = rest + (k + 1) := ⟨fuel - k - 1, by omega⟩
      rw [hrun]
      exact ih rest (by omega) v'

-- A long step that does not fit goes on forever, or marks an element it does not select
theorem slice_of_not_fitsLong (hsmall : nbits < 2 ^ 31) {s : StatsMetricMatchIndexSlice}
    (hstep : ¬ s.step.toNat < 2 ^ 31) (hfits : ¬ s.FitsLong nbits) {fuel : Nat}
    {v v' : BitArray nbits} (h : slice fuel s v = some v')
    : ∃ i < nbits, v'.isBitSet i = true ∧ ¬ s.Selects nbits i := by
  obtain ⟨hinc, hinc'⟩ := StatsMetricMatchIndexSlice.increment_of_long hstep
  have hlast_lt := s.last_lt nbits
  have hdescent_eq : s.descent = 2 ^ 32 - s.increment.toNat := rfl
  simp only [StatsMetricMatchIndexSlice.FitsLong, Classical.not_imp, not_and_or, not_lt] at hfits
  obtain ⟨hrange, hfits⟩ := hfits
  obtain ⟨f, hf⟩ := Int.eq_ofNat_of_zero_le (s.first_nonneg nbits)
  simp only [StatsMetricMatchIndexSlice.selects_of_long hstep hsmall hrange]
  rw [slice_eq hsmall, if_pos hrange] at h
  by_cases hdescent : s.first nbits < s.descent
  . obtain ⟨k, _, hrun⟩ := loop_round hsmall hstep hrange hdescent
    have hback := hfits.resolve_left (by omega)
    have hmod_nonneg := Int.emod_nonneg (s.first nbits + 2 ^ 31) (b := s.descent) (by omega)
    obtain ⟨r, hr⟩ := Int.eq_ofNat_of_zero_le
      (a := (s.first nbits + 2 ^ 31) % s.descent + 2 ^ 31 - s.descent) (by omega)
    rw [hr] at hback
    by_cases hsame : r = f
    . have hnone : loop fuel (s.first nbits) (s.last nbits) s.increment v = none := by
        apply loop_eq_none_of_round (k := k)
        intro v
        refine ⟨v.setBit (s.first nbits).toNat, ?_⟩
        intro fuel
        rw [hrun, hr, hsame, ← hf]
      rw [hnone] at h
      contradiction
    . have hmono := loop_mono h (k + 1)
      rw [hrun, hr] at hmono
      refine ⟨r, by omega, loop_sets hback (by omega) hsmall hmono, by omega⟩
  . -- The second index is not below zero
    have hmono := loop_mono h 1
    obtain ⟨g, hg⟩ := Int.eq_ofNat_of_zero_le (a := s.first nbits - s.descent) (by omega)
    have hnext : toInt32 (s.first nbits + s.increment.toNat) = g := by
      have hsum : s.first nbits + s.increment.toNat = g + 2 ^ 32 := by omega
      rw [hsum, toInt32, Int.bmod_def]
      split <;> omega
    rw [loop_of_le hrange, hnext] at hmono
    refine ⟨g, by omega, loop_sets (by omega) (by omega) hsmall hmono, by omega⟩

theorem slice_of_fitsAny (hsmall : nbits < 2 ^ 31) {s : StatsMetricMatchIndexSlice}
    (hfits : s.FitsAny nbits) {fuel : Nat} (hfuel : sliceFuel ≤ fuel) (v : BitArray nbits)
    : ∃ v', slice fuel s v = some v' ∧
        ∀ i, v'.isBitSet i = true ↔ v.isBitSet i = true ∨ s.Selects nbits i := by
  by_cases hstep : s.step.toNat < 2 ^ 31
  . rw [StatsMetricMatchIndexSlice.fitsAny_iff_fits hstep] at hfits
    exact slice_of_fits hsmall hstep hfits hfuel v
  . rw [StatsMetricMatchIndexSlice.fitsAny_iff_fitsLong hstep] at hfits
    exact slice_of_fitsLong hsmall hstep hfits hfuel v

theorem slice_of_not_fitsAny (hsmall : nbits < 2 ^ 31) {s : StatsMetricMatchIndexSlice}
    (hfits : ¬ s.FitsAny nbits) {fuel : Nat} {v v' : BitArray nbits}
    (h : slice fuel s v = some v')
    : ∃ i < nbits, v'.isBitSet i = true ∧ ¬ s.Selects nbits i := by
  by_cases hstep : s.step.toNat < 2 ^ 31
  . rw [StatsMetricMatchIndexSlice.fitsAny_iff_fits hstep] at hfits
    exact slice_of_not_fits hsmall hstep hfits h
  . rw [StatsMetricMatchIndexSlice.fitsAny_iff_fitsLong hstep] at hfits
    exact slice_of_not_fitsLong hsmall hstep hfits h

end applyMetricFilterMatchIndices
