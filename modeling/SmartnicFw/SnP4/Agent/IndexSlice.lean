import SmartnicFw.SnP4.Agent.BitArray

/-!
This module contains the index slices of the statistics filters (`stats.cpp`): the loop that marks
the elements of a slice, which elements a slice selects and for which slices both agree.
-/

-- The last index is the field `end` of the message
structure StatsMetricMatchIndexSlice where
  start : Int32
  stop : Int32
  step : UInt32
  deriving DecidableEq, Repr

-- Conversion to `int`
def toInt32 (x : Int) : Int := Int.bmod x (2 ^ 32)

namespace applyMetricFilterMatchIndices

variable {nbits : Nat}

-- `for (auto n = start; n <= end; n += step)`: the addition wraps around. There is no result when
-- the fuel runs out.
def loop (fuel : Nat) (n stop : Int) (step : UInt32) (valid : BitArray nbits)
    : Option (BitArray nbits) :=
  match fuel with
  | 0 => none
  | fuel + 1 =>
    if n ≤ stop then
      loop fuel (toInt32 (n + step.toNat)) stop step (valid.setBit (n % 2 ^ 32).toNat)
    else
      some valid

def slice (fuel : Nat) (slice : StatsMetricMatchIndexSlice) (valid : BitArray nbits)
    : Option (BitArray nbits) :=
  let size := valid.size
  let start := slice.start.toInt
  let start :=
    if start < 0 then
      let start := toInt32 (start + size)
      if start < 0 then 0 else start
    else
      start
  if start ≥ size then
    some valid
  else
    let stop := slice.stop.toInt
    let stop := if stop < 0 then toInt32 (stop + size) else stop
    if stop < 0 then
      some valid
    else
      let stop := if stop ≥ size then toInt32 (size - 1) else stop
      if start > stop then
        some valid
      else
        -- A step of 0 is interpreted as 1
        let step := if slice.step < 1 then 1 else slice.step
        loop fuel start stop step valid

end applyMetricFilterMatchIndices

namespace StatsMetricMatchIndexSlice

def first (s : StatsMetricMatchIndexSlice) (n : Nat) : Int :=
  if s.start.toInt < 0 then max (s.start.toInt + n) 0 else s.start.toInt

def last (s : StatsMetricMatchIndexSlice) (n : Nat) : Int :=
  min (if s.stop.toInt < 0 then s.stop.toInt + n else s.stop.toInt) (n - 1)

def increment (s : StatsMetricMatchIndexSlice) : UInt32 := if s.step < 1 then 1 else s.step

-- The indices of a slice: the increment is applied from the start, not exceeding the end
def Selects (s : StatsMetricMatchIndexSlice) (n i : Nat) : Prop :=
  ∃ k : Nat, (i : Int) = s.first n + k * s.increment.toNat ∧ (i : Int) ≤ s.last n

-- The last of the selected indices
def lastSelected (s : StatsMetricMatchIndexSlice) (n : Nat) : Int :=
  s.first n + (s.last n - s.first n) / s.increment.toNat * s.increment.toNat

-- Going on from the last selected index either stays an `int`, or is past the end again when it
-- comes back from below zero
def Fits (s : StatsMetricMatchIndexSlice) (n : Nat) : Prop :=
  s.first n ≤ s.last n →
    s.lastSelected n + s.increment.toNat < 2 ^ 31 ∨
      s.last n < (s.first n - 2 ^ 32) % s.increment.toNat

end StatsMetricMatchIndexSlice

theorem toInt32_of_mem {x : Int} (hlow : -2 ^ 31 ≤ x) (hhigh : x < 2 ^ 31) : toInt32 x = x := by
  unfold toInt32
  rw [Int.bmod_def]
  split <;> omega

theorem toInt32_of_ge {x : Int} (hlow : 2 ^ 31 ≤ x) (hhigh : x < 2 ^ 32) :
    toInt32 x = x - 2 ^ 32 := by
  unfold toInt32
  rw [Int.bmod_def]
  split <;> omega

namespace applyMetricFilterMatchIndices

section Loop

variable {nbits : Nat} {stop : Int} {step : UInt32}

theorem loop_of_le {n : Int} (h : n ≤ stop) (fuel : Nat) (v : BitArray nbits)
    : loop (fuel + 1) n stop step v =
        loop fuel (toInt32 (n + step.toNat)) stop step (v.setBit (n % 2 ^ 32).toNat) := by
  rw [loop, if_pos h]

theorem loop_of_lt {n : Int} (h : stop < n) (fuel : Nat) (v : BitArray nbits)
    : loop (fuel + 1) n stop step v = some v := by
  rw [loop, if_neg (by omega)]

theorem loop_mono {fuel : Nat} {n : Int} {v v' : BitArray nbits}
    (h : loop fuel n stop step v = some v') (extra : Nat)
    : loop (fuel + extra) n stop step v = some v' := by
  induction fuel generalizing n v with
  | zero => simp [loop] at h
  | succ fuel ih =>
    rw [Nat.add_right_comm]
    by_cases hn : n ≤ stop
    . rw [loop_of_le hn] at h ⊢
      exact ih h
    . rw [loop_of_lt (by omega)] at h ⊢
      exact h

-- The loop never clears a bit
theorem loop_keeps {fuel : Nat} {n : Int} {v v' : BitArray nbits}
    (h : loop fuel n stop step v = some v') {i : Nat} (hi : v.isBitSet i = true)
    : v'.isBitSet i = true := by
  induction fuel generalizing n v with
  | zero => simp [loop] at h
  | succ fuel ih =>
    by_cases hn : n ≤ stop
    . rw [loop_of_le hn] at h
      exact ih h (by simp [hi])
    . rw [loop_of_lt (by omega)] at h
      cases h
      exact hi

theorem loop_sets {fuel : Nat} {n : Nat} {v v' : BitArray nbits} (hn : (n : Int) ≤ stop)
    (hbits : n < nbits) (hsmall : nbits < 2 ^ 31) (h : loop fuel n stop step v = some v')
    : v'.isBitSet n = true := by
  cases fuel with
  | zero => simp [loop] at h
  | succ fuel =>
    rw [loop_of_le hn] at h
    apply loop_keeps h
    have hmod : ((n : Int) % 2 ^ 32).toNat = n := by omega
    rw [BitArray.isBitSet_setBit, hmod]
    simp [hbits]

-- Climbing from an index that is not negative, up to the first one past the end
theorem loop_climb (hstop : stop < nbits) (hsmall : nbits < 2 ^ 31) (hstep : step.toNat < 2 ^ 31)
    (k : Nat) {n : Nat} (hk : (n : Int) + k * step.toNat ≤ stop)
    (hk' : stop < (n : Int) + (k + 1) * step.toNat) (v : BitArray nbits)
    : ∃ v', (∀ fuel, loop (fuel + (k + 1)) n stop step v =
          loop fuel (toInt32 (n + (k + 1) * step.toNat)) stop step v') ∧
        ∀ i, v'.isBitSet i = true ↔
          v.isBitSet i = true ∨ ∃ j ≤ k, i = n + j * step.toNat := by
  have hmod : ((n : Int) % 2 ^ 32).toNat = n := by
    have : (0 : Int) ≤ k * step.toNat := by positivity
    omega
  induction k generalizing n v with
  | zero =>
    refine ⟨v.setBit n, ?_, ?_⟩
    . intro fuel
      rw [Nat.zero_add, loop_of_le (by simpa using hk), hmod]
      simp
    . intro i
      have hn : n < nbits := by omega
      simp only [BitArray.isBitSet_setBit, Bool.or_eq_true, Bool.and_eq_true, decide_eq_true_eq]
      constructor
      . rintro (hi | ⟨hi, _⟩)
        . exact .inl hi
        . exact .inr ⟨0, le_refl 0, by omega⟩
      . rintro (hi | ⟨j, hj, hi⟩)
        . exact .inl hi
        . obtain rfl : j = 0 := by omega
          exact .inr (by omega)
  | succ k ih =>
    have hmul : ((k + 1 : Nat) : Int) * step.toNat = k * step.toNat + step.toNat := by
      push_cast
      ring
    have hpos : (0 : Int) ≤ k * step.toNat := by positivity
    have hnext : ((n + step.toNat : Nat) : Int) = n + step.toNat := by push_cast; rfl
    have hn : n < nbits := by omega
    obtain ⟨v', hrun, hbits⟩ := ih (n := n + step.toNat) (by rw [hnext]; omega)
      (by rw [hnext]; push_cast at hk'; linarith) (v.setBit n) (by omega)
    refine ⟨v', ?_, ?_⟩
    . intro fuel
      rw [← Nat.add_assoc, loop_of_le (by omega), hmod]
      rw [toInt32_of_mem (by omega) (by omega), ← hnext, hrun, hnext]
      congr 2
      push_cast
      ring
    . intro i
      rw [hbits i]
      simp only [BitArray.isBitSet_setBit, Bool.or_eq_true, Bool.and_eq_true, decide_eq_true_eq]
      constructor
      . rintro ((hi | ⟨hi, _⟩) | ⟨j, hj, hi⟩)
        . exact .inl hi
        . exact .inr ⟨0, by omega, by omega⟩
        . exact .inr ⟨j + 1, by omega, by rw [hi]; ring⟩
      . rintro (hi | ⟨j, hj, hi⟩)
        . exact .inl (.inl hi)
        . cases j with
          | zero => exact .inl (.inr (by omega))
          | succ j => exact .inr ⟨j, by omega, by rw [hi]; ring⟩

-- Climbing from below zero: there is no element to mark at a negative index
theorem loop_return (hstop : 0 ≤ stop) (hsmall : nbits < 2 ^ 31) (hstep : step.toNat < 2 ^ 31)
    (k : Nat) {n : Int} (hlow : -2 ^ 31 ≤ n) (hneg : ∀ j < k, n + j * step.toNat < 0)
    (v : BitArray nbits) (fuel : Nat)
    : loop (fuel + k) n stop step v = loop fuel (n + k * step.toNat) stop step v := by
  induction k generalizing n with
  | zero => simp
  | succ k ih =>
    have hn : n < 0 := by simpa using hneg 0 (by omega)
    have hset : v.setBit (n % 2 ^ 32).toNat = v := by
      have hge : ¬ (n % 2 ^ 32).toNat < nbits := by omega
      rw [BitArray.setBit, dif_neg hge]
    rw [← Nat.add_assoc, loop_of_le (by omega), hset, toInt32_of_mem (by omega) (by omega)]
    rw [ih (by omega)]
    . congr 1
      push_cast
      ring
    . intro j hj
      have hlt := hneg (j + 1) (by omega)
      push_cast at hlt
      linarith

-- The first index that is not negative again, and how often the increment is added on the way
theorem exists_return {t : Nat} (ht : 0 < t) {n : Int} (hneg : n < 0)
    : ∃ k : Nat, n + k * t = n % t ∧ (∀ j < k, n + j * (t : Int) < 0) ∧ (k : Int) ≤ -n := by
  have hmod := Int.emod_nonneg n (b := t) (by omega)
  have hlt := Int.emod_lt_of_pos n (b := t) (by omega)
  have hdiv := Int.mul_ediv_add_emod n t
  have hquot : n / (t : Int) < 0 := Int.ediv_neg_of_neg_of_pos hneg (by omega)
  obtain ⟨k, hk⟩ := Int.eq_ofNat_of_zero_le (a := -(n / (t : Int))) (by omega)
  have hmul : (k : Int) * t = -(t * (n / t)) := by
    rw [← hk]
    ring
  refine ⟨k, by omega, ?_, ?_⟩
  . intro j hj
    have hle : ((j + 1 : Nat) : Int) * t ≤ k * t := by
      apply Int.mul_le_mul_of_nonneg_right (by omega) (by omega)
    push_cast at hle
    linarith
  . have hone : 1 ≤ (k : Int) := by omega
    have hge : ((k : Int) - 1) * 1 ≤ (k - 1) * t :=
      Int.mul_le_mul_of_nonneg_left (by omega) (by omega)
    have hsub : ((k : Int) - 1) * t = k * t - t := by ring
    omega

-- From the increment past the last index on, the loop comes back to the least index of its residue
theorem loop_wrap (hstop : 0 ≤ stop) (hsmall : nbits < 2 ^ 31) (hpos : 0 < step.toNat)
    (hstep : step.toNat < 2 ^ 31) {n : Int} (hlow : 2 ^ 31 ≤ n) (hhigh : n < 2 ^ 32)
    (v : BitArray nbits)
    : ∃ k ≤ 2 ^ 31, ∀ fuel, loop (fuel + k) (toInt32 n) stop step v =
        loop fuel ((n - 2 ^ 32) % step.toNat) stop step v := by
  rw [toInt32_of_ge hlow hhigh]
  obtain ⟨k, hk, hneg, hle⟩ := exists_return hpos (n := n - 2 ^ 32) (by omega)
  refine ⟨k, by omega, ?_⟩
  intro fuel
  rw [loop_return hstop hsmall hstep k (by omega) hneg, hk]

end Loop

end applyMetricFilterMatchIndices

namespace StatsMetricMatchIndexSlice

variable {s : StatsMetricMatchIndexSlice} {n : Nat}

theorem first_nonneg (s : StatsMetricMatchIndexSlice) (n : Nat) : 0 ≤ s.first n := by
  unfold first
  split <;> omega

theorem last_lt (s : StatsMetricMatchIndexSlice) (n : Nat) : s.last n < n := by
  unfold last
  omega

theorem increment_pos (s : StatsMetricMatchIndexSlice) : 0 < s.increment.toNat := by
  unfold increment
  split
  . decide
  . next h =>
    rw [UInt32.lt_iff_toNat_lt, UInt32.toNat_one] at h
    omega

theorem increment_lt (h : s.step.toNat < 2 ^ 31) : s.increment.toNat < 2 ^ 31 := by
  unfold increment
  split
  . decide
  . exact h

-- The quotient that `lastSelected` is made of counts the increments up to the last index
theorem lastSelected_le (s : StatsMetricMatchIndexSlice) (n : Nat)
    : s.lastSelected n ≤ s.last n ∧ s.last n < s.lastSelected n + s.increment.toNat := by
  have hpos := s.increment_pos
  have hdiv := Int.mul_ediv_add_emod (s.last n - s.first n) s.increment.toNat
  have hmod := Int.emod_nonneg (s.last n - s.first n) (b := s.increment.toNat) (by omega)
  have hlt := Int.emod_lt_of_pos (s.last n - s.first n) (b := s.increment.toNat) (by omega)
  rw [Int.mul_comm] at hdiv
  unfold lastSelected
  omega

theorem not_selects_of_lt (h : s.last n < s.first n) (i : Nat) : ¬ s.Selects n i := by
  rintro ⟨k, hi, hle⟩
  have : (0 : Int) ≤ k * s.increment.toNat := by positivity
  omega

end StatsMetricMatchIndexSlice

namespace applyMetricFilterMatchIndices

variable {nbits : Nat}

-- The bounds that the code computes are the first and the last index
theorem slice_eq (hsmall : nbits < 2 ^ 31) (fuel : Nat) (s : StatsMetricMatchIndexSlice)
    (v : BitArray nbits)
    : slice fuel s v =
        if s.first nbits ≤ s.last nbits then
          loop fuel (s.first nbits) (s.last nbits) s.increment v
        else
          some v := by
  have hpos := v.nbits_pos
  have hstart := s.start.le_toInt
  have hstart' := s.start.toInt_lt
  have hstop := s.stop.le_toInt
  have hstop' := s.stop.toInt_lt
  have hsize : (v.size : Int) = nbits := rfl
  have hfirst : (if s.start.toInt < 0 then
      if toInt32 (s.start.toInt + nbits) < 0 then 0 else toInt32 (s.start.toInt + nbits)
    else
      s.start.toInt) = s.first nbits := by
    unfold StatsMetricMatchIndexSlice.first
    split
    . rw [toInt32_of_mem (by omega) (by omega)]
      split <;> omega
    . rfl
  have hlast : (if s.stop.toInt < 0 then toInt32 (s.stop.toInt + nbits) else s.stop.toInt) =
      (if s.stop.toInt < 0 then s.stop.toInt + nbits else s.stop.toInt) := by
    split
    . rw [toInt32_of_mem (by omega) (by omega)]
    . rfl
  have hmin : (if (if s.stop.toInt < 0 then s.stop.toInt + nbits else s.stop.toInt) ≥ (nbits : Int)
      then (nbits : Int) - 1
      else (if s.stop.toInt < 0 then s.stop.toInt + nbits else s.stop.toInt)) =
        s.last nbits := by
    unfold StatsMetricMatchIndexSlice.last
    split <;> omega
  have hle : s.last nbits ≤ if s.stop.toInt < 0 then s.stop.toInt + nbits else s.stop.toInt :=
    min_le_left _ _
  have hfirst_nonneg := s.first_nonneg nbits
  have hlast_lt := s.last_lt nbits
  unfold slice
  dsimp only
  rw [hsize, hfirst, hlast, toInt32_of_mem (x := nbits - 1) (by omega) (by omega), hmin]
  by_cases hrange : s.first nbits ≤ s.last nbits
  . rw [if_neg (by omega), if_neg (by omega), if_neg (by omega), if_pos hrange]
    rfl
  . rw [if_neg hrange, if_pos (show s.first nbits > s.last nbits by omega)]
    simp only [ite_self]

-- More than the loop can need for any slice
def sliceFuel : Nat := 2 ^ 33

-- The climb over a slice marks the elements it selects
theorem loop_slice (hsmall : nbits < 2 ^ 31) {s : StatsMetricMatchIndexSlice}
    (hstep : s.step.toNat < 2 ^ 31) (hrange : s.first nbits ≤ s.last nbits) (v : BitArray nbits)
    : ∃ v' k, k ≤ 2 ^ 31 ∧
        (∀ fuel, loop (fuel + k) (s.first nbits) (s.last nbits) s.increment v =
          loop fuel (toInt32 (s.lastSelected nbits + s.increment.toNat)) (s.last nbits)
            s.increment v') ∧
        ∀ i, v'.isBitSet i = true ↔ v.isBitSet i = true ∨ s.Selects nbits i := by
  have hlast_lt := s.last_lt nbits
  have hpos := s.increment_pos
  obtain ⟨hle, hlt⟩ := s.lastSelected_le nbits
  obtain ⟨n, hn⟩ := Int.eq_ofNat_of_zero_le (s.first_nonneg nbits)
  obtain ⟨k, hk⟩ := Int.eq_ofNat_of_zero_le
    (Int.ediv_nonneg (a := s.last nbits - s.first nbits) (b := s.increment.toNat) (by omega)
      (by omega))
  have hlastSelected : s.lastSelected nbits = n + k * s.increment.toNat := by
    rw [StatsMetricMatchIndexSlice.lastSelected, hk, hn]
  have hnext : s.lastSelected nbits + s.increment.toNat = n + (k + 1) * s.increment.toNat := by
    rw [hlastSelected]
    ring
  have hkle : (k : Int) * 1 ≤ k * s.increment.toNat :=
    Int.mul_le_mul_of_nonneg_left (by omega) (by omega)
  obtain ⟨v', hrun, hbits⟩ := loop_climb hlast_lt hsmall (s.increment_lt hstep) k
    (n := n) (by omega) (by omega) v
  refine ⟨v', k + 1, by omega, ?_, ?_⟩
  . intro fuel
    rw [hn, hnext]
    exact hrun fuel
  . intro i
    rw [hbits i]
    apply or_congr_right
    constructor
    . rintro ⟨j, hj, rfl⟩
      have hmul : (j : Int) * s.increment.toNat ≤ k * s.increment.toNat :=
        Int.mul_le_mul_of_nonneg_right (by omega) (by omega)
      refine ⟨j, by rw [hn]; push_cast; rfl, ?_⟩
      push_cast
      omega
    . rintro ⟨j, hi, hile⟩
      rw [hn] at hi
      refine ⟨j, ?_, by exact_mod_cast hi⟩
      by_contra hj
      have hmul : ((k + 1 : Nat) : Int) * s.increment.toNat ≤ j * s.increment.toNat :=
        Int.mul_le_mul_of_nonneg_right (by omega) (by omega)
      push_cast at hmul
      omega

theorem residue_eq (s : StatsMetricMatchIndexSlice) (n : Nat)
    : (s.lastSelected n + s.increment.toNat - 2 ^ 32) % s.increment.toNat =
        (s.first n - 2 ^ 32) % s.increment.toNat := by
  have hsum : s.lastSelected n + s.increment.toNat - 2 ^ 32 =
      (s.first n - 2 ^ 32) +
        ((s.last n - s.first n) / s.increment.toNat + 1) * s.increment.toNat := by
    rw [StatsMetricMatchIndexSlice.lastSelected]
    ring
  rw [hsum, Int.add_mul_emod_self_right]

-- When the addition past the end wraps around, the loop goes on at the least index of the residue
theorem loop_slice_wrap (hsmall : nbits < 2 ^ 31) {s : StatsMetricMatchIndexSlice}
    (hstep : s.step.toNat < 2 ^ 31) (hrange : s.first nbits ≤ s.last nbits)
    (hwrap : 2 ^ 31 ≤ s.lastSelected nbits + s.increment.toNat) (v : BitArray nbits)
    : ∃ v' k, k ≤ 2 ^ 32 ∧
        (∀ fuel, loop (fuel + k) (s.first nbits) (s.last nbits) s.increment v =
          loop fuel ((s.first nbits - 2 ^ 32) % s.increment.toNat) (s.last nbits)
            s.increment v') ∧
        ∀ i, v'.isBitSet i = true ↔ v.isBitSet i = true ∨ s.Selects nbits i := by
  have hlast_lt := s.last_lt nbits
  have hfirst_nonneg := s.first_nonneg nbits
  have hinc := s.increment_lt hstep
  obtain ⟨hle, hlt⟩ := s.lastSelected_le nbits
  obtain ⟨v', k, hk, hrun, hbits⟩ := loop_slice hsmall hstep hrange v
  obtain ⟨j, hj, hwraps⟩ := loop_wrap (show 0 ≤ s.last nbits by omega) hsmall
    s.increment_pos hinc hwrap (by omega) v'
  refine ⟨v', j + k, by omega, ?_, hbits⟩
  intro fuel
  rw [← Nat.add_assoc, hrun, hwraps, residue_eq]

-- A slice that fits marks the elements it selects
theorem slice_of_fits (hsmall : nbits < 2 ^ 31) {s : StatsMetricMatchIndexSlice}
    (hstep : s.step.toNat < 2 ^ 31) (hfits : s.Fits nbits) {fuel : Nat} (hfuel : sliceFuel ≤ fuel)
    (v : BitArray nbits)
    : ∃ v', slice fuel s v = some v' ∧
        ∀ i, v'.isBitSet i = true ↔ v.isBitSet i = true ∨ s.Selects nbits i := by
  unfold sliceFuel at hfuel
  rw [slice_eq hsmall]
  by_cases hrange : s.first nbits ≤ s.last nbits
  . rw [if_pos hrange]
    by_cases hwrap : 2 ^ 31 ≤ s.lastSelected nbits + s.increment.toNat
    . obtain ⟨v', k, hk, hrun, hbits⟩ := loop_slice_wrap hsmall hstep hrange hwrap v
      have hpast : s.last nbits < (s.first nbits - 2 ^ 32) % s.increment.toNat := by
        rcases hfits hrange with h | h
        . omega
        . exact h
      obtain ⟨rest, rfl⟩ : ∃ rest, fuel = rest + 1 + k := ⟨fuel - k - 1, by omega⟩
      refine ⟨v', ?_, hbits⟩
      rw [hrun, loop_of_lt hpast]
    . obtain ⟨v', k, hk, hrun, hbits⟩ := loop_slice hsmall hstep hrange v
      have hfirst_nonneg := s.first_nonneg nbits
      obtain ⟨hle, hlt⟩ := s.lastSelected_le nbits
      obtain ⟨rest, rfl⟩ : ∃ rest, fuel = rest + 1 + k := ⟨fuel - k - 1, by omega⟩
      refine ⟨v', ?_, hbits⟩
      rw [hrun, toInt32_of_mem (by omega) (by omega), loop_of_lt hlt]
  . rw [if_neg hrange]
    refine ⟨v, rfl, ?_⟩
    intro i
    simp [StatsMetricMatchIndexSlice.not_selects_of_lt (by omega : s.last nbits < s.first nbits)]

-- The indices from which the loop goes round forever, when the increment divides the 32-bit range
theorem loop_eq_none {s : StatsMetricMatchIndexSlice} (hsmall : nbits < 2 ^ 31)
    (hstep : s.step.toNat < 2 ^ 31)
    (hwrap : 2 ^ 31 ≤ s.lastSelected nbits + s.increment.toNat)
    (hdvd : (s.increment.toNat : Int) ∣ 2 ^ 32) (fuel : Nat) {n : Int} (hlow : -2 ^ 31 ≤ n) (hle : n ≤ s.last nbits)
    (hres : (s.increment.toNat : Int) ∣ n - s.first nbits) (v : BitArray nbits)
    : loop fuel n (s.last nbits) s.increment v = none := by
  induction fuel generalizing n v with
  | zero => rfl
  | succ fuel ih =>
    have hlast_lt := s.last_lt nbits
    have hfirst_nonneg := s.first_nonneg nbits
    have hinc := s.increment_lt hstep
    have hpos := s.increment_pos
    have hself : (s.increment.toNat : Int) ∣ s.increment.toNat := dvd_refl _
    rw [loop_of_le hle]
    by_cases hover : 2 ^ 31 ≤ n + s.increment.toNat
    . rw [toInt32_of_ge hover (by omega)]
      apply ih (by omega) (by omega)
      have hsum : n + s.increment.toNat - 2 ^ 32 - s.first nbits =
          (n - s.first nbits) + s.increment.toNat - 2 ^ 32 := by ring
      rw [hsum]
      exact (hres.add hself).sub hdvd
    . rw [toInt32_of_mem (by omega) (by omega)]
      have hres' : (s.increment.toNat : Int) ∣ n + s.increment.toNat - s.first nbits := by
        have hsum : n + s.increment.toNat - s.first nbits =
            (n - s.first nbits) + s.increment.toNat := by ring
        rw [hsum]
        exact hres.add hself
      apply ih (by omega) _ hres'
      -- The next index stays within the end: it is below zero, or the first index, or between them
      by_contra hpast
      obtain ⟨hsel, hsel'⟩ := s.lastSelected_le nbits
      obtain ⟨q, hq⟩ := hres
      have hlastSelected : s.lastSelected nbits = s.first nbits +
          (s.last nbits - s.first nbits) / s.increment.toNat * s.increment.toNat := rfl
      rw [Int.mul_comm] at hq
      have hquot : (s.last nbits - s.first nbits) / s.increment.toNat = q := by
        have hge : q ≤ (s.last nbits - s.first nbits) / s.increment.toNat :=
          (Int.le_ediv_iff_mul_le (by omega)).mpr (by omega)
        have hlt : (s.last nbits - s.first nbits) / s.increment.toNat < q + 1 :=
          (Int.ediv_lt_iff_lt_mul (by omega)).mpr (by rw [Int.add_mul]; omega)
        omega
      rw [hquot] at hlastSelected
      omega

-- A slice that does not fit goes on forever, or marks an element it does not select
theorem slice_of_not_fits (hsmall : nbits < 2 ^ 31) {s : StatsMetricMatchIndexSlice}
    (hstep : s.step.toNat < 2 ^ 31) (hfits : ¬ s.Fits nbits) {fuel : Nat} {v v' : BitArray nbits}
    (h : slice fuel s v = some v')
    : ∃ i < nbits, v'.isBitSet i = true ∧ ¬ s.Selects nbits i := by
  have hlast_lt := s.last_lt nbits
  have hfirst_nonneg := s.first_nonneg nbits
  have hpos := s.increment_pos
  simp only [StatsMetricMatchIndexSlice.Fits, Classical.not_imp, not_or, not_lt] at hfits
  obtain ⟨hrange, hwrap, hback⟩ := hfits
  rw [slice_eq hsmall, if_pos hrange] at h
  have hres_nonneg := Int.emod_nonneg (s.first nbits - 2 ^ 32) (b := s.increment.toNat) (by omega)
  have hres_lt := Int.emod_lt_of_pos (s.first nbits - 2 ^ 32) (b := s.increment.toNat) (by omega)
  obtain ⟨r, hr⟩ := Int.eq_ofNat_of_zero_le hres_nonneg
  rw [hr] at hback hres_lt
  refine ⟨r, by omega, ?_, ?_⟩
  . obtain ⟨v'', k, _, hrun, _⟩ := loop_slice_wrap hsmall hstep hrange hwrap v
    have hmono := loop_mono h k
    rw [hrun, hr] at hmono
    exact loop_sets hback (by omega) hsmall hmono
  . -- Otherwise the loop is back where it started
    rintro ⟨k, hsel, _⟩
    have hk : k = 0 := by
      by_contra hne
      have hmul : (1 : Int) * s.increment.toNat ≤ k * s.increment.toNat :=
        Int.mul_le_mul_of_nonneg_right (by omega) (by omega)
      omega
    subst hk
    have hfirst : s.first nbits = r := by simpa using hsel.symm
    have hdvd : (s.increment.toNat : Int) ∣ 2 ^ 32 := by
      have hsub := Int.dvd_self_sub_emod (x := s.first nbits - 2 ^ 32) (m := s.increment.toNat)
      rw [hr, hfirst] at hsub
      have hneg : (r : Int) - 2 ^ 32 - r = -(2 ^ 32) := by ring
      rw [hneg] at hsub
      exact (dvd_neg.mp hsub)
    have hnone := loop_eq_none hsmall hstep hwrap hdvd fuel (n := s.first nbits) (by omega)
      hrange (by simp) v
    rw [hnone] at h
    contradiction

end applyMetricFilterMatchIndices
