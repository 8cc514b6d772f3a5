import SmartnicFw.SnP4.Agent.ClearStats
import SmartnicFw.SnP4.Agent.SliceOrbit

/-!
This module contains which elements of an array of any size the index slices of a filter mark
(`stats.cpp`), compared with the ones that they select.
-/

theorem toInt32_range (x : Int) : -2 ^ 31 ≤ toInt32 x ∧ toInt32 x < 2 ^ 31 := by
  have hlow := Int.le_bmod (x := x) (m := 2 ^ 32) (by decide)
  have hhigh := Int.bmod_lt (x := x) (m := 2 ^ 32) (by decide)
  unfold toInt32
  omega

namespace StatsMetricMatchIndexSlice

-- The bounds as they are when they are computed with `int`s
def intFirst (s : StatsMetricMatchIndexSlice) (n : Nat) : Int :=
  if s.start.toInt < 0 then max (toInt32 (s.start.toInt + n)) 0 else s.start.toInt

def intLast (s : StatsMetricMatchIndexSlice) (n : Nat) : Int :=
  min (if s.stop.toInt < 0 then toInt32 (s.stop.toInt + n) else s.stop.toInt) (n - 1)

-- The bounds are right, and so is what the loop does after the last selected index: the next index is
-- an `int` past the end, or the loop passes only indices that are not elements until it is past the
-- end again
def Stays (s : StatsMetricMatchIndexSlice) (n : Nat) : Prop :=
  let first := (s.first n).toNat
  let last := (s.last n).toNat
  let step := s.increment.toNat
  let next := applyMetricFilterMatchIndices.next first step last
  if step < 2 ^ 31 then
    next < 2 ^ 31 ∨ n ≤ next ∧ (last : Int) < ((first : Int) - 2 ^ 32) % step
  else
    first < 2 ^ 32 - step ∧ n ≤ 2 ^ 31 + (first + 2 ^ 31) % (2 ^ 32 - step) ∧
      last + (2 ^ 32 - step) < 2 ^ 31 + (first + 2 ^ 31) % (2 ^ 32 - step)

-- The end is right but for its upper half, and the loop gets there all the same
def Wraps (s : StatsMetricMatchIndexSlice) (n : Nat) : Prop :=
  let first := (s.first n).toNat
  let last := (s.last n).toNat
  let stop := (s.intLast n).toNat
  let step := s.increment.toNat
  last = stop + 2 ^ 32 ∧ 2 ^ 31 ≤ applyMetricFilterMatchIndices.next first step stop ∧
    applyMetricFilterMatchIndices.next first step last < 2 ^ 32 + step ∧
    applyMetricFilterMatchIndices.next first step last < 2 ^ 32 + 2 ^ 31

-- Whether a slice selects with `int`s what it selects
def FitsInt (s : StatsMetricMatchIndexSlice) (n : Nat) : Prop :=
  if s.intFirst n ≤ s.intLast n then
    s.intFirst n = s.first n ∧ if s.intLast n = s.last n then s.Stays n else s.Wraps n
  else
    s.last n < s.first n

variable (s : StatsMetricMatchIndexSlice) (n : Nat)

theorem intFirst_range : 0 ≤ s.intFirst n ∧ s.intFirst n < 2 ^ 31 := by
  have hrange := toInt32_range (s.start.toInt + n)
  have hlt := s.start.toInt_lt
  unfold intFirst
  split <;> omega

theorem intLast_range : s.intLast n < 2 ^ 31 ∧ s.intLast n < n := by
  have hrange := toInt32_range (s.stop.toInt + n)
  have hlt := s.stop.toInt_lt
  unfold intLast
  split <;> omega

theorem increment_eq : s.increment.toNat = max s.step.toNat 1 := by
  unfold increment
  split
  . next h =>
    rw [UInt32.lt_iff_toNat_lt, UInt32.toNat_one] at h
    have hone : UInt32.toNat 1 = 1 := rfl
    omega
  . next h =>
    rw [UInt32.lt_iff_toNat_lt, UInt32.toNat_one] at h
    omega

-- The indices from the first to the last one that are a multiple of the increment away from the first
theorem selects_iff_emod (i : Nat)
    : s.Selects n i ↔ s.first n ≤ i ∧ (i : Int) ≤ s.last n ∧
        ((i : Int) - s.first n) % (max s.step.toNat 1 : Nat) = 0 := by
  rw [← increment_eq]
  unfold Selects
  constructor
  . rintro ⟨k, hi, hle⟩
    have hnonneg : (0 : Int) ≤ k * s.increment.toNat := by positivity
    refine ⟨by omega, hle, ?_⟩
    rw [hi, add_sub_cancel_left, Int.mul_emod_left]
  . rintro ⟨hge, hle, hmod⟩
    obtain ⟨k, hk⟩ := Int.dvd_of_emod_eq_zero hmod
    have hpos := s.increment_pos
    have hk_nonneg : 0 ≤ k := by
      by_contra hneg
      have hlt := Int.mul_neg_of_pos_of_neg (show (0 : Int) < s.increment.toNat by omega)
        (show k < 0 by omega)
      omega
    obtain ⟨j, rfl⟩ := Int.eq_ofNat_of_zero_le hk_nonneg
    refine ⟨j, ?_, hle⟩
    rw [Int.mul_comm] at hk
    omega

-- A start that is not what it is meant to be is before all selected indices
theorem intFirst_eq_or : s.intFirst n = s.first n ∨ 2 ^ 31 ≤ s.first n := by
  have hge := s.start.le_toInt
  unfold intFirst first
  split
  . by_cases hlt : s.start.toInt + n < 2 ^ 31
    . rw [toInt32_of_mem (by omega) hlt]
      exact .inl rfl
    . right
      omega
  . exact .inl rfl

theorem intLast_eq_or
    : s.intLast n = s.last n ∨ ∃ c : Nat, 0 < c ∧ s.last n = s.intLast n + c * 2 ^ 32 := by
  have hge := s.stop.le_toInt
  unfold intLast last
  split
  . by_cases hlt : s.stop.toInt + n < 2 ^ 31
    . rw [toInt32_of_mem (by omega) hlt]
      exact .inl rfl
    . right
      have hrange := toInt32_range (s.stop.toInt + n)
      obtain ⟨c, hc⟩ := Int.dvd_self_sub_bmod (x := s.stop.toInt + n) (m := 2 ^ 32)
      change s.stop.toInt + n - toInt32 (s.stop.toInt + n) = _ at hc
      push_cast at hc
      refine ⟨c.toNat, by omega, ?_⟩
      omega
  . exact .inl rfl

end StatsMetricMatchIndexSlice

namespace applyMetricFilterMatchIndices

variable {nbits : Nat}

theorem slice_eq_int (fuel : Nat) (s : StatsMetricMatchIndexSlice) (v : BitArray nbits)
    : slice fuel s v =
        if s.intFirst nbits ≤ s.intLast nbits then
          loop fuel (s.intFirst nbits) (s.intLast nbits) s.increment v
        else
          some v := by
  have hpos := v.nbits_pos
  have hsize : (v.size : Int) = nbits := rfl
  have hfirst : (if s.start.toInt < 0 then
      if toInt32 (s.start.toInt + nbits) < 0 then 0 else toInt32 (s.start.toInt + nbits)
    else
      s.start.toInt) = s.intFirst nbits := by
    unfold StatsMetricMatchIndexSlice.intFirst
    split
    . split <;> omega
    . rfl
  have hfirst_range := s.intFirst_range nbits
  have hlast_lt := s.intLast_range nbits
  have hstop : (if s.stop.toInt < 0 then toInt32 (s.stop.toInt + nbits) else s.stop.toInt) <
      2 ^ 31 := by
    have hrange := toInt32_range (s.stop.toInt + nbits)
    have hlt := s.stop.toInt_lt
    split <;> omega
  have hlast : s.intLast nbits =
      min (if s.stop.toInt < 0 then toInt32 (s.stop.toInt + nbits) else s.stop.toInt)
        (nbits - 1) := rfl
  unfold slice
  dsimp only
  rw [hsize, hfirst]
  generalize (if s.stop.toInt < 0 then toInt32 (s.stop.toInt + nbits) else s.stop.toInt) = stop at *
  have hclamp : (if stop ≥ (nbits : Int) then toInt32 (nbits - 1) else stop) = s.intLast nbits := by
    split
    . rw [toInt32_of_mem (by omega) (by omega)]
      omega
    . omega
  rw [hclamp]
  by_cases hrange : s.intFirst nbits ≤ s.intLast nbits
  . rw [if_neg (by omega), if_neg (by omega), if_neg (by omega), if_pos hrange]
    rfl
  . rw [if_neg hrange, if_pos (show s.intFirst nbits > s.intLast nbits by omega)]
    simp only [ite_self]

theorem slice_mono {fuel : Nat} {s : StatsMetricMatchIndexSlice} {v v' : BitArray nbits}
    (h : slice fuel s v = some v') (extra : Nat)
    : slice (fuel + extra) s v = some v' := by
  rw [slice_eq_int] at h ⊢
  split at h
  . next hrange =>
    rw [if_pos hrange]
    exact loop_mono h extra
  . next hrange =>
    rw [if_neg hrange]
    exact h

section Fits

variable {s : StatsMetricMatchIndexSlice}

theorem selects_iff_selected (hfirst : 0 ≤ s.first nbits) (hlast : 0 ≤ s.last nbits) {i : Nat}
    : s.Selects nbits i ↔
        Selected (s.first nbits).toNat s.increment.toNat (s.last nbits).toNat i := by
  unfold StatsMetricMatchIndexSlice.Selects Selected
  apply exists_congr
  intro k
  have hcast : (((s.first nbits).toNat + k * s.increment.toNat : Nat) : Int) =
      s.first nbits + k * s.increment.toNat := by
    push_cast
    omega
  constructor
  . rintro ⟨hi, hle⟩
    exact ⟨by omega, by omega⟩
  . rintro ⟨rfl, hle⟩
    exact ⟨hcast, by omega⟩

-- The first index that the loop comes to is marked
theorem first_of_covers {first step stop : Nat} {p : Nat → Prop} (hle : first ≤ stop)
    (hstop : stop < 2 ^ 31) (hsize : first < nbits) (h : Covers nbits first step stop p)
    : p first := by
  obtain ⟨count, -, hends, hp⟩ := h
  have hzero : orbit first step 0 = first := by
    rw [orbit_of_lt (by omega)]
    omega
  apply (hp first hsize).mpr
  refine ⟨0, ?_, hzero⟩
  apply Nat.pos_of_ne_zero
  rintro rfl
  rw [hzero] at hends
  unfold Ends at hends
  omega

theorem covers_iff_fitsInt (hrange : s.intFirst nbits ≤ s.intLast nbits)
    : Covers nbits (s.intFirst nbits).toNat s.increment.toNat (s.intLast nbits).toNat
        (s.Selects nbits) ↔ s.FitsInt nbits := by
  have hfirst_range := s.intFirst_range nbits
  have hlast_range := s.intLast_range nbits
  have hpos := s.increment_pos
  have hstep : s.increment.toNat < 2 ^ 32 := s.increment.toNat_lt
  unfold StatsMetricMatchIndexSlice.FitsInt
  rw [if_pos hrange]
  by_cases hfirst : s.intFirst nbits = s.first nbits
  . simp only [hfirst, true_and]
    have hselects : s.Selects nbits =
        Selected (s.first nbits).toNat s.increment.toNat (s.last nbits).toNat := by
      funext i
      apply propext
      apply selects_iff_selected
      . omega
      . rcases s.intLast_eq_or nbits with hlast | ⟨c, _, hlast⟩ <;> omega
    rw [hselects]
    by_cases hlast : s.intLast nbits = s.last nbits
    . rw [if_pos hlast, hlast]
      unfold StatsMetricMatchIndexSlice.Stays
      by_cases hshort : s.increment.toNat < 2 ^ 31
      . simp only [hshort, if_true]
        exact covers_short_iff hpos hshort (by omega) (by omega) (by omega)
      . simp only [hshort, if_false]
        exact covers_long_iff (by omega) hstep (by omega) (by omega) (by omega)
    . rw [if_neg hlast]
      obtain ⟨c, hc, hwrap⟩ := (s.intLast_eq_or nbits).resolve_left hlast
      have hlt := s.last_lt nbits
      exact covers_wrapped_iff hpos hstep (by omega) (by omega) hc (by omega) (by omega)
  . simp only [hfirst, false_and, iff_false]
    intro hcovers
    obtain ⟨k, hk, _⟩ := first_of_covers (by omega) (by omega) (by omega) hcovers
    have hfar := (s.intFirst_eq_or nbits).resolve_left hfirst
    have hnonneg : (0 : Int) ≤ k * s.increment.toNat := by positivity
    omega

-- The loop of a slice, on its orbit
theorem slice_eq_orbit (hrange : s.intFirst nbits ≤ s.intLast nbits) (fuel : Nat)
    (v : BitArray nbits)
    : slice fuel s v =
        loop fuel (toInt32 (orbit (s.intFirst nbits).toNat s.increment.toNat 0))
          (s.intLast nbits).toNat s.increment v := by
  have hfirst_range := s.intFirst_range nbits
  have hlast_range := s.intLast_range nbits
  have hfirst : toInt32 (orbit (s.intFirst nbits).toNat s.increment.toNat 0) =
      s.intFirst nbits := by
    rw [orbit_of_lt (by omega), toInt32_of_mem (by omega) (by omega)]
    omega
  have hlast : ((s.intLast nbits).toNat : Int) = s.intLast nbits := by omega
  rw [slice_eq_int, if_pos hrange, hfirst, hlast]

theorem slice_of_fitsInt (h : s.FitsInt nbits) (v : BitArray nbits)
    : ∃ fuel v', slice fuel s v = some v' ∧
        ∀ i < nbits, v'.isBitSet i = true ↔ v.isBitSet i = true ∨ s.Selects nbits i := by
  have hfirst_range := s.intFirst_range nbits
  have hlast_range := s.intLast_range nbits
  by_cases hrange : s.intFirst nbits ≤ s.intLast nbits
  . obtain ⟨fuel, v', hrun, hbits⟩ := loop_of_covers (by omega)
      ((covers_iff_fitsInt hrange).mpr h) v
    refine ⟨fuel, v', ?_, hbits⟩
    rw [slice_eq_orbit hrange]
    exact hrun
  . unfold StatsMetricMatchIndexSlice.FitsInt at h
    rw [if_neg hrange] at h
    refine ⟨0, v, ?_, ?_⟩
    . rw [slice_eq_int, if_neg hrange]
    . intro i _
      simp [StatsMetricMatchIndexSlice.not_selects_of_lt h i]

theorem fitsInt_of_slice {fuel : Nat} {v v' : BitArray nbits}
    (hv : ∀ i < nbits, v.isBitSet i = false) (h : slice fuel s v = some v')
    (hbits : ∀ i < nbits, v'.isBitSet i = true ↔ s.Selects nbits i)
    : s.FitsInt nbits := by
  have hfirst_range := s.intFirst_range nbits
  have hlast_range := s.intLast_range nbits
  by_cases hrange : s.intFirst nbits ≤ s.intLast nbits
  . rw [slice_eq_orbit hrange] at h
    exact (covers_iff_fitsInt hrange).mp (covers_of_loop (by omega) hv h hbits)
  . rw [slice_eq_int, if_neg hrange] at h
    cases h
    unfold StatsMetricMatchIndexSlice.FitsInt
    rw [if_neg hrange]
    by_contra hle
    have hfirst_nonneg := s.first_nonneg nbits
    have hlast_lt := s.last_lt nbits
    have hsel : s.Selects nbits (s.first nbits).toNat := ⟨0, by omega, by omega⟩
    have hset := (hbits (s.first nbits).toNat (by omega)).mpr hsel
    rw [hv _ (by omega)] at hset
    contradiction

-- Where the size is an `int`, this is the condition for the loops that end after at most `sliceFuel`
theorem fitsInt_iff_fitsAny (hpos : 0 < nbits) (hsmall : nbits < 2 ^ 31)
    : s.FitsInt nbits ↔ s.FitsAny nbits := by
  have hnew : ∀ i < nbits, (BitArray.new nbits hpos).isBitSet i = false := by
    intro i _
    simp
  constructor
  . intro hfits
    obtain ⟨fuel, v, hrun, hbits⟩ := slice_of_fitsInt hfits (BitArray.new nbits hpos)
    by_contra hnot
    obtain ⟨i, hi, hset, hsel⟩ := slice_of_not_fitsAny hsmall hnot hrun
    rw [hbits i hi, hnew i hi] at hset
    simp [hsel] at hset
  . intro hfits
    obtain ⟨v, hrun, hbits⟩ :=
      slice_of_fitsAny hsmall hfits (le_refl _) (BitArray.new nbits hpos)
    apply fitsInt_of_slice hnew hrun
    intro i hi
    simp [hbits i]

end Fits

section Lists

variable {slices : List StatsMetricMatchIndexSlice}

theorem go_mono {fuel : Nat} {v v' : BitArray nbits} (h : go fuel slices v = some v') (extra : Nat)
    : go (fuel + extra) slices v = some v' := by
  induction slices generalizing v with
  | nil => exact h
  | cons s slices ih =>
    unfold go at h ⊢
    obtain ⟨v₁, hslice, hrest⟩ := Option.bind_eq_some_iff.mp h
    rw [slice_mono hslice extra]
    exact ih hrest

theorem go_of_fitsInt (h : ∀ s ∈ slices, s.FitsInt nbits) (v : BitArray nbits)
    : ∃ fuel v', go fuel slices v = some v' ∧
        ∀ i < nbits, v'.isBitSet i = true ↔
          v.isBitSet i = true ∨ ∃ s ∈ slices, s.Selects nbits i := by
  induction slices generalizing v with
  | nil =>
    refine ⟨0, v, rfl, ?_⟩
    intro i _
    simp
  | cons s slices ih =>
    obtain ⟨fuel, v₁, hslice, hbits⟩ := slice_of_fitsInt (h s List.mem_cons_self) v
    obtain ⟨fuel', v₂, hrest, hbits'⟩ := ih (fun s hs => h s (List.mem_cons_of_mem _ hs)) v₁
    refine ⟨fuel + fuel', v₂, ?_, ?_⟩
    . have hrest' := go_mono hrest fuel
      rw [Nat.add_comm] at hrest'
      unfold go
      rw [slice_mono hslice fuel']
      exact hrest'
    . intro i hi
      rw [hbits' i hi, hbits i hi]
      simp [or_assoc]

end Lists

end applyMetricFilterMatchIndices

section Indices

variable {nbits : Nat} (spec : StatsForEachSpec)

-- The indices of a filter mark the elements that one of their slices selects
def IndicesMark (slices : List StatsMetricMatchIndexSlice) (v : BitArray nbits) : Prop :=
  ∃ fuel v', applyMetricFilterMatchIndices fuel spec slices v = some v' ∧
    ∀ i < nbits, v'.isBitSet i = true ↔ ∃ s ∈ slices, s.Selects nbits i

-- Over the lists of slices that are taken from a set, all are evaluated as they read exactly when each
-- of the slices fits
theorem indicesMark_iff_fitsInt (harray : statsMetricFlagTest spec.metric.flags .array = true)
    {v : BitArray nbits} (hv : v.isAllCleared = true) (S : Set StatsMetricMatchIndexSlice)
    : (∀ slices, (∀ s ∈ slices, s ∈ S) → IndicesMark spec slices v) ↔
        ∀ s ∈ S, s.FitsInt nbits := by
  rw [BitArray.isAllCleared_iff] at hv
  have hgo : ∀ fuel slices, applyMetricFilterMatchIndices fuel spec slices v =
      applyMetricFilterMatchIndices.go fuel slices v := by
    intro fuel slices
    unfold applyMetricFilterMatchIndices
    rw [harray]
    rfl
  unfold IndicesMark
  simp only [hgo]
  constructor
  . intro h s hs
    obtain ⟨fuel, v', hrun, hbits⟩ := h [s] (by simpa using hs)
    obtain ⟨v₁, hslice, hrest⟩ := Option.bind_eq_some_iff.mp hrun
    cases hrest
    apply applyMetricFilterMatchIndices.fitsInt_of_slice hv hslice
    intro i hi
    simpa using hbits i hi
  . intro h slices hslices
    obtain ⟨fuel, v', hrun, hbits⟩ :=
      applyMetricFilterMatchIndices.go_of_fitsInt (fun s hs => h s (hslices s hs)) v
    refine ⟨fuel, v', hrun, ?_⟩
    intro i hi
    simp [hbits i hi, hv i hi]

end Indices

def sixCountersSpec : StatsForEachSpec := sixCountersBlock.forEachSpec sixCounters

theorem indicesMark_iff_fitsInt_evenSlices
    : (∀ slices, (∀ s ∈ slices, s ∈ evenSlices) →
          IndicesMark sixCountersSpec slices (BitArray.new 6 (by decide))) ↔
        ∀ s ∈ evenSlices, s.FitsInt 6 := by
  apply indicesMark_iff_fitsInt sixCountersSpec (by decide)
  decide

-- From the first element on with a step of 2 ^ 31: the loop goes down to -2 ^ 31 and back to the first
-- element
def endless : StatsMetricMatchIndexSlice := ⟨0, 5, 2147483648⟩

theorem slice_endless (fuel : Nat) (v : BitArray 6)
    : applyMetricFilterMatchIndices.slice fuel endless v = none := by
  by_contra hne
  obtain ⟨v', hslice⟩ := Option.ne_none_iff_exists'.mp hne
  rw [applyMetricFilterMatchIndices.slice_eq_orbit (by decide)] at hslice
  obtain ⟨k, hends⟩ := applyMetricFilterMatchIndices.exists_ends_of_loop (by decide) hslice
  apply applyMetricFilterMatchIndices.not_ends_of_period 2 (by decide) (by decide) _ k
    hends
  intro k hk
  unfold applyMetricFilterMatchIndices.Ends
  interval_cases k <;> decide

theorem not_indicesMark_endless
    : ¬ ∀ slices, IndicesMark sixCountersSpec slices (BitArray.new 6 (by decide)) := by
  intro h
  obtain ⟨fuel, v', hrun, -⟩ := h [endless]
  obtain ⟨v₁, hslice, -⟩ := Option.bind_eq_some_iff.mp hrun
  rw [slice_endless] at hslice
  contradiction
