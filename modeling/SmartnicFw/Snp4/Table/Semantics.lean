import SmartnicFw.Snp4.Table.Layout

/-!
This module contains the meaning of a match as a set of field values: the set the packed key and
mask select in the hardware against the set the user's format denotes.
-/

-- The types whose fields take part in the lookup
def Snp4InfoMatchType.Matched (type : Snp4InfoMatchType) : Prop :=
  type ≠ .unused ∧ type ≠ .invalid

def Snp4InfoMatch.selected (spec : Snp4InfoMatch) (key mask : Nat) : Set Nat :=
  match spec.type with
  | .range => { v | v < 2 ^ spec.bits.toNat ∧ key ≤ v ∧ v ≤ mask }
  | _ => { v | v < 2 ^ spec.bits.toNat ∧ v &&& mask = key &&& mask }

def SnMatch.denoted (m : SnMatch) (spec : Snp4InfoMatch) : Set Nat :=
  match m with
  | .unset => ∅
  | .keyMask key mask => spec.selected key.toNat mask.toNat
  | .keyOnly key => { v | v < 2 ^ spec.bits.toNat ∧ v = key.toNat }
  | .keyPrefix key prefixLen =>
    { v | v < 2 ^ spec.bits.toNat ∧
        ∀ i, spec.bits.toNat - prefixLen.toNat ≤ i → i < spec.bits.toNat →
          v.testBit i = key.toNat.testBit i }
  | .range lower upper => { v | v < 2 ^ spec.bits.toNat ∧ lower.toNat ≤ v ∧ v ≤ upper.toNat }
  | .unused => { v | v < 2 ^ spec.bits.toNat }

-- A format on a field of another kind that packing takes over bit by bit keeps its meaning only
-- where both readings come down to the same set
def SnMatch.KeepsMeaning (m : SnMatch) (spec : Snp4InfoMatch) : Prop :=
  match m with
  | .unused => spec.type ≠ .range
  | .keyPrefix key prefixLen =>
    spec.type = .range → prefixLen = spec.bits ∧ key = 2 ^ spec.bits.toNat - 1
  | .range lower upper =>
    spec.type ≠ .range → lower = upper ∧ upper.toNat = 2 ^ spec.bits.toNat - 1
  | _ => True

namespace Snp4InfoMatch

variable {spec : Snp4InfoMatch}

theorem selected_of_range (h : spec.type = .range) (key mask : Nat)
    : spec.selected key mask = { v | v < 2 ^ spec.bits.toNat ∧ key ≤ v ∧ v ≤ mask } := by
  simp only [selected, h]

theorem selected_of_not_range (h : spec.type ≠ .range) (key mask : Nat)
    : spec.selected key mask =
        { v | v < 2 ^ spec.bits.toNat ∧ v &&& mask = key &&& mask } := by
  unfold selected
  split
  . contradiction
  . rfl

theorem defaultMask_of_matched (h : spec.type.Matched) (hr : spec.type ≠ .range) (key : Mpz)
    : spec.defaultMask key = ((2 ^ spec.bits.toNat - 1 : Nat) : Int) := by
  have hmask : spec.defaultMask key = 2 ^ spec.bits.toNat - 1 := by
    unfold defaultMask
    split
    . contradiction
    . next hu => exact absurd hu h.1
    . rfl
  rw [hmask]
  push_cast [Nat.one_le_two_pow]
  rfl

end Snp4InfoMatch

-- Two sets of field values are equal when they agree on the values of the field
theorem fieldValues_eq_iff {n : Nat} (p q : Nat → Prop)
    : { v | v < 2 ^ n ∧ p v } = { v | v < 2 ^ n ∧ q v } ↔ ∀ v < 2 ^ n, p v ↔ q v := by
  simp only [Set.ext_iff, Set.mem_ofPred_eq, and_congr_right_iff]

section

variable {spec : Snp4InfoMatch}

theorem selected_keyOnly (h : spec.type.Matched) {key : Nat} (hkey : key < 2 ^ spec.bits.toNat)
    : spec.selected key (spec.defaultMask key).toNat =
        { v | v < 2 ^ spec.bits.toNat ∧ v = key } := by
  by_cases hr : spec.type = .range
  . have hmask : spec.defaultMask key = key := by
      simp [Snp4InfoMatch.defaultMask, hr]
    rw [hmask, Snp4InfoMatch.selected_of_range hr, fieldValues_eq_iff]
    intro v hv
    rw [Int.toNat_natCast]
    omega
  . rw [Snp4InfoMatch.defaultMask_of_matched h hr, Snp4InfoMatch.selected_of_not_range hr]
    rw [fieldValues_eq_iff]
    intro v hv
    rw [Int.toNat_natCast, and_ones hv, and_ones hkey]

theorem selected_keyPrefix_eq_iff {key p : Nat} (hp : p ≤ spec.bits.toNat)
    (hallowed : spec.MaskAllowed key (topOnes spec.bits.toNat p))
    : spec.selected key (topOnes spec.bits.toNat p) =
          { v | v < 2 ^ spec.bits.toNat ∧
            ∀ i, spec.bits.toNat - p ≤ i → i < spec.bits.toNat → v.testBit i = key.testBit i } ↔
        (spec.type = .range → p = spec.bits.toNat ∧ key = 2 ^ spec.bits.toNat - 1) := by
  by_cases hr : spec.type = .range
  . have hle : key ≤ topOnes spec.bits.toNat p := by
      simpa [Snp4InfoMatch.MaskAllowed, hr] using hallowed
    rw [Snp4InfoMatch.selected_of_range hr, fieldValues_eq_iff]
    simp only [← and_topOnes_eq_iff_testBit hp]
    rw [topBits_eq_interval_iff hp hle]
    exact (imp_iff_right hr).symm
  . rw [Snp4InfoMatch.selected_of_not_range hr, fieldValues_eq_iff]
    constructor
    . intro _ h
      exact absurd h hr
    . intro _ v _
      exact and_topOnes_eq_iff_testBit hp

theorem selected_range_eq_iff {lower upper : Nat} (hlower : lower < 2 ^ spec.bits.toNat)
    (hupper : upper < 2 ^ spec.bits.toNat)
    : spec.selected lower upper = { v | v < 2 ^ spec.bits.toNat ∧ lower ≤ v ∧ v ≤ upper } ↔
        (spec.type ≠ .range → lower = upper ∧ upper = 2 ^ spec.bits.toNat - 1) := by
  by_cases hr : spec.type = .range
  . rw [Snp4InfoMatch.selected_of_range hr]
    simp [hr]
  . rw [Snp4InfoMatch.selected_of_not_range hr, fieldValues_eq_iff]
    rw [masked_eq_interval_iff hlower hupper]
    exact (imp_iff_right hr).symm

theorem selected_unused_eq_iff (hpos : 0 < spec.bits.toNat)
    : spec.selected 0 0 = { v | v < 2 ^ spec.bits.toNat } ↔ spec.type ≠ .range := by
  by_cases hr : spec.type = .range
  . rw [Snp4InfoMatch.selected_of_range hr]
    simp only [hr, ne_eq, not_true_eq_false, iff_false]
    intro h
    have hone : 1 < 2 ^ spec.bits.toNat := Nat.one_lt_two_pow hpos.ne'
    have hmem : 1 ∈ { v | v < 2 ^ spec.bits.toNat ∧ 0 ≤ v ∧ v ≤ 0 } := by
      rw [h]
      exact hone
    exact absurd hmem.2.2 (by decide)
  . rw [Snp4InfoMatch.selected_of_not_range hr]
    simp [hr]

end

theorem packPartialKeyMask_selected_eq_denoted_iff {m : SnMatch} {spec : Snp4InfoMatch}
    {key mask : Mpz} (hm : m.Nonneg) (ht : spec.type.Matched)
    (hpack : packPartialKeyMask m spec = .ok (key, mask))
    : spec.selected key.toNat mask.toNat = m.denoted spec ↔ m.KeepsMeaning spec := by
  obtain ⟨hformat, haccepts, hr⟩ := (packPartialKeyMask_eq_ok_iff m spec _).mp hpack
  cases hr
  obtain ⟨k, hk⟩ := Int.eq_ofNat_of_zero_le hm.key_nonneg
  have hkey : k < 2 ^ spec.bits.toNat := by
    simpa [hk] using haccepts.key_fits
  cases m with
  | unset => exact absurd hformat id
  | keyMask key mask => exact iff_of_true rfl trivial
  | keyOnly key =>
    have hk : key = (k : Int) := hk
    subst hk
    exact iff_of_true (selected_keyOnly ht hkey) trivial
  | keyPrefix key prefixLen =>
    have hk : key = (k : Int) := hk
    subst hk
    have hiff := selected_keyPrefix_eq_iff hformat haccepts.mask_allowed
    have hlen : prefixLen.toNat = spec.bits.toNat ↔ prefixLen = spec.bits := UInt16.toNat_inj
    have hones : (k : Int) = 2 ^ spec.bits.toNat - 1 ↔ k = 2 ^ spec.bits.toNat - 1 := by
      have := Nat.two_pow_pos spec.bits.toNat
      zify [Nat.one_le_two_pow]
    rw [hlen, ← hones] at hiff
    exact hiff
  | range lower upper =>
    have hupper : upper.toNat < 2 ^ spec.bits.toNat := by
      simpa [SnMatch.effectiveMask] using haccepts.mask_fits
    have hlower : lower.toNat < 2 ^ spec.bits.toNat := by
      simpa [SnMatch.key] using haccepts.key_fits
    have hiff := selected_range_eq_iff hlower hupper
    rw [UInt16.toNat_inj] at hiff
    exact hiff
  | unused => exact selected_unused_eq_iff haccepts.bits_pos

theorem packPartialKeyMask_selected_keyPrefix
    : SnMatch.Nonneg (.keyPrefix 0x123 9) ∧ Snp4InfoMatchType.prefixed.Matched ∧
        packPartialKeyMask (.keyPrefix 0x123 9) ⟨.prefixed, 16⟩ = .ok (0x123, 0xff80) ∧
        (Snp4InfoMatch.selected ⟨.prefixed, 16⟩ 0x123 0xff80 =
            SnMatch.denoted (.keyPrefix 0x123 9) ⟨.prefixed, 16⟩ ↔
          SnMatch.KeepsMeaning (.keyPrefix 0x123 9) ⟨.prefixed, 16⟩) := by
  have hnonneg : SnMatch.Nonneg (.keyPrefix 0x123 9) := by
    show (0 : Int) ≤ 0x123
    decide
  have hmatched : Snp4InfoMatchType.prefixed.Matched := ⟨by decide, by decide⟩
  have hpack : packPartialKeyMask (.keyPrefix 0x123 9) ⟨.prefixed, 16⟩ = .ok (0x123, 0xff80) := by
    decide +kernel
  exact ⟨hnonneg, hmatched, hpack,
    packPartialKeyMask_selected_eq_denoted_iff hnonneg hmatched hpack⟩

-- An unused match on the range field of 16 bits selects the value 0 only
theorem selected_ne_denoted_unused
    : packPartialKeyMask .unused ⟨.range, 16⟩ = .ok (0, 0) ∧
        Snp4InfoMatch.selected ⟨.range, 16⟩ 0 0 ≠ SnMatch.denoted .unused ⟨.range, 16⟩ := by
  refine ⟨by decide +kernel, ?_⟩
  intro h
  have hmem : 1 ∈ Snp4InfoMatch.selected ⟨.range, 16⟩ 0 0 := by
    rw [h]
    show 1 < 2 ^ 16
    decide
  exact absurd hmem.2.2 (by decide)
