import SmartnicFw.Lib.Except
import SmartnicFw.Snp4.Table.Impl

/-!
This module contains the meaning of a single match: which key and which effective mask it stands
for on a field, and when packing accepts it.
-/

namespace SnMatch

def key : SnMatch → Mpz
  | .unset => 0
  | .keyMask key _ => key
  | .keyOnly key => key
  | .keyPrefix key _ => key
  | .range lower _ => lower.toNat
  | .unused => 0

end SnMatch

namespace Snp4InfoMatch

-- The mask a field type stands for when the user's format comes without one
def defaultMask (spec : Snp4InfoMatch) (key : Mpz) : Mpz :=
  match spec.type with
  | .range => key
  | .unused => 0
  | _ => 2 ^ spec.bits.toNat - 1

def MaskAllowed (spec : Snp4InfoMatch) (key mask : Mpz) : Prop :=
  match spec.type with
  | .bitfield => mask = 0 ∨ mask = 2 ^ spec.bits.toNat - 1
  | .constant => mask = 2 ^ spec.bits.toNat - 1
  | .prefixed => ∃ p ≤ spec.bits.toNat, lowWord spec.bits.toNat mask = topOnes spec.bits.toNat p
  | .range => key ≤ mask
  | .ternary => True
  | .unused => mask = 0
  | .invalid => False

end Snp4InfoMatch

namespace SnMatch

def effectiveMask (m : SnMatch) (spec : Snp4InfoMatch) : Mpz :=
  match m with
  | .unset => 0
  | .keyMask _ mask => mask
  | .keyOnly key => spec.defaultMask key
  | .keyPrefix _ prefixLen => topOnes spec.bits.toNat prefixLen.toNat
  | .range _ upper => upper.toNat
  | .unused => 0

-- There is a format, and a prefix is not longer than its field
def FormatOk (m : SnMatch) (spec : Snp4InfoMatch) : Prop :=
  match m with
  | .unset => False
  | .keyPrefix _ prefixLen => prefixLen.toNat ≤ spec.bits.toNat
  | _ => True

end SnMatch

namespace packPartialKeyMask

theorem onesMask_eq (spec : Snp4InfoMatch) : onesMask spec = 2 ^ spec.bits.toNat - 1 := by
  simp [onesMask, mpzMul2exp]

theorem fill_of_formatOk {m : SnMatch} {spec : Snp4InfoMatch} (h : m.FormatOk spec)
    : ∃ userMask, fill m spec = .ok (m.key, userMask) ∧
        userMask.getD (spec.defaultMask m.key) = m.effectiveMask spec := by
  cases m with
  | unset => exact absurd h id
  | keyMask key mask => exact ⟨some mask, rfl, rfl⟩
  | keyOnly key => exact ⟨none, rfl, rfl⟩
  | keyPrefix key prefixLen =>
    have hle : prefixLen.toNat ≤ spec.bits.toNat := h
    have hlen : ¬ prefixLen > spec.bits := by
      rw [gt_iff_lt, UInt16.lt_iff_toNat_lt]
      omega
    refine ⟨_, by simp only [fill, hlen, ↓reduceIte]; rfl, ?_⟩
    simp only [Option.getD_some, SnMatch.effectiveMask, mpzMul2exp]
    rw [topOnes_eq_mul hle]
    push_cast [Nat.one_le_two_pow]
    ring
  | range lower upper => exact ⟨some upper.toNat, rfl, rfl⟩
  | unused => exact ⟨some 0, rfl, rfl⟩

theorem fill_of_not_formatOk {m : SnMatch} {spec : Snp4InfoMatch} (h : ¬ m.FormatOk spec)
    : fill m spec = .error .matchInvalidFormat ∨ fill m spec = .error .matchMaskTooWide := by
  cases m with
  | unset => exact .inl rfl
  | keyPrefix key prefixLen =>
    have hlen : prefixLen > spec.bits := by
      rw [gt_iff_lt, UInt16.lt_iff_toNat_lt]
      exact Nat.lt_of_not_le h
    exact .inr (by simp only [fill, hlen, ↓reduceIte])
  | keyMask _ _ => exact absurd trivial h
  | keyOnly _ => exact absurd trivial h
  | range _ _ => exact absurd trivial h
  | unused => exact absurd trivial h

theorem maskDefault_eq {spec : Snp4InfoMatch} (h : spec.type ≠ .invalid) (key : Mpz)
    : maskDefault spec key = .ok (spec.defaultMask key) := by
  unfold maskDefault Snp4InfoMatch.defaultMask
  rw [onesMask_eq]
  split <;> simp_all

theorem validate_eq_ok_iff (spec : Snp4InfoMatch) (key mask : Mpz)
    : validate spec key mask = .ok () ↔ spec.MaskAllowed key mask := by
  cases htype : spec.type with
  | invalid => simp [validate, Snp4InfoMatch.MaskAllowed, htype]
  | bitfield =>
    simp only [validate, Snp4InfoMatch.MaskAllowed, htype, onesMask_eq]
    split <;> simp_all
  | constant =>
    simp only [validate, Snp4InfoMatch.MaskAllowed, htype, onesMask_eq]
    split <;> simp_all
  | prefixed =>
    have hbits : spec.bits.toNat ≤ ulongMax := by
      have := spec.bits.toNat_lt
      unfold ulongMax
      omega
    simp only [validate, Snp4InfoMatch.MaskAllowed, htype]
    split
    . next hzero =>
      simp only [true_iff]
      exact ⟨0, Nat.zero_le _, by simp [hzero, lowWord]⟩
    . rw [← le_mpzScan0_mpzScan1_iff mask hbits]
      simp only [Except.ite_error_eq_ok_iff, and_true]
      omega
  | range =>
    simp only [validate, Snp4InfoMatch.MaskAllowed, htype, Except.ite_error_eq_ok_iff, and_true]
    exact Int.not_lt
  | ternary => simp [validate, Snp4InfoMatch.MaskAllowed, htype]
  | unused =>
    simp only [validate, Snp4InfoMatch.MaskAllowed, htype]
    split <;> simp_all

end packPartialKeyMask

-- What a key and an effective mask must satisfy to be packed into a field. Only the length of the
-- absolute value is looked at, so this says nothing about signs.
structure Snp4InfoMatch.Accepts (spec : Snp4InfoMatch) (key mask : Mpz) : Prop where
  mask_allowed : spec.MaskAllowed key mask
  bits_pos : 0 < spec.bits.toNat
  key_fits : key.natAbs < 2 ^ spec.bits.toNat
  mask_fits : mask.natAbs < 2 ^ spec.bits.toNat

namespace packPartialKeyMask

theorem eq_validate {m : SnMatch} {spec : Snp4InfoMatch} (hformat : m.FormatOk spec)
    (htype : spec.type ≠ .invalid)
    : packPartialKeyMask m spec =
        (validate spec m.key (m.effectiveMask spec) >>= fun _ =>
          if mpzSizeinbase2 m.key > spec.bits.toNat then
            .error .matchKeyTooBig
          else if mpzSizeinbase2 (m.effectiveMask spec) > spec.bits.toNat then
            .error .matchMaskTooBig
          else
            .ok (m.key, m.effectiveMask spec)) := by
  obtain ⟨userMask, hfill, hmask⟩ := fill_of_formatOk hformat
  unfold packPartialKeyMask
  rw [hfill]
  show (maskDefault spec m.key >>= _) = _
  rw [maskDefault_eq htype]
  simp only [← hmask]
  rfl

end packPartialKeyMask

theorem packPartialKeyMask_eq_ok_iff (m : SnMatch) (spec : Snp4InfoMatch) (r : Mpz × Mpz)
    : packPartialKeyMask m spec = .ok r ↔
        m.FormatOk spec ∧ spec.Accepts m.key (m.effectiveMask spec) ∧
          r = (m.key, m.effectiveMask spec) := by
  by_cases hformat : m.FormatOk spec
  . by_cases htype : spec.type = .invalid
    . have hallowed : ¬ spec.MaskAllowed m.key (m.effectiveMask spec) := by
        simp [Snp4InfoMatch.MaskAllowed, htype]
      obtain ⟨userMask, hfill, _⟩ := packPartialKeyMask.fill_of_formatOk hformat
      have herror : packPartialKeyMask m spec = .error .fieldSpecUnknownType := by
        unfold packPartialKeyMask packPartialKeyMask.maskDefault
        rw [hfill, htype]
        rfl
      constructor
      . intro h
        rw [herror] at h
        contradiction
      . intro h
        exact absurd h.2.1.mask_allowed hallowed
    . rw [packPartialKeyMask.eq_validate hformat htype]
      simp only [Except.bind_eq_ok_iff, Except.ite_error_eq_ok_iff]
      constructor
      . rintro ⟨_, hvalid, hkey, hmask, hr⟩
        have hpos : 0 < spec.bits.toNat := by
          have := mpzSizeinbase2_pos m.key
          omega
        refine ⟨hformat, ⟨?_, hpos, ?_, ?_⟩, ?_⟩
        . exact (packPartialKeyMask.validate_eq_ok_iff _ _ _).mp hvalid
        . exact (mpzSizeinbase2_le_iff _ hpos).mp (by omega)
        . exact (mpzSizeinbase2_le_iff _ hpos).mp (by omega)
        . simpa using hr.symm
      . rintro ⟨_, haccepts, hr⟩
        have hkey := (mpzSizeinbase2_le_iff _ haccepts.bits_pos).mpr haccepts.key_fits
        have hmask := (mpzSizeinbase2_le_iff _ haccepts.bits_pos).mpr haccepts.mask_fits
        refine ⟨(), ?_, by omega, by omega, by rw [hr]⟩
        exact (packPartialKeyMask.validate_eq_ok_iff _ _ _).mpr haccepts.mask_allowed
  . constructor
    . intro h
      rcases packPartialKeyMask.fill_of_not_formatOk hformat with hfill | hfill <;>
      . simp only [packPartialKeyMask, hfill] at h
        contradiction
    . intro h
      exact absurd h.1 hformat
