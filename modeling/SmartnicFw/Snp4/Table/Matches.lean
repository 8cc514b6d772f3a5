import SmartnicFw.Snp4.Table.Export
import SmartnicFw.Snp4.Table.Partial

/-!
This module contains what packing all matches of a table does: when it succeeds, and which integers
end up in the key and mask buffers.
-/

-- The key and mask parts of the fields of a table, with their widths
def keyParts (specs : List Snp4InfoMatch) (ms : List SnMatch) : List (Nat × Mpz) :=
  (specs.zip ms).map fun p => (p.1.bits.toNat, p.2.key)

def maskParts (specs : List Snp4InfoMatch) (ms : List SnMatch) : List (Nat × Mpz) :=
  (specs.zip ms).map fun p => (p.1.bits.toNat, p.2.effectiveMask p.1)

-- Every match has a format and is one its field accepts
def MatchesAccepted (specs : List Snp4InfoMatch) (ms : List SnMatch) : Prop :=
  ∀ p ∈ specs.zip ms, p.2.FormatOk p.1 ∧ p.1.Accepts p.2.key (p.2.effectiveMask p.1)

theorem map_fst_keyParts {specs : List Snp4InfoMatch} {ms : List SnMatch}
    (hlen : ms.length = specs.length)
    : (keyParts specs ms).map Prod.fst = specs.map fun spec => spec.bits.toNat := by
  have hzip : (specs.zip ms).map Prod.fst = specs := List.map_fst_zip (by omega)
  unfold keyParts
  conv => rhs; rw [← hzip]
  rw [List.map_map, List.map_map]
  rfl

theorem map_fst_maskParts {specs : List Snp4InfoMatch} {ms : List SnMatch}
    (hlen : ms.length = specs.length)
    : (maskParts specs ms).map Prod.fst = specs.map fun spec => spec.bits.toNat := by
  rw [← map_fst_keyParts hlen]
  simp [keyParts, maskParts]

theorem map_snd_keyParts {specs : List Snp4InfoMatch} {ms : List SnMatch}
    (hlen : ms.length = specs.length)
    : (keyParts specs ms).map Prod.snd = ms.map SnMatch.key := by
  have hzip : (specs.zip ms).map Prod.snd = ms := List.map_snd_zip (by omega)
  unfold keyParts
  conv => rhs; rw [← hzip]
  rw [List.map_map, List.map_map]
  rfl

theorem map_snd_maskParts (specs : List Snp4InfoMatch) (ms : List SnMatch)
    : (maskParts specs ms).map Prod.snd
        = List.zipWith (fun spec m => m.effectiveMask spec) specs ms := by
  unfold maskParts
  rw [List.map_map, List.zip, List.map_zipWith]
  rfl

theorem MatchesAccepted.keyParts_fit {specs : List Snp4InfoMatch} {ms : List SnMatch}
    (h : MatchesAccepted specs ms)
    : ∀ part ∈ keyParts specs ms, part.2.natAbs < 2 ^ part.1 := by
  intro part hpart
  obtain ⟨p, hp, rfl⟩ := List.mem_map.mp hpart
  exact (h p hp).2.key_fits

theorem MatchesAccepted.maskParts_fit {specs : List Snp4InfoMatch} {ms : List SnMatch}
    (h : MatchesAccepted specs ms)
    : ∀ part ∈ maskParts specs ms, part.2.natAbs < 2 ^ part.1 := by
  intro part hpart
  obtain ⟨p, hp, rfl⟩ := List.mem_map.mp hpart
  exact (h p hp).2.mask_fits

namespace snp4RulePackMatches

theorem go_eq_ok_iff (specs : List Snp4InfoMatch) (ms : List SnMatch)
    (hlen : ms.length = specs.length) (acc r : Mpz × Mpz)
    : go specs ms acc = .ok r ↔ MatchesAccepted specs ms ∧
        r = ((keyParts specs ms).foldl mpzAppend acc.1,
          (maskParts specs ms).foldl mpzAppend acc.2) := by
  induction ms generalizing specs acc with
  | nil => simp [go, MatchesAccepted, keyParts, maskParts, eq_comm, Prod.ext_iff]
  | cons m ms ih =>
    cases specs with
    | nil => simp at hlen
    | cons spec specs =>
      have hlen' : ms.length = specs.length := by simpa using hlen
      simp only [go, List.headD_cons, List.tail_cons, Except.bind_eq_ok_iff]
      constructor
      . rintro ⟨part, hpart, hgo⟩
        obtain ⟨hformat, haccepts, rfl⟩ := (packPartialKeyMask_eq_ok_iff _ _ _).mp hpart
        obtain ⟨hrest, hr⟩ := (ih specs hlen' _).mp hgo
        refine ⟨?_, hr⟩
        intro p hp
        rcases List.mem_cons.mp hp with rfl | hp
        . exact ⟨hformat, haccepts⟩
        . exact hrest p hp
      . rintro ⟨hall, hr⟩
        obtain ⟨hformat, haccepts⟩ := hall (spec, m) (by simp)
        refine ⟨_, (packPartialKeyMask_eq_ok_iff _ _ _).mpr ⟨hformat, haccepts, rfl⟩, ?_⟩
        apply (ih specs hlen' _).mpr
        exact ⟨fun p hp => hall p (by simp [hp]), hr⟩

end snp4RulePackMatches

-- The integer that holds all fields of a table
def packedKey (specs : List Snp4InfoMatch) (ms : List SnMatch) : Mpz :=
  (keyParts specs ms).foldl mpzAppend 0

def packedMask (specs : List Snp4InfoMatch) (ms : List SnMatch) : Mpz :=
  (maskParts specs ms).foldl mpzAppend 0

section

variable {specs : List Snp4InfoMatch} {ms : List SnMatch} {keyBits : Nat}

theorem natAbs_packedKey_lt (hlen : ms.length = specs.length)
    (hsum : (specs.map fun spec => spec.bits.toNat).sum = keyBits)
    (h : MatchesAccepted specs ms)
    : (packedKey specs ms).natAbs < 2 ^ keyBits := by
  have := natAbs_foldl_mpzAppend_lt (keyParts specs ms) h.keyParts_fit 0 (n := 0) (by simp)
  rwa [map_fst_keyParts hlen, hsum, Nat.zero_add] at this

theorem natAbs_packedMask_lt (hlen : ms.length = specs.length)
    (hsum : (specs.map fun spec => spec.bits.toNat).sum = keyBits)
    (h : MatchesAccepted specs ms)
    : (packedMask specs ms).natAbs < 2 ^ keyBits := by
  have := natAbs_foldl_mpzAppend_lt (maskParts specs ms) h.maskParts_fit 0 (n := 0) (by simp)
  rwa [map_fst_maskParts hlen, hsum, Nat.zero_add] at this

end

-- The pack with both buffers filled in, for a key of `keySizeBits` bits
def SnPack.withKeyMask (pack : SnPack) (keySizeBits : UInt32) (key mask : Mpz) : SnPack :=
  let paddedBytes := (keySizeBits + 7) / 8
  { pack with
    key := some (exportPadded paddedBytes (UInt32.ofNat (mpzSizeinbase2 key)) key)
    keyLen := paddedBytes.toNat
    mask := some (exportPadded paddedBytes (UInt32.ofNat (mpzSizeinbase2 mask)) mask)
    maskLen := paddedBytes.toNat }

namespace snp4RulePackMatches

variable {specs : List Snp4InfoMatch} {ms : List SnMatch} {keyBits : UInt16} {pack : SnPack}

theorem of_go_eq_ok {keySizeBits : UInt32} {key mask : Mpz}
    (hgo : go specs ms (0, 0) = .ok (key, mask))
    : snp4RulePackMatches specs keySizeBits ms pack =
        if UInt32.ofNat (mpzSizeinbase2 key) > keySizeBits then
          .error .packKeyTooBig
        else if UInt32.ofNat (mpzSizeinbase2 mask) > keySizeBits then
          .error .packMaskTooBig
        else
          .ok (pack.withKeyMask keySizeBits key mask) := by
  unfold snp4RulePackMatches
  rw [hgo]
  rfl

theorem ofNat_le_iff {n : Nat} (hn : n < 2 ^ 32)
    : ¬ UInt32.ofNat n > keyBits.toUInt32 ↔ n ≤ keyBits.toNat := by
  rw [gt_iff_lt, UInt32.lt_iff_toNat_lt, UInt32.toNat_ofNat_of_lt' hn, UInt16.toNat_toUInt32]
  omega

theorem bits_sum_pos (hlen : ms.length = specs.length)
    (hsum : (specs.map fun spec => spec.bits.toNat).sum = keyBits.toNat) (hne : specs ≠ [])
    (h : MatchesAccepted specs ms)
    : 0 < keyBits.toNat := by
  obtain ⟨spec, specs, rfl⟩ := List.exists_cons_of_ne_nil hne
  cases ms with
  | nil => simp at hlen
  | cons m ms =>
    have hpos := (h (spec, m) (by simp)).2.bits_pos
    simp only [List.map_cons, List.sum_cons] at hsum
    dsimp at hpos
    omega

-- A key of accepted matches always fits, so only a table without match fields is turned down
-- after its matches have been accepted.
theorem eq_of_accepted (hlen : ms.length = specs.length)
    (hsum : (specs.map fun spec => spec.bits.toNat).sum = keyBits.toNat)
    (h : MatchesAccepted specs ms)
    : snp4RulePackMatches specs keyBits.toUInt32 ms pack =
        if specs = [] then
          .error .packKeyTooBig
        else
          .ok (pack.withKeyMask keyBits.toUInt32 (packedKey specs ms) (packedMask specs ms)) := by
  have hgo : go specs ms (0, 0) = .ok (packedKey specs ms, packedMask specs ms) :=
    (go_eq_ok_iff specs ms hlen _ _).mpr ⟨h, rfl⟩
  rw [of_go_eq_ok hgo]
  by_cases hne : specs = []
  . subst hne
    obtain rfl : ms = [] := by simpa using hlen
    have hzero : keyBits = 0 := by
      apply UInt16.toNat_inj.mp
      simpa using hsum.symm
    simp [packedKey, keyParts, mpzSizeinbase2, hzero]
  . have hpos := bits_sum_pos hlen hsum hne h
    have hbits := keyBits.toNat_lt
    have hkey := (mpzSizeinbase2_le_iff _ hpos).mpr (natAbs_packedKey_lt hlen hsum h)
    have hmask := (mpzSizeinbase2_le_iff _ hpos).mpr (natAbs_packedMask_lt hlen hsum h)
    rw [if_neg ((ofNat_le_iff (by omega)).mpr hkey), if_neg ((ofNat_le_iff (by omega)).mpr hmask)]
    rw [if_neg hne]

theorem eq_ok_iff (hlen : ms.length = specs.length)
    (hsum : (specs.map fun spec => spec.bits.toNat).sum = keyBits.toNat) (r : SnPack)
    : snp4RulePackMatches specs keyBits.toUInt32 ms pack = .ok r ↔
        specs ≠ [] ∧ MatchesAccepted specs ms ∧
          r = pack.withKeyMask keyBits.toUInt32 (packedKey specs ms) (packedMask specs ms) := by
  constructor
  . intro hok
    obtain ⟨acc, hgo, _⟩ := Except.bind_eq_ok_iff.mp hok
    obtain ⟨haccepted, _⟩ := (go_eq_ok_iff specs ms hlen _ _).mp hgo
    rw [eq_of_accepted hlen hsum haccepted] at hok
    split at hok
    . contradiction
    . next hne => exact ⟨hne, haccepted, by simpa using hok.symm⟩
  . rintro ⟨hne, haccepted, rfl⟩
    rw [eq_of_accepted hlen hsum haccepted, if_neg hne]

end snp4RulePackMatches
