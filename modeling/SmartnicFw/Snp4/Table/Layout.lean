import SmartnicFw.Snp4.Table.Rule

/-!
This module contains the layout of packed rules: cutting the bytes of an accepted rule back into
fields gives the numbers of the rule.
-/

def SnMatch.Nonneg : SnMatch → Prop
  | .unset => True
  | .keyMask key mask => 0 ≤ key ∧ 0 ≤ mask
  | .keyOnly key => 0 ≤ key
  | .keyPrefix key _ => 0 ≤ key
  | .range _ _ => True
  | .unused => True

structure SnRule.Nonneg (rule : SnRule) : Prop where
  match_nonneg : ∀ m ∈ rule.matchList, m.Nonneg
  param_nonneg : ∀ param ∈ rule.params, 0 ≤ param.value

-- A buffer of `len` bytes that holds a number of `bits` bits, right-aligned, made of these fields
def FieldsAt (buf : Option (List UInt8)) (len bits : Nat) (widths : List Nat) (values : List Mpz)
    : Prop :=
  ∃ bytes, buf = some bytes ∧ bytes.length = len ∧ ofBytesBE bytes < 2 ^ bits ∧
    (BitField.cut widths (ofBytesBE bytes)).map Nat.cast = values

structure SnPack.Layout (pack : SnPack) (table : Snp4InfoTable) (action : Snp4InfoAction)
    (rule : SnRule) : Prop where
  key_len : pack.keyLen = (table.keyBits.toNat + 7) / 8
  key_fields : FieldsAt pack.key pack.keyLen table.keyBits.toNat
    (table.matchList.map fun spec => spec.bits.toNat) (rule.matchList.map SnMatch.key)
  mask_len : pack.maskLen = (table.keyBits.toNat + 7) / 8
  mask_fields : FieldsAt pack.mask pack.maskLen table.keyBits.toNat
    (table.matchList.map fun spec => spec.bits.toNat)
    (List.zipWith (fun spec m => m.effectiveMask spec) table.matchList rule.matchList)
  params_len : pack.paramsLen =
    if action.params = [] then 0 else (table.responseBits.toNat - table.actionidBits.toNat + 7) / 8
  param_fields : action.params ≠ [] → FieldsAt pack.params pack.paramsLen action.paramBits.toNat
    (action.params.map fun spec => spec.bits.toNat) (rule.params.map SnParam.value)

theorem SnMatch.Nonneg.key_nonneg {m : SnMatch} (h : m.Nonneg) : 0 ≤ m.key := by
  cases m with
  | unset => exact le_refl 0
  | keyMask key mask => exact h.1
  | keyOnly key => exact h
  | keyPrefix key prefixLen => exact h
  | range lower upper => exact Int.natCast_nonneg _
  | unused => exact le_refl 0

theorem Snp4InfoMatch.defaultMask_nonneg (spec : Snp4InfoMatch) {key : Mpz} (h : 0 ≤ key)
    : 0 ≤ spec.defaultMask key := by
  have hones : (0 : Int) ≤ 2 ^ spec.bits.toNat - 1 := by
    have : (0 : Int) < 2 ^ spec.bits.toNat := Int.pow_pos (by decide)
    omega
  unfold defaultMask
  split
  . exact h
  . exact le_refl 0
  . exact hones

theorem SnMatch.Nonneg.effectiveMask_nonneg {m : SnMatch} (h : m.Nonneg) (spec : Snp4InfoMatch)
    : 0 ≤ m.effectiveMask spec := by
  cases m with
  | unset => exact le_refl 0
  | keyMask key mask => exact h.2
  | keyOnly key => exact spec.defaultMask_nonneg h
  | keyPrefix key prefixLen => exact Int.natCast_nonneg _
  | range lower upper => exact Int.natCast_nonneg _
  | unused => exact le_refl 0

-- Exporting the shifted in parts lays them out as fields
theorem fieldsAt_exportPadded {parts : List (Nat × Mpz)} {bits : Nat} (paddedBytes : UInt32)
    (hnonneg : ∀ part ∈ parts, 0 ≤ part.2) (hfit : ∀ part ∈ parts, part.2.natAbs < 2 ^ part.1)
    (hsum : (parts.map Prod.fst).sum = bits) (hpos : 0 < bits) (hsmall : bits < 2 ^ 16)
    (hbytes : (bits + 7) / 8 ≤ paddedBytes.toNat)
    : FieldsAt
        (some (exportPadded paddedBytes (UInt32.ofNat (mpzSizeinbase2 (parts.foldl mpzAppend 0)))
          (parts.foldl mpzAppend 0)))
        paddedBytes.toNat bits (parts.map Prod.fst) (parts.map Prod.snd) := by
  have hlt := natAbs_foldl_mpzAppend_lt parts hfit 0 (n := 0) (by simp)
  rw [hsum, Nat.zero_add] at hlt
  have hsize := (mpzSizeinbase2_le_iff _ hpos).mpr hlt
  have hlen := exportPadded.length_exportPadded paddedBytes (parts.foldl mpzAppend 0) (by omega) (by omega)
  have hval := exportPadded.ofBytesBE_exportPadded paddedBytes (parts.foldl mpzAppend 0) (by omega) (by omega)
  refine ⟨_, rfl, hlen, ?_, ?_⟩
  . rw [hval]
    exact hlt
  . rw [hval]
    exact cut_foldl_mpzAppend parts fun part hpart => ⟨hnonneg part hpart, hfit part hpart⟩

section

variable {table : Snp4InfoTable} {action : Snp4InfoAction} {rule : SnRule}

theorem toNat_paddedBytes (bits : UInt16)
    : ((bits.toUInt32 + 7) / 8 : UInt32).toNat = (bits.toNat + 7) / 8 := by
  have := bits.toNat_lt
  rw [UInt32.toNat_div, UInt32.toNat_add, UInt16.toNat_toUInt32]
  show (bits.toNat + 7) % 2 ^ 32 / 8 = _
  rw [Nat.mod_eq_of_lt (by omega)]

theorem toNat_paramPaddedBytes (table : Snp4InfoTable)
    (h : table.actionidBits.toNat ≤ table.responseBits.toNat)
    : ((table.paramSizeBits + 7) / 8 : UInt32).toNat
        = (table.responseBits.toNat - table.actionidBits.toNat + 7) / 8 := by
  have := table.responseBits.toNat_lt
  have hsub : table.paramSizeBits.toNat
      = table.responseBits.toNat - table.actionidBits.toNat := by
    unfold Snp4InfoTable.paramSizeBits
    rw [UInt32.toNat_sub_of_le _ _ (by simpa [UInt32.le_iff_toNat_le] using h)]
    simp
  rw [UInt32.toNat_div, UInt32.toNat_add, hsub]
  show (table.responseBits.toNat - table.actionidBits.toNat + 7) % 2 ^ 32 / 8 = _
  rw [Nat.mod_eq_of_lt (by omega)]

theorem keyParts_nonneg (h : rule.Nonneg)
    : ∀ part ∈ keyParts table.matchList rule.matchList, 0 ≤ part.2 := by
  intro part hpart
  obtain ⟨p, hp, rfl⟩ := List.mem_map.mp hpart
  exact (h.match_nonneg p.2 (List.of_mem_zip hp).2).key_nonneg

theorem maskParts_nonneg (h : rule.Nonneg)
    : ∀ part ∈ maskParts table.matchList rule.matchList, 0 ≤ part.2 := by
  intro part hpart
  obtain ⟨p, hp, rfl⟩ := List.mem_map.mp hpart
  exact (h.match_nonneg p.2 (List.of_mem_zip hp).2).effectiveMask_nonneg p.1

theorem paramParts_nonneg (h : rule.Nonneg)
    : ∀ part ∈ paramParts action.params rule.params, 0 ≤ part.2 := by
  intro part hpart
  obtain ⟨p, hp, rfl⟩ := List.mem_map.mp hpart
  exact h.param_nonneg p.2 (List.of_mem_zip hp).2

theorem packedRule_layout (htable : table.Consistent) (haction : action ∈ table.actions)
    (hlen : rule.matchList.length = table.matchList.length)
    (hplen : rule.params.length = action.params.length) (hne : table.matchList ≠ [])
    (hmatches : MatchesAccepted table.matchList rule.matchList)
    (hparams : ParamsAccepted action.params rule.params) (hnonneg : rule.Nonneg)
    : (packedRule table action rule).Layout table action rule := by
  have hsum := htable.match_bits_sum
  have hpos := snp4RulePackMatches.bits_sum_pos hlen hsum hne hmatches
  have hbits := table.keyBits.toNat_lt
  have hpadded := toNat_paddedBytes table.keyBits
  have hkey := fieldsAt_exportPadded ((table.keyBits.toUInt32 + 7) / 8)
    (keyParts_nonneg hnonneg) hmatches.keyParts_fit
    (by rw [map_fst_keyParts hlen, hsum]) hpos hbits (by omega)
  have hmask := fieldsAt_exportPadded ((table.keyBits.toUInt32 + 7) / 8)
    (maskParts_nonneg hnonneg) hmatches.maskParts_fit
    (by rw [map_fst_maskParts hlen, hsum]) hpos hbits (by omega)
  rw [map_fst_keyParts hlen, map_snd_keyParts hlen] at hkey
  rw [map_fst_maskParts hlen, map_snd_maskParts] at hmask
  by_cases hzero : action.paramBits = 0
  . have hnil := snp4RulePackParams.params_eq_nil (htable.param_bits_pos action haction)
      (htable.param_bits_sum action haction) hzero
    have hpack : packedRule table action rule
        = { snp4PackInit.withKeyMask table.keyBits.toUInt32
              (packedKey table.matchList rule.matchList)
              (packedMask table.matchList rule.matchList) with
            params := some (calloc 1), paramsLen := 0 } := by
      simp [packedRule, SnPack.withParams, hzero]
    rw [hpack]
    exact ⟨hpadded, hkey, hpadded, hmask, by simp [hnil], by simp [hnil]⟩
  . have hpsum := htable.param_bits_sum action haction
    have hle := htable.param_bits_le action haction
    have hppos : 0 < action.paramBits.toNat := by
      by_contra h0
      exact hzero (UInt16.toNat_inj.mp (by simpa using h0))
    have hne' : action.params ≠ [] := by
      intro hnil
      rw [hnil] at hpsum
      simp at hpsum
      omega
    have hppadded := toNat_paramPaddedBytes table (by omega)
    have hparam := fieldsAt_exportPadded ((table.paramSizeBits + 7) / 8)
      (paramParts_nonneg hnonneg) hparams.paramParts_fit
      (by rw [map_fst_paramParts hplen, hpsum]) hppos action.paramBits.toNat_lt (by omega)
    rw [map_fst_paramParts hplen, map_snd_paramParts hplen] at hparam
    have hpack : packedRule table action rule
        = { snp4PackInit.withKeyMask table.keyBits.toUInt32
              (packedKey table.matchList rule.matchList)
              (packedMask table.matchList rule.matchList) with
            params := some (exportPadded ((table.paramSizeBits + 7) / 8)
              (UInt32.ofNat (mpzSizeinbase2 (packedParams action.params rule.params)))
              (packedParams action.params rule.params))
            paramsLen := ((table.paramSizeBits + 7) / 8).toNat } := by
      simp [packedRule, SnPack.withParams, hzero]
    rw [hpack]
    exact ⟨hpadded, hkey, hpadded, hmask, by simpa [hne'] using hppadded, fun _ => hparam⟩

end

theorem snp4RulePack_layout {pipeline : Snp4InfoPipeline} {rule : SnRule} {pack0 pack : SnPack}
    (hc : pipeline.Consistent) (hnonneg : rule.Nonneg)
    (hok : snp4RulePack (some pipeline) (some rule) (some pack0) = .ok pack)
    : ∃ table action, rule.Resolves pipeline table action ∧ pack.Layout table action rule := by
  obtain ⟨table, action, hres, hne, hmatches, hparams, rfl⟩ :=
    (snp4RulePack_eq_ok_iff pack0 hc pack).mp hok
  have htable := hc table (snp4InfoGetTableByName_mem hres.table_found)
  have haction := snp4InfoGetActionByName_mem hres.action_found
  exact ⟨table, action, hres, packedRule_layout htable haction hres.num_matches hres.num_params
    hne hmatches hparams hnonneg⟩

def multiRule : SnRule :=
  { tableName := some "t_multi", actionName := some "a_two", priority := 1,
    matchList := [.keyOnly 5, .keyOnly 2, .keyPrefix 0x2a 3, .range 0x10 0x1000,
      .keyMask 0x30 0x41, .unused],
    params := [.mpz 0x1abc, .ui 7] }

def multiPack : SnPack :=
  { key := some [0x02, 0xaa, 0x80, 0x20, 0xc0], keyLen := 5,
    mask := some [0x03, 0xfe, 0x20, 0x01, 0x04], maskLen := 5,
    params := some [0x00, 0x0d, 0x5e, 0x00, 0x00, 0x00, 0x00, 0x07], paramsLen := 8 }

theorem snp4RulePack_multiRule
    : snp4RulePack (some snp4InfoPipeline) (some multiRule) (some snp4PackInit)
        = .ok multiPack := by
  decide +kernel

theorem multiPack_layout
    : ∃ table action, multiRule.Resolves snp4InfoPipeline table action ∧
        multiPack.Layout table action multiRule := by
  apply snp4RulePack_layout snp4InfoPipeline_consistent ?_ snp4RulePack_multiRule
  exact ⟨by simp [multiRule, SnMatch.Nonneg], by simp [multiRule, SnParam.value]⟩
