import SmartnicFw.Snp4.Table.Rule

/-!
This module contains the comparison of the rules that packing accepts with those it should accept:
the ones whose numbers all lie within their fields.
-/

def Snp4Status.IsPackTooBig : Snp4Status → Prop
  | .packKeyTooBig => True
  | .packMaskTooBig => True
  | .packParamsTooBig => True
  | _ => False

-- The key and the effective mask lie in `[0, 2 ^ bits)` and the type of the field allows the mask
structure SnMatch.InRange (m : SnMatch) (spec : Snp4InfoMatch) : Prop where
  format_ok : m.FormatOk spec
  key_nonneg : 0 ≤ m.key
  key_lt : m.key < 2 ^ spec.bits.toNat
  mask_nonneg : 0 ≤ m.effectiveMask spec
  mask_lt : m.effectiveMask spec < 2 ^ spec.bits.toNat
  mask_allowed : spec.MaskAllowed m.key (m.effectiveMask spec)

structure SnParam.InRange (param : SnParam) (spec : Snp4InfoParam) : Prop where
  format_ok : param ≠ .unset
  value_nonneg : 0 ≤ param.value
  value_lt : param.value < 2 ^ spec.bits.toNat

-- What a rule must satisfy to be accepted
def SnRule.Acceptable (rule : SnRule) (pipeline : Snp4InfoPipeline) : Prop :=
  ∃ table action, rule.Resolves pipeline table action ∧
    (∀ p ∈ table.matchList.zip rule.matchList, p.2.InRange p.1) ∧
    (∀ p ∈ action.params.zip rule.params, p.2.InRange p.1)

-- Some number of the rule is negative
def SnRule.HasNegative (rule : SnRule) (table : Snp4InfoTable) : Prop :=
  (∃ p ∈ table.matchList.zip rule.matchList, p.2.key < 0 ∨ p.2.effectiveMask p.1 < 0) ∨
    ∃ param ∈ rule.params, param.value < 0

-- The rules on which packing goes wrong: those for a table without match fields, and those that
-- are fine except for the sign of some number
def SnRule.Mishandled (rule : SnRule) (pipeline : Snp4InfoPipeline) : Prop :=
  ∃ table action, rule.Resolves pipeline table action ∧
    (table.matchList = [] ∨
      MatchesAccepted table.matchList rule.matchList ∧ ParamsAccepted action.params rule.params ∧
        rule.HasNegative table)

def AcceptsExactly (pipeline : Snp4InfoPipeline) (rule : SnRule) (pack : SnPack) : Prop :=
  ((∃ r, snp4RulePack (some pipeline) (some rule) (some pack) = .ok r) ↔
      rule.Acceptable pipeline) ∧
    ∀ e, snp4RulePack (some pipeline) (some rule) (some pack) = .error e → ¬ e.IsPackTooBig

section

variable {pipeline : Snp4InfoPipeline} {rule : SnRule} {pack : SnPack}
variable {table : Snp4InfoTable} {action : Snp4InfoAction}

theorem natAbs_lt_iff_of_nonneg {x : Mpz} {n : Nat} (h : 0 ≤ x) : x.natAbs < 2 ^ n ↔ x < 2 ^ n := by
  obtain ⟨k, rfl⟩ := Int.eq_ofNat_of_zero_le h
  rw [Int.natAbs_natCast]
  exact_mod_cast Iff.rfl

theorem SnMatch.inRange_iff {m : SnMatch} {spec : Snp4InfoMatch} (hpos : 0 < spec.bits.toNat)
    : m.InRange spec ↔ (m.FormatOk spec ∧ spec.Accepts m.key (m.effectiveMask spec)) ∧
        0 ≤ m.key ∧ 0 ≤ m.effectiveMask spec := by
  constructor
  . intro h
    have hkey := (natAbs_lt_iff_of_nonneg h.key_nonneg).mpr h.key_lt
    have hmask := (natAbs_lt_iff_of_nonneg h.mask_nonneg).mpr h.mask_lt
    exact ⟨⟨h.format_ok, ⟨h.mask_allowed, hpos, hkey, hmask⟩⟩, h.key_nonneg, h.mask_nonneg⟩
  . rintro ⟨⟨hformat, haccepts⟩, hkey, hmask⟩
    have hkeylt := (natAbs_lt_iff_of_nonneg hkey).mp haccepts.key_fits
    have hmasklt := (natAbs_lt_iff_of_nonneg hmask).mp haccepts.mask_fits
    exact ⟨hformat, hkey, hkeylt, hmask, hmasklt, haccepts.mask_allowed⟩

theorem SnParam.inRange_iff {param : SnParam} {spec : Snp4InfoParam} (hpos : 0 < spec.bits.toNat)
    : param.InRange spec ↔ param.Accepted spec ∧ 0 ≤ param.value := by
  constructor
  . intro h
    have hvalue := (natAbs_lt_iff_of_nonneg h.value_nonneg).mpr h.value_lt
    exact ⟨⟨h.format_ok, hpos, hvalue⟩, h.value_nonneg⟩
  . rintro ⟨haccepted, hvalue⟩
    have hlt := (natAbs_lt_iff_of_nonneg hvalue).mp haccepted.value_fits
    exact ⟨haccepted.format_ok, hvalue, hlt⟩

-- On a resolved rule, acceptable means accepted by length and mask, and nothing negative
theorem acceptable_iff_of_resolves (hc : pipeline.Consistent)
    (hres : rule.Resolves pipeline table action)
    : rule.Acceptable pipeline ↔
        MatchesAccepted table.matchList rule.matchList ∧
          ParamsAccepted action.params rule.params ∧ ¬ rule.HasNegative table := by
  have htable := hc table (snp4InfoGetTableByName_mem hres.table_found)
  have haction := snp4InfoGetActionByName_mem hres.action_found
  have hmatch : ∀ p ∈ table.matchList.zip rule.matchList, 0 < p.1.bits.toNat :=
    fun p hp => htable.match_bits_pos p.1 (List.of_mem_zip hp).1
  have hparam : ∀ p ∈ action.params.zip rule.params, 0 < p.1.bits.toNat :=
    fun p hp => htable.param_bits_pos action haction p.1 (List.of_mem_zip hp).1
  have hzip : (action.params.zip rule.params).map Prod.snd = rule.params :=
    List.map_snd_zip (by rw [hres.num_params])
  constructor
  . rintro ⟨table', action', hres', hmatches, hparams⟩
    obtain ⟨rfl, rfl⟩ := hres.unique hres'
    refine ⟨?_, ?_, ?_⟩
    . intro p hp
      exact ((SnMatch.inRange_iff (hmatch p hp)).mp (hmatches p hp)).1
    . intro p hp
      exact ((SnParam.inRange_iff (hparam p hp)).mp (hparams p hp)).1
    . rintro (⟨p, hp, hneg⟩ | ⟨param, hmem, hneg⟩)
      . have := hmatches p hp
        rcases hneg with hneg | hneg
        . exact absurd this.key_nonneg (Int.not_le.mpr hneg)
        . exact absurd this.mask_nonneg (Int.not_le.mpr hneg)
      . rw [← hzip] at hmem
        obtain ⟨p, hp, rfl⟩ := List.mem_map.mp hmem
        exact absurd (hparams p hp).value_nonneg (Int.not_le.mpr hneg)
  . rintro ⟨hmatches, hparams, hneg⟩
    simp only [SnRule.HasNegative, not_or, not_exists, not_and, Int.not_lt] at hneg
    refine ⟨table, action, hres, ?_, ?_⟩
    . intro p hp
      exact (SnMatch.inRange_iff (hmatch p hp)).mpr ⟨hmatches p hp, hneg.1 p hp⟩
    . intro p hp
      exact (SnParam.inRange_iff (hparam p hp)).mpr
        ⟨hparams p hp, hneg.2 p.2 (List.of_mem_zip hp).2⟩

end

section Errors

-- The codes that a single match or parameter is refused with
def Snp4Status.IsOfField : Snp4Status → Prop
  | .fieldSpecUnknownType => True
  | .matchInvalidFormat => True
  | .matchMaskTooWide => True
  | .matchInvalidBitfieldMask => True
  | .matchInvalidConstantMask => True
  | .matchInvalidPrefixMask => True
  | .matchInvalidRangeMask => True
  | .matchInvalidUnusedMask => True
  | .matchKeyTooBig => True
  | .matchMaskTooBig => True
  | .paramInvalidFormat => True
  | .paramTooBig => True
  | _ => False

theorem Snp4Status.IsOfField.not_isPackTooBig {e : Snp4Status} (h : e.IsOfField)
    : ¬ e.IsPackTooBig := by
  cases e <;> first | exact id | exact h.elim

theorem Snp4Status.IsOfField.ne_ok {e : Snp4Status} (h : e.IsOfField) : e ≠ .ok := by
  rintro rfl
  exact h

theorem packPartialKeyMask.validate_error {spec : Snp4InfoMatch} {key mask : Mpz} {e : Snp4Status}
    (h : validate spec key mask = .error e)
    : e.IsOfField := by
  unfold validate at h
  split at h
  . split at h <;> cases h
    exact trivial
  . split at h <;> cases h
    exact trivial
  . split at h
    . cases h
    . dsimp only at h
      split at h <;> cases h
      exact trivial
  . split at h <;> cases h
    exact trivial
  . cases h
  . split at h <;> cases h
    exact trivial
  . cases h
    exact trivial

theorem packPartialKeyMask_error {m : SnMatch} {spec : Snp4InfoMatch} {e : Snp4Status}
    (h : packPartialKeyMask m spec = .error e)
    : e.IsOfField := by
  by_cases hformat : m.FormatOk spec
  . by_cases htype : spec.type = .invalid
    . obtain ⟨userMask, hfill, _⟩ := packPartialKeyMask.fill_of_formatOk hformat
      unfold packPartialKeyMask packPartialKeyMask.maskDefault at h
      rw [hfill, htype] at h
      cases h
      exact trivial
    . rw [packPartialKeyMask.eq_validate hformat htype] at h
      rcases Except.bind_eq_error_iff.mp h with hvalid | ⟨_, _, hsize⟩
      . exact packPartialKeyMask.validate_error hvalid
      . split at hsize
        . cases hsize
          exact trivial
        . split at hsize <;> cases hsize
          exact trivial
  . rcases packPartialKeyMask.fill_of_not_formatOk hformat with hfill | hfill
    . simp only [packPartialKeyMask, hfill] at h
      cases h
      exact trivial
    . simp only [packPartialKeyMask, hfill] at h
      cases h
      exact trivial

theorem snp4RulePackMatches.go_error {specs : List Snp4InfoMatch} {ms : List SnMatch}
    {acc : Mpz × Mpz} {e : Snp4Status} (h : go specs ms acc = .error e)
    : e.IsOfField := by
  induction ms generalizing specs acc with
  | nil => cases h
  | cons m ms ih =>
    rcases Except.bind_eq_error_iff.mp h with hpart | ⟨part, _, hgo⟩
    . exact packPartialKeyMask_error hpart
    . exact ih hgo

theorem packPartialParam_error {param : SnParam} {spec : Snp4InfoParam} {e : Snp4Status}
    (h : packPartialParam param spec = .error e)
    : e.IsOfField := by
  have hsize : ∀ v : Mpz,
      (if mpzSizeinbase2 v > spec.bits.toNat then .error Snp4Status.paramTooBig else .ok v)
        = Except.error e → e.IsOfField := by
    intro v hv
    split at hv <;> cases hv
    exact trivial
  cases param with
  | unset =>
    cases h
    exact trivial
  | ui v => exact hsize v.toNat h
  | mpz v => exact hsize v h

theorem snp4RulePackParams.go_error {specs : List Snp4InfoParam} {params : List SnParam}
    {acc : Mpz} {e : Snp4Status} (h : go specs params acc = .error e)
    : e.IsOfField := by
  induction params generalizing specs acc with
  | nil => cases h
  | cons param params ih =>
    rcases Except.bind_eq_error_iff.mp h with hpart | ⟨part, _, hgo⟩
    . exact packPartialParam_error hpart
    . exact ih hgo

-- On a consistent table the matches fail with a code of their own, unless there are none
theorem snp4RulePackMatches.error_of_consistent {specs : List Snp4InfoMatch} {ms : List SnMatch}
    {keyBits : UInt16} {pack : SnPack} {e : Snp4Status} (hlen : ms.length = specs.length)
    (hsum : (specs.map fun spec => spec.bits.toNat).sum = keyBits.toNat) (hne : specs ≠ [])
    (h : snp4RulePackMatches specs keyBits.toUInt32 ms pack = .error e)
    : ¬ e.IsPackTooBig := by
  by_cases haccepted : MatchesAccepted specs ms
  . rw [eq_of_accepted hlen hsum haccepted, if_neg hne] at h
    contradiction
  . rcases Except.bind_eq_error_iff.mp h with hgo | ⟨acc, hgo, _⟩
    . exact (go_error hgo).not_isPackTooBig
    . exact absurd ((go_eq_ok_iff specs ms hlen _ _).mp hgo).1 haccepted

theorem snp4RulePackParams.error_of_consistent {action : Snp4InfoAction} {params : List SnParam}
    {tableBits : UInt32} {pack : SnPack} {e : Snp4Status}
    (hlen : params.length = action.params.length)
    (hsum : (action.params.map fun spec => spec.bits.toNat).sum = action.paramBits.toNat)
    (h : snp4RulePackParams action.params tableBits action.paramBits.toUInt32 params pack
      = .error e)
    : ¬ e.IsPackTooBig := by
  by_cases haccepted : ParamsAccepted action.params params
  . rw [eq_of_accepted hlen hsum haccepted] at h
    contradiction
  . unfold snp4RulePackParams at h
    split at h
    . contradiction
    . rcases Except.bind_eq_error_iff.mp h with hgo | ⟨acc, hgo, _⟩
      . exact (go_error hgo).not_isPackTooBig
      . exact absurd ((go_eq_ok_iff _ params hlen _ _).mp hgo).1 haccepted

end Errors

theorem snp4RulePack_acceptsExactly_iff {pipeline : Snp4InfoPipeline} (hc : pipeline.Consistent)
    (rule : SnRule) (pack : SnPack)
    : AcceptsExactly pipeline rule pack ↔ ¬ rule.Mishandled pipeline := by
  by_cases h : ∃ table action, rule.Resolves pipeline table action
  . obtain ⟨table, action, hres⟩ := h
    have htable := hc table (snp4InfoGetTableByName_mem hres.table_found)
    have haction := snp4InfoGetActionByName_mem hres.action_found
    have hok : (∃ r, snp4RulePack (some pipeline) (some rule) (some pack) = .ok r) ↔
        table.matchList ≠ [] ∧ MatchesAccepted table.matchList rule.matchList ∧
          ParamsAccepted action.params rule.params := by
      simp only [snp4RulePack_eq_ok_iff pack hc]
      constructor
      . rintro ⟨r, table', action', hres', hne, hmatches, hparams, _⟩
        obtain ⟨rfl, rfl⟩ := hres.unique hres'
        exact ⟨hne, hmatches, hparams⟩
      . rintro ⟨hne, hmatches, hparams⟩
        exact ⟨_, table, action, hres, hne, hmatches, hparams, rfl⟩
    have hmis : rule.Mishandled pipeline ↔ table.matchList = [] ∨
        MatchesAccepted table.matchList rule.matchList ∧
          ParamsAccepted action.params rule.params ∧ rule.HasNegative table := by
      constructor
      . rintro ⟨table', action', hres', hcase⟩
        obtain ⟨rfl, rfl⟩ := hres.unique hres'
        exact hcase
      . intro hcase
        exact ⟨table, action, hres, hcase⟩
    unfold AcceptsExactly
    rw [hok, hmis, acceptable_iff_of_resolves hc hres]
    by_cases hne : table.matchList = []
    . -- The code of the empty table is reached whatever the parameters are
      have hmatches : MatchesAccepted table.matchList rule.matchList := by
        rw [hne]
        intro p hp
        simp at hp
      have herror : snp4RulePack (some pipeline) (some rule) (some pack)
          = .error .packKeyTooBig := by
        rw [snp4RulePack_of_resolves pack hres]
        rw [snp4RulePackMatches.eq_of_accepted hres.num_matches htable.match_bits_sum hmatches]
        rw [if_pos hne]
        rfl
      constructor
      . rintro ⟨_, hcodes⟩
        exact absurd trivial (hcodes _ herror)
      . intro hnot
        exact absurd (.inl hne) hnot
    . have hcodes : ∀ e, snp4RulePack (some pipeline) (some rule) (some pack) = .error e →
          ¬ e.IsPackTooBig := by
        intro e herror
        rw [snp4RulePack_of_resolves pack hres] at herror
        rcases Except.bind_eq_error_iff.mp herror with hm | ⟨_, _, hp⟩
        . exact snp4RulePackMatches.error_of_consistent hres.num_matches htable.match_bits_sum
            hne hm
        . exact snp4RulePackParams.error_of_consistent hres.num_params
            (htable.param_bits_sum action haction) hp
      tauto
  . simp only [not_exists] at h
    obtain ⟨e, herror, he⟩ := snp4RulePack_of_not_resolves pack h
    constructor
    . rintro _ ⟨table, action, hres, _⟩
      exact h table action hres
    . intro _
      refine ⟨?_, ?_⟩
      . rw [herror]
        constructor
        . rintro ⟨r, hr⟩
          contradiction
        . rintro ⟨table, action, hres, _⟩
          exact absurd hres (h table action)
      . intro e' he'
        rw [herror] at he'
        cases he'
        simp only [List.mem_cons, List.not_mem_nil, or_false] at he
        rcases he with rfl | rfl | rfl | rfl <;> exact id

-- A rule for the ternary field of 9 bits that writes its key as `-1`
def negativeRule : SnRule :=
  { tableName := some "t_t9", matchList := [.keyMask (-1) 0x1ff], actionName := some "a_nop",
    params := [], priority := 0 }

theorem negativeRule_acceptsExactly_iff
    : snp4InfoPipeline.Consistent ∧
        (AcceptsExactly snp4InfoPipeline negativeRule snp4PackInit ↔
          ¬ negativeRule.Mishandled snp4InfoPipeline) :=
  ⟨snp4InfoPipeline_consistent,
    snp4RulePack_acceptsExactly_iff snp4InfoPipeline_consistent negativeRule snp4PackInit⟩

-- A table without match fields, as the parser of the table's format string allows
def keylessPipeline : Snp4InfoPipeline :=
  { tables := [
      { name := "t_0", keyBits := 0, matchList := [], responseBits := 64, actionidBits := 2,
        actions := [{ name := "a_nop", paramBits := 0, params := [] }] }] }

def keylessRule : SnRule :=
  { tableName := some "t_0", matchList := [], actionName := some "a_nop", params := [],
    priority := 0 }

theorem not_acceptsExactly_keylessRule
    : keylessPipeline.Consistent ∧
        snp4RulePack (some keylessPipeline) (some keylessRule) (some snp4PackInit)
          = .error .packKeyTooBig ∧
        ¬ AcceptsExactly keylessPipeline keylessRule snp4PackInit ∧
      snp4InfoPipeline.Consistent ∧
        (∃ r, snp4RulePack (some snp4InfoPipeline) (some negativeRule) (some snp4PackInit)
          = .ok r) ∧
        ¬ AcceptsExactly snp4InfoPipeline negativeRule snp4PackInit := by
  have hkeyless : snp4RulePack (some keylessPipeline) (some keylessRule) (some snp4PackInit)
      = .error .packKeyTooBig := by
    decide +kernel
  have hnegative : ∃ r, snp4RulePack (some snp4InfoPipeline) (some negativeRule)
      (some snp4PackInit) = .ok r := by
    refine ⟨SnPack.mk (some [0, 1]) 2 (some [1, 0xff]) 2 (some [0]) 0, ?_⟩
    decide +kernel
  refine ⟨by decide, hkeyless, ?_, snp4InfoPipeline_consistent, hnegative, ?_⟩
  . intro h
    exact h.2 _ hkeyless trivial
  . intro h
    obtain ⟨table, action, hres, hmatches, _⟩ := h.1.mp hnegative
    have hlist : (snp4InfoGetTableByName (some snp4InfoPipeline) negativeRule.tableName).map
        (·.matchList) = some [⟨.ternary, 9⟩] := by
      decide +kernel
    rw [hres.table_found, Option.map_some, Option.some.injEq] at hlist
    have hkey := hmatches (⟨.ternary, 9⟩, .keyMask (-1) 0x1ff) (by simp [hlist, negativeRule])
    exact absurd hkey.key_nonneg (by decide)
