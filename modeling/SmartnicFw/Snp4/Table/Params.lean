import SmartnicFw.Lib.Except
import SmartnicFw.Snp4.Table.Export

/-!
This module contains what packing the parameters of an action does: when it succeeds, and which
integer ends up in the parameter buffer.
-/

namespace SnParam

def value : SnParam → Mpz
  | .unset => 0
  | .ui v => v.toNat
  | .mpz v => v

structure Accepted (param : SnParam) (spec : Snp4InfoParam) : Prop where
  format_ok : param ≠ .unset
  bits_pos : 0 < spec.bits.toNat
  value_fits : param.value.natAbs < 2 ^ spec.bits.toNat

end SnParam

theorem packPartialParam_eq_ok_iff (param : SnParam) (spec : Snp4InfoParam) (r : Mpz)
    : packPartialParam param spec = .ok r ↔ param.Accepted spec ∧ r = param.value := by
  have hsize : ∀ v : Mpz,
      (if mpzSizeinbase2 v > spec.bits.toNat then .error Snp4Status.paramTooBig else .ok v)
        = Except.ok r ↔
        (0 < spec.bits.toNat ∧ v.natAbs < 2 ^ spec.bits.toNat) ∧ r = v := by
    intro v
    have hpos := mpzSizeinbase2_pos v
    simp only [Except.ite_error_eq_ok_iff, Except.ok.injEq]
    constructor
    . rintro ⟨hle, rfl⟩
      exact ⟨⟨by omega, (mpzSizeinbase2_le_iff v (by omega)).mp (by omega)⟩, rfl⟩
    . rintro ⟨⟨hbits, hlt⟩, rfl⟩
      have := (mpzSizeinbase2_le_iff r hbits).mpr hlt
      exact ⟨by omega, rfl⟩
  cases param with
  | unset =>
    constructor
    . intro h
      contradiction
    . intro h
      exact absurd rfl h.1.format_ok
  | ui ui =>
    refine (hsize ui.toNat).trans ?_
    constructor
    . rintro ⟨⟨hbits, hlt⟩, hr⟩
      exact ⟨⟨by simp, hbits, hlt⟩, hr⟩
    . rintro ⟨⟨_, hbits, hlt⟩, hr⟩
      exact ⟨⟨hbits, hlt⟩, hr⟩
  | mpz mpz =>
    refine (hsize mpz).trans ?_
    constructor
    . rintro ⟨⟨hbits, hlt⟩, hr⟩
      exact ⟨⟨by simp, hbits, hlt⟩, hr⟩
    . rintro ⟨⟨_, hbits, hlt⟩, hr⟩
      exact ⟨⟨hbits, hlt⟩, hr⟩

def paramParts (specs : List Snp4InfoParam) (params : List SnParam) : List (Nat × Mpz) :=
  (specs.zip params).map fun p => (p.1.bits.toNat, p.2.value)

def ParamsAccepted (specs : List Snp4InfoParam) (params : List SnParam) : Prop :=
  ∀ p ∈ specs.zip params, p.2.Accepted p.1

def packedParams (specs : List Snp4InfoParam) (params : List SnParam) : Mpz :=
  (paramParts specs params).foldl mpzAppend 0

theorem ParamsAccepted.paramParts_fit {specs : List Snp4InfoParam} {params : List SnParam}
    (h : ParamsAccepted specs params)
    : ∀ part ∈ paramParts specs params, part.2.natAbs < 2 ^ part.1 := by
  intro part hpart
  obtain ⟨p, hp, rfl⟩ := List.mem_map.mp hpart
  exact (h p hp).value_fits

theorem map_fst_paramParts {specs : List Snp4InfoParam} {params : List SnParam}
    (hlen : params.length = specs.length)
    : (paramParts specs params).map Prod.fst = specs.map fun spec => spec.bits.toNat := by
  have hzip : (specs.zip params).map Prod.fst = specs := List.map_fst_zip (by omega)
  unfold paramParts
  conv => rhs; rw [← hzip]
  rw [List.map_map, List.map_map]
  rfl

theorem map_snd_paramParts {specs : List Snp4InfoParam} {params : List SnParam}
    (hlen : params.length = specs.length)
    : (paramParts specs params).map Prod.snd = params.map SnParam.value := by
  have hzip : (specs.zip params).map Prod.snd = params := List.map_snd_zip (by omega)
  unfold paramParts
  conv => rhs; rw [← hzip]
  rw [List.map_map, List.map_map]
  rfl

-- What packing the parameters leaves in the pack
def SnPack.withParams (pack : SnPack) (tableParamSizeBits : UInt32) (action : Snp4InfoAction)
    (params : List SnParam)
    : SnPack :=
  if action.paramBits = 0 then
    { pack with params := some (calloc 1), paramsLen := 0 }
  else
    let paddedBytes := (tableParamSizeBits + 7) / 8
    let paramsAll := packedParams action.params params
    { pack with
      params := some (exportPadded paddedBytes (UInt32.ofNat (mpzSizeinbase2 paramsAll)) paramsAll)
      paramsLen := paddedBytes.toNat }

namespace snp4RulePackParams

theorem go_eq_ok_iff (specs : List Snp4InfoParam) (params : List SnParam)
    (hlen : params.length = specs.length) (acc r : Mpz)
    : go specs params acc = .ok r ↔ ParamsAccepted specs params ∧
        r = (paramParts specs params).foldl mpzAppend acc := by
  induction params generalizing specs acc with
  | nil => simp [go, ParamsAccepted, paramParts, eq_comm]
  | cons param params ih =>
    cases specs with
    | nil => simp at hlen
    | cons spec specs =>
      have hlen' : params.length = specs.length := by simpa using hlen
      simp only [go, List.headD_cons, List.tail_cons, Except.bind_eq_ok_iff]
      constructor
      . rintro ⟨part, hpart, hgo⟩
        obtain ⟨haccepted, rfl⟩ := (packPartialParam_eq_ok_iff _ _ _).mp hpart
        obtain ⟨hrest, hr⟩ := (ih specs hlen' _).mp hgo
        refine ⟨?_, hr⟩
        intro p hp
        rcases List.mem_cons.mp hp with rfl | hp
        . exact haccepted
        . exact hrest p hp
      . rintro ⟨hall, hr⟩
        refine ⟨_, (packPartialParam_eq_ok_iff _ _ _).mpr ⟨hall (spec, param) (by simp), rfl⟩, ?_⟩
        apply (ih specs hlen' _).mpr
        exact ⟨fun p hp => hall p (by simp [hp]), hr⟩

variable {action : Snp4InfoAction} {params : List SnParam} {tableBits : UInt32} {pack : SnPack}

theorem natAbs_packedParams_lt (hlen : params.length = action.params.length)
    (hsum : (action.params.map fun spec => spec.bits.toNat).sum = action.paramBits.toNat)
    (h : ParamsAccepted action.params params)
    : (packedParams action.params params).natAbs < 2 ^ action.paramBits.toNat := by
  have := natAbs_foldl_mpzAppend_lt (paramParts action.params params) h.paramParts_fit 0
    (n := 0) (by simp)
  rwa [map_fst_paramParts hlen, hsum, Nat.zero_add] at this

-- An action whose widths are positive and add up to 0 has no parameters at all
theorem params_eq_nil (hpos : ∀ spec ∈ action.params, 0 < spec.bits.toNat)
    (hsum : (action.params.map fun spec => spec.bits.toNat).sum = action.paramBits.toNat)
    (hzero : action.paramBits = 0)
    : action.params = [] := by
  cases hparams : action.params with
  | nil => rfl
  | cons spec specs =>
    have := hpos spec (by simp [hparams])
    rw [hparams, hzero] at hsum
    simp at hsum
    omega

theorem eq_of_accepted (hlen : params.length = action.params.length)
    (hsum : (action.params.map fun spec => spec.bits.toNat).sum = action.paramBits.toNat)
    (h : ParamsAccepted action.params params)
    : snp4RulePackParams action.params tableBits action.paramBits.toUInt32 params pack
        = .ok (pack.withParams tableBits action params) := by
  have hgo : go action.params params 0 = .ok (packedParams action.params params) :=
    (go_eq_ok_iff _ params hlen _ _).mpr ⟨h, rfl⟩
  unfold snp4RulePackParams SnPack.withParams
  have hzero : action.paramBits.toUInt32 = 0 ↔ action.paramBits = 0 := by
    rw [← UInt32.toNat_inj, ← UInt16.toNat_inj]
    simp
  by_cases hbits : action.paramBits = 0
  . rw [if_pos (hzero.mpr hbits), if_pos hbits]
    rfl
  . rw [if_neg (hzero.not.mpr hbits), if_neg hbits, hgo]
    have hpos : 0 < action.paramBits.toNat := by
      by_contra h0
      exact hbits (UInt16.toNat_inj.mp (by simpa using h0))
    have hlt := action.paramBits.toNat_lt
    have hsize := (mpzSizeinbase2_le_iff _ hpos).mpr (natAbs_packedParams_lt hlen hsum h)
    have hfits : ¬ UInt32.ofNat (mpzSizeinbase2 (packedParams action.params params))
        > action.paramBits.toUInt32 := by
      rw [gt_iff_lt, UInt32.lt_iff_toNat_lt, UInt32.toNat_ofNat_of_lt' (by
        simp only [UInt32.size]; omega), UInt16.toNat_toUInt32]
      omega
    show (if _ then _ else _) = _
    rw [if_neg hfits]
    rfl

theorem eq_ok_iff (hlen : params.length = action.params.length)
    (hpos : ∀ spec ∈ action.params, 0 < spec.bits.toNat)
    (hsum : (action.params.map fun spec => spec.bits.toNat).sum = action.paramBits.toNat)
    (r : SnPack)
    : snp4RulePackParams action.params tableBits action.paramBits.toUInt32 params pack = .ok r ↔
        ParamsAccepted action.params params ∧ r = pack.withParams tableBits action params := by
  constructor
  . intro hok
    have haccepted : ParamsAccepted action.params params := by
      by_cases hbits : action.paramBits = 0
      . rw [params_eq_nil hpos hsum hbits]
        intro p hp
        simp at hp
      . unfold snp4RulePackParams at hok
        rw [if_neg (by simpa [← UInt32.toNat_inj, ← UInt16.toNat_inj] using hbits)] at hok
        obtain ⟨paramsAll, hgo, _⟩ := Except.bind_eq_ok_iff.mp hok
        exact ((go_eq_ok_iff _ params hlen _ _).mp hgo).1
    rw [eq_of_accepted hlen hsum haccepted] at hok
    exact ⟨haccepted, by simpa using hok.symm⟩
  . rintro ⟨haccepted, rfl⟩
    exact eq_of_accepted hlen hsum haccepted

end snp4RulePackParams
