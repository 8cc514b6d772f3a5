import SmartnicFw.Lib.Masks
import SmartnicFw.Snp4.Info

/-!
This module contains the packing of a rule into the key, mask and parameter bytes of a table entry
(`snp4_table.c`). An `mpz_t` is an integer, a status other than `SNP4_STATUS_OK` is an error.
-/

inductive SnMatch where
  | unset
  | keyMask (key mask : Mpz)
  | keyOnly (key : Mpz)
  | keyPrefix (key : Mpz) (prefixLen : UInt16)
  | range (lower upper : UInt16)
  | unused
  deriving DecidableEq, Repr

inductive SnParam where
  | unset
  | ui (ui : UInt64)
  | mpz (mpz : Mpz)
  deriving DecidableEq, Repr

structure SnRule where
  tableName : Option String
  matchList : List SnMatch
  actionName : Option String
  params : List SnParam
  priority : UInt32
  deriving DecidableEq, Repr

structure SnPack where
  key : Option (List UInt8)
  keyLen : Nat
  mask : Option (List UInt8)
  maskLen : Nat
  params : Option (List UInt8)
  paramsLen : Nat
  deriving DecidableEq, Repr

def onesMask (spec : Snp4InfoMatch) : Mpz := mpzMul2exp 1 spec.bits.toNat - 1

namespace packPartialKeyMask

/--
The first switch, on the format of the user's match: the key part and, if the format has one, the
mask part.
-/
def fill (m : SnMatch) (spec : Snp4InfoMatch) : Except Snp4Status (Mpz × Option Mpz) :=
  match m with
  | .keyMask key mask => .ok (key, some mask)
  | .keyOnly key => .ok (key, none)
  | .keyPrefix key prefixLen =>
    if prefixLen > spec.bits then
      .error .matchMaskTooWide
    else
      let maskPart := mpzMul2exp 1 prefixLen.toNat - 1
      let maskPart := mpzMul2exp maskPart (spec.bits.toNat - prefixLen.toNat)
      .ok (key, some maskPart)
  | .range lower upper => .ok ((lower.toNat : Mpz), some (upper.toNat : Mpz))
  | .unused => .ok (0, some 0)
  | .unset => .error .matchInvalidFormat

/--
The second switch, on the type of the field as defined in p4.
-/
def maskDefault (spec : Snp4InfoMatch) (keyPart : Mpz) : Except Snp4Status Mpz :=
  match spec.type with
  | .bitfield => .ok (onesMask spec)
  | .constant => .ok (onesMask spec)
  | .prefixed => .ok (onesMask spec)
  | .range => .ok keyPart
  | .ternary => .ok (onesMask spec)
  | .unused => .ok 0
  | .invalid => .error .fieldSpecUnknownType

/--
The third switch: is the mask one that the type of the field allows?
-/
def validate (spec : Snp4InfoMatch) (keyPart maskPart : Mpz) : Except Snp4Status Unit :=
  match spec.type with
  | .bitfield =>
    if maskPart = 0 ∨ maskPart = onesMask spec then .ok () else .error .matchInvalidBitfieldMask
  | .constant =>
    if maskPart = onesMask spec then .ok () else .error .matchInvalidConstantMask
  | .prefixed =>
    if maskPart = 0 then
      .ok ()
    else
      let lowestOnePos := mpzScan1 maskPart 0
      if mpzScan0 maskPart lowestOnePos < spec.bits.toNat then
        .error .matchInvalidPrefixMask
      else
        .ok ()
  | .range =>
    if maskPart < keyPart then .error .matchInvalidRangeMask else .ok ()
  | .ternary => .ok ()
  | .unused =>
    if maskPart = 0 then .ok () else .error .matchInvalidUnusedMask
  | .invalid => .error .fieldSpecUnknownType

end packPartialKeyMask

def packPartialKeyMask (m : SnMatch) (spec : Snp4InfoMatch) : Except Snp4Status (Mpz × Mpz) := do
  let (keyPart, userMask) ← packPartialKeyMask.fill m spec
  let maskDefault ← packPartialKeyMask.maskDefault spec keyPart
  let maskPart := userMask.getD maskDefault
  packPartialKeyMask.validate spec keyPart maskPart
  if mpzSizeinbase2 keyPart > spec.bits.toNat then
    throw .matchKeyTooBig
  if mpzSizeinbase2 maskPart > spec.bits.toNat then
    throw .matchMaskTooBig
  return (keyPart, maskPart)

def calloc (n : UInt32) : List UInt8 := List.replicate n.toNat 0

/--
Overwrite the bytes of a buffer from an offset on.
-/
def writeAt (buf : List UInt8) (off : Nat) (bytes : List UInt8) : List UInt8 :=
  buf.take off ++ bytes ++ buf.drop (off + bytes.length)

/--
Export an integer of `finalBits` bits right-aligned into a fresh buffer of `paddedBytes` bytes.
-/
def exportPadded (paddedBytes finalBits : UInt32) (op : Mpz) : List UInt8 :=
  let finalPadBytes := paddedBytes - (finalBits + 7) / 8
  writeAt (calloc paddedBytes) finalPadBytes.toNat (mpzExport op)

/--
The loop over the matches. `acc` holds the key and the mask of the fields so far.
-/
def snp4RulePackMatches.go (matchInfoSpecs : List Snp4InfoMatch) (ms : List SnMatch)
    (acc : Mpz × Mpz)
    : Except Snp4Status (Mpz × Mpz) :=
  match ms with
  | [] => .ok acc
  | m :: ms => do
    let spec := matchInfoSpecs.headD default
    let (keyPart, maskPart) ← packPartialKeyMask m spec
    let key := mpzIor (mpzMul2exp acc.1 spec.bits.toNat) keyPart
    let mask := mpzIor (mpzMul2exp acc.2 spec.bits.toNat) maskPart
    go matchInfoSpecs.tail ms (key, mask)

def snp4RulePackMatches (matchInfoSpecs : List Snp4InfoMatch) (keySizeBits : UInt32)
    (ms : List SnMatch) (pack : SnPack)
    : Except Snp4Status SnPack := do
  let (key, mask) ← snp4RulePackMatches.go matchInfoSpecs ms (0, 0)
  let keySizePaddedBytes := (keySizeBits + 7) / 8
  let finalKeyBits := UInt32.ofNat (mpzSizeinbase2 key)
  if finalKeyBits > keySizeBits then
    throw .packKeyTooBig
  let finalMaskBits := UInt32.ofNat (mpzSizeinbase2 mask)
  if finalMaskBits > keySizeBits then
    throw .packMaskTooBig
  return { pack with
    key := some (exportPadded keySizePaddedBytes finalKeyBits key)
    keyLen := keySizePaddedBytes.toNat
    mask := some (exportPadded keySizePaddedBytes finalMaskBits mask)
    maskLen := keySizePaddedBytes.toNat }

def packPartialParam (param : SnParam) (paramSpec : Snp4InfoParam) : Except Snp4Status Mpz := do
  let paramPart ← match param with
    | .ui ui => pure (ui.toNat : Mpz)
    | .mpz mpz => pure mpz
    | .unset => throw .paramInvalidFormat
  if mpzSizeinbase2 paramPart > paramSpec.bits.toNat then
    throw .paramTooBig
  return paramPart

def snp4RulePackParams.go (paramInfoSpecs : List Snp4InfoParam) (params : List SnParam)
    (paramsAll : Mpz)
    : Except Snp4Status Mpz :=
  match params with
  | [] => .ok paramsAll
  | param :: params => do
    let spec := paramInfoSpecs.headD default
    let paramPart ← packPartialParam param spec
    go paramInfoSpecs.tail params (mpzIor (mpzMul2exp paramsAll spec.bits.toNat) paramPart)

def snp4RulePackParams (paramInfoSpecs : List Snp4InfoParam)
    (tableParamSizeBits actionParamSizeBits : UInt32) (params : List SnParam) (pack : SnPack)
    : Except Snp4Status SnPack := do
  -- No parameters for this action: a buffer of one byte whose length is given as 0
  if actionParamSizeBits = 0 then
    return { pack with params := some (calloc 1), paramsLen := 0 }
  let paramsAll ← snp4RulePackParams.go paramInfoSpecs params 0
  -- Sized for the longest parameters of any action, not for those of this one
  let paramSizePaddedBytes := (tableParamSizeBits + 7) / 8
  let finalParamBits := UInt32.ofNat (mpzSizeinbase2 paramsAll)
  if finalParamBits > actionParamSizeBits then
    throw .packParamsTooBig
  return { pack with
    params := some (exportPadded paramSizePaddedBytes finalParamBits paramsAll)
    paramsLen := paramSizePaddedBytes.toNat }

def snp4PackInit : SnPack :=
  { key := none, keyLen := 0, mask := none, maskLen := 0, params := none, paramsLen := 0 }

/--
The pointers may be NULL. What `pack` points to is overwritten by `snp4PackInit` first.
-/
def snp4RulePack (pipeline : Option Snp4InfoPipeline) (rule : Option SnRule) (pack : Option SnPack)
    : Except Snp4Status SnPack := do
  let some pipeline := pipeline | throw .nullPipeline
  let some rule := rule | throw .nullRule
  let some _ := pack | throw .nullPack
  let some tableInfo := snp4InfoGetTableByName (some pipeline) rule.tableName
    | throw .invalidTableName
  let some actionInfo := snp4InfoGetActionByName (some tableInfo) rule.actionName
    | throw .invalidActionForTable
  if rule.matchList.length ≠ tableInfo.matchList.length then
    throw .fieldSpecSizeMismatch
  if rule.params.length ≠ actionInfo.params.length then
    throw .paramSpecSizeMismatch
  let pack ← snp4RulePackMatches tableInfo.matchList tableInfo.keyBits.toUInt32 rule.matchList
    snp4PackInit
  snp4RulePackParams actionInfo.params
    (tableInfo.responseBits.toUInt32 - tableInfo.actionidBits.toUInt32)
    actionInfo.paramBits.toUInt32 rule.params pack
