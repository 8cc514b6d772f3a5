import SmartnicFw.Lib.Heap
import SmartnicFw.Snp4.Table.Rule

/-!
This module contains the packing of a rule with the buffers that `snp4_table.c` allocates and frees
on the way, and when it releases what it does not return.
-/

/--
`struct sn_pack` as the C code has it: its pointers are handles, `none` is NULL.
-/
structure PackBuffers where
  key : Option Nat
  keyLen : Nat
  mask : Option Nat
  maskLen : Nat
  params : Option Nat
  paramsLen : Nat
  deriving DecidableEq, Repr

abbrev ByteHeap := Heap (List UInt8)

def snp4PackInitBuffers : PackBuffers :=
  { key := none, keyLen := 0, mask := none, maskLen := 0, params := none, paramsLen := 0 }

def snp4PackClear.freePointer (p : Option Nat) (heap : ByteHeap) : ByteHeap :=
  match p with
  | some p => heap.free p
  | none => heap

def snp4PackClear (pack : PackBuffers) (heap : ByteHeap) : PackBuffers × ByteHeap :=
  let heap := snp4PackClear.freePointer pack.key heap
  let heap := snp4PackClear.freePointer pack.mask heap
  let heap := snp4PackClear.freePointer pack.params heap
  ({ pack with key := none, mask := none, params := none }, heap)

/--
The exits after the allocation free both buffers and leave their addresses in `pack`.
-/
def snp4RulePackMatchesBuffers (matchInfoSpecs : List Snp4InfoMatch) (keySizeBits : UInt32)
    (ms : List SnMatch) (pack : PackBuffers) (heap : ByteHeap)
    : Except Snp4Status Unit × PackBuffers × ByteHeap :=
  match snp4RulePackMatches.go matchInfoSpecs ms (0, 0) with
  | .error rc => (.error rc, pack, heap)
  | .ok (key, mask) =>
    let keySizePaddedBytes := (keySizeBits + 7) / 8
    let (packKey, heap) := heap.alloc (calloc keySizePaddedBytes)
    let (packMask, heap) := heap.alloc (calloc keySizePaddedBytes)
    let pack := { pack with
      key := some packKey
      keyLen := keySizePaddedBytes.toNat
      mask := some packMask
      maskLen := keySizePaddedBytes.toNat }
    let finalKeyBits := UInt32.ofNat (mpzSizeinbase2 key)
    if finalKeyBits > keySizeBits then
      (.error .packKeyTooBig, pack, (heap.free packKey).free packMask)
    else
      let heap := heap.write packKey (exportPadded keySizePaddedBytes finalKeyBits key)
      let finalMaskBits := UInt32.ofNat (mpzSizeinbase2 mask)
      if finalMaskBits > keySizeBits then
        (.error .packMaskTooBig, pack, (heap.free packKey).free packMask)
      else
        (.ok (), pack, heap.write packMask (exportPadded keySizePaddedBytes finalMaskBits mask))

def snp4RulePackParamsBuffers (paramInfoSpecs : List Snp4InfoParam)
    (tableParamSizeBits actionParamSizeBits : UInt32) (params : List SnParam) (pack : PackBuffers)
    (heap : ByteHeap)
    : Except Snp4Status Unit × PackBuffers × ByteHeap :=
  if actionParamSizeBits = 0 then
    let (packParams, heap) := heap.alloc (calloc 1)
    (.ok (), { pack with params := some packParams, paramsLen := 0 }, heap)
  else
    match snp4RulePackParams.go paramInfoSpecs params 0 with
    | .error rc => (.error rc, pack, heap)
    | .ok paramsAll =>
      let paramSizePaddedBytes := (tableParamSizeBits + 7) / 8
      let (packParams, heap) := heap.alloc (calloc paramSizePaddedBytes)
      let pack := { pack with
        params := some packParams
        paramsLen := paramSizePaddedBytes.toNat }
      let finalParamBits := UInt32.ofNat (mpzSizeinbase2 paramsAll)
      if finalParamBits > actionParamSizeBits then
        (.error .packParamsTooBig, pack, heap.free packParams)
      else
        (.ok (), pack,
          heap.write packParams (exportPadded paramSizePaddedBytes finalParamBits paramsAll))

def snp4RulePackBuffers.outError (rc : Snp4Status) (pack : PackBuffers) (heap : ByteHeap)
    : Except Snp4Status Unit × PackBuffers × ByteHeap :=
  let (pack, heap) := snp4PackClear pack heap
  (.error rc, pack, heap)

/--
`pipeline`, `rule` and `pack` are not NULL.
-/
def snp4RulePackBuffers (pipeline : Snp4InfoPipeline) (rule : SnRule) (heap : ByteHeap)
    : Except Snp4Status Unit × PackBuffers × ByteHeap :=
  let pack := snp4PackInitBuffers
  match snp4InfoGetTableByName (some pipeline) rule.tableName with
  | none => (.error .invalidTableName, pack, heap)
  | some tableInfo =>
    match snp4InfoGetActionByName (some tableInfo) rule.actionName with
    | none => (.error .invalidActionForTable, pack, heap)
    | some actionInfo =>
      if rule.matchList.length ≠ tableInfo.matchList.length then
        (.error .fieldSpecSizeMismatch, pack, heap)
      else if rule.params.length ≠ actionInfo.params.length then
        (.error .paramSpecSizeMismatch, pack, heap)
      else
        match snp4RulePackMatchesBuffers tableInfo.matchList tableInfo.keyBits.toUInt32
            rule.matchList pack heap with
        | (.ok (), pack, heap) =>
          match snp4RulePackParamsBuffers actionInfo.params
              (tableInfo.responseBits.toUInt32 - tableInfo.actionidBits.toUInt32)
              actionInfo.paramBits.toUInt32 rule.params pack heap with
          | (.ok (), pack, heap) => (.ok (), pack, heap)
          | (.error rc, pack, heap) => snp4RulePackBuffers.outError rc pack heap
        | (.error rc, pack, heap) => snp4RulePackBuffers.outError rc pack heap

-- The bytes that the pointers lead to
def PackBuffers.load (pack : PackBuffers) (heap : ByteHeap) : SnPack :=
  { key := pack.key.bind heap.read
    keyLen := pack.keyLen
    mask := pack.mask.bind heap.read
    maskLen := pack.maskLen
    params := pack.params.bind heap.read
    paramsLen := pack.paramsLen }

def KeyMaskFits (specs : List Snp4InfoMatch) (keySizeBits : UInt32) (ms : List SnMatch) : Prop :=
  UInt32.ofNat (mpzSizeinbase2 (packedKey specs ms)) ≤ keySizeBits ∧
    UInt32.ofNat (mpzSizeinbase2 (packedMask specs ms)) ≤ keySizeBits

def ParamsFit (specs : List Snp4InfoParam) (paramSizeBits : UInt32) (params : List SnParam)
    : Prop :=
  UInt32.ofNat (mpzSizeinbase2 (packedParams specs params)) ≤ paramSizeBits

-- What packing the matches comes to, beside what `snp4RulePackMatches` says of it
inductive PacksMatches (specs : List Snp4InfoMatch) (keySizeBits : UInt32) (ms : List SnMatch)
    (heap : ByteHeap)
    : Except Snp4Status SnPack → Except Snp4Status Unit × PackBuffers × ByteHeap → Prop where
  | refused (rc : Snp4Status) (hrefused : ¬ MatchesAccepted specs ms)
    : PacksMatches specs keySizeBits ms heap (.error rc) (.error rc, snp4PackInitBuffers, heap)
  | tooBig (rc : Snp4Status) (pack : PackBuffers) (heap' : ByteHeap) (k m : Nat)
    (haccepted : MatchesAccepted specs ms) (hsize : ¬ KeyMaskFits specs keySizeBits ms)
    (hkey : pack.key = some k) (hmask : pack.mask = some m) (hparams : pack.params = none)
    (hleaves : heap.Leaves heap' [])
    (hreleased : heap'.released.count k = heap.released.count k + 1)
    : PacksMatches specs keySizeBits ms heap (.error rc) (.error rc, pack, heap')
  | packed (pack : PackBuffers) (heap' : ByteHeap) (k m : Nat)
    (haccepted : MatchesAccepted specs ms) (hsize : KeyMaskFits specs keySizeBits ms)
    (hkey : pack.key = some k) (hmask : pack.mask = some m) (hparams : pack.params = none)
    (hleaves : heap.Leaves heap' [k, m])
    : PacksMatches specs keySizeBits ms heap (.ok (pack.load heap')) (.ok (), pack, heap')

theorem packsMatches {specs : List Snp4InfoMatch} {ms : List SnMatch}
    (hlen : ms.length = specs.length) (keySizeBits : UInt32) (heap : ByteHeap)
    : PacksMatches specs keySizeBits ms heap
        (snp4RulePackMatches specs keySizeBits ms snp4PackInit)
        (snp4RulePackMatchesBuffers specs keySizeBits ms snp4PackInitBuffers heap) := by
  by_cases haccepted : MatchesAccepted specs ms
  . have hgo : snp4RulePackMatches.go specs ms (0, 0)
        = .ok (packedKey specs ms, packedMask specs ms) :=
      (snp4RulePackMatches.go_eq_ok_iff specs ms hlen _ _).mpr ⟨haccepted, rfl⟩
    rw [snp4RulePackMatches.of_go_eq_ok hgo]
    unfold snp4RulePackMatchesBuffers
    rw [hgo]
    dsimp only
    let bytes := calloc ((keySizeBits + 7) / 8)
    let keyBytes := exportPadded ((keySizeBits + 7) / 8)
      (UInt32.ofNat (mpzSizeinbase2 (packedKey specs ms))) (packedKey specs ms)
    let maskBytes := exportPadded ((keySizeBits + 7) / 8)
      (UInt32.ofNat (mpzSizeinbase2 (packedMask specs ms))) (packedMask specs ms)
    let k := heap.blocks.length
    let m := (heap.alloc bytes).2.blocks.length
    have hk : k < m := by simp [k, m]
    have hmem : k ∈ [k, m] := List.mem_cons_self
    have hboth : heap.Leaves ((heap.alloc bytes).2.alloc bytes).2 [k, m] :=
      (((Heap.Leaves.refl heap).alloc bytes).alloc bytes).perm (List.Perm.swap _ _ _)
    -- Both exits free what is at the two handles, whatever has been written there by then
    have hexit : ∀ heap', heap.Leaves heap' [k, m] →
        heap.Leaves ((heap'.free k).free m) [] ∧
          ((heap'.free k).free m).released.count k = heap.released.count k + 1 := by
      intro heap' hleaves
      have hfreed := hleaves.free.free
      refine ⟨hfreed, ?_⟩
      rw [hfreed.once k, if_pos]
      have := hleaves.allocated k hmem
      exact ⟨this.1, this.2, List.not_mem_nil⟩
    split
    . next hbig =>
      obtain ⟨hleaves, hreleased⟩ := hexit _ hboth
      refine .tooBig _ _ _ k m haccepted ?_ rfl rfl rfl hleaves hreleased
      intro hsize
      exact absurd hsize.1 (UInt32.not_le.mpr hbig)
    . next hkey =>
      have hkey' := UInt32.not_lt.mp hkey
      split
      . next hbig =>
        obtain ⟨hleaves, hreleased⟩ := hexit _ (hboth.write k _)
        refine .tooBig _ _ _ k m haccepted ?_ rfl rfl rfl hleaves hreleased
        intro hsize
        exact absurd hsize.2 (UInt32.not_le.mpr hbig)
      . next hmask =>
        let heap' := (((heap.alloc bytes).2.alloc bytes).2.write k keyBytes).write m maskBytes
        let pack : PackBuffers := {
          key := some k
          keyLen := ((keySizeBits + 7) / 8).toNat
          mask := some m
          maskLen := ((keySizeBits + 7) / 8).toNat
          params := none
          paramsLen := 0 }
        have hload : pack.load heap' = snp4PackInit.withKeyMask keySizeBits (packedKey specs ms)
            (packedMask specs ms) := by
          have hlen : m < (((heap.alloc bytes).2.alloc bytes).2.write k keyBytes).blocks.length := by
            simp [m]
          have hreadKey : heap'.read k = some keyBytes := by
            rw [Heap.read_write_ne (Nat.ne_of_gt hk), Heap.read_write_self]
            simp [k]
          have hreadMask : heap'.read m = some maskBytes := Heap.read_write_self hlen
          simp only [PackBuffers.load, pack, Option.bind_some, hreadKey, hreadMask]
          rfl
        rw [← hload]
        exact .packed pack heap' k m haccepted ⟨hkey', UInt32.not_lt.mp hmask⟩ rfl rfl rfl
          ((hboth.write k _).write m _)
  . obtain ⟨rc, hgo⟩ : ∃ rc, snp4RulePackMatches.go specs ms (0, 0) = .error rc := by
      cases hgo : snp4RulePackMatches.go specs ms (0, 0) with
      | error rc => exact ⟨rc, rfl⟩
      | ok r =>
        exact absurd ((snp4RulePackMatches.go_eq_ok_iff specs ms hlen _ _).mp hgo).1 haccepted
    unfold snp4RulePackMatches snp4RulePackMatchesBuffers
    rw [hgo]
    exact .refused rc haccepted

section Params

variable {pack : PackBuffers} {heap heap' : ByteHeap} {k m p : Nat}

inductive PacksParams (specs : List Snp4InfoParam) (paramSizeBits : UInt32) (params : List SnParam)
    (pack : PackBuffers) (heap : ByteHeap)
    : Except Snp4Status SnPack → Except Snp4Status Unit × PackBuffers × ByteHeap → Prop where
  | refused (rc : Snp4Status) (hbits : paramSizeBits ≠ 0)
    (hrefused : ¬ ParamsAccepted specs params)
    : PacksParams specs paramSizeBits params pack heap (.error rc) (.error rc, pack, heap)
  | tooBig (rc : Snp4Status) (len p : Nat) (heap' : ByteHeap) (hbits : paramSizeBits ≠ 0)
    (haccepted : ParamsAccepted specs params) (hsize : ¬ ParamsFit specs paramSizeBits params)
    (hleaves : heap.Leaves heap' [])
    (hreleased : heap'.released.count p = heap.released.count p + 1)
    : PacksParams specs paramSizeBits params pack heap (.error rc)
        (.error rc, { pack with params := some p, paramsLen := len }, heap')
  | packed (len p : Nat) (heap' : ByteHeap)
    (haccepted : paramSizeBits ≠ 0 → ParamsAccepted specs params)
    (hsize : paramSizeBits ≠ 0 → ParamsFit specs paramSizeBits params)
    (hleaves : heap.Leaves heap' [p])
    : PacksParams specs paramSizeBits params pack heap
        (.ok ({ pack with params := some p, paramsLen := len }.load heap'))
        (.ok (), { pack with params := some p, paramsLen := len }, heap')

theorem PackBuffers.load_withParams {bytes : List UInt8} (hkey : pack.key = some k)
    (hmask : pack.mask = some m) (hk : k < heap.blocks.length) (hm : m < heap.blocks.length)
    (hkeep : ∀ q < heap.blocks.length, heap'.read q = heap.read q)
    (hread : heap'.read p = some bytes) (len : Nat)
    : { pack with params := some p, paramsLen := len }.load heap' =
        { pack.load heap with params := some bytes, paramsLen := len } := by
  simp [PackBuffers.load, hkey, hmask, hkeep k hk, hkeep m hm, hread]

theorem snp4RulePackParams.of_go_eq_ok {specs : List Snp4InfoParam} {params : List SnParam}
    {paramSizeBits : UInt32} {paramsAll : Mpz} (hbits : paramSizeBits ≠ 0)
    (hgo : go specs params 0 = .ok paramsAll) (tableParamSizeBits : UInt32) (pack : SnPack)
    : snp4RulePackParams specs tableParamSizeBits paramSizeBits params pack =
        if UInt32.ofNat (mpzSizeinbase2 paramsAll) > paramSizeBits then
          .error .packParamsTooBig
        else
          .ok { pack with
            params := some (exportPadded ((tableParamSizeBits + 7) / 8)
              (UInt32.ofNat (mpzSizeinbase2 paramsAll)) paramsAll)
            paramsLen := ((tableParamSizeBits + 7) / 8).toNat } := by
  unfold snp4RulePackParams
  rw [if_neg hbits, hgo]
  rfl

theorem packsParams {specs : List Snp4InfoParam} {params : List SnParam}
    (hlen : params.length = specs.length) (tableParamSizeBits paramSizeBits : UInt32)
    (hkey : pack.key = some k) (hmask : pack.mask = some m) (hk : k < heap.blocks.length)
    (hm : m < heap.blocks.length)
    : PacksParams specs paramSizeBits params pack heap
        (snp4RulePackParams specs tableParamSizeBits paramSizeBits params (pack.load heap))
        (snp4RulePackParamsBuffers specs tableParamSizeBits paramSizeBits params pack heap) := by
  have hkeep : ∀ bytes q, q < heap.blocks.length → (heap.alloc bytes).2.read q = heap.read q :=
    fun _ _ => Heap.read_alloc_of_lt
  have hlive := fun bytes => (Heap.Leaves.refl heap).alloc bytes
  by_cases hbits : paramSizeBits = 0
  . unfold snp4RulePackParams snp4RulePackParamsBuffers
    rw [if_pos hbits, if_pos hbits]
    have hload := PackBuffers.load_withParams hkey hmask hk hm (hkeep (calloc 1))
      Heap.read_alloc_self 0
    have hpacked : PacksParams specs paramSizeBits params pack heap _ _ := .packed 0
      heap.blocks.length (heap.alloc (calloc 1)).2 (fun hne => (hne hbits).elim)
      (fun hne => (hne hbits).elim) (hlive _)
    rw [hload] at hpacked
    exact hpacked
  . by_cases haccepted : ParamsAccepted specs params
    . let bytes := calloc ((tableParamSizeBits + 7) / 8)
      have hgo := (snp4RulePackParams.go_eq_ok_iff specs params hlen 0 _).mpr ⟨haccepted, rfl⟩
      rw [snp4RulePackParams.of_go_eq_ok hbits hgo]
      unfold snp4RulePackParamsBuffers
      rw [if_neg hbits, hgo]
      dsimp only
      split
      . next hbig =>
        have hfreed := (hlive bytes).free
        have hreleased := hfreed.once heap.blocks.length
        rw [if_pos (by simp [bytes])] at hreleased
        exact .tooBig _ _ _ _ hbits haccepted (UInt32.not_le.mpr hbig) hfreed hreleased
      . next hsize =>
        let out := exportPadded ((tableParamSizeBits + 7) / 8)
          (UInt32.ofNat (mpzSizeinbase2 (packedParams specs params))) (packedParams specs params)
        let heap' := (heap.alloc bytes).2.write heap.blocks.length out
        have hkeep' : ∀ q < heap.blocks.length, heap'.read q = heap.read q := by
          intro q hq
          rw [Heap.read_write_ne (Nat.ne_of_gt hq), hkeep bytes q hq]
        have hread : heap'.read heap.blocks.length = some out := by
          apply Heap.read_write_self
          simp
        have hpacked : PacksParams specs paramSizeBits params pack heap _ _ := .packed
          ((tableParamSizeBits + 7) / 8).toNat heap.blocks.length heap' (fun _ => haccepted)
          (fun _ => UInt32.not_lt.mp hsize) ((hlive bytes).write _ _)
        rw [PackBuffers.load_withParams hkey hmask hk hm hkeep' hread] at hpacked
        exact hpacked
    . obtain ⟨rc, hgo⟩ : ∃ rc, snp4RulePackParams.go specs params 0 = .error rc := by
        cases hgo : snp4RulePackParams.go specs params 0 with
        | error rc => exact ⟨rc, rfl⟩
        | ok r =>
          exact absurd ((snp4RulePackParams.go_eq_ok_iff specs params hlen _ _).mp hgo).1 haccepted
      unfold snp4RulePackParams snp4RulePackParamsBuffers
      rw [if_neg hbits, if_neg hbits, hgo]
      exact .refused rc hbits haccepted

end Params

section Clear

variable {pack : PackBuffers} {heap heap' : ByteHeap} {p : Nat}

def PackBuffers.handles (pack : PackBuffers) : List Nat :=
  pack.key.toList ++ pack.mask.toList ++ pack.params.toList

theorem leaves_freePointer {live : List Nat} {q : Option Nat}
    (h : heap.Leaves heap' (q.toList ++ live))
    : heap.Leaves (snp4PackClear.freePointer q heap') live := by
  cases q with
  | none => exact h
  | some q => exact h.free

theorem leaves_snp4PackClear (h : heap.Leaves heap' pack.handles)
    : heap.Leaves (snp4PackClear pack heap').2 [] := by
  unfold PackBuffers.handles at h
  rw [List.append_assoc] at h
  have hparams := leaves_freePointer (leaves_freePointer h)
  rw [← List.append_nil pack.params.toList] at hparams
  exact leaves_freePointer hparams

theorem count_freePointer (q : Option Nat) (heap : ByteHeap) (p : Nat)
    : (snp4PackClear.freePointer q heap).released.count p =
        heap.released.count p + q.toList.count p := by
  cases q with
  | none => simp [snp4PackClear.freePointer]
  | some q => simp [snp4PackClear.freePointer]

theorem count_snp4PackClear (pack : PackBuffers) (heap : ByteHeap) (p : Nat)
    : (snp4PackClear pack heap).2.released.count p =
        heap.released.count p + pack.handles.count p := by
  unfold snp4PackClear PackBuffers.handles
  simp only [count_freePointer, List.count_append, Nat.add_assoc]

-- What has been released already and is released again
theorem freesTwice_snp4PackClear {live : List Nat} (hleaves : heap.Leaves heap' live)
    (hreleased : heap.released.count p + 1 ≤ heap'.released.count p) (hp : p ∈ pack.handles)
    : heap.FreesTwice (snp4PackClear pack heap').2 where
  le := by
    intro q
    rw [count_snp4PackClear]
    exact Nat.le_add_right_of_le (hleaves.le_count q)
  twice := by
    refine ⟨p, ?_⟩
    have hpos := List.count_pos_iff.mpr hp
    rw [count_snp4PackClear]
    omega

end Clear

section Rule

variable {pipeline : Snp4InfoPipeline} {rule : SnRule}
variable {table : Snp4InfoTable} {action : Snp4InfoAction} (heap : ByteHeap)

/--
A failed call has released all that it has allocated and returns no buffer, any other returns the
three buffers that it has left allocated.
-/
def Owned (heap : ByteHeap) (r : Except Snp4Status Unit × PackBuffers × ByteHeap) : Prop :=
  match r with
  | (.error _, pack, heap') =>
    pack.key = none ∧ pack.mask = none ∧ pack.params = none ∧ heap.Leaves heap' []
  | (.ok (), pack, heap') =>
    ∃ key mask params, pack.key = some key ∧ pack.mask = some mask ∧ pack.params = some params ∧
      heap.Leaves heap' [key, mask, params]

-- No part of the rule is refused for itself, and still all of them together are too long
def SnRule.Overflows (rule : SnRule) (pipeline : Snp4InfoPipeline) : Prop :=
  ∃ table action, rule.Resolves pipeline table action ∧
    MatchesAccepted table.matchList rule.matchList ∧
    (¬ KeyMaskFits table.matchList table.keyBits.toUInt32 rule.matchList ∨
      action.paramBits ≠ 0 ∧ ParamsAccepted action.params rule.params ∧
        ¬ ParamsFit action.params action.paramBits.toUInt32 rule.params)

theorem snp4RulePackBuffers_of_resolves (h : rule.Resolves pipeline table action)
    : snp4RulePackBuffers pipeline rule heap =
        match snp4RulePackMatchesBuffers table.matchList table.keyBits.toUInt32 rule.matchList
            snp4PackInitBuffers heap with
        | (.ok (), pack, heap) =>
          match snp4RulePackParamsBuffers action.params table.paramSizeBits
              action.paramBits.toUInt32 rule.params pack heap with
          | (.ok (), pack, heap) => (.ok (), pack, heap)
          | (.error rc, pack, heap) => snp4RulePackBuffers.outError rc pack heap
        | (.error rc, pack, heap) => snp4RulePackBuffers.outError rc pack heap := by
  unfold snp4RulePackBuffers
  dsimp only
  rw [h.table_found]
  dsimp only
  rw [h.action_found]
  simp only [h.num_matches, h.num_params, ne_eq, not_true_eq_false, ↓reduceIte]
  rfl

theorem snp4RulePackBuffers_of_not_resolves
    (h : ∀ table action, ¬ rule.Resolves pipeline table action) (pack : SnPack)
    : ∃ rc, snp4RulePack (some pipeline) (some rule) (some pack) = .error rc ∧
        snp4RulePackBuffers pipeline rule heap = (.error rc, snp4PackInitBuffers, heap) := by
  unfold snp4RulePack snp4RulePackBuffers
  dsimp only
  cases htable : snp4InfoGetTableByName (some pipeline) rule.tableName with
  | none => exact ⟨_, rfl, rfl⟩
  | some table =>
    dsimp only
    cases haction : snp4InfoGetActionByName (some table) rule.actionName with
    | none => exact ⟨_, rfl, rfl⟩
    | some action =>
      dsimp only
      split
      . exact ⟨_, rfl, rfl⟩
      . next hmatches =>
        split
        . exact ⟨_, rfl, rfl⟩
        . next hparams =>
          exact absurd ⟨htable, haction, not_not.mp hmatches, not_not.mp hparams⟩ (h table action)

theorem SnRule.Resolves.overflows_iff (h : rule.Resolves pipeline table action)
    : rule.Overflows pipeline ↔
        MatchesAccepted table.matchList rule.matchList ∧
          (¬ KeyMaskFits table.matchList table.keyBits.toUInt32 rule.matchList ∨
            action.paramBits ≠ 0 ∧ ParamsAccepted action.params rule.params ∧
              ¬ ParamsFit action.params action.paramBits.toUInt32 rule.params) := by
  constructor
  . rintro ⟨table', action', h', hover⟩
    obtain ⟨rfl, rfl⟩ := h.unique h'
    exact hover
  . intro hover
    exact ⟨table, action, h, hover⟩

inductive PacksRule (pipeline : Snp4InfoPipeline) (rule : SnRule) (heap : ByteHeap)
    : Except Snp4Status SnPack → Except Snp4Status Unit × PackBuffers × ByteHeap → Prop where
  | refused (rc : Snp4Status) (pack : PackBuffers) (heap' : ByteHeap)
    (hfits : ¬ rule.Overflows pipeline)
    (hnull : pack.key = none ∧ pack.mask = none ∧ pack.params = none)
    (hleaves : heap.Leaves heap' [])
    : PacksRule pipeline rule heap (.error rc) (.error rc, pack, heap')
  | tooBig (rc : Snp4Status) (pack : PackBuffers) (heap' : ByteHeap)
    (hover : rule.Overflows pipeline) (htwice : heap.FreesTwice heap')
    : PacksRule pipeline rule heap (.error rc) (.error rc, pack, heap')
  | packed (pack : PackBuffers) (heap' : ByteHeap) (k m p : Nat)
    (hfits : ¬ rule.Overflows pipeline) (hkey : pack.key = some k) (hmask : pack.mask = some m)
    (hparams : pack.params = some p) (hleaves : heap.Leaves heap' [k, m, p])
    : PacksRule pipeline rule heap (.ok (pack.load heap')) (.ok (), pack, heap')

theorem toUInt32_ne_zero_iff {n : UInt16} : n.toUInt32 ≠ 0 ↔ n ≠ 0 := by
  rw [ne_eq, ne_eq, ← UInt32.toNat_inj, ← UInt16.toNat_inj, UInt16.toNat_toUInt32]
  rfl

theorem packsRule (pack : SnPack)
    : PacksRule pipeline rule heap (snp4RulePack (some pipeline) (some rule) (some pack))
        (snp4RulePackBuffers pipeline rule heap) := by
  by_cases hres : ∃ table action, rule.Resolves pipeline table action
  . obtain ⟨table, action, hres⟩ := hres
    have hover := hres.overflows_iff
    rw [snp4RulePack_of_resolves pack hres, snp4RulePackBuffers_of_resolves heap hres]
    have hmatches := packsMatches hres.num_matches table.keyBits.toUInt32 heap
    revert hmatches
    generalize snp4RulePackMatches table.matchList table.keyBits.toUInt32 rule.matchList
      snp4PackInit = pure
    generalize snp4RulePackMatchesBuffers table.matchList table.keyBits.toUInt32 rule.matchList
      snp4PackInitBuffers heap = r
    rintro (⟨rc, hrefused⟩ |
      ⟨rc, pack, heap', k, m, haccepted, hsize, hkey, hmask, hparams, hleaves, hreleased⟩ |
      ⟨pack, heap', k, m, haccepted, hsize, hkey, hmask, hparams, hleaves⟩)
    . refine .refused rc _ _ ?_ ⟨rfl, rfl, rfl⟩ (Heap.Leaves.refl heap)
      intro h
      exact hrefused (hover.mp h).1
    . refine .tooBig rc _ _ (hover.mpr ⟨haccepted, Or.inl hsize⟩) ?_
      apply freesTwice_snp4PackClear hleaves (Nat.le_of_eq hreleased.symm)
      simp [PackBuffers.handles, hkey]
    . have hk := (hleaves.allocated k (by simp)).2
      have hm := (hleaves.allocated m (by simp)).2
      have hparams' := packsParams hres.num_params table.paramSizeBits action.paramBits.toUInt32
        hkey hmask hk hm
      change PacksRule pipeline rule heap (snp4RulePackParams _ _ _ _ (pack.load heap')) _
      dsimp only
      revert hparams'
      generalize snp4RulePackParams action.params table.paramSizeBits action.paramBits.toUInt32
        rule.params (pack.load heap') = pure
      generalize snp4RulePackParamsBuffers action.params table.paramSizeBits
        action.paramBits.toUInt32 rule.params pack heap' = r
      rintro (⟨rc, hbits, hrefused⟩ |
        ⟨rc, len, p, heap'', hbits, haccepted', hsize', hleaves', hreleased⟩ |
        ⟨len, p, heap'', haccepted', hsize', hleaves'⟩)
      . refine .refused rc _ _ ?_ ⟨rfl, rfl, rfl⟩ (leaves_snp4PackClear ?_)
        . intro h
          rcases (hover.mp h).2 with hno | ⟨_, hyes, _⟩
          . exact hno hsize
          . exact hrefused hyes
        . simpa [PackBuffers.handles, hkey, hmask, hparams] using hleaves
      . have hagain : heap.released.count p + 1 ≤ heap''.released.count p := by
          have hle := hleaves.le_count p
          omega
        let pack' : PackBuffers := { pack with params := some p, paramsLen := len }
        have hp : p ∈ pack'.handles := by simp [PackBuffers.handles, pack']
        have hover' := hover.mpr
          ⟨haccepted, Or.inr ⟨toUInt32_ne_zero_iff.mp hbits, haccepted', hsize'⟩⟩
        exact .tooBig rc _ _ hover'
          (freesTwice_snp4PackClear (hleaves.append hleaves') hagain hp)
      . refine .packed _ _ k m p ?_ hkey hmask rfl (hleaves.append hleaves')
        intro h
        rcases (hover.mp h).2 with hno | ⟨hbits, _, hno⟩
        . exact hno hsize
        . exact hno (hsize' (toUInt32_ne_zero_iff.mpr hbits))
  . simp only [not_exists] at hres
    obtain ⟨rc, hpure, hbuffers⟩ := snp4RulePackBuffers_of_not_resolves heap hres pack
    rw [hpure, hbuffers]
    refine .refused rc _ _ ?_ ⟨rfl, rfl, rfl⟩ (Heap.Leaves.refl heap)
    rintro ⟨table, action, h, _⟩
    exact hres table action h

-- The buffers are those of the pack that the rule has
theorem snp4RulePackBuffers_refines (pack : SnPack)
    : match snp4RulePack (some pipeline) (some rule) (some pack) with
      | .error rc => (snp4RulePackBuffers pipeline rule heap).1 = .error rc
      | .ok packed =>
        ∃ buffers heap', snp4RulePackBuffers pipeline rule heap = (.ok (), buffers, heap') ∧
          buffers.load heap' = packed := by
  have hpacks := @packsRule pipeline rule heap pack
  revert hpacks
  generalize snp4RulePack (some pipeline) (some rule) (some pack) = pure
  generalize snp4RulePackBuffers pipeline rule heap = r
  rintro (_ | _ | _)
  . rfl
  . rfl
  . exact ⟨_, _, rfl, rfl⟩

theorem owned_iff
    : Owned heap (snp4RulePackBuffers pipeline rule heap) ↔ ¬ rule.Overflows pipeline := by
  have hpacks := @packsRule pipeline rule heap snp4PackInit
  revert hpacks
  generalize snp4RulePack (some pipeline) (some rule) (some snp4PackInit) = pure
  generalize snp4RulePackBuffers pipeline rule heap = r
  rintro (⟨rc, pack, heap', hfits, hnull, hleaves⟩ | ⟨rc, pack, heap', hover, htwice⟩ |
    ⟨pack, heap', k, m, p, hfits, hkey, hmask, hparams, hleaves⟩)
  . simpa [Owned, hfits, hleaves] using hnull
  . simp [Owned, hover, htwice.not_leaves]
  . simp only [hfits, not_false_eq_true, iff_true]
    exact ⟨k, m, p, hkey, hmask, hparams, hleaves⟩

end Rule

section Consistent

variable {pipeline : Snp4InfoPipeline} {rule : SnRule}
variable {table : Snp4InfoTable} {action : Snp4InfoAction}

theorem keyMaskFits_iff_of_consistent (hc : table.Consistent)
    (hlen : rule.matchList.length = table.matchList.length)
    (haccepted : MatchesAccepted table.matchList rule.matchList)
    : KeyMaskFits table.matchList table.keyBits.toUInt32 rule.matchList ↔ table.matchList ≠ [] := by
  have hgo : snp4RulePackMatches.go table.matchList rule.matchList (0, 0)
      = .ok (packedKey table.matchList rule.matchList, packedMask table.matchList rule.matchList) :=
    (snp4RulePackMatches.go_eq_ok_iff _ _ hlen _ _).mpr ⟨haccepted, rfl⟩
  have heq : snp4RulePackMatches table.matchList table.keyBits.toUInt32 rule.matchList snp4PackInit
      = _ :=
    snp4RulePackMatches.eq_of_accepted hlen hc.match_bits_sum haccepted
  rw [snp4RulePackMatches.of_go_eq_ok hgo] at heq
  unfold KeyMaskFits
  rw [← UInt32.not_lt, ← UInt32.not_lt]
  by_cases hne : table.matchList = []
  . rw [if_pos hne] at heq
    constructor
    . intro ⟨hkey, hmask⟩
      rw [if_neg hkey, if_neg hmask] at heq
      contradiction
    . intro h
      contradiction
  . rw [if_neg hne] at heq
    constructor
    . exact fun _ => hne
    . intro _
      split at heq
      . contradiction
      . next hkey =>
        split at heq
        . contradiction
        . next hmask => exact ⟨hkey, hmask⟩

theorem paramsFit_of_consistent (hc : table.Consistent) (hmem : action ∈ table.actions)
    (hlen : rule.params.length = action.params.length) (hbits : action.paramBits ≠ 0)
    (haccepted : ParamsAccepted action.params rule.params)
    : ParamsFit action.params action.paramBits.toUInt32 rule.params := by
  have hgo := (snp4RulePackParams.go_eq_ok_iff action.params rule.params hlen 0 _).mpr
    ⟨haccepted, rfl⟩
  have heq : snp4RulePackParams action.params 0 action.paramBits.toUInt32 rule.params snp4PackInit
      = _ :=
    snp4RulePackParams.eq_of_accepted hlen (hc.param_bits_sum action hmem) haccepted
  rw [snp4RulePackParams.of_go_eq_ok (toUInt32_ne_zero_iff.mpr hbits) hgo] at heq
  split at heq
  . contradiction
  . next hsize => exact UInt32.not_lt.mp hsize

-- Where the widths add up, this is every rule of a table without match fields
theorem overflows_iff_of_consistent (hc : pipeline.Consistent)
    : rule.Overflows pipeline ↔
        ∃ table action, rule.Resolves pipeline table action ∧ table.matchList = [] := by
  constructor
  . rintro ⟨table, action, hres, hmatches, hover⟩
    have htable := hc table (snp4InfoGetTableByName_mem hres.table_found)
    have haction := snp4InfoGetActionByName_mem hres.action_found
    have hfits := keyMaskFits_iff_of_consistent htable hres.num_matches hmatches
    rcases hover with hkey | ⟨hbits, hparams, hno⟩
    . exact ⟨table, action, hres, not_not.mp (hfits.not.mp hkey)⟩
    . exact absurd (paramsFit_of_consistent htable haction hres.num_params hbits hparams) hno
  . rintro ⟨table, action, hres, hnil⟩
    have htable := hc table (snp4InfoGetTableByName_mem hres.table_found)
    have hmatches : MatchesAccepted table.matchList rule.matchList := by
      intro p hp
      rw [hnil] at hp
      contradiction
    have hfits := keyMaskFits_iff_of_consistent htable hres.num_matches hmatches
    exact ⟨table, action, hres, hmatches, Or.inl (hfits.not.mpr (not_not.mpr hnil))⟩

end Consistent
