import SmartnicFw.Lib.MapM
import SmartnicFw.Snp4.Counters
import SmartnicFw.Snp4.InfoHw

/-!
This module contains the description of a pipeline as it is taken from the configuration of its driver
(`snp4_info_hw.c`).
-/

namespace Snp4InfoHw

structure XilVitisNetP4Attribute where
  nameString : String
  value : UInt32
  deriving DecidableEq, Repr

structure XilVitisNetP4Action where
  nameString : String
  paramList : List XilVitisNetP4Attribute
  deriving DecidableEq, Repr

inductive XilVitisNetP4Endian where
  | littleEndian
  | bigEndian
  | other (code : UInt32)
  deriving DecidableEq, Repr

inductive XilVitisNetP4TableMode where
  | bcam
  | stcam
  | tcam
  | dcam
  | tinyBcam
  | tinyTcam
  | other (code : UInt32)
  deriving DecidableEq, Repr

structure XilVitisNetP4CamConfig where
  formatString : CString
  numEntries : UInt32
  responseSizeBits : UInt32
  prioritySizeBits : UInt32
  numMasks : UInt32

structure XilVitisNetP4TableConfig where
  endian : XilVitisNetP4Endian
  mode : XilVitisNetP4TableMode
  keySizeBits : UInt32
  camConfig : XilVitisNetP4CamConfig
  actionIdWidthBits : UInt32
  actionList : List XilVitisNetP4Action

structure XilVitisNetP4TargetTableConfig where
  nameString : String
  config : XilVitisNetP4TableConfig

structure TargetCounterConfig extends XilVitisNetP4TargetCounterConfig where
  width : UInt32
  deriving DecidableEq, Repr

structure XilVitisNetP4TargetConfig where
  tableList : List XilVitisNetP4TargetTableConfig
  counterList : List TargetCounterConfig

structure MetadataCounterBlock where
  name : List UInt8
  aliases : List (List UInt8)
  deriving DecidableEq, Repr

-- What `vitis_net_p4_drv_intf_get` gives
structure VitisNetP4DrvIntf where
  name : String
  metadata : Option (List MetadataCounterBlock)
  config : XilVitisNetP4TargetConfig

inductive Snp4InfoTableEndian where
  | little
  | big
  deriving DecidableEq, Repr

-- The number of masks is only there for the mode that has it
inductive Snp4InfoTableMode where
  | bcam
  | stcam (numMasks : UInt32)
  | tcam
  | dcam
  | tinyBcam
  | tinyTcam
  deriving DecidableEq, Repr

structure InfoTable extends Snp4InfoTable where
  numEntries : UInt32
  endian : Snp4InfoTableEndian
  mode : Snp4InfoTableMode
  priorityRequired : Bool
  priorityBits : UInt16
  deriving DecidableEq, Repr

structure InfoCounterBlock extends Snp4InfoCounterBlock where
  width : UInt32
  aliases : List (List UInt8)
  deriving DecidableEq, Repr

structure InfoPipeline where
  name : String
  tables : List InfoTable
  counterBlocks : List InfoCounterBlock
  deriving DecidableEq, Repr

def snp4MaxPipelineTables : Nat := 64

def snp4MaxTableMatches : UInt16 := 64

def snp4MaxTableActions : Nat := 64

def snp4MaxActionParams : Nat := 64

-- A call that does not return gives nothing
abbrev InfoM := ExceptT Snp4Status Option

def snp4InfoGetParams (cfgParams : List XilVitisNetP4Attribute)
    : InfoM (List Snp4InfoParam × UInt16) :=
  if cfgParams.length > snp4MaxActionParams then
    throw .infoTooManyParams
  else
    let params := cfgParams.map fun xp => { name := xp.nameString, bits := xp.value.toUInt16 }
    let paramBits := cfgParams.foldl (fun bits xp => (bits.toUInt32 + xp.value).toUInt16) 0
    pure (params, paramBits)

def snp4InfoGetAction (xa : XilVitisNetP4Action) : InfoM Snp4InfoAction := do
  let (params, paramBits) ← snp4InfoGetParams xa.paramList
  return { name := xa.nameString, paramBits, params }

def snp4InfoGetActions (cfgActions : List XilVitisNetP4Action) : InfoM (List Snp4InfoAction) :=
  if cfgActions.length > snp4MaxTableActions then
    throw .infoTooManyActions
  else
    cfgActions.mapM snp4InfoGetAction

-- The array is cleared before. A string that has not ended after its length is gone through for ever.
def tableMatches (formatString : CString) : InfoM MatchInfo :=
  snp4InfoGetMatches (formatString.chars.length + 1) formatString snp4MaxTableMatches
    (List.replicate snp4MaxTableMatches.toNat invalidMatch)

def tableEndian (endian : XilVitisNetP4Endian) : InfoM Snp4InfoTableEndian :=
  match endian with
  | .littleEndian => pure .little
  | .bigEndian => pure .big
  | .other _ => throw .infoInvalidEndian

def tableMode (mode : XilVitisNetP4TableMode) (numMasks : UInt32) : InfoM Snp4InfoTableMode :=
  match mode with
  | .bcam => pure .bcam
  | .stcam => pure (.stcam numMasks)
  | .tcam => pure .tcam
  | .dcam => pure .dcam
  | .tinyBcam => pure .tinyBcam
  | .tinyTcam => pure .tinyTcam
  | .other _ => throw .infoInvalidMode

def snp4InfoGetTable (xt : XilVitisNetP4TargetTableConfig) : InfoM InfoTable := do
  let endian ← tableEndian xt.config.endian
  let mode ← tableMode xt.config.mode xt.config.camConfig.numMasks
  let info ← tableMatches xt.config.camConfig.formatString
  let actions ← snp4InfoGetActions xt.config.actionList
  return {
    name := xt.nameString
    keyBits := xt.config.keySizeBits.toUInt16
    matchList := info.matchList.take info.numMatches.toNat
    responseBits := xt.config.camConfig.responseSizeBits.toUInt16
    actionidBits := xt.config.actionIdWidthBits.toUInt16
    actions
    numEntries := xt.config.camConfig.numEntries
    endian
    mode
    priorityRequired := info.priorityRequired
    priorityBits := xt.config.camConfig.prioritySizeBits.toUInt16 }

def snp4InfoGetTables (cfgTables : List XilVitisNetP4TargetTableConfig) : InfoM (List InfoTable) :=
  if cfgTables.length > snp4MaxPipelineTables then
    throw .infoTooManyTables
  else
    cfgTables.mapM snp4InfoGetTable

def Snp4InfoCounterStatus.toStatus : Snp4InfoCounterStatus → Snp4Status
  | .tooManyCounterBlocks => .infoTooManyCounterBlocks
  | .invalidCounterType => .infoInvalidCounterType

-- The aliases of a block that the metadata do not have stay cleared
def counterAliases (metadata : Option (List MetadataCounterBlock)) (name : List UInt8)
    : List (List UInt8) :=
  match metadata.bind fun blocks => blocks.find? fun mcb => name = mcb.name with
  | some mcb => mcb.aliases
  | none => []

def infoCounterBlock (metadata : Option (List MetadataCounterBlock)) (xc : TargetCounterConfig)
    : InfoM InfoCounterBlock :=
  match snp4InfoGetCounterBlock xc.toXilVitisNetP4TargetCounterConfig with
  | .error rc => throw (Snp4InfoCounterStatus.toStatus rc)
  | .ok block => pure { block with width := xc.width, aliases := counterAliases metadata block.name }

def infoCounterBlocks (metadata : Option (List MetadataCounterBlock))
    (cfgCounters : List TargetCounterConfig)
    : InfoM (List InfoCounterBlock) :=
  if cfgCounters.length > snp4MaxPipelineCounterBlocks then
    throw .infoTooManyCounterBlocks
  else
    cfgCounters.mapM (infoCounterBlock metadata)

def snp4InfoGetPipeline (intf : Option VitisNetP4DrvIntf) : InfoM InfoPipeline :=
  match intf with
  | none => throw .nullPipeline
  | some intf => do
    let tables ← snp4InfoGetTables intf.config.tableList
    let counterBlocks ← infoCounterBlocks intf.metadata intf.config.counterList
    return { name := intf.name, tables, counterBlocks }

-- The configuration that describes a pipeline
section Render

def renderParam (param : Snp4InfoParam) : XilVitisNetP4Attribute where
  nameString := param.name
  value := param.bits.toUInt32

def renderAction (action : Snp4InfoAction) : XilVitisNetP4Action where
  nameString := action.name
  paramList := action.params.map renderParam

def renderEndian : Snp4InfoTableEndian → XilVitisNetP4Endian
  | .little => .littleEndian
  | .big => .bigEndian

def renderMode : Snp4InfoTableMode → XilVitisNetP4TableMode
  | .bcam => .bcam
  | .stcam _ => .stcam
  | .tcam => .tcam
  | .dcam => .dcam
  | .tinyBcam => .tinyBcam
  | .tinyTcam => .tinyTcam

def Snp4InfoTableMode.numMasks : Snp4InfoTableMode → UInt32
  | .stcam numMasks => numMasks
  | _ => 0

def renderTable (table : InfoTable) : XilVitisNetP4TargetTableConfig where
  nameString := table.name
  config :=
    { endian := renderEndian table.endian
      mode := renderMode table.mode
      keySizeBits := table.keyBits.toUInt32
      camConfig :=
        { formatString := renderString table.matchList
          numEntries := table.numEntries
          responseSizeBits := table.responseBits.toUInt32
          prioritySizeBits := table.priorityBits.toUInt32
          numMasks := table.mode.numMasks }
      actionIdWidthBits := table.actionidBits.toUInt32
      actionList := table.actions.map renderAction }

def renderCounterType : Snp4InfoCounterType → XilVitisNetP4CounterType
  | .packets => .packets
  | .bytes => .bytes
  | .packetsAndBytes => .packetsAndBytes
  | .flag => .flag

def renderCounter (block : InfoCounterBlock) : TargetCounterConfig where
  nameString := block.name
  counterType := renderCounterType block.type
  numCounters := block.numCounters
  width := block.width

def renderAliases (block : InfoCounterBlock) : MetadataCounterBlock where
  name := block.name
  aliases := block.aliases

def renderPipeline (pipeline : InfoPipeline) : VitisNetP4DrvIntf where
  name := pipeline.name
  metadata := some (pipeline.counterBlocks.map renderAliases)
  config :=
    { tableList := pipeline.tables.map renderTable
      counterList := pipeline.counterBlocks.map renderCounter }

-- A table that a configuration can describe
structure InfoTable.Described (table : InfoTable) : Prop where
  matches_le : table.matchList.length ≤ snp4MaxTableMatches.toNat
  matches_valid : ∀ m ∈ table.matchList, m.type ≠ .invalid
  priority : table.priorityRequired = table.matchList.any fun m => needsPriority m.type
  actions_le : table.actions.length ≤ snp4MaxTableActions
  params_le : ∀ action ∈ table.actions, action.params.length ≤ snp4MaxActionParams
  param_bits : ∀ action ∈ table.actions,
    action.paramBits = (action.params.map Snp4InfoParam.bits).sum

structure InfoPipeline.Described (pipeline : InfoPipeline) : Prop where
  tables_le : pipeline.tables.length ≤ snp4MaxPipelineTables
  tables : ∀ table ∈ pipeline.tables, table.Described
  counterBlocks_le : pipeline.counterBlocks.length ≤ snp4MaxPipelineCounterBlocks
  counterBlocks_nodup : (pipeline.counterBlocks.map fun block => block.name).Nodup

theorem snp4InfoGetParams_render {params : List Snp4InfoParam} (h : params.length ≤ snp4MaxActionParams)
    : snp4InfoGetParams (params.map renderParam) = pure (params, (params.map Snp4InfoParam.bits).sum) := by
  have hbits (bits : UInt16) (params : List Snp4InfoParam)
      : (params.map renderParam).foldl (fun bits xp => (bits.toUInt32 + xp.value).toUInt16) bits =
          bits + (params.map Snp4InfoParam.bits).sum := by
    induction params generalizing bits with
    | nil => simp
    | cons param params ih =>
      rw [List.map_cons, List.foldl_cons, ih, List.map_cons, List.sum_cons, ← UInt16.add_assoc]
      congr 1
      unfold renderParam
      simp
  unfold snp4InfoGetParams
  rw [if_neg (by rw [List.length_map]; omega)]
  dsimp only
  rw [hbits, List.map_map]
  simp [Function.comp_def, renderParam]

theorem snp4InfoGetAction_render {action : Snp4InfoAction}
    (hle : action.params.length ≤ snp4MaxActionParams)
    (hbits : action.paramBits = (action.params.map Snp4InfoParam.bits).sum)
    : snp4InfoGetAction (renderAction action) = pure action := by
  unfold snp4InfoGetAction renderAction
  rw [snp4InfoGetParams_render hle, ← hbits]
  simp

-- Any number of turns gives what the turns for the length of the string give
theorem tableMatches_of_some {formatString : CString} {fuel : Nat} {r : Except Snp4Status MatchInfo}
    (h : snp4InfoGetMatches fuel formatString snp4MaxTableMatches
      (List.replicate snp4MaxTableMatches.toNat invalidMatch) = some r)
    : tableMatches formatString = some r := by
  obtain ⟨hlt, rfl⟩ := eq_outcome formatString snp4MaxTableMatches h
  exact snp4InfoGetMatches_eq formatString snp4MaxTableMatches hlt _

theorem tableMatches_of_readable {formatString : CString}
    (h : Readable formatString snp4MaxTableMatches)
    (hle : numFields formatString ≤ snp4MaxTableMatches.toNat)
    : ∃ info, tableMatches formatString = pure info ∧
        info.matchList.take info.numMatches.toNat =
          ((fields formatString.chars).map meaning).reverse ∧
        info.priorityRequired = (fields formatString.chars).any fun f => needsPriority (meaning f).type := by
  obtain ⟨fuel, hrun⟩ := (meets_iff _ _).mpr h
    (List.replicate snp4MaxTableMatches.toNat invalidMatch) List.length_replicate
  rw [if_pos hle] at hrun
  obtain ⟨info, hrun, hnum, hlist, hpriority⟩ := hrun
  refine ⟨info, tableMatches_of_some hrun, ?_, hpriority⟩
  rw [hlist, List.take_left']
  rw [hnum, List.length_reverse, List.length_map]
  rfl

theorem tableMatches_render {ms : List Snp4InfoMatch} (hle : ms.length ≤ snp4MaxTableMatches.toNat)
    (hvalid : ∀ m ∈ ms, m.type ≠ .invalid)
    : ∃ info, tableMatches (renderString ms) = pure info ∧
        info.matchList.take info.numMatches.toNat = ms ∧
        info.priorityRequired = ms.any fun m => needsPriority m.type := by
  have hback : ((fields (renderString ms).chars).map meaning) = ms.reverse := by
    rw [renderString, fields_render, List.map_map]
    conv_rhs => rw [← List.map_id ms.reverse]
    apply List.map_congr_left
    intro m hm
    exact meaning_renderField (hvalid m (List.mem_reverse.mp hm))
  obtain ⟨info, hrun, hlist, hpriority⟩ := tableMatches_of_readable (readable_renderString hvalid hle)
    (by rw [numFields_renderString]; exact hle)
  refine ⟨info, hrun, by rw [hlist, hback, List.reverse_reverse], ?_⟩
  calc info.priorityRequired
    _ = ((fields (renderString ms).chars).map meaning).any fun m => needsPriority m.type := by
        rw [hpriority, List.any_map]
        rfl
    _ = ms.any fun m => needsPriority m.type := by rw [hback, List.any_reverse]

-- What is taken item by item from a list of descriptions
theorem mapM_render {M : Type → Type} [Monad M] [LawfulMonad M] {C P : Type} {render : P → C}
    {take : C → M P} {ps : List P} (h : ∀ p ∈ ps, take (render p) = pure p)
    : (ps.map render).mapM take = pure ps := by
  induction ps with
  | nil => rfl
  | cons p ps ih =>
    rw [List.map_cons, List.mapM_cons, h p List.mem_cons_self, pure_bind,
      ih fun p hp => h p (List.mem_cons_of_mem _ hp), pure_bind]

theorem tableEndian_render (endian : Snp4InfoTableEndian)
    : tableEndian (renderEndian endian) = pure endian := by
  cases endian <;> rfl

theorem tableMode_render (mode : Snp4InfoTableMode)
    : tableMode (renderMode mode) mode.numMasks = pure mode := by
  cases mode <;> rfl

theorem snp4InfoGetTable_render {table : InfoTable} (h : table.Described)
    : snp4InfoGetTable (renderTable table) = pure table := by
  obtain ⟨info, hrun, hlist, hpriority⟩ := tableMatches_render h.matches_le h.matches_valid
  have hactions : snp4InfoGetActions (table.actions.map renderAction) = pure table.actions := by
    unfold snp4InfoGetActions
    have hle := h.actions_le
    rw [if_neg (by rw [List.length_map]; omega)]
    apply mapM_render
    intro action hmem
    exact snp4InfoGetAction_render (h.params_le action hmem) (h.param_bits action hmem)
  unfold snp4InfoGetTable renderTable
  dsimp only
  rw [tableEndian_render, pure_bind, tableMode_render, pure_bind, hrun, pure_bind, hactions, pure_bind,
    hlist, hpriority, ← h.priority]
  simp

theorem counterAliases_render {blocks : List InfoCounterBlock}
    (hnodup : (blocks.map fun block => block.name).Nodup) {block : InfoCounterBlock}
    (hmem : block ∈ blocks)
    : counterAliases (some (blocks.map renderAliases)) block.name = block.aliases := by
  unfold counterAliases
  dsimp only [Option.bind_some]
  rw [List.find?_map]
  have hfind : blocks.find? ((fun mcb => decide (block.name = mcb.name)) ∘ renderAliases) = some block := by
    induction blocks with
    | nil => cases hmem
    | cons b blocks ih =>
      obtain ⟨hnot, hnodup⟩ := List.nodup_cons.mp hnodup
      rcases List.mem_cons.mp hmem with rfl | hmem
      . exact List.find?_cons_of_pos (by simp [renderAliases])
      . have hne : block.name ≠ b.name := by
          intro heq
          exact hnot (List.mem_map.mpr ⟨block, hmem, heq⟩)
        rw [List.find?_cons_of_neg (by simp [renderAliases, hne])]
        exact ih hnodup hmem
  rw [hfind]
  rfl

theorem infoCounterBlocks_render {blocks : List InfoCounterBlock}
    (hle : blocks.length ≤ snp4MaxPipelineCounterBlocks)
    (hnodup : (blocks.map fun block => block.name).Nodup)
    : infoCounterBlocks (some (blocks.map renderAliases)) (blocks.map renderCounter) = pure blocks := by
  unfold infoCounterBlocks
  rw [if_neg (by rw [List.length_map]; omega)]
  apply mapM_render
  intro block hmem
  have hblock : snp4InfoGetCounterBlock (renderCounter block).toXilVitisNetP4TargetCounterConfig =
      .ok block.toSnp4InfoCounterBlock := by
    unfold snp4InfoGetCounterBlock renderCounter
    obtain ⟨⟨name, type, numCounters⟩, width, aliases⟩ := block
    cases type <;> rfl
  unfold infoCounterBlock
  rw [hblock]
  dsimp only
  rw [counterAliases_render hnodup hmem]
  rfl

-- A pipeline that a configuration can describe is taken from the configuration that describes it
theorem snp4InfoGetPipeline_render {pipeline : InfoPipeline} (h : pipeline.Described)
    : snp4InfoGetPipeline (some (renderPipeline pipeline)) = pure pipeline := by
  have htables : snp4InfoGetTables (pipeline.tables.map renderTable) = pure pipeline.tables := by
    unfold snp4InfoGetTables
    have hle := h.tables_le
    rw [if_neg (by rw [List.length_map]; omega)]
    apply mapM_render
    intro table hmem
    exact snp4InfoGetTable_render (h.tables table hmem)
  unfold snp4InfoGetPipeline renderPipeline
  dsimp only
  rw [htables, pure_bind, infoCounterBlocks_render h.counterBlocks_le h.counterBlocks_nodup, pure_bind]

def aclTable : InfoTable where
  name := "acl"
  keyBits := 48
  matchList := [⟨.prefixed, 32⟩, ⟨.ternary, 16⟩]
  responseBits := 12
  actionidBits := 2
  actions := [⟨"drop", 0, []⟩, ⟨"forward", 9, [⟨"port", 9⟩]⟩]
  numEntries := 1024
  endian := .big
  mode := .stcam 64
  priorityRequired := true
  priorityBits := 10

def aclPipeline : InfoPipeline where
  name := "vitisnetp4_0"
  tables := [aclTable]
  counterBlocks := [⟨⟨[100, 114, 111, 112], .packets, 4⟩, 32, [[97, 99, 108], []]⟩]

theorem aclPipeline_described : aclPipeline.Described where
  tables_le := by decide
  tables := by
    intro table hmem
    rw [List.mem_singleton.mp hmem]
    exact ⟨by decide, by decide, by decide, by decide, by decide, by decide⟩
  counterBlocks_le := by decide
  counterBlocks_nodup := by decide

end Render

-- What is accepted of a configuration, and when it is consistent
section Accepted

variable {α β : Type}

theorem bind_eq_pure_iff {x : InfoM α} {f : α → InfoM β} {b : β}
    : x >>= f = pure b ↔ ∃ a, x = pure a ∧ f a = pure b := by
  constructor
  . intro h
    match x with
    | none => cases h
    | some (.error rc) => cases h
    | some (.ok a) => exact ⟨a, rfl, h⟩
  . rintro ⟨a, rfl, h⟩
    exact (pure_bind a f).trans h

theorem pure_eq_pure_iff {a b : α} : (pure a : InfoM α) = pure b ↔ a = b := by
  constructor
  . intro h
    exact Except.ok.inj (Option.some.inj h)
  . rintro rfl
    rfl

theorem throw_ne_pure {rc : Snp4Status} {a : α} : (throw rc : InfoM α) ≠ pure a := by
  intro h
  cases h

theorem forall₂_of_mapM {f : α → InfoM β} {as : List α} {bs : List β} (h : as.mapM f = pure bs)
    : List.Forall₂ (fun a b => f a = pure b) as bs := by
  induction as generalizing bs with
  | nil =>
    cases h
    exact .nil
  | cons a as ih =>
    rw [List.mapM_cons] at h
    obtain ⟨b, hb, h⟩ := bind_eq_pure_iff.mp h
    obtain ⟨bs, hbs, h⟩ := bind_eq_pure_iff.mp h
    cases pure_eq_pure_iff.mp h
    exact .cons hb (ih hbs)

theorem mapM_isPure_iff {f : α → InfoM β} {as : List α}
    : (∃ bs, as.mapM f = pure bs) ↔ ∀ a ∈ as, ∃ b, f a = pure b := by
  constructor
  . rintro ⟨bs, h⟩ a ha
    have hall := forall₂_of_mapM h
    clear h
    induction hall with
    | nil => cases ha
    | cons hb _ ih =>
      rcases List.mem_cons.mp ha with rfl | ha
      . exact ⟨_, hb⟩
      . exact ih ha
  . intro h
    induction as with
    | nil => exact ⟨[], rfl⟩
    | cons a as ih =>
      obtain ⟨b, hb⟩ := h a List.mem_cons_self
      obtain ⟨bs, hbs⟩ := ih fun a ha => h a (List.mem_cons_of_mem _ ha)
      exact ⟨b :: bs, by rw [List.mapM_cons, hb, pure_bind, hbs, pure_bind]⟩

-- A list that is not too long and of which every item is accepted
theorem bounded_isPure_iff {f : α → InfoM β} {as : List α} {n : Nat} {rc : Snp4Status}
    : (∃ bs, (if as.length > n then throw rc else as.mapM f) = pure bs) ↔
        as.length ≤ n ∧ ∀ a ∈ as, ∃ b, f a = pure b := by
  split
  next hgt =>
    constructor
    . rintro ⟨bs, h⟩
      exact absurd h throw_ne_pure
    . rintro ⟨hle, _⟩
      omega
  next hle =>
    rw [mapM_isPure_iff]
    exact (and_iff_right (Nat.le_of_not_gt hle)).symm

theorem snp4InfoGetAction_isPure_iff {xa : XilVitisNetP4Action}
    : (∃ action, snp4InfoGetAction xa = pure action) ↔ xa.paramList.length ≤ snp4MaxActionParams := by
  unfold snp4InfoGetAction snp4InfoGetParams
  split
  next hgt =>
    constructor
    . rintro ⟨action, h⟩
      obtain ⟨_, h, _⟩ := bind_eq_pure_iff.mp h
      exact absurd h throw_ne_pure
    . omega
  next hle => exact ⟨fun _ => Nat.le_of_not_gt hle, fun _ => ⟨_, rfl⟩⟩

theorem tableMatches_isPure_iff {formatString : CString}
    : (∃ info, tableMatches formatString = pure info) ↔
        formatString.chars.length < 2 ^ 32 ∧
          numFields formatString % 2 ^ 16 ≤ snp4MaxTableMatches.toNat := by
  constructor
  . rintro ⟨info, h⟩
    obtain ⟨hlt, hout⟩ := eq_outcome formatString snp4MaxTableMatches h
    refine ⟨hlt, ?_⟩
    by_contra hgt
    rw [outcome_of_gt formatString snp4MaxTableMatches (Nat.lt_of_not_le hgt)] at hout
    cases hout
  . rintro ⟨hlt, hle⟩
    have hrun := snp4InfoGetMatches_eq formatString snp4MaxTableMatches hlt
      (List.replicate snp4MaxTableMatches.toNat invalidMatch)
    unfold outcome at hrun
    dsimp only at hrun
    rw [if_neg] at hrun
    . exact ⟨_, hrun⟩
    . rw [gt_iff_lt, UInt16.lt_iff_toNat_lt, UInt16.toNat_ofNat']
      exact Nat.not_lt_of_le hle

structure Accepts (xt : XilVitisNetP4TargetTableConfig) : Prop where
  endian : xt.config.endian ∈ [.littleEndian, .bigEndian]
  mode : xt.config.mode ∈ [.bcam, .stcam, .tcam, .dcam, .tinyBcam, .tinyTcam]
  format_ends : xt.config.camConfig.formatString.chars.length < 2 ^ 32
  matches_le : numFields xt.config.camConfig.formatString % 2 ^ 16 ≤ snp4MaxTableMatches.toNat
  actions_le : xt.config.actionList.length ≤ snp4MaxTableActions
  params_le : ∀ xa ∈ xt.config.actionList, xa.paramList.length ≤ snp4MaxActionParams

theorem tableEndian_isPure_iff {endian : XilVitisNetP4Endian}
    : (∃ e, tableEndian endian = pure e) ↔ endian ∈ [.littleEndian, .bigEndian] := by
  cases endian with
  | littleEndian => exact ⟨fun _ => by simp, fun _ => ⟨.little, rfl⟩⟩
  | bigEndian => exact ⟨fun _ => by simp, fun _ => ⟨.big, rfl⟩⟩
  | other code =>
    constructor
    . rintro ⟨e, h⟩
      exact absurd h throw_ne_pure
    . simp

theorem tableMode_isPure_iff {mode : XilVitisNetP4TableMode} {numMasks : UInt32}
    : (∃ m, tableMode mode numMasks = pure m) ↔
        mode ∈ [.bcam, .stcam, .tcam, .dcam, .tinyBcam, .tinyTcam] := by
  cases mode with
  | other code =>
    constructor
    . rintro ⟨m, h⟩
      exact absurd h throw_ne_pure
    . simp
  | _ => exact ⟨fun _ => by simp, fun _ => ⟨_, rfl⟩⟩

theorem snp4InfoGetTable_isPure_iff {xt : XilVitisNetP4TargetTableConfig}
    : (∃ table, snp4InfoGetTable xt = pure table) ↔ Accepts xt := by
  have hactions : (∃ actions, snp4InfoGetActions xt.config.actionList = pure actions) ↔
      xt.config.actionList.length ≤ snp4MaxTableActions ∧
        ∀ xa ∈ xt.config.actionList, xa.paramList.length ≤ snp4MaxActionParams := by
    unfold snp4InfoGetActions
    rw [bounded_isPure_iff]
    simp only [snp4InfoGetAction_isPure_iff]
  unfold snp4InfoGetTable
  constructor
  . rintro ⟨table, h⟩
    obtain ⟨endian, hendian, h⟩ := bind_eq_pure_iff.mp h
    obtain ⟨mode, hmode, h⟩ := bind_eq_pure_iff.mp h
    obtain ⟨info, hinfo, h⟩ := bind_eq_pure_iff.mp h
    obtain ⟨actions, hacts, _⟩ := bind_eq_pure_iff.mp h
    obtain ⟨hends, hmatches⟩ := tableMatches_isPure_iff.mp ⟨info, hinfo⟩
    obtain ⟨hle, hparams⟩ := hactions.mp ⟨actions, hacts⟩
    exact ⟨tableEndian_isPure_iff.mp ⟨endian, hendian⟩, tableMode_isPure_iff.mp ⟨mode, hmode⟩, hends,
      hmatches, hle, hparams⟩
  . intro h
    obtain ⟨endian, hendian⟩ := tableEndian_isPure_iff.mpr h.endian
    obtain ⟨mode, hmode⟩ := (@tableMode_isPure_iff _ xt.config.camConfig.numMasks).mpr h.mode
    obtain ⟨info, hinfo⟩ := tableMatches_isPure_iff.mpr ⟨h.format_ends, h.matches_le⟩
    obtain ⟨actions, hacts⟩ := hactions.mpr ⟨h.actions_le, h.params_le⟩
    rw [hendian, pure_bind, hmode, pure_bind, hinfo, pure_bind, hacts, pure_bind]
    exact ⟨_, rfl⟩

structure AcceptsConfig (config : XilVitisNetP4TargetConfig) : Prop where
  tables_le : config.tableList.length ≤ snp4MaxPipelineTables
  tables : ∀ xt ∈ config.tableList, Accepts xt
  counters_le : config.counterList.length ≤ snp4MaxPipelineCounterBlocks
  counterTypes : ∀ xc ∈ config.counterList, xc.counterType ∈ [.packets, .bytes, .packetsAndBytes, .flag]

theorem infoCounterBlock_isPure_iff {metadata : Option (List MetadataCounterBlock)}
    {xc : TargetCounterConfig}
    : (∃ block, infoCounterBlock metadata xc = pure block) ↔
        xc.counterType ∈ [.packets, .bytes, .packetsAndBytes, .flag] := by
  obtain ⟨⟨name, type, numCounters⟩, width⟩ := xc
  cases type with
  | other code =>
    constructor
    . rintro ⟨block, h⟩
      exact absurd h throw_ne_pure
    . simp
  | _ => exact ⟨fun _ => by simp, fun _ => ⟨_, rfl⟩⟩

theorem snp4InfoGetTables_isPure_iff {cfgTables : List XilVitisNetP4TargetTableConfig}
    : (∃ tables, snp4InfoGetTables cfgTables = pure tables) ↔
        cfgTables.length ≤ snp4MaxPipelineTables ∧ ∀ xt ∈ cfgTables, Accepts xt := by
  unfold snp4InfoGetTables
  rw [bounded_isPure_iff]
  simp only [snp4InfoGetTable_isPure_iff]

theorem infoCounterBlocks_isPure_iff {metadata : Option (List MetadataCounterBlock)}
    {cfgCounters : List TargetCounterConfig}
    : (∃ blocks, infoCounterBlocks metadata cfgCounters = pure blocks) ↔
        cfgCounters.length ≤ snp4MaxPipelineCounterBlocks ∧
          ∀ xc ∈ cfgCounters, xc.counterType ∈ [.packets, .bytes, .packetsAndBytes, .flag] := by
  unfold infoCounterBlocks
  rw [bounded_isPure_iff]
  simp only [infoCounterBlock_isPure_iff]

theorem acceptsConfig_of_isPure {intf : VitisNetP4DrvIntf} {pipeline : InfoPipeline}
    (h : snp4InfoGetPipeline (some intf) = pure pipeline) : AcceptsConfig intf.config := by
  unfold snp4InfoGetPipeline at h
  obtain ⟨tables, hgets, h⟩ := bind_eq_pure_iff.mp h
  obtain ⟨blocks, hblocks, _⟩ := bind_eq_pure_iff.mp h
  obtain ⟨hle, haccepts⟩ := snp4InfoGetTables_isPure_iff.mp ⟨tables, hgets⟩
  obtain ⟨hle', htypes⟩ := infoCounterBlocks_isPure_iff.mp ⟨blocks, hblocks⟩
  exact ⟨hle, haccepts, hle', htypes⟩

theorem isPure_of_acceptsConfig {intf : VitisNetP4DrvIntf} (h : AcceptsConfig intf.config)
    : ∃ pipeline, snp4InfoGetPipeline (some intf) = pure pipeline := by
  obtain ⟨tables, hgets⟩ := snp4InfoGetTables_isPure_iff.mpr ⟨h.tables_le, h.tables⟩
  obtain ⟨blocks, hblocks⟩ := (@infoCounterBlocks_isPure_iff intf.metadata _).mpr
    ⟨h.counters_le, h.counterTypes⟩
  unfold snp4InfoGetPipeline
  dsimp only
  rw [hgets, pure_bind, hblocks, pure_bind]
  exact ⟨_, rfl⟩

-- Which configurations a pipeline is taken from: no limit is exceeded, every string ends, and there is
-- no code that is not known
theorem snp4InfoGetPipeline_isPure_iff (intf : VitisNetP4DrvIntf)
    : (∃ pipeline, snp4InfoGetPipeline (some intf) = pure pipeline) ↔ AcceptsConfig intf.config := by
  constructor
  . rintro ⟨pipeline, h⟩
    exact acceptsConfig_of_isPure h
  . apply isPure_of_acceptsConfig

end Accepted

section Consistent

variable {α β : Type}

-- The widths of a configuration, as the numbers that they are
def matchWidths (xt : XilVitisNetP4TargetTableConfig) : List Nat :=
  (fields xt.config.camConfig.formatString.chars).map fun f => (meaning f).bits.toNat

def paramWidths (xa : XilVitisNetP4Action) : List Nat := xa.paramList.map fun xp => xp.value.toNat

-- A configuration whose widths add up
structure AddsUp (xt : XilVitisNetP4TargetTableConfig) : Prop where
  match_widths_pos : ∀ width ∈ matchWidths xt, 0 < width
  match_widths_sum : (matchWidths xt).sum = xt.config.keySizeBits.toNat
  param_widths_pos : ∀ xa ∈ xt.config.actionList, ∀ width ∈ paramWidths xa, 0 < width
  param_widths_le : ∀ xa ∈ xt.config.actionList,
    (paramWidths xa).sum + xt.config.actionIdWidthBits.toNat ≤
      xt.config.camConfig.responseSizeBits.toNat

-- A configuration of which nothing is lost in the 16 bits of the widths of a description
structure Fits (xt : XilVitisNetP4TargetTableConfig) : Prop where
  readable : Readable xt.config.camConfig.formatString snp4MaxTableMatches
  matches_le : numFields xt.config.camConfig.formatString ≤ snp4MaxTableMatches.toNat
  keySizeBits_lt : xt.config.keySizeBits.toNat < 2 ^ 16
  actionIdWidthBits_lt : xt.config.actionIdWidthBits.toNat < 2 ^ 16
  responseSizeBits_lt : xt.config.camConfig.responseSizeBits.toNat < 2 ^ 16
  param_widths_lt : ∀ xa ∈ xt.config.actionList, (paramWidths xa).sum < 2 ^ 16

theorem toNat_toUInt16 {n : UInt32} (h : n.toNat < 2 ^ 16) : n.toUInt16.toNat = n.toNat := by
  rw [UInt32.toNat_toUInt16, Nat.mod_eq_of_lt h]

theorem toNat_paramBits {params : List XilVitisNetP4Attribute} (bits : UInt16)
    (h : bits.toNat + (params.map fun xp => xp.value.toNat).sum < 2 ^ 16)
    : (params.foldl (fun bits xp => (bits.toUInt32 + xp.value).toUInt16) bits).toNat =
        bits.toNat + (params.map fun xp => xp.value.toNat).sum := by
  induction params generalizing bits with
  | nil => rfl
  | cons xp params ih =>
    rw [List.map_cons, List.sum_cons] at h ⊢
    have hstep : (bits.toUInt32 + xp.value).toUInt16.toNat = bits.toNat + xp.value.toNat := by
      rw [toNat_toUInt16, UInt32.toNat_add, UInt16.toNat_toUInt32]
      . omega
      . rw [UInt32.toNat_add, UInt16.toNat_toUInt32]
        omega
    rw [List.foldl_cons, ih _ (by omega), hstep]
    omega

-- An action of a description, with the widths that its configuration has
theorem snp4InfoGetAction_widths {xa : XilVitisNetP4Action} {action : Snp4InfoAction}
    (h : snp4InfoGetAction xa = pure action) (hlt : (paramWidths xa).sum < 2 ^ 16)
    : action.params.map (fun param => param.bits.toNat) = paramWidths xa ∧
        action.paramBits.toNat = (paramWidths xa).sum := by
  have hle := snp4InfoGetAction_isPure_iff.mp ⟨action, h⟩
  unfold snp4InfoGetAction snp4InfoGetParams at h
  rw [if_neg (by omega)] at h
  obtain rfl := pure_eq_pure_iff.mp h
  have hvalue : ∀ xp ∈ xa.paramList, xp.value.toUInt16.toNat = xp.value.toNat := by
    intro xp hmem
    apply toNat_toUInt16
    have hmem' : xp.value.toNat ∈ paramWidths xa := List.mem_map_of_mem hmem
    exact lt_of_le_of_lt (List.single_le_sum (by simp) _ hmem') hlt
  constructor
  . rw [List.map_map]
    exact List.map_congr_left hvalue
  . have hbits := @toNat_paramBits xa.paramList 0 (by simpa [paramWidths] using hlt)
    simpa [paramWidths] using hbits

theorem forall_iff_of_forall₂ {R : α → β → Prop} {P : α → Prop} {Q : β → Prop} {as : List α}
    {bs : List β} (hall : List.Forall₂ R as bs) (h : ∀ a ∈ as, ∀ b, R a b → (P a ↔ Q b))
    : (∀ a ∈ as, P a) ↔ ∀ b ∈ bs, Q b := by
  induction hall with
  | nil => simp
  | cons hr _ ih =>
    rw [List.forall_mem_cons, List.forall_mem_cons, h _ List.mem_cons_self _ hr,
      ih fun a ha => h a (List.mem_cons_of_mem _ ha)]

-- The actions of a description are consistent when those of the configuration are
theorem snp4InfoGetActions_consistent_iff {xas : List XilVitisNetP4Action}
    {actions : List Snp4InfoAction} (h : snp4InfoGetActions xas = pure actions)
    (hlt : ∀ xa ∈ xas, (paramWidths xa).sum < 2 ^ 16) (P : Nat → Prop)
    : (∀ action ∈ actions, (∀ spec ∈ action.params, 0 < spec.bits.toNat) ∧
          (action.params.map fun spec => spec.bits.toNat).sum = action.paramBits.toNat ∧
          P action.paramBits.toNat) ↔
        ∀ xa ∈ xas, (∀ width ∈ paramWidths xa, 0 < width) ∧ P (paramWidths xa).sum := by
  have hle := (bounded_isPure_iff.mp ⟨actions, h⟩).1
  unfold snp4InfoGetActions at h
  rw [if_neg (by omega)] at h
  refine (forall_iff_of_forall₂ (forall₂_of_mapM h) ?_).symm
  intro xa hmem action haction
  obtain ⟨hwidths, hbits⟩ := snp4InfoGetAction_widths haction (hlt xa hmem)
  rw [hwidths, hbits, ← hwidths]
  simp

theorem snp4InfoGetTable_consistent_iff {xt : XilVitisNetP4TargetTableConfig} {table : InfoTable}
    (hfits : Fits xt) (h : snp4InfoGetTable xt = pure table)
    : table.Consistent ↔ AddsUp xt := by
  unfold snp4InfoGetTable at h
  obtain ⟨endian, _, h⟩ := bind_eq_pure_iff.mp h
  obtain ⟨mode, _, h⟩ := bind_eq_pure_iff.mp h
  obtain ⟨info, hinfo, h⟩ := bind_eq_pure_iff.mp h
  obtain ⟨actions, hactions, h⟩ := bind_eq_pure_iff.mp h
  obtain rfl := pure_eq_pure_iff.mp h
  obtain ⟨info', hinfo', hlist, _⟩ := tableMatches_of_readable hfits.readable hfits.matches_le
  obtain rfl : info = info' := pure_eq_pure_iff.mp (hinfo.symm.trans hinfo')
  have hwidths : (info.matchList.take info.numMatches.toNat).map (fun spec => spec.bits.toNat) =
      (matchWidths xt).reverse := by
    rw [hlist, List.map_reverse, List.map_map]
    rfl
  have hpos : (∀ spec ∈ info.matchList.take info.numMatches.toNat, 0 < spec.bits.toNat) ↔
      ∀ width ∈ matchWidths xt, 0 < width := by
    rw [← List.forall_mem_map (f := fun spec : Snp4InfoMatch => spec.bits.toNat) (P := fun n => 0 < n),
      hwidths]
    simp
  have hkey := toNat_toUInt16 hfits.keySizeBits_lt
  have hresponse := toNat_toUInt16 hfits.responseSizeBits_lt
  have hactionId := toNat_toUInt16 hfits.actionIdWidthBits_lt
  have hacts := snp4InfoGetActions_consistent_iff hactions hfits.param_widths_lt fun n =>
    n + xt.config.actionIdWidthBits.toNat ≤ xt.config.camConfig.responseSizeBits.toNat
  constructor
  . intro hcons
    have hparams := hacts.mp fun action hmem => ⟨hcons.param_bits_pos action hmem,
      hcons.param_bits_sum action hmem, by
        have hle := hcons.param_bits_le action hmem
        dsimp only at hle
        rwa [hresponse, hactionId] at hle⟩
    have hsum := hcons.match_bits_sum
    dsimp only at hsum
    rw [hwidths, List.sum_reverse, hkey] at hsum
    exact ⟨hpos.mp hcons.match_bits_pos, hsum, fun xa hmem => (hparams xa hmem).1,
      fun xa hmem => (hparams xa hmem).2⟩
  . intro hadds
    have hparams := hacts.mpr fun xa hmem => ⟨hadds.param_widths_pos xa hmem, hadds.param_widths_le xa hmem⟩
    refine ⟨hpos.mpr hadds.match_widths_pos, ?_, fun action hmem => (hparams action hmem).1,
      fun action hmem => (hparams action hmem).2.1, ?_⟩
    . dsimp only
      rw [hwidths, List.sum_reverse, hkey]
      exact hadds.match_widths_sum
    . intro action hmem
      dsimp only
      rw [hresponse, hactionId]
      exact (hparams action hmem).2.2

def InfoPipeline.toSnp4InfoPipeline (pipeline : InfoPipeline) : Snp4InfoPipeline where
  tables := pipeline.tables.map InfoTable.toSnp4InfoTable

-- Rules can be packed for a pipeline in the way that the widths of its description tell exactly when
-- the widths of the configuration add up, as long as none of them is cut
theorem snp4InfoGetPipeline_consistent_iff (intf : VitisNetP4DrvIntf)
    (haccepts : AcceptsConfig intf.config) (hfits : ∀ xt ∈ intf.config.tableList, Fits xt)
    : ∃ pipeline, snp4InfoGetPipeline (some intf) = pure pipeline ∧
        (pipeline.toSnp4InfoPipeline.Consistent ↔ ∀ xt ∈ intf.config.tableList, AddsUp xt) := by
  obtain ⟨pipeline, hget⟩ := isPure_of_acceptsConfig haccepts
  refine ⟨pipeline, hget, ?_⟩
  unfold snp4InfoGetPipeline at hget
  obtain ⟨tables, htables, hget⟩ := bind_eq_pure_iff.mp hget
  obtain ⟨blocks, _, hget⟩ := bind_eq_pure_iff.mp hget
  obtain rfl := pure_eq_pure_iff.mp hget
  unfold snp4InfoGetTables at htables
  have hle := haccepts.tables_le
  rw [if_neg (by omega)] at htables
  have hall := forall_iff_of_forall₂ (Q := fun table => table.Consistent) (forall₂_of_mapM htables)
    fun xt hmem table hget => (snp4InfoGetTable_consistent_iff (hfits xt hmem) hget).symm
  rw [hall]
  unfold Snp4InfoPipeline.Consistent InfoPipeline.toSnp4InfoPipeline
  rw [List.forall_mem_map]

theorem snp4InfoGetPipeline_consistent_iff_acl
    : ∃ pipeline, snp4InfoGetPipeline (some (renderPipeline aclPipeline)) = pure pipeline ∧
        (pipeline.toSnp4InfoPipeline.Consistent ↔
          ∀ xt ∈ (renderPipeline aclPipeline).config.tableList, AddsUp xt) := by
  apply snp4InfoGetPipeline_consistent_iff
  . exact acceptsConfig_of_isPure (snp4InfoGetPipeline_render aclPipeline_described)
  . intro xt hmem
    obtain rfl : xt = renderTable aclTable := by simpa [renderPipeline, aclPipeline] using hmem
    refine ⟨readable_renderString (by decide) (by decide), ?_, by decide, by decide, by decide, by decide⟩
    exact le_of_eq_of_le (numFields_renderString _) (by decide)

end Consistent

end Snp4InfoHw
