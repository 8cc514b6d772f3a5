import Mathlib

/-!
This module contains the description of a pipeline (`snp4.h`) as far as packing and installing
rules looks at it, and the lookups of `snp4_info_util.c`. The counted C arrays are lists, their
`num_` fields are the lengths of these.
-/

structure Snp4InfoParam where
  name : String
  bits : UInt16
  deriving DecidableEq, Repr

structure Snp4InfoAction where
  name : String
  paramBits : UInt16
  params : List Snp4InfoParam
  deriving DecidableEq, Repr

inductive Snp4InfoMatchType where
  | invalid
  | bitfield
  | constant
  | prefixed
  | range
  | ternary
  | unused
  deriving DecidableEq, Repr

structure Snp4InfoMatch where
  type : Snp4InfoMatchType
  bits : UInt16
  deriving DecidableEq, Repr

/--
What an array slot that was never filled holds.
-/
instance : Inhabited Snp4InfoMatch where
  default := { type := .invalid, bits := 0 }

instance : Inhabited Snp4InfoParam where
  default := { name := "", bits := 0 }

structure Snp4InfoTable where
  name : String
  keyBits : UInt16
  matchList : List Snp4InfoMatch
  responseBits : UInt16
  actionidBits : UInt16
  actions : List Snp4InfoAction
  deriving DecidableEq, Repr

structure Snp4InfoPipeline where
  tables : List Snp4InfoTable
  deriving DecidableEq, Repr

inductive Snp4Status where
  | ok
  | nullPipeline
  | nullEntry
  | nullPack
  | mallocFail
  | nullRule
  | fieldSpecOverflow
  | fieldSpecFormatInvalid
  | fieldSpecUnknownType
  | fieldSpecSizeMismatch
  | packKeyTooBig
  | packMaskTooBig
  | packParamsTooBig
  | matchInvalidFormat
  | matchMaskTooWide
  | matchInvalidBitfieldMask
  | matchInvalidConstantMask
  | matchInvalidPrefixMask
  | matchInvalidRangeMask
  | matchInvalidUnusedMask
  | matchKeyTooBig
  | matchMaskTooBig
  | invalidTableName
  | invalidTableConfig
  | invalidActionForTable
  | paramInvalidFormat
  | paramSpecOverflow
  | paramSpecSizeMismatch
  | paramTooBig
  | infoTooManyTables
  | infoTooManyMatches
  | infoTooManyActions
  | infoTooManyParams
  | infoInvalidEndian
  | infoInvalidMode
  | infoTooManyCounterBlocks
  | infoInvalidCounterType
  deriving DecidableEq, Repr

/--
Both pointers may be NULL, the first table of the name is returned.
-/
def snp4InfoGetTableByName (pipeline : Option Snp4InfoPipeline) (tableName : Option String)
    : Option Snp4InfoTable := do
  let pipeline ← pipeline
  let tableName ← tableName
  pipeline.tables.find? fun infoTable => infoTable.name == tableName

def snp4InfoGetActionByName (table : Option Snp4InfoTable) (actionName : Option String)
    : Option Snp4InfoAction := do
  let table ← table
  let actionName ← actionName
  table.actions.find? fun infoAction => infoAction.name == actionName

theorem snp4InfoGetTableByName_mem {pipeline : Snp4InfoPipeline} {tableName : Option String}
    {table : Snp4InfoTable} (h : snp4InfoGetTableByName (some pipeline) tableName = some table)
    : table ∈ pipeline.tables := by
  cases tableName with
  | none => simp [snp4InfoGetTableByName] at h
  | some tableName => exact List.mem_of_find?_eq_some (by simpa [snp4InfoGetTableByName] using h)

theorem snp4InfoGetActionByName_mem {table : Snp4InfoTable} {actionName : Option String}
    {action : Snp4InfoAction} (h : snp4InfoGetActionByName (some table) actionName = some action)
    : action ∈ table.actions := by
  cases actionName with
  | none => simp [snp4InfoGetActionByName] at h
  | some actionName => exact List.mem_of_find?_eq_some (by simpa [snp4InfoGetActionByName] using h)

/--
The widths of a table add up: this is what the generated pipeline configurations provide.
-/
structure Snp4InfoTable.Consistent (table : Snp4InfoTable) : Prop where
  match_bits_pos : ∀ spec ∈ table.matchList, 0 < spec.bits.toNat
  match_bits_sum : (table.matchList.map fun spec => spec.bits.toNat).sum = table.keyBits.toNat
  param_bits_pos : ∀ action ∈ table.actions, ∀ spec ∈ action.params, 0 < spec.bits.toNat
  param_bits_sum : ∀ action ∈ table.actions,
    (action.params.map fun spec => spec.bits.toNat).sum = action.paramBits.toNat
  param_bits_le : ∀ action ∈ table.actions,
    action.paramBits.toNat + table.actionidBits.toNat ≤ table.responseBits.toNat

def Snp4InfoPipeline.Consistent (pipeline : Snp4InfoPipeline) : Prop :=
  ∀ table ∈ pipeline.tables, table.Consistent

instance (table : Snp4InfoTable) : Decidable table.Consistent :=
  decidable_of_iff
    ((∀ spec ∈ table.matchList, 0 < spec.bits.toNat) ∧
      (table.matchList.map fun spec => spec.bits.toNat).sum = table.keyBits.toNat ∧
      (∀ action ∈ table.actions, ∀ spec ∈ action.params, 0 < spec.bits.toNat) ∧
      (∀ action ∈ table.actions,
        (action.params.map fun spec => spec.bits.toNat).sum = action.paramBits.toNat) ∧
      (∀ action ∈ table.actions,
        action.paramBits.toNat + table.actionidBits.toNat ≤ table.responseBits.toNat))
    ⟨fun ⟨h1, h2, h3, h4, h5⟩ => ⟨h1, h2, h3, h4, h5⟩,
      fun ⟨h1, h2, h3, h4, h5⟩ => ⟨h1, h2, h3, h4, h5⟩⟩

instance (pipeline : Snp4InfoPipeline) : Decidable pipeline.Consistent :=
  inferInstanceAs (Decidable (∀ table ∈ pipeline.tables, table.Consistent))

-- The pipeline that `snp4_info_ut.c` mocks for the unit tests
def snp4InfoPipeline : Snp4InfoPipeline :=
  let nop : Snp4InfoAction := { name := "a_nop", paramBits := 0, params := [] }
  { tables := [
      { name := "t_p128", keyBits := 128, matchList := [⟨.prefixed, 128⟩],
        responseBits := 64, actionidBits := 2, actions := [nop] },
      { name := "t_b17", keyBits := 17, matchList := [⟨.bitfield, 17⟩],
        responseBits := 64, actionidBits := 2, actions := [nop] },
      { name := "t_c31", keyBits := 31, matchList := [⟨.constant, 31⟩],
        responseBits := 64, actionidBits := 2, actions := [nop] },
      { name := "t_r16", keyBits := 16, matchList := [⟨.range, 16⟩],
        responseBits := 64, actionidBits := 2, actions := [nop] },
      { name := "t_t9", keyBits := 9, matchList := [⟨.ternary, 9⟩],
        responseBits := 64, actionidBits := 2, actions := [nop] },
      { name := "t_u3", keyBits := 3, matchList := [⟨.unused, 3⟩],
        responseBits := 64, actionidBits := 2, actions := [nop] },
      { name := "t_multi", keyBits := 34,
        matchList := [⟨.bitfield, 3⟩, ⟨.constant, 3⟩, ⟨.prefixed, 6⟩, ⟨.range, 13⟩, ⟨.ternary, 7⟩,
          ⟨.unused, 2⟩],
        responseBits := 61, actionidBits := 0,
        actions := [
          nop,
          { name := "a_one", paramBits := 24, params := [⟨"a", 24⟩] },
          { name := "a_two", paramBits := 52, params := [⟨"a", 13⟩, ⟨"b", 39⟩] },
          { name := "a_three", paramBits := 60, params := [⟨"a", 13⟩, ⟨"b", 39⟩, ⟨"c", 8⟩] }] }] }

theorem snp4InfoPipeline_consistent : snp4InfoPipeline.Consistent := by
  decide
