import SmartnicFw.Lib.EntryLog
import SmartnicFw.Lib.MapM
import SmartnicFw.Snp4.Api

/-!
This module contains the resets of tables (`snp4_api.c`), and drivers that keep the entries of their
tables by what they are passed.
-/

namespace Snp4Api

structure TableIntf (σ τ : Type) extends DrvIntf σ τ where
  getTableCount : σ → Option UInt32
  getTableByIndex : σ → UInt32 → Option τ
  reset (table : τ) : σ → Bool × σ

section Calls

variable {σ τ : Type} (intf : TableIntf σ τ)

def snp4ResetAllTables.go (indices : List UInt32) (target : σ) : Bool × σ :=
  match indices with
  | [] => (true, target)
  | i :: indices =>
    match intf.getTableByIndex target i with
    | none => (false, target)
    | some table =>
      match intf.reset table target with
      | (false, target) => (false, target)
      | (true, target) => go indices target

def snp4ResetAllTables (target : σ) : Bool × σ :=
  match intf.getTableCount target with
  | none => (false, target)
  | some numTables => snp4ResetAllTables.go intf ((List.range numTables.toNat).map UInt32.ofNat) target

def snp4ResetOneTable (tableName : String) (target : σ) : Bool × σ :=
  match intf.getTableByName target tableName with
  | none => (false, target)
  | some table => intf.reset table target

end Calls

-- The entry of a key in a table has its priority, and the action with its parameters
abbrev Entries := EntryLog.Store String EntryKey UInt32 (UInt32 × Option Bytes)

abbrev Effect := EntryLog.Effect String EntryKey UInt32 (UInt32 × Option Bytes)

section Keeps

variable {σ τ : Type} (intf : TableIntf σ τ)

def TableIntf.modeOf (s : σ) (tableName : String) : Option XilVitisNetP4TableMode := do
  let table ← intf.getTableByName s tableName
  intf.getMode s table

def TableIntf.actionIdOf (s : σ) (tableName actionName : String) : Option UInt32 := do
  let table ← intf.getTableByName s tableName
  intf.getActionId s table actionName

variable (names : σ → List String) (entries : σ → Entries)

-- What a target has been set up with
structure SetUpAlike (s s' : σ) : Prop where
  names_eq : names s' = names s
  modeOf_eq : intf.modeOf s' = intf.modeOf s
  actionIdOf_eq : intf.actionIdOf s' = intf.actionIdOf s

-- A call that has its effect when it succeeds, and none when it fails
structure Performs (effect : Option Effect) (s : σ) (r : Bool × σ) : Prop where
  alike : SetUpAlike intf names s r.2
  succeeds : r.1 = true → ∃ e, effect = some e ∧ entries r.2 = e.act (entries s)
  fails : r.1 = false → entries r.2 = entries s

/--
A driver that keeps the entries of the tables named by `names`: a call for a table does to the entries what
it is for, or it fails and does nothing.
-/
structure TableIntf.Keeps : Prop where
  insert : ∀ s name table key mask priority actionId params, intf.getTableByName s name = some table →
    Performs intf names entries (some (.put name (key, mask) priority (actionId, params))) s
      (intf.insert table key mask priority actionId params s)
  update : ∀ s name table key mask actionId params, intf.getTableByName s name = some table →
    Performs intf names entries (some (.change name (key, mask) (actionId, params))) s
      (intf.update table key mask actionId params s)
  delete : ∀ s name table key mask, intf.getTableByName s name = some table →
    Performs intf names entries (some (.remove name (key, mask))) s (intf.delete table key mask s)
  reset : ∀ s name table, intf.getTableByName s name = some table →
    Performs intf names entries (some (.clear name)) s (intf.reset table s)
  getTableCount : ∀ s numTables, intf.getTableCount s = some numTables →
    numTables.toNat = (names s).length
  getTableByIndex : ∀ s i table, intf.getTableByIndex s i = some table →
    ∃ name, (names s)[i.toNat]? = some name ∧ intf.getTableByName s name = some table
  named : ∀ s name key, entries s name key ≠ none → name ∈ names s

variable {intf names entries}

theorem SetUpAlike.refl (s : σ) : SetUpAlike intf names s s := ⟨rfl, rfl, rfl⟩

theorem SetUpAlike.trans {s s' s'' : σ} (h : SetUpAlike intf names s s')
    (h' : SetUpAlike intf names s' s'')
    : SetUpAlike intf names s s'' :=
  ⟨h'.names_eq.trans h.names_eq, h'.modeOf_eq.trans h.modeOf_eq, h'.actionIdOf_eq.trans h.actionIdOf_eq⟩

theorem Performs.refused (effect : Option Effect) (s : σ)
    : Performs intf names entries effect s (false, s) where
  alike := .refl s
  succeeds := nofun
  fails := fun _ => rfl

variable (intf) in
def insertEffect (s : σ) (tableName : String) (key mask : Option Bytes) (actionName : String)
    (params : Option Bytes) (priority : UInt32) (replace : Bool)
    : Option Effect := do
  let actionId ← intf.actionIdOf s tableName actionName
  let mode ← intf.modeOf s tableName
  some (if replace then
    .change tableName (key, passedMask mode mask) (actionId, params)
  else
    .put tableName (key, passedMask mode mask) priority (actionId, params))

variable (intf) in
def deleteEffect (s : σ) (tableName : String) (key mask : Option Bytes) : Option Effect := do
  let mode ← intf.modeOf s tableName
  some (.remove tableName (key, passedMask mode mask))

theorem snp4TableInsertKma_performs (h : intf.Keeps names entries) (s : σ) (tableName : String)
    (key mask : Option Bytes) (actionName : String) (params : Option Bytes) (priority : UInt32)
    (replace : Bool)
    : Performs intf names entries
        (insertEffect intf s tableName key mask actionName params priority replace) s
        (snp4TableInsertKma intf.toDrvIntf tableName key mask actionName params priority replace s) := by
  cases htable : intf.getTableByName s tableName with
  | none =>
    unfold snp4TableInsertKma
    rw [htable]
    exact .refused _ s
  | some table =>
    cases haction : intf.getActionId s table actionName with
    | none =>
      unfold snp4TableInsertKma
      rw [htable]
      dsimp only
      rw [haction]
      exact .refused _ s
    | some actionId =>
      cases hmode : intf.getMode s table with
      | none =>
        unfold snp4TableInsertKma
        rw [htable]
        dsimp only
        rw [haction]
        dsimp only
        rw [hmode]
        exact .refused _ s
      | some mode =>
        have heffect : insertEffect intf s tableName key mask actionName params priority replace =
            some (if replace then
              .change tableName (key, passedMask mode mask) (actionId, params)
            else
              .put tableName (key, passedMask mode mask) priority (actionId, params)) := by
          unfold insertEffect TableIntf.actionIdOf TableIntf.modeOf
          simp [htable, haction, hmode]
        rw [heffect, snp4TableInsertKma_eq htable haction hmode]
        cases replace with
        | true => exact h.update s tableName table _ _ _ _ htable
        | false => exact h.insert s tableName table _ _ _ _ _ htable

theorem snp4TableDeleteK_performs (h : intf.Keeps names entries) (s : σ) (tableName : String)
    (key mask : Option Bytes)
    : Performs intf names entries (deleteEffect intf s tableName key mask) s
        (snp4TableDeleteK intf.toDrvIntf tableName key mask s) := by
  cases htable : intf.getTableByName s tableName with
  | none =>
    unfold snp4TableDeleteK
    rw [htable]
    exact .refused _ s
  | some table =>
    cases hmode : intf.getMode s table with
    | none =>
      unfold snp4TableDeleteK
      rw [htable]
      dsimp only
      rw [hmode]
      exact .refused _ s
    | some mode =>
      have heffect : deleteEffect intf s tableName key mask =
          some (.remove tableName (key, passedMask mode mask)) := by
        unfold deleteEffect TableIntf.modeOf
        simp [htable, hmode]
      rw [heffect, snp4TableDeleteK_eq htable hmode]
      exact h.delete s tableName table _ _ htable

theorem snp4ResetOneTable_performs (h : intf.Keeps names entries) (s : σ) (tableName : String)
    : Performs intf names entries (some (.clear tableName)) s (snp4ResetOneTable intf tableName s) := by
  unfold snp4ResetOneTable
  split
  . exact .refused _ s
  . next table htable => exact h.reset s tableName table htable

-- The tables before the first one that is not found or not reset, from the table `a` on
theorem snp4ResetAllTables_go_clears (h : intf.Keeps names entries) (m a : Nat) (s : σ)
    (hlen : a + m = (names s).length) (hlt : (names s).length < 2 ^ 32)
    : let r := snp4ResetAllTables.go intf ((List.range' a m).map UInt32.ofNat) s
      SetUpAlike intf names s r.2 ∧
        ∃ n, entries r.2 = EntryLog.after ((((names s).drop a).take n).map .clear) (entries s) ∧
          (r.1 = true → n = m) := by
  intro r
  induction m generalizing a s with
  | zero => exact ⟨.refl s, 0, by rw [List.take_zero]; rfl, fun _ => rfl⟩
  | succ m ih =>
    have hcons : (List.range' a (m + 1)).map UInt32.ofNat =
        UInt32.ofNat a :: (List.range' (a + 1) m).map UInt32.ofNat := rfl
    cases htable : intf.getTableByIndex s (UInt32.ofNat a) with
    | none =>
      have hr : r = (false, s) := by
        unfold r
        rw [hcons, snp4ResetAllTables.go, htable]
      rw [hr]
      exact ⟨.refl s, 0, by rw [List.take_zero]; rfl, nofun⟩
    | some table =>
      obtain ⟨name, hname, hbyName⟩ := h.getTableByIndex s _ table htable
      rw [UInt32.toNat_ofNat_of_lt' (by rw [UInt32.size]; omega)] at hname
      have hreset := h.reset s name table hbyName
      rcases hcall : intf.reset table s with ⟨succeeded, s'⟩
      rw [hcall] at hreset
      cases succeeded with
      | false =>
        have hr : r = (false, s') := by
          unfold r
          rw [hcons, snp4ResetAllTables.go, htable]
          dsimp only
          rw [hcall]
        rw [hr]
        exact ⟨hreset.alike, 0, by rw [List.take_zero]; exact hreset.fails rfl, nofun⟩
      | true =>
        have hr : r = snp4ResetAllTables.go intf ((List.range' (a + 1) m).map UInt32.ofNat) s' := by
          unfold r
          rw [hcons, snp4ResetAllTables.go, htable]
          dsimp only
          rw [hcall]
        obtain ⟨e, he, hentries⟩ := hreset.succeeds rfl
        obtain rfl := Option.some.inj he
        have hnames : names s' = names s := hreset.alike.names_eq
        obtain ⟨halike, n, hafter, hall⟩ := ih (a + 1) s' (by rw [hnames]; omega) (by rw [hnames]; exact hlt)
        obtain ⟨hlt', hget⟩ := List.getElem?_eq_some_iff.mp hname
        have hdrop : (names s).drop a = name :: (names s).drop (a + 1) := by
          rw [List.drop_eq_getElem_cons hlt', hget]
        rw [hr]
        refine ⟨hreset.alike.trans halike, n + 1, ?_, fun htrue => by rw [hall htrue]⟩
        rw [hdrop, List.take_succ_cons, List.map_cons, EntryLog.after_cons, hafter, hnames, hentries]

theorem snp4ResetAllTables_clears (h : intf.Keeps names entries) (s : σ)
    : SetUpAlike intf names s (snp4ResetAllTables intf s).2 ∧
        ∃ n, entries (snp4ResetAllTables intf s).2 =
            EntryLog.after (((names s).take n).map .clear) (entries s) ∧
          ((snp4ResetAllTables intf s).1 = true → n = (names s).length) := by
  unfold snp4ResetAllTables
  cases hcount : intf.getTableCount s with
  | none => exact ⟨.refl s, 0, by rw [List.take_zero]; rfl, nofun⟩
  | some numTables =>
    have hlen := h.getTableCount s numTables hcount
    have hlt := numTables.toNat_lt
    dsimp only
    rw [List.range_eq_range', hlen]
    exact snp4ResetAllTables_go_clears h (names s).length 0 s (Nat.zero_add _) (by omega)

-- A driver that has reset all of its tables has no entries
theorem entries_of_snp4ResetAllTables (h : intf.Keeps names entries) {s s' : σ}
    (hreset : snp4ResetAllTables intf s = (true, s')) (name : String) (key : EntryKey)
    : entries s' name key = none := by
  obtain ⟨halike, n, hafter, hall⟩ := snp4ResetAllTables_clears h s
  rw [hreset] at halike hafter hall
  by_contra hne
  have hmem := h.named s' name key hne
  rw [halike.names_eq] at hmem
  apply hne
  rw [hafter, hall rfl, List.take_length, EntryLog.after_clears, if_pos hmem]

end Keeps

-- The dictionaries as such a driver, with the names of the tables in their order
structure ListedTarget where
  names : List String
  target : MapTarget
  named : ∀ name, target name ≠ none → name ∈ names

namespace MapTarget

def setUp (target : MapTarget) (name : String) : Option (XilVitisNetP4TableMode × List String) :=
  (target name).map fun table => (table.mode, table.actions)

def reset (tableName : String) (target : MapTarget) : Bool × MapTarget :=
  match target tableName with
  | none => (false, target)
  | some table => (true, target.setEntries tableName table Dict.empty)

def entries (target : MapTarget) : Entries :=
  fun name key => (target.lookup name key).map fun value => (value.priority, value.actionId, value.params)

-- A call for a table either gives it other entries or fails
def Calls (name : String) (target : MapTarget) (r : Bool × MapTarget) : Prop :=
  r = (false, target) ∨ ∃ table es, target name = some table ∧ r = (true, target.setEntries name table es)

variable {target : MapTarget} {name : String} {r : Bool × MapTarget}

theorem setUp_setEntries {table : MapTable} (h : target name = some table)
    (es : Dict EntryKey EntryValue)
    : (target.setEntries name table es).setUp = target.setUp := by
  funext name'
  unfold setUp setEntries
  by_cases heq : name' = name
  . rw [heq, Function.update_self, h]
    rfl
  . rw [Function.update_of_ne heq]

theorem Calls.setUp_eq (h : Calls name target r) : r.2.setUp = target.setUp := by
  rcases h with rfl | ⟨table, es, htable, rfl⟩
  . rfl
  . exact setUp_setEntries htable es

theorem entries_setEntries {table : MapTable} {es : Dict EntryKey EntryValue} (name' : String)
    (key : EntryKey)
    : (target.setEntries name table es).entries name' key =
        if name' = name then
          (es.get? key).map fun value => (value.priority, value.actionId, value.params)
        else
          target.entries name' key := by
  unfold entries
  rw [lookup_setEntries]
  split <;> rfl

theorem calls_update (name : String) (key mask : Option Bytes) (actionId : UInt32) (params : Option Bytes)
    (target : MapTarget)
    : Calls name target (MapTarget.intf.update name key mask actionId params target) := by
  unfold MapTarget.intf
  dsimp only
  cases htable : target name with
  | none => exact .inl rfl
  | some table =>
    dsimp only
    cases table.entries.get? (key, mask) with
    | none => exact .inl rfl
    | some value => exact .inr ⟨table, _, htable, rfl⟩

theorem calls_insert (name : String) (key mask : Option Bytes) (priority actionId : UInt32)
    (params : Option Bytes) (target : MapTarget)
    : Calls name target (MapTarget.intf.insert name key mask priority actionId params target) := by
  unfold MapTarget.intf
  dsimp only
  cases htable : target name with
  | none => exact .inl rfl
  | some table =>
    dsimp only
    cases table.entries.get? (key, mask) with
    | none => exact .inr ⟨table, _, htable, rfl⟩
    | some value => exact .inl rfl

theorem calls_delete (name : String) (key mask : Option Bytes) (target : MapTarget)
    : Calls name target (MapTarget.intf.delete name key mask target) := by
  unfold MapTarget.intf
  dsimp only
  cases htable : target name with
  | none => exact .inl rfl
  | some table =>
    dsimp only
    cases table.entries.get? (key, mask) with
    | none => exact .inl rfl
    | some value => exact .inr ⟨table, _, htable, rfl⟩

theorem calls_reset (name : String) (target : MapTarget) : Calls name target (reset name target) := by
  unfold reset
  cases htable : target name with
  | none => exact .inl rfl
  | some table => exact .inr ⟨table, _, htable, rfl⟩

-- What a call gives to a table, read entry by entry
theorem entries_eq_act {table : MapTable} {es : Dict EntryKey EntryValue} (htable : target name = some table)
    (effect : Effect)
    (hothers : ∀ name', name' ≠ name → ∀ key e, effect.onEntry name' key e = e)
    (hhere : ∀ key, ((es.get? key).map fun value => (value.priority, value.actionId, value.params)) =
      effect.onEntry name key
        ((table.entries.get? key).map fun value => (value.priority, value.actionId, value.params)))
    : (target.setEntries name table es).entries = effect.act target.entries := by
  funext name' key
  rw [entries_setEntries]
  unfold EntryLog.Effect.act entries
  by_cases heq : name' = name
  . rw [if_pos heq, heq, hhere, lookup_of_table htable]
  . rw [if_neg heq, hothers name' heq]

variable {key mask : Option Bytes} {priority actionId : UInt32} {params : Option Bytes}

theorem entries_update (h : (MapTarget.intf.update name key mask actionId params target).1 = true)
    : (MapTarget.intf.update name key mask actionId params target).2.entries =
        (EntryLog.Effect.change name (key, mask) (actionId, params)).act target.entries := by
  unfold MapTarget.intf at h ⊢
  dsimp only at h ⊢
  cases htable : target name with
  | none =>
    rw [htable] at h
    cases h
  | some table =>
    dsimp only
    cases hget : table.entries.get? (key, mask) with
    | none =>
      rw [htable] at h
      dsimp only at h
      rw [hget] at h
      cases h
    | some value =>
      apply entries_eq_act htable
      . intro name' hne key' e
        exact if_neg fun heq => hne heq.1.symm
      . intro key'
        rw [Dict.get?_insert]
        unfold EntryLog.Effect.onEntry
        by_cases heq : key' = (key, mask)
        . simp [heq, hget]
        . simp [heq, Ne.symm heq]

theorem entries_insert (h : (MapTarget.intf.insert name key mask priority actionId params target).1 = true)
    : (MapTarget.intf.insert name key mask priority actionId params target).2.entries =
        (EntryLog.Effect.put name (key, mask) priority (actionId, params)).act target.entries := by
  unfold MapTarget.intf at h ⊢
  dsimp only at h ⊢
  cases htable : target name with
  | none =>
    rw [htable] at h
    cases h
  | some table =>
    dsimp only
    cases hget : table.entries.get? (key, mask) with
    | none =>
      apply entries_eq_act htable
      . intro name' hne key' e
        exact if_neg fun heq => hne heq.1.symm
      . intro key'
        rw [Dict.get?_insert]
        unfold EntryLog.Effect.onEntry
        by_cases heq : key' = (key, mask)
        . simp [heq]
        . simp [heq, Ne.symm heq]
    | some value =>
      rw [htable] at h
      dsimp only at h
      rw [hget] at h
      cases h

theorem entries_delete (h : (MapTarget.intf.delete name key mask target).1 = true)
    : (MapTarget.intf.delete name key mask target).2.entries =
        (EntryLog.Effect.remove name (key, mask)).act target.entries := by
  unfold MapTarget.intf at h ⊢
  dsimp only at h ⊢
  cases htable : target name with
  | none =>
    rw [htable] at h
    cases h
  | some table =>
    dsimp only
    cases hget : table.entries.get? (key, mask) with
    | none =>
      rw [htable] at h
      dsimp only at h
      rw [hget] at h
      cases h
    | some value =>
      apply entries_eq_act htable
      . intro name' hne key' e
        exact if_neg fun heq => hne heq.1.symm
      . intro key'
        unfold EntryLog.Effect.onEntry
        by_cases heq : key' = (key, mask)
        . rw [heq, Dict.get?_erase_self]
          simp
        . rw [Dict.get?_erase_of_ne _ heq]
          simp [Ne.symm heq]

theorem entries_reset (h : (reset name target).1 = true)
    : (reset name target).2.entries = (EntryLog.Effect.clear name).act target.entries := by
  unfold reset at h ⊢
  cases htable : target name with
  | none =>
    rw [htable] at h
    cases h
  | some table =>
    apply entries_eq_act htable
    . intro name' hne key' e
      exact if_neg fun heq => hne heq.symm
    . intro key'
      rw [Dict.get?_empty]
      exact (if_pos rfl).symm

end MapTarget

namespace ListedTarget

theorem named_of_calls (s : ListedTarget) {name : String} {r : Bool × MapTarget}
    (h : MapTarget.Calls name s.target r) (name' : String) (hne : r.2 name' ≠ none)
    : name' ∈ s.names := by
  apply s.named
  intro hnone
  have hsetUp := congrFun h.setUp_eq name'
  unfold MapTarget.setUp at hsetUp
  rw [hnone] at hsetUp
  exact hne (Option.map_eq_none_iff.mp hsetUp)

-- The target after a call
def called (s : ListedTarget) {name : String} {r : Bool × MapTarget} (h : MapTarget.Calls name s.target r)
    : Bool × ListedTarget :=
  (r.1, { names := s.names, target := r.2, named := s.named_of_calls h })

def intf : TableIntf ListedTarget String where
  getTableByName s name := MapTarget.intf.getTableByName s.target name
  getActionId s := MapTarget.intf.getActionId s.target
  getMode s := MapTarget.intf.getMode s.target
  update name key mask actionId params s :=
    s.called (MapTarget.calls_update name key mask actionId params s.target)
  insert name key mask priority actionId params s :=
    s.called (MapTarget.calls_insert name key mask priority actionId params s.target)
  delete name key mask s := s.called (MapTarget.calls_delete name key mask s.target)
  getTableCount s := if s.names.length < 2 ^ 32 then some (UInt32.ofNat s.names.length) else none
  getTableByIndex s i := do
    let name ← s.names[i.toNat]?
    MapTarget.intf.getTableByName s.target name
  reset name s := s.called (MapTarget.calls_reset name s.target)

theorem getTableByName_eq_some_iff {s : ListedTarget} {name name' : String}
    : ListedTarget.intf.getTableByName s name = some name' ↔ name' = name ∧ s.target name ≠ none := by
  unfold ListedTarget.intf MapTarget.intf
  dsimp only
  cases s.target name with
  | none => simp
  | some table => simp [eq_comm]

theorem setUpAlike {s s' : ListedTarget} (hnames : s'.names = s.names)
    (h : s'.target.setUp = s.target.setUp)
    : SetUpAlike ListedTarget.intf ListedTarget.names s s' := by
  have hmodeOf (s : ListedTarget) (name : String)
      : ListedTarget.intf.modeOf s name = (s.target.setUp name).map Prod.fst := by
    unfold TableIntf.modeOf MapTarget.setUp ListedTarget.intf MapTarget.intf
    cases htable : s.target name <;> simp [htable]
  have hactionIdOf (s : ListedTarget) (name actionName : String)
      : ListedTarget.intf.actionIdOf s name actionName =
          (s.target.setUp name).bind fun p => (p.2.idxOf? actionName).map UInt32.ofNat := by
    unfold TableIntf.actionIdOf MapTarget.setUp ListedTarget.intf MapTarget.intf
    cases htable : s.target name <;> simp [htable, Option.map_eq_bind]
  refine ⟨hnames, ?_, ?_⟩
  . funext name
    rw [hmodeOf, hmodeOf, h]
  . funext name actionName
    rw [hactionIdOf, hactionIdOf, h]

theorem performs {s : ListedTarget} {name : String} {r : Bool × MapTarget}
    (h : MapTarget.Calls name s.target r) (effect : Effect)
    (hdone : r.1 = true → r.2.entries = effect.act s.target.entries)
    : Performs ListedTarget.intf ListedTarget.names (fun s => s.target.entries) (some effect) s (s.called h) where
  alike := setUpAlike rfl h.setUp_eq
  succeeds := fun htrue => ⟨effect, rfl, hdone htrue⟩
  fails := by
    intro hfalse
    rcases h with rfl | ⟨table, es, _, rfl⟩
    . rfl
    . cases hfalse

theorem keeps : ListedTarget.intf.Keeps ListedTarget.names fun s => s.target.entries where
  insert := by
    intro s name table key mask priority actionId params htable
    obtain ⟨rfl, _⟩ := getTableByName_eq_some_iff.mp htable
    exact performs (MapTarget.calls_insert table key mask priority actionId params s.target) _ MapTarget.entries_insert
  update := by
    intro s name table key mask actionId params htable
    obtain ⟨rfl, _⟩ := getTableByName_eq_some_iff.mp htable
    exact performs (MapTarget.calls_update table key mask actionId params s.target) _ MapTarget.entries_update
  delete := by
    intro s name table key mask htable
    obtain ⟨rfl, _⟩ := getTableByName_eq_some_iff.mp htable
    exact performs (MapTarget.calls_delete table key mask s.target) _ MapTarget.entries_delete
  reset := by
    intro s name table htable
    obtain ⟨rfl, _⟩ := getTableByName_eq_some_iff.mp htable
    exact performs (MapTarget.calls_reset table s.target) _ MapTarget.entries_reset
  getTableCount := by
    intro s numTables hcount
    unfold ListedTarget.intf at hcount
    dsimp only at hcount
    split at hcount
    . next hlt =>
      obtain rfl := Option.some.inj hcount
      exact UInt32.toNat_ofNat_of_lt' hlt
    . cases hcount
  getTableByIndex := by
    intro s i table hindex
    obtain ⟨name, hname, htable⟩ := Option.bind_eq_some_iff.mp hindex
    exact ⟨name, hname, htable⟩
  named := by
    intro s name key hne
    apply s.named
    intro hnone
    apply hne
    unfold MapTarget.entries MapTarget.lookup
    rw [hnone]
    rfl

end ListedTarget

end Snp4Api
