import SmartnicFw.Lib.Cursor
import SmartnicFw.Snp4.Api

/-!
This module contains the loop over the entries of a table (`snp4_api.c`), and that it calls back once
for each entry that is live.
-/

namespace Snp4Api

-- The returns of `get_by_response` that are not `XIL_VITIS_NET_P4_SUCCESS`
inductive DrvError where
  | camErrKeyNotFound
  | failed
  deriving DecidableEq, Repr

/--
What the driver offers to read its tables. `withMask` and `withPriority` say that the pointer for it
is not NULL; what is returned for a NULL pointer is not written anywhere.
-/
structure DrvReads (σ τ : Type) extends DrvIntf σ τ where
  getKeySizeBits : σ → τ → Option UInt32
  getActionParamsSizeBits : σ → τ → Option UInt32
  getNumActions : σ → τ → Option UInt32
  getActionName (target : σ) (table : τ) (actionId numBytes : UInt32) : Option String
  getByKey (target : σ) (table : τ) (key : Bytes) (mask : Option Bytes) (withPriority : Bool)
    : Option (UInt32 × UInt32 × Bytes)
  getByResponse (target : σ) (table : τ) (actionId : UInt32) (params paramsMask : Bytes)
    (position : UInt32) (withMask : Bool)
    : Except DrvError (UInt32 × Bytes × Bytes)

structure Snp4TableData where
  width : UInt32
  len : Nat
  value : Bytes
  mask : Option Bytes
  deriving DecidableEq, Repr

structure Snp4TableEntry where
  tableName : String
  priority : UInt32
  key : Snp4TableData
  actionName : String
  params : Snp4TableData
  deriving DecidableEq, Repr

structure Snp4TableGetResponse where
  key : Snp4TableData
  actionId : UInt32
  params : Snp4TableData
  deriving DecidableEq, Repr

-- What is known of a table before its entries are asked for
structure Snp4TableGetContext (τ : Type) where
  name : String
  handle : τ
  keyWidth : UInt32
  paramsWidth : UInt32
  mode : XilVitisNetP4TableMode
  numActions : UInt32
  deriving DecidableEq, Repr

def bytesOf (width : UInt32) : Nat := ((width + 8 - 1) / 8).toNat

namespace Snp4TableGetContext

variable {τ : Type} (ctx : Snp4TableGetContext τ)

def actionIds : List UInt32 := (List.range ctx.numActions.toNat).map UInt32.ofNat

def emptyParams : Bytes := List.replicate (bytesOf ctx.paramsWidth) 0

def response (item : UInt32 × Bytes × Option Bytes) : Snp4TableGetResponse where
  key := {
    width := ctx.keyWidth
    len := bytesOf ctx.keyWidth
    value := item.2.1
    mask := item.2.2
  }
  actionId := item.1
  params := {
    width := ctx.paramsWidth
    len := bytesOf ctx.paramsWidth
    value := ctx.emptyParams
    mask := some ctx.emptyParams
  }

end Snp4TableGetContext

section Read

variable {σ τ ρ : Type} (intf : DrvReads σ τ) (target : σ)

def openTable (name : String) : Option (Snp4TableGetContext τ) := do
  let handle ← intf.getTableByName target name
  let keyWidth ← intf.getKeySizeBits target handle
  let paramsWidth ← intf.getActionParamsSizeBits target handle
  let mode ← intf.getMode target handle
  let numActions ← intf.getNumActions target handle
  some { name, handle, keyWidth, paramsWidth, mode, numActions }

-- The entries are those of one action, whatever their parameters
def nextResponse (ctx : Snp4TableGetContext τ) (withMask : Bool) (actionId position : UInt32)
    : Cursor.Next UInt32 (UInt32 × Bytes × Option Bytes) :=
  match intf.getByResponse target ctx.handle actionId ctx.emptyParams ctx.emptyParams position
      withMask with
  | .error .camErrKeyNotFound => .exhausted
  | .error .failed => .failed
  | .ok (position, key, mask) => .item position (actionId, key, if withMask then some mask else none)

-- Certain table modes insist on a NULL mask parameter, all others require the mask
def asksForMask (mode : XilVitisNetP4TableMode) : Bool :=
  match mode with
  | .dcam | .bcam => false
  | _ => true

-- Mask and priority parameters must be NULL for these table modes
def asksForMaskAndPriority (mode : XilVitisNetP4TableMode) : Bool :=
  match mode with
  | .dcam | .bcam => false
  | _ => true

def snp4TableGetByResponse (fuel : Nat) (name : String)
    (callback : Snp4TableGetContext τ → Snp4TableGetResponse → ρ → Bool × ρ) (arg : ρ)
    : Option (Bool × ρ) :=
  match openTable intf target name with
  | none => some (false, arg)
  | some ctx =>
    Cursor.walkEach (nextResponse intf target ctx (asksForMask ctx.mode)) 0
      (fun item => callback ctx (ctx.response item)) fuel ctx.actionIds arg

/--
The adapter that turns a response into an entry. That the entry cannot be read is returned like the
wish to stop.
-/
def forEachEntryAdapter (callback : Snp4TableEntry → ρ → Bool × ρ) (ctx : Snp4TableGetContext τ)
    (resp : Snp4TableGetResponse) (arg : ρ)
    : Bool × ρ :=
  let all := asksForMaskAndPriority ctx.mode
  match intf.getByKey target ctx.handle resp.key.value (if all then resp.key.mask else none) all with
  | none => (false, arg)
  | some (priority, actionId, params) =>
    let actionName := (intf.getActionName target ctx.handle actionId 256).getD "<buffer-too-small>"
    callback
      { tableName := ctx.name,
        priority := if all then priority else 0,
        -- The callback always has a key mask
        key := { resp.key with
          mask := if all then resp.key.mask else some (List.replicate resp.key.len 0xff) },
        actionName := actionName,
        params := { resp.params with
          value := params, mask := some (List.replicate resp.params.len 0xff) } } arg

def snp4TableForEachEntry (fuel : Nat) (name : String) (callback : Snp4TableEntry → ρ → Bool × ρ)
    (arg : ρ)
    : Option (Bool × ρ) :=
  snp4TableGetByResponse intf target fuel name (forEachEntryAdapter intf target callback) arg

end Read

-- An entry with the key and the mask that the driver has been passed for it
structure TableEntry where
  key : Bytes
  mask : Option Bytes
  priority : UInt32
  actionId : UInt32
  params : Bytes
  deriving DecidableEq, Repr

def itemOf (e : TableEntry) : UInt32 × Bytes × Option Bytes := (e.actionId, e.key, e.mask)

section Enumerates

variable {σ τ ρ : Type} (intf : DrvReads σ τ) (target : σ) (ctx : Snp4TableGetContext τ)

-- The driver fails before all entries of some action have been given
def DrvReads.Fails : Prop :=
  ∃ actionId ∈ ctx.actionIds, ∃ items,
    Cursor.Gives (nextResponse intf target ctx (!decide ctx.mode.NullMask) actionId) 0 items false

-- The entries of each action are given once, up to a failure if there is one
structure DrvReads.Enumerates (live : Finset TableEntry) : Prop where
  action_known : ∀ e ∈ live, e.actionId ∈ ctx.actionIds
  mask_isSome : ∀ e ∈ live, e.mask.isSome = !decide ctx.mode.NullMask
  gives : ∀ actionId ∈ ctx.actionIds, ∃ order given ends,
    order.Nodup ∧ (∀ e, e ∈ order ↔ e ∈ live ∧ e.actionId = actionId) ∧
      given <+: order ∧ (ends = true → given = order) ∧
      Cursor.Gives (nextResponse intf target ctx (!decide ctx.mode.NullMask) actionId) 0
        (given.map itemOf) ends
  getByKey_eq : ∀ e ∈ live,
    intf.getByKey target ctx.handle e.key e.mask (!decide ctx.mode.NullMask) =
      some (e.priority, e.actionId, e.params)

-- What is called back with for an entry
def entryView (e : TableEntry) : Snp4TableEntry where
  tableName := ctx.name
  priority := if ctx.mode.NullMask then 0 else e.priority
  key := {
    width := ctx.keyWidth
    len := bytesOf ctx.keyWidth
    value := e.key
    mask := if ctx.mode.NullMask then some (List.replicate (bytesOf ctx.keyWidth) 0xff) else e.mask
  }
  actionName := (intf.getActionName target ctx.handle e.actionId 256).getD "<buffer-too-small>"
  params := {
    width := ctx.paramsWidth
    len := bytesOf ctx.paramsWidth
    value := e.params
    mask := some (List.replicate (bytesOf ctx.paramsWidth) 0xff)
  }

end Enumerates

section Visits

variable {σ τ ρ : Type} {intf : DrvReads σ τ} {target : σ} {ctx : Snp4TableGetContext τ}
variable {live : Finset TableEntry}

theorem nodup_actionIds (ctx : Snp4TableGetContext τ) : ctx.actionIds.Nodup := by
  apply List.Nodup.map_on ?_ List.nodup_range
  intro i hi j hj heq
  have hn := ctx.numActions.toNat_lt
  rw [List.mem_range] at hi hj
  rw [← UInt32.toNat_ofNat_of_lt' (hi.trans hn), heq, UInt32.toNat_ofNat_of_lt' (hj.trans hn)]

-- The entries of all actions, one action after the other
theorem flatMap_order {order : UInt32 → List TableEntry}
    (hknown : ∀ e ∈ live, e.actionId ∈ ctx.actionIds)
    (hnodup : ∀ actionId ∈ ctx.actionIds, (order actionId).Nodup)
    (hmem : ∀ actionId ∈ ctx.actionIds, ∀ e,
      e ∈ order actionId ↔ e ∈ live ∧ e.actionId = actionId)
    : (ctx.actionIds.flatMap order).Nodup ∧ ∀ e, e ∈ ctx.actionIds.flatMap order ↔ e ∈ live := by
  constructor
  . rw [List.nodup_flatMap]
    refine ⟨hnodup, ?_⟩
    apply List.Nodup.pairwise_of_forall_ne (nodup_actionIds ctx)
    intro i hi j hj hne e he he'
    apply hne
    rw [← ((hmem i hi e).mp he).2, ← ((hmem j hj e).mp he').2]
  . intro e
    rw [List.mem_flatMap]
    constructor
    . rintro ⟨actionId, hid, he⟩
      exact ((hmem actionId hid e).mp he).1
    . intro he
      exact ⟨e.actionId, hknown e he, (hmem _ (hknown e he) e).mpr ⟨he, rfl⟩⟩

theorem asksForMask_eq {mode : XilVitisNetP4TableMode} (h : mode ≠ .tinyBcam)
    : asksForMask mode = !decide mode.NullMask := by
  cases mode <;> first | decide | exact absurd rfl h

theorem asksForMaskAndPriority_eq {mode : XilVitisNetP4TableMode} (h : mode ≠ .tinyBcam)
    : asksForMaskAndPriority mode = !decide mode.NullMask := by
  cases mode <;> first | decide | exact absurd rfl h

-- An entry that is live can be read, and then it is what is called back with
theorem forEachEntryAdapter_eq (hmode : ctx.mode ≠ .tinyBcam)
    (h : intf.Enumerates target ctx live) {e : TableEntry} (he : e ∈ live)
    (callback : Snp4TableEntry → ρ → Bool × ρ) (arg : ρ)
    : forEachEntryAdapter intf target callback ctx (ctx.response (itemOf e)) arg =
        callback (entryView intf target ctx e) arg := by
  have hkey := h.getByKey_eq e he
  have hmask := h.mask_isSome e he
  unfold forEachEntryAdapter entryView
  rw [asksForMaskAndPriority_eq hmode]
  by_cases hnull : ctx.mode.NullMask
  . have hnone : e.mask = none := by
      simpa [hnull] using hmask
    simp only [hnull, decide_true, Bool.not_true, hnone, Bool.false_eq_true, if_false, if_true] at hkey ⊢
    rw [show (ctx.response (itemOf e)).key.value = e.key from rfl, hkey]
    rfl
  . simp only [hnull, decide_false, Bool.not_false, if_true, if_false] at hkey ⊢
    rw [show (ctx.response (itemOf e)).key.value = e.key from rfl,
      show (ctx.response (itemOf e)).key.mask = e.mask from rfl, hkey]
    rfl

-- A table that is open is walked action by action, with the entries that the driver gives
theorem exists_forEachEntry {name : String} (hopen : openTable intf target name = some ctx)
    (hmode : ctx.mode ≠ .tinyBcam) (h : intf.Enumerates target ctx live)
    {given : UInt32 → List TableEntry} {ends : UInt32 → Bool}
    (hlive : ∀ actionId ∈ ctx.actionIds, ∀ e ∈ given actionId, e ∈ live)
    (hgives : ∀ actionId ∈ ctx.actionIds,
      Cursor.Gives (nextResponse intf target ctx (!decide ctx.mode.NullMask) actionId) 0
        ((given actionId).map itemOf) (ends actionId))
    (callback : Snp4TableEntry → ρ → Bool × ρ) (arg : ρ)
    : let all := Cursor.untilFailure (ctx.actionIds.map fun id => (given id, ends id))
      let visited := Cursor.visit callback (all.1.map (entryView intf target ctx)) arg
      ∃ enough, ∀ fuel, enough ≤ fuel →
        snp4TableForEachEntry intf target fuel name callback arg =
          some (!visited.1 || all.2, visited.2) := by
  intro all visited
  have hparts : List.Forall₂
      (fun id part => Cursor.Gives (nextResponse intf target ctx (!decide ctx.mode.NullMask) id) 0
        part.1 part.2)
      ctx.actionIds (ctx.actionIds.map fun id => ((given id).map itemOf, ends id)) := by
    rw [List.forall₂_map_right_iff, List.forall₂_same]
    exact hgives
  obtain ⟨enough, hwalk⟩ := Cursor.exists_walkEach hparts arg
    (f := fun item => forEachEntryAdapter intf target callback ctx (ctx.response item))
  have hmap : (ctx.actionIds.map fun id => ((given id).map itemOf, ends id)) =
      (ctx.actionIds.map fun id => (given id, ends id)).map fun part =>
        (part.1.map itemOf, part.2) := by
    rw [List.map_map]
    rfl
  have hvisit : Cursor.visit
      (fun item => forEachEntryAdapter intf target callback ctx (ctx.response item))
      (all.1.map itemOf) arg = visited := by
    dsimp only [visited]
    rw [Cursor.visit_map, Cursor.visit_map]
    apply Cursor.visit_congr
    intro e he arg
    obtain ⟨part, hpart, he⟩ := Cursor.exists_of_mem_untilFailure he
    obtain ⟨id, hid, rfl⟩ := List.mem_map.mp hpart
    exact forEachEntryAdapter_eq hmode h (hlive id hid e he) callback arg
  refine ⟨enough, ?_⟩
  intro fuel hfuel
  unfold snp4TableForEachEntry snp4TableGetByResponse
  rw [hopen]
  dsimp only
  rw [asksForMask_eq hmode, hwalk fuel hfuel, hmap, Cursor.untilFailure_map, hvisit]

end Visits

/--
A table that cannot be opened is not enumerated. For one that can, the entries called back with are
the live ones in some order, each once, up to the first failure of the driver; and the loop succeeds
when it has seen them all or has been asked to stop.
-/
theorem forEachEntry_visits {σ τ : Type} {intf : DrvReads σ τ} {target : σ} {name : String}
    {ctx : Snp4TableGetContext τ} {live : Finset TableEntry}
    (hopen : openTable intf target name = some ctx) (hmode : ctx.mode ≠ .tinyBcam)
    (h : intf.Enumerates target ctx live)
    : (∀ name, openTable intf target name = none →
          ∀ (ρ : Type) (callback : Snp4TableEntry → ρ → Bool × ρ) (arg : ρ) (fuel : Nat),
          snp4TableForEachEntry intf target fuel name callback arg = some (false, arg)) ∧
        ∃ order given : List TableEntry,
          order.Nodup ∧ (∀ e, e ∈ order ↔ e ∈ live) ∧ given <+: order ∧
          (¬ intf.Fails target ctx → given = order) ∧
          ∀ (ρ : Type) (callback : Snp4TableEntry → ρ → Bool × ρ) (arg : ρ), ∃ enough,
            ∀ fuel, enough ≤ fuel → ∃ done,
              snp4TableForEachEntry intf target fuel name callback arg =
                some (done,
                  (Cursor.visit callback (given.map (entryView intf target ctx)) arg).2) ∧
              (done = true ↔
                (Cursor.visit callback (given.map (entryView intf target ctx)) arg).1 = false ∨
                  ¬ intf.Fails target ctx) := by
  refine ⟨?_, ?_⟩
  . intro name hnone ρ callback arg fuel
    unfold snp4TableForEachEntry snp4TableGetByResponse
    rw [hnone]
  . choose! order given ends hnodup hmem hpart hall hgives using h.gives
    obtain ⟨hordered, hin⟩ := flatMap_order h.action_known hnodup hmem
    have hparts : List.Forall₂
        (fun part order => part.1 <+: order ∧ (part.2 = true → part.1 = order))
        (ctx.actionIds.map fun id => (given id, ends id)) (ctx.actionIds.map order) := by
      rw [List.forall₂_map_left_iff, List.forall₂_map_right_iff, List.forall₂_same]
      intro id hid
      exact ⟨hpart id hid, hall id hid⟩
    obtain ⟨hgiven, hsame⟩ := Cursor.untilFailure_fst_isPrefix hparts
    rw [← List.flatMap_def] at hgiven hsame
    -- Whether all cursors come to their end
    have hends : (Cursor.untilFailure (ctx.actionIds.map fun id => (given id, ends id))).2 = true ↔
        ¬ intf.Fails target ctx := by
      rw [Cursor.untilFailure_snd, List.forall_mem_map]
      constructor
      . rintro hends ⟨id, hid, items, hfails⟩
        have heq := (hfails.unique (hgives id hid)).2
        have hend : ends id = true := hends id hid
        rw [hend] at heq
        cases heq
      . intro hnot id hid
        by_contra hfalse
        have hend : ends id = false := Bool.not_eq_true _ |>.mp hfalse
        have hfails := hgives id hid
        rw [hend] at hfails
        exact hnot ⟨id, hid, _, hfails⟩
    refine ⟨_, _, hordered, hin, hgiven, fun hnot => hsame (hends.mpr hnot), ?_⟩
    intro ρ callback arg
    have hlive : ∀ id ∈ ctx.actionIds, ∀ e ∈ given id, e ∈ live := by
      intro id hid e he
      exact ((hmem id hid e).mp ((hpart id hid).subset he)).1
    obtain ⟨enough, heq⟩ := exists_forEachEntry hopen hmode h hlive hgives callback arg
    refine ⟨enough, ?_⟩
    intro fuel hfuel
    refine ⟨_, heq fuel hfuel, ?_⟩
    rw [Bool.or_eq_true, Bool.not_eq_true', hends]

end Snp4Api
