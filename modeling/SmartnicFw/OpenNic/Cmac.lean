import SmartnicFw.Lib.RegFields

/-!
This module contains the configuration of the MAC of a port (`cmac.c`) and the thresholds of the flow
control of the interfaces (`flow_control.c`), on the registers that hold them.
-/

namespace Cmac

-- What the register map generator provides
structure Layout where
  ctlRxEnable : RegField 32
  ctlTxEnable : RegField 32
  ctlRxRsfecIeeeErrIndMode : RegField 32
  ctlRxRsfecEnInd : RegField 32
  ctlRxRsfecEnCor : RegField 32
  ctlTxRsfecEnable : RegField 32
  ctlRxRsfecEnable : RegField 32
  usrTxReset : RegField 32
  usrRxReset : RegField 32
  ctlRxEnable_width : ctlRxEnable.width = 1
  ctlTxEnable_width : ctlTxEnable.width = 1
  ctlTxRsfecEnable_width : ctlTxRsfecEnable.width = 1
  ctlRxRsfecEnable_width : ctlRxRsfecEnable.width = 1
  rsfec_disjoint : ctlTxRsfecEnable.Disjoint ctlRxRsfecEnable

structure Regs where
  reset : BitVec 32
  gtLoopback : BitVec 32
  confRx1 : BitVec 32
  confTx1 : BitVec 32
  rsfecConfIndCorrection : BitVec 32
  rsfecConfEnable : BitVec 32

-- The bits are written one after the other, so that the reset ends
def cmacReset (L : Layout) (regs : Regs) : Regs :=
  let regs := { regs with reset := L.usrRxReset.set (L.usrTxReset.set 0 1) 1 }
  { regs with reset := L.usrRxReset.set (L.usrTxReset.set 0 0) 0 }

def loopbackEnable (regs : Regs) : Regs := { regs with gtLoopback := 1 }

def loopbackDisable (regs : Regs) : Regs := { regs with gtLoopback := 0 }

def loopbackIsEnabled (regs : Regs) : Bool := regs.gtLoopback ≠ 0

-- The state of the link that the call answers with is looked at by no caller
def enable (L : Layout) (regs : Regs) : Regs :=
  { regs with confRx1 := L.ctlRxEnable.set 0 1, confTx1 := L.ctlTxEnable.set 0 1 }

def disable (L : Layout) (regs : Regs) : Regs :=
  { regs with confRx1 := L.ctlRxEnable.set 0 0, confTx1 := L.ctlTxEnable.set 0 0 }

def isEnabled (L : Layout) (regs : Regs) : Bool :=
  L.ctlRxEnable.get regs.confRx1 ≠ 0 && L.ctlTxEnable.get regs.confTx1 ≠ 0

def rsfecEnable (L : Layout) (regs : Regs) : Regs :=
  let correction := L.ctlRxRsfecEnCor.set
    (L.ctlRxRsfecEnInd.set (L.ctlRxRsfecIeeeErrIndMode.set 0 1) 1) 1
  let regs := { regs with rsfecConfIndCorrection := correction }
  let regs := { regs with rsfecConfEnable := L.ctlRxRsfecEnable.set (L.ctlTxRsfecEnable.set 0 1) 1 }
  cmacReset L regs

def rsfecDisable (L : Layout) (regs : Regs) : Regs :=
  let correction := L.ctlRxRsfecEnCor.set
    (L.ctlRxRsfecEnInd.set (L.ctlRxRsfecIeeeErrIndMode.set 0 0) 0) 0
  let regs := { regs with rsfecConfIndCorrection := correction }
  { regs with rsfecConfEnable := L.ctlRxRsfecEnable.set (L.ctlTxRsfecEnable.set 0 0) 0 }

def rsfecIsEnabled (L : Layout) (regs : Regs) : Bool :=
  L.ctlRxRsfecEnable.get regs.rsfecConfEnable ≠ 0 && L.ctlTxRsfecEnable.get regs.rsfecConfEnable ≠ 0

section Read

variable (L : Layout) (regs : Regs)

theorem get_set_bit {f : RegField 32} (hwidth : f.width = 1) (v : BitVec 32) {x : BitVec 32}
    (hx : x.toNat < 2)
    : f.get (f.set v x) = x := by
  have hfits : f.Fits x := by
    unfold RegField.Fits
    rw [hwidth]
    exact hx
  rw [RegField.get_set, RegField.and_ones_of_fits hfits]

@[simp]
theorem isEnabled_enable : isEnabled L (enable L regs) = true := by
  unfold isEnabled enable
  rw [get_set_bit L.ctlRxEnable_width 0 (by decide), get_set_bit L.ctlTxEnable_width 0 (by decide)]
  rfl

@[simp]
theorem isEnabled_disable : isEnabled L (disable L regs) = false := by
  unfold isEnabled disable
  rw [get_set_bit L.ctlRxEnable_width 0 (by decide)]
  rfl

@[simp]
theorem rsfecIsEnabled_rsfecEnable : rsfecIsEnabled L (rsfecEnable L regs) = true := by
  unfold rsfecIsEnabled rsfecEnable cmacReset
  rw [get_set_bit L.ctlRxRsfecEnable_width _ (by decide),
    RegField.get_set_of_disjoint L.rsfec_disjoint, get_set_bit L.ctlTxRsfecEnable_width _ (by decide)]
  rfl

@[simp]
theorem rsfecIsEnabled_rsfecDisable : rsfecIsEnabled L (rsfecDisable L regs) = false := by
  unfold rsfecIsEnabled rsfecDisable
  rw [get_set_bit L.ctlRxRsfecEnable_width _ (by decide)]
  rfl

@[simp]
theorem loopbackIsEnabled_loopbackEnable : loopbackIsEnabled (loopbackEnable regs) = true := by
  rfl

@[simp]
theorem loopbackIsEnabled_loopbackDisable : loopbackIsEnabled (loopbackDisable regs) = false := by
  rfl

end Read

end Cmac

namespace FlowControl

inductive FcInterfaceType where
  | UNKNOWN
  | PORT
  | HOST
  deriving DecidableEq, Repr

structure FcInterface where
  type : FcInterfaceType
  index : Nat
  deriving DecidableEq, Repr

def fcNumIntfsPerType : Nat := 2

def fcThresholdUnlimited : BitVec 32 := BitVec.allOnes 32

def fcInterfaceToEgrThresholdTid (intf : FcInterface) : Option Nat :=
  if intf.index ≥ fcNumIntfsPerType then
    none
  else
    match intf.type with
    | .PORT => some intf.index
    | .HOST => some (fcNumIntfsPerType + intf.index)
    | .UNKNOWN => none

def fcGetEgressThreshold (thresholds : List (BitVec 32)) (intf : FcInterface) : Option (BitVec 32) := do
  let tid ← fcInterfaceToEgrThresholdTid intf
  thresholds[tid]?

def fcSetEgressThreshold (thresholds : List (BitVec 32)) (intf : FcInterface) (threshold : BitVec 32)
    : Option (List (BitVec 32)) := do
  let tid ← fcInterfaceToEgrThresholdTid intf
  if tid ≥ thresholds.length then none else some (thresholds.set tid threshold)

section Thresholds

variable {thresholds : List (BitVec 32)} {intf intf' : FcInterface} {tid : Nat}

-- No two interfaces share a threshold
theorem tid_injective (h : fcInterfaceToEgrThresholdTid intf = some tid)
    (h' : fcInterfaceToEgrThresholdTid intf' = some tid)
    : intf = intf' := by
  obtain ⟨type, index⟩ := intf
  obtain ⟨type', index'⟩ := intf'
  unfold fcInterfaceToEgrThresholdTid at h h'
  dsimp only at h h'
  split at h
  . cases h
  . split at h'
    . cases h'
    . cases type <;> cases type' <;> simp_all <;> omega

-- Whether a threshold can be set is known from the interface and the number of them
def FcInterface.Has (intf : FcInterface) (n : Nat) : Prop :=
  ∃ tid < n, fcInterfaceToEgrThresholdTid intf = some tid

theorem fcSetEgressThreshold_of_has (h : intf.Has thresholds.length) (threshold : BitVec 32)
    : ∃ thresholds', fcSetEgressThreshold thresholds intf threshold = some thresholds' ∧
        thresholds'.length = thresholds.length ∧
        fcGetEgressThreshold thresholds' intf = some threshold ∧
        ∀ intf', intf' ≠ intf →
          fcGetEgressThreshold thresholds' intf' = fcGetEgressThreshold thresholds intf' := by
  obtain ⟨tid, hlt, htid⟩ := h
  refine ⟨thresholds.set tid threshold, ?_, List.length_set, ?_, ?_⟩
  . unfold fcSetEgressThreshold
    rw [htid, Option.bind_eq_bind, Option.bind_some, if_neg (by omega)]
  . unfold fcGetEgressThreshold
    rw [htid, Option.bind_eq_bind, Option.bind_some, List.getElem?_set_self hlt]
  . intro intf' hne
    unfold fcGetEgressThreshold
    cases htid' : fcInterfaceToEgrThresholdTid intf' with
    | none => rfl
    | some tid' =>
      rw [Option.bind_eq_bind, Option.bind_some, Option.bind_some, List.getElem?_set_ne]
      rintro rfl
      exact hne (tid_injective htid' htid)

theorem fcSetEgressThreshold_of_not_has (h : ¬ intf.Has thresholds.length) (threshold : BitVec 32)
    : fcSetEgressThreshold thresholds intf threshold = none := by
  unfold fcSetEgressThreshold
  cases htid : fcInterfaceToEgrThresholdTid intf with
  | none => rfl
  | some tid =>
    rw [Option.bind_eq_bind, Option.bind_some, if_pos]
    by_contra hlt
    exact h ⟨tid, by omega, htid⟩

theorem fcGetEgressThreshold_isSome_iff
    : (fcGetEgressThreshold thresholds intf).isSome ↔ intf.Has thresholds.length := by
  unfold fcGetEgressThreshold FcInterface.Has
  cases fcInterfaceToEgrThresholdTid intf with
  | none => simp
  | some tid => simp

-- A threshold that can be set is that of its own interface only
theorem fcGetEgressThreshold_getD_set (thresholds : List (BitVec 32)) (intf intf' : FcInterface)
    (threshold : BitVec 32)
    : fcGetEgressThreshold ((fcSetEgressThreshold thresholds intf' threshold).getD thresholds) intf =
        (fcGetEgressThreshold thresholds intf).map fun old => if intf = intf' then threshold else old := by
  by_cases hhas : intf'.Has thresholds.length
  . obtain ⟨thresholds', hset, _, hget, hother⟩ := fcSetEgressThreshold_of_has hhas threshold
    rw [hset, Option.getD_some]
    by_cases hintf : intf = intf'
    . subst hintf
      obtain ⟨old, hold⟩ := Option.isSome_iff_exists.mp (fcGetEgressThreshold_isSome_iff.mpr hhas)
      simp [hget, hold]
    . simp [hother intf hintf, hintf]
  . rw [fcSetEgressThreshold_of_not_has hhas, Option.getD_none]
    by_cases hintf : intf = intf'
    . subst hintf
      have hnone : fcGetEgressThreshold thresholds intf = none := by
        rw [← Option.not_isSome_iff_eq_none, fcGetEgressThreshold_isSome_iff]
        exact hhas
      rw [hnone, Option.map_none]
    . simp [hintf]

theorem length_getD_set (thresholds : List (BitVec 32)) (intf : FcInterface) (threshold : BitVec 32)
    : ((fcSetEgressThreshold thresholds intf threshold).getD thresholds).length = thresholds.length := by
  by_cases hhas : intf.Has thresholds.length
  . obtain ⟨thresholds', hset, hlen, _⟩ := fcSetEgressThreshold_of_has hhas threshold
    rw [hset, Option.getD_some, hlen]
  . rw [fcSetEgressThreshold_of_not_has hhas, Option.getD_none]

end Thresholds

end FlowControl
