import SmartnicFw.Lib.RegFields
import SmartnicFw.Lib.UpdateEach

/-!
This module contains the switch between the ports, the host and the application (`switch.c`), on the
registers that configure it.
-/

namespace Switch

inductive SwitchInterface where
  | UNKNOWN
  | PHYSICAL
  | TEST
  deriving DecidableEq, Repr

inductive SwitchDestination where
  | UNKNOWN
  | BYPASS
  | DROP
  | APP
  deriving DecidableEq, Repr

inductive SwitchBypassMode where
  | UNKNOWN
  | STRAIGHT
  | SWAP
  deriving DecidableEq, Repr

def numPorts : Nat := 2

-- What the register map generator provides. There is a multiplexer for each interface of each port.
structure Layout where
  muxNum : Nat
  muxValue : RegField 32
  bypass : BitVec 32
  drop : BitVec 32
  app : BitVec 32
  port0 : RegField 32
  port1 : RegField 32
  swapPaths : RegField 32
  muxNum_le : 2 * numPorts ≤ muxNum
  bypass_fits : muxValue.Fits bypass
  drop_fits : muxValue.Fits drop
  app_fits : muxValue.Fits app
  bypass_ne_drop : bypass ≠ drop
  bypass_ne_app : bypass ≠ app
  drop_ne_app : drop ≠ app
  port0_width : port0.width = 1
  port1_width : port1.width = 1
  swapPaths_width : swapPaths.width = 1
  ports_disjoint : port0.Disjoint port1

structure Regs where
  muxOutSel : Nat → BitVec 32
  demuxOutSel : BitVec 32
  bypassConfig : BitVec 32

def Regs.setMux (regs : Regs) (tid : Nat) (mux : BitVec 32) : Regs :=
  { regs with muxOutSel := Function.update regs.muxOutSel tid mux }

def portToMuxTid (index : Nat) (intf : SwitchInterface) : Option Nat :=
  if index ≥ numPorts then
    none
  else
    match intf with
    | .PHYSICAL => some index
    | .TEST => some (numPorts + index)
    | .UNKNOWN => none

def destinationFromMuxSel (L : Layout) (value : BitVec 32) : Option SwitchDestination :=
  if value = L.bypass then
    some .BYPASS
  else if value = L.drop then
    some .DROP
  else if value = L.app then
    some .APP
  else
    none

def destinationToMuxSel (L : Layout) (dest : SwitchDestination) : Option (BitVec 32) :=
  match dest with
  | .BYPASS => some L.bypass
  | .DROP => some L.drop
  | .APP => some L.app
  | .UNKNOWN => none

-- `__switch_get_ingress_selector`
def getIngressMux (L : Layout) (regs : Regs) (index : Nat) (intf : SwitchInterface)
    : Option SwitchDestination := do
  let tid ← portToMuxTid index intf
  if tid ≥ L.muxNum then
    none
  else
    destinationFromMuxSel L (L.muxValue.get (regs.muxOutSel tid))

def getIngressSelector (L : Layout) (regs : Regs) (index : Nat)
    : Option (SwitchInterface × SwitchDestination) := do
  let dest ← getIngressMux L regs index .TEST
  if dest ≠ .DROP then
    some (.TEST, dest)
  else
    let dest ← getIngressMux L regs index .PHYSICAL
    some (.PHYSICAL, dest)

-- `__switch_set_ingress_selector`
def setIngressMux (L : Layout) (regs : Regs) (index : Nat) (intf : SwitchInterface)
    (dest : SwitchDestination)
    : Bool × Regs :=
  match portToMuxTid index intf, destinationToMuxSel L dest with
  | some tid, some value =>
    if tid ≥ L.muxNum then
      (false, regs)
    else
      (true, regs.setMux tid (L.muxValue.set (regs.muxOutSel tid) value))
  | _, _ => (false, regs)

def setIngressSelector (L : Layout) (regs : Regs) (index : Nat) (intf : SwitchInterface)
    (dest : SwitchDestination)
    : Bool × Regs :=
  let psDest := if SwitchInterface.PHYSICAL ≠ intf then .DROP else dest
  let tsDest := if SwitchInterface.TEST ≠ intf then .DROP else dest
  match setIngressMux L regs index .PHYSICAL psDest with
  | (false, regs) => (false, regs)
  | (true, regs) => setIngressMux L regs index .TEST tsDest

def getEgressSelector (L : Layout) (regs : Regs) (index : Nat) : Option SwitchInterface :=
  match index with
  | 0 => some (if L.port0.get regs.demuxOutSel ≠ 0 then .TEST else .PHYSICAL)
  | 1 => some (if L.port1.get regs.demuxOutSel ≠ 0 then .TEST else .PHYSICAL)
  | _ => none

def setEgressSelector (L : Layout) (regs : Regs) (index : Nat) (intf : SwitchInterface)
    : Bool × Regs :=
  let value : Option (BitVec 32) :=
    match intf with
    | .PHYSICAL => some 0
    | .TEST => some 1
    | .UNKNOWN => none
  match value, index with
  | some value, 0 =>
    (true, { regs with demuxOutSel := L.port0.set regs.demuxOutSel value })
  | some value, 1 =>
    (true, { regs with demuxOutSel := L.port1.set regs.demuxOutSel value })
  | _, _ => (false, regs)

def getBypassMode (L : Layout) (regs : Regs) : SwitchBypassMode :=
  if L.swapPaths.get regs.bypassConfig ≠ 0 then .SWAP else .STRAIGHT

def setBypassMode (L : Layout) (regs : Regs) (mode : SwitchBypassMode) : Bool × Regs :=
  match mode with
  | .STRAIGHT => (true, { regs with bypassConfig := L.swapPaths.set regs.bypassConfig 0 })
  | .SWAP => (true, { regs with bypassConfig := L.swapPaths.set regs.bypassConfig 1 })
  | .UNKNOWN => (false, regs)

-- A change that can be made to the switch
inductive Setting where
  | ingress (port : Nat) (intf : SwitchInterface) (dest : SwitchDestination)
  | egress (port : Nat) (intf : SwitchInterface)
  | bypass (mode : SwitchBypassMode)
  deriving DecidableEq, Repr

def Setting.Valid (setting : Setting) : Prop :=
  match setting with
  | .ingress port intf dest => port < numPorts ∧ intf ≠ .UNKNOWN ∧ dest ≠ .UNKNOWN
  | .egress port intf => port < numPorts ∧ intf ≠ .UNKNOWN
  | .bypass mode => mode ≠ .UNKNOWN

def Setting.ingressOf (port : Nat) (setting : Setting)
    : Option (SwitchInterface × SwitchDestination) :=
  match setting with
  | .ingress index intf dest => if index = port then some (intf, dest) else none
  | _ => none

def Setting.egressOf (port : Nat) (setting : Setting) : Option SwitchInterface :=
  match setting with
  | .egress index intf => if index = port then some intf else none
  | _ => none

def Setting.bypassOf (setting : Setting) : Option SwitchBypassMode :=
  match setting with
  | .bypass mode => some mode
  | _ => none

namespace Layout

variable (L : Layout)

def muxSel (dest : SwitchDestination) : BitVec 32 := (destinationToMuxSel L dest).getD 0

-- What the multiplexer of an interface selects when `chosen` is connected to a destination
def inputSel (intf chosen : SwitchInterface) (dest : SwitchDestination) : BitVec 32 :=
  L.muxSel (if chosen = intf then dest else .DROP)

def egressSel (intf : SwitchInterface) : BitVec 32 := if intf = .TEST then 1 else 0

def bypassSel (mode : SwitchBypassMode) : BitVec 32 := if mode = .SWAP then 1 else 0

def demuxPort (port : Nat) : RegField 32 := if port = 0 then L.port0 else L.port1

def setInput (regs : Regs) (tid : Nat) (value : BitVec 32) : Regs :=
  regs.setMux tid (L.muxValue.set (regs.muxOutSel tid) value)

def apply (regs : Regs) (setting : Setting) : Regs :=
  match setting with
  | .ingress port intf dest =>
    let regs := L.setInput regs port (L.inputSel .PHYSICAL intf dest)
    L.setInput regs (numPorts + port) (L.inputSel .TEST intf dest)
  | .egress port intf =>
    { regs with demuxOutSel := (L.demuxPort port).set regs.demuxOutSel (egressSel intf) }
  | .bypass mode =>
    { regs with bypassConfig := L.swapPaths.set regs.bypassConfig (bypassSel mode) }

end Layout

section Driver

variable {L : Layout} {regs : Regs} {index : Nat}

theorem setIngressMux_eq {intf : SwitchInterface} {dest : SwitchDestination} {tid : Nat}
    (htid : portToMuxTid index intf = some tid) (hlt : tid < 2 * numPorts) (hdest : dest ≠ .UNKNOWN)
    : setIngressMux L regs index intf dest = (true, L.setInput regs tid (L.muxSel dest)) := by
  have hnum : ¬ tid ≥ L.muxNum := by
    have hle := L.muxNum_le
    omega
  unfold setIngressMux Layout.muxSel
  rw [htid]
  cases dest with
  | UNKNOWN => contradiction
  | BYPASS | DROP | APP =>
    simp only [destinationToMuxSel, if_neg hnum]
    rfl

theorem setIngressMux_invalid (h : ¬ index < numPorts) (intf : SwitchInterface)
    (dest : SwitchDestination)
    : setIngressMux L regs index intf dest = (false, regs) := by
  unfold setIngressMux portToMuxTid
  rw [if_pos (by omega)]

-- Either both multiplexers of the port are written, or none
theorem setIngressSelector_eq (index : Nat) {intf : SwitchInterface} {dest : SwitchDestination}
    (hintf : intf ≠ .UNKNOWN) (hdest : dest ≠ .UNKNOWN)
    : setIngressSelector L regs index intf dest =
        if index < numPorts then
          (true, L.apply regs (.ingress index intf dest))
        else
          (false, regs) := by
  unfold setIngressSelector
  by_cases hindex : index < numPorts
  . have hps : portToMuxTid index .PHYSICAL = some index := by
      unfold portToMuxTid
      rw [if_neg (by omega)]
    have hts : portToMuxTid index .TEST = some (numPorts + index) := by
      unfold portToMuxTid
      rw [if_neg (by omega)]
    have hpsDest : (if SwitchInterface.PHYSICAL ≠ intf then .DROP else dest) ≠
        SwitchDestination.UNKNOWN := by
      split
      . simp
      . exact hdest
    have htsDest : (if SwitchInterface.TEST ≠ intf then .DROP else dest) ≠
        SwitchDestination.UNKNOWN := by
      split
      . simp
      . exact hdest
    simp only
    rw [setIngressMux_eq hps (by omega) hpsDest, if_pos hindex]
    simp only
    rw [setIngressMux_eq hts (by omega) htsDest]
    unfold Layout.apply Layout.inputSel
    cases intf with
    | UNKNOWN => contradiction
    | PHYSICAL => rfl
    | TEST => rfl
  . simp only
    rw [setIngressMux_invalid hindex, if_neg hindex]

theorem setEgressSelector_eq (index : Nat) {intf : SwitchInterface} (hintf : intf ≠ .UNKNOWN)
    : setEgressSelector L regs index intf =
        if index < numPorts then
          (true, L.apply regs (.egress index intf))
        else
          (false, regs) := by
  unfold setEgressSelector
  match index with
  | 0 => cases intf <;> first | contradiction | rfl
  | 1 => cases intf <;> first | contradiction | rfl
  | index + 2 =>
    have hindex : ¬ index + 2 < numPorts := by
      unfold numPorts
      omega
    rw [if_neg hindex]
    cases intf <;> rfl

theorem setBypassMode_eq {mode : SwitchBypassMode} (hmode : mode ≠ .UNKNOWN)
    : setBypassMode L regs mode = (true, L.apply regs (.bypass mode)) := by
  cases mode with
  | UNKNOWN => contradiction
  | STRAIGHT => rfl
  | SWAP => rfl

end Driver

section Views

variable {L : Layout} {regs : Regs} {setting : Setting} {port : Nat}

theorem Layout.muxSel_fits (dest : SwitchDestination) : L.muxValue.Fits (L.muxSel dest) := by
  cases dest with
  | UNKNOWN => exact Nat.two_pow_pos _
  | BYPASS => exact L.bypass_fits
  | DROP => exact L.drop_fits
  | APP => exact L.app_fits

theorem destinationFromMuxSel_muxSel {dest : SwitchDestination} (h : dest ≠ .UNKNOWN)
    : destinationFromMuxSel L (L.muxSel dest) = some dest := by
  unfold destinationFromMuxSel Layout.muxSel destinationToMuxSel
  cases dest with
  | UNKNOWN => contradiction
  | BYPASS => simp
  | DROP => simp [L.bypass_ne_drop.symm]
  | APP => simp [L.bypass_ne_app.symm, L.drop_ne_app.symm]

theorem Layout.muxValue_get_setInput (tid : Nat) (dest : SwitchDestination) (tid' : Nat)
    : L.muxValue.get ((L.setInput regs tid (L.muxSel dest)).muxOutSel tid') =
        if tid' = tid then L.muxSel dest else L.muxValue.get (regs.muxOutSel tid') := by
  unfold setInput Regs.setMux
  by_cases htid : tid' = tid
  . subst htid
    rw [if_pos rfl]
    simp only [Function.update_self]
    rw [RegField.get_set, RegField.and_ones_of_fits (muxSel_fits dest)]
  . rw [if_neg htid]
    simp only [Function.update_of_ne htid]

theorem Layout.get_physical_apply (hvalid : setting.Valid) (hport : port < numPorts)
    : L.muxValue.get ((L.apply regs setting).muxOutSel port) =
        ((setting.ingressOf port).map fun s => L.inputSel .PHYSICAL s.1 s.2).getD
          (L.muxValue.get (regs.muxOutSel port)) := by
  cases setting with
  | ingress index intf dest =>
    have hne : port ≠ numPorts + index := by omega
    unfold apply inputSel Setting.ingressOf
    simp only
    rw [muxValue_get_setInput, if_neg hne, muxValue_get_setInput]
    by_cases hindex : index = port
    . rw [if_pos hindex.symm, if_pos hindex]
      rfl
    . rw [if_neg (Ne.symm hindex), if_neg hindex]
      rfl
  | egress => rfl
  | bypass => rfl

theorem Layout.get_test_apply (hvalid : setting.Valid) (port : Nat)
    : L.muxValue.get ((L.apply regs setting).muxOutSel (numPorts + port)) =
        ((setting.ingressOf port).map fun s => L.inputSel .TEST s.1 s.2).getD
          (L.muxValue.get (regs.muxOutSel (numPorts + port))) := by
  cases setting with
  | ingress index intf dest =>
    have hlt : index < numPorts := hvalid.1
    have hne : numPorts + port ≠ index := by omega
    unfold apply inputSel Setting.ingressOf
    simp only
    rw [muxValue_get_setInput, muxValue_get_setInput, if_neg hne]
    by_cases hindex : index = port
    . rw [if_pos (by omega), if_pos hindex]
      rfl
    . rw [if_neg (by omega), if_neg hindex]
      rfl
  | egress => rfl
  | bypass => rfl

theorem Layout.demuxPort_width (port : Nat) : (L.demuxPort port).width = 1 := by
  unfold demuxPort
  split
  . exact L.port0_width
  . exact L.port1_width

theorem Layout.egressSel_fits (intf : SwitchInterface)
    : (L.demuxPort port).Fits (egressSel intf) := by
  unfold RegField.Fits
  rw [demuxPort_width]
  unfold egressSel
  split <;> decide

theorem Layout.bypassSel_fits (mode : SwitchBypassMode) : L.swapPaths.Fits (bypassSel mode) := by
  unfold RegField.Fits
  rw [L.swapPaths_width]
  unfold bypassSel
  split <;> decide

theorem Layout.demuxPort_disjoint {index : Nat} (hindex : index < numPorts)
    (hport : port < numPorts) (hne : port ≠ index)
    : (L.demuxPort port).Disjoint (L.demuxPort index) := by
  unfold numPorts at hindex hport
  unfold demuxPort
  by_cases hzero : port = 0
  . rw [if_pos hzero, if_neg (by omega)]
    exact L.ports_disjoint
  . rw [if_neg hzero, if_pos (by omega)]
    exact L.ports_disjoint.symm

theorem Layout.get_demuxPort_apply (hvalid : setting.Valid) (hport : port < numPorts)
    : (L.demuxPort port).get (L.apply regs setting).demuxOutSel =
        ((setting.egressOf port).map egressSel).getD
          ((L.demuxPort port).get regs.demuxOutSel) := by
  cases setting with
  | ingress => rfl
  | egress index intf =>
    unfold apply Setting.egressOf
    simp only
    by_cases hindex : index = port
    . subst hindex
      rw [RegField.get_set, RegField.and_ones_of_fits (egressSel_fits intf), if_pos rfl]
      rfl
    . rw [if_neg hindex]
      exact RegField.get_set_of_disjoint
        (demuxPort_disjoint hvalid.1 hport (Ne.symm hindex)) _ _
  | bypass => rfl

theorem Layout.get_swapPaths_apply
    : L.swapPaths.get (L.apply regs setting).bypassConfig =
        (setting.bypassOf.map bypassSel).getD (L.swapPaths.get regs.bypassConfig) := by
  cases setting with
  | ingress => rfl
  | egress => rfl
  | bypass mode =>
    unfold apply Setting.bypassOf
    simp only
    rw [RegField.get_set, RegField.and_ones_of_fits (bypassSel_fits mode)]
    rfl

end Views

namespace Layout

variable (L : Layout)

-- The bits that belong to what the settings set
def SetsMux (settings : List Setting) (tid i : Nat) : Prop :=
  L.muxValue.Holds i ∧ ∃ port < numPorts, (tid = port ∨ tid = numPorts + port) ∧
    lastSome (Setting.ingressOf port) settings ≠ none

def SetsDemux (settings : List Setting) (i : Nat) : Prop :=
  ∃ port < numPorts, (L.demuxPort port).Holds i ∧
    lastSome (Setting.egressOf port) settings ≠ none

def SetsBypass (settings : List Setting) (i : Nat) : Prop :=
  L.swapPaths.Holds i ∧ lastSome Setting.bypassOf settings ≠ none

-- The registers hold the last setting of each kind for each port, and all else as it was
structure Reflects (initial regs : Regs) (settings : List Setting) : Prop where
  physical : ∀ port < numPorts, L.muxValue.get (regs.muxOutSel port) =
    ((lastSome (Setting.ingressOf port) settings).map fun s => L.inputSel .PHYSICAL s.1 s.2).getD
      (L.muxValue.get (initial.muxOutSel port))
  test : ∀ port < numPorts, L.muxValue.get (regs.muxOutSel (numPorts + port)) =
    ((lastSome (Setting.ingressOf port) settings).map fun s => L.inputSel .TEST s.1 s.2).getD
      (L.muxValue.get (initial.muxOutSel (numPorts + port)))
  egress : ∀ port < numPorts, (L.demuxPort port).get regs.demuxOutSel =
    ((lastSome (Setting.egressOf port) settings).map egressSel).getD
      ((L.demuxPort port).get initial.demuxOutSel)
  bypass : L.swapPaths.get regs.bypassConfig =
    ((lastSome Setting.bypassOf settings).map bypassSel).getD
      (L.swapPaths.get initial.bypassConfig)
  mux_unset : ∀ tid i, ¬ L.SetsMux settings tid i →
    (regs.muxOutSel tid).getLsbD i = (initial.muxOutSel tid).getLsbD i
  demux_unset : ∀ i, ¬ L.SetsDemux settings i →
    regs.demuxOutSel.getLsbD i = initial.demuxOutSel.getLsbD i
  bypass_unset : ∀ i, ¬ L.SetsBypass settings i →
    regs.bypassConfig.getLsbD i = initial.bypassConfig.getLsbD i

variable {L : Layout} {regs : Regs}

theorem getLsbD_setInput_of_not_holds {i : Nat} (h : ¬ L.muxValue.Holds i) (tid : Nat)
    (value : BitVec 32) (tid' : Nat)
    : ((L.setInput regs tid value).muxOutSel tid').getLsbD i = (regs.muxOutSel tid').getLsbD i := by
  unfold setInput Regs.setMux
  by_cases htid : tid' = tid
  . subst htid
    simp only [Function.update_self]
    rw [RegField.getLsbD_set, if_neg h]
  . simp only [Function.update_of_ne htid]

theorem setInput_muxOutSel_of_ne {tid tid' : Nat} (h : tid' ≠ tid) (value : BitVec 32)
    : (L.setInput regs tid value).muxOutSel tid' = regs.muxOutSel tid' := by
  unfold setInput Regs.setMux
  simp only [Function.update_of_ne h]

theorem mux_apply_of_unset {settings : List Setting} {tid i : Nat}
    (h : ¬ L.SetsMux settings tid i) {setting : Setting} (hmem : setting ∈ settings)
    (hvalid : setting.Valid)
    : ((L.apply regs setting).muxOutSel tid).getLsbD i = (regs.muxOutSel tid).getLsbD i := by
  cases setting with
  | ingress index intf dest =>
    unfold apply
    simp only
    by_cases hholds : L.muxValue.Holds i
    . have hset : lastSome (Setting.ingressOf index) settings ≠ none := by
        intro hnone
        have hof := lastSome_eq_none_iff.mp hnone _ hmem
        simp [Setting.ingressOf] at hof
      have hne : ¬ (tid = index ∨ tid = numPorts + index) := by
        intro htid
        exact h ⟨hholds, index, hvalid.1, htid, hset⟩
      rw [setInput_muxOutSel_of_ne (by omega), setInput_muxOutSel_of_ne (by omega)]
    . rw [getLsbD_setInput_of_not_holds hholds, getLsbD_setInput_of_not_holds hholds]
  | egress => rfl
  | bypass => rfl

theorem demux_apply_of_unset {settings : List Setting} {i : Nat} (h : ¬ L.SetsDemux settings i)
    {setting : Setting} (hmem : setting ∈ settings) (hvalid : setting.Valid)
    : (L.apply regs setting).demuxOutSel.getLsbD i = regs.demuxOutSel.getLsbD i := by
  cases setting with
  | ingress => rfl
  | egress index intf =>
    have hset : lastSome (Setting.egressOf index) settings ≠ none := by
      intro hnone
      have hof := lastSome_eq_none_iff.mp hnone _ hmem
      simp [Setting.egressOf] at hof
    have hnot : ¬ (L.demuxPort index).Holds i := by
      intro hholds
      exact h ⟨index, hvalid.1, hholds, hset⟩
    unfold apply
    simp only
    rw [RegField.getLsbD_set, if_neg hnot]
  | bypass => rfl

theorem bypass_apply_of_unset {settings : List Setting} {i : Nat} (h : ¬ L.SetsBypass settings i)
    {setting : Setting} (hmem : setting ∈ settings)
    : (L.apply regs setting).bypassConfig.getLsbD i = regs.bypassConfig.getLsbD i := by
  cases setting with
  | ingress => rfl
  | egress => rfl
  | bypass mode =>
    have hset : lastSome Setting.bypassOf settings ≠ none := by
      intro hnone
      have hof := lastSome_eq_none_iff.mp hnone _ hmem
      simp [Setting.bypassOf] at hof
    have hnot : ¬ L.swapPaths.Holds i := by
      intro hholds
      exact h ⟨hholds, hset⟩
    unfold apply
    simp only
    rw [RegField.getLsbD_set, if_neg hnot]

theorem reflects_foldl {settings : List Setting} (hvalid : ∀ s ∈ settings, s.Valid) (initial : Regs)
    : L.Reflects initial (settings.foldl L.apply initial) settings := by
  constructor
  . intro port hport
    rw [← lastSome_map]
    apply get_foldl_lastSome L.apply (fun (regs : Regs) => L.muxValue.get (regs.muxOutSel port))
    intro regs s hmem
    exact get_physical_apply (hvalid s hmem) hport
  . intro port hport
    rw [← lastSome_map]
    apply get_foldl_lastSome L.apply (fun (regs : Regs) => L.muxValue.get (regs.muxOutSel (numPorts + port)))
    intro regs s hmem
    exact get_test_apply (hvalid s hmem) port
  . intro port hport
    rw [← lastSome_map]
    apply get_foldl_lastSome L.apply (fun (regs : Regs) => (L.demuxPort port).get regs.demuxOutSel)
    intro regs s hmem
    exact get_demuxPort_apply (hvalid s hmem) hport
  . rw [← lastSome_map]
    apply get_foldl_lastSome L.apply (fun (regs : Regs) => L.swapPaths.get regs.bypassConfig)
    intro regs s hmem
    exact get_swapPaths_apply
  . intro tid i hunset
    apply get_foldl_of_keeps L.apply (fun (regs : Regs) => (regs.muxOutSel tid).getLsbD i)
    intro regs s hmem
    exact mux_apply_of_unset hunset hmem (hvalid s hmem)
  . intro i hunset
    apply get_foldl_of_keeps L.apply (fun (regs : Regs) => regs.demuxOutSel.getLsbD i)
    intro regs s hmem
    exact demux_apply_of_unset hunset hmem (hvalid s hmem)
  . intro i hunset
    apply get_foldl_of_keeps L.apply (fun (regs : Regs) => regs.bypassConfig.getLsbD i)
    intro regs s hmem
    exact bypass_apply_of_unset hunset hmem

end Layout

section Reading

variable (L : Layout) (initial : Regs) (settings : List Setting) (port : Nat)

-- What is read back of a port after the settings
def readIngress : Option (SwitchInterface × SwitchDestination) :=
  match lastSome (Setting.ingressOf port) settings with
  | some (_, .DROP) => some (.PHYSICAL, .DROP)
  | some (intf, dest) => some (intf, dest)
  | none => getIngressSelector L initial port

def readEgress : Option SwitchInterface :=
  (lastSome (Setting.egressOf port) settings).or (getEgressSelector L initial port)

def readBypass : SwitchBypassMode :=
  (lastSome Setting.bypassOf settings).getD (getBypassMode L initial)

variable {L initial settings port} {regs : Regs}

theorem ingressOf_valid {settings : List Setting} (hvalid : ∀ s ∈ settings, s.Valid)
    {intf : SwitchInterface} {dest : SwitchDestination}
    (h : lastSome (Setting.ingressOf port) settings = some (intf, dest))
    : intf ≠ .UNKNOWN ∧ dest ≠ .UNKNOWN := by
  obtain ⟨s, hmem, hs⟩ := lastSome_mem h
  have hs' := hvalid s hmem
  cases s with
  | ingress index intf' dest' =>
    simp only [Setting.ingressOf, Option.ite_none_right_eq_some, Option.some.injEq,
      Prod.mk.injEq] at hs
    obtain ⟨_, rfl, rfl⟩ := hs
    exact hs'.2
  | egress => cases hs
  | bypass => cases hs

theorem egressOf_valid {settings : List Setting} (hvalid : ∀ s ∈ settings, s.Valid)
    {intf : SwitchInterface} (h : lastSome (Setting.egressOf port) settings = some intf)
    : intf ≠ .UNKNOWN := by
  obtain ⟨s, hmem, hs⟩ := lastSome_mem h
  have hs' := hvalid s hmem
  cases s with
  | ingress => cases hs
  | egress index intf' =>
    simp only [Setting.egressOf, Option.ite_none_right_eq_some, Option.some.injEq] at hs
    obtain ⟨_, rfl⟩ := hs
    exact hs'.2
  | bypass => cases hs

theorem bypassOf_valid {settings : List Setting} (hvalid : ∀ s ∈ settings, s.Valid)
    {mode : SwitchBypassMode} (h : lastSome Setting.bypassOf settings = some mode)
    : mode ≠ .UNKNOWN := by
  obtain ⟨s, hmem, hs⟩ := lastSome_mem h
  have hs' := hvalid s hmem
  cases s with
  | ingress => cases hs
  | egress => cases hs
  | bypass mode' =>
    cases hs
    exact hs'

theorem getIngressMux_physical (hport : port < numPorts)
    : getIngressMux L regs port .PHYSICAL =
        destinationFromMuxSel L (L.muxValue.get (regs.muxOutSel port)) := by
  have hle := L.muxNum_le
  unfold getIngressMux portToMuxTid
  rw [if_neg (by omega)]
  simp only [Option.bind_eq_bind, Option.bind_some]
  rw [if_neg (by omega)]

theorem getIngressMux_test (hport : port < numPorts)
    : getIngressMux L regs port .TEST =
        destinationFromMuxSel L (L.muxValue.get (regs.muxOutSel (numPorts + port))) := by
  have hle := L.muxNum_le
  unfold getIngressMux portToMuxTid
  rw [if_neg (by omega)]
  simp only [Option.bind_eq_bind, Option.bind_some]
  rw [if_neg (by omega)]

theorem Layout.Reflects.getIngressSelector (h : L.Reflects initial regs settings)
    (hvalid : ∀ s ∈ settings, s.Valid) (hport : port < numPorts)
    : getIngressSelector L regs port = readIngress L initial settings port := by
  have hphysical := h.physical port hport
  have htest := h.test port hport
  unfold readIngress Switch.getIngressSelector
  rw [getIngressMux_physical hport, getIngressMux_test hport, hphysical, htest]
  cases hlast : lastSome (Setting.ingressOf port) settings with
  | none => rw [getIngressMux_physical hport, getIngressMux_test hport]; rfl
  | some last =>
    obtain ⟨intf, dest⟩ := last
    obtain ⟨hintf, hdest⟩ := ingressOf_valid hvalid hlast
    simp only [Option.map_some, Option.getD_some, Layout.inputSel]
    have hdrop : SwitchDestination.DROP ≠ .UNKNOWN := by decide
    cases intf with
    | UNKNOWN => contradiction
    | PHYSICAL =>
      rw [if_neg (by decide), if_pos rfl, destinationFromMuxSel_muxSel hdrop,
        destinationFromMuxSel_muxSel hdest]
      cases dest <;> rfl
    | TEST =>
      rw [if_pos rfl, if_neg (by decide), destinationFromMuxSel_muxSel hdrop,
        destinationFromMuxSel_muxSel hdest]
      cases dest with
      | UNKNOWN => contradiction
      | BYPASS => rfl
      | DROP => rfl
      | APP => rfl

theorem getEgressSelector_eq (hport : port < numPorts)
    : getEgressSelector L regs port =
        some (if (L.demuxPort port).get regs.demuxOutSel ≠ 0 then .TEST else .PHYSICAL) := by
  match port with
  | 0 => rfl
  | 1 => rfl
  | port + 2 =>
    unfold numPorts at hport
    omega

theorem Layout.Reflects.getEgressSelector (h : L.Reflects initial regs settings)
    (hvalid : ∀ s ∈ settings, s.Valid) (hport : port < numPorts)
    : getEgressSelector L regs port = readEgress L initial settings port := by
  unfold readEgress
  rw [getEgressSelector_eq hport, getEgressSelector_eq hport, h.egress port hport]
  cases hlast : lastSome (Setting.egressOf port) settings with
  | none => rfl
  | some intf =>
    have hintf := egressOf_valid hvalid hlast
    cases intf with
    | UNKNOWN => contradiction
    | PHYSICAL => rfl
    | TEST => rfl

theorem Layout.Reflects.getBypassMode (h : L.Reflects initial regs settings)
    (hvalid : ∀ s ∈ settings, s.Valid)
    : getBypassMode L regs = readBypass L initial settings := by
  unfold readBypass Switch.getBypassMode
  rw [h.bypass]
  cases hlast : lastSome Setting.bypassOf settings with
  | none => rfl
  | some mode =>
    have hmode := bypassOf_valid hvalid hlast
    cases mode with
    | UNKNOWN => contradiction
    | STRAIGHT => rfl
    | SWAP => rfl

-- An ingress is set for one of the interfaces, and the other one is dropped
theorem Layout.Reflects.exclusive (h : L.Reflects initial regs settings) (hport : port < numPorts)
    (hset : lastSome (Setting.ingressOf port) settings ≠ none)
    : getIngressMux L regs port .PHYSICAL = some .DROP ∨
        getIngressMux L regs port .TEST = some .DROP := by
  obtain ⟨⟨intf, dest⟩, hlast⟩ := Option.ne_none_iff_exists'.mp hset
  have hdrop : SwitchDestination.DROP ≠ .UNKNOWN := by decide
  rw [getIngressMux_physical hport, getIngressMux_test hport, h.physical port hport,
    h.test port hport, hlast]
  simp only [Option.map_some, Option.getD_some, Layout.inputSel]
  by_cases hintf : intf = .PHYSICAL
  . right
    rw [if_neg (by rw [hintf]; decide), destinationFromMuxSel_muxSel hdrop]
  . left
    rw [if_neg hintf, destinationFromMuxSel_muxSel hdrop]

end Reading

section Defaults

-- The whole register of each multiplexer is written
def dropAll (L : Layout) (regs : Regs) : Regs :=
  (List.range L.muxNum).foldl (fun regs tid => regs.setMux tid L.drop) regs

def setDefaultsOneToOne (L : Layout) (regs : Regs) : Regs :=
  let regs := dropAll L regs
  let regs := (List.range numPorts).foldl
    (fun regs index => (setIngressSelector L regs index .PHYSICAL .APP).2) regs
  let regs := (List.range numPorts).foldl
    (fun regs index => (setEgressSelector L regs index .PHYSICAL).2) regs
  (setBypassMode L regs .STRAIGHT).2

def defaultSettings : List Setting :=
  (List.range numPorts).map (fun port => .ingress port .PHYSICAL .APP) ++
    (List.range numPorts).map (fun port => .egress port .PHYSICAL) ++ [.bypass .STRAIGHT]

variable {L : Layout} {port : Nat}

theorem defaultSettings_valid : ∀ s ∈ defaultSettings, s.Valid := by
  have hlist : defaultSettings = [.ingress 0 .PHYSICAL .APP, .ingress 1 .PHYSICAL .APP,
      .egress 0 .PHYSICAL, .egress 1 .PHYSICAL, .bypass .STRAIGHT] := rfl
  intro s hmem
  rw [hlist] at hmem
  simp only [List.mem_cons, List.not_mem_nil, or_false] at hmem
  rcases hmem with rfl | rfl | rfl | rfl | rfl <;> simp [Setting.Valid, numPorts]

theorem setDefaultsOneToOne_eq (regs : Regs)
    : setDefaultsOneToOne L regs = defaultSettings.foldl L.apply (dropAll L regs) := by
  unfold setDefaultsOneToOne defaultSettings
  rw [List.foldl_append, List.foldl_append, List.foldl_map, List.foldl_map]
  simp only [List.foldl_cons, List.foldl_nil]
  rw [setBypassMode_eq (by decide)]
  dsimp only
  congr 1
  have hegress (regs : Regs)
      : (List.range numPorts).foldl (fun regs index => (setEgressSelector L regs index .PHYSICAL).2) regs =
          (List.range numPorts).foldl (fun regs index => L.apply regs (.egress index .PHYSICAL)) regs := by
    apply List.foldl_ext
    intro regs index hmem
    rw [setEgressSelector_eq index (by decide), if_pos (List.mem_range.mp hmem)]
  have hingress (regs : Regs)
      : (List.range numPorts).foldl
            (fun regs index => (setIngressSelector L regs index .PHYSICAL .APP).2) regs =
          (List.range numPorts).foldl (fun regs index => L.apply regs (.ingress index .PHYSICAL .APP)) regs := by
    apply List.foldl_ext
    intro regs index hmem
    rw [setIngressSelector_eq index (by decide) (by decide), if_pos (List.mem_range.mp hmem)]
  rw [hegress, hingress]

theorem setDefaultsOneToOne_reflects (regs : Regs)
    : L.Reflects (dropAll L regs) (setDefaultsOneToOne L regs) defaultSettings := by
  rw [setDefaultsOneToOne_eq]
  exact Layout.reflects_foldl defaultSettings_valid _

theorem ingressOf_defaultSettings (hport : port < numPorts)
    : lastSome (Setting.ingressOf port) defaultSettings = some (.PHYSICAL, .APP) := by
  match port with
  | 0 => rfl
  | 1 => rfl
  | port + 2 =>
    unfold numPorts at hport
    omega

theorem egressOf_defaultSettings (hport : port < numPorts)
    : lastSome (Setting.egressOf port) defaultSettings = some .PHYSICAL := by
  match port with
  | 0 => rfl
  | 1 => rfl
  | port + 2 =>
    unfold numPorts at hport
    omega

end Defaults

end Switch
