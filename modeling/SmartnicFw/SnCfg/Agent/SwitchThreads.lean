import SmartnicFw.Lib.SharedUpdates
import SmartnicFw.SnCfg.Agent.SwitchRuns

/-!
This module contains requests that set the configuration of the switch from several threads at once
(`switch.cpp`): each of them reads and writes one register after the other, without a lock.
-/

namespace SnCfg.SwitchAgent

open Switch (Layout Regs Setting numPorts portToMuxTid destinationToMuxSel)
open SharedUpdates (Semantics Completed Fresh Serial start step)
open Accepted (accepted accepted_append_of_mem accepted_append_of_not_mem mem_of_mem_accepted)

inductive Reg where
  | muxOutSel (tid : Nat)
  | demuxOutSel
  | bypassConfig
  deriving DecidableEq, Repr

-- The registers of a device
def regsAt (mem : Nat × Reg → BitVec 32) (devId : Nat) : Regs :=
  { muxOutSel := fun tid => mem (devId, .muxOutSel tid)
    demuxOutSel := mem (devId, .demuxOutSel)
    bypassConfig := mem (devId, .bypassConfig) }

-- A field of a register of a device that is set to a value
inductive RegUpdate where
  | mux (devId tid : Nat) (value : BitVec 32)
  | demux (devId port : Nat) (value : BitVec 32)
  | bypass (devId : Nat) (value : BitVec 32)
  deriving DecidableEq, Repr

def RegUpdate.loc (u : RegUpdate) : Nat × Reg :=
  match u with
  | .mux devId tid _ => (devId, .muxOutSel tid)
  | .demux devId _ _ => (devId, .demuxOutSel)
  | .bypass devId _ => (devId, .bypassConfig)

def RegUpdate.field (L : Layout) (u : RegUpdate) : RegField 32 :=
  match u with
  | .mux _ _ _ => L.muxValue
  | .demux _ port _ => L.demuxPort port
  | .bypass _ _ => L.swapPaths

def RegUpdate.value (u : RegUpdate) : BitVec 32 :=
  match u with
  | .mux _ _ value => value
  | .demux _ _ value => value
  | .bypass _ value => value

-- The word that has been read is written back with the field changed
def regSemantics (L : Layout) : Semantics RegUpdate (Nat × Reg) (BitVec 32) where
  loc := RegUpdate.loc
  write u held _ := (u.field L).set held u.value
  fallible := false

-- `__switch_set_ingress_selector`
def ingressMuxUpdate (L : Layout) (devId index : Nat) (intf : Switch.SwitchInterface)
    (dest : Switch.SwitchDestination)
    : Option RegUpdate :=
  match portToMuxTid index intf, destinationToMuxSel L dest with
  | some tid, some value => if tid ≥ L.muxNum then none else some (.mux devId tid value)
  | _, _ => none

-- The updates that are made, and whether all of them could be
def ingressUpdates (L : Layout) (devId index : Nat) (intf : Switch.SwitchInterface)
    (dest : Switch.SwitchDestination)
    : Bool × List RegUpdate :=
  let psDest := if Switch.SwitchInterface.PHYSICAL ≠ intf then .DROP else dest
  let tsDest := if Switch.SwitchInterface.TEST ≠ intf then .DROP else dest
  match ingressMuxUpdate L devId index .PHYSICAL psDest with
  | none => (false, [])
  | some u =>
    match ingressMuxUpdate L devId index .TEST tsDest with
    | none => (false, [u])
    | some u' => (true, [u, u'])

-- For a port that there is not the register is read and left as it is
def egressUpdate (devId index : Nat) (intf : Switch.SwitchInterface) : Option RegUpdate :=
  let value : Option (BitVec 32) :=
    match intf with
    | .PHYSICAL => some 0
    | .TEST => some 1
    | .UNKNOWN => none
  match value, index with
  | some value, 0 => some (.demux devId 0 value)
  | some value, 1 => some (.demux devId 1 value)
  | _, _ => none

def bypassUpdate (devId : Nat) (mode : Switch.SwitchBypassMode) : Option RegUpdate :=
  match mode with
  | .STRAIGHT => some (.bypass devId 0)
  | .SWAP => some (.bypass devId 1)
  | .UNKNOWN => none

def ingressProgram (L : Layout) (devId : Nat) (sels : List SwitchIngressSelector)
    : ErrorCode × List RegUpdate :=
  match sels with
  | [] => (.EC_OK, [])
  | sel :: sels =>
    match convertToDriverInterface sel.intf, convertToDriverDestination sel.dest with
    | none, _ => (.EC_UNSUPPORTED_IGR_SEL_INTF, [])
    | some _, none => (.EC_UNSUPPORTED_IGR_SEL_DEST, [])
    | some intf, some dest =>
      match ingressUpdates L devId sel.index intf dest with
      | (false, us) => (.EC_FAILED_SET_IGR_SEL, us)
      | (true, us) =>
        let program := ingressProgram L devId sels
        (program.1, us ++ program.2)

def egressProgram (devId : Nat) (sels : List SwitchEgressSelector) : ErrorCode × List RegUpdate :=
  match sels with
  | [] => (.EC_OK, [])
  | sel :: sels =>
    match convertToDriverInterface sel.intf with
    | none => (.EC_UNSUPPORTED_EGR_SEL_INTF, [])
    | some intf =>
      match egressUpdate devId sel.index intf with
      | none => (.EC_FAILED_SET_EGR_SEL, [])
      | some u =>
        let program := egressProgram devId sels
        (program.1, u :: program.2)

def bypassProgram (devId : Nat) (mode : SwitchBypassMode) : ErrorCode × List RegUpdate :=
  if mode ≠ .SW_BYPASS_UNKNOWN then
    match convertToDriverBypassMode mode with
    | none => (.EC_UNSUPPORTED_BYPASS_MODE, [])
    | some mode =>
      match bypassUpdate devId mode with
      | none => (.EC_FAILED_SET_BYPASS_MODE, [])
      | some u => (.EC_OK, [u])
  else
    (.EC_OK, [])

-- A program that goes on unless it has failed
def andThen (program next : ErrorCode × List RegUpdate) : ErrorCode × List RegUpdate :=
  match program with
  | (.EC_OK, us) => (next.1, us ++ next.2)
  | (err, us) => (err, us)

-- What a request reads and writes of one device, and the answer
def deviceProgram (L : Layout) (config : SwitchConfig) (devId : Nat) : ErrorCode × List RegUpdate :=
  andThen (ingressProgram L devId config.ingressSelectors)
    (andThen (egressProgram devId config.egressSelectors) (bypassProgram devId config.bypassMode))

-- One device after the other, whatever the answers
def requestProgram (L : Layout) (n : Nat) (req : SwitchConfigRequest)
    : List ErrorCode × List RegUpdate :=
  if req.devId > (n : Int) - 1 then
    ([.EC_INVALID_DEVICE_ID], [])
  else
    match req.config with
    | none => ([.EC_MISSING_SWITCH_CONFIG], [])
    | some config =>
      let programs := (selectDevices req.devId n).map (deviceProgram L config)
      (programs.map Prod.fst, programs.flatMap Prod.snd)

-- The updates that a setting is made of
def settingUpdates (L : Layout) (devId : Nat) (setting : Setting) : List RegUpdate :=
  match setting with
  | .ingress port intf dest =>
    [.mux devId port (L.inputSel .PHYSICAL intf dest),
      .mux devId (numPorts + port) (L.inputSel .TEST intf dest)]
  | .egress port intf => [.demux devId port (Layout.egressSel intf)]
  | .bypass mode => [.bypass devId (Layout.bypassSel mode)]

section Updates

variable {L : Layout} {devId : Nat}

theorem ingressMuxUpdate_eq {index : Nat} {intf : Switch.SwitchInterface}
    {dest : Switch.SwitchDestination} {tid : Nat} (htid : portToMuxTid index intf = some tid)
    (hlt : tid < 2 * numPorts) (hdest : dest ≠ .UNKNOWN)
    : ingressMuxUpdate L devId index intf dest = some (.mux devId tid (L.muxSel dest)) := by
  have hnum : ¬ tid ≥ L.muxNum := by
    have hle := L.muxNum_le
    omega
  unfold ingressMuxUpdate Layout.muxSel
  rw [htid]
  cases dest with
  | UNKNOWN => contradiction
  | BYPASS | DROP | APP =>
    simp only [destinationToMuxSel, if_neg hnum]
    rfl

theorem ingressMuxUpdate_invalid {index : Nat} (h : ¬ index < numPorts)
    (intf : Switch.SwitchInterface) (dest : Switch.SwitchDestination)
    : ingressMuxUpdate L devId index intf dest = none := by
  unfold ingressMuxUpdate portToMuxTid
  rw [if_pos (by omega)]

theorem ingressUpdates_eq (index : Nat) {intf : Switch.SwitchInterface}
    {dest : Switch.SwitchDestination} (hintf : intf ≠ .UNKNOWN) (hdest : dest ≠ .UNKNOWN)
    : ingressUpdates L devId index intf dest =
        if index < numPorts then
          (true, settingUpdates L devId (.ingress index intf dest))
        else
          (false, []) := by
  unfold ingressUpdates
  by_cases hindex : index < numPorts
  . have hps : portToMuxTid index .PHYSICAL = some index := by
      unfold portToMuxTid
      rw [if_neg (by omega)]
    have hts : portToMuxTid index .TEST = some (numPorts + index) := by
      unfold portToMuxTid
      rw [if_neg (by omega)]
    have hpsDest : (if Switch.SwitchInterface.PHYSICAL ≠ intf then .DROP else dest) ≠
        Switch.SwitchDestination.UNKNOWN := by
      split
      . simp
      . exact hdest
    have htsDest : (if Switch.SwitchInterface.TEST ≠ intf then .DROP else dest) ≠
        Switch.SwitchDestination.UNKNOWN := by
      split
      . simp
      . exact hdest
    simp only
    rw [ingressMuxUpdate_eq hps (by omega) hpsDest, if_pos hindex]
    simp only
    rw [ingressMuxUpdate_eq hts (by omega) htsDest]
    unfold settingUpdates Layout.inputSel
    cases intf with
    | UNKNOWN => contradiction
    | PHYSICAL => rfl
    | TEST => rfl
  . simp only
    rw [ingressMuxUpdate_invalid hindex, if_neg hindex]

theorem egressUpdate_eq (index : Nat) {intf : Switch.SwitchInterface} (hintf : intf ≠ .UNKNOWN)
    : egressUpdate devId index intf =
        if index < numPorts then
          some (.demux devId index (Layout.egressSel intf))
        else
          none := by
  unfold egressUpdate
  match index with
  | 0 => cases intf <;> first | contradiction | rfl
  | 1 => cases intf <;> first | contradiction | rfl
  | index + 2 =>
    have hindex : ¬ index + 2 < numPorts := by
      unfold numPorts
      omega
    rw [if_neg hindex]
    cases intf <;> rfl

theorem bypassUpdate_eq {mode : Switch.SwitchBypassMode} (hmode : mode ≠ .UNKNOWN)
    : bypassUpdate devId mode = some (.bypass devId (Layout.bypassSel mode)) := by
  cases mode with
  | UNKNOWN => contradiction
  | STRAIGHT => rfl
  | SWAP => rfl

end Updates

-- The updates of a part of the handler are those of the settings that it makes, and it answers alike
structure Programs (L : Layout) (devId : Nat) (program : ErrorCode × List RegUpdate)
    (run : Regs → ErrorCode × Regs) (settings : List (Option Setting))
    : Prop where
  updates : program.2 = (accepted settings).flatMap (settingUpdates L devId)
  errorCode : ∀ regs, (run regs).1 = program.1

section Programs

variable {L : Layout} {devId : Nat}

theorem Programs.nil : Programs L devId (.EC_OK, []) (fun regs => (.EC_OK, regs)) [] := by
  constructor <;> simp [accepted]

theorem Programs.rejected (err : ErrorCode) (settings : List (Option Setting))
    : Programs L devId (err, []) (fun regs => (err, regs)) (none :: settings) := by
  constructor <;> simp [accepted]

theorem Programs.cons {program : ErrorCode × List RegUpdate} {run : Regs → ErrorCode × Regs}
    {settings : List (Option Setting)} (h : Programs L devId program run settings)
    (setting : Setting)
    : Programs L devId (program.1, settingUpdates L devId setting ++ program.2)
        (fun regs => run (L.apply regs setting)) (some setting :: settings) := by
  constructor
  . simp only [accepted, List.flatMap_cons]
    rw [h.updates]
  . intro regs
    exact h.errorCode (L.apply regs setting)

theorem Programs.append {program program' : ErrorCode × List RegUpdate}
    {run next : Regs → ErrorCode × Regs} {settings rest : List (Option Setting)}
    (hrun : Programs L devId program run settings) (hperforms : PerformsSwitch L run settings)
    (hnext : Programs L devId program' next rest)
    : Programs L devId (andThen program program')
        (fun regs =>
          match run regs with
          | (.EC_OK, regs) => next regs
          | (err, regs) => (err, regs))
        (settings ++ rest) := by
  have hok : program.1 = .EC_OK ↔ none ∉ settings := by
    rw [← hrun.errorCode ⟨fun _ => 0, 0, 0⟩]
    exact hperforms.answer _ trivial
  have handThen : andThen program program' =
      if program.1 = .EC_OK then (program'.1, program.2 ++ program'.2) else program := by
    unfold andThen
    obtain ⟨err, us⟩ := program
    cases err <;> rfl
  rw [handThen]
  by_cases hmem : none ∈ settings
  . have hne : program.1 ≠ .EC_OK := fun h => hok.mp h hmem
    rw [if_neg hne]
    constructor
    . rw [accepted_append_of_mem hmem, hrun.updates]
    . intro regs
      apply (congrArg Prod.fst (match_errorCode (run regs) next)).trans
      rw [hrun.errorCode, if_neg hne, hrun.errorCode]
  . have heq : program.1 = .EC_OK := hok.mpr hmem
    rw [if_pos heq]
    constructor
    . rw [accepted_append_of_not_mem hmem, List.flatMap_append, hrun.updates, hnext.updates]
    . intro regs
      apply (congrArg Prod.fst (match_errorCode (run regs) next)).trans
      rw [hrun.errorCode, if_pos heq, hnext.errorCode]

theorem programs_ingress (sels : List SwitchIngressSelector)
    : Programs L devId (ingressProgram L devId sels) (setIngressSelectors L sels)
        (sels.map SwitchIngressSelector.setting?) := by
  induction sels with
  | nil => exact Programs.nil
  | cons sel sels ih =>
    rw [List.map_cons]
    show Programs L devId _ (fun regs => setIngressSelectors L (sel :: sels) regs) _
    unfold setIngressSelectors ingressProgram SwitchIngressSelector.setting?
    cases hintf : convertToDriverInterface sel.intf with
    | none => apply Programs.rejected
    | some intf =>
      cases hdest : convertToDriverDestination sel.dest with
      | none => apply Programs.rejected
      | some dest =>
        have hintf' := convertToDriverInterface_ne hintf
        have hdest' := convertToDriverDestination_ne hdest
        simp only [Switch.setIngressSelector_eq sel.index hintf' hdest',
          ingressUpdates_eq sel.index hintf' hdest', Option.bind_eq_bind, Option.bind_some]
        by_cases hindex : sel.index < numPorts
        . simp only [if_pos hindex]
          apply ih.cons
        . simp only [if_neg hindex]
          apply Programs.rejected

theorem programs_egress (sels : List SwitchEgressSelector)
    : Programs L devId (egressProgram devId sels) (setEgressSelectors L sels)
        (sels.map SwitchEgressSelector.setting?) := by
  induction sels with
  | nil => exact Programs.nil
  | cons sel sels ih =>
    rw [List.map_cons]
    show Programs L devId _ (fun regs => setEgressSelectors L (sel :: sels) regs) _
    unfold setEgressSelectors egressProgram SwitchEgressSelector.setting?
    cases hintf : convertToDriverInterface sel.intf with
    | none => apply Programs.rejected
    | some intf =>
      have hintf' := convertToDriverInterface_ne hintf
      simp only [Switch.setEgressSelector_eq sel.index hintf', egressUpdate_eq sel.index hintf',
        Option.bind_eq_bind, Option.bind_some]
      by_cases hindex : sel.index < numPorts
      . simp only [if_pos hindex]
        exact ih.cons (.egress sel.index intf)
      . simp only [if_neg hindex]
        apply Programs.rejected

theorem programs_bypass (mode : SwitchBypassMode)
    : Programs L devId (bypassProgram devId mode) (setBypassMode L mode)
        (if mode = .SW_BYPASS_UNKNOWN then [] else [mode.setting?]) := by
  unfold setBypassMode bypassProgram
  by_cases hunknown : mode = .SW_BYPASS_UNKNOWN
  . simp only [hunknown, ne_eq, not_true_eq_false, if_false, if_true]
    exact Programs.nil
  . simp only [hunknown, ne_eq, not_false_eq_true, if_false, if_true]
    unfold SwitchBypassMode.setting?
    cases hmode : convertToDriverBypassMode mode with
    | none => apply Programs.rejected
    | some mode =>
      have hmode' := convertToDriverBypassMode_ne hmode
      simp only [Switch.setBypassMode_eq hmode', bypassUpdate_eq hmode']
      exact Programs.nil.cons (.bypass mode)

theorem programs_device (config : SwitchConfig)
    : Programs L devId (deviceProgram L config devId) (setDevice L config) config.settings := by
  unfold SwitchConfig.settings
  rw [List.append_assoc]
  apply (programs_ingress config.ingressSelectors).append
  . exact performs_setIngressSelectors config.ingressSelectors
  . apply (programs_egress config.egressSelectors).append
    . exact performs_setEgressSelectors config.egressSelectors
    . exact programs_bypass config.bypassMode

end Programs

section Memory

variable {L : Layout} {devId devId' : Nat} (mem : Nat × Reg → BitVec 32)

theorem regsAt_settingUpdates (setting : Setting)
    : regsAt ((settingUpdates L devId setting).foldl (regSemantics L).apply mem) devId =
        L.apply (regsAt mem devId) setting := by
  cases setting with
  | ingress port intf dest =>
    simp only [settingUpdates, regsAt, Layout.apply, Layout.setInput, Regs.setMux, Regs.mk.injEq]
    refine ⟨?_, ?_, ?_⟩
    . funext tid
      simp [Semantics.apply, regSemantics, RegUpdate.loc, RegUpdate.field, RegUpdate.value,
        Function.update_apply]
    . simp [Semantics.apply, regSemantics, RegUpdate.loc]
    . simp [Semantics.apply, regSemantics, RegUpdate.loc]
  | egress port intf =>
    simp [settingUpdates, Semantics.apply, regSemantics, RegUpdate.loc, RegUpdate.field,
      RegUpdate.value, regsAt, Layout.apply]
  | bypass mode =>
    simp [settingUpdates, Semantics.apply, regSemantics, RegUpdate.loc, RegUpdate.field,
      RegUpdate.value, regsAt, Layout.apply]

theorem regsAt_settingUpdates_of_ne (hne : devId' ≠ devId) (setting : Setting)
    : regsAt ((settingUpdates L devId setting).foldl (regSemantics L).apply mem) devId' =
        regsAt mem devId' := by
  cases setting <;>
    simp [settingUpdates, Semantics.apply, regSemantics, RegUpdate.loc, regsAt, hne]

theorem regsAt_flatMap_settingUpdates (settings : List Setting)
    : regsAt ((settings.flatMap (settingUpdates L devId)).foldl (regSemantics L).apply mem) devId =
        settings.foldl L.apply (regsAt mem devId) := by
  induction settings generalizing mem with
  | nil => rfl
  | cons setting settings ih =>
    rw [List.flatMap_cons, List.foldl_append, ih, regsAt_settingUpdates, List.foldl_cons]

theorem regsAt_flatMap_settingUpdates_of_ne (hne : devId' ≠ devId) (settings : List Setting)
    : regsAt ((settings.flatMap (settingUpdates L devId)).foldl (regSemantics L).apply mem) devId' =
        regsAt mem devId' := by
  induction settings generalizing mem with
  | nil => rfl
  | cons setting settings ih =>
    rw [List.flatMap_cons, List.foldl_append, ih, regsAt_settingUpdates_of_ne mem hne]

theorem regsAt_devices {ids : List Nat} (hnodup : ids.Nodup) (settings : Nat → List Setting)
    : regsAt ((ids.flatMap fun i => (settings i).flatMap (settingUpdates L i)).foldl
          (regSemantics L).apply mem) devId =
        if devId ∈ ids then (settings devId).foldl L.apply (regsAt mem devId)
        else regsAt mem devId := by
  induction ids generalizing mem with
  | nil => rfl
  | cons id ids ih =>
    obtain ⟨hnotin, hnodup⟩ := List.nodup_cons.mp hnodup
    rw [List.flatMap_cons, List.foldl_append, ih _ hnodup]
    by_cases hid : devId = id
    . subst hid
      rw [if_neg hnotin, if_pos List.mem_cons_self, regsAt_flatMap_settingUpdates]
    . rw [regsAt_flatMap_settingUpdates_of_ne mem hid]
      simp [hid]

end Memory

section Requests

variable {L : Layout} {n devId : Nat} {req : SwitchConfigRequest}

theorem requestProgram_updates (L : Layout) (n : Nat) (req : SwitchConfigRequest)
    : (requestProgram L n req).2 = (selectDevices req.devId n).flatMap fun i =>
        (req.accepted n i).flatMap (settingUpdates L i) := by
  unfold requestProgram SwitchConfigRequest.accepted
  by_cases hrange : req.devId > (n : Int) - 1
  . rw [if_pos hrange]
    symm
    rw [List.flatMap_eq_nil_iff]
    intro i _
    have hnot : ¬ (i < n ∧ (req.devId < 0 ∨ req.devId = i)) := by omega
    cases req.config <;> simp [hnot]
  . rw [if_neg hrange]
    cases hconfig : req.config with
    | none => simp
    | some config =>
      simp only [List.flatMap_map]
      apply List.flatMap_congr
      intro i hi
      rw [(programs_device config).updates, if_pos ((mem_selectDevices hrange).mp hi)]

theorem accepted_of_not_mem (h : devId ∉ selectDevices req.devId n) : req.accepted n devId = [] := by
  unfold SwitchConfigRequest.accepted
  have hnot : ¬ (devId < n ∧ (req.devId < 0 ∨ req.devId = devId)) := by
    intro hsel
    apply h
    apply (mem_selectDevices (by omega)).mpr hsel
  cases req.config <;> simp [hnot]

-- A request that runs alone sets in a device what it is accepted for
theorem regsAt_requestProgram (mem : Nat × Reg → BitVec 32)
    : regsAt ((requestProgram L n req).2.foldl (regSemantics L).apply mem) devId =
        (req.accepted n devId).foldl L.apply (regsAt mem devId) := by
  rw [requestProgram_updates, regsAt_devices mem (selectDevices_nodup _ _)]
  split
  . rfl
  . next hmem => rw [accepted_of_not_mem hmem, List.foldl_nil]

-- The program of a request is what its handler does
theorem requestProgram_refines (mem : Nat × Reg → BitVec 32) (devices : List Regs)
    (hmem : ∀ i regs, devices[i]? = some regs → regsAt mem i = regs)
    : (setSwitchConfig L req devices).1.map (fun resp => resp.errorCode) =
        (requestProgram L devices.length req).1 ∧
      ∀ i regs, (setSwitchConfig L req devices).2[i]? = some regs →
        regsAt ((requestProgram L devices.length req).2.foldl (regSemantics L).apply mem) i =
          regs := by
  constructor
  . unfold setSwitchConfig requestProgram
    by_cases hrange : req.devId > (devices.length : Int) - 1
    . rw [if_pos hrange, if_pos hrange]
      rfl
    . rw [if_neg hrange, if_neg hrange]
      cases req.config with
      | none => rfl
      | some config =>
        simp only
        rw [updateEach_fst (selectDevices_nodup _ _), List.map_filterMap, List.map_map,
          ← List.filterMap_eq_map]
        apply List.filterMap_congr
        intro i hi
        have hlt := ((mem_selectDevices hrange).mp hi).1
        rw [List.getElem?_eq_getElem hlt]
        exact congrArg some ((programs_device config).errorCode devices[i])
  . intro i regs hregs
    rw [setSwitchConfig_getElem?] at hregs
    obtain ⟨initial, hinitial, rfl⟩ := Option.map_eq_some_iff.mp hregs
    rw [regsAt_requestProgram, hmem i initial hinitial]

end Requests

-- The interface that a request asks for at the egress of a port
def SwitchConfigRequest.egress (req : SwitchConfigRequest) (n devId port : Nat)
    : Option SwitchInterface := do
  let config ← req.config
  if devId < n ∧ (req.devId < 0 ∨ req.devId = devId) then
    lastSome (fun sel => if sel.index = port then some sel.intf else none) config.egressSelectors
  else
    none

section Egress

variable {L : Layout} {n devId port : Nat} {req : SwitchConfigRequest}

theorem lastSome_accepted_ingress (sels : List SwitchIngressSelector)
    : lastSome (Setting.egressOf port) (accepted (sels.map SwitchIngressSelector.setting?)) =
        none := by
  apply lastSome_eq_none_iff.mpr
  intro setting hmem
  obtain ⟨sel, -, hsel⟩ := List.mem_map.mp (mem_of_mem_accepted hmem)
  simp only [SwitchIngressSelector.setting?, Option.bind_eq_bind, Option.bind_eq_some_iff,
    Option.ite_none_right_eq_some, Option.some.injEq] at hsel
  obtain ⟨intf, -, dest, -, -, rfl⟩ := hsel
  rfl

theorem lastSome_accepted_bypass (mode : SwitchBypassMode)
    : lastSome (Setting.egressOf port)
        (accepted (if mode = .SW_BYPASS_UNKNOWN then [] else [mode.setting?])) = none := by
  apply lastSome_eq_none_iff.mpr
  intro setting hmem
  have hmode := mem_of_mem_accepted hmem
  split at hmode
  . cases hmode
  . have hsetting := (List.mem_singleton.mp hmode).symm
    simp only [SwitchBypassMode.setting?, Option.bind_eq_bind, Option.bind_eq_some_iff,
      Option.some.injEq] at hsetting
    obtain ⟨mode', -, rfl⟩ := hsetting
    rfl

theorem converts_of_not_mem {sels : List SwitchEgressSelector}
    (h : none ∉ sels.map SwitchEgressSelector.setting?) {sel : SwitchEgressSelector}
    (hmem : sel ∈ sels)
    : ∃ intf, convertToDriverInterface sel.intf = some intf ∧
        sel.setting? = some (.egress sel.index intf) := by
  have hne : sel.setting? ≠ none := by
    intro hnone
    apply h
    rw [← hnone]
    exact List.mem_map_of_mem hmem
  obtain ⟨setting, hsetting⟩ := Option.ne_none_iff_exists'.mp hne
  rw [hsetting]
  simp only [SwitchEgressSelector.setting?, Option.bind_eq_bind, Option.bind_eq_some_iff,
    Option.ite_none_right_eq_some, Option.some.injEq] at hsetting
  obtain ⟨intf, hintf, -, rfl⟩ := hsetting
  exact ⟨intf, hintf, rfl⟩

theorem lastSome_accepted_egress {sels : List SwitchEgressSelector}
    (h : none ∉ sels.map SwitchEgressSelector.setting?)
    : lastSome (Setting.egressOf port) (accepted (sels.map SwitchEgressSelector.setting?)) =
        (lastSome (fun sel : SwitchEgressSelector =>
          if sel.index = port then some sel.intf else none) sels).bind
            convertToDriverInterface := by
  induction sels with
  | nil => rfl
  | cons sel sels ih =>
    obtain ⟨intf, hintf, hsetting⟩ := converts_of_not_mem h List.mem_cons_self
    rw [List.map_cons, List.mem_cons, not_or] at h
    rw [List.map_cons, hsetting, accepted, lastSome_cons, lastSome_cons, ih h.2]
    unfold Setting.egressOf
    simp only
    cases hlast : lastSome (fun sel : SwitchEgressSelector =>
        if sel.index = port then some sel.intf else none) sels with
    | none =>
      by_cases hindex : sel.index = port
      . simp [hindex, hintf]
      . simp [hindex]
    | some last =>
      obtain ⟨sel', hmem, hsel'⟩ := lastSome_mem hlast
      simp only [Option.ite_none_right_eq_some, Option.some.injEq] at hsel'
      obtain ⟨-, rfl⟩ := hsel'
      obtain ⟨intf', hintf', -⟩ := converts_of_not_mem h.2 hmem
      simp [hintf']

-- The answers of a request tell that everything that it asks for is accepted
theorem not_mem_settings_of_ok (hok : ∀ err ∈ (requestProgram L n req).1, err = .EC_OK)
    {config : SwitchConfig} (hconfig : req.config = some config)
    (hsel : devId < n ∧ (req.devId < 0 ∨ req.devId = devId))
    : none ∉ config.settings := by
  have hrange : ¬ req.devId > (n : Int) - 1 := by omega
  unfold requestProgram at hok
  rw [if_neg hrange, hconfig] at hok
  simp only [List.map_map] at hok
  have hdevice : (deviceProgram L config devId).1 = .EC_OK := by
    apply hok
    exact List.mem_map.mpr ⟨devId, (mem_selectDevices hrange).mpr hsel, rfl⟩
  apply ((performs_setDevice (L := L) config).answer ⟨fun _ => 0, 0, 0⟩ trivial).mp
  exact ((programs_device config).errorCode _).trans hdevice

theorem lastSome_egressOf_accepted (hok : ∀ err ∈ (requestProgram L n req).1, err = .EC_OK)
    : lastSome (Setting.egressOf port) (req.accepted n devId) =
        (req.egress n devId port).bind convertToDriverInterface := by
  unfold SwitchConfigRequest.accepted SwitchConfigRequest.egress
  cases hconfig : req.config with
  | none => rfl
  | some config =>
    simp only [Option.bind_eq_bind, Option.bind_some]
    split
    . next hsel =>
      have hsettings := not_mem_settings_of_ok hok hconfig hsel
      unfold SwitchConfig.settings at hsettings ⊢
      rw [List.append_assoc] at hsettings ⊢
      rw [List.mem_append, List.mem_append, not_or, not_or] at hsettings
      obtain ⟨hingress, hegress, -⟩ := hsettings
      rw [accepted_append_of_not_mem hingress, accepted_append_of_not_mem hegress,
        lastSome_append, lastSome_append, lastSome_accepted_bypass, lastSome_accepted_ingress,
        lastSome_accepted_egress hegress]
      simp
    . rfl

theorem converts_of_egress (hok : ∀ err ∈ (requestProgram L n req).1, err = .EC_OK)
    {intf : SwitchInterface} (h : req.egress n devId port = some intf)
    : ∃ driver, convertToDriverInterface intf = some driver ∧
        convertFromDriverInterface driver = some intf := by
  unfold SwitchConfigRequest.egress at h
  obtain ⟨config, hconfig, h⟩ := Option.bind_eq_some_iff.mp h
  split at h
  . next hsel =>
    have hsettings := not_mem_settings_of_ok hok hconfig hsel
    unfold SwitchConfig.settings at hsettings
    rw [List.mem_append, List.mem_append, not_or, not_or] at hsettings
    obtain ⟨sel, hmem, hlast⟩ := lastSome_mem h
    simp only [Option.ite_none_right_eq_some, Option.some.injEq] at hlast
    obtain ⟨-, rfl⟩ := hlast
    obtain ⟨driver, hdriver, -⟩ := converts_of_not_mem hsettings.1.2 hmem
    refine ⟨driver, hdriver, ?_⟩
    cases hintf : sel.intf <;> rw [hintf] at hdriver <;> cases hdriver <;> rfl
  . contradiction

theorem demux_mem {port : Nat} {value : BitVec 32}
    (h : RegUpdate.demux devId port value ∈ (requestProgram L n req).2)
    : ∃ intf, Setting.egress port intf ∈ req.accepted n devId ∧ value = Layout.egressSel intf := by
  rw [requestProgram_updates, List.mem_flatMap] at h
  obtain ⟨i, -, h⟩ := h
  obtain ⟨setting, hmem, h⟩ := List.mem_flatMap.mp h
  cases setting with
  | ingress => simp [settingUpdates] at h
  | egress index intf =>
    simp only [settingUpdates, List.mem_singleton, RegUpdate.demux.injEq] at h
    obtain ⟨rfl, rfl, rfl⟩ := h
    exact ⟨intf, hmem, rfl⟩
  | bypass => simp [settingUpdates] at h

-- What an update sets at the egress of a port
def RegUpdate.demuxOf (devId port : Nat) (u : RegUpdate) : Option (BitVec 32) :=
  match u with
  | .demux i index value => if i = devId ∧ index = port then some value else none
  | _ => none

theorem get_demux_write (hport : port < numPorts) {u : RegUpdate}
    (hmem : u ∈ (requestProgram L n req).2)
    (hloc : u.loc = (devId, .demuxOutSel)) (v : BitVec 32)
    : (L.demuxPort port).get ((regSemantics L).write u v v) =
        (u.demuxOf devId port).getD ((L.demuxPort port).get v) := by
  cases u with
  | mux => simp [RegUpdate.loc] at hloc
  | bypass => simp [RegUpdate.loc] at hloc
  | demux i index value =>
    simp only [RegUpdate.loc, Prod.mk.injEq, and_true] at hloc
    subst hloc
    obtain ⟨intf, haccepted, rfl⟩ := demux_mem hmem
    have hvalid := SwitchConfigRequest.accepted_valid req n i _ haccepted
    simp only [regSemantics, RegUpdate.field, RegUpdate.value, RegUpdate.demuxOf, true_and]
    by_cases hindex : index = port
    . subst hindex
      rw [if_pos rfl, RegField.get_set, RegField.and_ones_of_fits (Layout.egressSel_fits intf)]
      rfl
    . rw [if_neg hindex]
      apply RegField.get_set_of_disjoint
      exact Layout.demuxPort_disjoint hvalid.1 hport (Ne.symm hindex)

theorem demuxOf_of_loc_ne {u : RegUpdate} (h : u.loc ≠ (devId, .demuxOutSel))
    : u.demuxOf devId port = none := by
  cases u with
  | mux => rfl
  | bypass => rfl
  | demux i index value =>
    unfold RegUpdate.demuxOf
    apply if_neg
    rintro ⟨rfl, -⟩
    exact h rfl

theorem demuxOf_of_egress (hok : ∀ err ∈ (requestProgram L n req).1, err = .EC_OK)
    (h : req.egress n devId port = none) {u : RegUpdate} (hmem : u ∈ (requestProgram L n req).2)
    : u.demuxOf devId port = none := by
  cases u with
  | mux => rfl
  | bypass => rfl
  | demux i index value =>
    unfold RegUpdate.demuxOf
    apply if_neg
    rintro ⟨rfl, rfl⟩
    obtain ⟨intf, haccepted, -⟩ := demux_mem hmem
    have hlast : lastSome (Setting.egressOf index) (req.accepted n i) =
        (req.egress n i index).bind convertToDriverInterface := lastSome_egressOf_accepted hok
    rw [h] at hlast
    have hnone := lastSome_eq_none_iff.mp hlast _ haccepted
    simp [Setting.egressOf] at hnone

end Egress

section Threads

variable {T : Type} [DecidableEq T]

-- Any number of requests are handled at once, each by a thread of its own
def startRequests (L : Layout) (n : Nat) (reqs : T → SwitchConfigRequest)
    (mem : Nat × Reg → BitVec 32)
    : SharedUpdates.State T RegUpdate (Nat × Reg) (BitVec 32) :=
  start mem fun t => (requestProgram L n (reqs t)).2

-- What is read back of the egress of a port
def shownEgress (L : Layout) (mem : Nat × Reg → BitVec 32) (devId port : Nat)
    : Option SwitchInterface := do
  let intf ← Switch.getEgressSelector L (regsAt mem devId) port
  convertFromDriverInterface intf

-- As long as every write of the register finds there what its request has read, apart from the
-- field that it sets, no update of the register is lost
theorem setSwitchConfig_threads (L : Layout) (n : Nat) (reqs : T → SwitchConfigRequest)
    (mem : Nat × Reg → BitVec 32) (devId : Nat) (ls : List (SharedUpdates.Label T))
    : let M := regSemantics L
      let loc := (devId, Reg.demuxOutSel)
      let s₀ := startRequests L n reqs mem
      (Transition.StatesSatisfy (step M) (Serial M mem loc) s₀ ls ↔
        Transition.StepsSatisfy (step M) (Fresh M loc) s₀ ls) ∧
      (Transition.StepsSatisfy (step M) (Fresh M loc) s₀ ls →
        ∀ s, Transition.run (step M) s₀ ls = some s → Completed s →
          (∀ t, ∀ err ∈ (requestProgram L n (reqs t)).1, err = .EC_OK) →
          ∀ t port intf, (reqs t).egress n devId port = some intf →
            (∀ t' ≠ t, (reqs t').egress n devId port = none) →
            shownEgress L s.mem devId port = some intf) := by
  intro M loc s₀
  refine ⟨SharedUpdates.serial_iff_fresh (SharedUpdates.serial_start loc) ls, ?_⟩
  intro hfresh s hrun hdone hok t port intf hintf hothers
  obtain ⟨driver, hdriver, hback⟩ := converts_of_egress (hok t) hintf
  have hlast : lastSome (Setting.egressOf port) ((reqs t).accepted n devId) = some driver := by
    rw [lastSome_egressOf_accepted (hok t), hintf]
    exact hdriver
  have hvalid := SwitchConfigRequest.accepted_valid (reqs t) n devId
  have hport : port < numPorts := by
    obtain ⟨setting, hmem, hsetting⟩ := lastSome_mem hlast
    have hset := hvalid setting hmem
    cases setting with
    | ingress => cases hsetting
    | bypass => cases hsetting
    | egress index intf' =>
      simp only [Setting.egressOf, Option.ite_none_right_eq_some] at hsetting
      rw [← hsetting.1]
      exact hset.1
  have hget : (L.demuxPort port).get (s.mem loc) =
      (L.demuxPort port).get ((requestProgram L n (reqs t)).2.foldl M.apply mem loc) := by
    apply SharedUpdates.get_of_completed (g := RegUpdate.demuxOf devId port) _ _ hfresh hrun hdone
    . intro t' u hmem
      apply SharedUpdates.get_apply
      . exact get_demux_write hport hmem
      . exact demuxOf_of_loc_ne
    . intro t' hne u hmem
      exact demuxOf_of_egress (hok t') (hothers t' hne) hmem
  have hreflects := L.reflects_foldl hvalid (regsAt mem devId)
  have halone := hreflects.getEgressSelector hvalid hport
  rw [← regsAt_requestProgram (L := L)] at halone
  unfold Switch.readEgress at halone
  rw [hlast, Switch.getEgressSelector_eq hport] at halone
  unfold shownEgress
  rw [Switch.getEgressSelector_eq hport]
  have hshown : (if (L.demuxPort port).get (s.mem loc) ≠ 0 then Switch.SwitchInterface.TEST
      else .PHYSICAL) = driver := by
    rw [hget]
    exact Option.some.inj halone
  simp only [Option.bind_eq_bind, Option.bind_some]
  rw [← hback, ← hshown]
  rfl

end Threads

def setEgress (port : Nat) : SwitchConfigRequest :=
  { devId := 0, config := some ⟨[], [⟨port, .SW_INTF_TEST⟩], .SW_BYPASS_UNKNOWN⟩ }

-- Two requests, one for each of the ports
def setEgresses (t : Bool) : SwitchConfigRequest := setEgress (if t then 1 else 0)

theorem setSwitchConfig_threads_serial
    : let s₀ := startRequests exampleLayout 1 setEgresses fun _ => 0
      let ls := [.read false, .write false, .read true, .write true]
      ∃ s, Transition.run (step (regSemantics exampleLayout)) s₀ ls = some s ∧
        shownEgress exampleLayout s.mem 0 0 = some .SW_INTF_TEST := by
  intro s₀ ls
  have hspec := (setSwitchConfig_threads exampleLayout 1 setEgresses (fun _ => 0) 0 ls).2
  refine ⟨_, rfl, hspec ?_ _ rfl ?_ ?_ false 0 _ rfl ?_⟩
  . rintro s₁ ⟨⟩
    refine ⟨trivial, ?_⟩
    rintro s₂ ⟨⟩
    refine ⟨?_, ?_⟩
    . rintro u rest v ⟨⟩ ⟨⟩ _
      rfl
    . rintro s₃ ⟨⟩
      refine ⟨trivial, ?_⟩
      rintro s₄ ⟨⟩
      refine ⟨?_, trivial⟩
      rintro u rest v ⟨⟩ ⟨⟩ _
      rfl
  . intro t
    cases t <;> exact ⟨rfl, rfl⟩
  . intro t
    cases t <;> decide
  . intro t ht
    cases t
    . contradiction
    . rfl

-- Both requests read the register before one of them writes it, and the other one brings back the
-- port as it was
theorem setSwitchConfig_threads_lost
    : ¬ ∀ ls s, Transition.run (step (regSemantics exampleLayout))
          (startRequests exampleLayout 1 setEgresses fun _ => 0) ls = some s → Completed s →
        (∀ t, ∀ err ∈ (requestProgram exampleLayout 1 (setEgresses t)).1, err = .EC_OK) →
        ∀ t port intf, (setEgresses t).egress 1 0 port = some intf →
          (∀ t' ≠ t, (setEgresses t').egress 1 0 port = none) →
          shownEgress exampleLayout s.mem 0 port = some intf := by
  intro h
  have hlost := h [.read false, .read true, .write false, .write true] _ rfl
    (by intro t; cases t <;> exact ⟨rfl, rfl⟩) (by intro t; cases t <;> decide) false 0
    .SW_INTF_TEST rfl
    (by
      intro t ht
      cases t
      . contradiction
      . rfl)
  revert hlost
  decide

end SnCfg.SwitchAgent
