import SmartnicFw.Lib.Accepted
import SmartnicFw.SnCfg.Agent.SwitchConfig

/-!
This module contains what any number of requests leaves in the registers of the switch, and what is
read back after them.
-/

namespace SnCfg.SwitchAgent

open Switch (Layout Regs Setting numPorts readIngress readEgress readBypass)
open Accepted (Performs)

-- What a selector stands for, unless it is rejected
def SwitchIngressSelector.setting? (sel : SwitchIngressSelector) : Option Setting := do
  let intf ← convertToDriverInterface sel.intf
  let dest ← convertToDriverDestination sel.dest
  if sel.index < numPorts then some (.ingress sel.index intf dest) else none

def SwitchEgressSelector.setting? (sel : SwitchEgressSelector) : Option Setting := do
  let intf ← convertToDriverInterface sel.intf
  if sel.index < numPorts then some (.egress sel.index intf) else none

def SwitchBypassMode.setting? (mode : SwitchBypassMode) : Option Setting := do
  let mode ← convertToDriverBypassMode mode
  some (.bypass mode)

def SwitchConfig.settings (config : SwitchConfig) : List (Option Setting) :=
  config.ingressSelectors.map SwitchIngressSelector.setting? ++
    config.egressSelectors.map SwitchEgressSelector.setting? ++
    if config.bypassMode = .SW_BYPASS_UNKNOWN then [] else [config.bypassMode.setting?]

-- What a request sets in a device
def SwitchConfigRequest.accepted (req : SwitchConfigRequest) (n devId : Nat) : List Setting :=
  match req.config with
  | some config =>
    if devId < n ∧ (req.devId < 0 ∨ req.devId = devId) then
      Accepted.accepted config.settings
    else
      []
  | none => []

def setSwitchConfigs (L : Layout) (reqs : List SwitchConfigRequest) (devices : List Regs)
    : List Regs :=
  reqs.foldl (fun devices req => (setSwitchConfig L req devices).2) devices

-- How what is read of a port is told
def ingressSelector (port : Nat) (read : Switch.SwitchInterface × Switch.SwitchDestination)
    : Option SwitchIngressSelector := do
  let intf ← convertFromDriverInterface read.1
  let dest ← convertFromDriverDestination read.2
  some ⟨port, intf, dest⟩

def egressSelector (port : Nat) (read : Switch.SwitchInterface) : Option SwitchEgressSelector := do
  let intf ← convertFromDriverInterface read
  some ⟨port, intf⟩

-- What a response tells of a device after some settings. The ports are told in order, up to the first
-- one of which the ingress cannot be read.
structure Reports (L : Layout) (initial : Regs) (settings : List Setting)
    (resp : SwitchConfigResponse) : Prop where
  port : ∀ port < nports, (∀ lower ≤ port, readIngress L initial settings lower ≠ none) →
    ∃ config ingress egress, resp.config = some config ∧
      config.ingressSelectors[port]? = some ingress ∧
      (readIngress L initial settings port).bind (ingressSelector port) = some ingress ∧
      config.egressSelectors[port]? = some egress ∧
      (readEgress L initial settings port).bind (egressSelector port) = some egress
  complete : (∀ port < nports, readIngress L initial settings port ≠ none) →
    resp.errorCode = .EC_OK ∧ ∃ config, resp.config = some config ∧
      some config.bypassMode = convertFromDriverBypassMode (readBypass L initial settings)
  stopped : (∃ port < nports, readIngress L initial settings port = none) →
    resp.errorCode = .EC_FAILED_GET_IGR_SEL

section Settings

theorem convertToDriverInterface_ne {intf : SwitchInterface} {intf' : Switch.SwitchInterface}
    (h : convertToDriverInterface intf = some intf')
    : intf' ≠ .UNKNOWN := by
  cases intf <;> cases h <;> decide

theorem convertToDriverDestination_ne {dest : SwitchDestination}
    {dest' : Switch.SwitchDestination} (h : convertToDriverDestination dest = some dest')
    : dest' ≠ .UNKNOWN := by
  cases dest <;> cases h <;> decide

theorem convertToDriverBypassMode_ne {mode : SwitchBypassMode} {mode' : Switch.SwitchBypassMode}
    (h : convertToDriverBypassMode mode = some mode')
    : mode' ≠ .UNKNOWN := by
  cases mode <;> cases h <;> decide

theorem SwitchIngressSelector.setting?_valid {sel : SwitchIngressSelector} {setting : Setting}
    (h : sel.setting? = some setting)
    : setting.Valid := by
  simp only [setting?, Option.bind_eq_bind, Option.bind_eq_some_iff,
    Option.ite_none_right_eq_some, Option.some.injEq] at h
  obtain ⟨intf, hintf, dest, hdest, hindex, rfl⟩ := h
  exact ⟨hindex, convertToDriverInterface_ne hintf, convertToDriverDestination_ne hdest⟩

theorem SwitchEgressSelector.setting?_valid {sel : SwitchEgressSelector} {setting : Setting}
    (h : sel.setting? = some setting)
    : setting.Valid := by
  simp only [setting?, Option.bind_eq_bind, Option.bind_eq_some_iff,
    Option.ite_none_right_eq_some, Option.some.injEq] at h
  obtain ⟨intf, hintf, hindex, rfl⟩ := h
  exact ⟨hindex, convertToDriverInterface_ne hintf⟩

theorem SwitchBypassMode.setting?_valid {mode : SwitchBypassMode} {setting : Setting}
    (h : mode.setting? = some setting)
    : setting.Valid := by
  simp only [setting?, Option.bind_eq_bind, Option.bind_eq_some_iff, Option.some.injEq] at h
  obtain ⟨mode', hmode, rfl⟩ := h
  exact convertToDriverBypassMode_ne hmode

theorem SwitchConfig.settings_valid (config : SwitchConfig) {setting : Setting}
    (h : some setting ∈ config.settings)
    : setting.Valid := by
  unfold settings at h
  rw [List.mem_append, List.mem_append, List.mem_map, List.mem_map] at h
  rcases h with (⟨sel, _, hsel⟩ | ⟨sel, _, hsel⟩) | hmode
  . exact SwitchIngressSelector.setting?_valid hsel
  . exact SwitchEgressSelector.setting?_valid hsel
  . split at hmode
    . cases hmode
    . exact SwitchBypassMode.setting?_valid (List.mem_singleton.mp hmode).symm

theorem SwitchConfigRequest.accepted_valid (req : SwitchConfigRequest) (n devId : Nat)
    : ∀ setting ∈ req.accepted n devId, setting.Valid := by
  intro setting hmem
  unfold accepted at hmem
  split at hmem
  . split at hmem
    . exact SwitchConfig.settings_valid _ (Accepted.mem_of_mem_accepted hmem)
    . cases hmem
  . cases hmem

end Settings

-- No state of the registers is needed for a part of the handler to do what its settings say
abbrev PerformsSwitch (L : Layout) := Performs (fun _ : Regs => True) L.apply ErrorCode.EC_OK

section Performs

variable {L : Layout}

theorem keeps_apply (_ : Regs) (_ : Setting) (h : True) : True := h

theorem match_errorCode (r : ErrorCode × Regs) (next : Regs → ErrorCode × Regs)
    : (match r with
        | (.EC_OK, regs) => next regs
        | (err, regs) => (err, regs)) =
        if r.1 = .EC_OK then next r.2 else r := by
  obtain ⟨err, regs⟩ := r
  cases err <;> rfl

theorem performs_setIngressSelectors (sels : List SwitchIngressSelector)
    : PerformsSwitch L (setIngressSelectors L sels) (sels.map SwitchIngressSelector.setting?) := by
  induction sels with
  | nil => exact Performs.nil
  | cons sel sels ih =>
    rw [List.map_cons]
    show PerformsSwitch L (fun regs => setIngressSelectors L (sel :: sels) regs) _
    unfold setIngressSelectors SwitchIngressSelector.setting?
    cases hintf : convertToDriverInterface sel.intf with
    | none => exact Performs.rejected (by decide) _
    | some intf =>
      cases hdest : convertToDriverDestination sel.dest with
      | none => exact Performs.rejected (by decide) _
      | some dest =>
        simp only [Switch.setIngressSelector_eq sel.index (convertToDriverInterface_ne hintf)
          (convertToDriverDestination_ne hdest), Option.bind_eq_bind, Option.bind_some]
        by_cases hindex : sel.index < numPorts
        . simp only [if_pos hindex]
          exact ih.cons keeps_apply fun _ _ => rfl
        . simp only [if_neg hindex]
          exact Performs.rejected (by decide) _

theorem performs_setEgressSelectors (sels : List SwitchEgressSelector)
    : PerformsSwitch L (setEgressSelectors L sels) (sels.map SwitchEgressSelector.setting?) := by
  induction sels with
  | nil => exact Performs.nil
  | cons sel sels ih =>
    rw [List.map_cons]
    show PerformsSwitch L (fun regs => setEgressSelectors L (sel :: sels) regs) _
    unfold setEgressSelectors SwitchEgressSelector.setting?
    cases hintf : convertToDriverInterface sel.intf with
    | none => exact Performs.rejected (by decide) _
    | some intf =>
      simp only [Switch.setEgressSelector_eq sel.index (convertToDriverInterface_ne hintf),
        Option.bind_eq_bind, Option.bind_some]
      by_cases hindex : sel.index < numPorts
      . simp only [if_pos hindex]
        exact ih.cons keeps_apply fun _ _ => rfl
      . simp only [if_neg hindex]
        exact Performs.rejected (by decide) _

theorem performs_setBypassMode (mode : SwitchBypassMode)
    : PerformsSwitch L (setBypassMode L mode)
        (if mode = .SW_BYPASS_UNKNOWN then [] else [mode.setting?]) := by
  unfold setBypassMode
  by_cases hunknown : mode = .SW_BYPASS_UNKNOWN
  . simp only [hunknown, ne_eq, not_true_eq_false, if_false, if_true]
    exact Performs.nil
  . simp only [hunknown, ne_eq, not_false_eq_true, if_false, if_true]
    unfold SwitchBypassMode.setting?
    cases hmode : convertToDriverBypassMode mode with
    | none => exact Performs.rejected (by decide) _
    | some mode =>
      simp only [Switch.setBypassMode_eq (convertToDriverBypassMode_ne hmode)]
      exact Performs.nil.cons keeps_apply fun _ _ => rfl

theorem performs_setDevice (config : SwitchConfig)
    : PerformsSwitch L (setDevice L config) config.settings := by
  unfold SwitchConfig.settings
  rw [List.append_assoc]
  have hegress := (performs_setEgressSelectors (L := L) config.egressSelectors).append
    (performs_setBypassMode config.bypassMode) keeps_apply fun _ _ => (match_errorCode _ _)
  exact (performs_setIngressSelectors config.ingressSelectors).append hegress keeps_apply
    fun _ _ => match_errorCode _ _

end Performs

section Requests

variable {L : Layout}

theorem selectDevices_nodup (devId : Int) (n : Nat) : (selectDevices devId n).Nodup := by
  unfold selectDevices
  split
  . exact List.nodup_singleton _
  . exact List.nodup_range

theorem mem_selectDevices {devId : Int} {n i : Nat} (h : ¬ devId > (n : Int) - 1)
    : i ∈ selectDevices devId n ↔ i < n ∧ (devId < 0 ∨ devId = i) := by
  unfold selectDevices
  split
  . rw [List.mem_singleton]
    omega
  . rw [List.mem_range]
    omega

theorem setSwitchConfig_length (req : SwitchConfigRequest) (devices : List Regs)
    : (setSwitchConfig L req devices).2.length = devices.length := by
  unfold setSwitchConfig
  split
  . rfl
  . split
    . rfl
    . apply updateEach_length

-- What one request leaves in a device
theorem setSwitchConfig_getElem? (req : SwitchConfigRequest) (devices : List Regs) (i : Nat)
    : (setSwitchConfig L req devices).2[i]? =
        devices[i]?.map fun regs => (req.accepted devices.length i).foldl L.apply regs := by
  unfold setSwitchConfig SwitchConfigRequest.accepted
  by_cases hrange : req.devId > (devices.length : Int) - 1
  . rw [if_pos hrange]
    have hnot : ¬ (i < devices.length ∧ (req.devId < 0 ∨ req.devId = i)) := by omega
    cases req.config <;> simp [hnot]
  . rw [if_neg hrange]
    cases req.config with
    | none => simp
    | some config =>
      simp only
      rw [updateEach_getElem? (selectDevices_nodup _ _)]
      simp only [mem_selectDevices hrange]
      split
      . congr 1
        funext regs
        exact (performs_setDevice config).state regs trivial
      . simp

-- A response says whether anything was rejected
theorem setSwitchConfig_errorCode {req : SwitchConfigRequest} {devices : List Regs}
    {config : SwitchConfig} (hrange : ¬ req.devId > (devices.length : Int) - 1)
    (hconfig : req.config = some config) {resp : SwitchConfigResponse}
    (hmem : resp ∈ (setSwitchConfig L req devices).1)
    : resp.errorCode = .EC_OK ↔ none ∉ config.settings := by
  unfold setSwitchConfig at hmem
  rw [if_neg hrange, hconfig] at hmem
  simp only at hmem
  rw [updateEach_fst (selectDevices_nodup _ _), List.mem_filterMap] at hmem
  obtain ⟨i, _, hresp⟩ := hmem
  obtain ⟨regs, _, rfl⟩ := Option.map_eq_some_iff.mp hresp
  exact (performs_setDevice config).answer regs trivial

theorem setSwitchConfigs_getElem? (reqs : List SwitchConfigRequest) (devices : List Regs) (i : Nat)
    : (setSwitchConfigs L reqs devices)[i]? =
        devices[i]?.map fun regs =>
          (reqs.flatMap fun req => req.accepted devices.length i).foldl L.apply regs := by
  unfold setSwitchConfigs
  induction reqs generalizing devices with
  | nil => simp
  | cons req reqs ih =>
    rw [List.foldl_cons, ih, setSwitchConfig_getElem?, setSwitchConfig_length, Option.map_map]
    simp [Function.comp_def]

end Requests

section Reading

variable {L : Layout} {regs : Regs}

theorem destinationFromMuxSel_ne {value : BitVec 32} {dest : Switch.SwitchDestination}
    (h : Switch.destinationFromMuxSel L value = some dest)
    : dest ≠ .UNKNOWN := by
  unfold Switch.destinationFromMuxSel at h
  split at h
  . cases h
    decide
  . split at h
    . cases h
      decide
    . split at h
      . cases h
        decide
      . cases h

theorem getIngressMux_ne {port : Nat} {intf : Switch.SwitchInterface}
    {dest : Switch.SwitchDestination} (h : Switch.getIngressMux L regs port intf = some dest)
    : dest ≠ .UNKNOWN := by
  unfold Switch.getIngressMux at h
  obtain ⟨tid, _, h⟩ := Option.bind_eq_some_iff.mp h
  split at h
  . cases h
  . exact destinationFromMuxSel_ne h

-- Whatever is read of a port can be told
theorem ingressSelector_of_read {port : Nat}
    {read : Switch.SwitchInterface × Switch.SwitchDestination}
    (h : Switch.getIngressSelector L regs port = some read)
    : ∃ intf dest, convertFromDriverInterface read.1 = some intf ∧
        convertFromDriverDestination read.2 = some dest := by
  have hdest {dest : Switch.SwitchDestination} (hne : dest ≠ .UNKNOWN)
      : ∃ dest', convertFromDriverDestination dest = some dest' := by
    cases dest <;> first | contradiction | exact ⟨_, rfl⟩
  unfold Switch.getIngressSelector at h
  obtain ⟨dest, htest, h⟩ := Option.bind_eq_some_iff.mp h
  split at h
  . obtain ⟨dest', hdest'⟩ := hdest (getIngressMux_ne htest)
    cases h
    exact ⟨.SW_INTF_TEST, dest', rfl, hdest'⟩
  . obtain ⟨dest, hphysical, h⟩ := Option.bind_eq_some_iff.mp h
    obtain ⟨dest', hdest'⟩ := hdest (getIngressMux_ne hphysical)
    cases h
    exact ⟨.SW_INTF_PHYSICAL, dest', rfl, hdest'⟩

theorem egressSelector_of_lt (L : Layout) (regs : Regs) {port : Nat} (hport : port < numPorts)
    : ∃ intf intf', Switch.getEgressSelector L regs port = some intf ∧
        convertFromDriverInterface intf = some intf' := by
  rw [Switch.getEgressSelector_eq hport]
  split
  . exact ⟨.TEST, .SW_INTF_TEST, rfl, rfl⟩
  . exact ⟨.PHYSICAL, .SW_INTF_PHYSICAL, rfl, rfl⟩

def readable (L : Layout) (regs : Regs) (port : Nat) : Bool :=
  (Switch.getIngressSelector L regs port).isSome

def ingressEntry (L : Layout) (regs : Regs) (port : Nat) : SwitchIngressSelector :=
  ((Switch.getIngressSelector L regs port).bind (ingressSelector port)).getD
    ⟨port, .SW_INTF_UNKNOWN, .SW_DEST_UNKNOWN⟩

def egressEntry (L : Layout) (regs : Regs) (port : Nat) : SwitchEgressSelector :=
  ((Switch.getEgressSelector L regs port).bind (egressSelector port)).getD
    ⟨port, .SW_INTF_UNKNOWN⟩

-- The loop tells of the ports before the first one that cannot be read
theorem getPorts_eq {portIds : List Nat} (hports : ∀ port ∈ portIds, port < numPorts)
    (config : SwitchConfig)
    : getPorts L regs portIds config =
        (if portIds.all (readable L regs) then .EC_OK else .EC_FAILED_GET_IGR_SEL,
          ⟨config.ingressSelectors ++
              (portIds.takeWhile (readable L regs)).map (ingressEntry L regs),
            config.egressSelectors ++
              (portIds.takeWhile (readable L regs)).map (egressEntry L regs),
            config.bypassMode⟩) := by
  induction portIds generalizing config with
  | nil => simp [getPorts]
  | cons port portIds ih =>
    unfold getPorts
    rw [List.all_cons, List.takeWhile_cons]
    cases hread : Switch.getIngressSelector L regs port with
    | none =>
      have hnot : readable L regs port = false := by
        unfold readable
        rw [hread]
        rfl
      simp [hnot]
    | some read =>
      obtain ⟨intf, dest, hintf, hdest⟩ := ingressSelector_of_read hread
      obtain ⟨egress, egress', hegress, hegress'⟩ :=
        egressSelector_of_lt L regs (hports port List.mem_cons_self)
      have hreadable : readable L regs port = true := by
        unfold readable
        rw [hread]
        rfl
      have hentry : ingressEntry L regs port = ⟨port, intf, dest⟩ := by
        simp [ingressEntry, hread, ingressSelector, hintf, hdest]
      have hegressEntry : egressEntry L regs port = ⟨port, egress'⟩ := by
        simp [egressEntry, hegress, egressSelector, hegress']
      simp only [hintf, hdest, hegress, hegress', hreadable, Bool.true_and, if_true]
      rw [ih (fun port hmem => hports port (List.mem_cons_of_mem _ hmem))]
      simp [SwitchConfig.addIngress, SwitchConfig.addEgress, hentry, hegressEntry]

theorem getBypassMode_told (L : Layout) (regs : Regs)
    : ∃ mode, convertFromDriverBypassMode (Switch.getBypassMode L regs) = some mode := by
  unfold Switch.getBypassMode
  split
  . exact ⟨_, rfl⟩
  . exact ⟨_, rfl⟩

theorem getElem?_takeWhile_range {p : Nat → Bool} {n k : Nat} (hk : k < n)
    (h : ∀ i ≤ k, p i = true)
    : ((List.range n).takeWhile p)[k]? = some k := by
  obtain ⟨m, rfl⟩ := Nat.exists_eq_add_of_lt hk
  have hrange : List.range (k + m + 1) = List.range (k + 1) ++ (List.range m).map (k + 1 + ·) := by
    rw [← List.range_add]
    congr 1
    omega
  rw [hrange, List.takeWhile_append_of_pos, List.getElem?_append_left (by simp)]
  . simp
  . intro i hi
    have hlt := List.mem_range.mp hi
    exact h i (by omega)

theorem getDevice_reports {initial : Regs} {settings : List Setting}
    (h : L.Reflects initial regs settings) (hvalid : ∀ s ∈ settings, s.Valid) (devId : Nat)
    : Reports L initial settings (getDevice L devId regs) := by
  have hports : ∀ port ∈ List.range nports, port < numPorts := fun port => List.mem_range.mp
  have hread {port : Nat} (hport : port < nports)
      : Switch.getIngressSelector L regs port = readIngress L initial settings port :=
    h.getIngressSelector hvalid hport
  have hall : (List.range nports).all (readable L regs) = true ↔
      ∀ port < nports, readIngress L initial settings port ≠ none := by
    rw [List.all_eq_true]
    simp only [List.mem_range]
    apply forall₂_congr
    intro port hport
    unfold readable
    rw [hread hport, Option.isSome_iff_ne_none]
  obtain ⟨mode, hmode⟩ := getBypassMode_told L regs
  have hdevice : ∃ config, getDevice L devId regs =
      ⟨if (List.range nports).all (readable L regs) then .EC_OK else .EC_FAILED_GET_IGR_SEL, devId,
        some config⟩ ∧
      config.ingressSelectors =
        ((List.range nports).takeWhile (readable L regs)).map (ingressEntry L regs) ∧
      config.egressSelectors =
        ((List.range nports).takeWhile (readable L regs)).map (egressEntry L regs) ∧
      ((List.range nports).all (readable L regs) = true → config.bypassMode = mode) := by
    unfold getDevice
    rw [getPorts_eq hports]
    by_cases hok : (List.range nports).all (readable L regs) = true
    . simp only [hok, if_true, hmode]
      exact ⟨_, rfl, by simp, by simp, fun _ => rfl⟩
    . simp only [hok, if_false, Bool.false_eq_true]
      exact ⟨_, rfl, by simp, by simp, fun hfalse => hfalse.elim⟩
  obtain ⟨config, hdevice, hingress, hegress, hbypass⟩ := hdevice
  rw [hdevice]
  constructor
  . intro port hport hlower
    have hshown : ((List.range nports).takeWhile (readable L regs))[port]? = some port := by
      apply getElem?_takeWhile_range hport
      intro lower hle
      unfold readable
      rw [hread (by omega), Option.isSome_iff_ne_none]
      exact hlower lower hle
    obtain ⟨read, hsome⟩ := Option.ne_none_iff_exists'.mp (hlower port (le_refl port))
    obtain ⟨intf, dest, hintf, hdest⟩ := ingressSelector_of_read ((hread hport).trans hsome)
    obtain ⟨egress, egress', hget, hegress'⟩ :=
      egressSelector_of_lt L regs hport
    refine ⟨config, ⟨port, intf, dest⟩, ⟨port, egress'⟩, rfl, ?_, ?_, ?_, ?_⟩
    . rw [hingress, List.getElem?_map, hshown]
      simp [ingressEntry, hread hport, hsome, ingressSelector, hintf, hdest]
    . rw [hsome]
      simp [ingressSelector, hintf, hdest]
    . rw [hegress, List.getElem?_map, hshown]
      simp [egressEntry, hget, egressSelector, hegress']
    . rw [← h.getEgressSelector hvalid hport, hget]
      simp [egressSelector, hegress']
  . intro hreadable
    have hok := hall.mpr hreadable
    refine ⟨if_pos hok, config, rfl, ?_⟩
    rw [hbypass hok, ← h.getBypassMode hvalid, hmode]
  . rintro ⟨port, hport, hnone⟩
    apply if_neg
    intro hok
    exact hall.mp hok port hport hnone

end Reading

theorem flatMap_accepted_valid (reqs : List SwitchConfigRequest) (n i : Nat)
    : ∀ setting ∈ reqs.flatMap fun req => req.accepted n i, setting.Valid := by
  intro setting hmem
  obtain ⟨req, _, hmem⟩ := List.mem_flatMap.mp hmem
  exact req.accepted_valid n i setting hmem

theorem getDevice_devId (L : Layout) (devId : Nat) (regs : Regs)
    : (getDevice L devId regs).devId = devId := by
  unfold getDevice
  split
  . split <;> rfl
  . rfl

-- What is read of a device comes in one response
theorem mem_getSwitchConfig_iff {L : Layout} {req : SwitchConfigRequest} {devices : List Regs}
    {i : Nat} {regs : Regs} (hregs : devices[i]? = some regs)
    (hreq : req.devId < 0 ∨ req.devId = i) (resp : SwitchConfigResponse)
    : resp ∈ getSwitchConfig L req devices ∧ resp.devId = i ↔ resp = getDevice L i regs := by
  have hlt : i < devices.length := (List.getElem?_eq_some_iff.mp hregs).1
  have hrange : ¬ req.devId > (devices.length : Int) - 1 := by omega
  unfold getSwitchConfig
  rw [if_neg hrange, List.mem_filterMap]
  simp only [mem_selectDevices hrange, Option.map_eq_some_iff]
  constructor
  . rintro ⟨⟨j, _, regs', hregs', rfl⟩, hdev⟩
    rw [getDevice_devId] at hdev
    subst hdev
    rw [Option.some.inj (hregs'.symm.trans hregs)]
  . rintro rfl
    exact ⟨⟨i, ⟨hlt, hreq⟩, regs, hregs, rfl⟩, getDevice_devId L i regs⟩

-- After any requests, a device holds what the accepted settings make of it, a port that was set has
-- one of its inputs dropped, and the last settings are read back
theorem setSwitchConfigs_spec (L : Layout) (devices : List Regs) (i : Nat) {initial : Regs}
    (hinitial : devices[i]? = some initial) (reqs : List SwitchConfigRequest)
    : let settings := reqs.flatMap fun req => req.accepted devices.length i
      let regs := settings.foldl L.apply initial
      (setSwitchConfigs L reqs devices)[i]? = some regs ∧
        L.Reflects initial regs settings ∧
        (∀ port < nports, lastSome (Setting.ingressOf port) settings ≠ none →
          readIngress L initial settings port ≠ none ∧
            (Switch.getIngressMux L regs port .PHYSICAL = some .DROP ∨
              Switch.getIngressMux L regs port .TEST = some .DROP)) ∧
        ∀ req : SwitchConfigRequest, req.devId < 0 ∨ req.devId = i →
          ∃ resp, Reports L initial settings resp ∧
            ∀ resp', resp' ∈ getSwitchConfig L req (setSwitchConfigs L reqs devices) ∧
              resp'.devId = i ↔ resp' = resp := by
  intro settings regs
  have hvalid := flatMap_accepted_valid reqs devices.length i
  have hreflects : L.Reflects initial regs settings := Layout.reflects_foldl hvalid initial
  have hregs : (setSwitchConfigs L reqs devices)[i]? = some regs := by
    rw [setSwitchConfigs_getElem?, hinitial]
    rfl
  refine ⟨hregs, hreflects, ?_, ?_⟩
  . intro port hport hset
    refine ⟨?_, hreflects.exclusive hport hset⟩
    obtain ⟨⟨intf, dest⟩, hlast⟩ := Option.ne_none_iff_exists'.mp hset
    unfold readIngress
    rw [hlast]
    cases dest <;> simp
  . intro req hreq
    refine ⟨getDevice L i regs, getDevice_reports hreflects hvalid i, ?_⟩
    exact mem_getSwitchConfig_iff hregs hreq

def exampleLayout : Layout :=
  { muxNum := 4, muxValue := ⟨0, 2, by decide⟩, bypass := 0, drop := 1, app := 2
    port0 := ⟨0, 1, by decide⟩, port1 := ⟨1, 1, by decide⟩, swapPaths := ⟨0, 1, by decide⟩
    muxNum_le := by decide
    bypass_fits := by unfold RegField.Fits; decide
    drop_fits := by unfold RegField.Fits; decide
    app_fits := by unfold RegField.Fits; decide
    bypass_ne_drop := by decide
    bypass_ne_app := by decide
    drop_ne_app := by decide
    port0_width := rfl
    port1_width := rfl
    swapPaths_width := rfl
    ports_disjoint := by unfold RegField.Disjoint; decide }

-- The multiplexers of port 0 hold the selection that none of the destinations has
def unknownRegs : Regs :=
  { muxOutSel := fun tid => if tid = numPorts then 3 else 1, demuxOutSel := 0, bypassConfig := 0 }

def setPort1 : SwitchConfigRequest :=
  { devId := 0
    config := some ⟨[⟨1, .SW_INTF_PHYSICAL, .SW_DEST_APP⟩], [], .SW_BYPASS_UNKNOWN⟩ }

def setPort0 : SwitchConfigRequest :=
  { devId := -1
    config := some ⟨[⟨0, .SW_INTF_TEST, .SW_DEST_BYPASS⟩], [⟨0, .SW_INTF_TEST⟩], .SW_BYPASS_SWAP⟩ }

-- Both ports are told once both are set
theorem setSwitchConfigs_spec_bothPorts
    : ∃ resp config,
        (∀ resp', resp' ∈ getSwitchConfig exampleLayout ⟨0, none⟩
            (setSwitchConfigs exampleLayout [setPort1, setPort0] [unknownRegs]) ∧
              resp'.devId = 0 ↔ resp' = resp) ∧
          resp.errorCode = .EC_OK ∧ resp.config = some config ∧
          config.ingressSelectors[0]? = some ⟨0, .SW_INTF_TEST, .SW_DEST_BYPASS⟩ ∧
          config.ingressSelectors[1]? = some ⟨1, .SW_INTF_PHYSICAL, .SW_DEST_APP⟩ ∧
          config.egressSelectors[0]? = some ⟨0, .SW_INTF_TEST⟩ ∧
          config.egressSelectors[1]? = some ⟨1, .SW_INTF_PHYSICAL⟩ ∧
          config.bypassMode = .SW_BYPASS_SWAP := by
  obtain ⟨resp, hreports, hresp⟩ :=
    (setSwitchConfigs_spec exampleLayout [unknownRegs] 0 rfl [setPort1, setPort0]).2.2.2 ⟨0, none⟩
      (.inr rfl)
  obtain ⟨hok, config, hconfig, hmode⟩ := hreports.complete (by decide)
  obtain ⟨config₀, ingress₀, egress₀, hconfig₀, hingress₀, hread₀, hegress₀, heread₀⟩ :=
    hreports.port 0 (by decide) (by decide)
  obtain ⟨config₁, ingress₁, egress₁, hconfig₁, hingress₁, hread₁, hegress₁, heread₁⟩ :=
    hreports.port 1 (by decide) (by decide)
  cases Option.some.inj (hconfig₀.symm.trans hconfig)
  cases Option.some.inj (hconfig₁.symm.trans hconfig)
  refine ⟨resp, _, hresp, hok, hconfig, ?_, ?_, ?_, ?_, ?_⟩
  . rw [hingress₀, ← hread₀]
    decide
  . rw [hingress₁, ← hread₁]
    decide
  . rw [hegress₀, ← heread₀]
    decide
  . rw [hegress₁, ← heread₁]
    decide
  . apply Option.some.inj
    rw [hmode]
    decide

-- Port 1 is set and is not told, since port 0 was never set and cannot be read
theorem setPort1_not_reported
    : lastSome (Setting.ingressOf 1) (setPort1.accepted 1 0) = some (.PHYSICAL, .APP) ∧
        getSwitchConfig exampleLayout ⟨0, none⟩
          (setSwitchConfigs exampleLayout [setPort1] [unknownRegs]) =
            [⟨.EC_FAILED_GET_IGR_SEL, 0, some ⟨[], [], .SW_BYPASS_UNKNOWN⟩⟩] := by
  decide

end SnCfg.SwitchAgent
