import SmartnicFw.SnCfg.Agent.ConfigRuns

/-!
This module contains what is reported of the ports and of the hosts after a run of the requests that
configure devices.
-/

namespace SnCfg.Config

open ForSelected (Selects selected)
open FlowControl (FcInterface fcGetEgressThreshold)
open Host (HostSetting HostView hostView hostInterface)
open Qdma (channelMax functionMax)

-- What can be read of a port
structure PortView where
  enabled : Bool
  reedSolomon : Bool
  nearEnd : Bool
  threshold : Option (BitVec 32)

def portView (L : Layouts) (portId : Nat) (dev : Device) : PortView where
  enabled := Cmac.isEnabled L.cmac (dev.cmac portId)
  reedSolomon := Cmac.rsfecIsEnabled L.cmac (dev.cmac portId)
  nearEnd := Cmac.loopbackIsEnabled (dev.cmac portId)
  threshold := fcGetEgressThreshold dev.egrFcThresh (portInterface portId)

def PortView.response (devId portId : Nat) (view : PortView) : PortConfigResponse where
  errorCode := if view.threshold.isSome then .EC_OK else .EC_FAILED_GET_PORT_FC_EGR_THRESHOLD
  devId := devId
  portId := portId
  config := some {
    state := if view.enabled then .PORT_STATE_ENABLE else .PORT_STATE_DISABLE
    fec := if view.reedSolomon then .PORT_FEC_REED_SOLOMON else .PORT_FEC_NONE
    loopback := if view.nearEnd then .PORT_LOOPBACK_NEAR_END_PMA else .PORT_LOOPBACK_NONE
    egressThreshold := view.threshold.map fromThreshold }

namespace Setting

def ofPort (portId : Nat) (setting : Setting) : Option PortSetting :=
  match setting with
  | .port id setting => if id = portId then some setting else none
  | _ => none

def ofHost (hostId : Nat) (setting : Setting) : Option HostSetting :=
  match setting with
  | .host id setting => if id = hostId then some setting else none
  | _ => none

end Setting

namespace PortSetting

def stateOf (setting : PortSetting) : Option Bool :=
  match setting with
  | .state enable => some enable
  | _ => none

def fecOf (setting : PortSetting) : Option Bool :=
  match setting with
  | .fec reedSolomon => some reedSolomon
  | _ => none

def loopbackOf (setting : PortSetting) : Option Bool :=
  match setting with
  | .loopback nearEnd => some nearEnd
  | _ => none

def thresholdOf (setting : PortSetting) : Option (BitVec 32) :=
  match setting with
  | .egressThreshold et => some (toThreshold et)
  | _ => none

end PortSetting

-- The last setting of a kind that a port was given
def lastOfPort {V : Type} (portId : Nat) (kind : PortSetting → Option V) (settings : List Setting) : Option V :=
  lastSome (fun setting => (setting.ofPort portId).bind kind) settings

def lastOfHost {V : Type} (hostId : Nat) (kind : HostSetting → Option V) (settings : List Setting) : Option V :=
  lastSome (fun setting => (setting.ofHost hostId).bind kind) settings

def PortView.after (portId : Nat) (settings : List Setting) (view : PortView) : PortView where
  enabled := (lastOfPort portId PortSetting.stateOf settings).getD view.enabled
  reedSolomon := (lastOfPort portId PortSetting.fecOf settings).getD view.reedSolomon
  nearEnd := (lastOfPort portId PortSetting.loopbackOf settings).getD view.nearEnd
  threshold := view.threshold.map fun threshold =>
    (lastOfPort portId PortSetting.thresholdOf settings).getD threshold

def hostViewAfter (L : Layouts) (hostId : Nat) (settings : List Setting) (view : HostView) : HostView where
  queues := fun func =>
    (lastOfHost hostId (HostSetting.queuesOf L.qdma hostId func) settings).getD (view.queues func)
  threshold := view.threshold.map fun threshold =>
    (lastOfHost hostId HostSetting.thresholdOf settings).getD threshold

section Port

variable {L : Layouts} {portId : Nat}

theorem getPort_eq (hport : portId < numCmacs) (devId : Nat) (dev : Device)
    : getPort L devId portId dev = (portView L portId dev).response devId portId := by
  unfold getPort PortView.response portView
  rw [if_neg (Nat.not_le_of_lt hport)]
  dsimp only
  cases fcGetEgressThreshold dev.egrFcThresh (portInterface portId) <;> rfl

theorem setCmac_cmac_of_ne {id : Nat} (h : id ≠ portId) (dev : Device) (regs : Cmac.Regs)
    : (dev.setCmac id regs).cmac portId = dev.cmac portId := by
  exact Function.update_of_ne (Ne.symm h) ..

-- The settings of other ports leave the registers of a port alone
theorem cmac_apply_of_ne {id : Nat} (h : id ≠ portId) (dev : Device) (setting : PortSetting)
    : (dev.apply L id setting).cmac portId = dev.cmac portId := by
  unfold Device.apply
  split
  case h_7 => rfl
  all_goals exact setCmac_cmac_of_ne h ..

-- What a setting makes of the registers of its port
def cmacApply (L : Cmac.Layout) (setting : PortSetting) (cmac : Cmac.Regs) : Cmac.Regs :=
  match setting with
  | .state true => Cmac.enable L cmac
  | .state false => Cmac.disable L cmac
  | .fec true => Cmac.rsfecEnable L cmac
  | .fec false => Cmac.rsfecDisable L cmac
  | .loopback true => Cmac.loopbackEnable cmac
  | .loopback false => Cmac.loopbackDisable cmac
  | .egressThreshold _ => cmac

theorem cmac_apply (dev : Device) (setting : PortSetting)
    : (dev.apply L portId setting).cmac portId = cmacApply L.cmac setting (dev.cmac portId) := by
  unfold Device.apply cmacApply
  split
  case h_7 => rfl
  all_goals exact setCmac_cmac ..

theorem isEnabled_cmacApply (L : Cmac.Layout) (setting : PortSetting) (cmac : Cmac.Regs)
    : Cmac.isEnabled L (cmacApply L setting cmac) = setting.stateOf.getD (Cmac.isEnabled L cmac) := by
  cases setting with
  | state enable => cases enable <;> simp [cmacApply, PortSetting.stateOf]
  | fec reedSolomon => cases reedSolomon <;> rfl
  | loopback nearEnd => cases nearEnd <;> rfl
  | egressThreshold et => rfl

theorem rsfecIsEnabled_cmacApply (L : Cmac.Layout) (setting : PortSetting) (cmac : Cmac.Regs)
    : Cmac.rsfecIsEnabled L (cmacApply L setting cmac) =
        setting.fecOf.getD (Cmac.rsfecIsEnabled L cmac) := by
  cases setting with
  | state enable => cases enable <;> rfl
  | fec reedSolomon => cases reedSolomon <;> simp [cmacApply, PortSetting.fecOf]
  | loopback nearEnd => cases nearEnd <;> rfl
  | egressThreshold et => rfl

theorem loopbackIsEnabled_cmacApply (L : Cmac.Layout) (setting : PortSetting) (cmac : Cmac.Regs)
    : Cmac.loopbackIsEnabled (cmacApply L setting cmac) =
        setting.loopbackOf.getD (Cmac.loopbackIsEnabled cmac) := by
  cases setting with
  | state enable => cases enable <;> rfl
  | fec reedSolomon => cases reedSolomon <;> rfl
  | loopback nearEnd => cases nearEnd <;> simp [cmacApply, PortSetting.loopbackOf]
  | egressThreshold et => rfl

theorem get_change {V : Type} {get : Cmac.Regs → V} {kind : PortSetting → Option V}
    (h : ∀ setting cmac, get (cmacApply L.cmac setting cmac) = (kind setting).getD (get cmac))
    (dev : Device) (setting : Setting)
    : get ((dev.change L setting).cmac portId) =
        ((setting.ofPort portId).bind kind).getD (get (dev.cmac portId)) := by
  cases setting with
  | port id setting =>
    unfold Setting.ofPort
    dsimp only
    by_cases hid : id = portId
    . subst hid
      rw [if_pos rfl, Option.bind_some, ← h]
      exact congrArg get (cmac_apply dev setting)
    . rw [if_neg hid]
      exact congrArg get (cmac_apply_of_ne hid dev setting)
  | _ => rfl

-- A register of a port tells the last setting of its kind
theorem get_foldl {V : Type} {get : Cmac.Regs → V} {kind : PortSetting → Option V}
    (h : ∀ setting cmac, get (cmacApply L.cmac setting cmac) = (kind setting).getD (get cmac))
    (dev : Device) (settings : List Setting)
    : get ((settings.foldl (Device.change L) dev).cmac portId) =
        (lastOfPort portId kind settings).getD (get (dev.cmac portId)) := by
  exact get_foldl_lastSome (Device.change L) (fun dev => get (dev.cmac portId))
    (fun dev setting _ => get_change h dev setting) dev

theorem portInterface_injective {id : Nat} (h : portInterface portId = portInterface id) : id = portId := by
  exact (congrArg FcInterface.index h).symm

theorem portInterface_ne (hostId : Nat) : portInterface portId ≠ hostInterface hostId := by
  intro h
  have htype := congrArg FcInterface.type h
  contradiction

theorem portThreshold_change (dev : Device) (setting : Setting)
    : fcGetEgressThreshold (dev.change L setting).egrFcThresh (portInterface portId) =
        (fcGetEgressThreshold dev.egrFcThresh (portInterface portId)).map fun threshold =>
          ((setting.ofPort portId).bind PortSetting.thresholdOf).getD threshold := by
  cases setting with
  | port id setting =>
    unfold Device.change Setting.ofPort Device.apply
    cases setting with
    | egressThreshold et =>
      dsimp only
      rw [FlowControl.fcGetEgressThreshold_getD_set]
      congr 1
      funext threshold
      by_cases hid : id = portId
      . rw [hid, if_pos rfl, if_pos rfl]
        rfl
      . rw [if_neg hid, if_neg fun h => hid (portInterface_injective h)]
        rfl
    | state enable => cases enable <;> (dsimp only; split <;> simp [PortSetting.thresholdOf, Device.setCmac])
    | fec reedSolomon =>
      cases reedSolomon <;> (dsimp only; split <;> simp [PortSetting.thresholdOf, Device.setCmac])
    | loopback nearEnd =>
      cases nearEnd <;> (dsimp only; split <;> simp [PortSetting.thresholdOf, Device.setCmac])
  | host hostId setting =>
    have happly := @Host.fcGetEgressThreshold_apply L.qdma hostId (portInterface portId) dev.host setting
    rw [if_neg (portInterface_ne hostId)] at happly
    exact happly
  | switch setting => simp [Device.change, Setting.ofPort]
  | switchDefaults => simp [Device.change, Setting.ofPort]

theorem portView_foldl (dev : Device) (settings : List Setting)
    : portView L portId (settings.foldl (Device.change L) dev) =
        (portView L portId dev).after portId settings := by
  unfold portView PortView.after
  dsimp only
  rw [get_foldl (isEnabled_cmacApply L.cmac), get_foldl (rsfecIsEnabled_cmacApply L.cmac),
    get_foldl (loopbackIsEnabled_cmacApply L.cmac)]
  congr 1
  exact get_foldl_map_lastSome (Device.change L)
    (fun dev => fcGetEgressThreshold dev.egrFcThresh (portInterface portId))
    (fun dev setting _ => portThreshold_change dev setting) dev

end Port

section Host

variable {L : Layouts} {hostId : Nat}

theorem hostInterface_injective {id : Nat} (h : hostInterface hostId = hostInterface id) : id = hostId := by
  exact (congrArg FcInterface.index h).symm

theorem hostQueues_change (hhost : hostId < channelMax) {func : Nat} (hfunc : func < functionMax)
    (dev : Device) (setting : Setting)
    : (hostView L.qdma hostId (dev.change L setting).host).queues func =
        ((setting.ofHost hostId).bind (HostSetting.queuesOf L.qdma hostId func)).getD
          ((hostView L.qdma hostId dev.host).queues func) := by
  cases setting with
  | host id setting =>
    unfold Setting.ofHost
    dsimp only
    by_cases hid : id = hostId
    . subst hid
      rw [if_pos rfl]
      exact Host.hostView_queues_apply hhost hfunc dev.host setting
    . rw [if_neg hid]
      exact Host.hostView_queues_congr (Host.apply_igrQConfig_of_ne hid dev.host setting func)
  | port portId setting =>
    apply Host.hostView_queues_congr
    show (Device.apply L portId dev setting).qdma.igrQConfig hostId func = _
    unfold Device.apply
    split <;> rfl
  | switch setting => rfl
  | switchDefaults => rfl

theorem hostThreshold_change (dev : Device) (setting : Setting)
    : (hostView L.qdma hostId (dev.change L setting).host).threshold =
        (hostView L.qdma hostId dev.host).threshold.map fun threshold =>
          ((setting.ofHost hostId).bind HostSetting.thresholdOf).getD threshold := by
  unfold hostView
  dsimp only
  cases setting with
  | host id setting =>
    refine (Host.fcGetEgressThreshold_apply (hostInterface hostId) dev.host setting).trans ?_
    congr 1
    funext threshold
    unfold Setting.ofHost
    dsimp only
    by_cases hid : id = hostId
    . rw [hid, if_pos rfl, if_pos rfl]
      rfl
    . rw [if_neg hid, if_neg fun h => hid (hostInterface_injective h)]
      rfl
  | port portId setting =>
    have happly : fcGetEgressThreshold (dev.apply L portId setting).egrFcThresh (hostInterface hostId) =
        fcGetEgressThreshold dev.egrFcThresh (hostInterface hostId) := by
      unfold Device.apply
      split
      case h_7 et =>
        rw [FlowControl.fcGetEgressThreshold_getD_set]
        simp [(portInterface_ne hostId).symm]
      all_goals rfl
    have hmap : (fcGetEgressThreshold dev.egrFcThresh (hostInterface hostId)).map
        (fun threshold => threshold) = fcGetEgressThreshold dev.egrFcThresh (hostInterface hostId) :=
      Option.map_id'
    exact happly.trans hmap.symm
  | switch setting => simp [Device.change, Device.host, Setting.ofHost]
  | switchDefaults => simp [Device.change, Device.host, Setting.ofHost]

theorem HostView.response_congr {view view' : HostView}
    (hqueues : ∀ func < functionMax, view.queues func = view'.queues func)
    (hthreshold : view.threshold = view'.threshold) (devId hostId : Nat)
    : view.response devId hostId = view'.response devId hostId := by
  have hfunction : ∀ func < functionMax, view.function func = view'.function func := by
    intro func hfunc
    unfold HostView.function
    rw [hqueues func hfunc]
  have hall : (List.range functionMax).map view.function = (List.range functionMax).map view'.function :=
    List.map_congr_left fun func hmem => hfunction func (List.mem_range.mp hmem)
  unfold HostView.response
  rw [hthreshold, hfunction 0 (by decide), hall]

theorem getHost_foldl (hhost : hostId < channelMax) (devId : Nat) (dev : Device) (settings : List Setting)
    : Host.getHost L.qdma devId hostId (settings.foldl (Device.change L) dev).host =
        (hostViewAfter L hostId settings (hostView L.qdma hostId dev.host)).response devId hostId := by
  rw [Host.getHost_eq hhost]
  apply HostView.response_congr
  . intro func hfunc
    exact get_foldl_lastSome (Device.change L)
      (fun dev => (hostView L.qdma hostId dev.host).queues func)
      (fun dev setting _ => hostQueues_change hhost hfunc dev setting) dev
  . exact get_foldl_map_lastSome (Device.change L) (fun dev => (hostView L.qdma hostId dev.host).threshold)
      (fun dev setting _ => hostThreshold_change dev setting) dev

end Host

-- The responses to a request that asks for all that it selects
section Reports

variable {D R : Type} {id : Int} {n : Nat}

theorem mem_outer_iff (invalid : R) (f : Nat → D → List R) (devices : List D) (resp : R)
    : resp ∈ (if id > (devices.length : Int) - 1 then [invalid]
          else (selected id devices.length).flatMap fun i => devices[i]?.elim [] (f i)) ↔
        (id > (devices.length : Int) - 1 ∧ resp = invalid) ∨
          ∃ i dev, devices[i]? = some dev ∧ Selects id i ∧ resp ∈ f i dev := by
  split
  . next hgt =>
    rw [List.mem_singleton]
    constructor
    . exact fun h => .inl ⟨hgt, h⟩
    . rintro (⟨_, rfl⟩ | ⟨i, dev, hget, hsel, _⟩)
      . rfl
      . exact absurd hsel (ForSelected.not_selects hgt (List.getElem?_eq_some_iff.mp hget).1)
  . next hle =>
    rw [List.mem_flatMap]
    constructor
    . rintro ⟨i, hmem, hresp⟩
      obtain ⟨hlt, hsel⟩ := (ForSelected.mem_selected_iff hle).mp hmem
      rw [List.getElem?_eq_getElem hlt] at hresp
      exact .inr ⟨i, devices[i], List.getElem?_eq_getElem hlt, hsel, hresp⟩
    . rintro (⟨hgt, _⟩ | ⟨i, dev, hget, hsel, hresp⟩)
      . exact absurd hgt hle
      . obtain ⟨hlt, _⟩ := List.getElem?_eq_some_iff.mp hget
        refine ⟨i, (ForSelected.mem_selected_iff hle).mpr ⟨hlt, hsel⟩, ?_⟩
        rw [hget]
        exact hresp

theorem mem_inner_iff (invalid : R) (f : Nat → R) (resp : R)
    : resp ∈ (if id > (n : Int) - 1 then [invalid] else (selected id n).map f) ↔
        (id > (n : Int) - 1 ∧ resp = invalid) ∨ ∃ p < n, Selects id p ∧ resp = f p := by
  split
  . next hgt =>
    rw [List.mem_singleton]
    constructor
    . exact fun h => .inl ⟨hgt, h⟩
    . rintro (⟨_, rfl⟩ | ⟨p, hlt, hsel, _⟩)
      . rfl
      . exact absurd hsel (ForSelected.not_selects hgt hlt)
  . next hle =>
    rw [List.mem_map]
    constructor
    . rintro ⟨p, hmem, rfl⟩
      obtain ⟨hlt, hsel⟩ := (ForSelected.mem_selected_iff hle).mp hmem
      exact .inr ⟨p, hlt, hsel, rfl⟩
    . rintro (⟨hgt, _⟩ | ⟨p, hlt, hsel, rfl⟩)
      . exact absurd hgt hle
      . exact ⟨p, (ForSelected.mem_selected_iff hle).mpr ⟨hlt, hsel⟩, rfl⟩

end Reports

-- After any run, a port is reported with the last of each setting that it was given
theorem getPortConfig_reports (L : Layouts) (reqs : List Request) (devices : List Device)
    (req : PortConfigRequest) (resp : PortConfigResponse)
    : resp ∈ getPortConfig L req (run L reqs devices) ↔
        (req.devId > (devices.length : Int) - 1 ∧ resp = ⟨.EC_INVALID_DEVICE_ID, 0, 0, none⟩) ∨
          ∃ i dev, devices[i]? = some dev ∧ Selects req.devId i ∧
            ((req.portId > (nports : Int) - 1 ∧ resp = ⟨.EC_INVALID_PORT_ID, i, 0, none⟩) ∨
              ∃ portId < nports, Selects req.portId portId ∧
                resp = ((portView L portId dev).after portId
                  (log L reqs devices.length dev.egrFcThresh.length i)).response i portId) := by
  unfold getPortConfig
  rw [mem_outer_iff, run_length]
  apply or_congr Iff.rfl
  constructor
  . rintro ⟨i, dev', hget, hsel, hresp⟩
    rw [run_getElem?] at hget
    obtain ⟨dev, hdev, rfl⟩ := Option.map_eq_some_iff.mp hget
    refine ⟨i, dev, hdev, hsel, ?_⟩
    refine ((mem_inner_iff _ _ resp).mp hresp).imp_right ?_
    rintro ⟨portId, hport, hsel', rfl⟩
    refine ⟨portId, hport, hsel', ?_⟩
    rw [getPort_eq hport, portView_foldl]
  . rintro ⟨i, dev, hdev, hsel, hresp⟩
    refine ⟨i, _, by rw [run_getElem?, hdev]; rfl, hsel, ?_⟩
    refine (mem_inner_iff _ _ resp).mpr (hresp.imp_right ?_)
    rintro ⟨portId, hport, hsel', rfl⟩
    refine ⟨portId, hport, hsel', ?_⟩
    rw [getPort_eq hport, portView_foldl]

-- The same for the hosts
theorem getHostConfig_reports (L : Layouts) (reqs : List Request) (devices : List Device)
    (req : Host.HostConfigRequest) (resp : Host.HostConfigResponse)
    : resp ∈ Host.getHostConfig L.qdma req ((run L reqs devices).map Device.host) ↔
        (req.devId > (devices.length : Int) - 1 ∧ resp = ⟨.EC_INVALID_DEVICE_ID, 0, 0, none⟩) ∨
          ∃ i dev, devices[i]? = some dev ∧ Selects req.devId i ∧
            ((req.hostId > (Host.nhosts : Int) - 1 ∧ resp = ⟨.EC_INVALID_HOST_ID, i, 0, none⟩) ∨
              ∃ hostId < Host.nhosts, Selects req.hostId hostId ∧
                resp = (hostViewAfter L hostId (log L reqs devices.length dev.egrFcThresh.length i)
                  (hostView L.qdma hostId dev.host)).response i hostId) := by
  unfold Host.getHostConfig
  rw [mem_outer_iff, List.length_map, run_length]
  apply or_congr Iff.rfl
  constructor
  . rintro ⟨i, host, hget, hsel, hresp⟩
    rw [List.getElem?_map, run_getElem?, Option.map_map] at hget
    obtain ⟨dev, hdev, rfl⟩ := Option.map_eq_some_iff.mp hget
    refine ⟨i, dev, hdev, hsel, ?_⟩
    refine ((mem_inner_iff _ _ resp).mp hresp).imp_right ?_
    rintro ⟨hostId, hhost, hsel', rfl⟩
    exact ⟨hostId, hhost, hsel', getHost_foldl hhost i dev _⟩
  . rintro ⟨i, dev, hdev, hsel, hresp⟩
    refine ⟨i, _, by rw [List.getElem?_map, run_getElem?, hdev]; rfl, hsel, ?_⟩
    refine (mem_inner_iff _ _ resp).mpr (hresp.imp_right ?_)
    rintro ⟨hostId, hhost, hsel', rfl⟩
    exact ⟨hostId, hhost, hsel', (getHost_foldl hhost i dev _).symm⟩

def oneToOneSwitch : SwitchAgent.SwitchConfig where
  ingressSelectors := (List.range nports).map fun port => ⟨port, .SW_INTF_PHYSICAL, .SW_DEST_APP⟩
  egressSelectors := (List.range nports).map fun port => ⟨port, .SW_INTF_PHYSICAL⟩
  bypassMode := .SW_BYPASS_STRAIGHT

section Defaults

variable {L : Layouts}

theorem getDevice_setDefaultsOneToOne (devId : Nat) (regs : Switch.Regs)
    : SwitchAgent.getDevice L.switch devId (Switch.setDefaultsOneToOne L.switch regs) =
        ⟨.EC_OK, devId, some oneToOneSwitch⟩ := by
  have hreflects := Switch.setDefaultsOneToOne_reflects (L := L.switch) regs
  have hvalid := Switch.defaultSettings_valid
  have hingress (port : Nat) (hport : port < Switch.numPorts)
      : Switch.getIngressSelector L.switch (Switch.setDefaultsOneToOne L.switch regs) port =
          some (.PHYSICAL, .APP) := by
    rw [hreflects.getIngressSelector hvalid hport]
    unfold Switch.readIngress
    rw [Switch.ingressOf_defaultSettings hport]
  have hegress (port : Nat) (hport : port < Switch.numPorts)
      : Switch.getEgressSelector L.switch (Switch.setDefaultsOneToOne L.switch regs) port =
          some .PHYSICAL := by
    rw [hreflects.getEgressSelector hvalid hport]
    unfold Switch.readEgress
    rw [Switch.egressOf_defaultSettings hport]
    rfl
  have hbypass : Switch.getBypassMode L.switch (Switch.setDefaultsOneToOne L.switch regs) = .STRAIGHT :=
    hreflects.getBypassMode hvalid
  have hrange : List.range SwitchAgent.nports = [0, 1] := by decide
  unfold SwitchAgent.getDevice
  simp only [hrange, SwitchAgent.getPorts, hingress 0 (by decide), hingress 1 (by decide),
    hegress 0 (by decide), hegress 1 (by decide), hbypass]
  rfl

def Setting.isSwitch (setting : Setting) : Bool :=
  match setting with
  | .switch _ | .switchDefaults => true
  | _ => false

theorem switch_foldl {settings : List Setting} (h : ∀ s ∈ settings, s.isSwitch = false) (dev : Device)
    : (settings.foldl (Device.change L) dev).switch = dev.switch := by
  apply get_foldl_of_keeps (Device.change L) Device.switch
  intro dev setting hmem
  cases setting with
  | port portId setting =>
    show (Device.apply L portId dev setting).switch = dev.switch
    unfold Device.apply
    split <;> rfl
  | host hostId setting => rfl
  | switch setting =>
    have hnot := h _ hmem
    contradiction
  | switchDefaults =>
    have hnot := h _ hmem
    contradiction

theorem accepted_defaultsSettings (h : 0 < L.qdma.tableSize 0)
    : Accepted.accepted (defaultsSettings L) =
        offSettings ++ [Setting.switchDefaults] ++ (hostSettings ++ onSettings) := by
  unfold defaultsSettings
  rw [if_pos h, ← List.map_append, Accepted.accepted_map_some]

theorem accepted_defaultsSettings_of_no_table (h : ¬ 0 < L.qdma.tableSize 0)
    : Accepted.accepted (defaultsSettings L) =
        offSettings ++ [Setting.switchDefaults] ++ [Setting.host 0 (.hashBase 0 0)] := by
  unfold defaultsSettings
  rw [if_neg h, Accepted.accepted_append_of_not_mem (by simp), Accepted.accepted_map_some]
  rfl

-- A host is given its queue and its channel, in this order
theorem lastOfHost_defaults {V : Type} {hostId : Nat} (hhost : hostId < Host.nhosts) (kind : HostSetting → Option V)
    : lastOfHost hostId kind (offSettings ++ [Setting.switchDefaults] ++ (hostSettings ++ onSettings)) =
        (kind (.channel (BitVec.ofNat 32 hostId) 1)).or (kind (.queues 0 (BitVec.ofNat 32 hostId) 1)) := by
  have hoff : lastOfHost hostId kind (offSettings ++ [Setting.switchDefaults]) = none := rfl
  have hon : lastOfHost hostId kind onSettings = none := rfl
  have hlist : hostSettings = [.host 0 (.queues 0 (BitVec.ofNat 32 0) 1), .host 0 (.channel (BitVec.ofNat 32 0) 1),
      .host 1 (.queues 0 (BitVec.ofNat 32 1) 1), .host 1 (.channel (BitVec.ofNat 32 1) 1)] := rfl
  have hhosts : hostId = 0 ∨ hostId = 1 := by
    unfold Host.nhosts at hhost
    omega
  unfold lastOfHost at hoff hon ⊢
  rw [lastSome_append, lastSome_append, hoff, hon, hlist]
  rcases hhosts with rfl | rfl <;> simp [lastSome_cons, Setting.ofHost]

theorem queuesOf_defaults (h : 0 < L.qdma.tableSize 0) {hostId : Nat} (hhost : hostId < Host.nhosts)
    (func : Nat)
    : lastOfHost hostId (HostSetting.queuesOf L.qdma hostId func)
          (offSettings ++ [Setting.switchDefaults] ++ (hostSettings ++ onSettings)) =
        if func = 0 then
          some (BitVec.ofNat 32 hostId &&& (L.qdma.igrBase hostId).ones, 1 &&& (L.qdma.igrNumQ hostId).ones)
        else
          none := by
  have hone : (1 : BitVec 32).toNat ≤ L.qdma.tableSize 0 := h
  have hqueues : HostSetting.queuesOf L.qdma hostId func (.queues 0 (BitVec.ofNat 32 hostId) 1) =
      if 0 = func ∧ (1 : BitVec 32).toNat ≤ L.qdma.tableSize 0 then
        some (BitVec.ofNat 32 hostId &&& (L.qdma.igrBase hostId).ones, 1 &&& (L.qdma.igrNumQ hostId).ones)
      else
        none := rfl
  have hchannel : HostSetting.queuesOf L.qdma hostId func (.channel (BitVec.ofNat 32 hostId) 1) = none := rfl
  rw [lastOfHost_defaults hhost, hqueues, hchannel, Option.none_or]
  by_cases hfunc : func = 0
  . rw [if_pos ⟨hfunc.symm, hone⟩, if_pos hfunc]
  . rw [if_neg fun hand => hfunc hand.1.symm, if_neg hfunc]

-- What is reported of a device that has been set to its defaults
structure OneToOne (L : Layouts) (i : Nat) (before after : Device) : Prop where
  port : ∀ portId < nports, getPort L i portId after =
    PortView.response i portId ⟨true, true, false, (portView L portId before).threshold⟩
  host : ∀ hostId < Host.nhosts, Host.getHost L.qdma i hostId after.host =
    HostView.response i hostId {
      queues := Function.update (hostView L.qdma hostId before.host).queues 0
        (BitVec.ofNat 32 hostId &&& (L.qdma.igrBase hostId).ones, 1 &&& (L.qdma.igrNumQ hostId).ones)
      threshold := (hostView L.qdma hostId before.host).threshold }

-- What is reported of a device that could not be given the queues of its hosts
structure LeftOff (L : Layouts) (i : Nat) (before after : Device) : Prop where
  port : ∀ portId < nports, getPort L i portId after =
    PortView.response i portId
      ⟨false, (portView L portId before).reedSolomon, false, (portView L portId before).threshold⟩
  host : ∀ hostId < Host.nhosts,
    Host.getHost L.qdma i hostId after.host = Host.getHost L.qdma i hostId before.host

theorem foldl_oneToOne (h : 0 < L.qdma.tableSize 0) (i : Nat) (dev : Device)
    : OneToOne L i dev ((Accepted.accepted (defaultsSettings L)).foldl (Device.change L) dev) := by
  rw [accepted_defaultsSettings h]
  constructor
  . intro portId hport
    have hports : portId = 0 ∨ portId = 1 := by
      unfold nports at hport
      omega
    rw [getPort_eq hport, portView_foldl]
    unfold PortView.after
    congr 1
    rcases hports with rfl | rfl <;> congr 1 <;> exact Option.map_id'
  . intro hostId hhost
    rw [getHost_foldl hhost]
    unfold hostViewAfter
    congr 2
    . funext func
      rw [queuesOf_defaults h hhost]
      by_cases hfunc : func = 0
      . rw [hfunc, if_pos rfl, Function.update_self]
        rfl
      . rw [if_neg hfunc, Function.update_of_ne hfunc]
        rfl
    . rw [lastOfHost_defaults hhost]
      exact Option.map_id'

theorem foldl_leftOff (h : ¬ 0 < L.qdma.tableSize 0) (i : Nat) (dev : Device)
    : LeftOff L i dev ((Accepted.accepted (defaultsSettings L)).foldl (Device.change L) dev) := by
  rw [accepted_defaultsSettings_of_no_table h]
  constructor
  . intro portId hport
    have hports : portId = 0 ∨ portId = 1 := by
      unfold nports at hport
      omega
    rw [getPort_eq hport, portView_foldl]
    unfold PortView.after
    congr 1
    rcases hports with rfl | rfl <;> congr 1 <;> exact Option.map_id'
  . intro hostId hhost
    have hnone {V : Type} (kind : HostSetting → Option V) (hkind : kind (.hashBase 0 0) = none)
        : lastOfHost hostId kind (offSettings ++ [Setting.switchDefaults] ++
            [Setting.host 0 (.hashBase 0 0)]) = none := by
      unfold lastOfHost
      rw [lastSome_concat]
      have hlast : ((Setting.host 0 (.hashBase 0 0)).ofHost hostId).bind kind = none := by
        unfold Setting.ofHost
        dsimp only
        split
        . exact hkind
        . rfl
      rw [hlast]
      rfl
    have hview : hostViewAfter L hostId (offSettings ++ [Setting.switchDefaults] ++
        [Setting.host 0 (.hashBase 0 0)]) (hostView L.qdma hostId dev.host) = hostView L.qdma hostId dev.host := by
      unfold hostViewAfter
      rw [hnone _ rfl]
      congr 1
      . funext func
        rw [hnone _ rfl]
        rfl
      . exact Option.map_id'
    rw [getHost_foldl hhost, Host.getHost_eq hhost, hview]

theorem switch_foldl_defaults (dev : Device)
    : ((Accepted.accepted (defaultsSettings L)).foldl (Device.change L) dev).switch =
        Switch.setDefaultsOneToOne L.switch dev.switch := by
  have hfirst : ((offSettings ++ [Setting.switchDefaults]).foldl (Device.change L) dev).switch =
      Switch.setDefaultsOneToOne L.switch dev.switch := by
    rw [List.foldl_concat]
    show Switch.setDefaultsOneToOne L.switch _ = _
    rw [switch_foldl (by decide)]
  by_cases h : 0 < L.qdma.tableSize 0
  . rw [accepted_defaultsSettings h, List.foldl_append, switch_foldl (by decide), hfirst]
  . rw [accepted_defaultsSettings_of_no_table h, List.foldl_append, switch_foldl (by decide), hfirst]

end Defaults

-- The defaults are answered EC_OK where the hosts can have a queue, and are then reported whatever the device
-- was set to. Otherwise the ports are left disabled.
theorem setDefaults_reported (L : Layouts) (devices : List Device) {req : Host.DefaultsRequest} {i : Nat}
    {dev : Device} (hdev : devices[i]? = some dev) (hsel : Selects req.devId i)
    (hprofile : req.profile = .DS_ONE_TO_ONE)
    : ∃ dev', (setDefaults L req devices).2[i]? = some dev' ∧
        SwitchAgent.getDevice L.switch i dev'.switch = ⟨.EC_OK, i, some oneToOneSwitch⟩ ∧
        (0 < L.qdma.tableSize 0 → ⟨.EC_OK, i⟩ ∈ (setDefaults L req devices).1 ∧ OneToOne L i dev dev') ∧
        (¬ 0 < L.qdma.tableSize 0 →
          ⟨.EC_FAILED_SET_HOST_FUNCTION_DMA_QUEUES, i⟩ ∈ (setDefaults L req devices).1 ∧
            LeftOff L i dev dev') := by
  have hresp : (setDefaultsDevice L req.profile i dev).1 ∈ (setDefaults L req devices).1 := by
    unfold setDefaults
    exact (ForSelected.mem_forSelected_iff _ _ _ _ _).mpr (.inr ⟨i, dev, hdev, hsel, rfl⟩)
  have hanswer : (setDefaultsDevice L req.profile i dev).1 = ⟨(setDefaultsOneToOne L dev).1, i⟩ := by
    rw [hprofile]
    rfl
  have hafter : (setDefaults L req devices).2[i]? =
      some ((Accepted.accepted (defaultsSettings L)).foldl (Device.change L) dev) := by
    rw [setDefaults_getElem?, hdev]
    unfold defaultsRequestSettings
    rw [if_pos ⟨hsel, hprofile⟩]
    rfl
  rw [hanswer] at hresp
  refine ⟨_, hafter, ?_, ?_, ?_⟩
  . rw [switch_foldl_defaults]
    exact getDevice_setDefaultsOneToOne i dev.switch
  . intro h
    refine ⟨?_, foldl_oneToOne h i dev⟩
    have hok : (setDefaultsOneToOne L dev).1 = .EC_OK := by
      rw [performs_setDefaultsOneToOne.answer dev trivial]
      unfold defaultsSettings
      rw [if_pos h]
      simp
    rw [hok] at hresp
    exact hresp
  . intro h
    refine ⟨?_, foldl_leftOff h i dev⟩
    have herr : (setDefaultsOneToOne L dev).1 = .EC_FAILED_SET_HOST_FUNCTION_DMA_QUEUES := by
      unfold setDefaultsOneToOne
      rw [disablePorts_eq]
      dsimp only
      rw [setHostsAndPorts_of_no_table h]
    rw [herr] at hresp
    exact hresp

def bitAt (shift : Fin 32) : RegField 32 := ⟨shift, 1, shift.isLt⟩

theorem bitAt_disjoint {shift shift' : Fin 32} (h : shift < shift') : (bitAt shift').Disjoint (bitAt shift) := by
  exact .inr h

def exampleCmacLayout : Cmac.Layout where
  ctlRxEnable := bitAt 0
  ctlTxEnable := bitAt 0
  ctlRxRsfecIeeeErrIndMode := bitAt 2
  ctlRxRsfecEnInd := bitAt 1
  ctlRxRsfecEnCor := bitAt 0
  ctlTxRsfecEnable := bitAt 1
  ctlRxRsfecEnable := bitAt 0
  usrTxReset := bitAt 31
  usrRxReset := bitAt 30
  ctlRxEnable_width := rfl
  ctlTxEnable_width := rfl
  ctlTxRsfecEnable_width := rfl
  ctlRxRsfecEnable_width := rfl
  rsfec_disjoint := bitAt_disjoint Nat.zero_lt_one

def exampleLayouts : Layouts where
  cmac := exampleCmacLayout
  switch := SwitchAgent.exampleLayout
  qdma := Qdma.exampleLayout

def zeroDevice : Device where
  cmac := fun _ => ⟨0, 0, 0, 0, 0, 0⟩
  switch := SwitchAgent.unknownRegs
  qdma := Qdma.zeroRegs
  egrFcThresh := [0, 0, 0, 0]

-- A card on which no function has an entry in its table
def noTableLayouts : Layouts where
  cmac := exampleCmacLayout
  switch := SwitchAgent.exampleLayout
  qdma := { Qdma.exampleLayout with tableSize := fun _ => 0, tableSize_le := fun _ => Nat.zero_le _ }

theorem setDefaults_reported_zeroDevice
    : (∃ dev', (setDefaults exampleLayouts ⟨-1, .DS_ONE_TO_ONE⟩ [zeroDevice]).2[0]? = some dev' ∧
        SwitchAgent.getDevice exampleLayouts.switch 0 dev'.switch = ⟨.EC_OK, 0, some oneToOneSwitch⟩ ∧
        ⟨.EC_OK, 0⟩ ∈ (setDefaults exampleLayouts ⟨-1, .DS_ONE_TO_ONE⟩ [zeroDevice]).1 ∧
        OneToOne exampleLayouts 0 zeroDevice dev') ∧
      ∃ dev', (setDefaults noTableLayouts ⟨0, .DS_ONE_TO_ONE⟩ [zeroDevice]).2[0]? = some dev' ∧
        SwitchAgent.getDevice noTableLayouts.switch 0 dev'.switch = ⟨.EC_OK, 0, some oneToOneSwitch⟩ ∧
        ⟨.EC_FAILED_SET_HOST_FUNCTION_DMA_QUEUES, 0⟩ ∈
          (setDefaults noTableLayouts ⟨0, .DS_ONE_TO_ONE⟩ [zeroDevice]).1 ∧
        LeftOff noTableLayouts 0 zeroDevice dev' := by
  have hdefaults := @setDefaults_reported exampleLayouts [zeroDevice] ⟨-1, .DS_ONE_TO_ONE⟩ 0 zeroDevice rfl
    (.inl (by decide)) rfl
  have hnoTable := @setDefaults_reported noTableLayouts [zeroDevice] ⟨0, .DS_ONE_TO_ONE⟩ 0 zeroDevice rfl
    (.inr rfl) rfl
  obtain ⟨dev', hdev', hswitch, hok, -⟩ := hdefaults
  obtain ⟨dev'', hdev'', hswitch', -, hfailed⟩ := hnoTable
  refine ⟨⟨dev', hdev', hswitch, hok (by decide)⟩, dev'', hdev'', hswitch', hfailed ?_⟩
  exact Nat.lt_irrefl 0

end SnCfg.Config
