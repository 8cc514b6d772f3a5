import SmartnicFw.SnCfg.Agent.Defaults
import SmartnicFw.SnCfg.Agent.SwitchRuns

/-!
This module contains runs of the requests that configure devices, the settings that they make in each
device, and what is reported of the ports and of the hosts after them.
-/

namespace SnCfg.Config

open Accepted (Performs accepted)
open ForSelected (Selects selected)
open Host (HostSetting HostView hostView)
open Qdma (channelMax functionMax)

inductive Request where
  | port (req : PortConfigRequest)
  | switch (req : SwitchAgent.SwitchConfigRequest)
  | host (req : Host.HostConfigRequest)
  | defaults (req : Host.DefaultsRequest)
  deriving DecidableEq

inductive Response where
  | port (resp : PortConfigResponse)
  | switch (resp : SwitchAgent.SwitchConfigResponse)
  | host (resp : Host.Response)
  | defaults (resp : DefaultsResponse)
  deriving DecidableEq

-- A handler that is about one part of the devices
def onPart {P R : Type} (get : Device → P) (put : Device → P → Device) (f : List P → List R × List P)
    (devices : List Device)
    : List R × List Device :=
  let (resps, parts) := f (devices.map get)
  (resps, List.zipWith put devices parts)

def Device.setSwitch (dev : Device) (switch : Switch.Regs) : Device := { dev with switch := switch }

def setSwitchConfig (L : Layouts) (req : SwitchAgent.SwitchConfigRequest) (devices : List Device)
    : List SwitchAgent.SwitchConfigResponse × List Device :=
  onPart Device.switch Device.setSwitch (SwitchAgent.setSwitchConfig L.switch req) devices

def setHostConfig (L : Layouts) (req : Host.HostConfigRequest) (devices : List Device)
    : List Host.Response × List Device :=
  onPart Device.host Device.setHost (Host.setHostConfig L.qdma req) devices

def handle (L : Layouts) (req : Request) (devices : List Device) : List Response × List Device :=
  match req with
  | .port req => ((setPortConfig L req devices).1.map .port, (setPortConfig L req devices).2)
  | .switch req => ((setSwitchConfig L req devices).1.map .switch, (setSwitchConfig L req devices).2)
  | .host req => ((setHostConfig L req devices).1.map .host, (setHostConfig L req devices).2)
  | .defaults req => ((setDefaults L req devices).1.map .defaults, (setDefaults L req devices).2)

def run (L : Layouts) (reqs : List Request) (devices : List Device) : List Device :=
  reqs.foldl (fun devices req => (handle L req devices).2) devices

-- An id that is too large selects nothing
def chosen (id : Int) (n : Nat) : List Nat := if id > (n : Int) - 1 then [] else selected id n

section Settings

variable (L : Layouts) (n i : Nat)

def PortConfigRequest.settings (req : PortConfigRequest) : List Setting :=
  if Selects req.devId i then
    req.config.elim [] fun config => (chosen req.portId nports).flatMap fun portId =>
      (accepted (config.settings n portId)).map (.port portId)
  else
    []

def hostRequestSettings (req : Host.HostConfigRequest) : List (Nat × HostSetting) :=
  if Selects req.devId i then
    req.config.elim [] fun config => (chosen req.hostId Host.nhosts).flatMap fun hostId =>
      (accepted (config.settings L.qdma n hostId)).map (Prod.mk hostId)
  else
    []

def defaultsRequestSettings (req : Host.DefaultsRequest) : List Setting :=
  if Selects req.devId i ∧ req.profile = .DS_ONE_TO_ONE then accepted (defaultsSettings L) else []

-- What a request sets in device `i` of `num` ones, with `n` thresholds
def Request.settings (num : Nat) (req : Request) : List Setting :=
  match req with
  | .port req => req.settings n i
  | .switch req => (req.accepted num i).map .switch
  | .host req => (hostRequestSettings L n i req).map fun s => .host s.1 s.2
  | .defaults req => defaultsRequestSettings L i req

end Settings

section Device

variable {L : Layouts} {n i : Nat}

theorem length_change (dev : Device) (setting : Setting) (h : dev.egrFcThresh.length = n)
    : (dev.change L setting).egrFcThresh.length = n := by
  cases setting with
  | port portId setting => exact length_apply dev setting h
  | host hostId setting => exact Host.length_apply dev.host setting h
  | switch setting => exact h
  | switchDefaults => exact h

theorem portLoop_snd (config : PortConfig) (devId : Nat) (portIds : List Nat) (dev : Device)
    : (portLoop L config devId portIds dev).2 =
        portIds.foldl (fun dev portId => (setPort L config portId dev).2) dev := by
  induction portIds generalizing dev with
  | nil => rfl
  | cons portId portIds ih => exact ih _

theorem hostLoop_snd {L : Qdma.Layout} (config : Host.HostConfig) (devId : Nat) (hostIds : List Nat)
    (dev : Host.Device)
    : (Host.hostLoop L config devId hostIds dev).2 =
        hostIds.foldl (fun dev hostId => (Host.setHost L hostId config dev).2) dev := by
  induction hostIds generalizing dev with
  | nil => rfl
  | cons hostId hostIds ih => exact ih _

theorem mem_chosen_iff {id : Int} : i ∈ chosen id n ↔ i < n ∧ Selects id i := by
  unfold chosen
  split
  . next hgt =>
    simp only [List.not_mem_nil, false_iff, not_and]
    exact ForSelected.not_selects hgt
  . next hle => exact ForSelected.mem_selected_iff hle

theorem setPorts_snd (req : PortConfigRequest) (config : PortConfig) (devId : Nat) (dev : Device)
    : (setPorts L req config devId dev).2 =
        ((chosen req.portId nports).flatMap fun portId =>
          (accepted (config.settings dev.egrFcThresh.length portId)).map (Setting.port portId)).foldl
            (Device.change L) dev := by
  have hloop : (setPorts L req config devId dev).2 =
      (chosen req.portId nports).foldl (fun dev portId => (setPort L config portId dev).2) dev := by
    unfold setPorts chosen
    split
    . rfl
    . exact portLoop_snd ..
  have hruns : ∀ portId ∈ chosen req.portId nports,
      PerformsPort L dev.egrFcThresh.length portId (setPort L config portId)
        (config.settings dev.egrFcThresh.length portId) :=
    fun portId hmem => performs_setPort (mem_chosen_iff.mp hmem).1 config
  rw [hloop]
  exact Performs.foldl_run hruns length_change rfl

theorem setHosts_snd {L : Qdma.Layout} (req : Host.HostConfigRequest) (config : Host.HostConfig) (devId : Nat)
    (dev : Host.Device)
    : (Host.setDevice L req config devId dev).2 =
        ((chosen req.hostId Host.nhosts).flatMap fun hostId =>
          (accepted (config.settings L dev.egrFcThresh.length hostId)).map (Prod.mk hostId)).foldl
            (fun dev s => dev.apply L s.1 s.2) dev := by
  have hloop : (Host.setDevice L req config devId dev).2 =
      (chosen req.hostId Host.nhosts).foldl (fun dev hostId => (Host.setHost L hostId config dev).2) dev := by
    unfold Host.setDevice chosen
    split
    . rfl
    . exact hostLoop_snd ..
  have hruns : ∀ hostId ∈ chosen req.hostId Host.nhosts,
      Host.PerformsHost L dev.egrFcThresh.length hostId (Host.setHost L hostId config)
        (config.settings L dev.egrFcThresh.length hostId) :=
    fun hostId hmem => Host.performs_setHost (mem_chosen_iff.mp hmem).1 config
  have hkeeps (d : Host.Device) (s : Nat × HostSetting)
      (h : d.egrFcThresh.length = dev.egrFcThresh.length)
      : (d.apply L s.1 s.2).egrFcThresh.length = dev.egrFcThresh.length := Host.length_apply d s.2 h
  rw [hloop]
  exact Performs.foldl_run hruns hkeeps rfl

end Device

section Devices

variable {L : Layouts} {i : Nat}

theorem setPortConfig_getElem? (req : PortConfigRequest) (devices : List Device) (i : Nat)
    : (setPortConfig L req devices).2[i]? =
        devices[i]?.map fun dev => (req.settings dev.egrFcThresh.length i).foldl (Device.change L) dev := by
  unfold setPortConfig PortConfigRequest.settings
  by_cases hrange : req.devId > (devices.length : Int) - 1
  . rw [if_pos hrange]
    cases hget : devices[i]? with
    | none => simp
    | some dev =>
      have hnot := ForSelected.not_selects hrange (List.getElem?_eq_some_iff.mp hget).1
      simp [hnot]
  . rw [if_neg hrange]
    cases req.config with
    | none => simp
    | some config =>
      dsimp only
      rw [updateEach_getElem? (ForSelected.nodup_selected _ _)]
      cases hget : devices[i]? with
      | none => simp
      | some dev =>
        have hlt := (List.getElem?_eq_some_iff.mp hget).1
        simp only [ForSelected.mem_selected_iff hrange, hlt, true_and, Option.map_some, Option.elim_some]
        by_cases hsel : Selects req.devId i
        . rw [if_pos hsel, if_pos hsel, setPorts_snd]
        . rw [if_neg hsel, if_neg hsel]
          rfl

theorem setPortConfig_length (req : PortConfigRequest) (devices : List Device)
    : (setPortConfig L req devices).2.length = devices.length := by
  unfold setPortConfig
  split
  . rfl
  . split
    . rfl
    . exact updateEach_length _ _

theorem setDefaultsDevice_snd (req : Host.DefaultsRequest) (devId : Nat) (dev : Device)
    : (setDefaultsDevice L req.profile devId dev).2 =
        (if req.profile = .DS_ONE_TO_ONE then accepted (defaultsSettings L) else []).foldl
          (Device.change L) dev := by
  unfold setDefaultsDevice
  cases req.profile with
  | DS_ONE_TO_ONE => exact performs_setDefaultsOneToOne.state dev trivial
  | other value => rfl

theorem setDefaults_getElem? (req : Host.DefaultsRequest) (devices : List Device) (i : Nat)
    : (setDefaults L req devices).2[i]? =
        devices[i]?.map fun dev => (defaultsRequestSettings L i req).foldl (Device.change L) dev := by
  unfold setDefaults defaultsRequestSettings
  rw [ForSelected.forSelected_getElem?]
  by_cases hsel : Selects req.devId i
  . simp only [hsel, if_true, true_and, setDefaultsDevice_snd]
  . simp [hsel]

theorem setDefaults_length (req : Host.DefaultsRequest) (devices : List Device)
    : (setDefaults L req devices).2.length = devices.length := by
  unfold setDefaults
  exact ForSelected.length_forSelected ..

-- All devices that the loop is about are there
theorem deviceLoop_eq (f : Nat → Host.Device → List Host.Response × Host.Device) {devIds : List Nat}
    {devices : List Host.Device} (h : ∀ devId ∈ devIds, devId < devices.length)
    : Host.deviceLoop f devIds devices =
        ((updateEach f devIds devices).1.flatten, (updateEach f devIds devices).2) := by
  induction devIds generalizing devices with
  | nil => rfl
  | cons devId devIds ih =>
    obtain ⟨dev, hget⟩ : ∃ dev, devices[devId]? = some dev :=
      ⟨_, List.getElem?_eq_getElem (h devId List.mem_cons_self)⟩
    unfold Host.deviceLoop updateEach
    simp only [hget]
    rw [ih]
    . rfl
    . intro devId' hmem
      rw [List.length_set]
      exact h devId' (List.mem_cons_of_mem _ hmem)

-- How the hosts' part of the request tells an answer. The ports are never unsupported.
def DefaultsResponse.host? (resp : DefaultsResponse) : Option Host.Response :=
  match resp.errorCode with
  | .EC_OK => some ⟨.EC_OK, resp.devId, 0⟩
  | .EC_INVALID_DEVICE_ID => some ⟨.EC_INVALID_DEVICE_ID, resp.devId, 0⟩
  | .EC_FAILED_SET_HOST_FUNCTION_DMA_QUEUES =>
    some ⟨.EC_FAILED_SET_HOST_FUNCTION_DMA_QUEUES, resp.devId, 0⟩
  | .EC_UNKNOWN_DEFAULTS_PROFILE => some ⟨.EC_UNKNOWN_DEFAULTS_PROFILE, resp.devId, 0⟩
  | .EC_UNSUPPORTED_PORT_ID => none

theorem defaultHosts_fst (hostIds : List Nat) (regs : Qdma.Regs)
    : (Host.defaultHosts L.qdma hostIds regs).1 = .EC_OK ∨
        (Host.defaultHosts L.qdma hostIds regs).1 = .EC_FAILED_SET_HOST_FUNCTION_DMA_QUEUES := by
  induction hostIds generalizing regs with
  | nil => exact .inl rfl
  | cons hostId hostIds ih =>
    unfold Host.defaultHosts
    split
    . exact .inr rfl
    . split
      . exact .inr rfl
      . exact ih _

-- Neither the ports nor the switch are in the way of the hosts
theorem setDefaultsOneToOne_host (devId : Nat) (dev : Device)
    : let r := setDefaultsOneToOne L dev
      let r' := Host.defaultHosts L.qdma (List.range Host.nhosts) dev.qdma
      DefaultsResponse.host? ⟨r.1, devId⟩ = some ⟨r'.1, devId, 0⟩ ∧
        r.2.host = { dev.host with qdma := r'.2 } := by
  intro r r'
  have hr : r = setHostsAndPorts L
      ((offSettings ++ [Setting.switchDefaults]).foldl (Device.change L) dev) := by
    show setDefaultsOneToOne L dev = _
    unfold setDefaultsOneToOne
    rw [disablePorts_eq, List.foldl_append]
    rfl
  have hr' : Host.defaultHosts L.qdma (List.range Host.nhosts)
      ((offSettings ++ [Setting.switchDefaults]).foldl (Device.change L) dev).qdma = r' := rfl
  rw [hr]
  unfold setHostsAndPorts defaultHosts
  rw [hr']
  have herr : r'.1 = .EC_OK ∨ r'.1 = .EC_FAILED_SET_HOST_FUNCTION_DMA_QUEUES := defaultHosts_fst _ _
  obtain ⟨err, qdma⟩ := r'
  rcases herr with rfl | rfl
  . dsimp only
    rw [enablePorts_eq]
    exact ⟨rfl, rfl⟩
  . exact ⟨rfl, rfl⟩

theorem setDefaultsDevice_host (profile : Host.DefaultsProfile) (devId : Nat) (dev : Device)
    : Host.setDefaultsDevice L.qdma profile devId dev.host =
        ((setDefaultsDevice L profile devId dev).1.host?.toList,
          (setDefaultsDevice L profile devId dev).2.host) := by
  cases profile with
  | DS_ONE_TO_ONE =>
    obtain ⟨hresp, hdev⟩ := setDefaultsOneToOne_host (L := L) devId dev
    exact Prod.ext (congrArg Option.toList hresp).symm hdev.symm
  | other value => rfl

-- The defaults of the hosts alone are those of the whole devices, as far as the hosts go
theorem setDefaults_host (req : Host.DefaultsRequest) (devices : List Device)
    : Host.setDefaults L.qdma req (devices.map Device.host) =
        ((setDefaults L req devices).1.filterMap DefaultsResponse.host?,
          (setDefaults L req devices).2.map Device.host) := by
  unfold Host.setDefaults setDefaults ForSelected.forSelected
  rw [List.length_map]
  split
  . rfl
  . next hrange =>
    have hids : ∀ devId ∈ selected req.devId devices.length,
        devId < (devices.map Device.host).length := by
      intro devId hmem
      rw [List.length_map]
      exact ((ForSelected.mem_selected_iff hrange).mp hmem).1
    have hsel : Host.selectDevices req.devId (devices.map Device.host) =
        selected req.devId devices.length := by
      unfold Host.selectDevices selected
      rw [List.length_map]
    have hmap := updateEach_map Device.host (fun resp => (DefaultsResponse.host? resp).toList)
      (setDefaultsDevice_host (L := L) req.profile) (selected req.devId devices.length) devices
    rw [hsel, deviceLoop_eq _ hids, hmap, ← List.flatMap_def, ← List.filterMap_eq_flatMap_toList]

theorem setHostConfig_getElem? (req : Host.HostConfigRequest) (devices : List Host.Device) (i : Nat)
    : (Host.setHostConfig L.qdma req devices).2[i]? =
        devices[i]?.map fun dev => (hostRequestSettings L dev.egrFcThresh.length i req).foldl
          (fun dev s => dev.apply L.qdma s.1 s.2) dev := by
  unfold Host.setHostConfig hostRequestSettings
  by_cases hrange : req.devId > (devices.length : Int) - 1
  . rw [if_pos hrange]
    cases hget : devices[i]? with
    | none => simp
    | some dev =>
      have hnot := ForSelected.not_selects hrange (List.getElem?_eq_some_iff.mp hget).1
      simp [hnot]
  . rw [if_neg hrange]
    cases req.config with
    | none => simp
    | some config =>
      have hsel : Host.selectDevices req.devId devices = selected req.devId devices.length := rfl
      have hids : ∀ devId ∈ selected req.devId devices.length, devId < devices.length :=
        fun devId hmem => ((ForSelected.mem_selected_iff hrange).mp hmem).1
      dsimp only
      rw [hsel, deviceLoop_eq _ hids, updateEach_getElem? (ForSelected.nodup_selected _ _)]
      cases hget : devices[i]? with
      | none => simp
      | some dev =>
        have hlt := (List.getElem?_eq_some_iff.mp hget).1
        simp only [ForSelected.mem_selected_iff hrange, hlt, true_and, Option.map_some, Option.elim_some]
        by_cases hsel : Selects req.devId i
        . rw [if_pos hsel, if_pos hsel, setHosts_snd]
        . rw [if_neg hsel, if_neg hsel]
          rfl

theorem setHostConfig_length (req : Host.HostConfigRequest) (devices : List Host.Device)
    : (Host.setHostConfig L.qdma req devices).2.length = devices.length := by
  unfold Host.setHostConfig
  split
  . rfl
  . next hrange =>
    split
    . rfl
    . rw [deviceLoop_eq]
      . exact updateEach_length _ _
      . intro devId hmem
        exact ((ForSelected.mem_selected_iff hrange).mp hmem).1

section Part

variable {P R : Type} (get : Device → P) (put : Device → P → Device) {f : List P → List R × List P}
variable {devices : List Device}

theorem onPart_getElem? {g : P → P} (h : (f (devices.map get)).2[i]? = (devices.map get)[i]?.map g)
    : (onPart get put f devices).2[i]? = devices[i]?.map fun dev => put dev (g (get dev)) := by
  unfold onPart
  dsimp only
  rw [List.getElem?_zipWith, h, List.getElem?_map]
  cases devices[i]? <;> rfl

theorem onPart_length (h : (f (devices.map get)).2.length = (devices.map get).length)
    : (onPart get put f devices).2.length = devices.length := by
  unfold onPart
  dsimp only
  rw [List.length_zipWith, h, List.length_map, Nat.min_self]

end Part

theorem foldl_setSwitch (settings : List Switch.Setting) (dev : Device)
    : (settings.map Setting.switch).foldl (Device.change L) dev =
        dev.setSwitch (settings.foldl L.switch.apply dev.switch) := by
  induction settings generalizing dev with
  | nil => rfl
  | cons s settings ih => exact ih _

theorem foldl_setHost (settings : List (Nat × HostSetting)) (dev : Device)
    : (settings.map fun s => .host s.1 s.2).foldl (Device.change L) dev =
        dev.setHost (settings.foldl (fun dev s => dev.apply L.qdma s.1 s.2) dev.host) := by
  induction settings generalizing dev with
  | nil => rfl
  | cons s settings ih => exact ih _

-- What one request leaves in a device
theorem handle_getElem? (req : Request) (devices : List Device) (i : Nat)
    : (handle L req devices).2[i]? =
        devices[i]?.map fun dev =>
          (req.settings L dev.egrFcThresh.length i devices.length).foldl (Device.change L) dev := by
  cases req with
  | port req => exact setPortConfig_getElem? req devices i
  | switch req =>
    have hswitch := @SwitchAgent.setSwitchConfig_getElem? L.switch req (devices.map Device.switch) i
    rw [List.length_map] at hswitch
    refine (onPart_getElem? Device.switch Device.setSwitch hswitch).trans ?_
    congr 1
    funext dev
    exact (foldl_setSwitch _ dev).symm
  | host req =>
    have hhost := @setHostConfig_getElem? L req (devices.map Device.host) i
    refine (onPart_getElem? Device.host Device.setHost hhost).trans ?_
    congr 1
    funext dev
    exact (foldl_setHost _ dev).symm
  | defaults req => exact setDefaults_getElem? req devices i

theorem handle_length (req : Request) (devices : List Device)
    : (handle L req devices).2.length = devices.length := by
  cases req with
  | port req => exact setPortConfig_length req devices
  | switch req =>
    exact onPart_length Device.switch Device.setSwitch (SwitchAgent.setSwitchConfig_length req _)
  | host req => exact onPart_length Device.host Device.setHost (setHostConfig_length req _)
  | defaults req => exact setDefaults_length req devices

end Devices

-- The settings that a run makes in device `i`
def log (L : Layouts) (reqs : List Request) (num n i : Nat) : List Setting :=
  reqs.flatMap (Request.settings L n i num)

theorem run_getElem? (L : Layouts) (reqs : List Request) (devices : List Device) (i : Nat)
    : (run L reqs devices)[i]? =
        devices[i]?.map fun dev =>
          (log L reqs devices.length dev.egrFcThresh.length i).foldl (Device.change L) dev := by
  unfold run log
  induction reqs generalizing devices with
  | nil => simp
  | cons req reqs ih =>
    rw [List.foldl_cons, ih, handle_getElem?, handle_length, Option.map_map]
    congr 1
    funext dev
    have hlen : ((req.settings L dev.egrFcThresh.length i devices.length).foldl (Device.change L)
        dev).egrFcThresh.length = dev.egrFcThresh.length :=
      Accepted.foldl_keeps length_change (req.settings L dev.egrFcThresh.length i devices.length) rfl
    rw [List.flatMap_cons, List.foldl_append]
    show (reqs.flatMap (Request.settings L _ i devices.length)).foldl _ _ = _
    rw [hlen]

theorem run_length (L : Layouts) (reqs : List Request) (devices : List Device)
    : (run L reqs devices).length = devices.length := by
  unfold run
  induction reqs generalizing devices with
  | nil => rfl
  | cons req reqs ih => rw [List.foldl_cons, ih, handle_length]

end SnCfg.Config
