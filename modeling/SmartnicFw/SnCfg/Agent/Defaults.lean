import SmartnicFw.SnCfg.Agent.HostReport
import SmartnicFw.SnCfg.Agent.PortConfig

/-!
This module contains the request that sets the defaults of a device (`defaults.cpp`), and the changes of a
device that it is made of.
-/

namespace SnCfg.Config

open Accepted (Performs)
open Host (HostSetting)
open Qdma (channelMax functionMax functionSetQueues channelSetQueues)

inductive DefaultsErrorCode where
  | EC_OK
  | EC_INVALID_DEVICE_ID
  | EC_UNSUPPORTED_PORT_ID
  | EC_FAILED_SET_HOST_FUNCTION_DMA_QUEUES
  | EC_UNKNOWN_DEFAULTS_PROFILE
  deriving DecidableEq, Repr

structure DefaultsResponse where
  errorCode : DefaultsErrorCode
  devId : Nat
  deriving DecidableEq, Repr

def Device.host (dev : Device) : Host.Device := ⟨dev.qdma, dev.egrFcThresh⟩

def Device.setHost (dev : Device) (host : Host.Device) : Device :=
  { dev with qdma := host.qdma, egrFcThresh := host.egrFcThresh }

section Set

variable (L : Layouts)

-- The loop over the ports from `index` on
def updatePorts (f : Cmac.Regs → Cmac.Regs) (portIds : List Nat) (dev : Device)
    : DefaultsErrorCode × Device :=
  match portIds with
  | [] => (.EC_OK, dev)
  | index :: portIds =>
    if index ≥ numCmacs then
      (.EC_UNSUPPORTED_PORT_ID, dev)
    else
      updatePorts f portIds (dev.setCmac index (f (dev.cmac index)))

def disablePorts : Device → DefaultsErrorCode × Device :=
  updatePorts (fun cmac => Cmac.disable L.cmac (Cmac.loopbackDisable cmac)) (List.range nports)

def enablePorts : Device → DefaultsErrorCode × Device :=
  updatePorts (fun cmac => Cmac.enable L.cmac (Cmac.rsfecEnable L.cmac cmac)) (List.range nports)

def defaultHosts (dev : Device) : DefaultsErrorCode × Device :=
  match Host.defaultHosts L.qdma (List.range Host.nhosts) dev.qdma with
  | (.EC_OK, qdma) => (.EC_OK, { dev with qdma := qdma })
  | (_, qdma) => (.EC_FAILED_SET_HOST_FUNCTION_DMA_QUEUES, { dev with qdma := qdma })

def setHostsAndPorts (dev : Device) : DefaultsErrorCode × Device :=
  match defaultHosts L dev with
  | (.EC_OK, dev) => enablePorts L dev
  | (err, dev) => (err, dev)

def setDefaultsOneToOne (dev : Device) : DefaultsErrorCode × Device :=
  match disablePorts L dev with
  | (.EC_OK, dev) =>
    setHostsAndPorts L { dev with switch := Switch.setDefaultsOneToOne L.switch dev.switch }
  | (err, dev) => (err, dev)

def setDefaultsDevice (profile : Host.DefaultsProfile) (devId : Nat) (dev : Device)
    : DefaultsResponse × Device :=
  match profile with
  | .DS_ONE_TO_ONE =>
    let (err, dev) := setDefaultsOneToOne L dev
    (⟨err, devId⟩, dev)
  | .other _ => (⟨.EC_UNKNOWN_DEFAULTS_PROFILE, devId⟩, dev)

def setDefaults (req : Host.DefaultsRequest) (devices : List Device)
    : List DefaultsResponse × List Device :=
  ForSelected.forSelected req.devId ⟨.EC_INVALID_DEVICE_ID, 0⟩ (setDefaultsDevice L req.profile) devices

end Set

-- A change that can be made to a device
inductive Setting where
  | port (portId : Nat) (setting : PortSetting)
  | host (hostId : Nat) (setting : HostSetting)
  | switch (setting : Switch.Setting)
  | switchDefaults
  deriving DecidableEq

def Device.change (L : Layouts) (dev : Device) (setting : Setting) : Device :=
  match setting with
  | .port portId setting => dev.apply L portId setting
  | .host hostId setting => dev.setHost (dev.host.apply L.qdma hostId setting)
  | .switch setting => { dev with switch := L.switch.apply dev.switch setting }
  | .switchDefaults => { dev with switch := Switch.setDefaultsOneToOne L.switch dev.switch }

def offSettings : List Setting :=
  (List.range nports).flatMap fun portId => [.port portId (.loopback false), .port portId (.state false)]

def onSettings : List Setting :=
  (List.range nports).flatMap fun portId => [.port portId (.fec true), .port portId (.state true)]

-- Each host is to have the queue of its own number
def hostDefaults (hostId : Nat) : List Setting :=
  [.host hostId (.queues 0 (BitVec.ofNat 32 hostId) 1), .host hostId (.channel (BitVec.ofNat 32 hostId) 1)]

def hostSettings : List Setting := (List.range Host.nhosts).flatMap hostDefaults

-- Without an entry for its queue in the table of its function, the first host is rejected
def defaultsSettings (L : Layouts) : List (Option Setting) :=
  (offSettings ++ [Setting.switchDefaults]).map some ++
    if 0 < L.qdma.tableSize 0 then
      (hostSettings ++ onSettings).map some
    else
      [some (.host 0 (.hashBase 0 0)), none]

section Settings

variable {L : Layouts}

abbrev PerformsDefaults (L : Layouts) :=
  Performs (fun _ : Device => True) (Device.change L) DefaultsErrorCode.EC_OK

@[simp]
theorem setCmac_cmac (dev : Device) (portId : Nat) (regs : Cmac.Regs)
    : (dev.setCmac portId regs).cmac portId = regs := by
  exact Function.update_self ..

@[simp]
theorem setCmac_setCmac (dev : Device) (portId : Nat) (regs regs' : Cmac.Regs)
    : (dev.setCmac portId regs).setCmac portId regs' = dev.setCmac portId regs' := by
  unfold Device.setCmac
  simp

theorem updatePorts_eq {f g h : Cmac.Regs → Cmac.Regs} {s s' : PortSetting}
    (hf : ∀ cmac, f cmac = h (g cmac))
    (hs : ∀ portId dev, Device.apply L portId dev s = dev.setCmac portId (g (dev.cmac portId)))
    (hs' : ∀ portId dev, Device.apply L portId dev s' = dev.setCmac portId (h (dev.cmac portId)))
    {portIds : List Nat} (hports : ∀ portId ∈ portIds, portId < numCmacs) (dev : Device)
    : updatePorts f portIds dev =
        (.EC_OK, (portIds.flatMap fun portId => [.port portId s, .port portId s']).foldl
          (Device.change L) dev) := by
  induction portIds generalizing dev with
  | nil => rfl
  | cons portId portIds ih =>
    have hport := hports portId List.mem_cons_self
    have hstep : Device.change L (Device.change L dev (.port portId s)) (.port portId s') =
        dev.setCmac portId (f (dev.cmac portId)) := by
      show Device.apply L portId (Device.apply L portId dev s) s' = _
      rw [hs, hs', setCmac_cmac, setCmac_setCmac, hf]
    unfold updatePorts
    rw [if_neg (Nat.not_le_of_lt hport), ih fun portId hmem => hports portId (List.mem_cons_of_mem _ hmem)]
    rw [List.flatMap_cons, List.foldl_append, List.foldl_cons, List.foldl_cons, List.foldl_nil, hstep]

theorem disablePorts_eq (dev : Device)
    : disablePorts L dev = (.EC_OK, offSettings.foldl (Device.change L) dev) := by
  exact updatePorts_eq (g := Cmac.loopbackDisable) (h := Cmac.disable L.cmac) (fun _ => rfl)
    (fun _ _ => rfl) (fun _ _ => rfl) (fun _ => List.mem_range.mp) dev

theorem enablePorts_eq (dev : Device)
    : enablePorts L dev = (.EC_OK, onSettings.foldl (Device.change L) dev) := by
  exact updatePorts_eq (g := Cmac.rsfecEnable L.cmac) (h := Cmac.enable L.cmac) (fun _ => rfl)
    (fun _ _ => rfl) (fun _ _ => rfl) (fun _ => List.mem_range.mp) dev

-- A host's queue and channel
theorem defaultHosts_cons (hsize : 0 < L.qdma.tableSize 0) {hostId : Nat} (hhost : hostId < channelMax)
    (hostIds : List Nat) (dev : Host.Device)
    : Host.defaultHosts L.qdma (hostId :: hostIds) dev.qdma =
        Host.defaultHosts L.qdma hostIds
          ((dev.apply L.qdma hostId (.queues 0 (BitVec.ofNat 32 hostId) 1)).apply L.qdma hostId
            (.channel (BitVec.ofNat 32 hostId) 1)).qdma := by
  have hvalid : ¬ (hostId ≥ channelMax ∨ 0 ≥ functionMax) := by
    have hfunc : ¬ 0 ≥ functionMax := by decide
    omega
  have hfits : ¬ (1 : BitVec 32).toNat > L.qdma.tableSize 0 := by
    have hone : (1 : BitVec 32).toNat = 1 := rfl
    omega
  obtain ⟨regs, hset, _⟩ :=
    Qdma.functionSetQueues_of_fits dev.qdma (BitVec.ofNat 32 hostId) hvalid hfits
  obtain ⟨regs', hchannel, _⟩ := @Host.channelSetQueues_spec L.qdma hostId regs hhost (BitVec.ofNat 32 hostId) 1
  conv_lhs => unfold Host.defaultHosts
  simp only [Host.Device.apply, Host.Device.setQdma, hset, hchannel]

theorem defaultHosts_eq (hsize : 0 < L.qdma.tableSize 0) {hostIds : List Nat}
    (hhosts : ∀ hostId ∈ hostIds, hostId < channelMax) (dev : Device)
    : Host.defaultHosts L.qdma hostIds dev.qdma =
        (.EC_OK, ((hostIds.flatMap hostDefaults).foldl (Device.change L) dev).qdma) := by
  induction hostIds generalizing dev with
  | nil => rfl
  | cons hostId hostIds ih =>
    have hcons := defaultHosts_cons hsize (hhosts hostId List.mem_cons_self) hostIds dev.host
    have hrest := ih (fun hostId hmem => hhosts hostId (List.mem_cons_of_mem _ hmem))
      ((hostDefaults hostId).foldl (Device.change L) dev)
    rw [List.flatMap_cons, List.foldl_append]
    exact hcons.trans hrest

-- The defaults of the hosts are set in the registers of the queues
theorem foldl_hostDefaults (hostIds : List Nat) (dev : Device)
    : (hostIds.flatMap hostDefaults).foldl (Device.change L) dev =
        { dev with qdma := ((hostIds.flatMap hostDefaults).foldl (Device.change L) dev).qdma } := by
  induction hostIds generalizing dev with
  | nil => rfl
  | cons hostId hostIds ih =>
    rw [List.flatMap_cons, List.foldl_append]
    exact (ih ((hostDefaults hostId).foldl (Device.change L) dev)).trans rfl

theorem setHostsAndPorts_eq (hsize : 0 < L.qdma.tableSize 0) (dev : Device)
    : setHostsAndPorts L dev = (.EC_OK, (hostSettings ++ onSettings).foldl (Device.change L) dev) := by
  have hhosts := @defaultHosts_eq L hsize (List.range Host.nhosts) (fun _ => List.mem_range.mp) dev
  have hfold := foldl_hostDefaults (L := L) (List.range Host.nhosts) dev
  have hdev : defaultHosts L dev = (.EC_OK, hostSettings.foldl (Device.change L) dev) := by
    unfold defaultHosts
    rw [hhosts]
    exact congrArg (Prod.mk _) hfold.symm
  unfold setHostsAndPorts
  rw [hdev, List.foldl_append]
  exact enablePorts_eq _

theorem setHostsAndPorts_of_no_table (hsize : ¬ 0 < L.qdma.tableSize 0) (dev : Device)
    : setHostsAndPorts L dev =
        (.EC_FAILED_SET_HOST_FUNCTION_DMA_QUEUES, dev.change L (.host 0 (.hashBase 0 0))) := by
  have hlt : (1 : BitVec 32).toNat > L.qdma.tableSize 0 := by
    have hone : (1 : BitVec 32).toNat = 1 := rfl
    omega
  have hvalid : ¬ (0 ≥ channelMax ∨ 0 ≥ functionMax) := by decide
  have hset := Qdma.functionSetQueues_of_not_fits dev.qdma (BitVec.ofNat 32 0) hvalid hlt
  have hhosts : Host.defaultHosts L.qdma (List.range Host.nhosts) dev.qdma =
      (.EC_FAILED_SET_HOST_FUNCTION_DMA_QUEUES,
        dev.qdma.setQConfig 0 0 (L.qdma.hashBase.set 0 (BitVec.ofNat 32 0))) := by
    have hrange : List.range Host.nhosts = [0, 1] := by decide
    rw [hrange]
    unfold Host.defaultHosts
    rw [hset]
  have hdev : defaultHosts L dev =
      (.EC_FAILED_SET_HOST_FUNCTION_DMA_QUEUES, dev.change L (.host 0 (.hashBase 0 0))) := by
    unfold defaultHosts
    rw [hhosts]
    rfl
  unfold setHostsAndPorts
  rw [hdev]

theorem performs_setHostsAndPorts
    : PerformsDefaults L (setHostsAndPorts L)
        (if 0 < L.qdma.tableSize 0 then (hostSettings ++ onSettings).map some
          else [some (.host 0 (.hashBase 0 0)), none]) := by
  by_cases hsize : 0 < L.qdma.tableSize 0
  . rw [if_pos hsize, ← List.append_nil ((hostSettings ++ onSettings).map some)]
    exact Performs.nil.prepend (fun _ _ _ => trivial) _ fun dev _ => setHostsAndPorts_eq hsize dev
  . have hne : DefaultsErrorCode.EC_FAILED_SET_HOST_FUNCTION_DMA_QUEUES ≠ .EC_OK := by decide
    rw [if_neg hsize]
    exact (Performs.rejected hne []).cons (fun _ _ _ => trivial) fun dev _ =>
      setHostsAndPorts_of_no_table hsize dev

theorem performs_setDefaultsOneToOne
    : PerformsDefaults L (setDefaultsOneToOne L) (defaultsSettings L) := by
  refine performs_setHostsAndPorts.prepend (fun _ _ _ => trivial) (offSettings ++ [.switchDefaults]) ?_
  intro dev _
  unfold setDefaultsOneToOne
  rw [disablePorts_eq, List.foldl_append]
  rfl

end Settings

end SnCfg.Config
