import SmartnicFw.SnCfg.Agent.Auth

/-!
This module contains the configuration of the server (`server.cpp` and the constructor of `agent.cpp`):
the flags that it starts with, the requests that set and get them, and the collection of statistics on
the devices that it switches on and off with them.
-/

namespace SnCfg.ServerAgent

inductive ErrorCode where
  | EC_OK
  | EC_SERVER_INVALID_DEBUG_FLAG
  | EC_SERVER_INVALID_CONTROL_STATS_FLAG
  deriving DecidableEq, Repr

-- Values that the enumerations do not name are received as they are
inductive ServerDebugFlag where
  | DEBUG_FLAG_UNKNOWN
  | DEBUG_FLAG_BATCH
  | DEBUG_FLAG_STATS
  | other (value : Int)
  deriving DecidableEq, Repr

inductive ServerControlStatsFlag where
  | CTRL_STATS_FLAG_UNKNOWN
  | CTRL_STATS_FLAG_DOMAIN_COUNTERS
  | CTRL_STATS_FLAG_DOMAIN_MONITORS
  | CTRL_STATS_FLAG_DOMAIN_MODULES
  | CTRL_STATS_FLAG_ZONE_CARD_MONITORS
  | CTRL_STATS_FLAG_ZONE_SYSMON_MONITORS
  | CTRL_STATS_FLAG_ZONE_HOST_COUNTERS
  | CTRL_STATS_FLAG_ZONE_PORT_COUNTERS
  | CTRL_STATS_FLAG_ZONE_SWITCH_COUNTERS
  | CTRL_STATS_FLAG_ZONE_MODULE_MONITORS
  | other (value : Int)
  deriving DecidableEq, Repr

namespace ServerDebugFlag

-- `ServerDebugFlag_IsValid`
def isValid : ServerDebugFlag → Bool
  | other _ => false
  | _ => true

-- The valid flags from `ServerDebugFlag_MIN + 1` to `ServerDebugFlag_MAX`
def all : List ServerDebugFlag := [DEBUG_FLAG_BATCH, DEBUG_FLAG_STATS]

end ServerDebugFlag

namespace ServerControlStatsFlag

def all : List ServerControlStatsFlag :=
  [CTRL_STATS_FLAG_DOMAIN_COUNTERS, CTRL_STATS_FLAG_DOMAIN_MONITORS, CTRL_STATS_FLAG_DOMAIN_MODULES,
    CTRL_STATS_FLAG_ZONE_CARD_MONITORS, CTRL_STATS_FLAG_ZONE_SYSMON_MONITORS,
    CTRL_STATS_FLAG_ZONE_HOST_COUNTERS, CTRL_STATS_FLAG_ZONE_PORT_COUNTERS,
    CTRL_STATS_FLAG_ZONE_SWITCH_COUNTERS, CTRL_STATS_FLAG_ZONE_MODULE_MONITORS]

end ServerControlStatsFlag

def debugFlagLabel (flag : ServerDebugFlag) : String :=
  match flag with
  | .DEBUG_FLAG_BATCH => "BATCH"
  | .DEBUG_FLAG_STATS => "STATS"
  | _ => "UNKNOWN"

def statsFlagLabel (flag : ServerControlStatsFlag) : String :=
  match flag with
  | .CTRL_STATS_FLAG_DOMAIN_COUNTERS => "DOMAIN_COUNTERS"
  | .CTRL_STATS_FLAG_DOMAIN_MONITORS => "DOMAIN_MONITORS"
  | .CTRL_STATS_FLAG_DOMAIN_MODULES => "DOMAIN_MODULES"
  | .CTRL_STATS_FLAG_ZONE_CARD_MONITORS => "ZONE_CARD_MONITORS"
  | .CTRL_STATS_FLAG_ZONE_SYSMON_MONITORS => "ZONE_SYSMON_MONITORS"
  | .CTRL_STATS_FLAG_ZONE_HOST_COUNTERS => "ZONE_HOST_COUNTERS"
  | .CTRL_STATS_FLAG_ZONE_PORT_COUNTERS => "ZONE_PORT_COUNTERS"
  | .CTRL_STATS_FLAG_ZONE_SWITCH_COUNTERS => "ZONE_SWITCH_COUNTERS"
  | .CTRL_STATS_FLAG_ZONE_MODULE_MONITORS => "ZONE_MODULE_MONITORS"
  | _ => "UNKNOWN"

inductive DeviceStatsDomain where
  | COUNTERS
  | MONITORS
  | MODULES
  deriving DecidableEq, Repr

inductive DeviceStatsZone where
  | CARD_MONITORS
  | SYSMON_MONITORS
  | HOST_COUNTERS
  | PORT_COUNTERS
  | SWITCH_COUNTERS
  | MODULE_MONITORS
  deriving DecidableEq, Repr

-- A zone, with the domain that it is attached to
structure DeviceStats where
  name : String
  domain : DeviceStatsDomain
  enabled : Bool
  deriving DecidableEq, Repr

-- Which domains are running, and the zones of each kind
structure Device where
  busId : Bytes
  nhosts : Nat
  nports : Nat
  domains : DeviceStatsDomain → Bool
  zones : DeviceStatsZone → List DeviceStats

structure Server where
  debugFlags : ServerDebugFlag → Bool
  statsFlags : ServerControlStatsFlag → Bool
  devices : List Device

-- The zones of a device that its running domains update
def Device.collects (dev : Device) (zone : DeviceStats) : Bool := dev.domains zone.domain && zone.enabled

section Startup

def toLower (c : UInt8) : UInt8 := if 0x41 ≤ c ∧ c ≤ 0x5a then c + 0x20 else c

def optionName (label : Bytes) : Bytes :=
  (label.map toLower).map fun c => if c = 0x5f then 0x2d else c

def isNamed (flag label : Bytes) : Bool := flag = label || flag = optionName label

-- The loop over the names in `init_server_debug`, which is there once for each kind of flags
def setNamed [DecidableEq F] (ids : List F) (label : F → String) (on : Bool) (names : List Bytes)
    (flags : F → Bool)
    : F → Bool :=
  match names with
  | [] => flags
  | flag :: names =>
    if flag = bytes "all" then
      ids.foldl (fun flags id => Function.update flags id on) flags
    else
      match ids.find? fun id => isNamed flag (bytes (label id)) with
      | some id => setNamed ids label on names (Function.update flags id on)
      | none => setNamed ids label on names flags

def initServerDebug (debugFlags statsFlagsDisable : List Bytes) : Server where
  debugFlags := setNamed ServerDebugFlag.all debugFlagLabel true debugFlags fun _ => false
  statsFlags :=
    setNamed ServerControlStatsFlag.all statsFlagLabel false statsFlagsDisable
      (ServerControlStatsFlag.all.foldl (fun flags id => Function.update flags id true) fun _ => false)
  devices := []

-- A zone is enabled when it is attached to its domain
def statsZoneAlloc (domain : DeviceStatsDomain) (name : String) : DeviceStats := ⟨name, domain, true⟩

def initZone (statsFlags : ServerControlStatsFlag → Bool) (flag : ServerControlStatsFlag)
    (domain : DeviceStatsDomain) (zone : DeviceStatsZone) (name : String) (dev : Device)
    : Device :=
  let stats := statsZoneAlloc domain name
  let stats := if statsFlags flag then stats else { stats with enabled := false }
  { dev with zones := Function.update dev.zones zone (dev.zones zone ++ [stats]) }

variable (statsFlags : ServerControlStatsFlag → Bool)

def initDevice (dev : Device) : Device :=
  let dev := (List.range 3).foldl (fun dev n =>
    initZone statsFlags .CTRL_STATS_FLAG_ZONE_SYSMON_MONITORS .MONITORS .SYSMON_MONITORS
      ("sysmon" ++ toString n) dev) dev
  initZone statsFlags .CTRL_STATS_FLAG_ZONE_CARD_MONITORS .MONITORS .CARD_MONITORS "card" dev

def initHost (dev : Device) : Device :=
  (List.range dev.nhosts).foldl (fun dev hostId =>
    initZone statsFlags .CTRL_STATS_FLAG_ZONE_HOST_COUNTERS .COUNTERS .HOST_COUNTERS
      ("host" ++ toString hostId) dev) dev

def initModule (dev : Device) : Device :=
  (List.range dev.nports).foldl (fun dev modId =>
    initZone statsFlags .CTRL_STATS_FLAG_ZONE_MODULE_MONITORS .MODULES .MODULE_MONITORS
      ("module" ++ toString modId) dev) dev

def initPort (dev : Device) : Device :=
  (List.range dev.nports).foldl (fun dev portId =>
    initZone statsFlags .CTRL_STATS_FLAG_ZONE_PORT_COUNTERS .COUNTERS .PORT_COUNTERS
      ("port" ++ toString portId) dev) dev

def initSwitch (dev : Device) : Device :=
  initZone statsFlags .CTRL_STATS_FLAG_ZONE_SWITCH_COUNTERS .COUNTERS .SWITCH_COUNTERS "switch" dev

-- The flag that the constructor looks at for each domain
def domainFlag (dom : DeviceStatsDomain) : ServerControlStatsFlag :=
  match dom with
  | .COUNTERS => .CTRL_STATS_FLAG_DOMAIN_COUNTERS
  | .MONITORS => .CTRL_STATS_FLAG_DOMAIN_MONITORS
  | .MODULES => .CTRL_STATS_FLAG_DOMAIN_MODULES

-- `stats_domain_start` and `stats_domain_stop`, of which nothing is left to do when they return
def Device.startDomain (dev : Device) (dom : DeviceStatsDomain) : Device :=
  { dev with domains := Function.update dev.domains dom true }

def Device.stopDomain (dev : Device) (dom : DeviceStatsDomain) : Device :=
  { dev with domains := Function.update dev.domains dom false }

def newDevice (busId : Bytes) : Device :=
  let dev : Device :=
    { busId := busId, nhosts := 2, nports := 2, domains := fun _ => false, zones := fun _ => [] }
  let dev := initDevice statsFlags dev
  let dev := initHost statsFlags dev
  let dev := initModule statsFlags dev
  let dev := initPort statsFlags dev
  let dev := initSwitch statsFlags dev
  [DeviceStatsDomain.COUNTERS, .MONITORS, .MODULES].foldl (fun dev dom =>
    if statsFlags (domainFlag dom) then dev.startDomain dom else dev) dev

-- The constructor
def Server.new (busIds debugFlags statsFlagsDisable : List Bytes) : Server :=
  let server := initServerDebug debugFlags statsFlagsDisable
  { server with devices := busIds.map (newDevice server.statsFlags) }

end Startup

section Requests

structure ServerDebug where
  enables : List ServerDebugFlag
  disables : List ServerDebugFlag
  deriving DecidableEq, Repr

structure ServerControlStats where
  enables : List ServerControlStatsFlag
  disables : List ServerControlStatsFlag
  deriving DecidableEq, Repr

structure ServerControl where
  stats : Option ServerControlStats
  deriving DecidableEq, Repr

structure ServerConfig where
  debug : Option ServerDebug
  control : Option ServerControl
  deriving DecidableEq, Repr

structure ServerConfigRequest where
  config : Option ServerConfig
  deriving DecidableEq, Repr

structure ServerConfigResponse where
  errorCode : ErrorCode
  config : Option ServerConfig
  deriving DecidableEq, Repr

def getServerConfig (server : Server) : ServerConfigResponse :=
  { errorCode := .EC_OK
    config := some
      { debug := some
          { enables := ServerDebugFlag.all.filter (server.debugFlags ·)
            disables := ServerDebugFlag.all.filter (!server.debugFlags ·) }
        control := some
          { stats := some
              { enables := ServerControlStatsFlag.all.filter (server.statsFlags ·)
                disables := ServerControlStatsFlag.all.filter (!server.statsFlags ·) } } } }

def convertServerControlStatsFlag (flag : ServerControlStatsFlag)
    : Option (DeviceStatsDomain ⊕ DeviceStatsZone) :=
  match flag with
  | .CTRL_STATS_FLAG_DOMAIN_COUNTERS => some (.inl .COUNTERS)
  | .CTRL_STATS_FLAG_DOMAIN_MONITORS => some (.inl .MONITORS)
  | .CTRL_STATS_FLAG_DOMAIN_MODULES => some (.inl .MODULES)
  | .CTRL_STATS_FLAG_ZONE_CARD_MONITORS => some (.inr .CARD_MONITORS)
  | .CTRL_STATS_FLAG_ZONE_SYSMON_MONITORS => some (.inr .SYSMON_MONITORS)
  | .CTRL_STATS_FLAG_ZONE_HOST_COUNTERS => some (.inr .HOST_COUNTERS)
  | .CTRL_STATS_FLAG_ZONE_PORT_COUNTERS => some (.inr .PORT_COUNTERS)
  | .CTRL_STATS_FLAG_ZONE_SWITCH_COUNTERS => some (.inr .SWITCH_COUNTERS)
  | .CTRL_STATS_FLAG_ZONE_MODULE_MONITORS => some (.inr .MODULE_MONITORS)
  | .CTRL_STATS_FLAG_UNKNOWN | .other _ => none

-- `stats_zone_enable` and `stats_zone_disable` on every zone of a kind
def Device.setZones (dev : Device) (zone : DeviceStatsZone) (enable : Bool) : Device :=
  let zones := (dev.zones zone).map fun stats => { stats with enabled := enable }
  { dev with zones := Function.update dev.zones zone zones }

def applyServerControlStatsFlag (flag : ServerControlStatsFlag) (enable : Bool) (server : Server)
    : ErrorCode × Server :=
  match convertServerControlStatsFlag flag with
  | none => (.EC_SERVER_INVALID_CONTROL_STATS_FLAG, server)
  | some target =>
    let server := { server with statsFlags := Function.update server.statsFlags flag enable }
    match target with
    | .inl domain =>
      let set (dev : Device) := if enable then dev.startDomain domain else dev.stopDomain domain
      (.EC_OK, { server with devices := server.devices.map set })
    | .inr zone =>
      let set (dev : Device) := dev.setZones zone enable
      (.EC_OK, { server with devices := server.devices.map set })

def applyServerDebugFlag (flag : ServerDebugFlag) (enable : Bool) (server : Server)
    : ErrorCode × Server :=
  if flag.isValid then
    (.EC_OK, { server with debugFlags := Function.update server.debugFlags flag enable })
  else
    (.EC_SERVER_INVALID_DEBUG_FLAG, server)

-- A loop over flags. The first one that is not valid ends the request.
def applyFlags (apply : F → Bool → Server → ErrorCode × Server) (flags : List F) (enable : Bool)
    (server : Server)
    : ErrorCode × Server :=
  match flags with
  | [] => (.EC_OK, server)
  | flag :: flags =>
    match apply flag enable server with
    | (.EC_OK, server) => applyFlags apply flags enable server
    | (err, server) => (err, server)

def applyServerDebug (dbg : ServerDebug) (server : Server) : ErrorCode × Server :=
  match applyFlags applyServerDebugFlag dbg.enables true server with
  | (.EC_OK, server) => applyFlags applyServerDebugFlag dbg.disables false server
  | (err, server) => (err, server)

def applyServerControlStats (stats : ServerControlStats) (server : Server) : ErrorCode × Server :=
  match applyFlags applyServerControlStatsFlag stats.enables true server with
  | (.EC_OK, server) => applyFlags applyServerControlStatsFlag stats.disables false server
  | (err, server) => (err, server)

def applyServerControl (ctrl : ServerControl) (server : Server) : ErrorCode × Server :=
  match ctrl.stats with
  | none => (.EC_OK, server)
  | some stats => applyServerControlStats stats server

def applyServerConfig (config : ServerConfig) (server : Server) : ErrorCode × Server :=
  match config.debug.elim (.EC_OK, server) (applyServerDebug · server) with
  | (.EC_OK, server) => config.control.elim (.EC_OK, server) (applyServerControl · server)
  | (err, server) => (err, server)

-- A request without a configuration is handled like one with an empty configuration
def setServerConfig (req : ServerConfigRequest) (server : Server) : ServerConfigResponse × Server :=
  let (err, server) := applyServerConfig (req.config.getD ⟨none, none⟩) server
  (⟨err, none⟩, server)

def setServerConfigs (reqs : List ServerConfigRequest) (server : Server) : Server :=
  reqs.foldl (fun server req => (setServerConfig req server).2) server

end Requests

end SnCfg.ServerAgent
