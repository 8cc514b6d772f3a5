import SmartnicFw.Lib.Accepted
import SmartnicFw.SnCfg.Agent.ServerConfig

/-!
This module contains what any number of requests leaves of the configuration of the server: which flags
are reported, and which statistics of the devices are collected with them.
-/

namespace SnCfg.ServerAgent

open Accepted (accepted Performs)

inductive Change where
  | debug (flag : ServerDebugFlag) (on : Bool)
  | stats (flag : ServerControlStatsFlag) (on : Bool)
  deriving DecidableEq, Repr

-- What a flag in a request stands for, unless it is rejected
def debugChange (on : Bool) (flag : ServerDebugFlag) : Option Change :=
  if flag.isValid then some (.debug flag on) else none

def statsChange (on : Bool) (flag : ServerControlStatsFlag) : Option Change :=
  if flag ∈ ServerControlStatsFlag.all then some (.stats flag on) else none

def ServerDebug.changes (dbg : ServerDebug) : List (Option Change) :=
  dbg.enables.map (debugChange true) ++ dbg.disables.map (debugChange false)

def ServerControlStats.changes (stats : ServerControlStats) : List (Option Change) :=
  stats.enables.map (statsChange true) ++ stats.disables.map (statsChange false)

def ServerControl.changes (ctrl : ServerControl) : List (Option Change) :=
  ctrl.stats.elim [] ServerControlStats.changes

def ServerConfigRequest.changes (req : ServerConfigRequest) : List (Option Change) :=
  req.config.elim [] fun config =>
    config.debug.elim [] ServerDebug.changes ++ config.control.elim [] ServerControl.changes

def Server.apply (server : Server) (change : Change) : Server :=
  match change with
  | .debug flag on => { server with debugFlags := Function.update server.debugFlags flag on }
  | .stats flag on => (applyServerControlStatsFlag flag on server).2

-- What a change sets a flag to
def Change.debug? (flag : ServerDebugFlag) : Change → Option Bool
  | .debug flag' on => if flag' = flag then some on else none
  | .stats _ _ => none

def Change.stats? (flag : ServerControlStatsFlag) : Change → Option Bool
  | .debug _ _ => none
  | .stats flag' on => if flag' = flag then some on else none

-- Whether a list of names has a flag with some label in it
def Named (names : List Bytes) (label : String) : Prop :=
  bytes "all" ∈ names ∨ bytes label ∈ names ∨ optionName (bytes label) ∈ names

instance (names : List Bytes) (label : String) : Decidable (Named names label) :=
  inferInstanceAs (Decidable (_ ∨ _))

-- The changes that a number of requests makes to any server
def changes (reqs : List ServerConfigRequest) : List Change := reqs.flatMap fun req => accepted req.changes

-- Whether a flag is on after some changes to a server that has started with some names
def debugOn (names : List Bytes) (changes : List Change) (flag : ServerDebugFlag) : Bool :=
  (lastSome (Change.debug? flag) changes).getD (decide (Named names (debugFlagLabel flag)))

def statsOn (names : List Bytes) (changes : List Change) (flag : ServerControlStatsFlag) : Bool :=
  (lastSome (Change.stats? flag) changes).getD (!decide (Named names (statsFlagLabel flag)))

-- A report of some flags: each of them once, and in the list of its kind
structure Reports [DecidableEq F] (all : List F) (on : F → Bool) (enables disables : List F) : Prop where
  once : (enables ++ disables).Perm all
  enables : ∀ flag ∈ all, flag ∈ enables ↔ on flag = true
  disables : ∀ flag ∈ all, flag ∈ disables ↔ on flag = false

def zoneFlag (zone : DeviceStatsZone) : ServerControlStatsFlag :=
  match zone with
  | .CARD_MONITORS => .CTRL_STATS_FLAG_ZONE_CARD_MONITORS
  | .SYSMON_MONITORS => .CTRL_STATS_FLAG_ZONE_SYSMON_MONITORS
  | .HOST_COUNTERS => .CTRL_STATS_FLAG_ZONE_HOST_COUNTERS
  | .PORT_COUNTERS => .CTRL_STATS_FLAG_ZONE_PORT_COUNTERS
  | .SWITCH_COUNTERS => .CTRL_STATS_FLAG_ZONE_SWITCH_COUNTERS
  | .MODULE_MONITORS => .CTRL_STATS_FLAG_ZONE_MODULE_MONITORS

-- The domain that the zones of a kind are attached to
def zoneDomain (zone : DeviceStatsZone) : DeviceStatsDomain :=
  match zone with
  | .CARD_MONITORS | .SYSMON_MONITORS => .MONITORS
  | .HOST_COUNTERS | .PORT_COUNTERS | .SWITCH_COUNTERS => .COUNTERS
  | .MODULE_MONITORS => .MODULES

def zoneNames (zone : DeviceStatsZone) : List String :=
  match zone with
  | .CARD_MONITORS => ["card"]
  | .SYSMON_MONITORS => ["sysmon0", "sysmon1", "sysmon2"]
  | .HOST_COUNTERS => ["host0", "host1"]
  | .PORT_COUNTERS => ["port0", "port1"]
  | .SWITCH_COUNTERS => ["switch"]
  | .MODULE_MONITORS => ["module0", "module1"]

-- A device whose domains and zones are as the flags say
structure Device.Follows (statsFlags : ServerControlStatsFlag → Bool) (dev : Device) : Prop where
  domain : ∀ dom, dev.domains dom = statsFlags (domainFlag dom)
  zone : ∀ zone, dev.zones zone =
    (zoneNames zone).map fun name => ⟨name, zoneDomain zone, statsFlags (zoneFlag zone)⟩

def Server.Inv (server : Server) : Prop := ∀ dev ∈ server.devices, dev.Follows server.statsFlags

section Convert

variable {flag : ServerControlStatsFlag}

theorem mem_all_iff : flag ∈ ServerControlStatsFlag.all ↔ (convertServerControlStatsFlag flag).isSome := by
  cases flag <;> simp [ServerControlStatsFlag.all, convertServerControlStatsFlag]

theorem convert_eq_inl_iff {dom : DeviceStatsDomain}
    : convertServerControlStatsFlag flag = some (.inl dom) ↔ flag = domainFlag dom := by
  cases flag <;> cases dom <;> simp [convertServerControlStatsFlag, domainFlag]

theorem convert_eq_inr_iff {zone : DeviceStatsZone}
    : convertServerControlStatsFlag flag = some (.inr zone) ↔ flag = zoneFlag zone := by
  cases flag <;> cases zone <;> simp [convertServerControlStatsFlag, zoneFlag]

theorem domainFlag_ne_zoneFlag (dom : DeviceStatsDomain) (zone : DeviceStatsZone)
    : domainFlag dom ≠ zoneFlag zone := by
  cases dom <;> cases zone <;> decide

theorem domainFlag_inj {dom dom' : DeviceStatsDomain} : domainFlag dom = domainFlag dom' ↔ dom = dom' := by
  cases dom <;> cases dom' <;> decide

theorem zoneFlag_inj {zone zone' : DeviceStatsZone} : zoneFlag zone = zoneFlag zone' ↔ zone = zone' := by
  cases zone <;> cases zone' <;> decide

theorem domainFlag_mem_all (dom : DeviceStatsDomain) : domainFlag dom ∈ ServerControlStatsFlag.all := by
  cases dom <;> decide

theorem zoneFlag_mem_all (zone : DeviceStatsZone) : zoneFlag zone ∈ ServerControlStatsFlag.all := by
  cases zone <;> decide

end Convert

section Startup

variable [DecidableEq F] {ids : List F} {label : F → String} {on : Bool}

theorem foldl_update_apply (ids : List F) (on : Bool) (flags : F → Bool) (id : F)
    : ids.foldl (fun flags id => Function.update flags id on) flags id =
        if id ∈ ids then on else flags id := by
  induction ids generalizing flags with
  | nil => rfl
  | cons id' ids ih =>
    rw [List.foldl_cons, ih, Function.update_apply]
    by_cases hmem : id ∈ ids
    . simp [hmem]
    . by_cases hid : id = id'
      . simp [hid]
      . simp [hmem, hid]

theorem isNamed_iff {flag label : Bytes} : isNamed flag label = true ↔ flag ∈ [label, optionName label] := by
  simp [isNamed]

theorem named_cons {flag : Bytes} {names : List Bytes} {label : String}
    : Named (flag :: names) label ↔
        flag = bytes "all" ∨ isNamed flag (bytes label) = true ∨ Named names label := by
  unfold Named
  simp only [List.mem_cons, isNamed_iff, List.not_mem_nil, or_false]
  rw [@eq_comm _ flag (bytes "all"), @eq_comm _ flag (bytes label),
    @eq_comm _ flag (optionName (bytes label))]
  tauto

-- No name is that of two flags
def Distinct (ids : List F) (label : F → String) : Prop :=
  ∀ id ∈ ids, ∀ id' ∈ ids, ∀ name ∈ [bytes (label id), optionName (bytes (label id))],
    name ∈ [bytes (label id'), optionName (bytes (label id'))] → id = id'

theorem distinct_debug : Distinct ServerDebugFlag.all debugFlagLabel := by
  unfold Distinct
  decide +kernel

theorem distinct_stats : Distinct ServerControlStatsFlag.all statsFlagLabel := by
  unfold Distinct
  decide +kernel

-- The order of the names is of no account
theorem setNamed_apply (hdistinct : Distinct ids label) {id : F} (hid : id ∈ ids) (names : List Bytes)
    (flags : F → Bool)
    : setNamed ids label on names flags id = if Named names (label id) then on else flags id := by
  induction names generalizing flags with
  | nil => simp [setNamed, Named]
  | cons flag names ih =>
    unfold setNamed
    by_cases hall : flag = bytes "all"
    . rw [if_pos hall, foldl_update_apply, if_pos hid, if_pos (named_cons.mpr (.inl hall))]
    . rw [if_neg hall]
      simp only [named_cons, hall, false_or]
      cases hfind : ids.find? fun id => isNamed flag (bytes (label id)) with
      | none =>
        have hnot := List.find?_eq_none.mp hfind id hid
        simp only [ih, or_iff_right hnot]
      | some id' =>
        have hnamed := List.find?_some hfind
        have hmem := List.mem_of_find?_eq_some hfind
        simp only [ih]
        by_cases hname : isNamed flag (bytes (label id)) = true
        . have heq := hdistinct id hid id' hmem flag (isNamed_iff.mp hname) (isNamed_iff.mp hnamed)
          simp [heq, hnamed]
        . have hne : id ≠ id' := by
            rintro rfl
            exact hname hnamed
          simp [hname, Function.update_of_ne hne]

variable {busIds debugNames statsNames : List Bytes}

theorem new_debugFlags {flag : ServerDebugFlag} (h : flag ∈ ServerDebugFlag.all)
    : (Server.new busIds debugNames statsNames).debugFlags flag =
        decide (Named debugNames (debugFlagLabel flag)) := by
  unfold Server.new initServerDebug
  simp only [setNamed_apply distinct_debug h]
  by_cases hnamed : Named debugNames (debugFlagLabel flag) <;> simp [hnamed]

theorem new_statsFlags {flag : ServerControlStatsFlag} (h : flag ∈ ServerControlStatsFlag.all)
    : (Server.new busIds debugNames statsNames).statsFlags flag =
        !decide (Named statsNames (statsFlagLabel flag)) := by
  unfold Server.new initServerDebug
  simp only [setNamed_apply distinct_stats h, foldl_update_apply, if_pos h]
  by_cases hnamed : Named statsNames (statsFlagLabel flag) <;> simp [hnamed]

theorem initZone_eq (statsFlags : ServerControlStatsFlag → Bool) (flag : ServerControlStatsFlag)
    (domain : DeviceStatsDomain) (zone : DeviceStatsZone) (name : String) (dev : Device)
    : initZone statsFlags flag domain zone name dev =
        { dev with
          zones := Function.update dev.zones zone
            (dev.zones zone ++ [⟨name, domain, statsFlags flag⟩]) } := by
  unfold initZone statsZoneAlloc
  cases statsFlags flag <;> rfl

-- The loop that starts the domains of a new device
theorem startDomains_eq (statsFlags : ServerControlStatsFlag → Bool) (dev : Device)
    (h : dev.domains = fun _ => false)
    : [DeviceStatsDomain.COUNTERS, .MONITORS, .MODULES].foldl (fun dev dom =>
        if statsFlags (domainFlag dom) then dev.startDomain dom else dev) dev =
          { dev with domains := fun dom => statsFlags (domainFlag dom) } := by
  have hdomains {dev dev' : Device} (h : dev' = { dev with domains := dev'.domains })
      (hdom : ∀ dom, dev'.domains dom = statsFlags (domainFlag dom))
      : dev' = { dev with domains := fun dom => statsFlags (domainFlag dom) } := by
    rw [h]
    exact congrArg (fun domains => { dev with domains := domains }) (funext hdom)
  simp only [List.foldl_cons, List.foldl_nil]
  apply hdomains
  . cases statsFlags (domainFlag .COUNTERS) <;> cases statsFlags (domainFlag .MONITORS) <;>
      cases statsFlags (domainFlag .MODULES) <;> rfl
  . intro dom
    cases dom <;> cases hcounters : statsFlags (domainFlag .COUNTERS) <;>
      cases hmonitors : statsFlags (domainFlag .MONITORS) <;>
      cases hmodules : statsFlags (domainFlag .MODULES) <;>
      simp [Device.startDomain, h]

theorem newDevice_follows (statsFlags : ServerControlStatsFlag → Bool) (busId : Bytes)
    : (newDevice statsFlags busId).Follows statsFlags := by
  unfold newDevice
  simp only
  rw [startDomains_eq]
  . constructor
    . intro dom
      rfl
    . intro zone
      simp only [initSwitch, initPort, initModule, initHost, initDevice, initZone_eq]
      cases zone <;> rfl
  . simp only [initSwitch, initPort, initModule, initHost, initDevice, initZone_eq]
    rfl

theorem newDevice_busId (statsFlags : ServerControlStatsFlag → Bool) (busId : Bytes)
    : (newDevice statsFlags busId).busId = busId := by
  unfold newDevice
  simp only
  rw [startDomains_eq]
  . simp only [initSwitch, initPort, initModule, initHost, initDevice, initZone_eq]
    rfl
  . simp only [initSwitch, initPort, initModule, initHost, initDevice, initZone_eq]
    rfl

end Startup

section Apply

variable {server : Server}

theorem apply_debugFlags (server : Server) (change : Change) (flag : ServerDebugFlag)
    : (server.apply change).debugFlags flag = (change.debug? flag).getD (server.debugFlags flag) := by
  cases change with
  | debug flag' on =>
    simp only [Server.apply, Change.debug?, Function.update_apply, @eq_comm _ flag]
    split <;> rfl
  | stats flag' on =>
    simp only [Server.apply, applyServerControlStatsFlag]
    cases convertServerControlStatsFlag flag' with
    | none => rfl
    | some target => cases target <;> rfl

theorem apply_stats {flag : ServerControlStatsFlag} (h : flag ∈ ServerControlStatsFlag.all) (on : Bool)
    : (applyServerControlStatsFlag flag on server).1 = .EC_OK ∧
        (server.apply (.stats flag on)).statsFlags = Function.update server.statsFlags flag on := by
  obtain ⟨target, htarget⟩ := Option.isSome_iff_exists.mp (mem_all_iff.mp h)
  simp only [Server.apply, applyServerControlStatsFlag, htarget]
  cases target <;> exact ⟨rfl, rfl⟩

theorem apply_stats_of_not_mem {flag : ServerControlStatsFlag} (h : flag ∉ ServerControlStatsFlag.all)
    (on : Bool)
    : applyServerControlStatsFlag flag on server =
        (.EC_SERVER_INVALID_CONTROL_STATS_FLAG, server) := by
  have hnone : convertServerControlStatsFlag flag = none := by
    simpa [mem_all_iff] using h
  simp only [applyServerControlStatsFlag, hnone]

theorem apply_statsFlags (server : Server) (change : Change) {flag : ServerControlStatsFlag}
    (h : flag ∈ ServerControlStatsFlag.all)
    : (server.apply change).statsFlags flag = (change.stats? flag).getD (server.statsFlags flag) := by
  cases change with
  | debug flag' on => rfl
  | stats flag' on =>
    by_cases hmem : flag' ∈ ServerControlStatsFlag.all
    . simp only [(apply_stats hmem on).2, Change.stats?, Function.update_apply, @eq_comm _ flag]
      split <;> rfl
    . have hne : flag' ≠ flag := fun heq => hmem (heq ▸ h)
      simp [Server.apply, apply_stats_of_not_mem hmem, Change.stats?, hne]

theorem follows_setDomain {statsFlags : ServerControlStatsFlag → Bool} {dev : Device}
    (h : dev.Follows statsFlags) (dom : DeviceStatsDomain) (on : Bool)
    : (if on then dev.startDomain dom else dev.stopDomain dom).Follows
        (Function.update statsFlags (domainFlag dom) on) := by
  have hset : (if on then dev.startDomain dom else dev.stopDomain dom) =
      { dev with domains := Function.update dev.domains dom on } := by
    cases on <;> rfl
  rw [hset]
  constructor
  . intro dom'
    simp only [Function.update_apply, domainFlag_inj, h.domain]
  . intro zone
    rw [Function.update_of_ne (domainFlag_ne_zoneFlag dom zone).symm]
    exact h.zone zone

theorem follows_setZones {statsFlags : ServerControlStatsFlag → Bool} {dev : Device}
    (h : dev.Follows statsFlags) (zone : DeviceStatsZone) (on : Bool)
    : (dev.setZones zone on).Follows (Function.update statsFlags (zoneFlag zone) on) := by
  constructor
  . intro dom
    rw [Function.update_of_ne (domainFlag_ne_zoneFlag dom zone)]
    exact h.domain dom
  . intro zone'
    unfold Device.setZones
    by_cases heq : zone' = zone
    . subst heq
      simp [h.zone]
    . rw [Function.update_of_ne (mt zoneFlag_inj.mp heq)]
      simp [Function.update_of_ne heq, h.zone]

-- One change keeps the devices as the flags say
theorem Server.Inv.apply (h : server.Inv) (change : Change) : (server.apply change).Inv := by
  cases change with
  | debug flag on => exact h
  | stats flag on =>
    intro dev hdev
    unfold Server.apply applyServerControlStatsFlag at hdev ⊢
    dsimp only at hdev ⊢
    cases hconvert : convertServerControlStatsFlag flag with
    | none =>
      rw [hconvert] at hdev
      exact h dev hdev
    | some target =>
      rw [hconvert] at hdev
      cases target with
      | inl dom =>
        obtain rfl := convert_eq_inl_iff.mp hconvert
        obtain ⟨dev, hmem, rfl⟩ := List.mem_map.mp hdev
        exact follows_setDomain (h dev hmem) dom on
      | inr zone =>
        obtain rfl := convert_eq_inr_iff.mp hconvert
        obtain ⟨dev, hmem, rfl⟩ := List.mem_map.mp hdev
        exact follows_setZones (h dev hmem) zone on

theorem apply_busIds (server : Server) (change : Change)
    : (server.apply change).devices.map Device.busId = server.devices.map Device.busId := by
  cases change with
  | debug flag on => rfl
  | stats flag on =>
    unfold Server.apply applyServerControlStatsFlag
    dsimp only
    cases convertServerControlStatsFlag flag with
    | none => rfl
    | some target =>
      cases target with
      | inl dom =>
        rw [List.map_map]
        apply List.map_congr_left
        intro dev _
        cases on <;> rfl
      | inr zone =>
        rw [List.map_map]
        rfl

end Apply

section Requests

theorem performs_applyFlags {F : Type} {apply : F → Bool → Server → ErrorCode × Server}
    {change : Bool → F → Option Change} {on : Bool}
    (hsome : ∀ flag c, change on flag = some c → ∀ server, apply flag on server = (.EC_OK, server.apply c))
    (hnone : ∀ flag, change on flag = none →
      ∃ err ≠ .EC_OK, ∀ server, apply flag on server = (err, server))
    (flags : List F)
    : Performs (fun _ => True) Server.apply .EC_OK (applyFlags apply flags on) (flags.map (change on)) := by
  induction flags with
  | nil => exact Performs.nil
  | cons flag flags ih =>
    rw [List.map_cons]
    cases hchange : change on flag with
    | none =>
      obtain ⟨err, hne, happly⟩ := hnone flag hchange
      refine (Performs.rejected hne _).congr ?_
      intro server _
      rw [applyFlags.eq_def]
      dsimp only
      rw [happly]
      cases err <;> first | contradiction | rfl
    | some c =>
      refine ih.cons (fun _ _ _ => trivial) ?_
      intro server _
      rw [applyFlags.eq_def]
      dsimp only
      rw [hsome flag c hchange]

theorem performs_applyServerDebugFlag (on : Bool) (flags : List ServerDebugFlag)
    : Performs (fun _ => True) Server.apply .EC_OK (applyFlags applyServerDebugFlag flags on)
        (flags.map (debugChange on)) := by
  apply performs_applyFlags
  . intro flag c hchange server
    unfold debugChange at hchange
    split at hchange
    next hvalid =>
      cases hchange
      simp [applyServerDebugFlag, hvalid, Server.apply]
    next => cases hchange
  . intro flag hchange
    refine ⟨.EC_SERVER_INVALID_DEBUG_FLAG, by decide, ?_⟩
    intro server
    unfold debugChange at hchange
    split at hchange
    next => cases hchange
    next hvalid => simp [applyServerDebugFlag, hvalid]

theorem performs_applyServerControlStatsFlag (on : Bool) (flags : List ServerControlStatsFlag)
    : Performs (fun _ => True) Server.apply .EC_OK (applyFlags applyServerControlStatsFlag flags on)
        (flags.map (statsChange on)) := by
  apply performs_applyFlags
  . intro flag c hchange server
    unfold statsChange at hchange
    split at hchange
    next hmem =>
      cases hchange
      exact Prod.ext (apply_stats hmem on).1 rfl
    next => cases hchange
  . intro flag hchange
    refine ⟨.EC_SERVER_INVALID_CONTROL_STATS_FLAG, by decide, ?_⟩
    intro server
    unfold statsChange at hchange
    split at hchange
    next => cases hchange
    next hmem => exact apply_stats_of_not_mem hmem on

theorem match_errorCode (r : ErrorCode × Server) (next : Server → ErrorCode × Server)
    : (match r with
        | (.EC_OK, server) => next server
        | (err, server) => (err, server)) =
        if r.1 = .EC_OK then next r.2 else r := by
  obtain ⟨err, server⟩ := r
  cases err <;> rfl

theorem performs_applyServerConfig (config : ServerConfig)
    : Performs (fun _ => True) Server.apply .EC_OK (applyServerConfig config)
        (config.debug.elim [] ServerDebug.changes ++ config.control.elim [] ServerControl.changes) := by
  have hdebug : Performs (fun _ => True) Server.apply .EC_OK
      (fun server => config.debug.elim (.EC_OK, server) (applyServerDebug · server))
      (config.debug.elim [] ServerDebug.changes) := by
    cases config.debug with
    | none => exact Performs.nil
    | some dbg =>
      apply (performs_applyServerDebugFlag true dbg.enables).append
        (performs_applyServerDebugFlag false dbg.disables) fun _ _ _ => trivial
      intro server _
      exact match_errorCode _ _
  have hstats (stats : ServerControlStats)
      : Performs (fun _ => True) Server.apply .EC_OK (applyServerControlStats stats) stats.changes := by
    apply (performs_applyServerControlStatsFlag true stats.enables).append
      (performs_applyServerControlStatsFlag false stats.disables) fun _ _ _ => trivial
    intro server _
    exact match_errorCode _ _
  have hcontrol : Performs (fun _ => True) Server.apply .EC_OK
      (fun server => config.control.elim (.EC_OK, server) (applyServerControl · server))
      (config.control.elim [] ServerControl.changes) := by
    cases config.control with
    | none => exact Performs.nil
    | some ctrl =>
      obtain ⟨stats⟩ := ctrl
      cases stats with
      | none => exact Performs.nil
      | some stats => exact hstats stats
  apply hdebug.append hcontrol fun _ _ _ => trivial
  intro server _
  exact match_errorCode _ _

theorem performs_setServerConfig (req : ServerConfigRequest)
    : Performs (fun _ => True) Server.apply .EC_OK
        (fun server => ((setServerConfig req server).1.errorCode, (setServerConfig req server).2))
        req.changes := by
  unfold ServerConfigRequest.changes setServerConfig
  cases req.config with
  | none => exact performs_applyServerConfig ⟨none, none⟩
  | some config => exact performs_applyServerConfig config

-- A request is answered without an error exactly when none of its flags is rejected
theorem setServerConfig_errorCode (req : ServerConfigRequest) (server : Server)
    : (setServerConfig req server).1.errorCode = .EC_OK ↔ none ∉ req.changes := by
  exact (performs_setServerConfig req).answer server trivial

theorem setServerConfigs_eq (reqs : List ServerConfigRequest) (server : Server)
    : setServerConfigs reqs server = (changes reqs).foldl Server.apply server := by
  unfold setServerConfigs changes
  induction reqs generalizing server with
  | nil => rfl
  | cons req reqs ih =>
    rw [List.foldl_cons, ih, List.flatMap_cons, List.foldl_append]
    congr 1
    exact (performs_setServerConfig req).state server trivial

end Requests

section Runs

variable (busIds debugNames statsNames : List Bytes) (reqs : List ServerConfigRequest)

-- The server after some requests, with the names that it has started with
def after : Server := setServerConfigs reqs (Server.new busIds debugNames statsNames)

theorem after_debugFlags {flag : ServerDebugFlag} (h : flag ∈ ServerDebugFlag.all)
    : (after busIds debugNames statsNames reqs).debugFlags flag =
        debugOn debugNames (changes reqs) flag := by
  unfold after debugOn
  rw [setServerConfigs_eq, get_foldl_lastSome Server.apply (fun server => server.debugFlags flag)
    (f := Change.debug? flag), new_debugFlags h]
  intro server change _
  exact apply_debugFlags server change flag

theorem after_statsFlags {flag : ServerControlStatsFlag} (h : flag ∈ ServerControlStatsFlag.all)
    : (after busIds debugNames statsNames reqs).statsFlags flag =
        statsOn statsNames (changes reqs) flag := by
  unfold after statsOn
  rw [setServerConfigs_eq, get_foldl_lastSome Server.apply (fun server => server.statsFlags flag)
    (f := Change.stats? flag), new_statsFlags h]
  intro server change _
  exact apply_statsFlags server change h

theorem inv_after : (after busIds debugNames statsNames reqs).Inv := by
  have hnew : (Server.new busIds debugNames statsNames).Inv := by
    intro dev hdev
    obtain ⟨busId, _, rfl⟩ := List.mem_map.mp hdev
    exact newDevice_follows _ busId
  unfold after
  rw [setServerConfigs_eq]
  generalize changes reqs = cs
  induction cs using List.reverseRecOn with
  | nil => exact hnew
  | append_singleton cs c ih =>
    rw [List.foldl_concat]
    exact ih.apply c

theorem busIds_after : (after busIds debugNames statsNames reqs).devices.map Device.busId = busIds := by
  unfold after
  rw [setServerConfigs_eq, get_foldl_of_keeps Server.apply (fun server => server.devices.map Device.busId)
    (fun server change _ => apply_busIds server change)]
  unfold Server.new
  dsimp only
  rw [List.map_map]
  exact (List.map_congr_left fun busId _ => newDevice_busId _ busId).trans (List.map_id _)

theorem reports_filter {F : Type} [DecidableEq F] {all : List F} {flags on : F → Bool}
    (h : ∀ flag ∈ all, flags flag = on flag)
    : Reports all on (all.filter (flags ·)) (all.filter (!flags ·)) := by
  constructor
  . exact List.filter_append_perm _ all
  . intro flag hflag
    simp [hflag, h flag hflag]
  . intro flag hflag
    simp [hflag, h flag hflag]

-- The server tells each flag once: as the last request that was not cut off before it has left it, or
-- as the names have it with which the server has started
theorem getServerConfig_reports
    : ∃ dbg stats,
        getServerConfig (after busIds debugNames statsNames reqs) =
          ⟨.EC_OK, some ⟨some dbg, some ⟨some stats⟩⟩⟩ ∧
        Reports ServerDebugFlag.all (debugOn debugNames (changes reqs)) dbg.enables dbg.disables ∧
        Reports ServerControlStatsFlag.all (statsOn statsNames (changes reqs)) stats.enables
          stats.disables := by
  refine ⟨_, _, rfl, reports_filter ?_, reports_filter ?_⟩
  . exact fun flag hflag => after_debugFlags _ _ _ _ hflag
  . exact fun flag hflag => after_statsFlags _ _ _ _ hflag

-- A device collects the statistics of a zone exactly when the server tells that the zone and its domain
-- are enabled, and it has all its zones whatever is disabled
theorem collects_iff_reported
    : ∃ dbg stats,
        getServerConfig (after busIds debugNames statsNames reqs) =
          ⟨.EC_OK, some ⟨some dbg, some ⟨some stats⟩⟩⟩ ∧
        (after busIds debugNames statsNames reqs).devices.map Device.busId = busIds ∧
        ∀ dev ∈ (after busIds debugNames statsNames reqs).devices, ∀ kind,
          (dev.zones kind).map DeviceStats.name = zoneNames kind ∧
          ∀ zone ∈ dev.zones kind, dev.collects zone = true ↔
            zoneFlag kind ∈ stats.enables ∧ domainFlag (zoneDomain kind) ∈ stats.enables := by
  refine ⟨_, _, rfl, busIds_after _ _ _ _, ?_⟩
  intro dev hdev kind
  have hfollows := inv_after busIds debugNames statsNames reqs dev hdev
  rw [hfollows.zone, List.map_map]
  refine ⟨List.map_id _, ?_⟩
  intro zone hzone
  obtain ⟨name, _, rfl⟩ := List.mem_map.mp hzone
  simp [Device.collects, hfollows.domain, zoneFlag_mem_all, domainFlag_mem_all, and_comm]

end Runs

end SnCfg.ServerAgent
