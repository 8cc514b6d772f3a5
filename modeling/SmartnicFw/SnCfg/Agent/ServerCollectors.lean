import SmartnicFw.OpenNic.Stats.CollectorSerial
import SmartnicFw.SnCfg.Agent.ServerRuns

/-!
This module contains the collector threads behind the configuration of the server: the calls that the
server makes on a domain of a device, and the threads that are there when they have returned.
-/

namespace SnCfg.ServerAgent

open Accepted (accepted)
open Collector (runningAfter)

-- The call of `apply_server_control_stats_flag` on a domain of each device
def Change.call? (dom : DeviceStatsDomain) : Change → Option Collector.Action
  | .debug _ _ => none
  | .stats flag on =>
    if convertServerControlStatsFlag flag = some (.inl dom) then
      some (if on then .start else .stop)
    else
      none

-- The calls on a domain of a device since the constructor
def domainCalls (statsNames : List Bytes) (changes : List Change) (dom : DeviceStatsDomain)
    : List Collector.Action :=
  (if statsOn statsNames [] (domainFlag dom) then [.start] else []) ++
    changes.filterMap (Change.call? dom)

theorem call?_eq (dom : DeviceStatsDomain) (change : Change)
    : change.call? dom =
        (change.stats? (domainFlag dom)).map fun on => if on then .start else .stop := by
  cases change with
  | debug flag on => rfl
  | stats flag on =>
    unfold Change.call? Change.stats?
    simp only [convert_eq_inl_iff]
    split <;> rfl

theorem runningAfter_domainCalls (statsNames : List Bytes) (changes : List Change)
    (dom : DeviceStatsDomain)
    : runningAfter false (domainCalls statsNames changes dom) =
        statsOn statsNames changes (domainFlag dom) := by
  unfold domainCalls
  induction changes using List.reverseRecOn with
  | nil =>
    rw [List.filterMap_nil, List.append_nil]
    split
    next hon => exact hon.symm
    next hoff =>
      rw [Bool.not_eq_true] at hoff
      exact hoff.symm
  | append_singleton changes change ih =>
    have hconcat : statsOn statsNames (changes ++ [change]) (domainFlag dom) =
        (change.stats? (domainFlag dom)).getD (statsOn statsNames changes (domainFlag dom)) := by
      unfold statsOn
      rw [lastSome_concat]
      cases change.stats? (domainFlag dom) <;> rfl
    rw [hconcat, List.filterMap_append, ← List.append_assoc, ← ih]
    unfold runningAfter
    rw [List.foldl_append, List.filterMap_cons, call?_eq]
    cases change.stats? (domainFlag dom) with
    | none => rfl
    | some on => cases on <;> rfl

-- However the threads of a domain are interleaved with the calls that the server makes, the calls can
-- return, and a domain then has one thread when the server tells that it is enabled and none otherwise
theorem collector_follows_reports (busIds debugNames statsNames : List Bytes)
    (reqs : List ServerConfigRequest) (dom : DeviceStatsDomain) {ls : List Collector.Label}
    {s : Collector.State} (hrun : Transition.run Collector.step (Collector.init 1) ls = some s)
    (hcalls : ls.filterMap Collector.Label.call? = domainCalls statsNames (changes reqs) dom)
    : ∃ dbg stats,
        getServerConfig (after busIds debugNames statsNames reqs) =
          ⟨.EC_OK, some ⟨some dbg, some ⟨some stats⟩⟩⟩ ∧
        (∃ ls' s', Collector.Quiet s ls' s' ∧ s'.Returned) ∧
        (s.Returned →
          (domainFlag dom ∈ stats.enables → ∃! t, s.Live t) ∧
          (domainFlag dom ∉ stats.enables → ∀ t, ¬ s.Live t)) := by
  obtain ⟨dbg, stats, hget, _, hstats⟩ := getServerConfig_reports busIds debugNames statsNames reqs
  obtain ⟨hserial, hrunning⟩ := Collector.serial_run Collector.serial_init hrun
  refine ⟨dbg, stats, hget, hserial.exists_returned, ?_⟩
  intro hreturned
  have hreported := hstats.enables (domainFlag dom) (domainFlag_mem_all dom)
  have hflag : s.running = statsOn statsNames (changes reqs) (domainFlag dom) := by
    rw [hrunning, hcalls]
    exact runningAfter_domainCalls statsNames (changes reqs) dom
  obtain ⟨hon, hoff⟩ := hserial.live_iff hreturned
  constructor
  . intro henabled
    exact hon (hflag.trans (hreported.mp henabled))
  . intro hdisabled
    apply hoff
    rw [hflag, ← Bool.not_eq_true]
    exact mt hreported.mpr hdisabled

def disableCounters : ServerConfigRequest where
  config := some
    { debug := none
      control := some ⟨some ⟨[], [.CTRL_STATS_FLAG_DOMAIN_COUNTERS]⟩⟩ }

-- The thread updates once before it is stopped and joined
def countersStopped : List Collector.Label :=
  [.client 0 .start, .client 0 .next, .thread 0, .client 0 .stop, .client 0 .next, .thread 0, .thread 0,
    .client 0 .next]

def countersIdle : Collector.State where
  running := false
  handle := some 0
  threads := [⟨0, .exited⟩]
  clients := [.idle]
  starts := 1
  joins := [(0, some 0)]

theorem collector_follows_disableCounters
    : ∃ dbg stats,
        getServerConfig (after [] [] [] [disableCounters]) =
          ⟨.EC_OK, some ⟨some dbg, some ⟨some stats⟩⟩⟩ ∧
        (∃ ls' s', Collector.Quiet countersIdle ls' s' ∧ s'.Returned) ∧
        (countersIdle.Returned →
          (domainFlag .COUNTERS ∈ stats.enables → ∃! t, countersIdle.Live t) ∧
          (domainFlag .COUNTERS ∉ stats.enables → ∀ t, ¬ countersIdle.Live t)) := by
  have hrun : Transition.run Collector.step (Collector.init 1) countersStopped = some countersIdle := by
    decide
  exact collector_follows_reports [] [] [] [disableCounters] .COUNTERS hrun (by decide)

end SnCfg.ServerAgent
