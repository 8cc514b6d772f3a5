import SmartnicFw.OpenNic.Stats.Collector

/-!
This module contains the collector of a domain that has a single caller: how many threads there are when
its calls have returned, and that they do return.
-/

namespace Collector

-- The call that a step makes
def Label.call? : Label → Option Action
  | .client _ .start => some .start
  | .client _ .stop => some .stop
  | _ => none

-- Whether some calls leave the collector running
def runningAfter (running : Bool) (calls : List Action) : Bool :=
  calls.foldl (fun _ call => decide (call = .start)) running

namespace State

-- A thread that has yet to exit is the given one
def OnlyLive (s : State) (handle : Option Nat) : Prop := ∀ t, s.Live t → handle = some t

-- What holds where the only client stands
def SerialAt (s : State) : Client → Prop
  | .idle =>
    if s.running then ∃ t, s.handle = some t ∧ s.Live t ∧ s.OnlyLive (some t) else s.OnlyLive none
  | .starting _ => s.running = true ∧ s.OnlyLive none
  | .stopping _ => s.running = false ∧ ∃ t, s.handle = some t ∧ t < s.threads.length ∧ s.OnlyLive (some t)
  | .joining _ handle =>
    s.running = false ∧ ∃ t, handle = some t ∧ t < s.threads.length ∧ s.OnlyLive (some t)

def Serial (s : State) : Prop := ∃ client, s.clients = [client] ∧ s.SerialAt client

end State

section Steps

variable {s s' : State} {l : Label} {t t' : Nat} {client : Client}

theorem serialAt_idle_of_running (h : s.running = true)
    : s.SerialAt .idle ↔ ∃ t, s.handle = some t ∧ s.Live t ∧ s.OnlyLive (some t) := by
  unfold State.SerialAt
  simp only [h, if_true]

theorem serialAt_idle_of_not_running (h : s.running = false)
    : s.SerialAt .idle ↔ s.OnlyLive none := by
  unfold State.SerialAt
  simp [h]

theorem serial_init : (init 1).Serial := by
  refine ⟨.idle, rfl, ?_⟩
  unfold State.SerialAt init
  simp [State.OnlyLive, State.Live]

theorem State.OnlyLive.not_live (h : s.OnlyLive none) (t : Nat) : ¬ s.Live t := by
  intro hlive
  cases h t hlive

theorem onlyLive_append {start : Nat} (h : s.OnlyLive none)
    (hthreads : s'.threads = s.threads ++ [⟨start, .checking⟩])
    : s'.Live s.threads.length ∧ s'.OnlyLive (some s.threads.length) := by
  unfold State.OnlyLive State.Live
  rw [hthreads]
  refine ⟨⟨⟨start, .checking⟩, List.getElem?_concat_length, by simp⟩, ?_⟩
  rintro t ⟨thread, hthread, hstate⟩
  rcases Nat.lt_trichotomy t s.threads.length with hlt | rfl | hgt
  . rw [List.getElem?_append_left hlt] at hthread
    exact absurd ⟨thread, hthread, hstate⟩ (h.not_live t)
  . rfl
  . rw [List.getElem?_eq_none (by simp; omega)] at hthread
    cases hthread

theorem serial_statsDomainStart (hclients : s.clients = [.idle]) (h : s.SerialAt .idle)
    : (statsDomainStart s 0).Serial ∧ (statsDomainStart s 0).running = true := by
  unfold statsDomainStart
  cases hrunning : s.running with
  | true => exact ⟨⟨.idle, hclients, h⟩, hrunning⟩
  | false =>
    have honly := (serialAt_idle_of_not_running hrunning).mp h
    exact ⟨⟨.starting s.starts, by simp [State.setClient, hclients], rfl, honly⟩, rfl⟩

theorem serial_create {start : Nat} (hclients : s.clients = [.starting start])
    (h : s.SerialAt (.starting start))
    : (create s 0 start).Serial ∧ (create s 0 start).running = s.running := by
  obtain ⟨hrunning, honly⟩ := h
  have hcreated : (create s 0 start).Live s.threads.length ∧
      (create s 0 start).OnlyLive (some s.threads.length) := onlyLive_append honly rfl
  obtain ⟨hlive, honly'⟩ := hcreated
  refine ⟨⟨.idle, by simp [create, State.setClient, hclients], ?_⟩, rfl⟩
  exact (serialAt_idle_of_running (s := create s 0 start) hrunning).mpr ⟨s.threads.length, rfl, hlive, honly'⟩

theorem serial_statsDomainStop (hclients : s.clients = [.idle]) (h : s.SerialAt .idle)
    : (statsDomainStop s 0).Serial ∧ (statsDomainStop s 0).running = false := by
  unfold statsDomainStop
  cases hrunning : s.running with
  | true =>
    obtain ⟨t, hhandle, ⟨thread, hthread, _⟩, honly⟩ := (serialAt_idle_of_running hrunning).mp h
    have hlt := (List.getElem?_eq_some_iff.mp hthread).1
    exact ⟨⟨.stopping (s.starts - 1), by simp [State.setClient, hclients], rfl, t, hhandle, hlt, honly⟩,
      rfl⟩
  | false => exact ⟨⟨.idle, hclients, h⟩, hrunning⟩

theorem serial_readHandle {start : Nat} (hclients : s.clients = [.stopping start])
    (h : s.SerialAt (.stopping start))
    : (readHandle s 0 start).Serial ∧ (readHandle s 0 start).running = s.running := by
  obtain ⟨hrunning, t, hhandle, hlt, honly⟩ := h
  exact ⟨⟨.joining start s.handle, by simp [readHandle, State.setClient, hclients], hrunning, t, hhandle,
    hlt, honly⟩, rfl⟩

-- The thread that is joined has exited, and there is no other one left
theorem serial_return {start t : Nat} (hclients : s.clients = [.joining start (some t)])
    (h : s.SerialAt (.joining start (some t))) (hexited : s.threads[t]?.map Thread.state = some .exited)
    : (s.setClient 0 .idle).Serial ∧ (s.setClient 0 .idle).running = s.running := by
  obtain ⟨hrunning, t₀, ht₀, _, honly⟩ := h
  refine ⟨⟨.idle, by simp [State.setClient, hclients], ?_⟩, rfl⟩
  refine (serialAt_idle_of_not_running (s := s.setClient 0 .idle) hrunning).mpr ?_
  intro t' hlive
  obtain rfl : t = t' := Option.some.inj (ht₀.trans (honly t' hlive))
  obtain ⟨thread, hthread, hstate⟩ := hlive
  rw [show s.threads[t]? = some thread from hthread] at hexited
  exact absurd (Option.some.inj hexited) hstate

theorem serial_client {action : Action} {i : Nat} (h : s.Serial)
    (hstep : step s (.client i action) = some s')
    : s'.Serial ∧ s'.running = runningAfter s.running (Label.call? (.client i action)).toList := by
  obtain ⟨client, hclients, hserial⟩ := h
  obtain ⟨client', hclient, hstep⟩ := Option.bind_eq_some_iff.mp hstep
  rw [hclients] at hclient
  obtain ⟨rfl, rfl⟩ : i = 0 ∧ client = client' := by
    cases i with
    | zero => exact ⟨rfl, Option.some.inj hclient⟩
    | succ i => cases hclient
  cases client with
  | idle =>
    cases action with
    | start =>
      cases hstep
      exact serial_statsDomainStart hclients hserial
    | stop =>
      cases hstep
      exact serial_statsDomainStop hclients hserial
    | next => cases hstep
  | starting start =>
    cases action <;> cases hstep
    exact serial_create hclients hserial
  | stopping start =>
    cases action <;> cases hstep
    exact serial_readHandle hclients hserial
  | joining start handle =>
    cases handle with
    | none => cases action <;> cases hstep
    | some t =>
      cases action with
      | start => cases hstep
      | stop => cases hstep
      | next =>
        unfold Client.step at hstep
        dsimp only at hstep
        split at hstep
        . cases hstep
          exact serial_return hclients hserial ‹_›
        . cases hstep

theorem live_setThread {thread : Thread} (h : s.threads[t]? = some thread) {state : ThreadState}
    (hstate : state ≠ .exited) (hlive : s.Live t')
    : (s.setThread t state).Live t' := by
  obtain ⟨thread', hthread', hstate'⟩ := hlive
  unfold State.Live State.setThread
  simp only [List.getElem?_modify]
  by_cases ht : t = t'
  . subst ht
    exact ⟨{ thread with state := state }, by simp [h], hstate⟩
  . exact ⟨thread', by simp [ht, hthread'], hstate'⟩

theorem thread_step_eq {thread : Thread} (hstep : thread.step s t = some s')
    : thread.state ≠ .exited ∧ ∃ state, s' = s.setThread t state ∧ (s.running = true → state ≠ .exited) := by
  unfold Thread.step at hstep
  split at hstep
  next hstate =>
    cases hstep
    refine ⟨by simp [hstate], _, rfl, ?_⟩
    intro hrunning
    simp [hrunning]
  next hstate =>
    cases hstep
    exact ⟨by simp [hstate], _, rfl, fun _ => by decide⟩
  next => cases hstep

theorem serial_thread (h : s.Serial) (hstep : step s (.thread t) = some s')
    : s'.Serial ∧ s'.running = s.running := by
  obtain ⟨client, hclients, hserial⟩ := h
  obtain ⟨thread, hthread, hstep⟩ := Option.bind_eq_some_iff.mp hstep
  obtain ⟨hstate, state, rfl, hkept⟩ := thread_step_eq hstep
  refine ⟨⟨client, hclients, ?_⟩, rfl⟩
  have honly {handle : Option Nat} (h : s.OnlyLive handle) : (s.setThread t state).OnlyLive handle :=
    fun t' hlive => h t' (State.live_of_live_setThread ⟨thread, hthread, hstate⟩ hlive)
  have hlen : (s.setThread t state).threads.length = s.threads.length := State.length_setThread
  cases client with
  | idle =>
    cases hrunning : s.running with
    | true =>
      obtain ⟨t₀, hhandle, hlive, honly₀⟩ := (serialAt_idle_of_running hrunning).mp hserial
      exact (serialAt_idle_of_running (s := s.setThread t state) hrunning).mpr
        ⟨t₀, hhandle, live_setThread hthread (hkept hrunning) hlive, honly honly₀⟩
    | false =>
      have honly₀ := (serialAt_idle_of_not_running hrunning).mp hserial
      exact (serialAt_idle_of_not_running (s := s.setThread t state) hrunning).mpr (honly honly₀)
  | starting start => exact ⟨hserial.1, honly hserial.2⟩
  | stopping start =>
    obtain ⟨hrunning, t₀, hhandle, hlt, honly₀⟩ := hserial
    exact ⟨hrunning, t₀, hhandle, hlen.symm ▸ hlt, honly honly₀⟩
  | joining start handle =>
    obtain ⟨hrunning, t₀, hhandle, hlt, honly₀⟩ := hserial
    exact ⟨hrunning, t₀, hhandle, hlen.symm ▸ hlt, honly honly₀⟩

theorem serial_step (h : s.Serial) (hstep : step s l = some s')
    : s'.Serial ∧ s'.running = runningAfter s.running l.call?.toList := by
  cases l with
  | client i action => exact serial_client h hstep
  | thread t => exact serial_thread h hstep

theorem serial_run {ls : List Label} (h : s.Serial) (hrun : Transition.run step s ls = some s')
    : s'.Serial ∧ s'.running = runningAfter s.running (ls.filterMap Label.call?) := by
  induction ls generalizing s with
  | nil =>
    cases hrun
    exact ⟨h, rfl⟩
  | cons l ls ih =>
    obtain ⟨s₁, hstep, hrest⟩ := Option.bind_eq_some_iff.mp hrun
    obtain ⟨hserial, hrunning⟩ := serial_step h hstep
    obtain ⟨hserial', hrunning'⟩ := ih hserial hrest
    refine ⟨hserial', ?_⟩
    rw [hrunning', hrunning]
    cases hcall : l.call? with
    | none => rw [List.filterMap_cons_none hcall]; rfl
    | some call => rw [List.filterMap_cons_some hcall]; rfl

end Steps

section Returned

variable {s s' : State} {t : Nat}

-- Once the calls have returned, there is a thread when the collector is running and none otherwise
theorem State.Serial.live_iff (h : s.Serial) (hreturned : s.Returned)
    : (s.running = true → ∃! t, s.Live t) ∧ (s.running = false → ∀ t, ¬ s.Live t) := by
  obtain ⟨client, hclients, hserial⟩ := h
  obtain rfl : client = .idle := hreturned client (by simp [hclients])
  constructor
  . intro hrunning
    obtain ⟨t, _, hlive, honly⟩ := (serialAt_idle_of_running hrunning).mp hserial
    exact ⟨t, hlive, fun t' hlive' => (Option.some.inj (honly t' hlive')).symm⟩
  . intro hrunning
    exact ((serialAt_idle_of_not_running hrunning).mp hserial).not_live

-- A run of which no step makes a call
def Quiet (s : State) (ls : List Label) (s' : State) : Prop :=
  Transition.run step s ls = some s' ∧ ls.filterMap Label.call? = []

-- A thread comes to its end once the collector is not running
theorem exists_exited (hrunning : s.running = false) (hlt : t < s.threads.length)
    : ∃ ls s', Quiet s ls s' ∧ s'.clients = s.clients ∧
        s'.threads[t]?.map Thread.state = some .exited := by
  have hcheck {s : State} {thread : Thread} (hrunning : s.running = false)
      (hthread : s.threads[t]? = some thread) (hstate : thread.state = .checking)
      : step s (.thread t) = some (s.setThread t .exited) := by
    simp [step, hthread, Thread.step, hstate, hrunning]
  have hexited {s : State} {thread : Thread} (hthread : s.threads[t]? = some thread)
      : (s.setThread t .exited).threads[t]?.map Thread.state = some .exited := by
    simp [State.setThread, hthread]
  obtain ⟨thread, hthread⟩ : ∃ thread, s.threads[t]? = some thread := ⟨_, List.getElem?_eq_getElem hlt⟩
  cases hstate : thread.state with
  | exited => exact ⟨[], s, ⟨rfl, rfl⟩, rfl, by simp [hthread, hstate]⟩
  | checking =>
    refine ⟨[.thread t], _, ⟨?_, rfl⟩, ?_, hexited hthread⟩
    . exact Option.bind_eq_some_iff.mpr ⟨_, hcheck hrunning hthread hstate, rfl⟩
    . rfl
  | updating =>
    have hupdated : step s (.thread t) = some (s.setThread t .checking) := by
      simp [step, hthread, Thread.step, hstate]
    have hthread' : (s.setThread t .checking).threads[t]? = some { thread with state := .checking } := by
      simp [State.setThread, hthread]
    refine ⟨[.thread t, .thread t], _, ⟨?_, rfl⟩, ?_, hexited hthread'⟩
    . refine Option.bind_eq_some_iff.mpr ⟨_, hupdated, ?_⟩
      exact Option.bind_eq_some_iff.mpr ⟨_, hcheck (s := s.setThread t .checking) hrunning hthread' rfl, rfl⟩
    . rfl

theorem Quiet.trans {s₁ s₂ : State} {ls ls' : List Label} (h : Quiet s ls s₁) (h' : Quiet s₁ ls' s₂)
    : Quiet s (ls ++ ls') s₂ := by
  constructor
  . rw [Transition.run_append, h.1]
    exact h'.1
  . rw [List.filterMap_append, h.2, h'.2, List.append_nil]

theorem quiet_next {client : Client} (hclients : s.clients = [client])
    (hstep : client.step s 0 .next = some s')
    : Quiet s [.client 0 .next] s' := by
  have hstep' : step s (.client 0 .next) = some s' :=
    Option.bind_eq_some_iff.mpr ⟨client, by simp [hclients], hstep⟩
  exact ⟨Option.bind_eq_some_iff.mpr ⟨s', hstep', rfl⟩, rfl⟩

theorem exists_joined {start : Nat} (hclients : s.clients = [.joining start (some t)])
    (hrunning : s.running = false) (hlt : t < s.threads.length)
    : ∃ ls s', Quiet s ls s' ∧ s'.Returned := by
  obtain ⟨ls, s₁, hquiet, hclients₁, hexited⟩ := exists_exited hrunning hlt
  rw [hclients] at hclients₁
  have hjoin : (Client.joining start (some t)).step s₁ 0 .next = some (s₁.setClient 0 .idle) := by
    simp [Client.step, hexited]
  refine ⟨_, _, hquiet.trans (quiet_next hclients₁ hjoin), ?_⟩
  simp [State.Returned, State.setClient, hclients₁]

-- From wherever the client stands, it can come to return
theorem State.Serial.exists_returned (h : s.Serial) : ∃ ls s', Quiet s ls s' ∧ s'.Returned := by
  obtain ⟨client, hclients, hserial⟩ := h
  cases client with
  | idle => exact ⟨[], s, ⟨rfl, rfl⟩, by simp [State.Returned, hclients]⟩
  | starting start =>
    refine ⟨_, create s 0 start, quiet_next hclients rfl, ?_⟩
    simp [State.Returned, create, State.setClient, hclients]
  | stopping start =>
    obtain ⟨hrunning, t, hhandle, hlt, _⟩ := hserial
    have hclients' : (readHandle s 0 start).clients = [.joining start (some t)] := by
      simp [readHandle, State.setClient, hclients, hhandle]
    obtain ⟨ls, s', hquiet, hreturned⟩ :=
      exists_joined (s := readHandle s 0 start) hclients' hrunning hlt
    exact ⟨_, s', (quiet_next hclients rfl).trans hquiet, hreturned⟩
  | joining start handle =>
    obtain ⟨hrunning, t, rfl, hlt, _⟩ := hserial
    exact exists_joined hclients hrunning hlt

end Returned

end Collector
