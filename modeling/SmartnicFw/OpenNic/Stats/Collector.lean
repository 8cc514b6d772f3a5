import SmartnicFw.Lib.Transition

/-!
This module contains the life cycle of the collector thread of a statistics domain (`stats.c`): clients
that start and stop it, interleaved with the threads that they create at each critical section of the
domain lock, at the creation of a thread and at the two parts of a join.
-/

namespace Collector

inductive ThreadState where
  | checking
  | updating
  | exited
  deriving DecidableEq, Repr

-- A thread and the start that has created it
structure Thread where
  creator : Nat
  state : ThreadState
  deriving DecidableEq, Repr

-- Where a client stands. The starts that set the flag are numbered, and a stop that resets it bears
-- the number of the start that it undoes.
inductive Client where
  | idle
  | starting (start : Nat)
  | stopping (start : Nat)
  | joining (start : Nat) (handle : Option Nat)
  deriving DecidableEq, Repr

-- Threads are named by the order of their creation. `joins` has what each stop has read to join.
structure State where
  running : Bool
  handle : Option Nat
  threads : List Thread
  clients : List Client
  starts : Nat
  joins : List (Nat × Option Nat)
  deriving DecidableEq, Repr

inductive Action where
  | start
  | stop
  | next
  deriving DecidableEq, Repr

inductive Label where
  | client (client : Nat) (action : Action)
  | thread (thread : Nat)
  deriving DecidableEq, Repr

-- A domain as `stats_domain_alloc` leaves it
def init (n : Nat) : State :=
  { running := false, handle := none, threads := [], clients := List.replicate n .idle, starts := 0
    joins := [] }

def State.setClient (s : State) (i : Nat) (client : Client) : State :=
  { s with clients := s.clients.set i client }

def State.setThread (s : State) (t : Nat) (state : ThreadState) : State :=
  { s with threads := s.threads.modify t fun thread => { thread with state := state } }

-- The critical section of `stats_domain_start`
def statsDomainStart (s : State) (i : Nat) : State :=
  if s.running then
    s
  else
    let started := { s with running := true, starts := s.starts + 1 }
    started.setClient i (.starting s.starts)

-- `pthread_create`
def create (s : State) (i start : Nat) : State :=
  let created : State :=
    { s with threads := s.threads ++ [⟨start, .checking⟩], handle := some s.threads.length }
  created.setClient i .idle

-- The critical section of `stats_domain_stop`
def statsDomainStop (s : State) (i : Nat) : State :=
  if s.running then
    let stopped := { s with running := false }
    stopped.setClient i (.stopping (s.starts - 1))
  else
    s

-- The argument of `pthread_join`
def readHandle (s : State) (i start : Nat) : State :=
  let joining := { s with joins := s.joins ++ [(start, s.handle)] }
  joining.setClient i (.joining start s.handle)

def Client.step (s : State) (i : Nat) (client : Client) (action : Action) : Option State :=
  match client, action with
  | .idle, .start => some (statsDomainStart s i)
  | .idle, .stop => some (statsDomainStop s i)
  | .starting start, .next => some (create s i start)
  | .stopping start, .next => some (readHandle s i start)
  | .joining _ (some t), .next =>
    if (s.threads[t]?.map Thread.state) = some .exited then some (s.setClient i .idle) else none
  | _, _ => none

-- `stats_domain_thread`
def Thread.step (s : State) (t : Nat) (thread : Thread) : Option State :=
  match thread.state with
  | .checking => some (s.setThread t (if s.running then .updating else .exited))
  | .updating => some (s.setThread t .checking)
  | .exited => none

def step (s : State) (l : Label) : Option State :=
  match l with
  | .client i action => do
    let client ← s.clients[i]?
    client.step s i action
  | .thread t => do
    let thread ← s.threads[t]?
    thread.step s t

namespace State

variable (s : State)

def At (i : Nat) (client : Client) : Prop := s.clients[i]? = some client

def Returned : Prop := ∀ client ∈ s.clients, client = .idle

def Live (t : Nat) : Prop := ∃ thread, s.threads[t]? = some thread ∧ thread.state ≠ .exited

def CreatedBy (t start : Nat) : Prop := ∃ thread, s.threads[t]? = some thread ∧ thread.creator = start

-- Whether a stop has come after a start
def Undone (start : Nat) : Prop :=
  start + 1 < s.starts ∨ start + 1 = s.starts ∧ s.running = false

instance (start : Nat) : Decidable (s.Undone start) :=
  inferInstanceAs (Decidable (_ ∨ _))

structure Orderly : Prop where
  atMostOneLive : s.Returned → ∀ t t', s.Live t → s.Live t' → t = t'
  joinsOwn : ∀ start handle, (start, handle) ∈ s.joins →
    ∃ t, handle = some t ∧ s.CreatedBy t start
  joined : s.Returned → ∀ start, s.Undone start → ∃ handle, (start, handle) ∈ s.joins
  joinedOnce : (s.joins.map Prod.snd).Nodup
  noneLeft : s.Returned → s.running = false → ∀ t, ¬ s.Live t

-- When a stop comes to read the handle, the thread created last is that of the start that it undoes
def InOrder (l : Label) : Prop :=
  ∀ i start, l = .client i .next → s.At i (.stopping start) →
    s.threads.getLast?.map Thread.creator = some start

-- What the steps keep as long as they are in order
structure Inv : Prop where
  handle : s.handle = if s.threads = [] then none else some (s.threads.length - 1)
  running : s.running = true → 0 < s.starts
  -- A start that has set the flag has yet to create its thread, or has created one
  creations : ∀ start,
    s.clients.count (.starting start) + (s.threads.map Thread.creator).count start =
      if start < s.starts then 1 else 0
  -- A start that is undone has its stop before the read of the handle, or after it
  undos : ∀ start,
    s.clients.count (.stopping start) + (s.joins.map Prod.fst).count start =
      if s.Undone start then 1 else 0
  joins_own : ∀ start handle, (start, handle) ∈ s.joins →
    ∃ t, handle = some t ∧ s.CreatedBy t start
  joining : ∀ start t, (start, some t) ∈ s.joins →
    ¬ s.Live t ∨ ∃ i, s.At i (.joining start (some t))

section Lemmas

variable {s : State} {i j t t' start n : Nat} {client client' : Client}

theorem at_setClient (h : s.At i client)
    : (s.setClient i client').At j client'' ↔
        if j = i then client'' = client' else s.At j client'' := by
  have hlt : i < s.clients.length := (List.getElem?_eq_some_iff.mp h).1
  unfold At setClient
  simp only
  by_cases hj : j = i
  . subst hj
    simp [hlt, eq_comm]
  . rw [List.getElem?_set_ne (Ne.symm hj), if_neg hj]

theorem createdBy_setThread {state : ThreadState}
    : (s.setThread t state).CreatedBy t' n ↔ s.CreatedBy t' n := by
  unfold CreatedBy setThread
  simp only [List.getElem?_modify]
  cases s.threads[t']? with
  | none => simp
  | some thread =>
    by_cases ht : t = t'
    . simp [ht]
    . simp [ht]

theorem live_of_live_setThread {state : ThreadState} (h : s.Live t)
    (hlive : (s.setThread t state).Live t')
    : s.Live t' := by
  by_cases ht : t = t'
  . exact ht ▸ h
  . unfold Live setThread at hlive
    simp only [List.getElem?_modify, if_neg ht] at hlive
    obtain ⟨thread, hthread, hstate⟩ := hlive
    exact ⟨thread, by simpa using hthread, hstate⟩

theorem creators_setThread {state : ThreadState}
    : (s.setThread t state).threads.map Thread.creator = s.threads.map Thread.creator := by
  unfold setThread
  simp only
  apply List.ext_getElem?
  intro t'
  rw [List.getElem?_map, List.getElem?_map, List.getElem?_modify]
  cases s.threads[t']? with
  | none => rfl
  | some thread =>
    by_cases ht : t = t'
    . simp [ht]
    . simp [ht]

theorem length_setThread {state : ThreadState}
    : (s.setThread t state).threads.length = s.threads.length := by
  exact List.length_modify _ _ _

theorem threads_setThread_eq_nil {state : ThreadState}
    : ((s.setThread t state).threads = []) = (s.threads = []) := by
  rw [← List.length_eq_zero_iff, length_setThread, List.length_eq_zero_iff]

theorem CreatedBy.lt (h : s.CreatedBy t n) : t < s.threads.length := by
  obtain ⟨thread, hthread, _⟩ := h
  exact (List.getElem?_eq_some_iff.mp hthread).1

theorem Live.createdBy (h : s.Live t) : ∃ n, s.CreatedBy t n := by
  obtain ⟨thread, hthread, _⟩ := h
  exact ⟨thread.creator, thread, hthread, rfl⟩

theorem Returned.not_at (h : s.Returned) (hclient : client ≠ .idle) : ¬ s.At i client := by
  intro hat
  exact hclient (h client (List.mem_of_getElem? hat))

theorem count_setClient (h : s.At i client) (client' client'' : Client)
    : (s.setClient i client').clients.count client'' + (if client = client'' then 1 else 0) =
        s.clients.count client'' + (if client' = client'' then 1 else 0) := by
  obtain ⟨hlt, hget⟩ := List.getElem?_eq_some_iff.mp h
  unfold setClient
  simp only [List.count_set hlt, hget, beq_iff_eq]
  by_cases hclient : client = client''
  . subst hclient
    have hpos : 0 < s.clients.count client := List.count_pos_iff.mpr (List.mem_of_getElem? h)
    simp only [if_true]
    omega
  . simp only [if_neg hclient]
    omega

-- What a client leaves and what it comes to are the only places where the numbers change
theorem count_setClient_of_ne (h : s.At i client) {client' client'' : Client}
    (hold : client ≠ client'') (hnew : client' ≠ client'')
    : (s.setClient i client').clients.count client'' = s.clients.count client'' := by
  have hcount := count_setClient h client' client''
  rw [if_neg hold, if_neg hnew] at hcount
  exact hcount

theorem at_setClient_of_ne (h : s.At i client) (hj : s.At j client'') (hne : client'' ≠ client)
    : (s.setClient i client').At j client'' := by
  rw [at_setClient h, if_neg]
  . exact hj
  . rintro rfl
    exact hne (Option.some.inj (hj.symm.trans h))

end Lemmas

section Steps

variable {s : State} {i start : Nat}

theorem undone_of_running (h : s.running = true) (n : Nat) : s.Undone n ↔ n + 1 < s.starts := by
  simp [Undone, h]

theorem undone_of_not_running (h : s.running = false) (n : Nat)
    : s.Undone n ↔ n < s.starts := by
  simp only [Undone, h, and_true]
  omega

theorem inv_init (n : Nat) : (init n).Inv := by
  constructor
  . rfl
  . intro hrunning
    cases hrunning
  . intro start
    have hcount : (init n).clients.count (.starting start) = 0 := by
      rw [List.count_eq_zero]
      intro hmem
      cases List.eq_of_mem_replicate hmem
    rw [hcount]
    rfl
  . intro start
    have hcount : (init n).clients.count (.stopping start) = 0 := by
      rw [List.count_eq_zero]
      intro hmem
      cases List.eq_of_mem_replicate hmem
    have hundone : ¬ (init n).Undone start := by
      rw [undone_of_not_running rfl]
      exact Nat.not_lt_zero start
    rw [hcount, if_neg hundone]
    rfl
  . intro start handle hmem
    cases hmem
  . intro start t hmem
    cases hmem

theorem Inv.statsDomainStart (h : s.Inv) (hat : s.At i .idle) : (statsDomainStart s i).Inv := by
  unfold Collector.statsDomainStart
  split
  . exact h
  . rename_i hrunning
    simp only
    have hat' : State.At { s with running := true, starts := s.starts + 1 } i .idle := hat
    constructor
    . exact h.handle
    . intro _
      exact Nat.succ_pos s.starts
    . intro n
      have hcount := count_setClient hat' (.starting s.starts) (.starting n)
      have hold := h.creations n
      simp only [reduceCtorEq, if_false, Client.starting.injEq] at hcount
      show _ + (s.threads.map Thread.creator).count n = if n < s.starts + 1 then 1 else 0
      rw [Nat.add_zero] at hcount
      rw [hcount]
      split at hold <;> split <;> split <;> omega
    . intro n
      rw [count_setClient_of_ne hat' (by simp) (by simp)]
      have hundone : State.Undone { s with running := true, starts := s.starts + 1 } n ↔
          s.Undone n := by
        rw [undone_of_running rfl, undone_of_not_running (Bool.eq_false_of_not_eq_true hrunning)]
        exact Nat.succ_lt_succ_iff
      show _ + (s.joins.map Prod.fst).count n =
        if State.Undone { s with running := true, starts := s.starts + 1 } n then 1 else 0
      simp only [hundone]
      exact h.undos n
    . exact h.joins_own
    . intro n t hmem
      rcases h.joining n t hmem with hlive | ⟨j, hj⟩
      . exact .inl hlive
      . exact .inr ⟨j, at_setClient_of_ne hat' hj (by simp)⟩

theorem Inv.statsDomainStop (h : s.Inv) (hat : s.At i .idle) : (statsDomainStop s i).Inv := by
  unfold Collector.statsDomainStop
  split
  . rename_i hrunning
    simp only
    have hat' : State.At { s with running := false } i .idle := hat
    have hpos := h.running hrunning
    constructor
    . exact h.handle
    . intro hfalse
      cases hfalse
    . intro n
      rw [count_setClient_of_ne hat' (by simp) (by simp)]
      exact h.creations n
    . intro n
      have hcount := count_setClient hat' (.stopping (s.starts - 1)) (.stopping n)
      have hold := h.undos n
      simp only [reduceCtorEq, if_false, Client.stopping.injEq, Nat.add_zero] at hcount
      simp only [undone_of_running hrunning] at hold
      show _ + (s.joins.map Prod.fst).count n =
        if State.Undone { s with running := false } n then 1 else 0
      simp only [undone_of_not_running (s := { s with running := false }) rfl]
      rw [hcount]
      split at hold <;> split <;> split <;> omega
    . exact h.joins_own
    . intro n t hmem
      rcases h.joining n t hmem with hlive | ⟨j, hj⟩
      . exact .inl hlive
      . exact .inr ⟨j, at_setClient_of_ne hat' hj (by simp)⟩
  . exact h

theorem Inv.create (h : s.Inv) (hat : s.At i (.starting start)) : (create s i start).Inv := by
  unfold Collector.create
  simp only
  have hat' : State.At
      { s with threads := s.threads ++ [⟨start, .checking⟩], handle := some s.threads.length } i
      (.starting start) := hat
  constructor
  . simp [setClient]
  . exact h.running
  . intro n
    have hcount := count_setClient hat' .idle (.starting n)
    have hold := h.creations n
    simp only [reduceCtorEq, if_false, Client.starting.injEq, Nat.add_zero] at hcount
    show _ + ((s.threads ++ [Thread.mk start .checking]).map Thread.creator).count n =
      if n < s.starts then 1 else 0
    rw [List.map_append, List.count_append]
    simp only [List.map_singleton, List.count_singleton, beq_iff_eq]
    omega
  . intro n
    rw [count_setClient_of_ne hat' (by simp) (by simp)]
    exact h.undos n
  . intro n handle hmem
    obtain ⟨t, rfl, thread, hthread, hcreator⟩ := h.joins_own n handle hmem
    refine ⟨t, rfl, thread, ?_, hcreator⟩
    exact (List.getElem?_append_left (List.getElem?_eq_some_iff.mp hthread).1).trans hthread
  . intro n t hmem
    rcases h.joining n t hmem with hlive | ⟨j, hj⟩
    . left
      rintro ⟨thread, hthread, hstate⟩
      obtain ⟨t', ht', hcreated⟩ := h.joins_own n (some t) hmem
      cases ht'
      refine hlive ⟨thread, ?_, hstate⟩
      exact (List.getElem?_append_left hcreated.lt).symm.trans hthread
    . exact .inr ⟨j, at_setClient_of_ne hat' hj (by simp)⟩

-- The handle is that of the thread created last
theorem Inv.handle_createdBy (h : s.Inv)
    (hlast : s.threads.getLast?.map Thread.creator = some start)
    : ∃ t, s.handle = some t ∧ s.CreatedBy t start := by
  obtain ⟨thread, hthread, hcreator⟩ := Option.map_eq_some_iff.mp hlast
  have hne : s.threads ≠ [] := by
    rintro hnil
    rw [hnil] at hthread
    cases hthread
  refine ⟨s.threads.length - 1, ?_, thread, ?_, hcreator⟩
  . rw [h.handle, if_neg hne]
  . rw [← List.getLast?_eq_getElem?, hthread]

theorem Inv.readHandle (h : s.Inv) (hat : s.At i (.stopping start))
    (hlast : s.threads.getLast?.map Thread.creator = some start)
    : (readHandle s i start).Inv := by
  unfold Collector.readHandle
  simp only
  have hat' : State.At { s with joins := s.joins ++ [(start, s.handle)] } i (.stopping start) := hat
  constructor
  . exact h.handle
  . exact h.running
  . intro n
    rw [count_setClient_of_ne hat' (by simp) (by simp)]
    exact h.creations n
  . intro n
    have hcount := count_setClient hat' (.joining start s.handle) (.stopping n)
    have hold := h.undos n
    simp only [reduceCtorEq, if_false, Client.stopping.injEq, Nat.add_zero] at hcount
    show _ + ((s.joins ++ [(start, s.handle)]).map Prod.fst).count n = if s.Undone n then 1 else 0
    rw [List.map_append, List.count_append]
    simp only [List.map_singleton, List.count_singleton, beq_iff_eq]
    omega
  . intro n handle hmem
    rcases List.mem_append.mp hmem with hmem | hmem
    . exact h.joins_own n handle hmem
    . cases List.mem_singleton.mp hmem
      exact h.handle_createdBy hlast
  . intro n t hmem
    rcases List.mem_append.mp hmem with hmem | hmem
    . rcases h.joining n t hmem with hlive | ⟨j, hj⟩
      . exact .inl hlive
      . exact .inr ⟨j, at_setClient_of_ne hat' hj (by simp)⟩
    . obtain ⟨rfl, hhandle⟩ := Prod.mk.inj (List.mem_singleton.mp hmem)
      right
      refine ⟨i, ?_⟩
      rw [at_setClient hat', if_pos rfl, hhandle]

-- A join returns when the thread has exited
theorem Inv.return (h : s.Inv) {t : Nat} (hat : s.At i (.joining start (some t)))
    (hexited : s.threads[t]?.map Thread.state = some .exited)
    : (s.setClient i .idle).Inv := by
  constructor
  . exact h.handle
  . exact h.running
  . intro n
    rw [count_setClient_of_ne hat (by simp) (by simp)]
    exact h.creations n
  . intro n
    rw [count_setClient_of_ne hat (by simp) (by simp)]
    exact h.undos n
  . exact h.joins_own
  . intro n t' hmem
    rcases h.joining n t' hmem with hlive | ⟨j, hj⟩
    . exact .inl hlive
    . by_cases hjoining : Client.joining n (some t') = .joining start (some t)
      . left
        cases hjoining
        rintro ⟨thread, hthread, hstate⟩
        rw [show s.threads[t]? = some thread from hthread] at hexited
        exact hstate (Option.some.inj hexited)
      . exact .inr ⟨j, at_setClient_of_ne hat hj hjoining⟩

theorem Inv.setThread (h : s.Inv) {t : Nat} (hlive : s.Live t) (state : ThreadState)
    : (s.setThread t state).Inv := by
  constructor
  . simp only [length_setThread, threads_setThread_eq_nil]
    exact h.handle
  . exact h.running
  . intro n
    rw [creators_setThread]
    exact h.creations n
  . exact h.undos
  . intro n handle hmem
    obtain ⟨t', ht', hcreated⟩ := h.joins_own n handle hmem
    exact ⟨t', ht', createdBy_setThread.mpr hcreated⟩
  . intro n t' hmem
    rcases h.joining n t' hmem with hnot | hat
    . left
      intro hlive'
      exact hnot (live_of_live_setThread hlive hlive')
    . exact .inr hat

end Steps

section Orderly

variable {s : State}

theorem Inv.creator_inj (h : s.Inv) {t t' start : Nat} (hcreated : s.CreatedBy t start)
    (hcreated' : s.CreatedBy t' start)
    : t = t' := by
  have hnodup : (s.threads.map Thread.creator).Nodup := by
    rw [List.nodup_iff_count_le_one]
    intro n
    have hcreations := h.creations n
    split at hcreations <;> omega
  obtain ⟨thread, hthread, hcreator⟩ := hcreated
  obtain ⟨thread', hthread', hcreator'⟩ := hcreated'
  have hlt : t < (s.threads.map Thread.creator).length := by
    rw [List.length_map]
    exact (List.getElem?_eq_some_iff.mp hthread).1
  apply (List.getElem?_inj hlt hnodup).mp
  rw [List.getElem?_map, List.getElem?_map, hthread, hthread', Option.map_some, Option.map_some,
    hcreator, hcreator']

theorem Inv.joins_fst_nodup (h : s.Inv) : (s.joins.map Prod.fst).Nodup := by
  rw [List.nodup_iff_count_le_one]
  intro n
  have hundos := h.undos n
  split at hundos <;> omega

theorem Inv.joined (h : s.Inv) (hreturned : s.Returned) {start : Nat} (hundone : s.Undone start)
    : ∃ handle, (start, handle) ∈ s.joins := by
  have hundos := h.undos start
  have hstopping : s.clients.count (.stopping start) = 0 := by
    rw [List.count_eq_zero]
    intro hmem
    cases hreturned _ hmem
  rw [if_pos hundone, hstopping, Nat.zero_add] at hundos
  have hmem : start ∈ s.joins.map Prod.fst := by
    rw [← List.count_pos_iff, hundos]
    exact Nat.one_pos
  obtain ⟨⟨_, handle⟩, hjoin, rfl⟩ := List.mem_map.mp hmem
  exact ⟨handle, hjoin⟩

-- When all calls have returned, a thread lives only if its start is not undone
theorem Inv.not_undone (h : s.Inv) (hreturned : s.Returned) {t start : Nat} (hlive : s.Live t)
    (hcreated : s.CreatedBy t start)
    : ¬ s.Undone start := by
  intro hundone
  obtain ⟨handle, hjoin⟩ := h.joined hreturned hundone
  obtain ⟨t', rfl, hcreated'⟩ := h.joins_own start handle hjoin
  have ht := h.creator_inj hcreated hcreated'
  subst ht
  rcases h.joining start t hjoin with hnot | ⟨i, hat⟩
  . exact hnot hlive
  . exact hreturned.not_at (by simp) hat

theorem Inv.created_lt (h : s.Inv) {t start : Nat} (hcreated : s.CreatedBy t start)
    : start < s.starts := by
  have hcreations := h.creations start
  obtain ⟨thread, hthread, rfl⟩ := hcreated
  have hpos : 0 < (s.threads.map Thread.creator).count thread.creator := by
    rw [List.count_pos_iff]
    exact List.mem_map_of_mem (List.mem_of_getElem? hthread)
  split at hcreations
  . assumption
  . omega

theorem Inv.last_of_live (h : s.Inv) (hreturned : s.Returned) {t start : Nat} (hlive : s.Live t)
    (hcreated : s.CreatedBy t start)
    : start + 1 = s.starts ∧ s.running = true := by
  have hlt := h.created_lt hcreated
  have hnot := h.not_undone hreturned hlive hcreated
  unfold Undone at hnot
  rw [not_or, not_and, Bool.not_eq_false] at hnot
  have hlast : start + 1 = s.starts := by omega
  exact ⟨hlast, hnot.2 hlast⟩

theorem Inv.orderly (h : s.Inv) : s.Orderly := by
  constructor
  . intro hreturned t t' hlive hlive'
    obtain ⟨start, hcreated⟩ := hlive.createdBy
    obtain ⟨start', hcreated'⟩ := hlive'.createdBy
    have hlast := h.last_of_live hreturned hlive hcreated
    have hlast' := h.last_of_live hreturned hlive' hcreated'
    have hstart : start = start' := by omega
    subst hstart
    exact h.creator_inj hcreated hcreated'
  . exact h.joins_own
  . intro hreturned start hundone
    exact h.joined hreturned hundone
  . -- Two joins of one thread would be for one start
    apply h.joins_fst_nodup.of_map _ |>.map_on
    rintro ⟨start, handle⟩ hjoin ⟨start', handle'⟩ hjoin' heq
    obtain ⟨t, rfl, thread, hthread, rfl⟩ := h.joins_own start handle hjoin
    obtain ⟨t', rfl, thread', hthread', rfl⟩ := h.joins_own start' handle' hjoin'
    cases heq
    rw [hthread] at hthread'
    cases hthread'
    rfl
  . intro hreturned hrunning t hlive
    obtain ⟨start, hcreated⟩ := hlive.createdBy
    have hlast := h.last_of_live hreturned hlive hcreated
    rw [hrunning] at hlast
    cases hlast.2

end Orderly

end State

section Runs

variable {s s' : State} {l : Label}

theorem inv_step (hinv : s.Inv) (hstep : step s l = some s') (horder : s.InOrder l) : s'.Inv := by
  cases l with
  | client i action =>
    obtain ⟨client, hat, hstep⟩ := Option.bind_eq_some_iff.mp hstep
    cases client with
    | idle =>
      cases action with
      | start =>
        cases hstep
        exact hinv.statsDomainStart hat
      | stop =>
        cases hstep
        exact hinv.statsDomainStop hat
      | next => cases hstep
    | starting start =>
      cases action with
      | next =>
        cases hstep
        exact hinv.create hat
      | start => cases hstep
      | stop => cases hstep
    | stopping start =>
      cases action with
      | next =>
        cases hstep
        exact hinv.readHandle hat (horder i start rfl hat)
      | start => cases hstep
      | stop => cases hstep
    | joining start handle =>
      cases action with
      | next =>
        cases handle with
        | none => cases hstep
        | some t =>
          simp only [Client.step, Option.ite_none_right_eq_some] at hstep
          obtain ⟨hexited, hstep⟩ := hstep
          cases hstep
          exact hinv.return hat hexited
      | start => cases handle <;> cases hstep
      | stop => cases handle <;> cases hstep
  | thread t =>
    obtain ⟨thread, hthread, hstep⟩ := Option.bind_eq_some_iff.mp hstep
    unfold Thread.step at hstep
    cases hstate : thread.state with
    | checking =>
      rw [hstate] at hstep
      cases hstep
      exact hinv.setThread ⟨thread, hthread, by simp [hstate]⟩ _
    | updating =>
      rw [hstate] at hstep
      cases hstep
      exact hinv.setThread ⟨thread, hthread, by simp [hstate]⟩ _
    | exited =>
      rw [hstate] at hstep
      cases hstep

-- A stop that reads the handle out of order joins a thread that is not its own
theorem not_orderly_of_not_inOrder (hinv : s.Inv) (hstep : step s l = some s')
    (horder : ¬ s.InOrder l)
    : ¬ s'.Orderly := by
  unfold State.InOrder at horder
  push Not at horder
  obtain ⟨i, start, rfl, hat, hlast⟩ := horder
  have hstep' : some (readHandle s i start) = some s' := by
    unfold State.At at hat
    rw [← hstep]
    unfold step
    simp only
    rw [hat]
    rfl
  cases hstep'
  intro horderly
  obtain ⟨t, hhandle, thread, hthread, hcreator⟩ :=
    horderly.joinsOwn start s.handle (List.mem_append_right _ (List.mem_singleton_self _))
  apply hlast
  rw [hinv.handle] at hhandle
  split at hhandle
  . cases hhandle
  . cases hhandle
    rw [List.getLast?_eq_getElem?, show s.threads[s.threads.length - 1]? = some thread from hthread,
      Option.map_some, hcreator]

-- In every state of a run of any number of clients the threads are in order exactly when no stop
-- reads the handle before its start has created the thread or after a later one has
theorem statsDomain_orderly_iff (n : Nat) (ls : List Label)
    : Transition.StatesSatisfy step State.Orderly (init n) ls ↔
        Transition.StepsSatisfy step State.InOrder (init n) ls := by
  apply Transition.statesSatisfy_iff_stepsSatisfy
  . intro s hinv
    exact State.Inv.orderly hinv
  . intro s l s' hinv hstep horder
    exact inv_step hinv hstep horder
  . intro s l s' hinv hstep horder
    exact not_orderly_of_not_inOrder hinv hstep horder
  . exact State.inv_init n

-- A stop comes before the start that it undoes has created its thread
def earlyStop : List Label :=
  [.client 0 .start, .client 1 .stop, .client 1 .next]

-- A start creates its thread before the stop of the one before it has read the handle
def lateStop : List Label :=
  [.client 0 .start, .client 0 .next, .client 1 .stop, .client 0 .start, .client 0 .next,
    .client 1 .next, .client 0 .stop, .client 0 .next, .thread 1, .client 0 .next, .client 1 .next,
    .client 0 .start, .client 0 .next]

-- After the first run the stop joins what was never created. After the second one two threads live
-- although all calls have returned, and another thread has been joined twice.
theorem statsDomain_not_orderly
    : (∃ s, Transition.run step (init 2) earlyStop = some s ∧ s.joins = [(0, none)] ∧
          ¬ s.Orderly) ∧
        ∃ s, Transition.run step (init 2) lateStop = some s ∧ s.Returned ∧ s.Live 0 ∧ s.Live 2 ∧
          s.joins = [(0, some 1), (1, some 1)] ∧ ¬ s.Orderly := by
  refine ⟨⟨_, rfl, rfl, ?_⟩, _, rfl, ?_, ⟨_, rfl, ?_⟩, ⟨_, rfl, ?_⟩, rfl, ?_⟩
  . intro horderly
    obtain ⟨t, hhandle, _⟩ := horderly.joinsOwn 0 none List.mem_cons_self
    cases hhandle
  . unfold State.Returned
    decide
  . decide
  . decide
  . intro horderly
    exact absurd horderly.joinedOnce (by decide)

end Runs

end Collector
