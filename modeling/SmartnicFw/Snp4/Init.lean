import SmartnicFw.Lib.Heap
import SmartnicFw.Lib.Lifetimes
import SmartnicFw.Snp4.Counters

/-!
This module contains how the driver of a pipeline is set up and torn down (`snp4_api.c`), with the
memory that is allocated and the contexts that are initialised on the way.
-/

namespace Snp4Init

-- Where a field of the environment leads to: to what the driver fills it with, or into `snp4_api.c`
inductive EnvFunction where
  | stub
  | deviceWrite
  | deviceRead
  | logError
  | logInfo
  deriving DecidableEq, Repr

structure XilVitisNetP4EnvIf where
  wordWrite32 : Option EnvFunction
  wordRead32 : Option EnvFunction
  userCtx : Option Nat
  logError : Option EnvFunction
  logInfo : Option EnvFunction
  deriving DecidableEq, Repr

/--
What the driver of a pipeline offers (`vitisnetp4drv-intf.h`): `σ` is what the drivers hold. A
context is known by the memory that it is in, a call says whether it succeeds.
-/
structure DrvIntf (σ : Type) where
  offset : UInt64
  stubEnvIf : XilVitisNetP4EnvIf → Bool × XilVitisNetP4EnvIf
  config : List XilVitisNetP4TargetCounterConfig
  targetInit (snp4User : Nat) (env : XilVitisNetP4EnvIf)
    (config : List XilVitisNetP4TargetCounterConfig) : σ → Bool × σ
  targetExit (snp4User : Nat) : σ → Bool × σ
  counterInit (blocks n : Nat) (env : XilVitisNetP4EnvIf)
    (config : XilVitisNetP4TargetCounterConfig) : σ → Bool × σ
  counterExit (blocks n : Nat) : σ → Bool × σ

-- `calloc` can give out no memory
structure Platform (σ : Type) where
  vitisNetP4DrvIntfGet : UInt32 → Option (DrvIntf σ)
  calloc : σ → Bool × σ

structure Log where
  enabled : Bool
  prefixText : Option String
  deriving DecidableEq, Repr

structure Snp4UserContext (σ : Type) where
  log : Log
  baseAddr : UInt64
  env : XilVitisNetP4EnvIf
  counterBlocks : Option Nat
  sdnetIdx : UInt32
  intf : Option (DrvIntf σ)

structure Snp4CounterBlock where
  numCounters : UInt32
  deriving DecidableEq, Repr

inductive Block (σ : Type) where
  | user (user : Snp4UserContext σ)
  | counterBlocks (blocks : List Snp4CounterBlock)

-- A block of memory, and the contexts that are initialised in the user context and in the blocks
-- of counters
inductive Resource where
  | block (p : Nat)
  | target (snp4User : Nat)
  | counter (blocks n : Nat)
  deriving DecidableEq, Repr

def Resource.within : Resource → Option Resource
  | .block _ => none
  | .target snp4User => some (.block snp4User)
  | .counter blocks _ => some (.block blocks)

structure Sys (σ : Type) where
  world : σ
  heap : Heap (Block σ)
  events : List (Lifetimes.Event Resource)

section

variable {σ : Type}

namespace Sys

def start (world : σ) : Sys σ := { world, heap := .empty, events := [] }

def calloc (platform : Platform σ) (zeros : Block σ) (s : Sys σ) : Option Nat × Sys σ :=
  match platform.calloc s.world with
  | (false, world) => (none, { s with world })
  | (true, world) =>
    let (p, heap) := s.heap.alloc zeros
    (some p, { world, heap, events := s.events ++ [.starts (.block p)] })

def free (p : Nat) (s : Sys σ) : Sys σ :=
  { s with heap := s.heap.free p, events := s.events ++ [.ends (.block p)] }

def write (p : Nat) (b : Block σ) (s : Sys σ) : Sys σ := { s with heap := s.heap.write p b }

def init (r : Resource) (call : σ → Bool × σ) (s : Sys σ) : Bool × Sys σ :=
  match call s.world with
  | (false, world) => (false, { s with world })
  | (true, world) => (true, { s with world, events := s.events ++ [.starts r] })

-- A context that has been passed to its exit is not used again, whatever the exit says
def exit (r : Resource) (call : σ → Bool × σ) (s : Sys σ) : Bool × Sys σ :=
  let (ok, world) := call s.world
  (ok, { s with world, events := s.events ++ [.ends r] })

end Sys

def Snp4UserContext.zeros : Snp4UserContext σ where
  log := { enabled := false, prefixText := none }
  baseAddr := 0
  env :=
    { wordWrite32 := none
      wordRead32 := none
      userCtx := none
      logError := none
      logInfo := none }
  counterBlocks := none
  sdnetIdx := 0
  intf := none

def snp4LogEnable (enable : Bool) (prefixText : Option String) (user : Snp4UserContext σ)
    : Snp4UserContext σ :=
  { user with
    log.prefixText := if enable && prefixText.isSome then prefixText else some ""
    log.enabled := enable }

def setNumCounters (blocks n : Nat) (numCounters : UInt32) (s : Sys σ) : Sys σ :=
  match s.heap.read blocks with
  | some (.counterBlocks bs) => s.write blocks (.counterBlocks (bs.set n { numCounters }))
  | _ => s

-- With how many of the blocks were initialised
def snp4InitCounterBlocks.go (intf : DrvIntf σ) (env : XilVitisNetP4EnvIf) (blocks n : Nat)
    (config : List XilVitisNetP4TargetCounterConfig) (s : Sys σ)
    : Bool × Nat × Sys σ :=
  match config with
  | [] => (true, n, s)
  | cnt :: config =>
    let s := setNumCounters blocks n cnt.numCounters s
    match s.init (.counter blocks n) (intf.counterInit blocks n env cnt) with
    | (false, s) => (false, n, s)
    | (true, s) => go intf env blocks (n + 1) config s

def exitCounterBlocks (intf : DrvIntf σ) (blocks : Nat) (ns : List Nat) (s : Sys σ) : Sys σ :=
  match ns with
  | [] => s
  | n :: ns =>
    exitCounterBlocks intf blocks ns (s.exit (.counter blocks n) (intf.counterExit blocks n)).2

def snp4InitCounterBlocks (platform : Platform σ) (intf : DrvIntf σ) (user : Snp4UserContext σ)
    (s : Sys σ)
    : Option (Snp4UserContext σ) × Sys σ :=
  if intf.config.length = 0 then
    (some user, s)
  else
    let zeros := List.replicate intf.config.length { numCounters := 0 }
    match s.calloc platform (.counterBlocks zeros) with
    | (none, s) => (none, s)
    | (some blocks, s) =>
      match snp4InitCounterBlocks.go intf user.env blocks 0 intf.config s with
      | (true, _, s) => (some { user with counterBlocks := some blocks }, s)
      | (false, n, s) => (none, (exitCounterBlocks intf blocks (List.range n) s).free blocks)

def snp4Init.outFailCounters (intf : DrvIntf σ) (snp4User : Nat) (s : Sys σ) : Sys σ :=
  (s.exit (.target snp4User) (intf.targetExit snp4User)).2.free snp4User

/--
Gives the handle of the pipeline, `none` is NULL.
-/
def snp4Init (platform : Platform σ) (sdnetIdx : UInt32) (snp4BaseAddr : UInt64) (s : Sys σ)
    : Option Nat × Sys σ :=
  let user : Snp4UserContext σ := .zeros
  match s.calloc platform (.user user) with
  | (none, s) => (none, s)
  | (some snp4User, s) =>
    match platform.vitisNetP4DrvIntfGet sdnetIdx with
    | none => (none, s.free snp4User)
    | some intf =>
      match intf.stubEnvIf user.env with
      | (false, _) => (none, s.free snp4User)
      | (true, env) =>
        let user := { user with
          intf := some intf
          sdnetIdx
          baseAddr := snp4BaseAddr + intf.offset
          env := { env with
            wordWrite32 := some .deviceWrite
            wordRead32 := some .deviceRead
            userCtx := some snp4User
            logError := some .logError
            logInfo := some .logInfo } }
        let user := snp4LogEnable true none user
        let s := s.write snp4User (.user user)
        match s.init (.target snp4User) (intf.targetInit snp4User user.env intf.config) with
        | (false, s) => (none, s.free snp4User)
        | (true, s) =>
          match snp4InitCounterBlocks platform intf user s with
          | (none, s) => (none, snp4Init.outFailCounters intf snp4User s)
          | (some user, s) =>
            (some snp4User, s.write snp4User (.user (snp4LogEnable false none user)))

-- `none` when the counters of a pipeline are looked for behind NULL
def snp4DeinitCounterBlocks (intf : DrvIntf σ) (snp4User : Nat) (user : Snp4UserContext σ)
    (s : Sys σ)
    : Option (Sys σ) :=
  match user.counterBlocks with
  | some blocks =>
    let s := exitCounterBlocks intf blocks (List.range intf.config.length) s
    some ((s.free blocks).write snp4User (.user { user with counterBlocks := none }))
  | none => if intf.config.length = 0 then some s else none

def snp4Deinit (snp4Handle : Nat) (s : Sys σ) : Option (Bool × Sys σ) :=
  match s.heap.read snp4Handle with
  | some (.user user) =>
    match user.intf with
    | none => none
    | some intf =>
      match snp4DeinitCounterBlocks intf snp4Handle user s with
      | none => none
      | some s =>
        match s.exit (.target snp4Handle) (intf.targetExit snp4Handle) with
        | (false, s) => some (false, s)
        | (true, s) => some (true, s.free snp4Handle)
  | _ => none

-- What the handle of a pipeline stands for
def ownedThrough (snp4User : Nat) : Option (Block σ) → Set Resource
  | some (.user user) =>
    {r | r = .block snp4User ∨ r = .target snp4User ∨
      ∃ blocks, user.counterBlocks = some blocks ∧ (r = .block blocks ∨
        ∃ intf, user.intf = some intf ∧ ∃ n < intf.config.length, r = .counter blocks n)}
  | _ => ∅

def Sys.owns (s : Sys σ) (snp4User : Nat) : Set Resource :=
  ownedThrough snp4User (s.heap.read snp4User)

-- A user context that `snp4_deinit` can be called with
inductive Sys.Ready (platform : Platform σ) (s : Sys σ) (snp4User : Nat) : Prop where
  | intro (user : Snp4UserContext σ) (intf : DrvIntf σ)
      (hget : platform.vitisNetP4DrvIntfGet user.sdnetIdx = some intf)
      (hread : s.heap.read snp4User = some (.user user)) (hintf : user.intf = some intf)
      (hnone : user.counterBlocks = none → intf.config.length = 0)
      (hne : user.counterBlocks ≠ some snp4User)

-- The driver that a context was set up with can report a failure when its target is to exit
def Sys.ExitFails (platform : Platform σ) (s : Sys σ) (snp4User : Nat) : Prop :=
  ∃ user intf world, s.heap.read snp4User = some (.user user) ∧ user.intf = some intf ∧
    platform.vitisNetP4DrvIntfGet user.sdnetIdx = some intf ∧
    (intf.targetExit snp4User world).1 = false

structure Sys.Holds (s : Sys σ) (live : Set Resource) : Prop where
  runs : Lifetimes.Runs Resource.within s.events live
  allocated : ∀ p, .block p ∈ live → p < s.heap.blocks.length

namespace Sys

variable {s : Sys σ} {live : Set Resource} {p : Nat} {b : Block σ} {r : Resource}
variable {call : σ → Bool × σ}

theorem Holds.congr {live' : Set Resource} (h : s.Holds live) (heq : ∀ r, r ∈ live ↔ r ∈ live')
    : s.Holds live' := by
  rw [← Set.ext heq]
  exact h

theorem Holds.write (h : s.Holds live) (p : Nat) (b : Block σ) : (s.write p b).Holds live where
  runs := h.runs
  allocated := by
    intro q hq
    simpa [Sys.write] using h.allocated q hq

theorem Holds.setNumCounters (h : s.Holds live) (p n : Nat) (numCounters : UInt32)
    : (setNumCounters p n numCounters s).Holds live := by
  unfold Snp4Init.setNumCounters
  split
  . exact h.write p _
  . exact h

theorem Holds.free (h : s.Holds live) (hp : .block p ∈ live)
    (hin : ∀ r ∈ live, r.within ≠ some (.block p))
    : (s.free p).Holds (live \ {.block p}) where
  runs := h.runs.concat ⟨hp, hin⟩
  allocated := by
    intro q hq
    exact h.allocated q hq.1

theorem Holds.start (world : σ) : (Sys.start world).Holds ∅ where
  runs := .nil
  allocated := by simp

theorem Holds.exit (h : s.Holds live) (hr : r ∈ live) (hin : ∀ q ∈ live, q.within ≠ some r)
    (call : σ → Bool × σ)
    : (s.exit r call).2.Holds (live \ {r}) where
  runs := h.runs.concat ⟨hr, hin⟩
  allocated := by
    intro q hq
    exact h.allocated q hq.1

@[simp]
theorem exit_heap : (s.exit r call).2.heap = s.heap := by
  rfl

@[simp]
theorem free_heap : (s.free p).heap = s.heap.free p := by
  rfl

@[simp]
theorem write_heap : (s.write p b).heap = s.heap.write p b := by
  rfl

theorem init_cases (h : s.Holds live) (hr : r ∉ live) {q : Resource} (hq : r.within = some q)
    (hlive : q ∈ live) (call : σ → Bool × σ)
    : (∃ s', s.init r call = (false, s') ∧ s'.heap = s.heap ∧ s'.Holds live) ∨
        ∃ s', s.init r call = (true, s') ∧ s'.heap = s.heap ∧ s'.Holds (insert r live) := by
  unfold Sys.init
  split
  . exact .inl ⟨_, rfl, rfl, h.runs, h.allocated⟩
  . refine .inr ⟨_, rfl, rfl, h.runs.concat ⟨hr, ?_⟩, ?_⟩
    . intro q' hq'
      rw [hq] at hq'
      cases hq'
      exact hlive
    . intro p hp
      rcases hp with rfl | hp
      . cases hq
      . exact h.allocated p hp

theorem Holds.fresh (h : s.Holds live) (hp : s.heap.blocks.length ≤ p)
    (hr : r = .block p ∨ r.within = some (.block p))
    : r ∉ live := by
  intro hlive
  have hblock : .block p ∈ live := by
    rcases hr with rfl | hr
    . exact hlive
    . exact h.runs.closed hlive hr
  have := h.allocated p hblock
  omega

-- Freeing the first block that is new leaves what was live before
theorem Holds.free_new {s' : Sys σ} (h : s.Holds live)
    (hs' : s'.Holds (insert (.block s.heap.blocks.length) live))
    : (s'.free s.heap.blocks.length).Holds live := by
  have hnew : .block s.heap.blocks.length ∉ live := h.fresh (Nat.le_refl _) (.inl rfl)
  apply (hs'.free (Set.mem_insert _ _) ?_).congr
  . intro r
    simp only [Set.mem_sdiff, Set.mem_insert_iff, Set.mem_singleton_iff]
    grind
  . rintro r (rfl | hr) hin
    . cases hin
    . exact h.fresh (Nat.le_refl _) (.inr hin) hr

theorem calloc_cases (h : s.Holds live) (platform : Platform σ) (zeros : Block σ)
    : (∃ s', s.calloc platform zeros = (none, s') ∧ s'.heap = s.heap ∧ s'.Holds live) ∨
        ∃ s', s.calloc platform zeros = (some s.heap.blocks.length, s') ∧
          s'.heap = (s.heap.alloc zeros).2 ∧
          s'.Holds (insert (.block s.heap.blocks.length) live) := by
  unfold Sys.calloc
  split
  . exact .inl ⟨_, rfl, rfl, h.runs, h.allocated⟩
  . refine .inr ⟨_, rfl, rfl, h.runs.concat ⟨h.fresh (Nat.le_refl _) (.inl rfl), nofun⟩, ?_⟩
    intro p hp
    rcases hp with hp | hp
    . cases hp
      simp
    . have := h.allocated p hp
      simp
      omega

-- The memory that `P` is about has not changed
def Keeps (P : Nat → Prop) (s s' : Sys σ) : Prop :=
  s.heap.blocks.length ≤ s'.heap.blocks.length ∧ ∀ q, P q → s'.heap.read q = s.heap.read q

variable {P : Nat → Prop} {s' s'' : Sys σ}

theorem Keeps.trans (h : Keeps P s s') (h' : Keeps P s' s'') : Keeps P s s'' :=
  ⟨Nat.le_trans h.1 h'.1, fun q hq => (h'.2 q hq).trans (h.2 q hq)⟩

theorem Keeps.of_heap (h : s'.heap = s.heap) : Keeps P s s' := by
  unfold Keeps
  rw [h]
  exact ⟨Nat.le_refl _, fun _ _ => rfl⟩

theorem Keeps.free : Keeps P s (s.free p) := ⟨Nat.le_refl _, fun _ _ => rfl⟩

theorem Keeps.write (hp : ¬ P p) : Keeps P s (s.write p b) := by
  refine ⟨by simp, ?_⟩
  intro q hq
  apply Heap.read_write_ne
  rintro rfl
  exact hp hq

theorem Keeps.alloc (h : s'.heap = (s.heap.alloc b).2) (hP : ∀ q, P q → q < s.heap.blocks.length)
    : Keeps P s s' := by
  unfold Keeps
  rw [h]
  refine ⟨by simp, ?_⟩
  intro q hq
  exact Heap.read_alloc_of_lt (hP q hq)

theorem Keeps.setNumCounters (hp : ¬ P p) (n : Nat) (numCounters : UInt32)
    : Keeps P s (setNumCounters p n numCounters s) := by
  unfold Snp4Init.setNumCounters
  split
  . exact .write hp
  . exact .of_heap rfl

end Sys

theorem Resource.within_ne_target (r : Resource) (snp4User : Nat)
    : r.within ≠ some (.target snp4User) := by
  cases r <;> simp [Resource.within]

theorem Resource.within_ne_counter (r : Resource) (blocks n : Nat)
    : r.within ≠ some (.counter blocks n) := by
  cases r <;> simp [Resource.within]

def counters (blocks n m : Nat) : Set Resource := {r | ∃ k, n ≤ k ∧ k < m ∧ r = .counter blocks k}

section Counters

variable {s : Sys σ} {live : Set Resource} {blocks n : Nat} {P : Nat → Prop}

theorem go_cases (intf : DrvIntf σ) (env : XilVitisNetP4EnvIf)
    (config : List XilVitisNetP4TargetCounterConfig) (h : s.Holds live)
    (hblock : .block blocks ∈ live) (hfresh : ∀ k, n ≤ k → .counter blocks k ∉ live)
    (hP : ¬ P blocks)
    : ∃ ok m s', snp4InitCounterBlocks.go intf env blocks n config s = (ok, m, s') ∧
        (ok = true → m = n + config.length) ∧ n ≤ m ∧ s.Keeps P s' ∧
        s'.Holds (live ∪ counters blocks n m) := by
  induction config generalizing n s live with
  | nil =>
    refine ⟨true, n, s, rfl, fun _ => rfl, Nat.le_refl _, .of_heap rfl, h.congr ?_⟩
    intro r
    simp only [counters, Set.mem_union, Set.mem_ofPred_eq]
    refine ⟨.inl, ?_⟩
    rintro (hr | ⟨k, hle, hlt, -⟩)
    . exact hr
    . omega
  | cons cnt config ih =>
    unfold snp4InitCounterBlocks.go
    have hset := h.setNumCounters blocks n cnt.numCounters
    have hkeeps : s.Keeps P (setNumCounters blocks n cnt.numCounters s) := .setNumCounters hP _ _
    rcases Sys.init_cases hset (hfresh n (Nat.le_refl _)) rfl hblock
      (intf.counterInit blocks n env cnt)
      with ⟨s', heq, hheap, hs'⟩ | ⟨s', heq, hheap, hs'⟩
    . simp only [heq]
      refine ⟨false, n, s', rfl, by simp, Nat.le_refl _, hkeeps.trans (.of_heap hheap),
        hs'.congr ?_⟩
      intro r
      simp only [counters, Set.mem_union, Set.mem_ofPred_eq]
      refine ⟨.inl, ?_⟩
      rintro (hr | ⟨k, hle, hlt, -⟩)
      . exact hr
      . omega
    . simp only [heq]
      have hfresh' : ∀ k, n + 1 ≤ k → .counter blocks k ∉ insert (.counter blocks n) live := by
        intro k hk hmem
        rcases hmem with heq | hmem
        . cases heq
          omega
        . exact hfresh k (by omega) hmem
      obtain ⟨ok, m, s'', hgo, hok, hle, hkeeps', hs''⟩ :=
        ih hs' (Set.mem_insert_of_mem _ hblock) hfresh'
      refine ⟨ok, m, s'', hgo, ?_, by omega, (hkeeps.trans (.of_heap hheap)).trans hkeeps',
        hs''.congr ?_⟩
      . intro hok'
        have := hok hok'
        simp
        omega
      . intro r
        simp only [counters, Set.mem_union, Set.mem_insert_iff, Set.mem_ofPred_eq]
        constructor
        . rintro ((rfl | hr) | ⟨k, hk, hlt, rfl⟩)
          . exact .inr ⟨n, Nat.le_refl _, by omega, rfl⟩
          . exact .inl hr
          . exact .inr ⟨k, by omega, hlt, rfl⟩
        . rintro (hr | ⟨k, hk, hlt, rfl⟩)
          . exact .inl (.inr hr)
          . by_cases hkn : k = n
            . subst hkn
              exact .inl (.inl rfl)
            . exact .inr ⟨k, by omega, hlt, rfl⟩

@[simp]
theorem exitCounterBlocks_heap (intf : DrvIntf σ) (ns : List Nat)
    : (exitCounterBlocks intf blocks ns s).heap = s.heap := by
  induction ns generalizing s with
  | nil => rfl
  | cons n ns ih =>
    unfold exitCounterBlocks
    rw [ih, Sys.exit_heap]

theorem exitCounterBlocks_holds (intf : DrvIntf σ) {ns : List Nat} (h : s.Holds live)
    (hns : ns.Nodup) (hlive : ∀ k ∈ ns, .counter blocks k ∈ live)
    : (exitCounterBlocks intf blocks ns s).Holds
        (live \ {r | ∃ k ∈ ns, r = .counter blocks k}) := by
  induction ns generalizing s live with
  | nil =>
    apply h.congr
    simp
  | cons n ns ih =>
    obtain ⟨hn, hns⟩ := List.nodup_cons.mp hns
    have hexit := h.exit (hlive n List.mem_cons_self) (fun q _ => q.within_ne_counter blocks n)
      (intf.counterExit blocks n)
    have hrest : ∀ k ∈ ns, .counter blocks k ∈ live \ {.counter blocks n} := by
      intro k hk
      refine ⟨hlive k (List.mem_cons_of_mem _ hk), ?_⟩
      intro heq
      cases heq
      exact hn hk
    apply (ih hexit hns hrest).congr
    intro r
    simp only [Set.mem_sdiff, Set.mem_singleton_iff, Set.mem_ofPred_eq, List.mem_cons]
    grind

theorem snp4InitCounterBlocks_cases (platform : Platform σ) (intf : DrvIntf σ)
    (user : Snp4UserContext σ) (h : s.Holds live) (hP : ∀ q, P q → q < s.heap.blocks.length)
    : (∃ s', snp4InitCounterBlocks platform intf user s = (none, s') ∧ s.Keeps P s' ∧
        s'.Holds live) ∨
      (∃ s', snp4InitCounterBlocks platform intf user s = (some user, s') ∧
        intf.config.length = 0 ∧ s.Keeps P s' ∧ s'.Holds live) ∨
      ∃ s', snp4InitCounterBlocks platform intf user s =
          (some { user with counterBlocks := some s.heap.blocks.length }, s') ∧
        s.Keeps P s' ∧
        s'.Holds (insert (.block s.heap.blocks.length) live ∪
          counters s.heap.blocks.length 0 intf.config.length) := by
  unfold snp4InitCounterBlocks
  split
  . rename_i hlength
    exact .inr (.inl ⟨s, rfl, hlength, .of_heap rfl, h⟩)
  . rcases Sys.calloc_cases h platform
      (.counterBlocks (List.replicate intf.config.length { numCounters := 0 }))
      with ⟨s', heq, hheap, hs'⟩ | ⟨s', heq, hheap, hs'⟩
    . simp only [heq]
      exact .inl ⟨s', rfl, .of_heap hheap, hs'⟩
    . have hnew : ∀ k, .counter s.heap.blocks.length k ∉ live := by
        intro k
        exact h.fresh (Nat.le_refl _) (.inr rfl)
      have hfresh : ∀ k, 0 ≤ k →
          .counter s.heap.blocks.length k ∉ insert (.block s.heap.blocks.length) live := by
        intro k hk hmem
        rcases hmem with heq | hmem
        . cases heq
        . exact hnew k hmem
      have hwritten : ¬ P s.heap.blocks.length := fun hlt => Nat.lt_irrefl _ (hP _ hlt)
      obtain ⟨ok, m, s'', hgo, hok, -, hkeeps, hs''⟩ :=
        go_cases intf user.env intf.config hs' (Set.mem_insert _ _) hfresh hwritten
      have hkeeps' : s.Keeps P s'' := (Sys.Keeps.alloc hheap hP).trans hkeeps
      cases ok with
      | true =>
        rw [hok rfl, Nat.zero_add] at hs''
        simp only [heq, hgo]
        exact .inr (.inr ⟨s'', rfl, hkeeps', hs''⟩)
      | false =>
        simp only [heq, hgo]
        have hall : ∀ k ∈ List.range m, .counter s.heap.blocks.length k ∈
            insert (.block s.heap.blocks.length) live ∪ counters s.heap.blocks.length 0 m := by
          intro k hk
          exact .inr ⟨k, Nat.zero_le _, List.mem_range.mp hk, rfl⟩
        have hexit := exitCounterBlocks_holds intf hs'' List.nodup_range hall
        have hexit' : (exitCounterBlocks intf s.heap.blocks.length (List.range m) s'').Holds
            (insert (.block s.heap.blocks.length) live) := by
          apply hexit.congr
          intro r
          simp only [counters, Set.mem_sdiff, Set.mem_union, Set.mem_insert_iff, Set.mem_ofPred_eq,
            List.mem_range]
          grind
        exact .inl ⟨_, rfl, hkeeps'.trans ((Sys.Keeps.of_heap (by simp)).trans .free),
          h.free_new hexit'⟩

end Counters

theorem Sys.mem_owns {s : Sys σ} {snp4User : Nat} {user : Snp4UserContext σ}
    (hread : s.heap.read snp4User = some (.user user)) (r : Resource)
    : r ∈ s.owns snp4User ↔ r = .block snp4User ∨ r = .target snp4User ∨
        ∃ blocks, user.counterBlocks = some blocks ∧ (r = .block blocks ∨
          ∃ intf, user.intf = some intf ∧ ∃ n < intf.config.length, r = .counter blocks n) := by
  unfold Sys.owns
  rw [hread]
  rfl

section Handles

variable {platform : Platform σ} {s : Sys σ} {live : Set Resource}

-- A user context that is filled in is the handle of what has been set up for it
theorem ready_write {s' : Sys σ} {intf : DrvIntf σ} {own : Set Resource} (h : s.Holds live)
    (user : Snp4UserContext σ) (hget : platform.vitisNetP4DrvIntfGet user.sdnetIdx = some intf)
    (hlt : s.heap.blocks.length < s'.heap.blocks.length)
    (hintf : user.intf = some intf) (hnone : user.counterBlocks = none → intf.config.length = 0)
    (hblocks : ∀ blocks, user.counterBlocks = some blocks → s.heap.blocks.length < blocks)
    (hs' : s'.Holds own)
    (hown : ∀ r, r ∈ own ↔ r ∈ live ∨ r = .block s.heap.blocks.length ∨
      r = .target s.heap.blocks.length ∨ ∃ blocks, user.counterBlocks = some blocks ∧
        (r = .block blocks ∨ ∃ n < intf.config.length, r = .counter blocks n))
    : (s'.write s.heap.blocks.length (.user user)).Ready platform s.heap.blocks.length ∧
        (s'.write s.heap.blocks.length (.user user)).Holds
          (live ∪ (s'.write s.heap.blocks.length (.user user)).owns s.heap.blocks.length) ∧
        ∀ r ∈ (s'.write s.heap.blocks.length (.user user)).owns s.heap.blocks.length, r ∉ live := by
  have hread : (s'.write s.heap.blocks.length (.user user)).heap.read s.heap.blocks.length =
      some (.user user) := Heap.read_write_self hlt
  have hmem := Sys.mem_owns hread
  simp only [hintf, Option.some.injEq, exists_eq_left'] at hmem
  refine ⟨⟨user, intf, hget, hread, hintf, hnone, ?_⟩, (hs'.write _ _).congr ?_, ?_⟩
  . intro heq
    exact Nat.lt_irrefl _ (hblocks _ heq)
  . intro r
    rw [hown, Set.mem_union, hmem]
  . intro r hr
    rw [hmem] at hr
    rcases hr with rfl | rfl | ⟨blocks, heq, rfl | ⟨n, -, rfl⟩⟩
    . exact h.fresh (Nat.le_refl _) (.inl rfl)
    . exact h.fresh (Nat.le_refl _) (.inr rfl)
    . exact h.fresh (Nat.le_of_lt (hblocks _ heq)) (.inl rfl)
    . exact h.fresh (Nat.le_of_lt (hblocks _ heq)) (.inr rfl)

/--
A pipeline whose driver cannot be set up leaves everything as it was.
-/
theorem snp4Init_cases (platform : Platform σ) (sdnetIdx : UInt32) (snp4BaseAddr : UInt64)
    (h : s.Holds live)
    : (∃ s', snp4Init platform sdnetIdx snp4BaseAddr s = (none, s') ∧
        s.Keeps (· < s.heap.blocks.length) s' ∧ s'.Holds live) ∨
      ∃ s', snp4Init platform sdnetIdx snp4BaseAddr s = (some s.heap.blocks.length, s') ∧
        s.Keeps (· < s.heap.blocks.length) s' ∧ s'.Ready platform s.heap.blocks.length ∧
        s'.Holds (live ∪ s'.owns s.heap.blocks.length) ∧
        ∀ r ∈ s'.owns s.heap.blocks.length, r ∉ live := by
  unfold snp4Init
  have hnewTarget : .target s.heap.blocks.length ∉ live := h.fresh (Nat.le_refl _) (.inr rfl)
  have hwritten : ¬ s.heap.blocks.length < s.heap.blocks.length := Nat.lt_irrefl _
  rcases Sys.calloc_cases h platform (.user .zeros) with
    ⟨s₁, heq, hheap, hs₁⟩ | ⟨s₁, heq, hheap, hs₁⟩
  . simp only [heq]
    exact .inl ⟨s₁, rfl, .of_heap hheap, hs₁⟩
  . have hkeeps : s.Keeps (· < s.heap.blocks.length) s₁ := .alloc hheap fun _ hq => hq
    simp only [heq]
    cases hget : platform.vitisNetP4DrvIntfGet sdnetIdx with
    | none => exact .inl ⟨_, rfl, hkeeps.trans .free, h.free_new hs₁⟩
    | some intf =>
      dsimp only
      split
      . exact .inl ⟨_, rfl, hkeeps.trans .free, h.free_new hs₁⟩
      . rename_i env _
        generalize huser : snp4LogEnable true none _ = user
        have hintf : user.intf = some intf := by
          rw [← huser]
          rfl
        have hnone : user.counterBlocks = none := by
          rw [← huser]
          rfl
        have hidx : user.sdnetIdx = sdnetIdx := by
          rw [← huser]
          rfl
        rw [← hidx] at hget
        have hs₂ := hs₁.write s.heap.blocks.length (.user user)
        have hkeeps₂ : s.Keeps (· < s.heap.blocks.length)
            (s₁.write s.heap.blocks.length (.user user)) := hkeeps.trans (.write hwritten)
        have hnewTarget' :
            .target s.heap.blocks.length ∉ insert (.block s.heap.blocks.length) live := by
          rintro (hr | hr)
          . cases hr
          . exact hnewTarget hr
        rcases Sys.init_cases hs₂ hnewTarget' rfl (Set.mem_insert _ _)
          (intf.targetInit s.heap.blocks.length user.env intf.config)
          with ⟨s₃, heq₃, hheap₃, hs₃⟩ | ⟨s₃, heq₃, hheap₃, hs₃⟩
        . simp only [heq₃]
          exact .inl ⟨_, rfl, (hkeeps₂.trans (.of_heap hheap₃)).trans .free, h.free_new hs₃⟩
        . simp only [heq₃]
          have hkeeps₃ := hkeeps₂.trans (.of_heap hheap₃)
          have hlength : s₃.heap.blocks.length = s.heap.blocks.length + 1 := by
            rw [hheap₃, Sys.write_heap, Heap.length_write_blocks, hheap, Heap.alloc_blocks,
              List.length_append, List.length_singleton]
          have hP : ∀ q, q < s.heap.blocks.length → q < s₃.heap.blocks.length := by
            intro q hq
            omega
          have hlt : ∀ s₄, s₃.Keeps (· < s.heap.blocks.length) s₄ →
              s.heap.blocks.length < s₄.heap.blocks.length := by
            intro s₄ hkeeps₄
            have := hkeeps₄.1
            omega
          rcases snp4InitCounterBlocks_cases platform intf user hs₃ hP with
            ⟨s₄, heq₄, hkeeps₄, hs₄⟩ | ⟨s₄, heq₄, hconfig, hkeeps₄, hs₄⟩ | ⟨s₄, heq₄, hkeeps₄, hs₄⟩
          . simp only [heq₄]
            refine .inl ⟨_, rfl, ((hkeeps₃.trans hkeeps₄).trans (.of_heap rfl)).trans .free, ?_⟩
            apply h.free_new
            apply (hs₄.exit (Set.mem_insert _ _) (fun r _ => r.within_ne_target _) _).congr
            intro r
            simp only [Set.mem_sdiff, Set.mem_insert_iff, Set.mem_singleton_iff]
            grind
          . simp only [heq₄]
            refine .inr ⟨_, rfl, (hkeeps₃.trans hkeeps₄).trans (.write hwritten),
              ready_write h _ hget (hlt s₄ hkeeps₄) hintf (fun _ => hconfig) ?_ hs₄ ?_⟩
            . intro blocks hblocks
              simp [snp4LogEnable, hnone] at hblocks
            . intro r
              simp only [snp4LogEnable, hnone, Set.mem_insert_iff]
              grind
          . simp only [heq₄]
            refine .inr ⟨_, rfl, (hkeeps₃.trans hkeeps₄).trans (.write hwritten),
              ready_write h _ hget (hlt s₄ hkeeps₄) hintf nofun ?_ hs₄ ?_⟩
            . intro blocks hblocks
              cases hblocks
              omega
            . intro r
              simp only [snp4LogEnable, counters, Set.mem_union, Set.mem_insert_iff,
                Set.mem_ofPred_eq]
              grind

theorem snp4DeinitCounterBlocks_holds {snp4User : Nat} {user : Snp4UserContext σ} {intf : DrvIntf σ}
    (h : s.Holds live) (hread : s.heap.read snp4User = some (.user user))
    (hintf : user.intf = some intf) (hnone : user.counterBlocks = none → intf.config.length = 0)
    (hne : user.counterBlocks ≠ some snp4User) (hown : s.owns snp4User ⊆ live)
    (hsealed : ∀ q ∈ live, ∀ r ∈ s.owns snp4User, q.within = some r → q ∈ s.owns snp4User)
    : ∃ s', snp4DeinitCounterBlocks intf snp4User user s = some s' ∧ s.Keeps (· ≠ snp4User) s' ∧
        (∃ blocks, s'.heap.read snp4User = some (.user { user with counterBlocks := blocks })) ∧
        s'.Holds (live \ {r | ∃ blocks, user.counterBlocks = some blocks ∧
          (r = .block blocks ∨ ∃ n < intf.config.length, r = .counter blocks n)}) := by
  have hmem := Sys.mem_owns hread
  simp only [hintf, Option.some.injEq, exists_eq_left'] at hmem
  unfold snp4DeinitCounterBlocks
  cases hblocks : user.counterBlocks with
  | none =>
    dsimp only
    rw [if_pos (hnone hblocks)]
    refine ⟨s, rfl, .of_heap rfl, ⟨user.counterBlocks, hread⟩, h.congr ?_⟩
    simp
  | some blocks =>
    have hall : ∀ k ∈ List.range intf.config.length, .counter blocks k ∈ live := by
      intro k hk
      apply hown
      rw [hmem]
      exact .inr (.inr ⟨blocks, hblocks, .inr ⟨k, List.mem_range.mp hk, rfl⟩⟩)
    have hexit := exitCounterBlocks_holds intf h List.nodup_range hall
    have hblock : .block blocks ∈ s.owns snp4User := by
      rw [hmem]
      exact .inr (.inr ⟨blocks, hblocks, .inl rfl⟩)
    have hlt : snp4User < s.heap.blocks.length := (List.getElem?_eq_some_iff.mp hread).1
    refine ⟨_, rfl, (Sys.Keeps.of_heap (by simp)).trans (Sys.Keeps.free.trans (.write (by simp))),
      ⟨none, Heap.read_write_self (by simpa using hlt)⟩, Sys.Holds.write ((hexit.free ⟨hown hblock, by simp⟩ ?_).congr ?_) _ _⟩
    . rintro q ⟨hq, hnot⟩ hin
      -- Only the counters are in these blocks
      have hq' := hsealed q hq _ hblock hin
      rw [hmem] at hq'
      rcases hq' with rfl | rfl | ⟨blocks', heq, rfl | ⟨n, hn, rfl⟩⟩
      . cases hin
      . cases hin
        exact hne hblocks
      . cases hin
      . cases hin
        exact hnot ⟨n, List.mem_range.mpr hn, rfl⟩
    . intro r
      simp only [Set.mem_sdiff, Set.mem_singleton_iff, Set.mem_ofPred_eq, List.mem_range,
        Option.some.injEq, exists_eq_left']
      grind

/--
What a handle stands for is released, apart from the user context when the target does not exit.
-/
theorem snp4Deinit_cases {snp4Handle : Nat} (h : s.Holds live)
    (hready : s.Ready platform snp4Handle) (hown : s.owns snp4Handle ⊆ live)
    (hsealed : ∀ q ∈ live, ∀ r ∈ s.owns snp4Handle, q.within = some r → q ∈ s.owns snp4Handle)
    : ∃ ok s', snp4Deinit snp4Handle s = some (ok, s') ∧ s.Keeps (· ≠ snp4Handle) s' ∧
        s'.Holds {r | r ∈ live ∧ (r ∈ s.owns snp4Handle → ok = false ∧ r = .block snp4Handle)} ∧
        (ok = false → s'.ExitFails platform snp4Handle) := by
  obtain ⟨user, intf, hget, hread, hintf, hnone, hne⟩ := hready
  have hmem := Sys.mem_owns hread
  simp only [hintf, Option.some.injEq, exists_eq_left'] at hmem
  obtain ⟨s', heq, hkeeps, ⟨blocks, hread'⟩, hs'⟩ :=
    snp4DeinitCounterBlocks_holds h hread hintf hnone hne hown hsealed
  have htarget : .target snp4Handle ∈ live \ {r | ∃ blocks, user.counterBlocks = some blocks ∧
      (r = .block blocks ∨ ∃ n < intf.config.length, r = .counter blocks n)} := by
    refine ⟨hown ((hmem _).mpr (.inr (.inl rfl))), ?_⟩
    rintro ⟨blocks, -, hr | ⟨n, -, hr⟩⟩ <;> cases hr
  have hexit := hs'.exit htarget (fun q _ => q.within_ne_target _) (intf.targetExit snp4Handle)
  have hkeeps' : s.Keeps (· ≠ snp4Handle)
      (s'.exit (.target snp4Handle) (intf.targetExit snp4Handle)).2 := hkeeps.trans (.of_heap rfl)
  unfold snp4Deinit
  simp only [hread, hintf, heq]
  split
  . rename_i s'' hs''
    rw [hs''] at hexit hkeeps'
    refine ⟨false, s'', rfl, hkeeps', hexit.congr ?_, ?_⟩
    . intro r
      simp only [hmem, Set.mem_sdiff, Set.mem_singleton_iff, Set.mem_ofPred_eq]
      grind
    . intro _
      have hheap := congrArg (fun r => r.2.heap) hs''
      simp only [Sys.exit_heap] at hheap
      rw [hheap] at hread'
      exact ⟨_, intf, s'.world, hread', hintf, hget, congrArg Prod.fst hs''⟩
  . rename_i s'' hs''
    rw [hs''] at hexit hkeeps'
    refine ⟨true, _, rfl, hkeeps'.trans .free, (hexit.free ?_ ?_).congr ?_, nofun⟩
    . refine ⟨⟨hown ((hmem _).mpr (.inl rfl)), ?_⟩, nofun⟩
      rintro ⟨blocks, hblocks, hr | ⟨n, -, hr⟩⟩
      . cases hr
        exact hne hblocks
      . cases hr
    . rintro q ⟨⟨hq, hnot⟩, hnot'⟩ hin
      have hq' := hsealed q hq _ ((hmem _).mpr (.inl rfl)) hin
      rw [hmem] at hq'
      rcases hq' with rfl | rfl | hq'
      . cases hin
      . exact hnot' rfl
      . exact hnot hq'
    . intro r
      simp only [hmem, Set.mem_sdiff, Set.mem_singleton_iff, Set.mem_ofPred_eq]
      grind

/--
The counters of a pipeline are gone when its target does not exit: calling `snp4_deinit` once more
looks for them behind NULL.
-/
theorem snp4Deinit_again {snp4Handle : Nat} {user : Snp4UserContext σ} {intf : DrvIntf σ}
    {s' : Sys σ} (hread : s.heap.read snp4Handle = some (.user user)) (hintf : user.intf = some intf)
    (hlength : intf.config.length ≠ 0) (hfail : snp4Deinit snp4Handle s = some (false, s'))
    : snp4Deinit snp4Handle s' = none := by
  have hlt : snp4Handle < s.heap.blocks.length := (List.getElem?_eq_some_iff.mp hread).1
  cases hblocks : user.counterBlocks with
  | none => simp [snp4Deinit, snp4DeinitCounterBlocks, hread, hintf, hblocks, hlength] at hfail
  | some blocks =>
    have hread' : s'.heap.read snp4Handle = some (.user { user with counterBlocks := none }) := by
      simp only [snp4Deinit, snp4DeinitCounterBlocks, hread, hintf, hblocks] at hfail
      split at hfail
      . rename_i s'' hs''
        cases hfail
        have hheap := congrArg (fun r => r.2.heap) hs''
        simp only [Sys.exit_heap, Sys.write_heap, Sys.free_heap, exitCounterBlocks_heap] at hheap
        rw [← hheap, hintf]
        exact Heap.read_write_self (by simpa using hlt)
      . cases hfail
    simp [snp4Deinit, snp4DeinitCounterBlocks, hread', hintf, hlength]

end Handles

end

end Snp4Init
