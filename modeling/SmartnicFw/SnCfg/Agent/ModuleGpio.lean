import SmartnicFw.Lib.SharedUpdates
import SmartnicFw.SnCfg.Agent.ModuleMem

/-!
This module contains requests that set the signals of the modules from several threads at once
(`module.cpp`): each of them reads and writes the signals of one module after the other, in two
exchanges with the card management system of which each holds the lock (`cms.c`).
-/

namespace SnCfg.Gpio

open SharedUpdates (Semantics Completed Fresh Serial start step)

-- Values that the enumeration does not name are received as they are
inductive ModuleGpioState where
  | GPIO_STATE_UNKNOWN
  | GPIO_STATE_ASSERT
  | GPIO_STATE_DEASSERT
  | other (value : Int)
  deriving DecidableEq, Repr

-- The signals of a request that can be set
structure ModuleGpio where
  reset : ModuleGpioState
  lowPowerMode : ModuleGpioState
  deriving DecidableEq, Repr

structure ModuleGpioRequest where
  devId : Int
  modId : Int
  gpio : ModuleGpio
  deriving DecidableEq, Repr

structure ModuleGpioResponse where
  errorCode : ErrorCode
  devId : Nat
  modId : Nat
  deriving DecidableEq, Repr

def boolIfHasGpioState (assert : Bool) (state : ModuleGpioState) : Bool :=
  if state ≠ .GPIO_STATE_UNKNOWN then decide (state = .GPIO_STATE_ASSERT) else assert

-- The word of the mailbox that `cms_module_gpio_read` is answered with
def gpioOfWord (word : BitVec 32) : CmsModuleGpioQsfp :=
  { reset := !word.getLsbD 0
    lowPowerMode := word.getLsbD 1
    select := !word.getLsbD 2
    present := !word.getLsbD 3
    interrupt := !word.getLsbD 4 }

-- The word of the mailbox that `cms_module_gpio_write` requests
def gpioToWord (gpio : CmsModuleGpioQsfp) : BitVec 32 :=
  (if gpio.reset then 0 else 1) ||| (if gpio.lowPowerMode then 2 else 0)

-- What the card management system makes of the signals of a module when it is requested to write a
-- word: those that can be written are as in the word
structure Card where
  setSignals : BitVec 32 → BitVec 32 → BitVec 32
  writable (signals word : BitVec 32) {i : Nat} (h : i < 2)
    : (setSignals signals word).getLsbD i = word.getLsbD i

-- One turn of the loop over the modules
structure GpioUpdate where
  devId : Nat
  cage : BitVec 2
  gpio : ModuleGpio
  deriving DecidableEq, Repr

def GpioUpdate.change (u : GpioUpdate) (gpio : CmsModuleGpioQsfp) : CmsModuleGpioQsfp :=
  { gpio with
    reset := boolIfHasGpioState gpio.reset u.gpio.reset
    lowPowerMode := boolIfHasGpioState gpio.lowPowerMode u.gpio.lowPowerMode }

-- Each of the exchanges can fail, and the loop goes on
def gpioSemantics (card : Card) : Semantics GpioUpdate (Nat × BitVec 2) (BitVec 32) where
  loc u := (u.devId, u.cage)
  write u held signals := card.setSignals signals (gpioToWord (u.change (gpioOfWord held)))
  fallible := true

def selectModules (modId : Int) (nports : Nat) : List Nat :=
  if modId > -1 then [modId.toNat] else List.range nports

-- What a request is answered at once for a device, or the modules that it goes through
def setDeviceGpio (req : ModuleGpioRequest) (devId nports : Nat)
    : List (ModuleGpioResponse ⊕ GpioUpdate) :=
  if req.modId > (nports : Int) - 1 then
    [.inl ⟨.EC_INVALID_MODULE_ID, devId, 0⟩]
  else
    (selectModules req.modId nports).map fun modId => .inr ⟨devId, BitVec.ofNat 2 modId, req.gpio⟩

-- The devices are given by the number of their ports
def setModuleGpio (req : ModuleGpioRequest) (nports : List Nat)
    : List (ModuleGpioResponse ⊕ GpioUpdate) :=
  if req.devId > (nports.length : Int) - 1 then
    [.inl ⟨.EC_INVALID_DEVICE_ID, 0, 0⟩]
  else
    (if req.devId > -1 then [req.devId.toNat] else List.range nports.length).flatMap fun devId =>
      match nports[devId]? with
      | none => []
      | some nports => setDeviceGpio req devId nports

-- A request whose answers at once are all EC_OK is not refused
def refusals (req : ModuleGpioRequest) (nports : List Nat) : List ModuleGpioResponse :=
  (setModuleGpio req nports).filterMap Sum.getLeft?

def gpioProgram (req : ModuleGpioRequest) (nports : List Nat) : List GpioUpdate :=
  (setModuleGpio req nports).filterMap Sum.getRight?

-- The signals that can be set
inductive Signal where
  | reset
  | lowPowerMode
  deriving DecidableEq, Repr

def Signal.get (signal : Signal) (word : BitVec 32) : Bool :=
  match signal with
  | .reset => (gpioOfWord word).reset
  | .lowPowerMode => (gpioOfWord word).lowPowerMode

def Signal.state (signal : Signal) (gpio : ModuleGpio) : ModuleGpioState :=
  match signal with
  | .reset => gpio.reset
  | .lowPowerMode => gpio.lowPowerMode

def ModuleGpioState.value? (state : ModuleGpioState) : Option Bool :=
  match state with
  | .GPIO_STATE_UNKNOWN => none
  | state => some (decide (state = .GPIO_STATE_ASSERT))

def ModuleGpioRequest.Selects (req : ModuleGpioRequest) (nports : List Nat) (devId : Nat)
    (cage : BitVec 2)
    : Prop :=
  (req.devId < 0 ∨ req.devId = devId) ∧
    ∃ n, nports[devId]? = some n ∧
      ∃ modId < n, (req.modId < 0 ∨ req.modId = modId) ∧ BitVec.ofNat 2 modId = cage

section Signals

variable {card : Card}

theorem get_setSignals (signal : Signal) (signals word : BitVec 32)
    : signal.get (card.setSignals signals word) = signal.get word := by
  cases signal with
  | reset =>
    simp only [Signal.get, gpioOfWord]
    rw [card.writable signals word (by omega)]
  | lowPowerMode =>
    simp only [Signal.get, gpioOfWord]
    rw [card.writable signals word (by omega)]

theorem gpioOfWord_gpioToWord (gpio : CmsModuleGpioQsfp)
    : (gpioOfWord (gpioToWord gpio)).reset = gpio.reset ∧
        (gpioOfWord (gpioToWord gpio)).lowPowerMode = gpio.lowPowerMode := by
  obtain ⟨reset, lowPowerMode, select, present, interrupt⟩ := gpio
  cases reset <;> cases lowPowerMode <;> decide +revert

theorem boolIfHasGpioState_eq (assert : Bool) (state : ModuleGpioState)
    : boolIfHasGpioState assert state = state.value?.getD assert := by
  cases state <;> rfl

theorem get_write (signal : Signal) (u : GpioUpdate) (held signals : BitVec 32)
    : signal.get ((gpioSemantics card).write u held signals) =
        (signal.state u.gpio).value?.getD (signal.get held) := by
  obtain ⟨hreset, hlowPowerMode⟩ := gpioOfWord_gpioToWord (u.change (gpioOfWord held))
  simp only [gpioSemantics]
  rw [get_setSignals]
  cases signal with
  | reset =>
    simp only [Signal.get, Signal.state, hreset]
    apply boolIfHasGpioState_eq
  | lowPowerMode =>
    simp only [Signal.get, Signal.state, hlowPowerMode]
    apply boolIfHasGpioState_eq

end Signals

section Programs

variable {req : ModuleGpioRequest} {nports : List Nat}

theorem mem_setDeviceGpio {devId n : Nat} {u : GpioUpdate}
    : Sum.inr u ∈ setDeviceGpio req devId n ↔ u.devId = devId ∧ u.gpio = req.gpio ∧
        ∃ modId < n, (req.modId < 0 ∨ req.modId = modId) ∧ BitVec.ofNat 2 modId = u.cage := by
  have hmem : ¬ req.modId > (n : Int) - 1 → ∀ modId,
      modId ∈ selectModules req.modId n ↔ modId < n ∧ (req.modId < 0 ∨ req.modId = modId) := by
    intro hrange modId
    unfold selectModules
    split
    . rw [List.mem_singleton]
      omega
    . rw [List.mem_range]
      omega
  unfold setDeviceGpio
  split
  . next hrange =>
    simp only [List.mem_singleton, reduceCtorEq, false_iff]
    rintro ⟨-, -, modId, hlt, hsel, -⟩
    omega
  . next hrange =>
    simp only [List.mem_map, Sum.inr.injEq, hmem hrange]
    constructor
    . rintro ⟨modId, ⟨hlt, hsel⟩, rfl⟩
      exact ⟨rfl, rfl, modId, hlt, hsel, rfl⟩
    . rintro ⟨rfl, hgpio, modId, hlt, hsel, hcage⟩
      refine ⟨modId, ⟨hlt, hsel⟩, ?_⟩
      rw [hcage, ← hgpio]

theorem mem_gpioProgram {u : GpioUpdate}
    : u ∈ gpioProgram req nports ↔ u.gpio = req.gpio ∧ req.Selects nports u.devId u.cage := by
  have hmem : u ∈ gpioProgram req nports ↔ Sum.inr u ∈ setModuleGpio req nports := by
    unfold gpioProgram
    rw [List.mem_filterMap]
    constructor
    . rintro ⟨item, hitem, hright⟩
      rwa [← Sum.getRight?_eq_some_iff.mp hright]
    . intro hitem
      exact ⟨_, hitem, rfl⟩
  rw [hmem]
  unfold setModuleGpio ModuleGpioRequest.Selects
  split
  . next hrange =>
    simp only [List.mem_singleton, reduceCtorEq, false_iff]
    rintro ⟨-, hsel, n, hn, -⟩
    have hlt := (List.getElem?_eq_some_iff.mp hn).1
    omega
  . next hrange =>
    rw [List.mem_flatMap]
    constructor
    . rintro ⟨devId, hdev, hu⟩
      split at hu
      . contradiction
      . next n hn =>
        obtain ⟨rfl, hgpio, hmod⟩ := mem_setDeviceGpio.mp hu
        refine ⟨hgpio, ?_, n, hn, hmod⟩
        split at hdev
        . rw [List.mem_singleton] at hdev
          omega
        . omega
    . rintro ⟨hgpio, hsel, n, hn, hmod⟩
      refine ⟨u.devId, ?_, ?_⟩
      . have hlt := (List.getElem?_eq_some_iff.mp hn).1
        split
        . rw [List.mem_singleton]
          omega
        . exact List.mem_range.mpr hlt
      . rw [hn]
        exact mem_setDeviceGpio.mpr ⟨rfl, hgpio, hmod⟩

end Programs

section Threads

variable {T : Type} [DecidableEq T]

-- Any number of requests are handled at once, each by a thread of its own
def startRequests (nports : List Nat) (reqs : T → ModuleGpioRequest)
    (mem : Nat × BitVec 2 → BitVec 32)
    : SharedUpdates.State T GpioUpdate (Nat × BitVec 2) (BitVec 32) :=
  start mem fun t => gpioProgram (reqs t) nports

-- A request sets a signal of a module to a value
def Sets (nports : List Nat) (req : ModuleGpioRequest) (devId : Nat) (cage : BitVec 2)
    (signal : Signal) (value : Bool)
    : Prop :=
  req.Selects nports devId cage ∧ (signal.state req.gpio).value? = some value

-- What an update sets a signal of a module to
def GpioUpdate.set? (devId : Nat) (cage : BitVec 2) (signal : Signal) (u : GpioUpdate)
    : Option Bool :=
  if (u.devId, u.cage) = (devId, cage) then (signal.state u.gpio).value? else none

variable {nports : List Nat} {req : ModuleGpioRequest} {devId : Nat} {cage : BitVec 2}
variable {signal : Signal}

theorem set?_eq_none (hunset : ∀ value, ¬ Sets nports req devId cage signal value)
    {u : GpioUpdate} (hmem : u ∈ gpioProgram req nports)
    : u.set? devId cage signal = none := by
  unfold GpioUpdate.set?
  split
  . next hloc =>
    cases hloc
    obtain ⟨hgpio, hsel⟩ := mem_gpioProgram.mp hmem
    rw [hgpio, Option.eq_none_iff_forall_ne_some]
    intro value hvalue
    exact hunset value ⟨hsel, hvalue⟩
  . rfl

theorem lastSome_set? {value : Bool} (hset : Sets nports req devId cage signal value)
    : lastSome (GpioUpdate.set? devId cage signal) (gpioProgram req nports) = some value := by
  obtain ⟨hsel, hvalue⟩ := hset
  have hu : (⟨devId, cage, req.gpio⟩ : GpioUpdate) ∈ gpioProgram req nports :=
    mem_gpioProgram.mpr ⟨rfl, hsel⟩
  cases hlast : lastSome (GpioUpdate.set? devId cage signal) (gpioProgram req nports) with
  | none =>
    have hnone := lastSome_eq_none_iff.mp hlast _ hu
    simp [GpioUpdate.set?, hvalue] at hnone
  | some last =>
    obtain ⟨u, hmem, hset⟩ := lastSome_mem hlast
    unfold GpioUpdate.set? at hset
    split at hset
    . rw [(mem_gpioProgram.mp hmem).1, hvalue] at hset
      exact hset.symm
    . contradiction

-- As long as every write finds in the signals of the module that the request does not set what it has
-- read, no update of the module is lost. What no request sets is kept in any case.
theorem setModuleGpio_threads (card : Card) (nports : List Nat) (reqs : T → ModuleGpioRequest)
    (mem : Nat × BitVec 2 → BitVec 32) (devId : Nat) (cage : BitVec 2)
    (ls : List (SharedUpdates.Label T))
    : let M := gpioSemantics card
      let loc := (devId, cage)
      let s₀ := startRequests nports reqs mem
      (Transition.StatesSatisfy (step M) (Serial M mem loc) s₀ ls ↔
        Transition.StepsSatisfy (step M) (Fresh M loc) s₀ ls) ∧
      (Transition.StepsSatisfy (step M) (Fresh M loc) s₀ ls →
        ∀ s, Transition.run (step M) s₀ ls = some s → Completed s →
          ∀ t signal value, Sets nports (reqs t) devId cage signal value →
            (∀ t' ≠ t, ∀ value', ¬ Sets nports (reqs t') devId cage signal value') →
            signal.get (s.mem loc) = value) ∧
      ∀ s, Transition.run (step M) s₀ ls = some s → ∀ signal,
        (∀ t value, ¬ Sets nports (reqs t) devId cage signal value) →
        signal.get (s.mem loc) = signal.get (mem loc) := by
  intro M loc s₀
  refine ⟨SharedUpdates.serial_iff_fresh (SharedUpdates.serial_start loc) ls, ?_, ?_⟩
  . intro hfresh s hrun hdone t signal value hset hothers
    have happly : ∀ t', ∀ u ∈ gpioProgram (reqs t') nports, ∀ mem,
        signal.get (M.apply mem u loc) =
          (u.set? devId cage signal).getD (signal.get (mem loc)) := by
      intro t' u _
      apply SharedUpdates.get_apply
      . intro hloc v
        unfold GpioUpdate.set?
        apply (get_write signal u v v).trans
        congr 1
        exact (if_pos hloc).symm
      . intro hloc
        exact if_neg hloc
    have halone := SharedUpdates.get_of_completed happly
      (fun t' ht u hmem => set?_eq_none (hothers t' ht) hmem) hfresh hrun hdone
    apply halone.trans
    have hfold := get_foldl_lastSome M.apply (fun mem => signal.get (mem loc))
      (fun mem u hmem => happly t u hmem mem) mem
    apply hfold.trans
    rw [lastSome_set? hset]
    rfl
  . intro s hrun signal hunset
    have hkeep : ∀ t, ∀ u ∈ gpioProgram (reqs t) nports, M.loc u = loc →
        ∀ v signals, signal.get (M.write u v signals) = signal.get v := by
      intro t u hmem hloc v signals
      have hnone : (signal.state u.gpio).value? = none :=
        (if_pos hloc).symm.trans (set?_eq_none (hunset t) hmem)
      apply (get_write signal u v signals).trans
      rw [hnone]
      rfl
    exact SharedUpdates.get_of_unset hkeep hrun

end Threads

-- A card on which the other signals stay as they are
def exampleCard : Card where
  setSignals signals word := (signals &&& ~~~3) ||| (word &&& 3)
  writable signals word i h := by
    match i, h with
    | 0, _ => simp
    | 1, _ => simp [BitVec.getLsbD_eq_getElem]

-- Two requests for the same module, of which one resets it and the other one puts it in low-power mode
def setSignal (t : Bool) : ModuleGpioRequest :=
  { devId := 0, modId := 0
    gpio :=
      if t then
        ⟨.GPIO_STATE_UNKNOWN, .GPIO_STATE_ASSERT⟩
      else
        ⟨.GPIO_STATE_ASSERT, .GPIO_STATE_UNKNOWN⟩ }

theorem setModuleGpio_threads_serial
    : let s₀ := startRequests [1] setSignal fun _ => 1
      let ls := [.read false, .write false, .read true, .write true]
      ∃ s, Transition.run (step (gpioSemantics exampleCard)) s₀ ls = some s ∧
        Signal.reset.get (s.mem (0, 0)) = true := by
  intro s₀ ls
  have hspec := (setModuleGpio_threads exampleCard [1] setSignal (fun _ => 1) 0 0 ls).2.1
  refine ⟨_, rfl, hspec ?_ _ rfl ?_ false .reset true ?_ ?_⟩
  . rintro s₁ ⟨⟩
    refine ⟨trivial, ?_⟩
    rintro s₂ ⟨⟩
    refine ⟨?_, ?_⟩
    . rintro u rest v ⟨⟩ ⟨⟩ _
      rfl
    . rintro s₃ ⟨⟩
      refine ⟨trivial, ?_⟩
      rintro s₄ ⟨⟩
      refine ⟨?_, trivial⟩
      rintro u rest v ⟨⟩ ⟨⟩ _
      rfl
  . intro t
    cases t <;> exact ⟨rfl, rfl⟩
  . exact ⟨⟨Or.inr rfl, 1, rfl, 0, by decide, Or.inr rfl, rfl⟩, rfl⟩
  . intro t ht value
    cases t
    . contradiction
    . rintro ⟨-, hvalue⟩
      cases hvalue

-- Both requests read the module before one of them writes it, and the reset is taken back
theorem setModuleGpio_threads_lost
    : ¬ ∀ card ls s, Transition.run (step (gpioSemantics card))
          (startRequests [1] setSignal fun _ => 1) ls = some s → Completed s →
        (∀ t, refusals (setSignal t) [1] = []) →
        ∀ t signal value, Sets [1] (setSignal t) 0 0 signal value →
          (∀ t' ≠ t, ∀ value', ¬ Sets [1] (setSignal t') 0 0 signal value') →
          signal.get (s.mem (0, 0)) = value := by
  intro h
  have hlost := h exampleCard [.read false, .read true, .write false, .write true] _ rfl
    (by intro t; cases t <;> exact ⟨rfl, rfl⟩) (by intro t; cases t <;> rfl) false .reset true
    ⟨⟨Or.inr rfl, 1, rfl, 0, by decide, Or.inr rfl, rfl⟩, rfl⟩
    (by
      intro t ht value
      cases t
      . contradiction
      . rintro ⟨-, hvalue⟩
        cases hvalue)
  revert hlost
  decide

end SnCfg.Gpio
