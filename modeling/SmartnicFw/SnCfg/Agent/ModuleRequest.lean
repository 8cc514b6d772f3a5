import SmartnicFw.Lib.Segments
import SmartnicFw.SnCfg.Agent.ModuleMem

/-!
This module contains the loops that the requests about modules have in common (`module.cpp`), the
turns that such a request takes, and what it is to report in each of them.
-/

namespace SnCfg

structure ModuleResponse (α : Type) where
  errorCode : ErrorCode
  devId : Nat
  modId : Nat
  content : Option α
  deriving DecidableEq, Repr

-- What a request selects, and what else about it makes the handler give up
structure Selection where
  devId : Int
  modId : Int
  refused : Option ErrorCode
  deriving DecidableEq, Repr

section Loops

variable {Dev σ α : Type}

-- A module that is passed over has no response
def moduleResponses (respond : Nat → σ → Option (ModuleResponse α) × σ) (modIds : List Nat) (s : σ)
    : List (ModuleResponse α) × σ :=
  match modIds with
  | [] => ([], s)
  | modId :: modIds =>
    let (resp, s) := respond modId s
    let (resps, s) := moduleResponses respond modIds s
    (resp.toList ++ resps, s)

def deviceResponses (devices : List Dev) (nports : Dev → Nat) (sel : Selection)
    (respond : Nat → Dev → Nat → σ → Option (ModuleResponse α) × σ) (devIds : List Nat) (s : σ)
    : Except Stop (List (ModuleResponse α)) :=
  match devIds with
  | [] => .ok []
  | devId :: devIds =>
    match devices[devId]? with
    | none => .error .outOfBounds
    | some dev =>
      if sel.modId > (nports dev : Int) - 1 then do
        let resps ← deviceResponses devices nports sel respond devIds s
        .ok (⟨.EC_INVALID_MODULE_ID, devId, 0, none⟩ :: resps)
      else
        match sel.refused with
        | some err => .ok [⟨err, 0, 0, none⟩]
        | none => do
          let (resps, s) := moduleResponses (respond devId dev) (idRange sel.modId (nports dev)) s
          let rest ← deviceResponses devices nports sel respond devIds s
          .ok (resps ++ rest)

def requestResponses (devices : List Dev) (nports : Dev → Nat) (sel : Selection)
    (respond : Nat → Dev → Nat → σ → Option (ModuleResponse α) × σ) (s : σ)
    : Except Stop (List (ModuleResponse α)) :=
  if sel.devId > (devices.length : Int) - 1 then
    .ok [⟨.EC_INVALID_DEVICE_ID, 0, 0, none⟩]
  else
    deviceResponses devices nports sel respond (idRange sel.devId devices.length) s

end Loops

-- A refusal of the request, or of one of its devices, or a module in the state in which the request
-- comes to it
inductive Turn (Dev σ : Type) where
  | refuse (err : ErrorCode) (devId : Nat)
  | module (devId : Nat) (dev : Dev) (modId : Nat) (s : σ)

section Turns

variable {Dev σ α : Type}

-- `next` is the state after the exchanges with a module
def moduleTurns (next : Nat → σ → σ) (devId : Nat) (dev : Dev) (modIds : List Nat) (s : σ)
    : List (Turn Dev σ) × σ :=
  match modIds with
  | [] => ([], s)
  | modId :: modIds =>
    let (turns, s') := moduleTurns next devId dev modIds (next modId s)
    (.module devId dev modId s :: turns, s')

def deviceTurns (devices : List Dev) (nports : Dev → Nat) (sel : Selection)
    (next : Nat → Dev → Nat → σ → σ) (devIds : List Nat) (s : σ)
    : List (Turn Dev σ) :=
  match devIds with
  | [] => []
  | devId :: devIds =>
    match devices[devId]? with
    | none => []
    | some dev =>
      if sel.modId > (nports dev : Int) - 1 then
        .refuse .EC_INVALID_MODULE_ID devId ::
          deviceTurns devices nports sel next devIds s
      else
        match sel.refused with
        | some err => [.refuse err 0]
        | none =>
          let (turns, s) := moduleTurns (next devId dev) devId dev
            (idRange sel.modId (nports dev)) s
          turns ++ deviceTurns devices nports sel next devIds s

def requestTurns (devices : List Dev) (nports : Dev → Nat) (sel : Selection)
    (next : Nat → Dev → Nat → σ → σ) (s : σ)
    : List (Turn Dev σ) :=
  if sel.devId > (devices.length : Int) - 1 then
    [.refuse .EC_INVALID_DEVICE_ID 0]
  else
    deviceTurns devices nports sel next (idRange sel.devId devices.length) s

def Turn.responses (respond : Nat → Dev → Nat → σ → Option (ModuleResponse α) × σ)
    (turn : Turn Dev σ)
    : List (ModuleResponse α) :=
  match turn with
  | .refuse err devId => [⟨err, devId, 0, none⟩]
  | .module devId dev modId s => (respond devId dev modId s).1.toList

theorem idRange_lt {id : Int} {n : Nat} (hid : ¬ id > (n : Int) - 1) {k : Nat}
    (hk : k ∈ idRange id n)
    : k < n := by
  unfold idRange at hk
  split at hk
  . rw [List.mem_singleton] at hk
    omega
  . exact List.mem_range.mp hk

variable {devices : List Dev} {nports : Dev → Nat} {sel : Selection}
  {respond : Nat → Dev → Nat → σ → Option (ModuleResponse α) × σ}

theorem moduleResponses_eq (devId : Nat) (dev : Dev) (modIds : List Nat) (s : σ)
    : moduleResponses (respond devId dev) modIds s =
        let (turns, s') := moduleTurns (fun modId s => (respond devId dev modId s).2) devId dev
          modIds s
        (turns.flatMap (Turn.responses respond), s') := by
  induction modIds generalizing s with
  | nil => rfl
  | cons modId modIds ih =>
    simp only [moduleResponses, moduleTurns, ih, List.flatMap_cons]
    rfl

theorem deviceResponses_eq {devIds : List Nat} (h : ∀ devId ∈ devIds, devId < devices.length)
    (s : σ)
    : deviceResponses devices nports sel respond devIds s =
        .ok ((deviceTurns devices nports sel
          (fun devId dev modId s => (respond devId dev modId s).2) devIds s).flatMap
            (Turn.responses respond)) := by
  induction devIds generalizing s with
  | nil => rfl
  | cons devId devIds ih =>
    have hlt : devId < devices.length := h devId List.mem_cons_self
    have hdev := List.getElem?_eq_getElem hlt
    have hrest := ih fun devId hmem => h devId (List.mem_cons_of_mem _ hmem)
    unfold deviceResponses deviceTurns
    simp only [hdev]
    by_cases hmod : sel.modId > (nports devices[devId] : Int) - 1
    . rw [if_pos hmod, if_pos hmod, hrest]
      rfl
    . rw [if_neg hmod, if_neg hmod]
      cases sel.refused with
      | some err => rfl
      | none =>
        simp only [moduleResponses_eq, hrest, List.flatMap_append]
        rfl

-- A request is answered turn by turn
theorem requestResponses_eq (s : σ)
    : requestResponses devices nports sel respond s =
        .ok ((requestTurns devices nports sel
          (fun devId dev modId s => (respond devId dev modId s).2) s).flatMap
            (Turn.responses respond)) := by
  unfold requestResponses requestTurns
  by_cases hdev : sel.devId > (devices.length : Int) - 1
  . rw [if_pos hdev, if_pos hdev]
    rfl
  . rw [if_neg hdev, if_neg hdev]
    apply deviceResponses_eq
    intro devId hmem
    exact idRange_lt hdev hmem

end Turns

section Reports

variable {Dev σ α : Type}

-- What the response for a module is to say about the first step that failed, or about the content,
-- given by what must hold of it. Modules that are absent are passed over in a range.
def Reports (isRange : Bool) (devId modId : Nat) (found : Except ErrorCode (Option α → Prop))
    (resps : List (ModuleResponse α))
    : Prop :=
  match found with
  | .error err =>
    resps = if isRange ∧ err = .EC_MODULE_NOT_PRESENT then [] else [⟨err, devId, modId, none⟩]
  | .ok content => ∃ c, content c ∧ resps = [⟨.EC_OK, devId, modId, c⟩]

def Turn.Reports (isRange : Bool)
    (found : Nat → Dev → Nat → σ → Except ErrorCode (Option α → Prop)) (turn : Turn Dev σ)
    (resps : List (ModuleResponse α))
    : Prop :=
  match turn with
  | .refuse err devId => resps = [⟨err, devId, 0, none⟩]
  | .module devId dev modId s => SnCfg.Reports isRange devId modId (found devId dev modId s) resps

variable {respond : Nat → Dev → Nat → σ → Option (ModuleResponse α) × σ} {isRange : Bool}
  {found : Nat → Dev → Nat → σ → Except ErrorCode (Option α → Prop)} {turns : List (Turn Dev σ)}

-- The responses are the reports of the turns if and only if this is so of each module by itself
theorem reports_iff
    (hskip : ∀ devId dev modId s, (respond devId dev modId s).1 ≠ none →
      found devId dev modId s ≠ .error .EC_MODULE_NOT_PRESENT ∨ isRange = false)
    : Segments.Joined (Turn.Reports isRange found) turns
          (turns.flatMap (Turn.responses respond)) ↔
        ∀ devId dev modId s, .module devId dev modId s ∈ turns →
          Reports isRange devId modId (found devId dev modId s)
            (respond devId dev modId s).1.toList := by
  rw [Segments.joined_flatMap_iff]
  . constructor
    . intro h devId dev modId s hmem
      exact h _ hmem
    . intro h turn hmem
      cases turn with
      | refuse err devId => rfl
      | module devId dev modId s => exact h devId dev modId s hmem
  . intro turn _ l hl
    cases turn with
    | refuse err devId =>
      cases hl
      exact le_refl _
    | module devId dev modId s =>
      simp only [Turn.Reports, Turn.responses] at hl ⊢
      cases hresp : (respond devId dev modId s).1 with
      | none => exact Nat.zero_le _
      | some resp =>
        have hne := hskip devId dev modId s (by simp [hresp])
        unfold Reports at hl
        cases hfound : found devId dev modId s with
        | error err =>
          rw [hfound] at hl hne
          rw [hl, if_neg]
          . simp
          . rintro ⟨hrange, rfl⟩
            simp [hrange] at hne
        | ok content =>
          rw [hfound] at hl
          obtain ⟨c, -, rfl⟩ := hl
          simp

end Reports

end SnCfg
