import Mathlib.Data.List.Basic

/-!
This module contains the batch command of the client (`client.py`): the requests of its sub-commands
are streamed to the server, and each response is offered to the processors of the sub-commands until
one of them takes it.
-/

namespace Batch

inductive Item where
  | deviceInfo
  | pipelineInfo
  | pipelineStats
  | table
  | tableRule
  | stats
  | serverStatus
  | serverConfig
  deriving DecidableEq, Repr

inductive BatchOperation where
  | BOP_UNKNOWN
  | BOP_GET
  | BOP_SET
  | BOP_CLEAR
  | BOP_INSERT
  | BOP_DELETE
  deriving DecidableEq, Repr

-- The error codes as they are on the wire, `EC_OK` being 0
abbrev ErrorCode := Nat

variable {K P : Type}

-- The processor of a sub-command, with the options that it displays a response with. Those of some
-- items have none, and are the same for all sub-commands.
structure Processor (K : Type) where
  item : Item
  kargs : Option K
  deriving DecidableEq, Repr

-- A sub-command, whose request has the item and the operation
structure Command (K : Type) where
  op : BatchOperation
  item : Item
  kargs : K
  deriving DecidableEq, Repr

structure ItemResponse (P : Type) where
  errorCode : ErrorCode
  payload : P
  deriving DecidableEq, Repr

structure BatchResponse (P : Type) where
  errorCode : ErrorCode
  op : BatchOperation
  item : Option (Item × ItemResponse P)
  deriving DecidableEq, Repr

inductive ClientError where
  | remoteFailure (errorCode : ErrorCode)
  | unsupportedOp
  | unhandledItem
  deriving DecidableEq, Repr

def hasKargs (item : Item) : Bool :=
  match item with
  | .pipelineStats | .table | .tableRule | .stats => true
  | .deviceInfo | .pipelineInfo | .serverStatus | .serverConfig => false

def Command.processor (command : Command K) : Processor K :=
  { item := command.item
    kargs := if hasKargs command.item then some command.kargs else none }

def supportedOps (item : Item) : List (BatchOperation × String) :=
  match item with
  | .deviceInfo | .pipelineInfo | .serverStatus => [(.BOP_GET, "Got")]
  | .pipelineStats | .stats => [(.BOP_GET, "Got"), (.BOP_CLEAR, "Cleared")]
  | .table => [(.BOP_CLEAR, "Cleared")]
  | .tableRule => [(.BOP_INSERT, "Inserted rule into"), (.BOP_DELETE, "Deleted rule from")]
  | .serverConfig => [(.BOP_GET, "Got"), (.BOP_SET, "Configured")]

-- Does the processor take the response, or end the command with an error?
def Processor.process (proc : Processor K) (resp : BatchResponse P) : Except ClientError Bool :=
  match resp.item with
  | none => .ok false
  | some (item, body) =>
    if item ≠ proc.item then
      .ok false
    else
      match (supportedOps item).lookup resp.op with
      | none => .error .unsupportedOp
      | some _ => if body.errorCode ≠ 0 then .error (.remoteFailure body.errorCode) else .ok true

-- The processor that the response comes to an end with, and whether the command goes on
def offer (procs : List (Processor K)) (resp : BatchResponse P)
    : Option (Processor K) × Except ClientError Unit :=
  match procs with
  | [] => (none, .error .unhandledItem)
  | proc :: procs =>
    match proc.process resp with
    | .error err => (some proc, .error err)
    | .ok true => (some proc, .ok ())
    | .ok false => offer procs resp

-- The responses with the processors that they have been handed to, and how the command ends
def batchCallback (procs : List (Processor K)) (resps : List (BatchResponse P))
    : List (Option (Processor K) × BatchResponse P) × Except ClientError Unit :=
  match resps with
  | [] => ([], .ok ())
  | resp :: resps =>
    if resp.errorCode ≠ 0 then
      ([], .error (.remoteFailure resp.errorCode))
    else
      match offer procs resp with
      | (proc, .error err) => ([(proc, resp)], .error err)
      | (proc, .ok ()) =>
        let (handed, res) := batchCallback procs resps
        ((proc, resp) :: handed, res)

-- What the server answers to a request: an error, or a response with the item of the request
inductive Answer (P : Type) where
  | error (errorCode : ErrorCode) (h : errorCode ≠ 0)
  | item (body : ItemResponse P)

def Answer.response (answer : Answer P) (command : Command K) : BatchResponse P :=
  match answer with
  | .error errorCode _ => { errorCode, op := command.op, item := none }
  | .item body => { errorCode := 0, op := command.op, item := some (command.item, body) }

-- The sub-commands in their order, with what the server answers to each of them
abbrev Exchange (K P : Type) := List (Command K × List (Answer P))

def Exchange.processors (exchange : Exchange K P) : List (Processor K) :=
  exchange.map fun e => e.1.processor

-- The responses in their order, with the sub-commands of the requests that produced them
def Exchange.responses (exchange : Exchange K P) : List (Command K × BatchResponse P) :=
  exchange.flatMap fun e => e.2.map fun answer => (e.1, answer.response e.1)

-- The same when each response is handed to the processor of the sub-command that produced it
def paired (resps : List (Command K × BatchResponse P))
    : List (Option (Processor K) × BatchResponse P) × Except ClientError Unit :=
  match resps with
  | [] => ([], .ok ())
  | (command, resp) :: resps =>
    if resp.errorCode ≠ 0 then
      ([], .error (.remoteFailure resp.errorCode))
    else
      match offer [command.processor] resp with
      | (proc, .error err) => ([(proc, resp)], .error err)
      | (proc, .ok ()) =>
        let (handed, res) := paired resps
        ((proc, resp) :: handed, res)

def Exchange.Paired (exchange : Exchange K P) : Prop :=
  batchCallback exchange.processors (exchange.responses.map Prod.snd) = paired exchange.responses

-- A response that does not end the command
def succeeds (resp : BatchResponse P) : Bool :=
  decide (resp.errorCode = 0) &&
    match resp.item with
    | none => false
    | some (item, body) => ((supportedOps item).lookup resp.op).isSome && decide (body.errorCode = 0)

-- Each response that is not an error, and that no earlier one keeps the command from, is one to a
-- sub-command whose processor is also that of the first sub-command with its item
def Exchange.Unshadowed (exchange : Exchange K P) : Prop :=
  ∀ before command resp after, exchange.responses = before ++ (command, resp) :: after →
    (∀ p ∈ before, succeeds p.2 = true) → resp.errorCode = 0 →
      exchange.processors.find? (fun proc => proc.item = command.item) = some command.processor

section Offer

variable {procs : List (Processor K)} {resp : BatchResponse P}

-- How a response ends does not depend on the options of the processor that takes it
def outcome (op : BatchOperation) (item : Item) (body : ItemResponse P)
    : Except ClientError Unit :=
  match (supportedOps item).lookup op with
  | none => .error .unsupportedOp
  | some _ => if body.errorCode ≠ 0 then .error (.remoteFailure body.errorCode) else .ok ()

theorem offer_eq {item : Item} {body : ItemResponse P} (h : resp.item = some (item, body))
    {proc : Processor K} (hproc : procs.find? (fun proc => proc.item = item) = some proc)
    : offer procs resp = (some proc, outcome resp.op item body) := by
  induction procs with
  | nil => contradiction
  | cons proc' procs ih =>
    unfold offer Processor.process
    rw [h]
    by_cases hitem : proc'.item = item
    . rw [List.find?_cons_of_pos (by simpa using hitem)] at hproc
      cases hproc
      unfold outcome
      simp only [hitem, ne_eq, not_true_eq_false, if_false]
      cases (supportedOps item).lookup resp.op with
      | none => rfl
      | some label =>
        by_cases herr : body.errorCode = 0
        . simp [herr]
        . simp [herr]
    . rw [List.find?_cons_of_neg (by simpa using hitem)] at hproc
      have hne : item ≠ proc'.item := fun h => hitem h.symm
      simp only [if_pos hne]
      exact ih hproc

theorem outcome_ok_iff {op : BatchOperation} {item : Item} {body : ItemResponse P}
    : outcome op item body = .ok () ↔
        (((supportedOps item).lookup op).isSome && decide (body.errorCode = 0)) = true := by
  unfold outcome
  cases (supportedOps item).lookup op with
  | none => simp
  | some label => by_cases herr : body.errorCode = 0 <;> simp [herr]

end Offer

section Run

variable {procs : List (Processor K)}

-- The responses are what an exchange gives: errors, or responses with the item of the request, for
-- which there is a processor
structure Answers (procs : List (Processor K)) (resps : List (Command K × BatchResponse P))
    : Prop where
  item : ∀ p ∈ resps, p.2.errorCode = 0 → ∃ body, p.2.item = some (p.1.item, body)
  processor : ∀ p ∈ resps, p.1.processor ∈ procs

theorem answers_responses (exchange : Exchange K P)
    : Answers exchange.processors exchange.responses := by
  have hmem : ∀ p ∈ exchange.responses, ∃ e ∈ exchange, ∃ answer : Answer P,
      p = (e.1, answer.response e.1) := by
    intro p hp
    obtain ⟨e, he, hp⟩ := List.mem_flatMap.mp hp
    obtain ⟨answer, -, rfl⟩ := List.mem_map.mp hp
    exact ⟨e, he, answer, rfl⟩
  constructor
  . intro p hp hok
    obtain ⟨e, -, answer, rfl⟩ := hmem p hp
    cases answer with
    | error errorCode h => exact absurd hok h
    | item body => exact ⟨body, rfl⟩
  . intro p hp
    obtain ⟨e, he, answer, rfl⟩ := hmem p hp
    exact List.mem_map_of_mem he

theorem offer_processor {command : Command K} {resp : BatchResponse P} {body : ItemResponse P}
    (h : resp.item = some (command.item, body))
    : offer [command.processor] resp =
        (some command.processor, outcome resp.op command.item body) := by
  apply offer_eq h
  simp [Command.processor]

-- Where the responses have been handed to the right processors, the first one was
theorem batchCallback_cons_iff {command : Command K} {resp : BatchResponse P}
    {resps : List (Command K × BatchResponse P)} (hok : resp.errorCode = 0)
    (h : Answers procs ((command, resp) :: resps))
    : batchCallback procs (((command, resp) :: resps).map Prod.snd) =
          paired ((command, resp) :: resps) ↔
        procs.find? (fun proc => proc.item = command.item) = some command.processor ∧
          (succeeds resp = true → batchCallback procs (resps.map Prod.snd) = paired resps) := by
  obtain ⟨body, hbody⟩ : ∃ body, resp.item = some (command.item, body) :=
    h.item _ List.mem_cons_self hok
  have hmem := h.processor _ List.mem_cons_self
  obtain ⟨proc, hproc⟩ : ∃ proc, procs.find? (fun proc => proc.item = command.item) =
      some proc := by
    rw [← Option.isSome_iff_exists, List.find?_isSome]
    exact ⟨_, hmem, by simp [Command.processor]⟩
  have hsucc : succeeds resp = true ↔ outcome resp.op command.item body = .ok () := by
    rw [outcome_ok_iff]
    simp only [succeeds, hok, hbody, decide_true, Bool.true_and]
  rw [List.map_cons, batchCallback, paired, if_neg (by simp [hok]), if_neg (by simp [hok]),
    offer_eq hbody hproc, offer_processor hbody, hproc, hsucc]
  cases outcome resp.op command.item body with
  | error err => simp
  | ok _ =>
    simp only [Prod.mk.injEq, List.cons.injEq, Option.some.injEq, and_true, true_implies]
    rw [and_assoc, Prod.ext_iff]

theorem batchCallback_eq_iff {resps : List (Command K × BatchResponse P)} (h : Answers procs resps)
    : batchCallback procs (resps.map Prod.snd) = paired resps ↔
        ∀ before command resp after, resps = before ++ (command, resp) :: after →
          (∀ p ∈ before, succeeds p.2 = true) → resp.errorCode = 0 →
            procs.find? (fun proc => proc.item = command.item) = some command.processor := by
  induction resps with
  | nil => simp [batchCallback, paired]
  | cons p resps ih =>
    obtain ⟨command, resp⟩ := p
    have hrest : Answers procs resps :=
      ⟨fun p hp => h.item p (List.mem_cons_of_mem _ hp),
        fun p hp => h.processor p (List.mem_cons_of_mem _ hp)⟩
    by_cases hok : resp.errorCode = 0
    . rw [batchCallback_cons_iff hok h, ih hrest]
      constructor
      . rintro ⟨hfirst, hothers⟩ before command' resp' after heq hbefore hok'
        cases before with
        | nil =>
          cases heq
          exact hfirst
        | cons p before =>
          cases heq
          have hsucc := hbefore _ List.mem_cons_self
          exact hothers hsucc before command' resp' after rfl
            (fun p hp => hbefore p (List.mem_cons_of_mem _ hp)) hok'
      . intro hall
        refine ⟨hall [] command resp resps rfl (by simp) hok, ?_⟩
        intro hsucc before command' resp' after heq hbefore hok'
        apply hall ((command, resp) :: before) command' resp' after (by rw [heq]; rfl) _ hok'
        intro p hp
        rcases List.mem_cons.mp hp with rfl | hp
        . exact hsucc
        . exact hbefore p hp
    . constructor
      . intro _ before command' resp' after heq hbefore hok'
        cases before with
        | nil =>
          cases heq
          contradiction
        | cons p before =>
          cases heq
          have hsucc := hbefore _ List.mem_cons_self
          simp [succeeds, hok] at hsucc
      . intro _
        rw [List.map_cons, batchCallback, paired, if_pos hok, if_pos hok]

end Run

-- The exchanges in which each response is handed to the processor of its own sub-command
theorem paired_iff (exchange : Exchange K P) : exchange.Paired ↔ exchange.Unshadowed :=
  batchCallback_eq_iff (answers_responses exchange)

-- Two rules for different tables: the second response is displayed with the name of the first table
def twoTables : Exchange String Unit :=
  [({ op := .BOP_INSERT, item := .tableRule, kargs := "a" }, [.item ⟨0, ()⟩]),
    ({ op := .BOP_INSERT, item := .tableRule, kargs := "b" }, [.item ⟨0, ()⟩])]

theorem not_paired_twoTables : ¬ ∀ exchange : Exchange String Unit, exchange.Paired := by
  intro hall
  have hpaired := hall twoTables
  revert hpaired
  unfold Exchange.Paired
  decide

end Batch
