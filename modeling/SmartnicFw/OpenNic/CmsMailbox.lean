import SmartnicFw.Lib.RegFields

/-!
This module contains the exchange of messages with the card management system through its mailbox
(`cms.c`). The hardware is a function from what has been done to the registers so far to what a
register reads as next, so that any sequence of values is possible.
-/

namespace CmsMailboxPost

inductive Reg where
  | controlReg
  | errorReg
  | hostMsgErrorReg
  | hostMsgOffsetReg
  deriving DecidableEq, Repr

-- An access to a register, a read-modify-write of the control register or the write of a word of the
-- mailbox, whose header is word 0
inductive Access where
  | read (reg : Reg) (value : BitVec 32)
  | modify (old new : BitVec 32)
  | write (offset : BitVec 32) (word : Nat) (value : BitVec 32)
  deriving DecidableEq, Repr

-- Where the fields of the registers are
structure Layout where
  resetErrorReg : RegField 32
  mailboxMsgStatus : RegField 32
  pktError : RegField 32
  satCtrlErr : RegField 32
  resetErrorReg_width : resetErrorReg.width = 1
  mailboxMsgStatus_width : mailboxMsgStatus.width = 1
  disjoint : mailboxMsgStatus.Disjoint resetErrorReg

-- The request, of which the words of the payload are given
structure CmsMailbox where
  header : BitVec 32
  payload : List (BitVec 32)
  deriving DecidableEq, Repr

def mailboxWrites (offset : BitVec 32) (req : CmsMailbox) : List Access :=
  .write offset 0 req.header :: req.payload.mapIdx fun n word => .write offset (n + 1) word

def Polls (field : RegField 32) (accesses : List Access) : Prop :=
  ∀ access ∈ accesses, ∃ control, access = .read .controlReg control ∧ field.get control ≠ 0

def SeenCleared (field : RegField 32) (accesses : List Access) : Prop :=
  ∃ polls control, accesses = polls ++ [.read .controlReg control] ∧ Polls field polls ∧
    field.get control = 0

def request (L : Layout) (control : BitVec 32) (ready cleared : List Access) : List Access :=
  ready ++ .modify control (L.resetErrorReg.set control 1) :: cleared

def message (L : Layout) (req : CmsMailbox) (offset control : BitVec 32) : List Access :=
  .read .hostMsgOffsetReg offset ::
    (mailboxWrites offset req ++ [.modify control (L.mailboxMsgStatus.set control 1)])

-- The attempts that can be made, and the mailbox that they end with
inductive Attempt (L : Layout) (req : CmsMailbox) : Option (BitVec 32) → List Access → Prop where
  | notReady {ready : List Access} (hready : Polls L.mailboxMsgStatus ready)
      : Attempt L req none ready
  | notCleared {ready cleared : List Access} (control : BitVec 32)
      (hready : SeenCleared L.mailboxMsgStatus ready) (hcleared : Polls L.resetErrorReg cleared)
      : Attempt L req none (request L control ready cleared)
  | failed {ready cleared done rest : List Access} (offset control control' error : BitVec 32)
      (hready : SeenCleared L.mailboxMsgStatus ready)
      (hcleared : SeenCleared L.resetErrorReg cleared)
      (hdone : Polls L.mailboxMsgStatus done ∨ SeenCleared L.mailboxMsgStatus done)
      (hrest : rest = [] ∨ ∃ msgError, rest = [.read .hostMsgErrorReg msgError])
      : Attempt L req none
          (request L control ready cleared ++ message L req offset control' ++ done ++
            .read .errorReg error :: rest)
  | exchanged {ready cleared done : List Access} (offset control control' error : BitVec 32)
      (hready : SeenCleared L.mailboxMsgStatus ready)
      (hcleared : SeenCleared L.resetErrorReg cleared)
      (hdone : SeenCleared L.mailboxMsgStatus done)
      (hpkt : L.pktError.get error = 0) (hsat : L.satCtrlErr.get error = 0)
      : Attempt L req (some offset)
          (request L control ready cleared ++ message L req offset control' ++ done ++
            [.read .errorReg error])

def Access.writesMailbox (access : Access) : Bool :=
  match access with
  | .write _ _ _ => true
  | _ => false

def Access.setsStatus (L : Layout) (access : Access) : Bool :=
  match access with
  | .modify old new => L.mailboxMsgStatus.get old = 0 && L.mailboxMsgStatus.get new ≠ 0
  | _ => false

-- Whether the mailbox has been seen free since the status was last set
def observe (L : Layout) (free : Bool) (access : Access) : Bool :=
  match access with
  | .read .controlReg control => free || L.mailboxMsgStatus.get control = 0
  | access => free && !access.setsStatus L

def OnlyWhenFree (L : Layout) (free : Bool) (accesses : List Access) : Prop :=
  match accesses with
  | [] => True
  | access :: accesses =>
    (access.writesMailbox ∨ access.setsStatus L → free) ∧
      OnlyWhenFree L (observe L free access) accesses

section Run

variable {L : Layout} {hw : Hardware} {req : CmsMailbox} {trace : List Access}

end Run

section Protocol

variable {L : Layout} {req : CmsMailbox}

def Reads (accesses : List Access) : Prop :=
  ∀ access ∈ accesses, ∃ reg value, access = .read reg value

theorem Polls.reads {field : RegField 32} {accesses : List Access} (h : Polls field accesses)
    : Reads accesses := by
  intro access hmem
  obtain ⟨control, haccess, _⟩ := h access hmem
  exact ⟨_, control, haccess⟩

theorem SeenCleared.reads {field : RegField 32} {accesses : List Access}
    (h : SeenCleared field accesses)
    : Reads accesses := by
  obtain ⟨polls, control, rfl, hpolls, _⟩ := h
  intro access hmem
  rcases List.mem_append.mp hmem with hmem | hmem
  . exact hpolls.reads access hmem
  . rw [List.mem_singleton] at hmem
    exact ⟨_, control, hmem⟩

theorem onlyWhenFree_append {free : Bool} {accesses accesses' : List Access}
    : OnlyWhenFree L free (accesses ++ accesses') ↔
        OnlyWhenFree L free accesses ∧
          OnlyWhenFree L (accesses.foldl (observe L) free) accesses' := by
  induction accesses generalizing free with
  | nil => simp [OnlyWhenFree]
  | cons access accesses ih =>
    simp only [List.cons_append, OnlyWhenFree, ih, and_assoc, List.foldl_cons]

theorem observe_mono (free : Bool) (access : Access) (h : observe L false access = true)
    : observe L free access = true := by
  cases free with
  | false => exact h
  | true =>
    unfold observe at h ⊢
    split <;> simp_all

theorem OnlyWhenFree.mono {accesses : List Access} {free free' : Bool} (hle : free → free')
    (h : OnlyWhenFree L free accesses)
    : OnlyWhenFree L free' accesses := by
  induction accesses generalizing free free' with
  | nil => trivial
  | cons access accesses ih =>
    refine ⟨fun hwrites => hle (h.1 hwrites), ih ?_ h.2⟩
    intro hfree
    cases free with
    | false => exact observe_mono free' access hfree
    | true =>
      rw [hle rfl]
      exact hfree

theorem OnlyWhenFree.of_reads {accesses : List Access} (h : Reads accesses) (free : Bool)
    : OnlyWhenFree L free accesses := by
  induction accesses generalizing free with
  | nil => trivial
  | cons access accesses ih =>
    obtain ⟨reg, value, rfl⟩ := h access List.mem_cons_self
    refine ⟨by simp [Access.writesMailbox, Access.setsStatus], ih ?_ _⟩
    intro access hmem
    exact h access (List.mem_cons_of_mem _ hmem)

-- The mailbox stays free as long as the status is not set
theorem observe_of_quiet {access : Access} (h : access.setsStatus L = false)
    : observe L true access = true := by
  unfold observe
  split
  . rfl
  . rw [h]
    rfl

theorem foldl_observe_of_quiet {accesses : List Access}
    (h : ∀ access ∈ accesses, access.setsStatus L = false)
    : accesses.foldl (observe L) true = true := by
  induction accesses with
  | nil => rfl
  | cons access accesses ih =>
    rw [List.foldl_cons, observe_of_quiet (h access List.mem_cons_self)]
    apply ih
    intro access hmem
    exact h access (List.mem_cons_of_mem _ hmem)

theorem Reads.quiet {accesses : List Access} (h : Reads accesses)
    : ∀ access ∈ accesses, access.setsStatus L = false := by
  intro access hmem
  obtain ⟨reg, value, rfl⟩ := h access hmem
  rfl

theorem SeenCleared.foldl_observe {accesses : List Access}
    (h : SeenCleared L.mailboxMsgStatus accesses) (free : Bool)
    : accesses.foldl (observe L) free = true := by
  obtain ⟨polls, control, rfl, _, hcleared⟩ := h
  rw [List.foldl_append, List.foldl_cons, List.foldl_nil]
  simp [observe, hcleared]

theorem clear_quiet (L : Layout) (control : BitVec 32)
    : (Access.modify control (L.resetErrorReg.set control 1)).setsStatus L = false := by
  simp only [Access.setsStatus, RegField.get_set_of_disjoint L.disjoint]
  by_cases h : L.mailboxMsgStatus.get control = 0 <;> simp [h]

theorem request_quiet {control : BitVec 32} {ready cleared : List Access} (hready : Reads ready)
    (hcleared : Reads cleared)
    : ∀ access ∈ request L control ready cleared, access.setsStatus L = false := by
  intro access hmem
  rcases List.mem_append.mp hmem with hmem | hmem
  . exact hready.quiet access hmem
  . rcases List.mem_cons.mp hmem with rfl | hmem
    . exact clear_quiet L control
    . exact hcleared.quiet access hmem

theorem request_onlyWhenFree (control : BitVec 32) {ready cleared : List Access}
    (hready : SeenCleared L.mailboxMsgStatus ready) (hcleared : Reads cleared)
    : OnlyWhenFree L false (request L control ready cleared) ∧
        (request L control ready cleared).foldl (observe L) false = true := by
  unfold request
  rw [onlyWhenFree_append, List.foldl_append, hready.foldl_observe]
  refine ⟨⟨OnlyWhenFree.of_reads hready.reads _, fun _ => rfl, OnlyWhenFree.of_reads hcleared _⟩, ?_⟩
  apply foldl_observe_of_quiet
  intro access hmem
  rcases List.mem_cons.mp hmem with rfl | hmem
  . exact clear_quiet L control
  . exact hcleared.quiet access hmem

theorem mailboxWrites_quiet (offset : BitVec 32)
    : ∀ access ∈ mailboxWrites offset req, access.setsStatus L = false := by
  intro access hmem
  rcases List.mem_cons.mp hmem with rfl | hmem
  . rfl
  . obtain ⟨n, _, hn⟩ := List.mem_mapIdx.mp hmem
    rw [← hn]
    rfl

-- Everything may be done as long as the mailbox is free
theorem onlyWhenFree_of_quiet {accesses : List Access}
    (h : ∀ access ∈ accesses, access.setsStatus L = false)
    : OnlyWhenFree L true accesses := by
  induction accesses with
  | nil => trivial
  | cons access accesses ih =>
    refine ⟨fun _ => rfl, ?_⟩
    rw [observe_of_quiet (h access List.mem_cons_self)]
    apply ih
    intro access hmem
    exact h access (List.mem_cons_of_mem _ hmem)

theorem message_onlyWhenFree (offset control : BitVec 32)
    : OnlyWhenFree L true (message L req offset control) := by
  unfold message
  refine ⟨fun _ => rfl, ?_⟩
  have hobserve : observe L true (.read .hostMsgOffsetReg offset) = true := rfl
  rw [hobserve, onlyWhenFree_append, foldl_observe_of_quiet (mailboxWrites_quiet offset)]
  exact ⟨onlyWhenFree_of_quiet (mailboxWrites_quiet offset), fun _ => rfl, trivial⟩

theorem posted_onlyWhenFree {offset control control' : BitVec 32} {ready cleared rest : List Access}
    (hready : SeenCleared L.mailboxMsgStatus ready) (hcleared : Reads cleared) (hrest : Reads rest)
    : OnlyWhenFree L false (request L control ready cleared ++ message L req offset control' ++ rest)
    := by
  obtain ⟨hrequest, hfree⟩ := request_onlyWhenFree control hready hcleared
  rw [onlyWhenFree_append, onlyWhenFree_append, hfree]
  exact ⟨⟨hrequest, message_onlyWhenFree offset control'⟩, OnlyWhenFree.of_reads hrest _⟩

theorem message_filter (offset control : BitVec 32)
    : ((message L req offset control).filter (Access.setsStatus L)).length ≤ 1 := by
  unfold message
  rw [List.filter_cons_of_neg (by simp [Access.setsStatus]), List.filter_append,
    List.filter_eq_nil_iff.mpr (by simpa using mailboxWrites_quiet offset), List.nil_append]
  exact List.length_filter_le _ _

theorem posted_filter {offset control control' : BitVec 32} {ready cleared rest : List Access}
    (hready : Reads ready) (hcleared : Reads cleared) (hrest : Reads rest)
    : ((request L control ready cleared ++ message L req offset control' ++ rest).filter
        (Access.setsStatus L)).length ≤ 1 := by
  have hrequest : (request L control ready cleared).filter (Access.setsStatus L) = [] :=
    List.filter_eq_nil_iff.mpr (by simpa using request_quiet hready hcleared)
  have hreads : rest.filter (Access.setsStatus L) = [] :=
    List.filter_eq_nil_iff.mpr (by simpa using hrest.quiet)
  rw [List.filter_append, List.filter_append, hrequest, hreads, List.nil_append, List.append_nil]
  exact message_filter offset control'

-- A read-modify-write that sets one of the two fields and keeps the other bits
def SetsField (L : Layout) (old new : BitVec 32) : Prop :=
  ∃ field, (field = L.resetErrorReg ∨ field = L.mailboxMsgStatus) ∧ field.get new = 1 ∧
    ∀ i, ¬ field.Holds i → new.getLsbD i = old.getLsbD i

theorem setsField {field : RegField 32} (hfield : field = L.resetErrorReg ∨ field = L.mailboxMsgStatus)
    (control : BitVec 32)
    : SetsField L control (field.set control 1) := by
  refine ⟨field, hfield, ?_, ?_⟩
  . have hwidth : field.width = 1 := by
      rcases hfield with rfl | rfl
      . exact L.resetErrorReg_width
      . exact L.mailboxMsgStatus_width
    rw [RegField.get_set]
    apply RegField.and_ones_of_fits
    unfold RegField.Fits
    rw [hwidth]
    decide
  . intro i hholds
    rw [RegField.getLsbD_set, if_neg hholds]

theorem Reads.modify_not_mem {accesses : List Access} (h : Reads accesses) {old new : BitVec 32}
    : .modify old new ∉ accesses := by
  intro hmem
  obtain ⟨reg, value, haccess⟩ := h _ hmem
  cases haccess

theorem request_modify {control old new : BitVec 32} {ready cleared : List Access}
    (hready : Reads ready) (hcleared : Reads cleared)
    (hmem : .modify old new ∈ request L control ready cleared)
    : SetsField L old new := by
  rcases List.mem_append.mp hmem with hmem | hmem
  . exact absurd hmem hready.modify_not_mem
  . rcases List.mem_cons.mp hmem with heq | hmem
    . cases heq
      exact setsField (.inl rfl) control
    . exact absurd hmem hcleared.modify_not_mem

theorem message_modify {offset control old new : BitVec 32}
    (hmem : .modify old new ∈ message L req offset control)
    : SetsField L old new := by
  unfold message mailboxWrites at hmem
  simp only [List.mem_cons, List.mem_append, List.mem_mapIdx, reduceCtorEq, false_or, exists_false,
    List.not_mem_nil, or_false, Access.modify.injEq] at hmem
  obtain ⟨rfl, rfl⟩ := hmem
  exact setsField (.inr rfl) old

-- What holds of every attempt
structure Attempt.Orderly (L : Layout) (accesses : List Access) : Prop where
  free : OnlyWhenFree L false accesses
  once : (accesses.filter (Access.setsStatus L)).length ≤ 1
  keeps : ∀ old new, .modify old new ∈ accesses → SetsField L old new

theorem posted_orderly {offset control control' : BitVec 32} {ready cleared rest : List Access}
    (hready : SeenCleared L.mailboxMsgStatus ready) (hcleared : Reads cleared) (hrest : Reads rest)
    : Attempt.Orderly L
        (request L control ready cleared ++ message L req offset control' ++ rest) := by
  constructor
  . exact posted_onlyWhenFree hready hcleared hrest
  . exact posted_filter hready.reads hcleared hrest
  . intro old new hmem
    rcases List.mem_append.mp hmem with hmem | hmem
    . rcases List.mem_append.mp hmem with hmem | hmem
      . exact request_modify hready.reads hcleared hmem
      . exact message_modify hmem
    . exact absurd hmem hrest.modify_not_mem

theorem Attempt.orderly {mailbox : Option (BitVec 32)} {accesses : List Access}
    (h : Attempt L req mailbox accesses)
    : Attempt.Orderly L accesses := by
  cases h with
  | notReady hready =>
    constructor
    . exact OnlyWhenFree.of_reads hready.reads false
    . rw [List.filter_eq_nil_iff.mpr (by simpa using hready.reads.quiet)]
      exact Nat.zero_le 1
    . intro old new hmem
      exact absurd hmem hready.reads.modify_not_mem
  | notCleared control hready hcleared =>
    constructor
    . exact (request_onlyWhenFree _ hready hcleared.reads).1
    . rw [List.filter_eq_nil_iff.mpr (by simpa using request_quiet hready.reads hcleared.reads)]
      exact Nat.zero_le 1
    . intro old new hmem
      exact request_modify hready.reads hcleared.reads hmem
  | failed offset control control' error hready hcleared hdone hrest =>
    rw [List.append_assoc]
    apply posted_orderly hready hcleared.reads
    intro access hmem
    rcases List.mem_append.mp hmem with hmem | hmem
    . rcases hdone with hdone | hdone
      . exact hdone.reads access hmem
      . exact hdone.reads access hmem
    . rcases List.mem_cons.mp hmem with rfl | hmem
      . exact ⟨_, _, rfl⟩
      . rcases hrest with rfl | ⟨msgError, rfl⟩
        . contradiction
        . exact ⟨_, _, List.mem_singleton.mp hmem⟩
  | exchanged offset control control' error hready hcleared hdone hpkt hsat =>
    rw [List.append_assoc]
    apply posted_orderly hready hcleared.reads
    intro access hmem
    rcases List.mem_append.mp hmem with hmem | hmem
    . exact hdone.reads access hmem
    . exact ⟨_, _, List.mem_singleton.mp hmem⟩

theorem OnlyWhenFree.flatten {attempts : List (List Access)}
    (h : ∀ accesses ∈ attempts, OnlyWhenFree L false accesses) (free : Bool)
    : OnlyWhenFree L free attempts.flatten := by
  induction attempts generalizing free with
  | nil => trivial
  | cons accesses attempts ih =>
    rw [List.flatten_cons, onlyWhenFree_append]
    constructor
    . exact (h accesses List.mem_cons_self).mono (by simp)
    . apply ih
      intro accesses hmem
      exact h accesses (List.mem_cons_of_mem _ hmem)

end Protocol

end CmsMailboxPost
