import SmartnicFw.Lib.Transition

/-!
This module contains the reference counting of the zones of a statistics domain (`stats.c`): threads
that allocate and free zones and walk over the domain, interleaved at each critical section of the
domain lock and at each atomic operation on a counter.
-/

namespace StatsDomain

-- What walks over the zones of a domain
inductive Walk where
  | update
  | clear
  | getValues
  | forEach
  | domainFree
  deriving DecidableEq, Repr

def Walk.mayBreak : Walk → Bool
  | .getValues => true
  | .forEach => true
  | _ => false

-- What is left to do after `stats_zone_put` returns
inductive Resume where
  | done
  | arrive (walk : Walk) (next : Option Nat)
  | nextZone (walk : Walk) (zone : Nat)
  deriving DecidableEq, Repr

inductive Thread where
  | idle
  | allocGet (zone : Nat)
  | nextZone (walk : Walk) (zone : Option Nat)
  | visit (walk : Walk) (zone : Nat)
  | put (zone : Nat) (k : Resume)
  | detach (zone : Nat) (k : Resume)
  | free (zone : Nat) (k : Resume)
  deriving DecidableEq, Repr

-- The allocator's reference: the allocating call has yet to count it, it is counted, or the owner
-- has given it up
inductive OwnerRef where
  | pending
  | held
  | dropped
  deriving DecidableEq, Repr

structure Zone where
  refCount : UInt32
  ownerRef : OwnerRef
  detaches : Nat
  frees : Nat
  deriving DecidableEq, Repr

-- Zones are named by the order of their allocation. `attached` is the list from `domain->zones` on.
structure State where
  zones : List Zone
  attached : List Nat
  threads : List Thread
  freeing : Bool
  deriving DecidableEq, Repr

inductive Action where
  | zoneAlloc
  | zoneFree (zone : Nat)
  | walk (walk : Walk)
  | next
  | earlyBreak
  deriving DecidableEq, Repr

def init (n : Nat) : State :=
  { zones := [], attached := [], threads := List.replicate n .idle, freeing := false }

def Resume.thread : Resume → Thread
  | .done => .idle
  | .arrive _ none => .idle
  | .arrive walk (some zone) => .visit walk zone
  | .nextZone walk zone => .nextZone walk (some zone)

namespace State

def setThread (s : State) (t : Nat) (thread : Thread) : State :=
  { s with threads := s.threads.set t thread }

def modifyZone (s : State) (zone : Nat) (f : Zone → Zone) : State :=
  { s with zones := s.zones.modify zone f }

-- `zone->next`, which is NULL for a zone that is not attached
def nextOf (s : State) (zone : Nat) : Option Nat :=
  s.attached[s.attached.idxOf zone + 1]?

def nextZone (s : State) : Option Nat → Option Nat
  | none => s.attached.head?
  | some zone => s.nextOf zone

end State

def statsZoneGet (s : State) (zone : Option Nat) : State :=
  match zone with
  | none => s
  | some zone => s.modifyZone zone fun z => { z with refCount := z.refCount + 1 }

-- The critical section of `stats_zone_attach`
def statsZoneAttach (s : State) (t : Nat) : State :=
  let zone := s.zones.length
  { s with
    zones := s.zones ++ [{ refCount := 0, ownerRef := .pending, detaches := 0, frees := 0 }]
    attached := s.attached ++ [zone]
    threads := s.threads.set t (.allocGet zone) }

-- Starting a call. A zone is freed by the holder of the allocator's reference, a domain is freed
-- when nothing else goes on, and nothing is started after that.
def start (s : State) (t : Nat) (action : Action) : Option State :=
  if s.freeing then
    none
  else
    match action with
    | .zoneAlloc => some (statsZoneAttach s t)
    | .zoneFree zone =>
      if (s.zones[zone]?.map Zone.ownerRef) = some .held then
        some ((s.modifyZone zone fun z => { z with ownerRef := .dropped }).setThread t
          (.put zone .done))
      else
        none
    | .walk .domainFree =>
      if s.threads.all (· = .idle) then
        some { s with threads := s.threads.set t (.nextZone .domainFree none), freeing := true }
      else
        none
    | .walk walk => some (s.setThread t (.nextZone walk none))
    | .next => none
    | .earlyBreak => none

-- One atomic step of a thread, which stands in the code where `thread` says
def Thread.step (s : State) (t : Nat) (thread : Thread) (action : Action) : Option State :=
  match thread, action with
  | .idle, action => start s t action
  | .allocGet zone, .next =>
    some ((s.modifyZone zone fun z =>
      { z with refCount := z.refCount + 1, ownerRef := .held }).setThread t .idle)
  | .nextZone walk cur, .next =>
    let next := s.nextZone cur
    let s := statsZoneGet s next
    match cur with
    | none => some (s.setThread t (Resume.arrive walk next).thread)
    | some cur => some (s.setThread t (.put cur (.arrive walk next)))
  | .visit .domainFree zone, .next =>
    -- The loop body puts the zone, and the walk goes on to put it once more
    some ((s.modifyZone zone fun z => { z with ownerRef := .dropped }).setThread t
      (.put zone (.nextZone .domainFree zone)))
  | .visit walk zone, .next => some (s.setThread t (.nextZone walk (some zone)))
  | .visit walk zone, .earlyBreak =>
    if walk.mayBreak then some (s.setThread t (.put zone .done)) else none
  | .put zone k, .next => do
    let refCount := (← s.zones[zone]?).refCount
    let s := s.modifyZone zone fun z => { z with refCount := z.refCount - 1 }
    if refCount = 0 then
      some (s.setThread t (.detach zone k))
    else
      some (s.setThread t k.thread)
  | .detach zone k, .next =>
    -- A zone that is not attached ends the process
    if zone ∈ s.attached then
      some (({ s with attached := s.attached.erase zone }.modifyZone zone fun z =>
        { z with detaches := z.detaches + 1 }).setThread t (.free zone k))
    else
      none
  | .free zone k, .next =>
    some ((s.modifyZone zone fun z => { z with frees := z.frees + 1 }).setThread t k.thread)
  | _, _ => none

def step (s : State) (l : Nat × Action) : Option State := do
  let thread ← s.threads[l.1]?
  thread.step s l.1 l.2

end StatsDomain
