import SmartnicFw.OpenNic.Stats.Zone

/-!
This module contains what the reference counting of zones is to guarantee, and the exact condition
under which it does so in every state of a run.
-/

namespace StatsDomain

namespace OwnerRef

-- The allocating call holds its zone from the start
def outstanding : OwnerRef → Nat
  | .pending => 1
  | .held => 1
  | .dropped => 0

def counted : OwnerRef → Nat
  | .held => 1
  | _ => 0

def pendings : OwnerRef → Nat
  | .pending => 1
  | _ => 0

end OwnerRef

-- How many references to a zone a thread holds
def Resume.refs (k : Resume) (zone : Nat) : Nat :=
  match k with
  | .done => 0
  | .arrive _ next => if next = some zone then 1 else 0
  | .nextZone _ z => if z = zone then 1 else 0

namespace Thread

def refs (thread : Thread) (zone : Nat) : Nat :=
  match thread with
  | .idle => 0
  | .allocGet _ => 0
  | .nextZone _ cur => if cur = some zone then 1 else 0
  | .visit _ z => if z = zone then 1 else 0
  | .put z k => (if z = zone then 1 else 0) + k.refs zone
  | .detach _ k => k.refs zone
  | .free _ k => k.refs zone

def releasing (thread : Thread) (zone : Nat) : Nat :=
  match thread with
  | .detach z _ => if z = zone then 1 else 0
  | .free z _ => if z = zone then 1 else 0
  | _ => 0

def allocating (thread : Thread) (zone : Nat) : Nat :=
  match thread with
  | .allocGet z => if z = zone then 1 else 0
  | _ => 0

end Thread

namespace State

def refs (s : State) (zone : Nat) : Nat := (s.threads.map fun thread => thread.refs zone).sum

def releasing (s : State) (zone : Nat) : Nat :=
  (s.threads.map fun thread => thread.releasing zone).sum

def allocating (s : State) (zone : Nat) : Nat :=
  (s.threads.map fun thread => thread.allocating zone).sum

-- The references to a zone that are still to be dropped
def outstanding (s : State) (zone : Nat) (z : Zone) : Nat := s.refs zone + z.ownerRef.outstanding

end State

-- What is to hold of each zone. While a thread is between dropping the last reference and freeing
-- the zone, it alone is on its way to do so.
structure Zone.RefCounted (z : Zone) (s : State) (zone : Nat) : Prop where
  count_eq : z.refCount.toNat = s.refs zone + z.ownerRef.counted
  live : 0 < s.outstanding zone z →
    zone ∈ s.attached ∧ s.releasing zone = 0 ∧ z.detaches = 0 ∧ z.frees = 0
  dead : s.outstanding zone z = 0 →
    s.releasing zone = 1 ∧ z.frees = 0 ∨
      s.releasing zone = 0 ∧ zone ∉ s.attached ∧ z.detaches = 1 ∧ z.frees = 1
  unreachable : z.ownerRef = .dropped → s.refs zone = 0 → s.releasing zone = 0 →
    zone ∉ s.attached

def State.RefCounted (s : State) : Prop :=
  ∀ (zone : Nat) (z : Zone), s.zones[zone]? = some z → z.RefCounted s zone

-- The last reference is not dropped, and no counter is increased past its largest value
def StepOk (s : State) (l : Nat × Action) : Prop :=
  match s.threads[l.1]?, l.2 with
  | some (.put zone _), .next => ∀ z, s.zones[zone]? = some z → s.outstanding zone z ≠ 1
  | some (.nextZone _ cur), .next =>
    ∀ zone z, s.nextZone cur = some zone → s.zones[zone]? = some z →
      z.refCount.toNat ≠ 2 ^ 32 - 1
  | some (.allocGet zone), .next =>
    ∀ z, s.zones[zone]? = some z → z.refCount.toNat ≠ 2 ^ 32 - 1
  | _, _ => True

-- The zones a thread refers to are there, only the walk that frees the domain goes on while the
-- domain is freed, and it visits zones whose owner has not given them up
def Resume.Ok (k : Resume) (zones : List Zone) (freeing : Bool) : Prop :=
  match k with
  | .done => freeing = false
  | .arrive walk next =>
    (walk = .domainFree ↔ freeing = true) ∧ ∀ zone, next = some zone → zone < zones.length ∧
      (freeing = true → zones[zone]?.map Zone.ownerRef = some .held)
  | .nextZone walk zone => walk = .domainFree ∧ freeing = true ∧ zone < zones.length

def Thread.Ok (thread : Thread) (zones : List Zone) (freeing : Bool) : Prop :=
  match thread with
  | .idle => True
  | .allocGet zone => freeing = false ∧ zone < zones.length
  | .nextZone walk cur =>
    (walk = .domainFree ↔ freeing = true) ∧ ∀ zone, cur = some zone → zone < zones.length
  | .visit walk zone =>
    (walk = .domainFree ↔ freeing = true) ∧ zone < zones.length ∧
      (freeing = true → zones[zone]?.map Zone.ownerRef = some .held)
  | .put zone k => zone < zones.length ∧ k.Ok zones freeing
  | .detach _ _ => False
  | .free _ _ => False

-- All other threads are idle
def State.Alone (s : State) (t : Nat) : Prop :=
  ∀ (t' : Nat) thread, s.threads[t']? = some thread → t' ≠ t → thread = .idle

structure Zone.Inv (z : Zone) (s : State) (zone : Nat) : Prop where
  count_eq : z.refCount.toNat = s.refs zone + z.ownerRef.counted
  outstanding_pos : 0 < s.outstanding zone z
  detaches_eq : z.detaches = 0
  frees_eq : z.frees = 0
  allocating_eq : s.allocating zone = z.ownerRef.pendings

-- The invariant of the runs whose steps are all good: no zone is ever detached
structure State.Inv (s : State) : Prop where
  attached_eq : s.attached = List.range s.zones.length
  zone_inv : ∀ (zone : Nat) (z : Zone), s.zones[zone]? = some z → z.Inv s zone
  thread_ok : ∀ (t : Nat) thread, s.threads[t]? = some thread → thread.Ok s.zones s.freeing
  exclusive : s.freeing = true → ∀ (t : Nat) thread, s.threads[t]? = some thread →
    thread ≠ .idle → s.Alone t

section Sums

variable {s : State} {t : Nat} {old : Thread}

theorem sum_map_set (f : Thread → Nat) {threads : List Thread} (hold : threads[t]? = some old)
    (thread : Thread)
    : ((threads.set t thread).map f).sum + f old = (threads.map f).sum + f thread := by
  induction threads generalizing t with
  | nil => simp at hold
  | cons head threads ih =>
    cases t with
    | zero =>
      cases hold
      simp only [List.set_cons_zero, List.map_cons, List.sum_cons]
      omega
    | succ t =>
      have hrest := ih hold
      simp only [List.set_cons_succ, List.map_cons, List.sum_cons]
      omega

theorem le_sum_map (f : Thread → Nat) {threads : List Thread} (hold : threads[t]? = some old)
    : f old ≤ (threads.map f).sum := by
  apply List.le_sum_of_mem
  exact List.mem_map_of_mem (List.mem_of_getElem? hold)

-- When all other threads are idle, a thread holds all the references that threads hold
theorem State.Alone.sum_map (halone : s.Alone t) (hold : s.threads[t]? = some old)
    (f : Thread → Nat) (hidle : f .idle = 0)
    : (s.threads.map f).sum = f old := by
  have hset := sum_map_set f hold .idle
  have hzero : ((s.threads.set t .idle).map f).sum = 0 := by
    apply List.sum_eq_zero
    intro n hn
    obtain ⟨thread, hmem, rfl⟩ := List.mem_map.mp hn
    obtain ⟨t', ht'⟩ := List.getElem?_of_mem hmem
    by_cases heq : t' = t
    . subst heq
      rw [List.getElem?_set_self' ] at ht'
      simp [hold] at ht'
      rw [← ht', hidle]
    . rw [List.getElem?_set_ne (Ne.symm heq)] at ht'
      rw [halone t' thread ht' heq, hidle]
  omega

end Sums

theorem State.refs_setThread {s : State} {t : Nat} {old : Thread}
    (hold : s.threads[t]? = some old) (new : Thread) (zone : Nat)
    : (s.setThread t new).refs zone + old.refs zone = s.refs zone + new.refs zone := by
  exact sum_map_set (fun thread => thread.refs zone) hold new

theorem State.allocating_setThread {s : State} {t : Nat} {old : Thread}
    (hold : s.threads[t]? = some old) (new : Thread) (zone : Nat)
    : (s.setThread t new).allocating zone + old.allocating zone =
        s.allocating zone + new.allocating zone := by
  exact sum_map_set (fun thread => thread.allocating zone) hold new

@[simp]
theorem Resume.refs_thread (k : Resume) (zone : Nat) : k.thread.refs zone = k.refs zone := by
  cases k with
  | done => rfl
  | arrive walk next => cases next <;> simp [thread, Thread.refs, refs]
  | nextZone walk z => simp [thread, Thread.refs, refs]

@[simp]
theorem Resume.allocating_thread (k : Resume) (zone : Nat) : k.thread.allocating zone = 0 := by
  cases k with
  | done => rfl
  | arrive walk next => cases next <;> rfl
  | nextZone walk z => rfl

@[simp]
theorem Resume.releasing_thread (k : Resume) (zone : Nat) : k.thread.releasing zone = 0 := by
  cases k with
  | done => rfl
  | arrive walk next => cases next <;> rfl
  | nextZone walk z => rfl

theorem Resume.Ok.thread {k : Resume} {zones : List Zone} {freeing : Bool}
    (h : k.Ok zones freeing)
    : k.thread.Ok zones freeing := by
  cases k with
  | done => trivial
  | arrive walk next =>
    cases next with
    | none => trivial
    | some zone => exact ⟨h.1, h.2 zone rfl⟩
  | nextZone walk zone =>
    obtain ⟨rfl, hfreeing, hlt⟩ := h
    refine ⟨by simp [hfreeing], ?_⟩
    rintro _ ⟨⟩
    exact hlt

theorem State.Inv.releasing_eq_zero {s : State} (h : s.Inv) (zone : Nat)
    : s.releasing zone = 0 := by
  apply List.sum_eq_zero
  intro n hn
  obtain ⟨thread, hthread, rfl⟩ := List.mem_map.mp hn
  obtain ⟨t, ht⟩ := List.getElem?_of_mem hthread
  have hok := h.thread_ok t thread ht
  cases thread <;> first | rfl | exact absurd hok id

theorem State.Inv.mem_attached {s : State} (h : s.Inv) {zone : Nat} {z : Zone}
    (hz : s.zones[zone]? = some z)
    : zone ∈ s.attached := by
  rw [h.attached_eq]
  apply List.mem_range.mpr
  exact (List.getElem?_eq_some_iff.mp hz).1

theorem State.Inv.refCounted {s : State} (h : s.Inv) : s.RefCounted := by
  intro zone z hz
  have hzone := h.zone_inv zone z hz
  have hpos := hzone.outstanding_pos
  constructor
  . exact hzone.count_eq
  . intro _
    exact ⟨h.mem_attached hz, h.releasing_eq_zero zone, hzone.detaches_eq, hzone.frees_eq⟩
  . intro hzero
    omega
  . intro howner hrefs
    simp only [State.outstanding, howner, hrefs, OwnerRef.outstanding] at hpos
    omega

section Step

variable {s : State} {t : Nat} {old new : Thread}

theorem Thread.Ok.congr {thread : Thread} {zones zones' : List Zone} {freeing : Bool}
    (h : thread.Ok zones freeing) (hlen : zones.length ≤ zones'.length)
    (hfreeing : freeing = true → thread = .idle)
    : thread.Ok zones' freeing := by
  cases hf : freeing with
  | true =>
    rw [hfreeing hf]
    trivial
  | false =>
    rw [hf] at h
    cases thread with
    | idle => trivial
    | allocGet zone => exact ⟨rfl, by have := h.2; omega⟩
    | nextZone walk cur => exact ⟨h.1, fun zone hz => by have := h.2 zone hz; omega⟩
    | visit walk zone => exact ⟨h.1, by have := h.2.1; omega, by simp⟩
    | put zone k =>
      refine ⟨by have := h.1; omega, ?_⟩
      have hk := h.2
      cases k with
      | done => rfl
      | arrive walk next =>
        refine ⟨hk.1, fun zone hz => ⟨?_, by simp⟩⟩
        have := (hk.2 zone hz).1
        omega
      | nextZone walk zone => exact absurd hk.2.1 (by simp)
    | detach zone k => exact absurd h id
    | free zone k => exact absurd h id

-- A step of a thread, which touches one zone at most
theorem State.Inv.modify (h : s.Inv) (hold : s.threads[t]? = some old)
    (halone : s.freeing = true → s.Alone t) (zone : Nat) (f : Zone → Zone)
    (hothers : ∀ zone' ≠ zone, new.refs zone' = old.refs zone' ∧
      new.allocating zone' = old.allocating zone')
    (hzone : ∀ z, s.zones[zone]? = some z →
      (f z).refCount.toNat + z.ownerRef.counted + old.refs zone =
          z.refCount.toNat + (f z).ownerRef.counted + new.refs zone ∧
        old.refs zone < s.refs zone + new.refs zone + (f z).ownerRef.outstanding ∧
        (f z).detaches = z.detaches ∧ (f z).frees = z.frees ∧
        new.allocating zone + z.ownerRef.pendings =
          old.allocating zone + (f z).ownerRef.pendings)
    (hnew : new.Ok (s.zones.modify zone f) s.freeing)
    : ((s.modifyZone zone f).setThread t new).Inv := by
  have hlen : (s.zones.modify zone f).length = s.zones.length := List.length_modify ..
  have hself : (s.threads.set t new)[t]? = some new := by
    rw [List.getElem?_set_self']
    simp [hold]
  constructor
  . show s.attached = List.range (s.zones.modify zone f).length
    rw [hlen, h.attached_eq]
  . intro zone' z' hz'
    have hz' : (s.zones.modify zone f)[zone']? = some z' := hz'
    rw [List.getElem?_modify] at hz'
    have hrefs := State.refs_setThread hold new zone'
    have hallocating := State.allocating_setThread hold new zone'
    obtain ⟨z, hz, rfl⟩ := Option.map_eq_some_iff.mp hz'
    have hinv := h.zone_inv zone' z hz
    have hcount := hinv.count_eq
    have hpos := hinv.outstanding_pos
    have halloc := hinv.allocating_eq
    unfold State.outstanding at hpos
    by_cases heq : zone = zone'
    . subst heq
      obtain ⟨hcount', hpos', hdetaches, hfrees, halloc'⟩ := hzone z hz
      rw [if_pos rfl]
      constructor
      . show (f z).refCount.toNat = (s.setThread t new).refs zone + _
        omega
      . show 0 < (s.setThread t new).refs zone + _
        omega
      . rw [hdetaches, hinv.detaches_eq]
      . rw [hfrees, hinv.frees_eq]
      . show (s.setThread t new).allocating zone = _
        omega
    . obtain ⟨hrefs_eq, halloc_eq⟩ := hothers zone' (Ne.symm heq)
      rw [if_neg heq]
      constructor
      . show z.refCount.toNat = (s.setThread t new).refs zone' + _
        omega
      . show 0 < (s.setThread t new).refs zone' + _
        omega
      . exact hinv.detaches_eq
      . exact hinv.frees_eq
      . show (s.setThread t new).allocating zone' = _
        omega
  . intro t' thread ht'
    have ht' : (s.threads.set t new)[t']? = some thread := ht'
    by_cases heq : t' = t
    . subst heq
      rw [hself] at ht'
      cases ht'
      exact hnew
    . rw [List.getElem?_set_ne (Ne.symm heq)] at ht'
      apply (h.thread_ok t' thread ht').congr (by rw [← hlen]; rfl)
      intro hfreeing
      exact halone hfreeing t' thread ht' heq
  . intro hfreeing t₁ thread ht₁ hne t₂ other ht₂ hdiff
    have hothers : ∀ t' thread, (s.threads.set t new)[t']? = some thread → t' ≠ t →
        thread = .idle := by
      intro t' thread ht' heq
      rw [List.getElem?_set_ne (Ne.symm heq)] at ht'
      exact halone hfreeing t' thread ht' heq
    have heq : t₁ = t := by
      by_contra heq
      exact hne (hothers t₁ thread ht₁ heq)
    apply hothers t₂ other ht₂
    rwa [← heq]

theorem State.Inv.setThread (h : s.Inv) (hold : s.threads[t]? = some old)
    (halone : s.freeing = true → s.Alone t) (hrefs : ∀ zone, new.refs zone = old.refs zone)
    (hallocating : ∀ zone, new.allocating zone = old.allocating zone)
    (hnew : new.Ok s.zones s.freeing)
    : (s.setThread t new).Inv := by
  have hid : s.zones.modify 0 id = s.zones := List.modify_id ..
  have hmodify : s.modifyZone 0 id = s := by rw [State.modifyZone, hid]
  rw [← hmodify]
  apply h.modify hold halone 0 id
  . intro zone _
    exact ⟨hrefs zone, hallocating zone⟩
  . intro z hz
    have hpos := (h.zone_inv 0 z hz).outstanding_pos
    unfold State.outstanding at hpos
    refine ⟨by simp [hrefs], ?_, rfl, rfl, by simp [hallocating]⟩
    rw [hrefs]
    show old.refs 0 < s.refs 0 + old.refs 0 + z.ownerRef.outstanding
    omega
  . rw [hid]
    exact hnew

-- The zone that a walk goes on to is there, and it is not the current one
theorem State.Inv.nextZone_lt (h : s.Inv) {cur : Option Nat} {zone : Nat}
    (hnext : s.nextZone cur = some zone) (hcur : ∀ z, cur = some z → z < s.zones.length)
    : zone < s.zones.length ∧ cur ≠ some zone := by
  cases cur with
  | none =>
    simp only [State.nextZone, h.attached_eq, List.head?_range] at hnext
    split at hnext
    . contradiction
    . cases hnext
      exact ⟨by omega, by simp⟩
  | some z =>
    have hz := hcur z rfl
    have hidx : (List.range s.zones.length).idxOf z = z := by
      have hnodup : (List.range s.zones.length).Nodup := List.nodup_range
      have hget := hnodup.idxOf_getElem z (by simpa using hz)
      rwa [List.getElem_range] at hget
    simp only [State.nextZone, State.nextOf, h.attached_eq, hidx] at hnext
    obtain ⟨hlt, hget⟩ := List.getElem?_eq_some_iff.mp hnext
    rw [List.getElem_range] at hget
    rw [List.length_range] at hlt
    refine ⟨by omega, ?_⟩
    intro heq
    cases heq
    omega

theorem Thread.Ok.refs_eq_zero {thread : Thread} {zones : List Zone} {freeing : Bool}
    (h : thread.Ok zones freeing) {zone : Nat} (hzone : zones.length ≤ zone)
    : thread.refs zone = 0 ∧ thread.allocating zone = 0 := by
  have hne : ∀ z < zones.length, z ≠ zone := by omega
  cases thread with
  | idle => exact ⟨rfl, rfl⟩
  | allocGet z => exact ⟨rfl, if_neg (hne z h.2)⟩
  | nextZone walk cur =>
    refine ⟨if_neg ?_, rfl⟩
    intro hcur
    exact hne zone (h.2 zone hcur) rfl
  | visit walk z => exact ⟨if_neg (hne z h.2.1), rfl⟩
  | put z k =>
    have hk := h.2
    have hz : ¬ z = zone := hne z h.1
    cases k with
    | done => simp [refs, Resume.refs, allocating, hz]
    | arrive walk next =>
      have hnext : ¬ next = some zone := fun hnext => hne zone (hk.2 zone hnext).1 rfl
      simp [refs, Resume.refs, allocating, hz, hnext]
    | nextZone walk z' =>
      have hz' : ¬ z' = zone := hne z' hk.2.2
      simp [refs, Resume.refs, allocating, hz, hz']
  | detach z k => exact absurd h id
  | free z k => exact absurd h id

theorem State.Inv.refs_eq_zero (h : s.Inv) {zone : Nat} (hzone : s.zones.length ≤ zone)
    : s.refs zone = 0 ∧ s.allocating zone = 0 := by
  constructor
  . apply List.sum_eq_zero
    intro n hn
    obtain ⟨thread, hthread, rfl⟩ := List.mem_map.mp hn
    obtain ⟨t, ht⟩ := List.getElem?_of_mem hthread
    exact ((h.thread_ok t thread ht).refs_eq_zero hzone).1
  . apply List.sum_eq_zero
    intro n hn
    obtain ⟨thread, hthread, rfl⟩ := List.mem_map.mp hn
    obtain ⟨t, ht⟩ := List.getElem?_of_mem hthread
    exact ((h.thread_ok t thread ht).refs_eq_zero hzone).2

theorem State.Inv.attach (h : s.Inv) (hold : s.threads[t]? = some .idle)
    (hfreeing : s.freeing = false)
    : (statsZoneAttach s t).Inv := by
  constructor
  . show s.attached ++ [s.zones.length] = List.range (s.zones ++ [_]).length
    rw [List.length_append, List.length_singleton, List.range_succ, h.attached_eq]
  . intro zone z hz
    have hz : (s.zones ++ [_])[zone]? = some z := hz
    have hrefs := State.refs_setThread hold (.allocGet s.zones.length) zone
    have hallocating := State.allocating_setThread hold (.allocGet s.zones.length) zone
    have hidle : Thread.idle.refs zone = 0 ∧ Thread.idle.allocating zone = 0 := ⟨rfl, rfl⟩
    have hget : (Thread.allocGet s.zones.length).refs zone = 0 := rfl
    rcases Nat.lt_trichotomy zone s.zones.length with hlt | rfl | hgt
    . rw [List.getElem?_append_left hlt] at hz
      have hinv := h.zone_inv zone z hz
      have hcount := hinv.count_eq
      have hpos := hinv.outstanding_pos
      have halloc := hinv.allocating_eq
      have hother : (Thread.allocGet s.zones.length).allocating zone = 0 := if_neg (by omega)
      unfold State.outstanding at hpos
      constructor
      . show z.refCount.toNat = (s.setThread t (.allocGet s.zones.length)).refs zone + _
        omega
      . show 0 < (s.setThread t (.allocGet s.zones.length)).refs zone + _
        omega
      . exact hinv.detaches_eq
      . exact hinv.frees_eq
      . show (s.setThread t (.allocGet s.zones.length)).allocating zone = _
        omega
    . -- The new zone, which no thread refers to but the allocating one
      rw [List.getElem?_concat_length] at hz
      cases hz
      obtain ⟨hzero, hzero'⟩ := h.refs_eq_zero (le_refl s.zones.length)
      have hself : (Thread.allocGet s.zones.length).allocating s.zones.length = 1 := if_pos rfl
      constructor
      . show 0 = (s.setThread t (.allocGet s.zones.length)).refs s.zones.length + 0
        omega
      . show 0 < (s.setThread t (.allocGet s.zones.length)).refs s.zones.length + 1
        omega
      . rfl
      . rfl
      . show (s.setThread t (.allocGet s.zones.length)).allocating s.zones.length = 1
        omega
    . rw [List.getElem?_eq_none (by simp; omega)] at hz
      contradiction
  . intro t' thread ht'
    have ht' : (s.threads.set t (.allocGet s.zones.length))[t']? = some thread := ht'
    show thread.Ok (s.zones ++ [_]) s.freeing
    by_cases heq : t' = t
    . subst heq
      rw [List.getElem?_set_self' ] at ht'
      simp only [hold, Option.map_eq_map, Option.map_some, Function.const_apply,
        Option.some.injEq] at ht'
      rw [← ht']
      exact ⟨hfreeing, by simp⟩
    . rw [List.getElem?_set_ne (Ne.symm heq)] at ht'
      apply (h.thread_ok t' thread ht').congr (by simp)
      simp [hfreeing]
  . intro hfreeing'
    have hfreeing' : s.freeing = true := hfreeing'
    simp [hfreeing] at hfreeing'

end Step

end StatsDomain
