import SmartnicFw.OpenNic.Stats.ZoneRefs

/-!
This module contains the proof that zones are reference counted in a run exactly when no step of it
drops a last reference: what the steps of a thread do to the invariant, and runs of any threads.
-/

namespace StatsDomain

theorem init_inv (n : Nat) : (init n).Inv := by
  constructor
  . rfl
  . intro zone z hz
    contradiction
  . intro t thread ht
    have hmem : thread ∈ List.replicate n Thread.idle := List.mem_of_getElem? ht
    rw [List.eq_of_mem_replicate hmem]
    trivial
  . intro hfreeing
    contradiction

theorem map_ownerRef_modify {zones : List Zone} {zone : Nat} {f : Zone → Zone}
    (howner : ∀ z, (f z).ownerRef = z.ownerRef) (zone' : Nat)
    : (zones.modify zone f)[zone']?.map Zone.ownerRef = zones[zone']?.map Zone.ownerRef := by
  rw [List.getElem?_modify]
  cases zones[zone']? with
  | none => rfl
  | some z =>
    by_cases heq : zone = zone' <;> simp [heq, howner]

theorem Resume.Ok.modify {k : Resume} {zones : List Zone} {freeing : Bool}
    (h : k.Ok zones freeing) {zone : Nat} {f : Zone → Zone}
    (howner : ∀ z, (f z).ownerRef = z.ownerRef)
    : k.Ok (zones.modify zone f) freeing := by
  cases k with
  | done => exact h
  | arrive walk next =>
    simp only [Resume.Ok, List.length_modify, map_ownerRef_modify howner]
    exact h
  | nextZone walk zone =>
    simp only [Resume.Ok, List.length_modify]
    exact h

section Good

variable {s s' : State} {t : Nat}

theorem State.Inv.setFreeing (h : s.Inv)
    (hidle : ∀ (t : Nat) thread, s.threads[t]? = some thread → thread = .idle)
    : State.Inv { s with freeing := true } := by
  constructor
  . exact h.attached_eq
  . intro zone z hz
    have hinv := h.zone_inv zone z hz
    exact ⟨hinv.count_eq, hinv.outstanding_pos, hinv.detaches_eq, hinv.frees_eq,
      hinv.allocating_eq⟩
  . intro t thread ht
    rw [hidle t thread ht]
    trivial
  . intro _ t thread ht hne
    exact absurd (hidle t thread ht) hne

theorem State.Inv.start (h : s.Inv) (hold : s.threads[t]? = some .idle) {action : Action}
    (hstep : StatsDomain.start s t action = some s')
    : s'.Inv := by
  unfold StatsDomain.start at hstep
  split at hstep
  . contradiction
  . rename_i hfreeing
    have hfreeing : s.freeing = false := by simpa using hfreeing
    have halone : s.freeing = true → s.Alone t := by simp [hfreeing]
    have hwalk : ∀ walk : Walk, walk ≠ .domainFree → (s.setThread t (.nextZone walk none)).Inv := by
      intro walk hne
      apply h.setThread hold halone
      . intro zone
        rfl
      . intro zone
        rfl
      . exact ⟨by simp [hne, hfreeing], by simp⟩
    cases action with
    | zoneAlloc =>
      cases hstep
      exact h.attach hold hfreeing
    | zoneFree zone =>
      simp only at hstep
      split at hstep
      . rename_i howner
        cases hstep
        obtain ⟨z, hz, howner⟩ := Option.map_eq_some_iff.mp howner
        have hlt := (List.getElem?_eq_some_iff.mp hz).1
        apply h.modify hold halone
        . intro zone' hne
          simp [Thread.refs, Resume.refs, Thread.allocating, Ne.symm hne]
        . intro z' hz'
          rw [hz] at hz'
          cases hz'
          simp [Thread.refs, Resume.refs, Thread.allocating, howner, OwnerRef.counted,
            OwnerRef.outstanding, OwnerRef.pendings]
        . exact ⟨by simpa using hlt, hfreeing⟩
      . contradiction
    | walk walk =>
      cases walk with
      | domainFree =>
        simp only at hstep
        split at hstep
        . rename_i hall
          cases hstep
          have hidle : ∀ (t' : Nat) thread, s.threads[t']? = some thread → thread = .idle := by
            intro t' thread ht'
            simpa using List.all_eq_true.mp hall thread (List.mem_of_getElem? ht')
          apply State.Inv.setThread (h.setFreeing hidle) hold
          . intro _ t' thread ht' _
            exact hidle t' thread ht'
          . intro zone
            rfl
          . intro zone
            rfl
          . exact ⟨by simp, by simp⟩
        . contradiction
      | update =>
        cases hstep
        exact hwalk .update (by simp)
      | clear =>
        cases hstep
        exact hwalk .clear (by simp)
      | getValues =>
        cases hstep
        exact hwalk .getValues (by simp)
      | forEach =>
        cases hstep
        exact hwalk .forEach (by simp)
    | next => contradiction
    | earlyBreak => contradiction

theorem toNat_add_one {n : UInt32} (h : n.toNat ≠ 2 ^ 32 - 1) : (n + 1).toNat = n.toNat + 1 := by
  have hlt := n.toNat_lt
  rw [UInt32.toNat_add]
  simp only [UInt32.toNat_one]
  omega

theorem toNat_sub_one {n : UInt32} (h : n ≠ 0) : (n - 1).toNat + 1 = n.toNat := by
  have hpos : n.toNat ≠ 0 := by
    intro hzero
    exact h (UInt32.toNat_inj.mp hzero)
  have hle : (1 : UInt32) ≤ n := by
    rw [UInt32.le_iff_toNat_le]
    simp only [UInt32.toNat_one]
    omega
  rw [UInt32.toNat_sub_of_le n 1 hle]
  simp only [UInt32.toNat_one]
  omega

-- The walk that frees a domain visits zones whose owner has not given them up
theorem State.Inv.owner_held (h : s.Inv) {walk : Walk} {cur : Option Nat}
    (hold : s.threads[t]? = some (.nextZone walk cur)) {zone : Nat}
    (hnext : s.nextZone cur = some zone) (hfreeing : s.freeing = true)
    : s.zones[zone]?.map Zone.ownerRef = some .held := by
  have hok := h.thread_ok t _ hold
  obtain ⟨hlt, hne⟩ := h.nextZone_lt hnext hok.2
  have hz := List.getElem?_eq_getElem hlt
  have halone := h.exclusive hfreeing t _ hold (by simp)
  have hrefs : s.refs zone = 0 := by
    rw [State.refs, halone.sum_map hold _ rfl]
    exact if_neg hne
  have hallocating : s.allocating zone = 0 := halone.sum_map hold _ rfl
  have hinv := h.zone_inv zone _ hz
  have hpos := hinv.outstanding_pos
  have halloc := hinv.allocating_eq
  rw [hz, Option.map_some]
  unfold State.outstanding at hpos
  cases howner : s.zones[zone].ownerRef with
  | held => rfl
  | pending =>
    simp only [howner, OwnerRef.pendings] at halloc
    omega
  | dropped =>
    simp only [howner, OwnerRef.outstanding] at hpos
    omega

theorem State.Inv.nextZone (h : s.Inv) {walk : Walk} {cur : Option Nat}
    (hold : s.threads[t]? = some (.nextZone walk cur))
    (hstep : (Thread.nextZone walk cur).step s t .next = some s')
    (hok : StepOk s (t, .next))
    : s'.Inv := by
  have halone : s.freeing = true → s.Alone t := by
    intro hfreeing
    exact h.exclusive hfreeing t _ hold (by simp)
  have hthread := h.thread_ok t _ hold
  cases hnext : s.nextZone cur with
  | none =>
    simp only [Thread.step, hnext, statsZoneGet] at hstep
    cases cur with
    | none =>
      cases hstep
      apply h.setThread hold halone
      . intro zone
        rfl
      . intro zone
        rfl
      . trivial
    | some cur =>
      cases hstep
      apply h.setThread hold halone
      . intro zone
        simp [Thread.refs, Resume.refs]
      . intro zone
        rfl
      . exact ⟨hthread.2 cur rfl, hthread.1, by simp⟩
  | some zone =>
    obtain ⟨hlt, hne⟩ := h.nextZone_lt hnext hthread.2
    have hcount : ∀ z, s.zones[zone]? = some z → z.refCount.toNat ≠ 2 ^ 32 - 1 := by
      simp only [StepOk, hold] at hok
      intro z hz
      exact hok zone z hnext hz
    have hheld : s.freeing = true → s.zones[zone]?.map Zone.ownerRef = some .held :=
      h.owner_held hold hnext
    simp only [Thread.step, hnext, statsZoneGet] at hstep
    cases cur with
    | none =>
      cases hstep
      apply h.modify hold halone
      . intro zone' hne'
        simp [Resume.thread, Thread.refs, Thread.allocating, Ne.symm hne']
      . intro z hz
        simp [Resume.thread, Thread.refs, Thread.allocating, toNat_add_one (hcount z hz)]
        omega
      . refine ⟨hthread.1, by simpa using hlt, ?_⟩
        rw [map_ownerRef_modify (by simp)]
        exact hheld
    | some cur =>
      cases hstep
      have hne : cur ≠ zone := fun heq => hne (congrArg some heq)
      apply h.modify hold halone
      . intro zone' hne'
        simp [Thread.refs, Resume.refs, Thread.allocating, Ne.symm hne']
      . intro z hz
        simp [Thread.refs, Resume.refs, Thread.allocating, toNat_add_one (hcount z hz), hne]
        omega
      . refine ⟨by simpa using hthread.2 cur rfl, hthread.1, ?_⟩
        rintro _ ⟨⟩
        rw [map_ownerRef_modify (by simp)]
        exact ⟨by simpa using hlt, hheld⟩

theorem State.Inv.put (h : s.Inv) {zone : Nat} {k : Resume}
    (hold : s.threads[t]? = some (.put zone k))
    (hstep : (Thread.put zone k).step s t .next = some s')
    (hok : StepOk s (t, .next))
    : s'.Inv := by
  have halone : s.freeing = true → s.Alone t := by
    intro hfreeing
    exact h.exclusive hfreeing t _ hold (by simp)
  have hthread := h.thread_ok t _ hold
  obtain ⟨z, hz, hstep⟩ := Option.bind_eq_some_iff.mp hstep
  have hinv := h.zone_inv zone z hz
  have hcount := hinv.count_eq
  have hpos := hinv.outstanding_pos
  have hone : s.outstanding zone z ≠ 1 := by
    simp only [StepOk, hold] at hok
    exact hok z hz
  have hrefs : 1 ≤ s.refs zone := by
    apply le_trans _ (le_sum_map (fun thread => thread.refs zone) hold)
    simp [Thread.refs]
  have hne : z.refCount ≠ 0 := by
    intro hzero
    simp [hzero] at hcount
    omega
  unfold State.outstanding at hone hpos
  simp only [hne, if_false] at hstep
  cases hstep
  have hput : ∀ zone', (Thread.put zone k).refs zone' =
      (if zone = zone' then 1 else 0) + k.refs zone' := fun _ => rfl
  have hallocating : ∀ zone', (Thread.put zone k).allocating zone' = 0 := fun _ => rfl
  apply h.modify hold halone
  . intro zone' hne'
    simp [hput, hallocating, Ne.symm hne']
  . intro z' hz'
    rw [hz] at hz'
    cases hz'
    have hsub := toNat_sub_one hne
    simp only [hput, hallocating, if_true, Resume.refs_thread, Resume.allocating_thread]
    refine ⟨?_, ?_, trivial, trivial, trivial⟩ <;> omega
  . exact (hthread.2.modify (by simp)).thread

theorem State.Inv.visit (h : s.Inv) {walk : Walk} {zone : Nat} {action : Action}
    (hold : s.threads[t]? = some (.visit walk zone))
    (hstep : (Thread.visit walk zone).step s t action = some s')
    : s'.Inv := by
  have halone : s.freeing = true → s.Alone t := by
    intro hfreeing
    exact h.exclusive hfreeing t _ hold (by simp)
  obtain ⟨hwalk, hlt, hheld⟩ := h.thread_ok t _ hold
  have hother : walk ≠ .domainFree → s.freeing = false := by
    intro hne
    by_contra hfreeing
    exact hne (hwalk.mpr (by simpa using hfreeing))
  have hnext : walk ≠ .domainFree → (s.setThread t (.nextZone walk (some zone))).Inv := by
    intro hne
    apply h.setThread hold halone
    . intro zone'
      simp [Thread.refs]
    . intro zone'
      rfl
    . refine ⟨hwalk, ?_⟩
      rintro _ ⟨⟩
      exact hlt
  have hbreak : walk ≠ .domainFree → (s.setThread t (.put zone .done)).Inv := by
    intro hne
    apply h.setThread hold halone
    . intro zone'
      simp [Thread.refs, Resume.refs]
    . intro zone'
      rfl
    . exact ⟨hlt, hother hne⟩
  cases action with
  | next =>
    cases walk with
    | domainFree =>
      cases hstep
      have hfreeing : s.freeing = true := hwalk.mp rfl
      obtain ⟨z, hz, howner⟩ := Option.map_eq_some_iff.mp (hheld hfreeing)
      apply h.modify hold halone
      . intro zone' hne
        simp [Thread.refs, Resume.refs, Thread.allocating, Ne.symm hne]
      . intro z' hz'
        rw [hz] at hz'
        cases hz'
        simp [Thread.refs, Resume.refs, Thread.allocating, howner, OwnerRef.counted,
          OwnerRef.outstanding, OwnerRef.pendings]
      . refine ⟨by simpa using hlt, rfl, hfreeing, by simpa using hlt⟩
    | update =>
      cases hstep
      exact hnext (by simp)
    | clear =>
      cases hstep
      exact hnext (by simp)
    | getValues =>
      cases hstep
      exact hnext (by simp)
    | forEach =>
      cases hstep
      exact hnext (by simp)
  | earlyBreak =>
    cases walk with
    | getValues =>
      cases hstep
      exact hbreak (by simp)
    | forEach =>
      cases hstep
      exact hbreak (by simp)
    | update => contradiction
    | clear => contradiction
    | domainFree => contradiction
  | zoneAlloc => cases walk <;> contradiction
  | zoneFree zone => cases walk <;> contradiction
  | walk walk' => cases walk <;> contradiction

theorem State.Inv.allocGet (h : s.Inv) {zone : Nat}
    (hold : s.threads[t]? = some (.allocGet zone))
    (hstep : (Thread.allocGet zone).step s t .next = some s')
    (hok : StepOk s (t, .next))
    : s'.Inv := by
  have halone : s.freeing = true → s.Alone t := by
    intro hfreeing
    exact h.exclusive hfreeing t _ hold (by simp)
  have hcount : ∀ z, s.zones[zone]? = some z → z.refCount.toNat ≠ 2 ^ 32 - 1 := by
    simpa only [StepOk, hold] using hok
  cases hstep
  apply h.modify hold halone
  . intro zone' hne
    simp [Thread.refs, Thread.allocating, Ne.symm hne]
  . intro z hz
    -- The allocating thread is there, so that the reference is still to be counted
    have halloc := (h.zone_inv zone z hz).allocating_eq
    have hle : 1 ≤ s.allocating zone := by
      apply le_trans _ (le_sum_map (fun thread => thread.allocating zone) hold)
      simp [Thread.allocating]
    have howner : z.ownerRef = .pending := by
      cases howner : z.ownerRef with
      | pending => rfl
      | held => simp only [howner, OwnerRef.pendings] at halloc; omega
      | dropped => simp only [howner, OwnerRef.pendings] at halloc; omega
    simp [Thread.refs, Thread.allocating, toNat_add_one (hcount z hz), howner, OwnerRef.counted,
      OwnerRef.outstanding, OwnerRef.pendings]
  . trivial

theorem State.Inv.step (h : s.Inv) {l : Nat × Action} (hstep : StatsDomain.step s l = some s')
    (hok : StepOk s l)
    : s'.Inv := by
  obtain ⟨t, action⟩ := l
  obtain ⟨thread, hold, hstep⟩ := Option.bind_eq_some_iff.mp hstep
  have hthread := h.thread_ok t thread hold
  cases thread with
  | idle =>
    have hstart : StatsDomain.start s t action = some s' := by
      cases action <;> exact hstep
    exact h.start hold hstart
  | allocGet zone =>
    cases action with
    | next => exact h.allocGet hold hstep hok
    | _ => contradiction
  | nextZone walk cur =>
    cases action with
    | next => exact h.nextZone hold hstep hok
    | _ => contradiction
  | visit walk zone => exact h.visit hold hstep
  | put zone k =>
    cases action with
    | next => exact h.put hold hstep hok
    | _ => contradiction
  | detach zone k => exact absurd hthread id
  | free zone k => exact absurd hthread id

end Good

section Bad

variable {s s' : State} {t : Nat}

theorem State.releasing_setThread {old : Thread} (hold : s.threads[t]? = some old) (new : Thread)
    (zone : Nat)
    : (s.setThread t new).releasing zone + old.releasing zone =
        s.releasing zone + new.releasing zone := by
  exact sum_map_set (fun thread => thread.releasing zone) hold new

theorem getElem?_modifyZone {zone : Nat} {z : Zone} (hz : s.zones[zone]? = some z)
    (f : Zone → Zone) (new : Thread)
    : ((s.modifyZone zone f).setThread t new).zones[zone]? = some (f z) := by
  show (s.zones.modify zone f)[zone]? = some (f z)
  rw [List.getElem?_modify, hz]
  simp

-- A counter that wraps is lower than the number of references
theorem not_refCounted_of_wrap {zone : Nat} {z : Zone} (hz : s'.zones[zone]? = some z)
    (hcount : z.refCount = 0) (hrefs : 0 < s'.refs zone + z.ownerRef.counted)
    : ¬ s'.RefCounted := by
  intro h
  have hcount_eq := (h zone z hz).count_eq
  rw [hcount, UInt32.toNat_zero] at hcount_eq
  omega

theorem add_one_eq_zero {n : UInt32} (h : n.toNat = 2 ^ 32 - 1) : n + 1 = 0 := by
  rw [← UInt32.toNat_inj, UInt32.toNat_add, h]
  rfl

-- A thread that drops the last reference leaves the zone attached, and goes on without freeing it
theorem State.Inv.not_refCounted_of_put (h : s.Inv) {zone : Nat} {k : Resume}
    (hold : s.threads[t]? = some (.put zone k))
    (hstep : (Thread.put zone k).step s t .next = some s')
    (hbad : ¬ StepOk s (t, .next))
    : ¬ s'.RefCounted := by
  obtain ⟨z, hz, hstep⟩ := Option.bind_eq_some_iff.mp hstep
  have hlast : s.refs zone + z.ownerRef.outstanding = 1 := by
    by_contra hne
    apply hbad
    simp only [StepOk, hold]
    intro z' hz'
    rw [hz] at hz'
    cases hz'
    exact hne
  have hcount := (h.zone_inv zone z hz).count_eq
  have hrefs : (Thread.put zone k).refs zone ≤ s.refs zone :=
    le_sum_map (fun thread => thread.refs zone) hold
  have hput : (Thread.put zone k).refs zone = 1 + k.refs zone := by
    simp [Thread.refs]
  have hne : z.refCount ≠ 0 := by
    intro hzero
    rw [hzero, UInt32.toNat_zero] at hcount
    omega
  simp only [hne, if_false] at hstep
  cases hstep
  intro hrefCounted
  have hrefs' := State.refs_setThread hold k.thread zone
  have hreleasing' := State.releasing_setThread hold k.thread zone
  rw [Resume.refs_thread] at hrefs'
  rw [Resume.releasing_thread, h.releasing_eq_zero zone] at hreleasing'
  have hmem := h.mem_attached hz
  rcases (hrefCounted zone _ (getElem?_modifyZone hz _ _)).dead (by
    show (s.setThread t k.thread).refs zone + z.ownerRef.outstanding = 0
    omega) with ⟨hone, _⟩ | ⟨_, hdetached, _⟩
  . have hone : (s.setThread t k.thread).releasing zone = 1 := hone
    omega
  . exact hdetached hmem

theorem State.Inv.not_refCounted (h : s.Inv) {l : Nat × Action}
    (hstep : StatsDomain.step s l = some s') (hbad : ¬ StepOk s l)
    : ¬ s'.RefCounted := by
  obtain ⟨t, action⟩ := l
  obtain ⟨thread, hold, hstep⟩ := Option.bind_eq_some_iff.mp hstep
  have hthread := h.thread_ok t thread hold
  cases thread with
  | idle => exact absurd (by simp [StepOk, hold]) hbad
  | visit walk zone => exact absurd (by simp [StepOk, hold]) hbad
  | detach zone k => exact absurd hthread id
  | free zone k => exact absurd hthread id
  | put zone k =>
    cases action with
    | next => exact h.not_refCounted_of_put hold hstep hbad
    | _ => contradiction
  | allocGet zone =>
    cases action with
    | next =>
      simp only [StepOk, hold] at hbad
      push Not at hbad
      obtain ⟨z, hz, hmax⟩ := hbad
      cases hstep
      apply not_refCounted_of_wrap (getElem?_modifyZone hz _ _)
      . exact add_one_eq_zero hmax
      . simp [OwnerRef.counted]
    | _ => contradiction
  | nextZone walk cur =>
    cases action with
    | next =>
      simp only [StepOk, hold] at hbad
      push Not at hbad
      obtain ⟨zone, z, hnext, hz, hmax⟩ := hbad
      obtain ⟨_, hne⟩ := h.nextZone_lt hnext hthread.2
      simp only [Thread.step, hnext, statsZoneGet] at hstep
      cases cur with
      | none =>
        cases hstep
        apply not_refCounted_of_wrap (getElem?_modifyZone hz _ _)
        . exact add_one_eq_zero hmax
        . have hrefs := State.refs_setThread hold (.visit walk zone) zone
          simp only [Thread.refs, if_true] at hrefs
          show 0 < (s.setThread t (.visit walk zone)).refs zone + _
          simp at hrefs
          omega
      | some cur =>
        cases hstep
        apply not_refCounted_of_wrap (getElem?_modifyZone hz _ _)
        . exact add_one_eq_zero hmax
        . have hrefs := State.refs_setThread hold (.put cur (.arrive walk (some zone))) zone
          have hne : cur ≠ zone := fun heq => hne (congrArg some heq)
          simp [Thread.refs, Resume.refs, hne] at hrefs
          show 0 < (s.setThread t (.put cur (.arrive walk (some zone)))).refs zone + _
          omega
    | _ => contradiction

end Bad

-- Whatever the threads do, and in whatever order, zones are reference counted in every state that
-- is reached when no step drops a last reference or overflows a counter, and else they are not
theorem refCounted_iff_stepsOk (n : Nat) (ls : List (Nat × Action))
    : Transition.StatesSatisfy step State.RefCounted (init n) ls ↔
        Transition.StepsSatisfy step StepOk (init n) ls := by
  have hkeeps : ∀ (s : State) l s', s.Inv → step s l = some s' → StepOk s l → s'.Inv := by
    intro s l s' h hstep hok
    exact h.step hstep hok
  have hbreaks : ∀ (s : State) l s', s.Inv → step s l = some s' → ¬ StepOk s l →
      ¬ s'.RefCounted := by
    intro s l s' h hstep hbad
    exact h.not_refCounted hstep hbad
  have hrefCounted : ∀ s : State, s.Inv → s.RefCounted := by
    intro s h
    exact h.refCounted
  exact Transition.statesSatisfy_iff_stepsSatisfy hrefCounted hkeeps hbreaks (init_inv n) ls

-- One zone, one thread and no walk: the owner frees the zone, which stays attached
def allocFree : List (Nat × Action) :=
  [(0, .zoneAlloc), (0, .next), (0, .zoneFree 0), (0, .next)]

theorem not_refCounted_allocFree
    : ¬ Transition.StatesSatisfy step State.RefCounted (init 1) allocFree := by
  intro h
  have hrun : Transition.run step (init 1) allocFree = some
      { zones := [{ refCount := 0, ownerRef := .dropped, detaches := 0, frees := 0 }]
        attached := [0], threads := [.idle], freeing := false } := by
    decide
  have hzone := h.of_run hrun 0 _ rfl
  have hdetached : 0 ∉ [0] := hzone.unreachable rfl rfl rfl
  simp at hdetached

-- An update of the domain goes on to call the block callbacks of the zone
example :
    (Transition.run step (init 1) (allocFree ++ [(0, .walk .update), (0, .next)])).map
      State.threads = some [.visit .update 0] := by
  decide

end StatsDomain
