import SmartnicFw.Lib.Transition
import SmartnicFw.Lib.UpdateEach

/-!
This module contains threads that update a shared memory in two steps, a read and then a write of the
same location, and when all updates take effect as if each of them were one step.
-/

namespace SharedUpdates

-- What the updates do. `write` is given the value that has been read, and the one that is there by
-- the time of the write.
structure Semantics (A Loc α : Type) where
  loc : A → Loc
  write : A → α → α → α
  fallible : Bool

structure State (T A Loc α : Type) where
  mem : Loc → α
  todo : T → List A
  held : T → Option α
  failed : T → Bool
  written : List (T × A)

inductive Label (T : Type) where
  | read (t : T)
  | write (t : T)
  -- The read or the write fails, and the thread goes on with its next update
  | fail (t : T)
  -- The write takes effect, but is taken for failed
  | failLate (t : T)

variable {T A Loc α : Type} [DecidableEq T] [DecidableEq Loc] (M : Semantics A Loc α)

def Semantics.apply (mem : Loc → α) (u : A) : Loc → α :=
  Function.update mem (M.loc u) (M.write u (mem (M.loc u)) (mem (M.loc u)))

namespace State

variable (s : State T A Loc α)

-- The thread is done with an update
def next (t : T) (rest : List A) : State T A Loc α :=
  { s with
    todo := Function.update s.todo t rest
    held := Function.update s.held t none }

def store (t : T) (u : A) (v : α) : State T A Loc α :=
  { s with
    mem := Function.update s.mem (M.loc u) (M.write u v (s.mem (M.loc u)))
    written := s.written ++ [(t, u)] }

def setFailed (t : T) : State T A Loc α := { s with failed := Function.update s.failed t true }

end State

def step (s : State T A Loc α) (l : Label T) : Option (State T A Loc α) :=
  match l with
  | .read t =>
    match s.todo t, s.held t with
    | u :: _, none => some { s with held := Function.update s.held t (some (s.mem (M.loc u))) }
    | _, _ => none
  | .write t =>
    match s.todo t, s.held t with
    | u :: rest, some v => some ((s.store M t u v).next t rest)
    | _, _ => none
  | .fail t =>
    match M.fallible, s.todo t with
    | true, _ :: rest => some ((s.next t rest).setFailed t)
    | _, _ => none
  | .failLate t =>
    match M.fallible, s.todo t, s.held t with
    | true, u :: rest, some v => some (((s.store M t u v).next t rest).setFailed t)
    | _, _, _ => none

section Ideal

variable (init : Loc → α) (loc : Loc)

-- A part of the memory is as if each of the writes so far had been done at once with its read
def Serial (s : State T A Loc α) : Prop :=
  s.mem loc = (s.written.map Prod.snd).foldl M.apply init loc

-- A write does what it would do on what is there
def Fresh (s : State T A Loc α) (l : Label T) : Prop :=
  match l with
  | .write t | .failLate t =>
    ∀ u rest v, s.todo t = u :: rest → s.held t = some v → M.loc u = loc →
      M.write u v (s.mem loc) = M.write u (s.mem loc) (s.mem loc)
  | _ => True

end Ideal

section Steps

variable {M} {s s' : State T A Loc α} {t : T}

theorem step_read (h : step M s (.read t) = some s')
    : ∃ u rest, s.todo t = u :: rest ∧ s.held t = none ∧
        s' = { s with held := Function.update s.held t (some (s.mem (M.loc u))) } := by
  simp only [step] at h
  split at h
  . next u rest htodo hheld =>
    cases h
    exact ⟨u, rest, htodo, hheld, rfl⟩
  . contradiction

theorem step_write (h : step M s (.write t) = some s')
    : ∃ u rest v, s.todo t = u :: rest ∧ s.held t = some v ∧
        s' = (s.store M t u v).next t rest := by
  simp only [step] at h
  split at h
  . next u rest v htodo hheld =>
    cases h
    exact ⟨u, rest, v, htodo, hheld, rfl⟩
  . contradiction

theorem step_fail (h : step M s (.fail t) = some s')
    : ∃ u rest, s.todo t = u :: rest ∧ s' = (s.next t rest).setFailed t := by
  simp only [step] at h
  split at h
  . next u rest _ htodo =>
    cases h
    exact ⟨u, rest, htodo, rfl⟩
  . contradiction

theorem step_failLate (h : step M s (.failLate t) = some s')
    : ∃ u rest v, s.todo t = u :: rest ∧ s.held t = some v ∧
        s' = ((s.store M t u v).next t rest).setFailed t := by
  simp only [step] at h
  split at h
  . next u rest v _ htodo hheld =>
    cases h
    exact ⟨u, rest, v, htodo, hheld, rfl⟩
  . contradiction

variable {init : Loc → α} {loc : Loc}

theorem apply_of_ne {u : A} (h : M.loc u ≠ loc) (mem : Loc → α) : M.apply mem u loc = mem loc := by
  apply Function.update_of_ne
  exact Ne.symm h

theorem apply_self (mem : Loc → α) (u : A)
    : M.apply mem u (M.loc u) = M.write u (mem (M.loc u)) (mem (M.loc u)) := by
  apply Function.update_self

omit [DecidableEq T] in
theorem serial_store_iff (hs : Serial M init loc s) {u : A} {v : α}
    : Serial M init loc (s.store M t u v) ↔
        (M.loc u = loc → M.write u v (s.mem loc) = M.write u (s.mem loc) (s.mem loc)) := by
  unfold Serial at hs ⊢
  simp only [State.store, List.map_append, List.map_cons, List.map_nil, List.foldl_concat]
  by_cases hloc : M.loc u = loc
  . subst hloc
    rw [apply_self, ← hs, Function.update_self]
    simp
  . rw [apply_of_ne hloc, ← hs, Function.update_of_ne (Ne.symm hloc)]
    simp [hloc]

-- The updates stay serial in a run exactly as long as every write is fresh
theorem serial_iff_fresh (hs : Serial M init loc s) (ls : List (Label T))
    : Transition.StatesSatisfy (step M) (Serial M init loc) s ls ↔
        Transition.StepsSatisfy (step M) (Fresh M loc) s ls := by
  apply Transition.statesSatisfy_iff_stepsSatisfy (fun _ h => h) _ _ hs
  . intro s l s' hs hstep hfresh
    cases l with
    | read t =>
      obtain ⟨u, rest, -, -, rfl⟩ := step_read hstep
      exact hs
    | write t =>
      obtain ⟨u, rest, v, htodo, hheld, rfl⟩ := step_write hstep
      exact (serial_store_iff hs).mpr (hfresh u rest v htodo hheld)
    | fail t =>
      obtain ⟨u, rest, htodo, rfl⟩ := step_fail hstep
      exact hs
    | failLate t =>
      obtain ⟨u, rest, v, htodo, hheld, rfl⟩ := step_failLate hstep
      exact (serial_store_iff hs).mpr (hfresh u rest v htodo hheld)
  . intro s l s' hs hstep hstale hserial
    cases l with
    | read t => exact hstale trivial
    | write t =>
      obtain ⟨u, rest, v, htodo, hheld, rfl⟩ := step_write hstep
      have hwrite := (serial_store_iff hs).mp hserial
      apply hstale
      intro u' rest' v' htodo' hheld'
      rw [htodo] at htodo'
      rw [hheld] at hheld'
      cases htodo'
      cases hheld'
      exact hwrite
    | fail t => exact hstale trivial
    | failLate t =>
      obtain ⟨u, rest, v, htodo, hheld, rfl⟩ := step_failLate hstep
      have hwrite := (serial_store_iff hs).mp hserial
      apply hstale
      intro u' rest' v' htodo' hheld'
      rw [htodo] at htodo'
      rw [hheld] at hheld'
      cases htodo'
      cases hheld'
      exact hwrite

end Steps

section Programs

variable (mem : Loc → α) (program : T → List A)

def start : State T A Loc α :=
  { mem, todo := program, held := fun _ => none, failed := fun _ => false, written := [] }

-- What a thread has written and what it has still to do, as long as nothing has failed
def Accounted (s : State T A Loc α) : Prop :=
  ∀ t, s.failed t = false →
    (s.written.filter fun w => w.1 = t).map Prod.snd ++ s.todo t = program t

-- All threads are done without failure
def Completed (s : State T A Loc α) : Prop := ∀ t, s.todo t = [] ∧ s.failed t = false

variable {M mem program} {s s' : State T A Loc α} {l : Label T}

omit [DecidableEq T] in
theorem serial_start (loc : Loc) : Serial M mem loc (start mem program) := by
  rfl

omit [DecidableEq Loc] in
theorem accounted_start : Accounted program (start mem program) := by
  intro t _
  rfl

theorem accounted_store {t : T} {u : A} {rest : List A} (v : α)
    (hs : Accounted program s) (htodo : s.todo t = u :: rest)
    : Accounted program ((s.store M t u v).next t rest) := by
  intro t' hfailed
  have hacc := hs t' hfailed
  by_cases ht : t' = t
  . subst ht
    rw [htodo] at hacc
    simpa [State.store, State.next, List.filter_append] using hacc
  . simpa [State.store, State.next, List.filter_append, Function.update_of_ne ht, Ne.symm ht]
      using hacc

omit [DecidableEq Loc] in
theorem accounted_setFailed {t : T} (hs : ∀ t' ≠ t, s.failed t' = false →
      (s.written.filter fun w => w.1 = t').map Prod.snd ++ s.todo t' = program t')
    : Accounted program (s.setFailed t) := by
  intro t' hfailed
  by_cases ht : t' = t
  . subst ht
    simp [State.setFailed] at hfailed
  . apply hs t' ht
    simpa [State.setFailed, Function.update_of_ne ht] using hfailed

theorem accounted_step (hs : Accounted program s) (h : step M s l = some s')
    : Accounted program s' := by
  cases l with
  | read t =>
    obtain ⟨u, rest, -, -, rfl⟩ := step_read h
    exact hs
  | write t =>
    obtain ⟨u, rest, v, htodo, -, rfl⟩ := step_write h
    exact accounted_store v hs htodo
  | fail t =>
    obtain ⟨u, rest, htodo, rfl⟩ := step_fail h
    apply accounted_setFailed
    intro t' ht hfailed
    simpa [State.next, Function.update_of_ne ht] using hs t' hfailed
  | failLate t =>
    obtain ⟨u, rest, v, htodo, -, rfl⟩ := step_failLate h
    exact accounted_setFailed fun t' _ hfailed => accounted_store v hs htodo t' hfailed

variable {ls : List (Label T)}

theorem accounted_run (h : Transition.run (step M) (start mem program) ls = some s)
    : Accounted program s :=
  Transition.run_keeps (fun _ _ _ hs hstep => accounted_step hs hstep) accounted_start h

theorem written_of_completed (h : Transition.run (step M) (start mem program) ls = some s)
    (hdone : Completed s) (t : T)
    : (s.written.filter fun w => w.1 = t).map Prod.snd = program t := by
  have hacc := accounted_run h t (hdone t).2
  rwa [(hdone t).1, List.append_nil] at hacc

variable {V : Type}

-- What only one thread sets has in the end the last value that this thread gives to it
theorem lastSome_written {g : A → Option V} {t : T}
    (h : Transition.run (step M) (start mem program) ls = some s) (hdone : Completed s)
    (hothers : ∀ t' ≠ t, ∀ u ∈ program t', g u = none)
    : lastSome g (s.written.map Prod.snd) = lastSome g (program t) := by
  have hcomp : ∀ ws : List (T × A),
      lastSome g (ws.map Prod.snd) = lastSome (fun w => g w.2) ws := by
    intro ws
    simp [lastSome, ← List.map_reverse, List.findSome?_map, Function.comp_def]
  rw [← written_of_completed h hdone t, hcomp, hcomp]
  symm
  apply lastSome_filter
  rintro ⟨t', u⟩ hmem hne
  have ht : t' ≠ t := by simpa using hne
  apply hothers t' ht
  rw [← written_of_completed h hdone t']
  exact List.mem_map.mpr ⟨(t', u), by simp [hmem], rfl⟩

variable {loc : Loc} {get : α → V} {g : A → Option V}

omit [DecidableEq T] in
theorem get_apply {u : A} (hget : M.loc u = loc → ∀ v, get (M.write u v v) = (g u).getD (get v))
    (hloc : M.loc u ≠ loc → g u = none) (mem : Loc → α)
    : get (M.apply mem u loc) = (g u).getD (get (mem loc)) := by
  by_cases hu : M.loc u = loc
  . subst hu
    rw [apply_self]
    exact hget rfl _
  . rw [apply_of_ne hu, hloc hu]
    rfl

-- What only one thread sets is after a run of fresh writes as if that thread had run alone
theorem get_of_completed {t : T}
    (happly : ∀ t', ∀ u ∈ program t', ∀ mem, get (M.apply mem u loc) = (g u).getD (get (mem loc)))
    (hothers : ∀ t' ≠ t, ∀ u ∈ program t', g u = none)
    (hfresh : Transition.StepsSatisfy (step M) (Fresh M loc) (start mem program) ls)
    (h : Transition.run (step M) (start mem program) ls = some s) (hdone : Completed s)
    : get (s.mem loc) = get ((program t).foldl M.apply mem loc) := by
  have hserial : Serial M mem loc s :=
    ((serial_iff_fresh (serial_start loc) ls).mpr hfresh).of_run h
  have hprogram : ∀ u ∈ s.written.map Prod.snd, ∃ t', u ∈ program t' := by
    intro u hmem
    obtain ⟨⟨t', u⟩, hw, rfl⟩ := List.mem_map.mp hmem
    refine ⟨t', ?_⟩
    rw [← written_of_completed h hdone t']
    exact List.mem_map.mpr ⟨(t', u), by simp [hw], rfl⟩
  rw [hserial, get_foldl_lastSome M.apply (fun mem => get (mem loc)) (f := g),
    get_foldl_lastSome M.apply (fun mem => get (mem loc)) (f := g),
    lastSome_written h hdone hothers]
  . intro mem u hmem
    exact happly t u hmem mem
  . intro mem u hmem
    obtain ⟨t', hmem⟩ := hprogram u hmem
    exact happly t' u hmem mem

end Programs

section Unset

variable {M : Semantics A Loc α} {s s' : State T A Loc α} {l : Label T} {loc : Loc}
variable {V : Type} {get : α → V} {v₀ : V}

-- What no update sets is the same in the memory and in everything that has been read from it
def Kept (M : Semantics A Loc α) (get : α → V) (loc : Loc) (v₀ : V) (s : State T A Loc α) : Prop :=
  get (s.mem loc) = v₀ ∧
    ∀ t, ∀ u ∈ s.todo t, M.loc u = loc →
      (∀ v cur, get (M.write u v cur) = get v) ∧
        ∀ rest v, s.todo t = u :: rest → s.held t = some v → get v = v₀

omit [DecidableEq Loc] in
theorem kept_next {t : T} {u : A} {rest : List A} (hs : Kept M get loc v₀ s)
    (htodo : s.todo t = u :: rest)
    : Kept M get loc v₀ (s.next t rest) := by
  refine ⟨hs.1, ?_⟩
  intro t' u' hmem hloc
  unfold State.next at hmem ⊢
  simp only at hmem ⊢
  by_cases ht : t' = t
  . subst ht
    rw [Function.update_self] at hmem
    refine ⟨(hs.2 t' u' ?_ hloc).1, ?_⟩
    . rw [htodo]
      exact List.mem_cons_of_mem u hmem
    . intro rest' v _ hheld
      rw [Function.update_self] at hheld
      contradiction
  . rw [Function.update_of_ne ht] at hmem
    rw [Function.update_of_ne ht, Function.update_of_ne ht]
    exact hs.2 t' u' hmem hloc

omit [DecidableEq T] in
theorem kept_store {t : T} {u : A} {rest : List A} {v : α} (hs : Kept M get loc v₀ s)
    (htodo : s.todo t = u :: rest) (hheld : s.held t = some v)
    : Kept M get loc v₀ (s.store M t u v) := by
  refine ⟨?_, hs.2⟩
  unfold State.store
  simp only
  by_cases hloc : M.loc u = loc
  . obtain ⟨hwrite, hread⟩ := hs.2 t u (by simp [htodo]) hloc
    subst hloc
    rw [Function.update_self, hwrite]
    exact hread rest v htodo hheld
  . rw [Function.update_of_ne (Ne.symm hloc)]
    exact hs.1

theorem kept_step (hs : Kept M get loc v₀ s) (h : step M s l = some s') : Kept M get loc v₀ s' := by
  cases l with
  | read t =>
    obtain ⟨u₁, rest₁, htodo₁, -, rfl⟩ := step_read h
    refine ⟨hs.1, ?_⟩
    intro t' u hmem hloc
    refine ⟨(hs.2 t' u hmem hloc).1, ?_⟩
    intro rest v htodo hheld
    by_cases ht : t' = t
    . subst ht
      rw [htodo₁] at htodo
      cases htodo
      simp only [Function.update_self, Option.some.injEq] at hheld
      rw [← hheld, hloc]
      exact hs.1
    . simp only [Function.update_of_ne ht] at hheld
      exact (hs.2 t' u hmem hloc).2 rest v htodo hheld
  | write t =>
    obtain ⟨u, rest, v, htodo, hheld, rfl⟩ := step_write h
    exact kept_next (kept_store hs htodo hheld) htodo
  | fail t =>
    obtain ⟨u, rest, htodo, rfl⟩ := step_fail h
    exact kept_next hs htodo
  | failLate t =>
    obtain ⟨u, rest, v, htodo, hheld, rfl⟩ := step_failLate h
    exact kept_next (kept_store hs htodo hheld) htodo

-- Stale writes do not change what no update sets
theorem get_of_unset {mem : Loc → α} {program : T → List A} {ls : List (Label T)}
    (hget : ∀ t, ∀ u ∈ program t, M.loc u = loc → ∀ v cur, get (M.write u v cur) = get v)
    (h : Transition.run (step M) (start mem program) ls = some s)
    : get (s.mem loc) = get (mem loc) := by
  have hstart : Kept M get loc (get (mem loc)) (start mem program) := by
    refine ⟨rfl, ?_⟩
    intro t u hmem hloc
    refine ⟨hget t u hmem hloc, ?_⟩
    intro rest v _ hheld
    cases hheld
  exact (Transition.run_keeps (fun _ _ _ hs hstep => kept_step hs hstep) hstart h).1

end Unset

end SharedUpdates
