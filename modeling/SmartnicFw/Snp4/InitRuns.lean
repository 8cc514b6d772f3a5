import SmartnicFw.Snp4.Init

/-!
This module contains what is allocated and initialised while the drivers of pipelines are set up and
torn down in any order.
-/

namespace Snp4Init

inductive Op where
  | init (sdnetIdx : UInt32) (snp4BaseAddr : UInt64)
  | deinit (snp4Handle : Nat)
  deriving DecidableEq, Repr

-- The handles that have been given out and not been passed to `snp4_deinit`, and those that it has
-- failed for
structure Session (σ : Type) where
  sys : Sys σ
  handles : List Nat
  failed : List Nat

section

variable {σ : Type}

namespace Session

def start (world : σ) : Session σ := { sys := .start world, handles := [], failed := [] }

-- A handle is passed to `snp4_deinit` once
def step (platform : Platform σ) (t : Session σ) (op : Op) : Option (Session σ) :=
  match op with
  | .init sdnetIdx snp4BaseAddr =>
    match snp4Init platform sdnetIdx snp4BaseAddr t.sys with
    | (none, sys) => some { t with sys }
    | (some snp4Handle, sys) => some { t with sys, handles := t.handles ++ [snp4Handle] }
  | .deinit snp4Handle =>
    if snp4Handle ∈ t.handles then
      match snp4Deinit snp4Handle t.sys with
      | none => none
      | some (true, sys) => some { t with sys, handles := t.handles.erase snp4Handle }
      | some (false, sys) => some
        { sys
          handles := t.handles.erase snp4Handle
          failed := t.failed ++ [snp4Handle] }
    else
      some t

def run (platform : Platform σ) (t : Session σ) (ops : List Op) : Option (Session σ) :=
  match ops with
  | [] => some t
  | op :: ops => (step platform t op).bind fun t => run platform t ops

-- What the handles stand for, and the user contexts of the targets that did not exit
def live (t : Session σ) : Set Resource :=
  {r | (∃ p ∈ t.handles, r ∈ t.sys.owns p) ∨ ∃ p ∈ t.failed, r = .block p}

structure Inv (platform : Platform σ) (t : Session σ) : Prop where
  holds : t.sys.Holds t.live
  nodup : t.handles.Nodup
  ready : ∀ p ∈ t.handles, t.sys.Ready platform p
  apart : ∀ p ∈ t.handles, ∀ p' ∈ t.handles, ∀ r ∈ t.sys.owns p, r ∈ t.sys.owns p' → p = p'
  failed : ∀ p ∈ t.failed, ∀ p' ∈ t.handles, .block p ∉ t.sys.owns p'
  exitFails : ∀ p ∈ t.failed, t.sys.ExitFails platform p

end Session

namespace Sys

variable {platform : Platform σ} {s s' : Sys σ} {p : Nat}

theorem Ready.block_mem (h : s.Ready platform p) : .block p ∈ s.owns p := by
  obtain ⟨user, intf, hget, hread, hintf, hnone, hne⟩ := h
  exact (mem_owns hread _).mpr (.inl rfl)

theorem Ready.owns_closed (h : s.Ready platform p) {r q : Resource} (hr : r ∈ s.owns p)
    (hq : r.within = some q)
    : q ∈ s.owns p := by
  obtain ⟨user, intf, hget, hread, hintf, hnone, hne⟩ := h
  rw [mem_owns hread] at hr ⊢
  rcases hr with rfl | rfl | ⟨blocks, hblocks, rfl | ⟨intf, hintf, n, hn, rfl⟩⟩
  . cases hq
  . cases hq
    exact .inl rfl
  . cases hq
  . cases hq
    exact .inr (.inr ⟨blocks, hblocks, .inl rfl⟩)

theorem owns_congr (h : s'.heap.read p = s.heap.read p) : s'.owns p = s.owns p := by
  unfold owns
  rw [h]

theorem Ready.congr (hready : s.Ready platform p) (h : s'.heap.read p = s.heap.read p)
    : s'.Ready platform p := by
  obtain ⟨user, intf, hget, hread, hintf, hnone, hne⟩ := hready
  exact ⟨user, intf, hget, h.trans hread, hintf, hnone, hne⟩

theorem ExitFails.congr (hfails : s.ExitFails platform p) (h : s'.heap.read p = s.heap.read p)
    : s'.ExitFails platform p := by
  obtain ⟨user, intf, world, hread, hrest⟩ := hfails
  exact ⟨user, intf, world, h.trans hread, hrest⟩

end Sys

namespace Session

variable {platform : Platform σ} {t : Session σ} {p : Nat}

theorem Inv.start (world : σ) : (start world).Inv platform where
  holds := by
    apply (Sys.Holds.start world).congr
    simp [live, Session.start]
  nodup := List.nodup_nil
  ready := nofun
  apart := nofun
  failed := nofun
  exitFails := nofun

theorem owns_subset_live (hp : p ∈ t.handles) : t.sys.owns p ⊆ t.live :=
  fun _ hr => .inl ⟨p, hp, hr⟩

theorem Inv.lt (h : t.Inv platform) (hp : p ∈ t.handles) : p < t.sys.heap.blocks.length :=
  h.holds.allocated p (owns_subset_live hp (h.ready p hp).block_mem)

theorem Inv.lt_of_failed (h : t.Inv platform) (hp : p ∈ t.failed) : p < t.sys.heap.blocks.length :=
  h.holds.allocated p (.inr ⟨p, hp, rfl⟩)

theorem Inv.ne_of_failed (h : t.Inv platform) (hp : p ∈ t.failed) {p' : Nat} (hp' : p' ∈ t.handles)
    : p ≠ p' := by
  rintro rfl
  exact h.failed p hp p hp' (h.ready p hp').block_mem

-- Nothing that lies inside what a handle stands for belongs to anybody else
theorem Inv.sealed (h : t.Inv platform) (hp : p ∈ t.handles) {q r : Resource} (hq : q ∈ t.live)
    (hr : r ∈ t.sys.owns p) (hin : q.within = some r)
    : q ∈ t.sys.owns p := by
  rcases hq with ⟨p', hp', hq⟩ | ⟨p', hp', rfl⟩
  . rw [h.apart p hp p' hp' r hr ((h.ready p' hp').owns_closed hq hin)]
    exact hq
  . cases hin

section Kept

variable {s' : Sys σ} {handles : List Nat}

-- What becomes of the handles whose user contexts have not changed
theorem Inv.owns_kept (hkeeps : ∀ p ∈ handles, s'.heap.read p = t.sys.heap.read p) {p : Nat}
    (hp : p ∈ handles)
    : s'.owns p = t.sys.owns p :=
  Sys.owns_congr (hkeeps p hp)

theorem Inv.ready_kept (h : t.Inv platform) (hsub : handles ⊆ t.handles)
    (hkeeps : ∀ p ∈ handles, s'.heap.read p = t.sys.heap.read p)
    : ∀ p ∈ handles, s'.Ready platform p :=
  fun p hp => (h.ready p (hsub hp)).congr (hkeeps p hp)

theorem Inv.apart_kept (h : t.Inv platform) (hsub : handles ⊆ t.handles)
    (hkeeps : ∀ p ∈ handles, s'.heap.read p = t.sys.heap.read p)
    : ∀ p ∈ handles, ∀ p' ∈ handles, ∀ r ∈ s'.owns p, r ∈ s'.owns p' → p = p' := by
  intro p hp p' hp' r hr hr'
  rw [owns_kept hkeeps hp] at hr
  rw [owns_kept hkeeps hp'] at hr'
  exact h.apart p (hsub hp) p' (hsub hp') r hr hr'

end Kept

theorem Inv.init (h : t.Inv platform) (sdnetIdx : UInt32) (snp4BaseAddr : UInt64)
    : ∃ t', step platform t (.init sdnetIdx snp4BaseAddr) = some t' ∧ t'.Inv platform := by
  unfold step
  rcases snp4Init_cases platform sdnetIdx snp4BaseAddr h.holds with
    ⟨s', heq, hkeeps, hs'⟩ | ⟨s', heq, hkeeps, hready, hs', hfresh⟩
  . have hread : ∀ p ∈ t.handles, s'.heap.read p = t.sys.heap.read p :=
      fun p hp => hkeeps.2 p (h.lt hp)
    simp only [heq]
    have hfails : ∀ p ∈ t.failed, s'.ExitFails platform p :=
      fun p hp => (h.exitFails p hp).congr (hkeeps.2 p (h.lt_of_failed hp))
    refine ⟨_, rfl, hs'.congr ?_, h.nodup, h.ready_kept (List.Subset.refl _) hread,
      h.apart_kept (List.Subset.refl _) hread, ?_, hfails⟩
    . intro r
      unfold live
      simp only [Set.mem_ofPred_eq]
      apply or_congr_left
      apply exists_congr
      intro p
      apply and_congr_right
      intro hp
      rw [owns_kept hread hp]
    . intro p hp p' hp'
      rw [owns_kept hread hp']
      exact h.failed p hp p' hp'
  . have hread : ∀ p ∈ t.handles, s'.heap.read p = t.sys.heap.read p :=
      fun p hp => hkeeps.2 p (h.lt hp)
    have hready' := h.ready_kept (List.Subset.refl _) hread
    have hapart' := h.apart_kept (List.Subset.refl _) hread
    -- What the new handle stands for is not live yet
    have hnew : ∀ p ∈ t.handles, ∀ r ∈ s'.owns t.sys.heap.blocks.length, r ∉ s'.owns p := by
      intro p hp r hr hr'
      rw [owns_kept hread hp] at hr'
      exact hfresh r hr (owns_subset_live hp hr')
    have hfails : ∀ p ∈ t.failed, s'.ExitFails platform p :=
      fun p hp => (h.exitFails p hp).congr (hkeeps.2 p (h.lt_of_failed hp))
    simp only [heq]
    refine ⟨_, rfl, hs'.congr ?_, ?_, ?_, ?_, ?_, hfails⟩
    . intro r
      unfold live
      simp only [Set.mem_ofPred_eq, Set.mem_union, List.mem_append, List.mem_singleton]
      constructor
      . rintro ((⟨p, hp, hr⟩ | hr) | hr)
        . rw [← owns_kept hread hp] at hr
          exact .inl ⟨p, .inl hp, hr⟩
        . exact .inr hr
        . exact .inl ⟨_, .inr rfl, hr⟩
      . rintro (⟨p, hp | rfl, hr⟩ | hr)
        . rw [owns_kept hread hp] at hr
          exact .inl (.inl ⟨p, hp, hr⟩)
        . exact .inr hr
        . exact .inl (.inr hr)
    . apply List.nodup_append.mpr
      refine ⟨h.nodup, List.nodup_singleton _, ?_⟩
      intro p hp p' hp' heq'
      have := h.lt hp
      rw [List.mem_singleton] at hp'
      omega
    . intro p hp
      rcases List.mem_append.mp hp with hp | hp
      . exact hready' p hp
      . rw [List.mem_singleton.mp hp]
        exact hready
    . intro p hp p' hp' r hr hr'
      rcases List.mem_append.mp hp with hp | hp <;> rcases List.mem_append.mp hp' with hp' | hp'
      . exact hapart' p hp p' hp' r hr hr'
      . rw [List.mem_singleton.mp hp'] at hr'
        exact absurd hr (hnew p hp r hr')
      . rw [List.mem_singleton.mp hp] at hr
        exact absurd hr' (hnew p' hp' r hr)
      . rw [List.mem_singleton.mp hp, List.mem_singleton.mp hp']
    . intro p hp p' hp'
      rcases List.mem_append.mp hp' with hp' | hp'
      . rw [owns_kept hread hp']
        exact h.failed p hp p' hp'
      . rw [List.mem_singleton.mp hp']
        intro hr
        exact hfresh _ hr (.inr ⟨p, hp, rfl⟩)

theorem Inv.deinit (h : t.Inv platform) (snp4Handle : Nat)
    : ∃ t', step platform t (.deinit snp4Handle) = some t' ∧ t'.Inv platform ∧
        t'.handles = t.handles.erase snp4Handle := by
  unfold step
  dsimp only
  split
  . rename_i hmem
    obtain ⟨ok, s', heq, hkeeps, hs', hexit⟩ := snp4Deinit_cases h.holds (h.ready _ hmem)
      (owns_subset_live hmem) (fun q hq r hr hin => h.sealed hmem hq hr hin)
    have hsub : t.handles.erase snp4Handle ⊆ t.handles := List.erase_subset
    have hne : ∀ p, p ∈ t.handles.erase snp4Handle ↔ p ≠ snp4Handle ∧ p ∈ t.handles :=
      fun p => h.nodup.mem_erase_iff
    have hread : ∀ p ∈ t.handles.erase snp4Handle, s'.heap.read p = t.sys.heap.read p :=
      fun p hp => hkeeps.2 p ((hne p).mp hp).1
    have hready' := h.ready_kept hsub hread
    have hapart' := h.apart_kept hsub hread
    have hblock := (h.ready _ hmem).block_mem
    have hfails : ∀ p ∈ t.failed, s'.ExitFails platform p :=
      fun p hp => (h.exitFails p hp).congr (hkeeps.2 p (h.ne_of_failed hp hmem))
    have hlive : ∀ r, (r ∈ t.live ∧
        (r ∈ t.sys.owns snp4Handle → ok = false ∧ r = .block snp4Handle)) ↔
        (∃ p ∈ t.handles.erase snp4Handle, r ∈ s'.owns p) ∨
          (∃ p ∈ t.failed, r = .block p) ∨ ok = false ∧ r = .block snp4Handle := by
      intro r
      constructor
      . rintro ⟨⟨p, hp, hr⟩ | hr, hown⟩
        . by_cases hpeq : p = snp4Handle
          . subst hpeq
            exact .inr (.inr (hown hr))
          . have hp' := (hne p).mpr ⟨hpeq, hp⟩
            rw [← owns_kept hread hp'] at hr
            exact .inl ⟨p, hp', hr⟩
        . exact .inr (.inl hr)
      . rintro (⟨p, hp, hr⟩ | ⟨p, hp, rfl⟩ | ⟨hok, rfl⟩)
        . rw [owns_kept hread hp] at hr
          refine ⟨owns_subset_live (hsub hp) hr, ?_⟩
          intro hr'
          exact absurd (h.apart p (hsub hp) _ hmem r hr hr') ((hne p).mp hp).1
        . exact ⟨.inr ⟨p, hp, rfl⟩, fun hr => absurd hr (h.failed p hp _ hmem)⟩
        . exact ⟨owns_subset_live hmem hblock, fun _ => ⟨hok, rfl⟩⟩
    rw [heq]
    cases ok with
    | true =>
      refine ⟨_, rfl, ⟨hs'.congr ?_, h.nodup.erase _, hready', hapart', ?_, hfails⟩, rfl⟩
      . intro r
        simpa [live] using hlive r
      . intro p hp p' hp'
        rw [owns_kept hread hp']
        exact h.failed p hp p' (hsub hp')
    | false =>
      refine ⟨_, rfl, ⟨hs'.congr ?_, h.nodup.erase _, hready', hapart', ?_, ?_⟩, rfl⟩
      . intro r
        simpa [live, or_and_right, exists_or] using hlive r
      . intro p hp p' hp'
        rw [owns_kept hread hp']
        rcases List.mem_append.mp hp with hp | hp
        . exact h.failed p hp p' (hsub hp')
        . rw [List.mem_singleton.mp hp]
          intro hr
          exact ((hne p').mp hp').1 (h.apart p' (hsub hp') _ hmem _ hr hblock)
      . intro p hp
        rcases List.mem_append.mp hp with hp | hp
        . exact hfails p hp
        . rw [List.mem_singleton.mp hp]
          exact hexit rfl
  . rename_i hmem
    exact ⟨t, rfl, h, (List.erase_of_not_mem hmem).symm⟩

theorem Inv.step (h : t.Inv platform) (op : Op)
    : ∃ t', step platform t op = some t' ∧ t'.Inv platform := by
  cases op with
  | init sdnetIdx snp4BaseAddr => exact h.init sdnetIdx snp4BaseAddr
  | deinit snp4Handle =>
    obtain ⟨t', ht', hinv, -⟩ := h.deinit snp4Handle
    exact ⟨t', ht', hinv⟩

theorem Inv.run (h : t.Inv platform) (ops : List Op)
    : ∃ t', run platform t ops = some t' ∧ t'.Inv platform := by
  induction ops generalizing t with
  | nil => exact ⟨t, rfl, h⟩
  | cons op ops ih =>
    obtain ⟨t', ht', h'⟩ := h.step op
    obtain ⟨t'', ht'', h''⟩ := ih h'
    refine ⟨t'', ?_, h''⟩
    unfold Session.run
    rw [ht']
    exact ht''

-- `deinit_pipeline` of `pipeline.cpp` begins with the pipeline that was set up last
theorem Inv.deinitAll (h : t.Inv platform)
    : ∃ t', Session.run platform t (t.handles.reverse.map .deinit) = some t' ∧ t'.Inv platform ∧
        t'.handles = [] := by
  generalize hps : t.handles.reverse = ps
  induction ps generalizing t with
  | nil => exact ⟨t, rfl, h, List.reverse_eq_nil_iff.mp hps⟩
  | cons p ps ih =>
    obtain ⟨t', ht', h', hhandles⟩ := h.deinit p
    have hrest : t'.handles.reverse = ps := by
      have hnodup := List.nodup_reverse.mpr h.nodup
      rw [hps] at hnodup
      rw [hhandles, List.reverse_eq_iff.mp hps, List.reverse_cons, List.erase_append_right,
        List.erase_cons_head, List.append_nil, List.reverse_reverse]
      rw [List.mem_reverse]
      exact (List.nodup_cons.mp hnodup).1
    obtain ⟨t'', ht'', h'', hnil⟩ := ih h' hrest
    refine ⟨t'', ?_, h'', hnil⟩
    rw [List.map_cons]
    unfold Session.run
    rw [ht']
    exact ht''

end Session

/--
In every order of the calls, and whatever fails on the way: nothing is released twice, nor before
what lies inside it, and what has not been released belongs to a handle or to a target that did not
exit.
-/
theorem run_lifetimes (platform : Platform σ) (world : σ) (ops : List Op)
    : ∃ t, Session.run platform (.start world) ops = some t ∧
        Lifetimes.Runs Resource.within t.sys.events t.live ∧
        ∃ t', Session.run platform t (t.handles.reverse.map .deinit) = some t' ∧
          Lifetimes.Runs Resource.within t'.sys.events {r | ∃ p ∈ t'.failed, r = .block p} ∧
          (∀ p ∈ t'.failed, t'.sys.ExitFails platform p) ∧
          ∀ r, (∀ p ∈ t'.failed, r ≠ .block p) →
            t'.sys.events.count (.starts r) = t'.sys.events.count (.ends r) := by
  have hstart : (Session.start world).Inv platform := .start world
  obtain ⟨t, ht, hinv⟩ := hstart.run ops
  obtain ⟨t', ht', hinv', hnil⟩ := hinv.deinitAll
  have hlive : t'.live = {r | ∃ p ∈ t'.failed, r = .block p} := by
    ext r
    simp [Session.live, hnil]
  have hruns := hinv'.holds.runs
  rw [hlive] at hruns
  refine ⟨t, ht, hinv.holds.runs, t', ht', hruns, hinv'.exitFails, ?_⟩
  intro r hr
  apply (hruns.count_starts r).2
  rintro ⟨p, hp, heq⟩
  exact hr p hp heq

end

end Snp4Init
