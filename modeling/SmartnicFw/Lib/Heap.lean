import Mathlib.Data.List.Count
import Mathlib.Data.List.Perm.Basic

/-!
This module contains a heap whose blocks are known by handles, and which of the blocks that a piece
of code allocates it has released when it returns.
-/

universe u

-- A handle is the position of its block, and is never given out again
structure Heap (α : Type u) where
  blocks : List α
  released : List Nat
  deriving Repr

namespace Heap

variable {α : Type u}

def empty : Heap α := { blocks := [], released := [] }

def alloc (heap : Heap α) (a : α) : Nat × Heap α :=
  (heap.blocks.length, { heap with blocks := heap.blocks ++ [a] })

def free (heap : Heap α) (p : Nat) : Heap α :=
  { heap with released := heap.released ++ [p] }

def write (heap : Heap α) (p : Nat) (a : α) : Heap α :=
  { heap with blocks := heap.blocks.set p a }

def read (heap : Heap α) (p : Nat) : Option α := heap.blocks[p]?

variable {heap : Heap α} {p q : Nat} {a b : α}

@[simp]
theorem alloc_fst : (heap.alloc a).1 = heap.blocks.length := by
  rfl

@[simp]
theorem alloc_blocks : (heap.alloc a).2.blocks = heap.blocks ++ [a] := by
  rfl

@[simp]
theorem alloc_released : (heap.alloc a).2.released = heap.released := by
  rfl

@[simp]
theorem free_blocks : (heap.free p).blocks = heap.blocks := by
  rfl

@[simp]
theorem free_released : (heap.free p).released = heap.released ++ [p] := by
  rfl

@[simp]
theorem length_write_blocks : (heap.write p a).blocks.length = heap.blocks.length := by
  simp [write]

@[simp]
theorem write_released : (heap.write p a).released = heap.released := by
  rfl

theorem read_write_self (h : p < heap.blocks.length) : (heap.write p a).read p = some a := by
  simp [read, write, h]

theorem read_write_ne (h : p ≠ q) : (heap.write p a).read q = heap.read q := by
  simp [read, write, h]

theorem read_alloc_self : (heap.alloc a).2.read heap.blocks.length = some a := by
  simp [read]

theorem read_alloc_of_lt (h : p < heap.blocks.length) : (heap.alloc a).2.read p = heap.read p := by
  unfold read
  rw [alloc_blocks, List.getElem?_append_left h]

@[simp]
theorem read_free : (heap.free p).read q = heap.read q := by
  rfl

/--
Between the first heap and the second one, every block that was allocated has been released exactly
once, apart from the `live` ones, and no other block has been released.
-/
structure Leaves (heap heap' : Heap α) (live : List Nat) : Prop where
  grows : heap.blocks.length ≤ heap'.blocks.length
  nodup : live.Nodup
  allocated : ∀ p ∈ live, heap.blocks.length ≤ p ∧ p < heap'.blocks.length
  once : ∀ p, heap'.released.count p = heap.released.count p +
    if heap.blocks.length ≤ p ∧ p < heap'.blocks.length ∧ p ∉ live then 1 else 0

namespace Leaves

variable {heap' heap'' : Heap α} {live : List Nat}

theorem refl (heap : Heap α) : heap.Leaves heap [] where
  grows := Nat.le_refl _
  nodup := List.nodup_nil
  allocated := by simp
  once := by
    intro p
    rw [if_neg (by omega), Nat.add_zero]

theorem alloc (h : heap.Leaves heap' live) (a : α)
    : heap.Leaves (heap'.alloc a).2 (heap'.blocks.length :: live) where
  grows := by
    have := h.grows
    simp
    omega
  nodup := by
    rw [List.nodup_cons]
    refine ⟨?_, h.nodup⟩
    intro hmem
    have := (h.allocated _ hmem).2
    omega
  allocated := by
    intro p hp
    have hgrows := h.grows
    rw [alloc_blocks, List.length_append, List.length_singleton]
    rcases List.mem_cons.mp hp with rfl | hp
    . omega
    . have := h.allocated p hp
      omega
  once := by
    intro p
    have hgrows := h.grows
    rw [alloc_released, h.once p, alloc_blocks, List.length_append, List.length_singleton]
    congr 1
    by_cases hlive : p ∈ live
    . simp [hlive]
    . by_cases hlast : p = heap'.blocks.length
      . subst hlast
        simp
      . simp only [List.mem_cons, hlast, hlive]
        congr 1
        simp only [or_self, not_false_eq_true, and_true, eq_iff_iff]
        omega

theorem free (h : heap.Leaves heap' (p :: live)) : heap.Leaves (heap'.free p) live where
  grows := h.grows
  nodup := (List.nodup_cons.mp h.nodup).2
  allocated := by
    intro q hq
    exact h.allocated q (List.mem_cons_of_mem _ hq)
  once := by
    intro q
    have hnot := (List.nodup_cons.mp h.nodup).1
    have hp := h.allocated p List.mem_cons_self
    rw [free_released, free_blocks, List.count_append, h.once q, Nat.add_assoc]
    congr 1
    by_cases hq : q = p
    . subst hq
      simp [hnot, hp]
    . have hne : ¬ p = q := fun h => hq h.symm
      simp [hq, hne]

theorem write (h : heap.Leaves heap' live) (p : Nat) (a : α)
    : heap.Leaves (heap'.write p a) live where
  grows := by simpa using h.grows
  nodup := h.nodup
  allocated := by simpa using h.allocated
  once := by simpa using h.once

theorem perm {live' : List Nat} (h : heap.Leaves heap' live) (hperm : live.Perm live')
    : heap.Leaves heap' live' where
  grows := h.grows
  nodup := hperm.nodup_iff.mp h.nodup
  allocated := by
    intro p hp
    exact h.allocated p (hperm.mem_iff.mpr hp)
  once := by
    intro p
    rw [h.once p]
    simp only [hperm.mem_iff]

theorem append {live' : List Nat} (h : heap.Leaves heap' live) (h' : heap'.Leaves heap'' live')
    : heap.Leaves heap'' (live ++ live') where
  grows := Nat.le_trans h.grows h'.grows
  nodup := by
    apply List.nodup_append.mpr
    refine ⟨h.nodup, h'.nodup, ?_⟩
    intro p hp q hq
    have := (h.allocated p hp).2
    have := (h'.allocated q hq).1
    omega
  allocated := by
    intro p hp
    have hgrows := h.grows
    have hgrows' := h'.grows
    rcases List.mem_append.mp hp with hp | hp
    . have := h.allocated p hp
      omega
    . have := h'.allocated p hp
      omega
  once := by
    intro p
    have hgrows := h.grows
    have hgrows' := h'.grows
    rw [h'.once p, h.once p, Nat.add_assoc]
    congr 1
    simp only [List.mem_append]
    by_cases hlive : p ∈ live
    . have := (h.allocated p hlive).2
      simp [hlive]
      omega
    . by_cases hlive' : p ∈ live'
      . have := (h'.allocated p hlive').1
        simp [hlive, hlive']
        omega
      . simp only [hlive, hlive', not_false_eq_true, and_true, or_self]
        split <;> split <;> split <;> omega

theorem le_count (h : heap.Leaves heap' live) (p : Nat)
    : heap.released.count p ≤ heap'.released.count p := by
  rw [h.once p]
  omega

-- A block that is released twice is none that anybody may have left behind
theorem count_le (h : heap.Leaves heap' live) (p : Nat)
    : heap'.released.count p ≤ heap.released.count p + 1 := by
  rw [h.once p]
  split <;> omega

end Leaves

-- Nothing that has been released is forgotten, and some block is released twice
structure FreesTwice (heap heap' : Heap α) : Prop where
  le : ∀ p, heap.released.count p ≤ heap'.released.count p
  twice : ∃ p, heap.released.count p + 2 ≤ heap'.released.count p

namespace FreesTwice

variable {heap' heap'' : Heap α} {live : List Nat}

theorem not_leaves (h : heap.FreesTwice heap') : ¬ heap.Leaves heap' live := by
  intro hleaves
  obtain ⟨p, hp⟩ := h.twice
  have hle := hleaves.count_le p
  omega

theorem trans_le (h : heap.FreesTwice heap')
    (hle : ∀ p, heap'.released.count p ≤ heap''.released.count p)
    : heap.FreesTwice heap'' where
  le := by
    intro p
    exact Nat.le_trans (h.le p) (hle p)
  twice := by
    obtain ⟨p, hp⟩ := h.twice
    exact ⟨p, Nat.le_trans hp (hle p)⟩

theorem of_le_trans (hle : ∀ p, heap.released.count p ≤ heap'.released.count p)
    (h : heap'.FreesTwice heap'')
    : heap.FreesTwice heap'' where
  le := by
    intro p
    exact Nat.le_trans (hle p) (h.le p)
  twice := by
    obtain ⟨p, hp⟩ := h.twice
    exact ⟨p, Nat.le_trans (Nat.add_le_add_right (hle p) 2) hp⟩

end FreesTwice

/--
Between the two heaps every block that was allocated has been released exactly once if `fine` holds,
and else some block twice.
-/
structure ReleasesIff (heap heap' : Heap α) (fine : Prop) : Prop where
  leaves : fine → heap.Leaves heap' []
  twice : ¬ fine → heap.FreesTwice heap'

namespace ReleasesIff

variable {heap' heap'' : Heap α} {fine fine' : Prop}

theorem leaves_iff (h : heap.ReleasesIff heap' fine) : heap.Leaves heap' [] ↔ fine := by
  constructor
  . intro hleaves
    by_contra hnot
    exact (h.twice hnot).not_leaves hleaves
  . exact h.leaves

theorem congr (h : heap.ReleasesIff heap' fine) (hiff : fine ↔ fine')
    : heap.ReleasesIff heap' fine' where
  leaves := by
    intro hfine
    exact h.leaves (hiff.mpr hfine)
  twice := by
    intro hnot
    exact h.twice fun hfine => hnot (hiff.mp hfine)

theorem of_leaves (h : heap.Leaves heap' []) (hfine : fine) : heap.ReleasesIff heap' fine where
  leaves := fun _ => h
  twice := fun hnot => absurd hfine hnot

theorem le (h : heap.ReleasesIff heap' fine) (p : Nat)
    : heap.released.count p ≤ heap'.released.count p := by
  by_cases hfine : fine
  . exact (h.leaves hfine).le_count p
  . exact (h.twice hfine).le p

-- One part after the other: a block that either of them releases twice stays so
theorem append (h : heap.ReleasesIff heap' fine) (h' : heap'.ReleasesIff heap'' fine')
    : heap.ReleasesIff heap'' (fine ∧ fine') where
  leaves := by
    intro hfine
    exact (h.leaves hfine.1).append (h'.leaves hfine.2)
  twice := by
    intro hnot
    by_cases hfine : fine
    . exact .of_le_trans h.le (h'.twice fun hfine' => hnot ⟨hfine, hfine'⟩)
    . exact (h.twice hfine).trans_le h'.le

end ReleasesIff

end Heap
