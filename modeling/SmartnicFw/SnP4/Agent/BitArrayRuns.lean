import SmartnicFw.Lib.MapM
import SmartnicFw.SnP4.Agent.BitArrayRefines

/-!
This module contains what any sequence of operations leaves in the arrays of one size: the vectors
of booleans that the same operations give, as long as an `unsigned int` can count the bits.
-/

namespace BitArrayImpl

variable {n : Nat}

-- The bits of an array
section Bits

def bits (b : BitArray n) : Fin n → Bool := fun i => b.isBitSet i

variable (b c : BitArray n) (pos : Nat) (value : Bool)

@[simp]
theorem bits_new (h : 0 < n) : bits (BitArray.new n h) = BoolVector.const false := by
  funext i
  exact BitArray.isBitSet_new i.val h

@[simp]
theorem bits_setBit
    : bits (b.setBit pos) = BoolVector.changeBit (fun _ => true) (bits b) pos := by
  funext i
  by_cases h : i.val = pos
  . rw [← h]
    simp [bits, BoolVector.changeBit]
  . simp [bits, BoolVector.changeBit, h]

@[simp]
theorem bits_clearBit
    : bits (b.clearBit pos) = BoolVector.changeBit (fun _ => false) (bits b) pos := by
  funext i
  by_cases h : i.val = pos <;>
  . simp [bits, BoolVector.changeBit, h]

@[simp]
theorem bits_negateBit : bits (b.negateBit pos) = BoolVector.changeBit not (bits b) pos := by
  funext i
  by_cases h : i.val = pos
  . rw [← h]
    simp [bits, BoolVector.changeBit]
  . simp [bits, BoolVector.changeBit, h]

@[simp]
theorem bits_assignBit
    : bits (b.assignBit pos value) = BoolVector.changeBit (fun _ => value) (bits b) pos := by
  cases value with
  | true => exact bits_setBit b pos
  | false => exact bits_clearBit b pos

@[simp]
theorem bits_assignAll : bits (b.assignAll value) = BoolVector.const value := by
  funext i
  simp [bits, BoolVector.const]

@[simp]
theorem bits_setAll : bits b.setAll = BoolVector.const true := bits_assignAll b true

@[simp]
theorem bits_clearAll : bits b.clearAll = BoolVector.const false := bits_assignAll b false

@[simp]
theorem bits_negateAll : bits b.negateAll = fun i => ! bits b i := by
  funext i
  simp [bits]

@[simp]
theorem bits_andAssign : bits (b.andAssign c) = fun i => bits b i && bits c i := by
  funext i
  simp [bits]

@[simp]
theorem bits_orAssign : bits (b.orAssign c) = fun i => bits b i || bits c i := by
  funext i
  simp [bits]

theorem countP_bits (p : Bool → Bool)
    : (List.finRange n).countP (fun i => p (bits b i)) =
        (List.range n).countP fun pos => p (b.isBitSet pos) := by
  rw [← List.map_coe_finRange_eq_range, List.countP_map]
  rfl

end Bits

def Models (v : BitArrayImpl) (a : Fin n → Bool) : Prop := ∃ b : BitArray n, Packs v b ∧ bits b = a

section Step

variable {fuel : Nat} {nbits : UInt64} {vs : List BitArrayImpl} {as as' : List (Fin n → Bool)}

theorem forall₂_set {α β : Type} {R : α → β → Prop} {xs : List α} {ys : List β}
    (h : List.Forall₂ R xs ys) {x : α} {y : β} (hxy : R x y) (i : Nat)
    : List.Forall₂ R (xs.set i x) (ys.set i y) := by
  induction h generalizing i with
  | nil => exact .nil
  | cons hhead htail ih =>
    cases i with
    | zero => exact .cons hxy htail
    | succ i => exact .cons hhead (ih i)

theorem exists_change (h : List.Forall₂ Models vs as) {dst : Nat}
    {f : BitArrayImpl → Option BitArrayImpl} {op : BitArray n → BitArray n}
    {g : (Fin n → Bool) → Fin n → Bool}
    (hf : ∀ v b, Packs v b → ∃ v', f v = some v' ∧ Packs v' (op b))
    (hop : ∀ b, bits (op b) = g (bits b))
    (hchange : change as dst (fun a => some (g a)) = some as')
    : ∃ vs', change vs dst f = some vs' ∧ List.Forall₂ Models vs' as' := by
  obtain ⟨a, ha, hset⟩ := Option.bind_eq_some_iff.mp hchange
  cases hset
  obtain ⟨v, hv, b, hpacks, rfl⟩ := getElem?_of_forall₂ h ha
  obtain ⟨v', hf, hpacks'⟩ := hf v b hpacks
  refine ⟨vs.set dst v', ?_, forall₂_set h ⟨op b, hpacks', hop b⟩ dst⟩
  unfold change
  rw [hv, Option.bind_eq_bind, Option.bind_some, hf]
  rfl

theorem step_models (hbits : nbits.toNat = n) (hpos : 0 < n) (hn : n < 2 ^ 32) (hfuel : n < fuel)
    (h : List.Forall₂ Models vs as) (c : Command) (hstep : BoolVector.step as c = some as')
    : ∃ vs', step fuel nbits vs c = some vs' ∧ List.Forall₂ Models vs' as' := by
  cases c with
  | new garbage =>
    cases hstep
    obtain ⟨v, hnew, hpacks⟩ := new_eq hbits hpos hn hfuel garbage
    refine ⟨vs ++ [v], ?_, List.rel_append h (.cons ⟨_, hpacks, bits_new hpos⟩ .nil)⟩
    unfold step
    dsimp only
    rw [hnew]
    rfl
  | copy src garbage =>
    obtain ⟨a, ha, hcopy⟩ := Option.bind_eq_some_iff.mp hstep
    cases hcopy
    obtain ⟨v, hv, b, hpacks, hb⟩ := getElem?_of_forall₂ h ha
    obtain ⟨v', hcopy, hpacks'⟩ := hpacks.copy hn hfuel garbage
    refine ⟨vs ++ [v'], ?_, List.rel_append h (.cons ⟨b, hpacks', hb⟩ .nil)⟩
    unfold step
    dsimp only
    rw [hv, Option.bind_eq_bind, Option.bind_some, hcopy]
    rfl
  | setBit dst pos =>
    exact exists_change h (fun _ _ hpacks => hpacks.setBit pos) (fun b => bits_setBit b _) hstep
  | clearBit dst pos =>
    exact exists_change h (fun _ _ hpacks => hpacks.clearBit pos) (fun b => bits_clearBit b _) hstep
  | negateBit dst pos =>
    exact exists_change h (fun _ _ hpacks => hpacks.negateBit pos) (fun b => bits_negateBit b _)
      hstep
  | assignBit dst pos value =>
    exact exists_change h (fun _ _ hpacks => hpacks.assignBit pos value)
      (fun b => bits_assignBit b _ value) hstep
  | setAll dst =>
    exact exists_change h (fun _ _ hpacks => hpacks.setAll hn hfuel) bits_setAll hstep
  | clearAll dst =>
    exact exists_change h (fun _ _ hpacks => hpacks.clearAll hn hfuel) bits_clearAll hstep
  | negateAll dst =>
    exact exists_change h (fun _ _ hpacks => hpacks.negateAll hn hfuel) bits_negateAll hstep
  | assignAll dst value =>
    exact exists_change h (fun _ _ hpacks => hpacks.assignAll hn hfuel value)
      (fun b => bits_assignAll b value) hstep
  | andAssign dst rhs =>
    obtain ⟨a, ha, hstep⟩ := Option.bind_eq_some_iff.mp hstep
    obtain ⟨w, hw, c, hc, rfl⟩ := getElem?_of_forall₂ h ha
    unfold step
    dsimp only
    rw [hw, Option.bind_eq_bind, Option.bind_some]
    exact exists_change h (fun _ _ hpacks => hpacks.assignWords hc hn hfuel rfl)
      (fun b => bits_andAssign b c) hstep
  | orAssign dst rhs =>
    obtain ⟨a, ha, hstep⟩ := Option.bind_eq_some_iff.mp hstep
    obtain ⟨w, hw, c, hc, rfl⟩ := getElem?_of_forall₂ h ha
    unfold step
    dsimp only
    rw [hw, Option.bind_eq_bind, Option.bind_some]
    exact exists_change h (fun _ _ hpacks => hpacks.assignWords hc hn hfuel rfl)
      (fun b => bits_orAssign b c) hstep

-- By induction on the operations that are left
theorem run_models_from (hbits : nbits.toNat = n) (hpos : 0 < n) (hn : n < 2 ^ 32)
    (hfuel : n < fuel) (commands : List Command) (h : List.Forall₂ Models vs as)
    (hrun : commands.foldlM BoolVector.step as = some as')
    : ∃ vs', commands.foldlM (step fuel nbits) vs = some vs' ∧ List.Forall₂ Models vs' as' := by
  induction commands generalizing vs as with
  | nil =>
    cases hrun
    exact ⟨vs, rfl, h⟩
  | cons c commands ih =>
    rw [List.foldlM_cons] at hrun
    obtain ⟨as, hstep, hrun⟩ := Option.bind_eq_some_iff.mp hrun
    obtain ⟨vs, himpl, h⟩ := step_models hbits hpos hn hfuel h c hstep
    rw [List.foldlM_cons, himpl]
    exact ih h hrun

end Step

-- What is seen of an array is what is seen of the vector
structure Represents (fuel : Nat) (v : BitArrayImpl) (a : Fin n → Bool) : Prop where
  size_eq : v.size.toNat = n
  upper_clear : ∃ word, v.words[(v.nwords - 1).toNat]? = some word ∧
    ∀ p, n ≤ 64 * (v.nwords - 1).toNat + p → word.getLsbD p = false
  isBitSet_eq : ∀ pos : UInt32,
    v.isBitSet pos = some (if h : pos.toNat < n then a ⟨pos.toNat, h⟩ else false)
  isBitCleared_eq : ∀ pos : UInt32,
    v.isBitCleared pos = some (if h : pos.toNat < n then ! a ⟨pos.toNat, h⟩ else true)
  isAllSet_eq : v.isAllSet fuel = some (decide (∀ i, a i = true))
  isAllCleared_eq : v.isAllCleared fuel = some (decide (∀ i, a i = false))
  countAllSet_eq : ∃ count, v.countAllSet fuel = some count ∧
    count.toNat = (List.finRange n).countP fun i => a i
  countAllCleared_eq : ∃ count, v.countAllCleared fuel = some count ∧
    count.toNat = (List.finRange n).countP fun i => ! a i

section Represents

variable {fuel : Nat} {v : BitArrayImpl} {a : Fin n → Bool} {b : BitArray n}

theorem all_bits_iff (value : Bool)
    : (∀ i < n, b.isBitSet i = value) ↔ ∀ i : Fin n, bits b i = value := by
  constructor
  . intro h i
    exact h i.val i.isLt
  . intro h i hi
    exact h ⟨i, hi⟩

theorem Packs.upper_clear (h : Packs v b)
    : ∃ word, v.words[(v.nwords - 1).toNat]? = some word ∧
        ∀ p, n ≤ 64 * (v.nwords - 1).toNat + p → word.getLsbD p = false := by
  have hpos := BitArray.nwords_pos n
  rw [h.lastWord, h.words_eq]
  refine ⟨_, getElem?_words (by omega), ?_⟩
  intro p hp
  by_cases hlt : p < 64
  . have hclear := b.upper_clear _ hp
    have hdiv : (64 * (BitArray.nwords n - 1) + p) / 64 = BitArray.nwords n - 1 := by omega
    have hmod : (64 * (BitArray.nwords n - 1) + p) % 64 = p := by omega
    rwa [Words.bit, hdiv, hmod] at hclear
  . exact BitVec.getLsbD_of_ge _ p (by omega)

theorem Packs.countAllCleared_eq (h : Packs v b) (hn : n < 2 ^ 32) (hfuel : n < fuel)
    : ∃ count, v.countAllCleared fuel = some count ∧
        count.toNat = (List.range n).countP fun pos => ! b.isBitSet pos := by
  obtain ⟨count, hset, hcount⟩ := h.countAllSet_eq hn hfuel
  have hlen := List.length_eq_countP_add_countP b.isBitSet (l := List.range n)
  rw [List.length_range, ← hcount] at hlen
  refine ⟨v.nbits - count, ?_, ?_⟩
  . unfold countAllCleared
    rw [hset]
    rfl
  . have hle : count ≤ v.nbits := by
      rw [UInt64.le_iff_toNat_le, h.nbits_eq]
      omega
    have hnot : ((List.range n).countP fun pos => ! b.isBitSet pos) =
        (List.range n).countP fun pos => decide ¬b.isBitSet pos = true := by
      apply List.countP_congr
      intro pos _
      cases b.isBitSet pos <;> decide
    rw [UInt64.toNat_sub_of_le _ _ hle, h.nbits_eq, hnot]
    omega

theorem Models.represents (h : Models v a) (hn : n < 2 ^ 32) (hfuel : n < fuel)
    : Represents fuel v a := by
  obtain ⟨b, h, rfl⟩ := h
  have hbit : ∀ pos : UInt32,
      v.isBitSet pos = some (if h : pos.toNat < n then bits b ⟨pos.toNat, h⟩ else false) := by
    intro pos
    rw [h.isBitSet_eq]
    split
    . rfl
    . rw [b.isBitSet_of_le _ (by omega)]
  refine ⟨h.nbits_eq, h.upper_clear, hbit, ?_, ?_, ?_, ?_, ?_⟩
  . intro pos
    unfold isBitCleared
    rw [hbit, Option.bind_eq_bind, Option.bind_some]
    split <;> rfl
  . rw [h.isAllSet_eq hn hfuel, Option.some.injEq, Bool.eq_iff_iff, decide_eq_true_iff,
      b.isAllSet_iff, all_bits_iff]
  . rw [h.isAllCleared_eq hn hfuel, Option.some.injEq, Bool.eq_iff_iff, decide_eq_true_iff,
      b.isAllCleared_iff, all_bits_iff]
  . obtain ⟨count, hset, hcount⟩ := h.countAllSet_eq hn hfuel
    exact ⟨count, hset, hcount.trans (countP_bits b fun value => value).symm⟩
  . obtain ⟨count, hset, hcount⟩ := h.countAllCleared_eq hn hfuel
    exact ⟨count, hset, hcount.trans (countP_bits b fun value => ! value).symm⟩

end Represents

-- After any sequence of operations, and in finite time
def BehavesAsVector (nbits : UInt64) : Prop :=
  ∀ (commands : List Command) (as : List (Fin nbits.toNat → Bool)),
    BoolVector.run nbits.toNat commands = some as →
    ∃ least, ∀ fuel ≥ least, ∃ vs, run fuel nbits commands = some vs ∧
      List.Forall₂ (Represents fuel) vs as

-- Counting the bits of a fresh array takes forever
theorem not_behavesAsVector {nbits : UInt64} (h : 2 ^ 32 ≤ nbits.toNat)
    : ¬ BehavesAsVector nbits := by
  intro hall
  obtain ⟨least, hall⟩ := hall [.new fun _ => 0] [BoolVector.const false] rfl
  obtain ⟨vs, hrun, hvs⟩ := hall least (Nat.le_refl _)
  obtain ⟨v, _, hv, _, rfl⟩ := List.forall₂_cons_right_iff.mp hvs
  obtain ⟨count, hcount, _⟩ := hv.countAllSet_eq
  have hnbits : v.nbits = nbits := by
    obtain ⟨vs, hstep, hrun⟩ := Option.bind_eq_some_iff.mp hrun
    obtain ⟨v', hnew, hvs⟩ := Option.bind_eq_some_iff.mp hstep
    obtain ⟨words, _, hv'⟩ := Option.bind_eq_some_iff.mp hnew
    cases hrun
    cases hvs
    cases hv'
    rfl
  unfold countAllSet at hcount
  rw [hnbits, CountedLoop.loop_eq_none h] at hcount
  cases hcount

theorem behavesAsVector_iff {nbits : UInt64} (hpos : 0 < nbits)
    : BehavesAsVector nbits ↔ nbits.toNat < 2 ^ 32 := by
  constructor
  . intro h
    by_contra hn
    exact not_behavesAsVector (Nat.le_of_not_lt hn) h
  . intro hn commands as hrun
    refine ⟨nbits.toNat + 1, ?_⟩
    intro fuel hfuel
    have hpos' : 0 < nbits.toNat := UInt64.lt_iff_toNat_lt.mp hpos
    obtain ⟨vs, hrun', hvs⟩ := run_models_from rfl hpos' hn hfuel commands .nil hrun
    exact ⟨vs, hrun', hvs.imp fun _ _ hv => hv.represents hn hfuel⟩

theorem behavesAsVector_hundred : (0 : UInt64) < 100 ∧ BehavesAsVector 100 :=
  ⟨by decide, (behavesAsVector_iff (by decide)).mpr (by decide)⟩

theorem not_behavesAsVector_wrapping : ¬ BehavesAsVector 0x100000000 :=
  not_behavesAsVector (by decide)

end BitArrayImpl
