import SmartnicFw.Lib.RegFields

/-!
This module contains the reading of a metric's registers for the blocks whose driver has no
`read_metric` of its own (`stats.c`).
-/

structure StatsMetricIo where
  offset : Nat
  size : Nat
  width : Nat
  shift : Nat
  invert : Bool
  deriving DecidableEq, Repr

structure StatsIoMetric where
  io : StatsMetricIo
  nelements : Nat
  nelements_pos : 0 < nelements

-- What a compiler makes of `(1 << width) - 1`, which is an `int`. The language says what it is for
-- less than 31 bits only.
structure IntOnes where
  ones : Nat → BitVec 32
  ones_of_lt : ∀ width < 31, ones width = BitVec.ofNat 32 (2 ^ width - 1)

-- The shift instruction of x86 uses the lowest 5 bits of the count
def IntOnes.x86 : IntOnes where
  ones width := (1#32 <<< (width % 32)) - 1#32
  ones_of_lt := by decide

-- The mask that `stats_metric_alloc` computes. The allocation is zeroed.
def statsMetricAlloc.mask (target : IntOnes) (width : Nat) : BitVec 64 :=
  if 0 < width then (target.ones width).signExtend 64 else 0

namespace statsMetricRead

variable (bus : (size : Nat) → Nat → BitVec (8 * size))

-- An invalid size ends the process
def load (size addr : Nat) : Option (BitVec 64) :=
  match size with
  | 1 => some ((bus 1 addr).setWidth 64)
  | 2 => some ((bus 2 addr).setWidth 64)
  | 4 => some ((bus 4 addr).setWidth 64)
  | 8 => some ((bus 8 addr).setWidth 64)
  | _ => none

def extract (io : StatsMetricIo) (mask value : BitVec 64) : BitVec 64 :=
  let value := if io.invert then ~~~value else value
  if 0 < io.width then (value >>> io.shift) &&& mask else value

-- The counter is an `unsigned int` while the number of elements is a `size_t`
def go (io : StatsMetricIo) (mask : BitVec 64) (nelements fuel : Nat) (n : UInt32) (addr : Nat)
    (values : List UInt64)
    : Option (List UInt64) :=
  match fuel with
  | 0 => none
  | fuel + 1 =>
    if n.toNat < nelements then do
      let value ← load bus io.size addr
      let values := values.set n.toNat (.ofBitVec (extract io mask value))
      go io mask nelements fuel (n + 1) (addr + io.size) values
    else
      some values

end statsMetricRead

-- `bus size addr` is what the device gives to a read of `size` bytes. There is no result where the
-- call does not return: the process ends, or the fuel is used up.
def statsMetricRead (target : IntOnes) (bus : (size : Nat) → Nat → BitVec (8 * size)) (base : Nat)
    (metric : StatsIoMetric) (fuel : Nat) (values : List UInt64)
    : Option (List UInt64) :=
  let io := metric.io
  let mask := statsMetricAlloc.mask target io.width
  statsMetricRead.go bus io mask metric.nelements fuel 0 (base + io.offset) values

namespace StatsMetricIo

structure Valid (io : StatsMetricIo) : Prop where
  size_mem : io.size ∈ [1, 2, 4, 8]
  shift_add_width_le : io.shift + io.width ≤ 8 * io.size

-- Without a width the field is the whole register
def field (io : StatsMetricIo) (h : io.Valid) : RegField (8 * io.size) :=
  if io.width = 0 then
    { shift := 0, width := 8 * io.size, shift_add_width_le := by omega }
  else
    { shift := io.shift, width := io.width, shift_add_width_le := h.shift_add_width_le }

-- What the registers hold for element `n`
def element (io : StatsMetricIo) (h : io.Valid) (bus : (size : Nat) → Nat → BitVec (8 * size))
    (base n : Nat)
    : BitVec (8 * io.size) :=
  let reg := bus io.size (base + io.offset + n * io.size)
  (io.field h).get (if io.invert then ~~~reg else reg)

end StatsMetricIo

namespace StatsIoMetric

-- Whatever the registers hold, each element gets the bits of its own register
def ReadsFields (metric : StatsIoMetric) (h : metric.io.Valid) (target : IntOnes) : Prop :=
  ∀ bus base values, values.length = metric.nelements →
    ∃ fuel out, statsMetricRead target bus base metric fuel values = some out ∧
      out.length = metric.nelements ∧
      ∀ n < metric.nelements, out[n]?.map (·.toNat) = some (metric.io.element h bus base n).toNat

end StatsIoMetric

namespace statsMetricRead

variable {bus : (size : Nat) → Nat → BitVec (8 * size)} {io : StatsMetricIo}

theorem load_of_valid (h : io.Valid) (addr : Nat)
    : load bus io.size addr = some ((bus io.size addr).setWidth 64) := by
  have hmem := h.size_mem
  generalize io.size = size at hmem
  simp only [List.mem_cons, List.not_mem_nil, or_false] at hmem
  rcases hmem with rfl | rfl | rfl | rfl <;> rfl

theorem go_eq_none {mask : BitVec 64} {nelements : Nat} (h : 2 ^ 32 ≤ nelements) (fuel : Nat)
    (n : UInt32) (addr : Nat) (values : List UInt64)
    : go bus io mask nelements fuel n addr values = none := by
  induction fuel generalizing n addr values with
  | zero => rfl
  | succ fuel ih =>
    have hn := n.toNat_lt
    rw [go, if_pos (by omega)]
    cases load bus io.size addr with
    | none => rfl
    | some value => apply ih

theorem go_mono {mask : BitVec 64} {nelements fuel : Nat} {n : UInt32} {addr : Nat}
    {values out : List UInt64} (h : go bus io mask nelements fuel n addr values = some out)
    (more : Nat)
    : go bus io mask nelements (fuel + more) n addr values = some out := by
  induction fuel generalizing n addr values with
  | zero => contradiction
  | succ fuel ih =>
    rw [Nat.succ_add, go]
    rw [go] at h
    split at h
    . next hlt =>
      rw [if_pos hlt]
      cases hload : load bus io.size addr with
      | none =>
        rw [hload] at h
        contradiction
      | some value =>
        rw [hload] at h
        apply ih
        exact h
    . next hge =>
      rw [if_neg hge]
      exact h

theorem go_unique {mask : BitVec 64} {nelements fuel fuel' : Nat} {n : UInt32} {addr : Nat}
    {values out out' : List UInt64} (h : go bus io mask nelements fuel n addr values = some out)
    (h' : go bus io mask nelements fuel' n addr values = some out')
    : out = out' := by
  have hmono := go_mono h fuel'
  rw [Nat.add_comm, go_mono h' fuel] at hmono
  exact (Option.some.inj hmono).symm

-- The element that is stored from the register at an address
def stored (bus : (size : Nat) → Nat → BitVec (8 * size)) (io : StatsMetricIo) (mask : BitVec 64)
    (addr : Nat)
    : UInt64 :=
  .ofBitVec (extract io mask ((bus io.size addr).setWidth 64))

-- By induction on the number of elements that are left
theorem exists_go (mask : BitVec 64) {nelements : Nat} (base : Nat) (h : io.Valid)
    (hlt : nelements < 2 ^ 32) (left : Nat) (n : UInt32) (hn : n.toNat + left = nelements)
    (values : List UInt64) (hvalues : values.length = nelements)
    : ∃ out, go bus io mask nelements (left + 1) n (base + n.toNat * io.size) values = some out ∧
        out.length = nelements ∧ (∀ k < n.toNat, out[k]? = values[k]?) ∧
        ∀ k, n.toNat ≤ k → k < nelements →
          out[k]? = some (stored bus io mask (base + k * io.size)) := by
  induction left generalizing n values with
  | zero =>
    refine ⟨values, ?_, hvalues, fun _ _ => rfl, ?_⟩
    . rw [go, if_neg (by omega)]
    . intro k hle hk
      omega
  | succ left ih =>
    have hnext : (n + 1).toNat = n.toNat + 1 := by
      rw [UInt32.toNat_add]
      apply Nat.mod_eq_of_lt
      have hone : (1 : UInt32).toNat = 1 := rfl
      omega
    have haddr : base + n.toNat * io.size + io.size = base + (n + 1).toNat * io.size := by
      rw [hnext]
      ring
    let values' := values.set n.toNat (stored bus io mask (base + n.toNat * io.size))
    have hlen : values'.length = nelements := by
      rw [List.length_set, hvalues]
    obtain ⟨out, hgo, houtlen, hbefore, hafter⟩ := ih (n + 1) (by omega) values' hlen
    refine ⟨out, ?_, houtlen, ?_, ?_⟩
    . rw [go, if_pos (by omega), load_of_valid h, haddr]
      exact hgo
    . intro k hk
      rw [hbefore k (by omega), List.getElem?_set_ne (by omega)]
    . intro k hle hk
      rcases Nat.eq_or_lt_of_le hle with heq | hlt'
      . rw [← heq, hbefore n.toNat (by omega)]
        apply List.getElem?_set_self
        omega
      . apply hafter <;> omega

end statsMetricRead

namespace StatsMetricIo

variable {io : StatsMetricIo}

theorem Valid.size_le (h : io.Valid) : io.size ≤ 8 := by
  have hmem := h.size_mem
  simp only [List.mem_cons, List.not_mem_nil, or_false] at hmem
  omega

theorem getLsbD_extract_of_width (hw : 0 < io.width) (mask v : BitVec 64) {i : Nat}
    (hi : io.shift + i < 64)
    : (statsMetricRead.extract io mask v).getLsbD i =
        (mask.getLsbD i && (io.invert ^^ v.getLsbD (io.shift + i))) := by
  unfold statsMetricRead.extract
  dsimp only
  rw [if_pos hw, BitVec.getLsbD_and, BitVec.getLsbD_ushiftRight, Bool.and_comm]
  congr 1
  cases io.invert <;> simp [hi]

end StatsMetricIo

namespace StatsMetricIo

variable {io : StatsMetricIo} (h : io.Valid)

-- The part of a register that the metric is about
def cut (reg : BitVec (8 * io.size)) : BitVec 64 :=
  ((io.field h).get (if io.invert then ~~~reg else reg)).setWidth 64

theorem toNat_cut (reg : BitVec (8 * io.size))
    : (cut h reg).toNat = ((io.field h).get (if io.invert then ~~~reg else reg)).toNat := by
  have hsize := h.size_le
  apply BitVec.toNat_setWidth_of_le
  omega

theorem getLsbD_cut_of_width (hw : 0 < io.width) (reg : BitVec (8 * io.size)) (i : Nat)
    : (cut h reg).getLsbD i =
        (decide (i < io.width) && (io.invert ^^ reg.getLsbD (io.shift + i))) := by
  have hle := h.shift_add_width_le
  have hsize := h.size_le
  have hfield : (io.field h).width = io.width ∧ (io.field h).shift = io.shift := by
    unfold field
    rw [if_neg (by omega)]
    exact ⟨rfl, rfl⟩
  unfold cut
  rw [BitVec.getLsbD_setWidth, RegField.getLsbD_get, hfield.1, hfield.2]
  by_cases hi : i < io.width
  . have hi64 : i < 64 := by omega
    have hreg : io.shift + i < 8 * io.size := by omega
    cases io.invert <;> simp [hi, hi64, hreg]
  . simp [hi]

theorem cut_of_whole (hw : io.width = 0) (reg : BitVec (8 * io.size))
    : cut h reg = (if io.invert then ~~~reg else reg).setWidth 64 := by
  unfold cut
  congr 1
  apply BitVec.eq_of_getLsbD_eq
  intro i hi
  have hfield : (io.field h).width = 8 * io.size ∧ (io.field h).shift = 0 := by
    unfold field
    rw [if_pos hw]
    exact ⟨rfl, rfl⟩
  rw [RegField.getLsbD_get, hfield.1, hfield.2]
  simp [hi]

def Extracts (mask : BitVec 64) : Prop :=
  ∀ reg : BitVec (8 * io.size), statsMetricRead.extract io mask (reg.setWidth 64) = cut h reg

theorem extracts_of_ones (hw : 0 < io.width)
    : Extracts h (BitVec.ofNat 64 (2 ^ io.width - 1)) := by
  intro reg
  have hle := h.shift_add_width_le
  have hsize := h.size_le
  have hmask : ∀ i, (BitVec.ofNat 64 (2 ^ io.width - 1)).getLsbD i = decide (i < io.width) := by
    intro i
    rw [BitVec.getLsbD_ofNat, Nat.testBit_two_pow_sub_one]
    by_cases hi : i < io.width
    . have hi64 : i < 64 := by omega
      simp [hi, hi64]
    . simp [hi]
  apply BitVec.eq_of_getLsbD_eq
  intro i hi64
  rw [getLsbD_cut_of_width h hw]
  by_cases hi : i < io.width
  . rw [getLsbD_extract_of_width hw _ _ (by omega), hmask]
    have hreg : io.shift + i < 64 := by omega
    simp [hreg]
  . unfold statsMetricRead.extract
    dsimp only
    rw [if_pos hw, BitVec.getLsbD_and, hmask]
    simp [hi]

-- A register of ones, or of zeros under an inversion, shows the highest bit of the mask
theorem Extracts.getLsbD {mask : BitVec 64} (hextracts : Extracts h mask) (hw : 0 < io.width)
    : mask.getLsbD (io.width - 1) = true := by
  have hle := h.shift_add_width_le
  have hsize := h.size_le
  let reg : BitVec (8 * io.size) := if io.invert then 0 else BitVec.allOnes _
  have hbit := congrArg (BitVec.getLsbD · (io.width - 1)) (hextracts reg)
  have hlast : io.width - 1 < io.width := by omega
  have hreg : io.shift + (io.width - 1) < 8 * io.size := by omega
  have hreg64 : io.shift + (io.width - 1) < 64 := by omega
  rw [getLsbD_cut_of_width h hw, getLsbD_extract_of_width hw _ _ hreg64] at hbit
  cases hinvert : io.invert <;> simpa [reg, hinvert, hreg, hreg64, hlast] using hbit

theorem extracts_whole_iff (hw : io.width = 0) (mask : BitVec 64)
    : Extracts h mask ↔ (io.invert → io.size = 8) := by
  have hsize := h.size_le
  unfold Extracts statsMetricRead.extract
  simp only [hw, Nat.lt_irrefl, ↓reduceIte, cut_of_whole h hw]
  constructor
  . intro hextracts hinvert
    by_contra hne
    have hbit := congrArg (BitVec.getLsbD · 63) (hextracts 0)
    have hlt : ¬ 63 < 8 * io.size := by omega
    simp [hinvert, hlt] at hbit
  . intro hinvert reg
    cases hinv : io.invert with
    | false => simp
    | true =>
      have h8 := hinvert hinv
      apply BitVec.eq_of_getLsbD_eq
      intro i hi
      have hi8 : i < 8 * io.size := by omega
      simp [hi, hi8]

end StatsMetricIo

namespace StatsIoMetric

variable (metric : StatsIoMetric) (h : metric.io.Valid) (target : IntOnes)

theorem readsFields_iff
    : metric.ReadsFields h target ↔
        metric.nelements < 2 ^ 32 ∧
          StatsMetricIo.Extracts h (statsMetricAlloc.mask target metric.io.width) := by
  have hpos := metric.nelements_pos
  let values := List.replicate metric.nelements (0 : UInt64)
  have hvalues : values.length = metric.nelements := List.length_replicate
  constructor
  . intro hreads
    have hlt : metric.nelements < 2 ^ 32 := by
      by_contra hge
      obtain ⟨fuel, out, hrun, _⟩ := hreads (fun _ _ => 0) 0 values hvalues
      unfold statsMetricRead at hrun
      dsimp only at hrun
      rw [statsMetricRead.go_eq_none (by omega)] at hrun
      contradiction
    constructor
    . exact hlt
    . intro reg
      obtain ⟨bus, hbus⟩ : ∃ bus : (size : Nat) → Nat → BitVec (8 * size),
          ∀ addr, bus metric.io.size addr = reg := by
        exists fun size _ => if hsize : size = metric.io.size then hsize ▸ reg else 0
        intro addr
        simp
      obtain ⟨fuel, out, hrun, _, hout⟩ := hreads bus 0 values hvalues
      let mask := statsMetricAlloc.mask target metric.io.width
      obtain ⟨out', hgo, _, _, hstored⟩ := statsMetricRead.exists_go mask (0 + metric.io.offset)
        h hlt metric.nelements 0 (Nat.zero_add _) values hvalues
      rw [UInt32.toNat_zero, Nat.zero_mul, Nat.add_zero] at hgo
      have hsame : out = out' := statsMetricRead.go_unique hrun hgo
      have hfirst := hout 0 hpos
      rw [hsame, hstored 0 (Nat.zero_le _) hpos, statsMetricRead.stored, hbus] at hfirst
      simp only [Option.map_some, UInt64.toNat_ofBitVec, Option.some.injEq,
        StatsMetricIo.element, hbus] at hfirst
      rw [← StatsMetricIo.toNat_cut] at hfirst
      exact BitVec.eq_of_toNat_eq hfirst
  . intro ⟨hlt, hextracts⟩ bus base values hvalues
    let mask := statsMetricAlloc.mask target metric.io.width
    obtain ⟨out, hgo, hlen, _, hstored⟩ := statsMetricRead.exists_go mask (base + metric.io.offset)
      h hlt metric.nelements 0 (Nat.zero_add _) values hvalues
    refine ⟨metric.nelements + 1, out, ?_, hlen, ?_⟩
    . simpa [statsMetricRead] using hgo
    . intro n hn
      rw [hstored n (Nat.zero_le _) hn, statsMetricRead.stored, hextracts]
      simp only [Option.map_some, UInt64.toNat_ofBitVec, StatsMetricIo.toNat_cut]
      rfl

-- The condition on the field, with what the mask is good for
def SafeField (io : StatsMetricIo) (maxWidth : Nat) : Prop :=
  if io.width = 0 then io.invert → io.size = 8 else io.width ≤ maxWidth

theorem readsFields_of_safeField (hlt : metric.nelements < 2 ^ 32) {maxWidth : Nat}
    (hones : ∀ width ≤ maxWidth, (target.ones width).signExtend 64 =
      BitVec.ofNat 64 (2 ^ width - 1))
    (hsafe : SafeField metric.io maxWidth)
    : metric.ReadsFields h target := by
  rw [readsFields_iff]
  constructor
  . exact hlt
  . unfold SafeField at hsafe
    split at hsafe
    . next hw =>
      rw [StatsMetricIo.extracts_whole_iff h hw]
      exact hsafe
    . next hw =>
      have hpos : 0 < metric.io.width := by omega
      rw [statsMetricAlloc.mask, if_pos hpos, hones _ hsafe]
      exact StatsMetricIo.extracts_of_ones h hpos

-- A mask without the highest bit of the field is of no use
theorem safeField_of_readsFields {maxWidth : Nat}
    (hones : ∀ width ≤ 64, maxWidth < width →
      ((target.ones width).signExtend 64).getLsbD (width - 1) = false)
    (hreads : metric.ReadsFields h target)
    : SafeField metric.io maxWidth := by
  have hextracts := ((readsFields_iff metric h target).mp hreads).2
  have hle := h.shift_add_width_le
  have hsize := h.size_le
  unfold SafeField
  split
  . next hw => exact (StatsMetricIo.extracts_whole_iff h hw _).mp hextracts
  . next hw =>
    have hpos : 0 < metric.io.width := by omega
    by_contra hgt
    have hbit := hextracts.getLsbD h hpos
    rw [statsMetricAlloc.mask, if_pos hpos, hones _ (by omega) (by omega)] at hbit
    contradiction

end StatsIoMetric

namespace IntOnes

theorem signExtend_ones (target : IntOnes)
    : ∀ width ≤ 30, (target.ones width).signExtend 64 = BitVec.ofNat 64 (2 ^ width - 1) := by
  intro width hw
  rw [target.ones_of_lt width (by omega)]
  have hcases : ∀ width ≤ 30, (BitVec.ofNat 32 (2 ^ width - 1)).signExtend 64 =
      BitVec.ofNat 64 (2 ^ width - 1) := by decide
  exact hcases width hw

-- A compiler that makes 0 of what the language leaves open
def zero : IntOnes where
  ones width := if width < 31 then BitVec.ofNat 32 (2 ^ width - 1) else 0
  ones_of_lt := by
    intro width hw
    rw [if_pos hw]

theorem signExtend_x86
    : ∀ width ≤ 31, (x86.ones width).signExtend 64 = BitVec.ofNat 64 (2 ^ width - 1) := by
  decide

theorem getLsbD_x86
    : ∀ width ≤ 64, 31 < width → ((x86.ones width).signExtend 64).getLsbD (width - 1) = false := by
  decide

end IntOnes

namespace StatsIoMetric

variable (metric : StatsIoMetric) (h : metric.io.Valid)

theorem readsFields_every_target_iff
    : (∀ target, metric.ReadsFields h target) ↔
        metric.nelements < 2 ^ 32 ∧ SafeField metric.io 30 := by
  constructor
  . intro hreads
    have hlt := ((readsFields_iff metric h .zero).mp (hreads .zero)).1
    constructor
    . exact hlt
    . apply safeField_of_readsFields metric h .zero _ (hreads .zero)
      intro width _ hw
      have hge : ¬ width < 31 := by omega
      simp [IntOnes.zero, hge]
  . intro ⟨hlt, hsafe⟩ target
    exact readsFields_of_safeField metric h target hlt target.signExtend_ones hsafe

-- With the shift of x86 one bit more is read right
theorem readsFields_x86_iff
    : metric.ReadsFields h .x86 ↔ metric.nelements < 2 ^ 32 ∧ SafeField metric.io 31 := by
  constructor
  . intro hreads
    have hlt := ((readsFields_iff metric h .x86).mp hreads).1
    exact ⟨hlt, safeField_of_readsFields metric h .x86 IntOnes.getLsbD_x86 hreads⟩
  . intro ⟨hlt, hsafe⟩
    exact readsFields_of_safeField metric h .x86 hlt IntOnes.signExtend_x86 hsafe

-- The lower half of a register of 64 bits
def lowerHalf : StatsIoMetric where
  io := { offset := 0, size := 8, width := 32, shift := 0, invert := false }
  nelements := 1
  nelements_pos := Nat.one_pos

theorem valid_lowerHalf : lowerHalf.io.Valid := ⟨by decide, by decide⟩

theorem readsFields_every_target_iff_lowerHalf
    : (∀ target, lowerHalf.ReadsFields valid_lowerHalf target) ↔
        lowerHalf.nelements < 2 ^ 32 ∧ SafeField lowerHalf.io 30 :=
  readsFields_every_target_iff lowerHalf valid_lowerHalf

-- The mask is 0 there, and so is every value
theorem not_readsFields_lowerHalf : ¬ lowerHalf.ReadsFields valid_lowerHalf .x86 := by
  intro hreads
  have hextracts := ((readsFields_iff _ _ _).mp hreads).2
  have hbit := hextracts.getLsbD valid_lowerHalf (by decide)
  revert hbit
  decide

end StatsIoMetric
