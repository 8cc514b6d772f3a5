import SmartnicFw.OpenNic.Stats.Accumulate

/-!
This module contains the reading of the 64-bit counters of the host's adapter (`qdma.c`), which goes
on while the hardware counts, and what the statistics make of it.
-/

-- The order in which the operands of `|` are evaluated, which C leaves open
inductive WordOrder where
  | highFirst
  | lowFirst
  deriving DecidableEq, Repr

-- The value of a counter when it is about to be read, and what is counted before the first of the
-- words is read, between the two, and after the second
structure CounterRead where
  order : WordOrder
  start : Nat
  before : Nat
  between : Nat
  after : Nat
  fits : start + before + between + after < 2 ^ 64

namespace CounterRead

def first (r : CounterRead) : Nat := r.start + r.before

def second (r : CounterRead) : Nat := r.first + r.between

def stop (r : CounterRead) : Nat := r.second + r.after

end CounterRead

-- The registers `_lo` and `_hi` of a counter
def counterWord (counter n : Nat) : UInt32 := UInt32.ofNat (counter / 2 ^ (32 * n))

def cmacAdapterStatsReadMetric (r : CounterRead) : UInt64 :=
  match r.order with
  | .highFirst =>
    let high := counterWord r.first 1
    let low := counterWord r.second 0
    (high.toUInt64 <<< 32) ||| low.toUInt64
  | .lowFirst =>
    let low := counterWord r.first 0
    let high := counterWord r.second 1
    (high.toUInt64 <<< 32) ||| low.toUInt64

def cmacAdapterStatsCounter (name : String) : StatsMetricSpec :=
  { name := name.toUTF8.toList, nelements := 0, type := .counter, flags := 0, initValue := 0 }

def cmacAdapterStatsMetrics : List StatsMetricSpec :=
  ["tx_packets", "tx_bytes", "tx_drop_packets", "tx_drop_bytes", "rx_packets", "rx_bytes",
    "rx_drop_packets", "rx_drop_bytes", "rx_err_packets", "rx_err_bytes"].map
    cmacAdapterStatsCounter

def cmacAdapterStatsBlock : StatsBlockSpec :=
  { name := "cmac_adapter".toUTF8.toList, metrics := cmacAdapterStatsMetrics }

-- The reads of an update, one for each metric
abbrev CmacAdapterReads := Nat → CounterRead

-- The updates of the collector, none of which clears
def cmacAdapterUpdates (reads : List CmacAdapterReads) : List StatsBlockUpdate :=
  reads.map fun rs => { filter := none, readings := fun m _ => cmacAdapterStatsReadMetric (rs m) }

namespace CounterRead

def InRange (r : CounterRead) : Prop :=
  r.start ≤ (cmacAdapterStatsReadMetric r).toNat ∧ (cmacAdapterStatsReadMetric r).toNat ≤ r.stop

-- From one word to the other, the low word of the counter does not fall by more than what is counted
-- before the first one, or after the second one when that is the high word. It falls only when it
-- wraps.
def LowWordHolds (r : CounterRead) : Prop :=
  r.first % 2 ^ 32 ≤ r.second % 2 ^ 32 +
    match r.order with
    | .highFirst => r.before
    | .lowFirst => r.after

instance (r : CounterRead) : Decidable r.LowWordHolds := Nat.decLe _ _

theorem toNat_assembled (high low : UInt32)
    : ((high.toUInt64 <<< 32) ||| low.toUInt64).toNat = high.toNat * 2 ^ 32 + low.toNat := by
  have hhigh := high.toNat_lt
  have hlow := low.toNat_lt
  have hshift : (high.toUInt64 <<< 32).toNat = high.toNat <<< 32 := by
    rw [UInt64.toNat_shiftLeft, UInt32.toNat_toUInt64]
    show high.toNat <<< 32 % 2 ^ 64 = _
    rw [Nat.shiftLeft_eq]
    omega
  rw [UInt64.toNat_or, hshift, UInt32.toNat_toUInt64, ← Nat.shiftLeft_add_eq_or_of_lt hlow,
    Nat.shiftLeft_eq]

theorem toNat_counterWord_high {counter : Nat} (h : counter < 2 ^ 64)
    : (counterWord counter 1).toNat = counter / 2 ^ 32 := by
  unfold counterWord
  rw [UInt32.toNat_ofNat', Nat.mul_one]
  omega

theorem toNat_counterWord_low (counter : Nat) : (counterWord counter 0).toNat = counter % 2 ^ 32 := by
  unfold counterWord
  rw [UInt32.toNat_ofNat', Nat.mul_zero, Nat.pow_zero, Nat.div_one]

theorem inRange_iff (r : CounterRead) : r.InRange ↔ r.LowWordHolds := by
  have hfits := r.fits
  unfold InRange LowWordHolds cmacAdapterStatsReadMetric
  cases horder : r.order with
  | highFirst =>
    simp only [toNat_assembled, toNat_counterWord_low]
    rw [toNat_counterWord_high (by unfold first; omega)]
    unfold stop second first
    omega
  | lowFirst =>
    simp only [toNat_assembled, toNat_counterWord_low]
    rw [toNat_counterWord_high (by unfold second first; omega)]
    unfold stop second first
    omega

-- While fewer events are counted than a word holds, the low word holds unless it wraps
theorem lowWordHolds_iff_high_eq {r : CounterRead} (h : r.before + r.between + r.after < 2 ^ 32)
    : r.LowWordHolds ↔ r.first / 2 ^ 32 = r.second / 2 ^ 32 := by
  unfold LowWordHolds
  cases r.order with
  | highFirst =>
    unfold second first
    simp only
    omega
  | lowFirst =>
    unfold second first
    simp only
    omega

end CounterRead

-- The updates come one after the other, and the counters go on in between
def CmacAdapterReads.Follows (reads reads' : CmacAdapterReads) : Prop :=
  ∀ m, (reads m).stop ≤ (reads' m).start

-- What is exported for the counter `m` after the updates
def cmacAdapterExported (blk : StatsBlock) (reads : List CmacAdapterReads) (m : Nat)
    : Option UInt64 :=
  ((blk.run (cmacAdapterUpdates reads)).element m 0).map fun e => e.value.u64

section Run

variable {domain : StatsDomainSpec} {zone : StatsZoneSpec}
  {labels : StatsMetricSpec → Nat → List StatsLabel} {blk : StatsBlock} {m : Nat}

theorem history_updates (blk : StatsBlock) (reads : List CmacAdapterReads) (m n : Nat)
    : blk.history (cmacAdapterUpdates reads) m n =
        reads.map fun rs => (cmacAdapterStatsReadMetric (rs m), false) := by
  induction reads generalizing blk with
  | nil => rfl
  | cons rs reads ih =>
    simp only [cmacAdapterUpdates, List.map_cons, StatsBlock.history, StatsBlock.decide_clearedBy,
      StatsBlock.clears_none]
    exact congrArg _ (ih (blk.update _))

theorem accumulated_counter {mspec : StatsMetricSpec} (htype : mspec.type = .counter)
    (hflags : mspec.flags = 0) (hinit : mspec.initValue = 0) (values : List UInt64)
    : mspec.accumulated (values.map fun value => (value, false)) = values.getLast?.getD 0 := by
  have hread : statsMetricFlagTest mspec.flags .clearOnRead = false := by
    rw [hflags]
    rfl
  have hreset : ∀ values : List UInt64,
      History.lastReset (values.map fun value => (value, false)) = none := by
    intro values
    induction values using List.reverseRecOn with
    | nil => rfl
    | append_singleton values value ih => simp [ih]
  have hlast : History.lastReading (values.map fun value => (value, false)) = values.getLast? := by
    unfold History.lastReading
    rw [List.getLast?_map, Option.map_map]
    exact congrFun Option.map_id _
  unfold StatsMetricSpec.accumulated
  rw [htype]
  simp only [hread, Bool.false_eq_true, if_false, hreset, hlast, hinit, Option.getD_none]
  simp

-- A counter exports the value that was read last
theorem cmacAdapterExported_eq
    (halloc : statsBlockAlloc domain zone cmacAdapterStatsBlock labels = some blk)
    (hm : m < cmacAdapterStatsMetrics.length) (reads : List CmacAdapterReads)
    : cmacAdapterExported blk reads m =
        some ((reads.getLast?.map fun rs => cmacAdapterStatsReadMetric (rs m)).getD 0) := by
  obtain ⟨mspec, hmspec⟩ : ∃ mspec, cmacAdapterStatsMetrics[m]? = some mspec :=
    ⟨_, List.getElem?_eq_getElem hm⟩
  obtain ⟨name, _, hname⟩ := List.mem_map.mp (List.mem_of_getElem? hmspec)
  rw [← hname] at hmspec
  have hone : 0 < (cmacAdapterStatsCounter name).numElements := by
    have hflag : statsMetricFlagTest 0 .array = false := rfl
    simp [StatsMetricSpec.numElements, cmacAdapterStatsCounter, hflag]
  obtain ⟨hspec, e₀, he₀, ht₀⟩ := statsBlockAlloc_element halloc hmspec hone
  obtain ⟨e, he, ht⟩ := StatsBlock.tracks_run hspec he₀ ht₀ (cmacAdapterUpdates reads)
  have hvalue := ht.value_eq
  have hmap : (reads.map fun rs => (cmacAdapterStatsReadMetric (rs m), false)) =
      (reads.map fun rs => cmacAdapterStatsReadMetric (rs m)).map fun value => (value, false) := by
    rw [List.map_map]
    rfl
  rw [List.nil_append, history_updates, hmap, accumulated_counter rfl rfl rfl,
    List.getLast?_map] at hvalue
  unfold cmacAdapterExported
  rw [he, Option.map_some, hvalue]

end Run

-- A read is in range exactly when the low word holds, and an exported value neither falls nor passes
-- the number of events as long as it does
theorem cmacAdapterStatsReadMetric_inRange_iff (domain : StatsDomainSpec) (zone : StatsZoneSpec)
    (labels : StatsMetricSpec → Nat → List StatsLabel) (reads : List CmacAdapterReads)
    : (∀ r : CounterRead, r.InRange ↔ r.LowWordHolds) ∧
        (∀ r : CounterRead, r.before + r.between + r.after < 2 ^ 32 →
          (r.LowWordHolds ↔ r.first / 2 ^ 32 = r.second / 2 ^ 32)) ∧
        ∀ blk, statsBlockAlloc domain zone cmacAdapterStatsBlock labels = some blk →
          reads.IsChain CmacAdapterReads.Follows →
          (∀ rs ∈ reads, ∀ m < cmacAdapterStatsMetrics.length, (rs m).LowWordHolds) →
          ∀ m < cmacAdapterStatsMetrics.length, ∀ earlier rs later,
            reads = earlier ++ rs :: later →
            ∃ old new, cmacAdapterExported blk earlier m = some old ∧
              cmacAdapterExported blk (earlier ++ [rs]) m = some new ∧
              old ≤ new ∧ new.toNat ≤ (rs m).stop := by
  refine ⟨CounterRead.inRange_iff, fun r => CounterRead.lowWordHolds_iff_high_eq, ?_⟩
  intro blk halloc hchain hholds m hm earlier rs later hreads
  have hmem : rs ∈ reads := by simp [hreads]
  obtain ⟨hge, hle⟩ := (CounterRead.inRange_iff (rs m)).mpr (hholds rs hmem m hm)
  refine ⟨_, _, cmacAdapterExported_eq halloc hm earlier, cmacAdapterExported_eq halloc hm _, ?_, ?_⟩
  . rw [List.getLast?_concat, Option.map_some, Option.getD_some, UInt64.le_iff_toNat_le]
    rcases List.eq_nil_or_concat earlier with rfl | ⟨earlier, rs', rfl⟩
    . exact Nat.zero_le _
    . -- The read before ended before this one started
      have hmem' : rs' ∈ reads := by simp [hreads]
      obtain ⟨_, hle'⟩ := (CounterRead.inRange_iff (rs' m)).mpr (hholds rs' hmem' m hm)
      have hfollows : (rs' m).stop ≤ (rs m).start := by
        rw [List.isChain_iff_forall_rel_of_append_cons_cons] at hchain
        exact hchain (by rw [hreads, List.concat_eq_append, List.append_assoc]; rfl) m
      rw [List.concat_eq_append, List.getLast?_concat, Option.map_some, Option.getD_some]
      omega
  . rw [List.getLast?_concat, Option.map_some, Option.getD_some]
    exact hle

-- Reads of all counters, at a moment when nothing is counted and while the low word wraps
def steadyReads (order : WordOrder) : CmacAdapterReads :=
  fun _ => { order := order, start := 2 ^ 32 - 1, before := 0, between := 0, after := 0
             fits := by decide }

def tornReads (order : WordOrder) : CmacAdapterReads :=
  fun _ => { order := order, start := 2 ^ 32 - 1, before := 0, between := 1, after := 0
             fits := by decide }

theorem cmacAdapterStatsBlock_alloc
    : ∃ blk, statsBlockAlloc ⟨[]⟩ ⟨[]⟩ cmacAdapterStatsBlock (fun _ _ => []) = some blk :=
  Option.isSome_iff_exists.mp rfl

-- Reads between whose words the counters go on, by less than what is left of the low word
def countingReads (start : Fin (2 ^ 33)) : CmacAdapterReads :=
  fun _ => { order := .highFirst, start := start, before := 2, between := 3, after := 1
             fits := by omega }

theorem cmacAdapterStatsReadMetric_inRange_counting
    : ∃ blk old new, statsBlockAlloc ⟨[]⟩ ⟨[]⟩ cmacAdapterStatsBlock (fun _ _ => []) = some blk ∧
        cmacAdapterExported blk [countingReads 0] 0 = some old ∧
        cmacAdapterExported blk [countingReads 0, countingReads (2 ^ 32 + 10)] 0 = some new ∧
        old ≤ new ∧ new.toNat ≤ (countingReads (2 ^ 32 + 10) 0).stop ∧
        old = 5 ∧ new = 4294967311 := by
  obtain ⟨blk, halloc⟩ := cmacAdapterStatsBlock_alloc
  have hholds : ∀ rs ∈ [countingReads 0, countingReads (2 ^ 32 + 10)],
      ∀ m < cmacAdapterStatsMetrics.length, (rs m).LowWordHolds := by
    intro rs hmem m _
    rcases List.mem_pair.mp hmem with rfl | rfl
    . show (countingReads 0 0).LowWordHolds
      decide
    . show (countingReads (2 ^ 32 + 10) 0).LowWordHolds
      decide
  have hchain : [countingReads 0, countingReads (2 ^ 32 + 10)].IsChain
      CmacAdapterReads.Follows := by
    rw [List.isChain_pair]
    intro m
    show (countingReads 0 0).stop ≤ (countingReads (2 ^ 32 + 10) 0).start
    decide
  obtain ⟨old, new, hold, hnew, hle, hstop⟩ := (cmacAdapterStatsReadMetric_inRange_iff ⟨[]⟩ ⟨[]⟩
    (fun _ _ => []) [countingReads 0, countingReads (2 ^ 32 + 10)]).2.2 blk halloc hchain hholds 0
    (by decide) [countingReads 0] (countingReads (2 ^ 32 + 10)) [] rfl
  have hold' := hold
  have hnew' := hnew
  rw [cmacAdapterExported_eq halloc (by decide)] at hold' hnew'
  exact ⟨blk, old, new, halloc, hold, hnew, hle, hstop, (Option.some.inj hold').symm.trans (by decide),
    (Option.some.inj hnew').symm.trans (by decide)⟩

-- The low word wraps between the two reads: with the high word first the value falls to 0, and with
-- the low word first it is almost twice the number of events
theorem cmacAdapterStatsReadMetric_not_inRange
    : ¬ (tornReads .highFirst 0).InRange ∧ ¬ (tornReads .lowFirst 0).InRange ∧
        ∃ blk, statsBlockAlloc ⟨[]⟩ ⟨[]⟩ cmacAdapterStatsBlock (fun _ _ => []) = some blk ∧
          cmacAdapterExported blk [steadyReads .highFirst] 0 = some 4294967295 ∧
          cmacAdapterExported blk [steadyReads .highFirst, tornReads .highFirst] 0 = some 0 ∧
          cmacAdapterExported blk [steadyReads .lowFirst, tornReads .lowFirst] 0 =
            some 8589934591 ∧
          (tornReads .lowFirst 0).stop = 4294967296 := by
  obtain ⟨blk, halloc⟩ := cmacAdapterStatsBlock_alloc
  refine ⟨by unfold CounterRead.InRange; decide, by unfold CounterRead.InRange; decide, blk, halloc,
    ?_, ?_, ?_, rfl⟩
  . rw [cmacAdapterExported_eq halloc (by decide)]
    decide
  . rw [cmacAdapterExported_eq halloc (by decide)]
    decide
  . rw [cmacAdapterExported_eq halloc (by decide)]
    decide
