import SmartnicFw.Lib.History
import SmartnicFw.OpenNic.Stats.UpdateLoops

/-!
This module contains what the elements of a block hold after any run of updates, in terms of what
was read for them and of when they were cleared.
-/

structure StatsBlockUpdate where
  filter : Option StatsClearFilter
  readings : Nat → Nat → UInt64

namespace StatsBlock

def update (blk : StatsBlock) (c : StatsBlockUpdate) : StatsBlock :=
  blk.updateMetrics c.filter c.readings

def run (blk : StatsBlock) (calls : List StatsBlockUpdate) : StatsBlock :=
  calls.foldl update blk

def element (blk : StatsBlock) (m n : Nat) : Option StatsMetricElement := do
  let metric ← blk.metrics[m]?
  metric.elements[n]?

-- Does an update clear this element?
def clears (blk : StatsBlock) (filter : Option StatsClearFilter) (m n : Nat) : Bool :=
  match blk.metrics[m]? with
  | none => false
  | some metric =>
    statsBlockUpdateMetrics.doClear metric.spec filter
      (statsBlockUpdateMetrics.filterSpec blk m metric) n

-- When an element is to be cleared: there is a filter, the metric may be cleared, and the filter is
-- the wildcard or selects the element.
def ClearedBy (blk : StatsBlock) (filter : Option StatsClearFilter) (m n : Nat) : Prop :=
  ∃ metric f, blk.metrics[m]? = some metric ∧ filter = some f ∧
    statsMetricFlagTest metric.spec.flags .neverClear = false ∧
      ∀ matchFn, f.matchFn = some matchFn →
        matchFn {
          domain := blk.domain
          zone := blk.zone
          block := blk.spec
          metricIdx := m
          metric := metric.spec
          values := metric.elements.map (·.value)
          values_ne := metric.values_ne } n = true

theorem clears_iff_clearedBy {blk : StatsBlock} {filter : Option StatsClearFilter} {m n : Nat}
    : blk.clears filter m n = true ↔ blk.ClearedBy filter m n := by
  unfold clears ClearedBy statsBlockUpdateMetrics.doClear
  cases hm : blk.metrics[m]? with
  | none => simp
  | some metric =>
    cases filter with
    | none => simp
    | some f => cases hmatch : f.matchFn <;> simp [statsBlockUpdateMetrics.filterSpec, hmatch]

instance (blk : StatsBlock) (filter : Option StatsClearFilter) (m n : Nat)
    : Decidable (blk.ClearedBy filter m n) :=
  decidable_of_iff _ clears_iff_clearedBy

@[simp]
theorem decide_clearedBy (blk : StatsBlock) (filter : Option StatsClearFilter) (m n : Nat)
    : decide (blk.ClearedBy filter m n) = blk.clears filter m n := by
  rw [Bool.eq_iff_iff, decide_eq_true_iff, clears_iff_clearedBy]

theorem clears_none (blk : StatsBlock) (m n : Nat) : blk.clears none m n = false := by
  rw [Bool.eq_false_iff, Ne, clears_iff_clearedBy]
  rintro ⟨_, _, _, hnone, _⟩
  cases hnone

-- What each update of a run read for an element, and whether it cleared the element
def history (blk : StatsBlock) (calls : List StatsBlockUpdate) (m n : Nat)
    : List (UInt64 × Bool) :=
  match calls with
  | [] => []
  | c :: calls =>
    (c.readings m n, decide (blk.ClearedBy c.filter m n)) :: (blk.update c).history calls m n

end StatsBlock

namespace StatsMetricSpec

-- The value an element is to hold, given its history
def accumulated (mspec : StatsMetricSpec) (h : List (UInt64 × Bool)) : UInt64 :=
  match mspec.type with
  | .counter =>
    if statsMetricFlagTest mspec.flags .clearOnRead then
      mspec.initValue + (History.sinceReset h).sum
    else
      mspec.initValue + ((History.lastReading h).getD mspec.initValue -
        (History.lastReset h).getD mspec.initValue)
  | .flag =>
    match h.getLast? with
    | some (value, false) => if value ≠ 0 then 1 else 0
    | _ => mspec.initValue
  | .gauge =>
    match h.getLast? with
    | some (value, false) => value
    | _ => mspec.initValue

end StatsMetricSpec

-- The invariant of an element: the second word is the raw base of the next difference
structure StatsMetricElement.Tracks (e : StatsMetricElement) (mspec : StatsMetricSpec)
    (h : List (UInt64 × Bool)) : Prop where
  value_eq : e.value.u64 = mspec.accumulated h
  last_eq : mspec.type = .counter → statsMetricFlagTest mspec.flags .clearOnRead = false →
    e.last = (History.lastReading h).getD mspec.initValue

namespace StatsMetricElement

theorem tracks_init (mspec : StatsMetricSpec) (labels : List StatsLabel)
    : Tracks { value := { u64 := mspec.initValue, labels }, last := mspec.initValue } mspec [] := by
  constructor
  . unfold StatsMetricSpec.accumulated
    split
    . split <;> simp
    . rfl
    . rfl
  . intros
    rfl

-- One update keeps the invariant, whatever the type and the flags of the metric are
theorem Tracks.step {e : StatsMetricElement} {mspec : StatsMetricSpec} {h : List (UInt64 × Bool)}
    (ht : e.Tracks mspec h) (value : UInt64) (doClear : Bool)
    : (statsBlockUpdateMetrics.updateElement mspec e value doClear).Tracks mspec
        (h ++ [(value, doClear)]) := by
  have hvalue := ht.value_eq
  have hlast := ht.last_eq
  cases htype : mspec.type with
  | counter =>
    cases hread : statsMetricFlagTest mspec.flags .clearOnRead with
    | true =>
      simp only [StatsMetricSpec.accumulated, htype, hread, ↓reduceIte] at hvalue
      constructor
      . simp only [statsBlockUpdateMetrics.updateElement, StatsMetricSpec.accumulated, htype,
          hread, ↓reduceIte]
        cases doClear with
        | true => simp
        | false =>
          simp only [hvalue, History.sinceReset_concat, Bool.false_eq_true, ↓reduceIte,
            List.sum_append, List.sum_cons, List.sum_nil]
          grind
      . intro _ hfalse
        simp [hread] at hfalse
    | false =>
      simp only [StatsMetricSpec.accumulated, htype, hread, Bool.false_eq_true, ↓reduceIte]
        at hvalue
      have hlast := hlast htype hread
      constructor
      . simp only [statsBlockUpdateMetrics.updateElement, StatsMetricSpec.accumulated, htype,
          hread, Bool.false_eq_true, ↓reduceIte, History.lastReading_concat, Option.getD_some]
        cases doClear with
        | true => simp
        | false =>
          -- The reading before cancels: `(last - base) + (value - last) = value - base`
          simp only [hvalue, hlast, History.lastReset_concat, Bool.false_eq_true, ↓reduceIte]
          grind
      . intro _ _
        simp [statsBlockUpdateMetrics.updateElement, htype, hread]
  | flag =>
    constructor
    . cases doClear <;>
        simp [statsBlockUpdateMetrics.updateElement, StatsMetricSpec.accumulated, htype]
    . intro hcounter
      simp [htype] at hcounter
  | gauge =>
    constructor
    . cases doClear <;>
        simp [statsBlockUpdateMetrics.updateElement, StatsMetricSpec.accumulated, htype]
    . intro hcounter
      simp [htype] at hcounter

end StatsMetricElement

namespace StatsBlock

variable {blk : StatsBlock} {m n : Nat}

-- An update leaves the specification of each metric as it is
@[simp]
theorem metrics_update_spec (blk : StatsBlock) (c : StatsBlockUpdate) (m : Nat)
    : (blk.update c).metrics[m]?.map StatsMetric.spec = blk.metrics[m]?.map StatsMetric.spec := by
  simp only [update, updateMetrics, List.getElem?_mapIdx, Option.map_map]
  rfl

theorem element_eq_some_iff {e : StatsMetricElement}
    : blk.element m n = some e ↔
        ∃ metric, blk.metrics[m]? = some metric ∧ metric.elements[n]? = some e := by
  simp [element, Option.bind_eq_some_iff]

-- What one update does to one element: it depends on no other element, except through the filter
theorem element_update {metric : StatsMetric} {e : StatsMetricElement}
    (hm : blk.metrics[m]? = some metric) (hn : metric.elements[n]? = some e)
    (c : StatsBlockUpdate)
    : (blk.update c).element m n =
        some (statsBlockUpdateMetrics.updateElement metric.spec e (c.readings m n)
          (blk.clears c.filter m n)) := by
  simp [element, update, updateMetrics, statsBlockUpdateMetrics.updateMetric, clears, hm, hn]

theorem run_append (blk : StatsBlock) (calls calls' : List StatsBlockUpdate)
    : blk.run (calls ++ calls') = (blk.run calls).run calls' := by
  exact List.foldl_append

-- The run lemma: the invariant holds of each element after every run from a state where it did
theorem tracks_run {mspec : StatsMetricSpec} {e : StatsMetricElement} {h : List (UInt64 × Bool)}
    (hspec : blk.metrics[m]?.map StatsMetric.spec = some mspec) (he : blk.element m n = some e)
    (ht : e.Tracks mspec h) (calls : List StatsBlockUpdate)
    : ∃ e', (blk.run calls).element m n = some e' ∧
        e'.Tracks mspec (h ++ blk.history calls m n) := by
  induction calls generalizing blk e h with
  | nil => exact ⟨e, he, by simpa [history] using ht⟩
  | cons c calls ih =>
    obtain ⟨metric, hm, hn⟩ := element_eq_some_iff.mp he
    have hmspec : metric.spec = mspec := by simpa [hm] using hspec
    have hstep := ht.step (c.readings m n) (blk.clears c.filter m n)
    have hspec' : (blk.update c).metrics[m]?.map StatsMetric.spec = some mspec := by
      rw [metrics_update_spec, hspec]
    have he' := element_update hm hn c
    rw [hmspec] at he'
    obtain ⟨e', hrun, htracks⟩ := ih hspec' he' hstep
    rw [List.append_assoc, ← decide_clearedBy] at htracks
    exact ⟨e', hrun, htracks⟩

theorem clears_of_neverClear {mspec : StatsMetricSpec} {filter : Option StatsClearFilter}
    (hspec : blk.metrics[m]?.map StatsMetric.spec = some mspec)
    (hnever : statsMetricFlagTest mspec.flags .neverClear = true)
    : blk.clears filter m n = false := by
  obtain ⟨metric, hm, rfl⟩ := Option.map_eq_some_iff.mp hspec
  rw [Bool.eq_false_iff, Ne, clears_iff_clearedBy]
  rintro ⟨metric', _, hm', _, hclear, _⟩
  rw [hm] at hm'
  cases hm'
  rw [hnever] at hclear
  cases hclear

theorem history_of_neverClear {mspec : StatsMetricSpec}
    (hspec : blk.metrics[m]?.map StatsMetric.spec = some mspec)
    (hnever : statsMetricFlagTest mspec.flags .neverClear = true) (calls : List StatsBlockUpdate)
    : ∀ p ∈ blk.history calls m n, p.2 = false := by
  induction calls generalizing blk with
  | nil => simp [history]
  | cons c calls ih =>
    intro p hp
    rcases List.mem_cons.mp hp with rfl | hp
    . rw [decide_clearedBy]
      exact clears_of_neverClear hspec hnever
    . exact ih (by rw [metrics_update_spec, hspec]) p hp

end StatsBlock

theorem getElem?_of_mapM_eq_some {α β : Type} {f : α → Option β} {xs : List α} {ys : List β}
    (h : xs.mapM f = some ys) {i : Nat} {x : α} (hx : xs[i]? = some x)
    : ∃ y, ys[i]? = some y ∧ f x = some y := by
  induction xs generalizing ys i with
  | nil => simp at hx
  | cons x' xs ih =>
    rw [List.mapM_cons] at h
    obtain ⟨y, hy, hrest⟩ := Option.bind_eq_some_iff.mp h
    obtain ⟨ys', hys', heq⟩ := Option.bind_eq_some_iff.mp hrest
    cases heq
    cases i with
    | zero =>
      cases hx
      exact ⟨y, rfl, hy⟩
    | succ i => exact ih hys' hx

theorem length_of_statsMetricAlloc {spec : StatsMetricSpec} {labels : Nat → List StatsLabel}
    {metric : StatsMetric} (h : statsMetricAlloc spec labels = some metric)
    : metric.elements.length = spec.numElements := by
  obtain ⟨_, h⟩ := Option.dite_none_left_eq_some.mp h
  cases h
  rw [List.length_map, List.length_range]

-- Every element of a new block holds the initial value of its metric
theorem statsBlockAlloc_element {domain : StatsDomainSpec} {zone : StatsZoneSpec}
    {spec : StatsBlockSpec} {labels : StatsMetricSpec → Nat → List StatsLabel} {blk : StatsBlock}
    (halloc : statsBlockAlloc domain zone spec labels = some blk) {m n : Nat}
    {mspec : StatsMetricSpec} (hm : spec.metrics[m]? = some mspec) (hn : n < mspec.numElements)
    : blk.metrics[m]?.map StatsMetric.spec = some mspec ∧
        ∃ e, blk.element m n = some e ∧ e.Tracks mspec [] := by
  obtain ⟨metrics, hmap, hblk⟩ := Option.bind_eq_some_iff.mp halloc
  cases hblk
  obtain ⟨metric, hmetric, hnew⟩ := getElem?_of_mapM_eq_some hmap hm
  simp only [statsMetricAlloc, Option.dite_none_left_eq_some, Option.some.injEq] at hnew
  obtain ⟨_, rfl⟩ := hnew
  refine ⟨by simp [hmetric], _, ?_, StatsMetricElement.tracks_init mspec (labels mspec n)⟩
  simp [StatsBlock.element, hmetric, hn]

-- What holds of an element after a run from a new block. The last field says that nothing but the
-- history of the element itself counts: not what happened to other elements, or in other blocks.
structure StatsBlock.Accumulates (blk : StatsBlock) (calls : List StatsBlockUpdate) (m n : Nat)
    (mspec : StatsMetricSpec) (u64 : UInt64) : Prop where
  value_eq : u64 = mspec.accumulated (blk.history calls m n)
  never_clear : statsMetricFlagTest mspec.flags .neverClear = true →
    ∀ p ∈ blk.history calls m n, p.2 = false
  independent : ∀ domain zone spec labels (blk' : StatsBlock) m' n' calls',
    statsBlockAlloc domain zone spec labels = some blk' → spec.metrics[m']? = some mspec →
      n' < mspec.numElements → blk'.history calls' m' n' = blk.history calls m n →
        ((blk'.run calls').element m' n').map (·.value.u64) = some u64

-- The runs of the updates themselves
def statsBlockRun (fuel : Nat) (blk : StatsBlock) (calls : List StatsBlockUpdate)
    : Option StatsBlock :=
  calls.foldlM (fun blk c => statsBlockUpdateMetrics fuel blk c.filter c.readings) blk

-- Every run of updates ends, and leaves each element with what it has accumulated
def StatsBlock.AllAccumulate (blk : StatsBlock) : Prop :=
  ∀ calls, ∃ least, ∀ fuel ≥ least, statsBlockRun fuel blk calls = some (blk.run calls) ∧
    ∀ m n mspec, blk.spec.metrics[m]? = some mspec → n < mspec.numElements →
      ∃ e, (blk.run calls).element m n = some e ∧
        blk.Accumulates calls m n mspec e.value.u64

section Runs

variable {domain : StatsDomainSpec} {zone : StatsZoneSpec} {spec : StatsBlockSpec}
variable {labels : StatsMetricSpec → Nat → List StatsLabel} {blk : StatsBlock}

theorem statsBlockAlloc_accumulates (halloc : statsBlockAlloc domain zone spec labels = some blk)
    {m n : Nat} {mspec : StatsMetricSpec} (hm : spec.metrics[m]? = some mspec)
    (hn : n < mspec.numElements) (calls : List StatsBlockUpdate)
    : ∃ e, (blk.run calls).element m n = some e ∧
        blk.Accumulates calls m n mspec e.value.u64 := by
  obtain ⟨hspec, e₀, he₀, ht₀⟩ := statsBlockAlloc_element halloc hm hn
  obtain ⟨e, he, ht⟩ := StatsBlock.tracks_run hspec he₀ ht₀ calls
  rw [List.nil_append] at ht
  refine ⟨e, he, ht.value_eq, ?_, ?_⟩
  . intro hnever
    exact StatsBlock.history_of_neverClear hspec hnever calls
  . intro domain' zone' spec' labels' blk' m' n' calls' halloc' hm' hn' hhistory
    obtain ⟨hspec', e₀', he₀', ht₀'⟩ := statsBlockAlloc_element halloc' hm' hn'
    obtain ⟨e', he', ht'⟩ := StatsBlock.tracks_run hspec' he₀' ht₀' calls'
    rw [List.nil_append, hhistory] at ht'
    rw [he', Option.map_some, ht'.value_eq, ht.value_eq]

theorem StatsBlock.run_countable (hcount : blk.Countable) (calls : List StatsBlockUpdate)
    : (blk.run calls).Countable := by
  induction calls generalizing blk with
  | nil => exact hcount
  | cons c calls ih => exact ih (StatsBlock.updateMetrics_countable hcount)

theorem StatsBlock.run_longest (calls : List StatsBlockUpdate)
    : (blk.run calls).longest = blk.longest := by
  induction calls generalizing blk with
  | nil => rfl
  | cons c calls ih => exact ih.trans StatsBlock.updateMetrics_longest

theorem statsBlockRun_eq {fuel : Nat} (hcount : blk.Countable) (hfuel : blk.longest < fuel)
    (calls : List StatsBlockUpdate)
    : statsBlockRun fuel blk calls = some (blk.run calls) := by
  unfold statsBlockRun
  induction calls generalizing blk with
  | nil => rfl
  | cons c calls ih =>
    rw [List.foldlM_cons, statsBlockUpdateMetrics_eq hcount hfuel, Option.bind_eq_bind,
      Option.bind_some]
    exact ih (StatsBlock.updateMetrics_countable hcount)
      (by rw [StatsBlock.updateMetrics_longest]; exact hfuel)

-- One update of a block that it cannot count is one that does not end
theorem StatsBlock.AllAccumulate.countable (h : blk.AllAccumulate) : blk.Countable := by
  by_contra hcount
  obtain ⟨least, h⟩ := h [{ filter := none, readings := fun _ _ => 0 }]
  obtain ⟨hrun, -⟩ := h least (Nat.le_refl least)
  unfold statsBlockRun at hrun
  rw [List.foldlM_cons, statsBlockUpdateMetrics_eq_none hcount] at hrun
  cases hrun

theorem statsBlockUpdateMetrics_accumulates_iff
    (halloc : statsBlockAlloc domain zone spec labels = some blk)
    : blk.AllAccumulate ↔ blk.Countable := by
  constructor
  . exact StatsBlock.AllAccumulate.countable
  . intro hcount calls
    refine ⟨blk.longest + 1, fun fuel hfuel => ⟨statsBlockRun_eq hcount hfuel calls, ?_⟩⟩
    intro m n mspec hm hn
    have hspec : blk.spec = spec := by
      obtain ⟨metrics, -, hblk⟩ := Option.bind_eq_some_iff.mp halloc
      cases hblk
      rfl
    rw [hspec] at hm
    exact statsBlockAlloc_accumulates halloc hm hn calls

end Runs

-- A block with one array of two counters that are cleared by reading them
def countersBlockSpec : StatsBlockSpec :=
  { name := [0x62]
    metrics := [
      { name := [0x6d], nelements := 2, type := .counter,
        flags := statsMetricFlagMask .array ||| statsMetricFlagMask .clearOnRead,
        initValue := 0 }] }

def countersBlock : StatsBlock :=
  { domain := ⟨[0x64]⟩
    zone := ⟨[0x7a]⟩
    spec := countersBlockSpec
    metrics := countersBlockSpec.metrics.map fun spec =>
      { spec
        elements := List.replicate 2 { value := { u64 := 0, labels := [] }, last := 0 }
        elements_ne := by simp } }

-- Two updates, the second of which clears the element of index 1
def countersUpdates : List StatsBlockUpdate :=
  [{ filter := none, readings := fun _ n => if n = 0 then 3 else 5 },
    { filter := some { matchFn := some fun _ n => n == 1 }, readings := fun _ _ => 7 }]

theorem countersBlock_accumulates
    : countersBlock.history countersUpdates 0 1 = [(5, false), (7, true)] ∧
        ∃ least, ∀ fuel ≥ least, ∃ blk, statsBlockRun fuel countersBlock countersUpdates = some blk ∧
          ∃ e, blk.element 0 1 = some e ∧ countersBlock.Accumulates countersUpdates 0 1
            { name := [0x6d], nelements := 2, type := .counter, flags := 5, initValue := 0 }
            e.value.u64 := by
  have halloc : statsBlockAlloc ⟨[0x64]⟩ ⟨[0x7a]⟩ countersBlockSpec (fun _ _ => [])
      = some countersBlock := by
    decide
  have hcount : countersBlock.Countable := by
    simp [StatsBlock.Countable, StatsMetric.Countable, countersBlock, countersBlockSpec]
  obtain ⟨least, h⟩ :=
    (statsBlockUpdateMetrics_accumulates_iff halloc).mpr hcount countersUpdates
  refine ⟨by decide, least, ?_⟩
  intro fuel hfuel
  obtain ⟨hrun, helements⟩ := h fuel hfuel
  exact ⟨_, hrun, helements 0 1 _ (by decide) (by decide)⟩

-- An array of more counters than an `unsigned int` can count
def hugeMetricSpec : StatsMetricSpec :=
  { name := [0x6d], nelements := 2 ^ 32, type := .counter, flags := statsMetricFlagMask .array,
    initValue := 0 }

theorem not_accumulates_hugeBlock
    : ∃ blk, statsBlockAlloc ⟨[0x64]⟩ ⟨[0x7a]⟩ { name := [0x62], metrics := [hugeMetricSpec] }
        (fun _ _ => []) = some blk ∧ ¬ blk.AllAccumulate := by
  have hne : ¬ hugeMetricSpec.numElements = 0 := by decide
  obtain ⟨metric, hmetric⟩ : ∃ metric, statsMetricAlloc hugeMetricSpec (fun _ => []) = some metric :=
    ⟨_, dif_neg hne⟩
  have hlen := length_of_statsMetricAlloc hmetric
  refine ⟨{
    domain := ⟨[0x64]⟩
    zone := ⟨[0x7a]⟩
    spec := { name := [0x62], metrics := [hugeMetricSpec] }
    metrics := [metric] }, by simp [statsBlockAlloc, hmetric], ?_⟩
  intro h
  have hlt := (h.countable metric (List.mem_singleton_self metric)).1
  rw [hlen] at hlt
  exact absurd hlt (by decide)

namespace StatsZone

inductive Op where
  | update (readings : Nat → Nat → Nat → UInt64)
  | clear (filter : Option StatsClearFilter) (readings : Nat → Nat → Nat → UInt64)
  | enable
  | disable

def step (fuel : Nat) (zone : StatsZone) : Op → Option StatsZone
  | .update readings => statsZoneUpdateMetrics fuel zone readings
  | .clear filter readings => statsZoneClearMetrics fuel zone filter readings
  | .enable => some { zone with enabled := true }
  | .disable => some { zone with enabled := false }

-- What the loops over the blocks of a zone can count, and how far they count
def Countable (zone : StatsZone) : Prop := ∀ blk ∈ zone.blocks, blk.Countable

def longest (zone : StatsZone) : Nat := (zone.blocks.map StatsBlock.longest).sum

-- Each block of a zone has gone through a run of updates
def Updated (zone zone' : StatsZone) : Prop :=
  List.Forall₂ (fun blk blk' => ∃ calls, blk' = StatsBlock.run blk calls) zone.blocks zone'.blocks

variable {fuel : Nat} {zone zone' zone'' : StatsZone}

theorem updated_of_blocks_eq (h : zone'.blocks = zone.blocks) : zone.Updated zone' := by
  unfold Updated
  rw [h, List.forall₂_same]
  intro blk _
  exact ⟨[], rfl⟩

theorem Updated.trans (h : zone.Updated zone') (h' : zone'.Updated zone'')
    : zone.Updated zone'' := by
  unfold Updated at *
  generalize zone.blocks = blocks at h ⊢
  generalize zone'.blocks = blocks' at h h'
  generalize zone''.blocks = blocks'' at h'
  induction h generalizing blocks'' with
  | nil =>
    cases h'
    exact .nil
  | cons hrun _ ih =>
    cases h' with
    | cons hrun' hrest =>
      obtain ⟨calls, rfl⟩ := hrun
      obtain ⟨calls', rfl⟩ := hrun'
      exact .cons ⟨calls ++ calls', (StatsBlock.run_append _ calls calls').symm⟩ (ih _ hrest)

theorem Updated.countable (h : zone.Updated zone') (hcount : zone.Countable)
    : zone'.Countable := by
  unfold Updated at h
  unfold Countable at *
  generalize zone.blocks = blocks at h hcount
  generalize zone'.blocks = blocks' at h
  induction h with
  | nil => exact hcount
  | cons hrun _ ih =>
    obtain ⟨calls, rfl⟩ := hrun
    rw [List.forall_mem_cons] at hcount ⊢
    exact ⟨StatsBlock.run_countable hcount.1 calls, ih hcount.2⟩

theorem Updated.longest_eq (h : zone.Updated zone') : zone'.longest = zone.longest := by
  unfold Updated at h
  unfold longest
  generalize zone.blocks = blocks at h
  generalize zone'.blocks = blocks' at h
  induction h with
  | nil => rfl
  | cons hrun _ ih =>
    obtain ⟨calls, rfl⟩ := hrun
    rw [List.map_cons, List.map_cons, List.sum_cons, List.sum_cons, ih, StatsBlock.run_longest]

theorem exists_updateBlocks {filter : Option StatsClearFilter}
    {readings : Nat → Nat → Nat → UInt64} {blocks : List StatsBlock} {b : Nat}
    (hcount : ∀ blk ∈ blocks, blk.Countable) (hfuel : (blocks.map StatsBlock.longest).sum < fuel)
    : ∃ blocks', updateBlocks fuel filter readings b blocks = some blocks' ∧
        List.Forall₂ (fun blk blk' => ∃ calls, blk' = StatsBlock.run blk calls) blocks blocks' := by
  induction blocks generalizing b with
  | nil => exact ⟨[], rfl, .nil⟩
  | cons blk blocks ih =>
    rw [List.forall_mem_cons] at hcount
    rw [List.map_cons, List.sum_cons] at hfuel
    obtain ⟨blocks', hblocks, hrest⟩ := @ih (b + 1) hcount.2 (by omega)
    refine ⟨blk.updateMetrics filter (readings b) :: blocks', ?_, .cons ?_ hrest⟩
    . rw [updateBlocks, statsBlockUpdateMetrics_eq hcount.1 (by omega), Option.bind_eq_bind,
        Option.bind_some, hblocks]
      rfl
    . exact ⟨[{ filter, readings := readings b }], rfl⟩

theorem exists_step (hcount : zone.Countable) (hfuel : zone.longest < fuel) (op : Op)
    : ∃ zone', zone.step fuel op = some zone' ∧ zone.Updated zone' := by
  cases op with
  | update readings =>
    cases henabled : zone.enabled with
    | true =>
      obtain ⟨blocks, hblocks, hupdated⟩ :=
        @exists_updateBlocks fuel none readings zone.blocks 0 hcount hfuel
      refine ⟨{ zone with blocks }, ?_, hupdated⟩
      simp [step, statsZoneUpdateMetrics, henabled, hblocks]
    | false =>
      refine ⟨zone, ?_, updated_of_blocks_eq rfl⟩
      simp [step, statsZoneUpdateMetrics, henabled]
  | clear filter readings =>
    obtain ⟨blocks, hblocks, hupdated⟩ := @exists_updateBlocks fuel
      (some (filter.getD { matchFn := none })) readings zone.blocks 0 hcount hfuel
    refine ⟨{ zone with blocks }, ?_, hupdated⟩
    simp [step, statsZoneClearMetrics, hblocks]
  | enable => exact ⟨_, rfl, updated_of_blocks_eq rfl⟩
  | disable => exact ⟨_, rfl, updated_of_blocks_eq rfl⟩

-- Whatever is done to a zone that can be counted, each of its blocks goes through a run of updates
theorem exists_run (hcount : zone.Countable) (hfuel : zone.longest < fuel) (ops : List Op)
    : ∃ zone', ops.foldlM (fun zone op => step fuel zone op) zone = some zone' ∧
        zone.Updated zone' := by
  induction ops generalizing zone with
  | nil => exact ⟨zone, rfl, updated_of_blocks_eq rfl⟩
  | cons op ops ih =>
    obtain ⟨zone', hstep, hupdated⟩ := exists_step hcount hfuel op
    obtain ⟨zone'', hrun, hupdated'⟩ := ih (hupdated.countable hcount)
      (by rw [hupdated.longest_eq]; exact hfuel)
    refine ⟨zone'', ?_, hupdated.trans hupdated'⟩
    rw [List.foldlM_cons, hstep]
    exact hrun

end StatsZone
