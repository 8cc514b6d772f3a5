import SmartnicFw.Lib.Unwind
import SmartnicFw.OpenNic.Stats.Accumulate
import SmartnicFw.SnP4.Agent.FilterThrows

/-!
This module contains the walks of `GetStats` and `ClearStats` over the metrics of a device (`stats.c`,
`stats.cpp`) with the locks, latches and references that they hold, and how an exception of the filter
leaves them.
-/

open SnP4V2 (StatsMetricFilter StatsFilters)

namespace StatsWalk

open Throwing (Eval)

-- A block with its lock and the latch calls that no release call has followed
structure Block where
  blk : StatsBlock
  hasLatch : Bool
  hasRelease : Bool
  locked : Bool
  latched : Nat
  deriving DecidableEq, Repr

-- `ref_count` is an `unsigned int`. It counts the domain and the walks that are at the zone, and so
-- does not come to 2 ^ 32.
structure Zone where
  spec : StatsZoneSpec
  blocks : List Block
  refCount : Nat
  deriving DecidableEq, Repr

abbrev Domain := List Zone

abbrev Device := List Domain

structure StatsRequest where
  devId : Int
  filters : StatsFilters

namespace Block

def lock (b : Block) : Block := { b with locked := true }

def unlock (b : Block) : Block := { b with locked := false }

def latchMetrics (b : Block) : Block :=
  if b.hasLatch then { b with latched := b.latched + 1 } else b

def releaseMetrics (b : Block) : Block :=
  if b.hasRelease then { b with latched := b.latched - 1 } else b

def setMetrics (b : Block) (metrics : List StatsMetric) : Block :=
  { b with blk := { b.blk with metrics := metrics } }

end Block

namespace Zone

def get (zone : Zone) : Zone := { zone with refCount := zone.refCount + 1 }

def put (zone : Zone) : Zone := { zone with refCount := zone.refCount - 1 }

end Zone

section Walks

variable (re : ThrowingRegex) (fuel : Nat)

def clearStatsFilterSetup (spec : StatsClearFilterSpec) (metricFilter : StatsMetricFilter)
    : Eval (BitArray spec.values.length) :=
  let forEachSpec : StatsForEachSpec :=
    { domain := spec.domain, zone := spec.zone, block := spec.block, metric := spec.metric
      values := spec.values, values_ne := spec.values_ne }
  let type := statsMetricTypeMessage spec.metric.type
  Throwing.applyMetricFilter re fuel forEachSpec metricFilter type
    (BitArray.new spec.values.length forEachSpec.nvalues_pos)

-- How an evaluation that ends is left
def outcomeOf {α S : Type} (x : Eval α) (thrown : S) (returned : α → S) : Option (Outcome S) :=
  match x with
  | none => none
  | some (.error _) => some (.throws thrown)
  | some (.ok a) => some (.returns (returned a))

-- The part of `stats_block_update_metrics` for one metric
def updateMetric (blk : StatsBlock) (filter : Option StatsMetricFilter)
    (readings : Nat → Nat → UInt64) (m : Nat) (metric : StatsMetric)
    : Option (Outcome StatsMetric) :=
  match filter with
  | none =>
    some (.returns (statsBlockUpdateMetrics.updateMetric blk (some { matchFn := none })
      (readings m) m metric))
  | some filter =>
    outcomeOf (clearStatsFilterSetup re fuel (statsBlockUpdateMetrics.filterSpec blk m metric) filter)
      metric fun valid =>
        statsBlockUpdateMetrics.updateMetric blk
          (some { matchFn := some fun _ n => clearStatsFilterMatch valid n }) (readings m) m metric

-- A lock that is held is waited for, and nobody is left to release it
def updateBlock (filter : Option StatsMetricFilter) (readings : Nat → Nat → UInt64) (b : Block)
    : Option (Outcome Block) :=
  if b.locked then
    none
  else
    let b := b.lock.latchMetrics
    match Outcome.walk (updateMetric re fuel b.blk filter readings) 0 b.blk.metrics with
    | none => none
    | some (.throws metrics) => some (.throws (b.setMetrics metrics))
    | some (.returns metrics) => some (.returns (b.setMetrics metrics).releaseMetrics.unlock)

-- The callback of `stats_block_for_each_metric`, which goes on after each metric
def getMetric (blk : StatsBlock) (filters : StatsFilters) (_m : Nat) (metric : StatsMetric)
    : Option (Outcome StatsMetric) :=
  let spec := blk.forEachSpec metric
  outcomeOf
    (Throwing.applyFilters re fuel spec filters (statsMetricTypeMessage metric.spec.type)
      (BitArray.new spec.nvalues spec.nvalues_pos))
    metric fun _ => metric

def forEachMetric (filters : StatsFilters) (b : Block) : Option (Outcome Block) :=
  (Outcome.walk (getMetric re fuel b.blk filters) 0 b.blk.metrics).map (Outcome.map b.setMetrics)

def visitBlock (doClear : Bool) (filters : StatsFilters) (readings : Nat → Nat → UInt64)
    (b : Block)
    : Option (Outcome Block) :=
  if doClear then
    updateBlock re fuel filters.metricFilter readings b
  else
    forEachMetric re fuel filters b

def visitZone (doClear : Bool) (filters : StatsFilters) (readings : Nat → Nat → Nat → UInt64)
    (zone : Zone)
    : Option (Outcome Zone) :=
  (Outcome.walk (fun i => visitBlock re fuel doClear filters (readings i)) 0 zone.blocks).map
    (Outcome.map fun blocks => { zone with blocks := blocks })

-- The loop over the zones. The reference of the next zone is taken before that of the one before it,
-- which is `prev`, is given back.
def visitZones (visit : Nat → Zone → Option (Outcome Zone)) (prev : Option Zone) (i : Nat)
    (zones : List Zone)
    : Option (Outcome (List Zone)) :=
  match zones with
  | [] => some (.returns (prev.map Zone.put).toList)
  | zone :: zones =>
    let zone := zone.get
    let done := (prev.map Zone.put).toList
    match visit i zone with
    | none => none
    | some (.throws zone) => some (.throws (done ++ zone :: zones))
    | some (.returns zone) =>
      (visitZones visit (some zone) (i + 1) zones).map (Outcome.map (done ++ ·))

def visitDomain (doClear : Bool) (filters : StatsFilters)
    (readings : Nat → Nat → Nat → Nat → UInt64) (domain : Domain)
    : Option (Outcome Domain) :=
  visitZones (fun i => visitZone re fuel doClear filters (readings i)) none 0 domain

def visitDevice (doClear : Bool) (filters : StatsFilters)
    (readings : Nat → Nat → Nat → Nat → Nat → UInt64) (device : Device)
    : Option (Outcome Device) :=
  Outcome.walk (fun i => visitDomain re fuel doClear filters (readings i)) 0 device

-- A negative id selects all devices. An id that is too large is answered before any walk.
def StatsRequest.selects (req : StatsRequest) (i : Nat) : Bool := req.devId < 0 || req.devId == i

def getOrClearStats (doClear : Bool) (req : StatsRequest)
    (readings : Nat → Nat → Nat → Nat → Nat → Nat → UInt64) (devices : List Device)
    : Option (Outcome (List Device)) :=
  if req.devId > (devices.length : Int) - 1 then
    some (.returns devices)
  else
    Outcome.walk
      (fun i device =>
        if req.selects i then
          visitDevice re fuel doClear req.filters (readings i) device
        else
          some (.returns device))
      0 devices

end Walks

section Invalid

variable (re : ThrowingRegex) (fuel : Nat) (doClear : Bool) (filters : StatsFilters)

def throwsError {α : Type} (x : Eval α) : Option Bool := (outcomeOf x () fun _ => ()).map Outcome.threw

-- Whether the evaluation of the filter on a metric comes to a pattern that is not accepted
def metricMeetsInvalid (blk : StatsBlock) (m : Nat) (metric : StatsMetric) : Option Bool :=
  if doClear then
    match filters.metricFilter with
    | none => some false
    | some filter =>
      throwsError (clearStatsFilterSetup re fuel
        (statsBlockUpdateMetrics.filterSpec blk m metric) filter)
  else
    throwsError (Throwing.applyFilters re fuel (blk.forEachSpec metric) filters
      (statsMetricTypeMessage metric.spec.type)
      (BitArray.new _ (blk.forEachSpec metric).nvalues_pos))

def blockMeetsInvalid (b : Block) : Option Bool :=
  if doClear && b.locked then
    none
  else
    Outcome.walkThrows (metricMeetsInvalid re fuel doClear filters b.blk) 0 b.blk.metrics

-- The same for the metrics that a request selects, in the order of the walk
def meetsInvalid (req : StatsRequest) (devices : List Device) : Option Bool :=
  Outcome.walkThrows
    (fun i device =>
      if req.devId ≤ (devices.length : Int) - 1 ∧ req.selects i then
        Outcome.walkThrows
          (fun _ domain =>
            Outcome.walkThrows
              (fun _ (zone : Zone) =>
                Outcome.walkThrows
                  (fun _ b => blockMeetsInvalid re fuel doClear req.filters b) 0 zone.blocks)
              0 domain)
          0 device
      else
        some false)
    0 devices

end Invalid

-- What is the same before and after a request: everything but the metrics of the blocks
structure Block.Restored (b b' : Block) : Prop where
  spec : b'.blk.spec = b.blk.spec
  hasLatch : b'.hasLatch = b.hasLatch
  hasRelease : b'.hasRelease = b.hasRelease
  locked : b'.locked = b.locked
  latched : b.hasLatch = true → b.hasRelease = true → b'.latched = b.latched

structure Zone.Restored (zone zone' : Zone) : Prop where
  spec : zone'.spec = zone.spec
  refCount : zone'.refCount = zone.refCount
  blocks : List.Forall₂ Block.Restored zone.blocks zone'.blocks

def Restored (devices devices' : List Device) : Prop :=
  List.Forall₂ (List.Forall₂ (List.Forall₂ Zone.Restored)) devices devices'

section Blocks

variable {re : ThrowingRegex} {fuel : Nat} {doClear : Bool} {filters : StatsFilters}
variable {readings : Nat → Nat → UInt64} {b b' : Block}

theorem map_threw_outcomeOf {α S : Type} (x : Eval α) (thrown : S) (returned : α → S)
    : (outcomeOf x thrown returned).map Outcome.threw = throwsError x := by
  unfold throwsError outcomeOf
  match x with
  | none => rfl
  | some (.error _) => rfl
  | some (.ok _) => rfl

theorem map_threw_updateMetric (re : ThrowingRegex) (fuel : Nat) (filters : StatsFilters)
    (readings : Nat → Nat → UInt64) (blk : StatsBlock) (m : Nat) (metric : StatsMetric)
    : (updateMetric re fuel blk filters.metricFilter readings m metric).map Outcome.threw =
        metricMeetsInvalid re fuel true filters blk m metric := by
  unfold updateMetric metricMeetsInvalid
  cases filters.metricFilter with
  | none => rfl
  | some filter =>
    rw [map_threw_outcomeOf]
    rfl

theorem map_threw_getMetric (blk : StatsBlock) (m : Nat) (metric : StatsMetric)
    : (getMetric re fuel blk filters m metric).map Outcome.threw =
        metricMeetsInvalid re fuel false filters blk m metric := by
  unfold getMetric metricMeetsInvalid
  rw [map_threw_outcomeOf]
  rfl

theorem map_threw_visitBlock (b : Block)
    : (visitBlock re fuel doClear filters readings b).map Outcome.threw =
        blockMeetsInvalid re fuel doClear filters b := by
  unfold visitBlock blockMeetsInvalid
  cases doClear with
  | true =>
    unfold updateBlock
    by_cases hlocked : b.locked = true
    . simp [hlocked]
    . have hwalk := Outcome.map_threw_walk
        (map_threw_updateMetric re fuel filters readings b.blk) 0 b.blk.metrics
      have hblk : b.lock.latchMetrics.blk = b.blk := by
        unfold Block.latchMetrics
        split <;> rfl
      simp only [hlocked, Bool.false_eq_true, if_false, if_true, Bool.true_and, hblk]
      rw [← hwalk]
      split
      . rename_i hnone
        rw [hnone]
        rfl
      . rename_i hthrows
        rw [hthrows]
        rfl
      . rename_i hreturns
        rw [hreturns]
        rfl
  | false =>
    unfold forEachMetric
    simp only [Bool.false_eq_true, if_false, Bool.false_and]
    rw [← Outcome.map_threw_walk (map_threw_getMetric b.blk) 0 b.blk.metrics, Option.map_map]
    congr 1
    funext o
    exact Outcome.threw_map _ o

-- A visit that returns has released what it took
theorem restored_of_visitBlock (h : visitBlock re fuel doClear filters readings b =
      some (.returns b'))
    : b.Restored b' := by
  unfold visitBlock at h
  cases doClear with
  | true =>
    simp only [if_true] at h
    unfold updateBlock at h
    by_cases hlocked : b.locked = true
    . rw [if_pos hlocked] at h
      cases h
    . rw [if_neg hlocked] at h
      simp only at h
      split at h
      . cases h
      . cases h
      . cases h
        obtain ⟨blk, hasLatch, hasRelease, locked, latched⟩ := b
        simp only [Bool.not_eq_true] at hlocked
        subst hlocked
        cases hasLatch <;> cases hasRelease <;> constructor <;>
          simp [Block.unlock, Block.releaseMetrics, Block.setMetrics, Block.latchMetrics, Block.lock]
  | false =>
    simp only [Bool.false_eq_true, if_false] at h
    obtain ⟨o, _, ho⟩ := Option.map_eq_some_iff.mp h
    cases o with
    | throws metrics => cases ho
    | returns metrics =>
      cases ho
      exact ⟨rfl, rfl, rfl, rfl, fun _ _ => rfl⟩

end Blocks

-- Where all patterns of the filter are accepted, the walks are those without exceptions
section Accepted

variable {re : ThrowingRegex} {fuel : Nat} {filters : StatsFilters} {filter : StatsMetricFilter}

theorem getMetric_of_accepts (hfilter : filters.metricFilter = some filter)
    (haccepts : re.AcceptsAll filter.patterns) {blk : StatsBlock} {metric : StatsMetric}
    {report : Option SnP4V2.StatsMetric}
    (hreport : getStatsForEachMetric re.toRegex fuel (blk.forEachSpec metric) filters = some report)
    (m : Nat)
    : getMetric re fuel blk filters m metric = some (.returns metric) := by
  have hall : True → ∀ filter, filters.metricFilter = some filter →
      re.AcceptsAll filter.patterns := by
    intro _ filter' hfilter'
    rw [hfilter, Option.some.injEq] at hfilter'
    exact hfilter' ▸ haccepts
  have hyields := (@applyFilters_yields True re _ fuel (blk.forEachSpec metric) filters hall
    (statsMetricTypeMessage metric.spec.type)
    (BitArray.new _ (blk.forEachSpec metric).nvalues_pos)).ok_of_accepted trivial
  obtain ⟨valid, hvalid, _⟩ := Option.bind_eq_some_iff.mp hreport
  change applyFilters re.toRegex fuel (blk.forEachSpec metric) filters
    (statsMetricTypeMessage metric.spec.type) _ = some valid at hvalid
  rw [hvalid] at hyields
  unfold getMetric
  dsimp only
  rw [hyields]
  rfl

theorem updateMetric_of_accepts (hfilter : filters.metricFilter = some filter)
    (haccepts : re.AcceptsAll filter.patterns) {blk : StatsBlock} {m : Nat} {metric : StatsMetric}
    {valid : BitArray (blk.forEachSpec metric).nvalues}
    (happly : applyMetricFilter re.toRegex fuel (blk.forEachSpec metric) filter
      (statsMetricTypeMessage metric.spec.type)
      (BitArray.new _ (blk.forEachSpec metric).nvalues_pos) = some valid)
    (readings : Nat → Nat → UInt64)
    : updateMetric re fuel blk filters.metricFilter readings m metric =
        some (.returns (statsBlockUpdateMetrics.updateMetric blk
          (clearStatsFilter re.toRegex fuel filters) (readings m) m metric)) := by
  have hyields := (@applyMetricFilter_yields True re _ fuel (blk.forEachSpec metric) filter
    (fun _ => haccepts) (statsMetricTypeMessage metric.spec.type)
    (BitArray.new _ (blk.forEachSpec metric).nvalues_pos)).ok_of_accepted trivial
  rw [happly] at hyields
  have hsetup : clearStatsFilterSetup re fuel (statsBlockUpdateMetrics.filterSpec blk m metric)
      filter = (some (.ok valid) : Option (Except RegexError _)) := hyields
  unfold updateMetric statsBlockUpdateMetrics.updateMetric
  rw [hfilter]
  dsimp only
  rw [hsetup]
  simp only [outcomeOf, doClear_clearStatsFilter hfilter happly]
  rfl

end Accepted

section Zones

variable {visit : Nat → Zone → Option (Outcome Zone)}

-- A visit with the reference that is held during it
def visitHeld (visit : Nat → Zone → Option (Outcome Zone)) (i : Nat) (zone : Zone)
    : Option (Outcome Zone) :=
  match visit i zone.get with
  | none => none
  | some (.throws zone) => some (.throws zone)
  | some (.returns zone) => some (.returns zone.put)

theorem visitZones_eq (prev : Option Zone) (i : Nat) (zones : List Zone)
    : visitZones visit prev i zones =
        (Outcome.walk (visitHeld visit) i zones).map
          (Outcome.map ((prev.map Zone.put).toList ++ ·)) := by
  induction zones generalizing prev i with
  | nil => simp [visitZones, Outcome.walk, Outcome.map]
  | cons zone zones ih =>
    unfold visitZones Outcome.walk
    dsimp only
    cases hvisit : visit i zone.get with
    | none =>
      rw [show visitHeld visit i zone = none by rw [visitHeld, hvisit]]
      rfl
    | some o =>
      cases o with
      | throws zone' =>
        rw [show visitHeld visit i zone = some (.throws zone') by rw [visitHeld, hvisit]]
        rfl
      | returns zone' =>
        rw [show visitHeld visit i zone = some (.returns zone'.put) by rw [visitHeld, hvisit]]
        simp only
        rw [ih, Option.map_map, Option.map_map]
        congr 1

end Zones

section Requests

variable {re : ThrowingRegex} {fuel : Nat} {doClear : Bool} {filters : StatsFilters}

theorem map_threw_visitZone (readings : Nat → Nat → Nat → UInt64) (zone : Zone)
    : (visitZone re fuel doClear filters readings zone).map Outcome.threw =
        Outcome.walkThrows (fun _ b => blockMeetsInvalid re fuel doClear filters b) 0
          zone.blocks := by
  unfold visitZone
  rw [← Outcome.map_threw_walk (fun i b => map_threw_visitBlock b), Option.map_map]
  congr 1
  funext o
  exact Outcome.threw_map _ o

-- An exception leaves the zone with the reference that was taken for the visit
theorem restored_visitHeld_iff (readings : Nat → Nat → Nat → Nat → UInt64) (i : Nat) (zone : Zone)
    {o : Outcome Zone}
    (ho : visitHeld (fun i => visitZone re fuel doClear filters (readings i)) i zone = some o)
    : zone.Restored o.state ↔ o.threw = false := by
  unfold visitHeld visitZone at ho
  dsimp only at ho
  cases hwalk : Outcome.walk (fun j => visitBlock re fuel doClear filters (readings i j)) 0
      zone.get.blocks with
  | none =>
    rw [hwalk] at ho
    cases ho
  | some blocks =>
    rw [hwalk] at ho
    cases blocks with
    | throws blocks =>
      cases ho
      simp only [Outcome.state, Outcome.threw, Bool.true_eq_false, iff_false]
      intro hrestored
      exact Nat.succ_ne_self zone.refCount hrestored.refCount
    | returns blocks =>
      cases ho
      simp only [Outcome.state, Outcome.threw, iff_true]
      refine ⟨rfl, rfl, ?_⟩
      apply Outcome.walk_forall₂_of_returns _ 0 hwalk
      intro j b b' hvisit
      exact restored_of_visitBlock hvisit

theorem restored_visitDomain_iff (readings : Nat → Nat → Nat → Nat → UInt64) (domain : Domain)
    {o : Outcome Domain} (ho : visitDomain re fuel doClear filters readings domain = some o)
    : List.Forall₂ Zone.Restored domain o.state ↔ o.threw = false := by
  unfold visitDomain at ho
  rw [visitZones_eq] at ho
  simp only [Option.map_none, Option.toList_none, List.nil_append] at ho
  obtain ⟨o', ho', rfl⟩ := Option.map_eq_some_iff.mp ho
  rw [Outcome.state_map, Outcome.threw_map]
  apply Outcome.walk_forall₂_iff _ 0 ho'
  intro i zone o hvisit
  exact restored_visitHeld_iff readings i zone hvisit

theorem map_threw_visitDomain (readings : Nat → Nat → Nat → Nat → UInt64) (domain : Domain)
    : (visitDomain re fuel doClear filters readings domain).map Outcome.threw =
        Outcome.walkThrows
          (fun _ (zone : Zone) =>
            Outcome.walkThrows
              (fun _ b => blockMeetsInvalid re fuel doClear filters b) 0 zone.blocks)
          0 domain := by
  have hheld (i : Nat) (zone : Zone)
      : (visitHeld (fun i => visitZone re fuel doClear filters (readings i)) i zone).map
            Outcome.threw =
          Outcome.walkThrows (fun _ b => blockMeetsInvalid re fuel doClear filters b) 0
            zone.blocks := by
    rw [← show zone.get.blocks = zone.blocks from rfl, ← map_threw_visitZone (readings i)]
    unfold visitHeld
    dsimp only
    cases visitZone re fuel doClear filters (readings i) zone.get with
    | none => rfl
    | some o => cases o <;> rfl
  unfold visitDomain
  rw [visitZones_eq, Option.map_map, ← Outcome.map_threw_walk hheld]
  congr 1
  funext o
  exact Outcome.threw_map _ o

theorem map_threw_visitDevice (readings : Nat → Nat → Nat → Nat → Nat → UInt64) (device : Device)
    : (visitDevice re fuel doClear filters readings device).map Outcome.threw =
        Outcome.walkThrows
          (fun _ domain =>
            Outcome.walkThrows
              (fun _ (zone : Zone) =>
                Outcome.walkThrows
                  (fun _ b => blockMeetsInvalid re fuel doClear filters b) 0 zone.blocks)
              0 domain)
          0 device := by
  exact Outcome.map_threw_walk (fun i domain => map_threw_visitDomain (readings i) domain) 0 device

theorem restored_visitDevice_iff (readings : Nat → Nat → Nat → Nat → Nat → UInt64)
    (device : Device) {o : Outcome Device}
    (ho : visitDevice re fuel doClear filters readings device = some o)
    : List.Forall₂ (List.Forall₂ Zone.Restored) device o.state ↔ o.threw = false := by
  apply Outcome.walk_forall₂_iff _ 0 ho
  intro i domain o hvisit
  exact restored_visitDomain_iff (readings i) domain hvisit

theorem Zone.Restored.refl (zone : Zone) : zone.Restored zone := by
  refine ⟨rfl, rfl, ?_⟩
  apply List.forall₂_same.mpr
  intro b _
  exact ⟨rfl, rfl, rfl, rfl, fun _ _ => rfl⟩

theorem restored_refl (device : Device) : List.Forall₂ (List.Forall₂ Zone.Restored) device device := by
  apply List.forall₂_same.mpr
  intro domain _
  apply List.forall₂_same.mpr
  intro zone _
  exact Zone.Restored.refl zone

theorem walkThrows_false {X : Type} (i : Nat) (xs : List X)
    : Outcome.walkThrows (fun _ _ => some false) i xs = some false := by
  induction xs generalizing i with
  | nil => rfl
  | cons x xs ih => exact ih (i + 1)

variable {req : StatsRequest} {devices : List Device}
variable {readings : Nat → Nat → Nat → Nat → Nat → Nat → UInt64}

theorem map_threw_getOrClearStats (readings : Nat → Nat → Nat → Nat → Nat → Nat → UInt64)
    : (getOrClearStats re fuel doClear req readings devices).map Outcome.threw =
        meetsInvalid re fuel doClear req devices := by
  unfold getOrClearStats meetsInvalid
  by_cases hrange : req.devId > (devices.length : Int) - 1
  . have hnot : ¬ req.devId ≤ (devices.length : Int) - 1 := by omega
    simp only [if_pos hrange, hnot, false_and, if_false, walkThrows_false]
    rfl
  . have hle : req.devId ≤ (devices.length : Int) - 1 := by omega
    simp only [if_neg hrange, hle, true_and]
    apply Outcome.map_threw_walk
    intro i device
    split
    . exact map_threw_visitDevice (readings i) device
    . rfl

theorem restored_getOrClearStats_iff {o : Outcome (List Device)}
    (ho : getOrClearStats re fuel doClear req readings devices = some o)
    : Restored devices o.state ↔ o.threw = false := by
  unfold getOrClearStats at ho
  split at ho
  . cases ho
    refine iff_of_true ?_ rfl
    apply List.forall₂_same.mpr
    intro device _
    exact restored_refl device
  . apply Outcome.walk_forall₂_iff _ 0 ho
    intro i device o hdevice
    split at hdevice
    . exact restored_visitDevice_iff (readings i) device hdevice
    . cases hdevice
      exact iff_of_true (restored_refl device) rfl

end Requests

-- However a request is left, everything but the metrics is as before exactly when the evaluation of
-- its filter comes to no pattern that is not accepted
theorem getOrClearStats_restored_iff (re : ThrowingRegex) (doClear : Bool) (req : StatsRequest)
    (readings : Nat → Nat → Nat → Nat → Nat → Nat → UInt64) (devices : List Device)
    : (∀ fuel outcome, getOrClearStats re fuel doClear req readings devices = some outcome →
        Restored devices outcome.state) ↔
        ∀ fuel, meetsInvalid re fuel doClear req devices ≠ some true := by
  apply forall_congr'
  intro fuel
  rw [← map_threw_getOrClearStats readings]
  constructor
  . intro h hthrows
    obtain ⟨o, ho, hthrew⟩ := Option.map_eq_some_iff.mp hthrows
    have hreturned := (restored_getOrClearStats_iff ho).mp (h o ho)
    rw [hthrew] at hreturned
    cases hreturned
  . intro h o ho
    apply (restored_getOrClearStats_iff ho).mpr
    rw [ho] at h
    simpa using h

-- A device with one metric in one block, and a filter for the names that match `[`
def exampleRegex : ThrowingRegex :=
  { regexMatch := fun pattern _ str => pattern == str
    split := fun _ str => [str]
    accepts := fun pattern _ => pattern != [0x5b] }

def exampleDevice (locked : Bool) (latched refCount : Nat) : Device :=
  let b : Block :=
    { blk := countersBlock, hasLatch := true, hasRelease := true, locked := locked
      latched := latched }
  [[{ spec := ⟨[0x7a]⟩, blocks := [b], refCount := refCount }]]

def invalidRequest : StatsRequest :=
  { devId := 0
    filters :=
      { nonZero := false
        metricFilter := some (.mk false (.ofMatch (.name (.regexp ⟨.ecmaScript, [0x5b]⟩))))
        withLabels := false } }

def clearAllRequest : StatsRequest :=
  { devId := 0, filters := { nonZero := false, metricFilter := none, withLabels := false } }

-- `ClearStats` leaves the lock, the latch and a reference behind, and the next one waits for ever.
-- `GetStats` leaves a reference behind.
theorem invalidRequest_not_restored
    : getOrClearStats exampleRegex 0 true invalidRequest (fun _ _ _ _ _ _ => 0)
          [exampleDevice false 0 1] = some (.throws [exampleDevice true 1 2]) ∧
        getOrClearStats exampleRegex 0 false invalidRequest (fun _ _ _ _ _ _ => 0)
          [exampleDevice false 0 1] = some (.throws [exampleDevice false 0 2]) ∧
        ¬ Restored [exampleDevice false 0 1] [exampleDevice true 1 2] ∧
        ¬ Restored [exampleDevice false 0 1] [exampleDevice false 0 2] ∧
        ∀ fuel, getOrClearStats exampleRegex fuel true clearAllRequest (fun _ _ _ _ _ _ => 0)
          [exampleDevice true 1 2] = none := by
  have hnot (locked : Bool) (latched : Nat)
      : ¬ Restored [exampleDevice false 0 1] [exampleDevice locked latched 2] := by
    intro h
    have hdevice := (List.forall₂_cons.mp h).1
    have hdomain := (List.forall₂_cons.mp hdevice).1
    cases (List.forall₂_cons.mp hdomain).1.refCount
  refine ⟨by decide, by decide, hnot true 1, hnot false 0, ?_⟩
  intro fuel
  rfl

end StatsWalk
