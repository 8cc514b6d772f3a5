import SmartnicFw.Lib.Buffer
import SmartnicFw.Lib.CountedLoop
import SmartnicFw.OpenNic.Stats.Impl

/-!
This module contains how many values the zones of a statistics domain have, as they are attached and
detached, and how the values are copied into a buffer (`stats.c`). The labels of a metric are those it
gets whenever its zone is attached.
-/

namespace StatsValues

structure Block where
  metrics : List StatsMetric
  nvalues : UInt64
  deriving DecidableEq, Repr

structure Zone where
  blocks : List Block
  nvalues : UInt64
  refCount : UInt32
  deriving DecidableEq, Repr

-- The attached zones with their addresses, from `domain->zones` on
structure Domain where
  zones : List (Nat × Zone)
  nvalues : UInt64
  deriving DecidableEq, Repr

def nelements (metric : StatsMetric) : UInt64 := UInt64.ofNat metric.elements.length

-- An element gets its labels, which are those it has here
def attachElement (metric : StatsMetric) (n : UInt32) (_ : Unit) : Option Unit := do
  let _ ← metric.elements[n.toNat]?
  some ()

def attachElements (fuel : Nat) (metric : StatsMetric) : Option Unit :=
  CountedLoop.loop metric.elements.length (attachElement metric) fuel 0 ()

def statsMetricAttach (fuel : Nat) (metric : StatsMetric) (blk : Block) : Option Block := do
  let blk := { blk with nvalues := blk.nvalues + nelements metric }
  attachElements fuel metric
  some blk

def statsMetricDetach (metric : StatsMetric) (blk : Block) : Block :=
  { blk with nvalues := blk.nvalues - nelements metric }

-- The block, and the number of values of its zone
def statsBlockAttach (fuel : Nat) (blk : Block) (zoneNvalues : UInt64) : Option (Block × UInt64) := do
  let blk ← blk.metrics.foldlM (fun blk metric => statsMetricAttach fuel metric blk) blk
  some (blk, zoneNvalues + blk.nvalues)

def statsBlockDetach (blk : Block) (zoneNvalues : UInt64) : Block × UInt64 :=
  (blk.metrics.foldl (fun blk metric => statsMetricDetach metric blk) blk,
    zoneNvalues - blk.nvalues)

def attachBlocks (fuel : Nat) (blocks : List Block) (zoneNvalues : UInt64)
    : Option (List Block × UInt64) :=
  match blocks with
  | [] => some ([], zoneNvalues)
  | blk :: blocks => do
    let (blk, zoneNvalues) ← statsBlockAttach fuel blk zoneNvalues
    let (blocks, zoneNvalues) ← attachBlocks fuel blocks zoneNvalues
    some (blk :: blocks, zoneNvalues)

def detachBlocks (blocks : List Block) (zoneNvalues : UInt64) : List Block × UInt64 :=
  match blocks with
  | [] => ([], zoneNvalues)
  | blk :: blocks =>
    let (blk, zoneNvalues) := statsBlockDetach blk zoneNvalues
    let (blocks, zoneNvalues) := detachBlocks blocks zoneNvalues
    (blk :: blocks, zoneNvalues)

def statsZoneAttach (fuel : Nat) (addr : Nat) (zone : Zone) (domain : Domain) : Option Domain := do
  let (blocks, nvalues) ← attachBlocks fuel zone.blocks zone.nvalues
  let zone := { zone with blocks, nvalues }
  some { zones := domain.zones ++ [(addr, zone)], nvalues := domain.nvalues + zone.nvalues }

-- The zone as it is detached, and the domain. A zone that is not attached ends the process.
def statsZoneDetach (addr : Nat) (domain : Domain) : Option (Zone × Domain) := do
  let zone ← domain.zones.lookup addr
  let nvalues := zone.nvalues
  let (blocks, zoneNvalues) := detachBlocks zone.blocks zone.nvalues
  some ({ zone with blocks, nvalues := zoneNvalues },
    { zones := domain.zones.filter fun z => z.1 ≠ addr, nvalues := domain.nvalues - nvalues })

def modifyZone (domain : Domain) (addr : Nat) (f : Zone → Zone) : Domain :=
  { domain with
    zones := domain.zones.map fun z => if z.1 = addr then (z.1, f z.2) else z }

def statsZoneGet (addr : Option Nat) (domain : Domain) : Domain :=
  match addr with
  | none => domain
  | some addr => modifyZone domain addr fun zone => { zone with refCount := zone.refCount + 1 }

-- The reference that is dropped last detaches and frees the zone
def statsZonePut (addr : Option Nat) (domain : Domain) : Option Domain :=
  match addr with
  | none => some domain
  | some addr => do
    let zone ← domain.zones.lookup addr
    let domain := modifyZone domain addr fun zone => { zone with refCount := zone.refCount - 1 }
    if zone.refCount = 0 then
      let (_, domain) ← statsZoneDetach addr domain
      some domain
    else
      some domain

def allocMetric (metrics : List StatsMetric) (n : UInt32) (blk : Block) : Option Block := do
  let metric ← metrics[n.toNat]?
  some { blk with metrics := blk.metrics ++ [metric] }

def statsBlockAlloc (fuel : Nat) (metrics : List StatsMetric) : Option Block :=
  CountedLoop.loop metrics.length (allocMetric metrics) fuel 0 { metrics := [], nvalues := 0 }

def allocBlock (fuel : Nat) (blocks : List (List StatsMetric)) (n : UInt32) (zone : Zone)
    : Option Zone := do
  let metrics ← blocks[n.toNat]?
  let blk ← statsBlockAlloc fuel metrics
  some { zone with blocks := zone.blocks ++ [blk] }

-- The memory of a zone that is allocated is cleared, and can have been that of a zone before
def statsZoneAlloc (fuel : Nat) (addr : Nat) (blocks : List (List StatsMetric)) (domain : Domain)
    : Option Domain := do
  let zone ← CountedLoop.loop blocks.length (allocBlock fuel blocks) fuel 0
    { blocks := [], nvalues := 0, refCount := 0 }
  let domain ← statsZoneAttach fuel addr zone domain
  some (statsZoneGet (some addr) domain)

def statsMetricGetValues (metric : StatsMetric) (values : List StatsMetricValue) (off nvalues : Nat)
    : Option (Nat × List StatsMetricValue) := do
  let nvalues := if nvalues > metric.elements.length then metric.elements.length else nvalues
  let values ← Buffer.copy values off (fun n => (metric.elements.map (·.value))[n]?) 0 nvalues
  some (nvalues, values)

def statsBlockGetValues (blk : Block) (values : List StatsMetricValue) (off nvalues : Nat)
    : Option (Nat × List StatsMetricValue) :=
  Buffer.fillEach statsMetricGetValues blk.metrics values off nvalues 0

def statsZoneGetValues (zone : Zone) (values : List StatsMetricValue) (off nvalues : Nat)
    : Option (Nat × List StatsMetricValue) :=
  Buffer.fillEach statsBlockGetValues zone.blocks values off nvalues 0

-- The zone after the given one, which the caller hands its reference over with
def statsDomainGetNextZone (domain : Domain) (addr : Option Nat) : Option (Domain × Option Nat) := do
  let addrs := domain.zones.map Prod.fst
  let next := match addr with
    | none => addrs.head?
    | some addr => addrs[addrs.idxOf addr + 1]?
  let domain ← statsZonePut addr (statsZoneGet next domain)
  some (domain, next)

def getValuesLoop (fuel : Nat) (domain : Domain) (values : List StatsMetricValue) (nvalues n : Nat)
    (addr : Option Nat)
    : Option (Nat × List StatsMetricValue × Domain) :=
  match fuel with
  | 0 => none
  | fuel + 1 => do
    let (domain, next) ← statsDomainGetNextZone domain addr
    match next with
    | none => some (n, values, domain)
    | some addr =>
      let zone ← domain.zones.lookup addr
      let (more, values) ← statsZoneGetValues zone values n (nvalues - n)
      if n + more ≥ nvalues then
        let domain ← statsZonePut (some addr) domain
        some (n + more, values, domain)
      else
        getValuesLoop fuel domain values nvalues (n + more) (some addr)

-- There is no result when the fuel runs out
def statsDomainGetValues (fuel : Nat) (domain : Domain) (values : List StatsMetricValue)
    (nvalues : Nat)
    : Option (Nat × List StatsMetricValue × Domain) :=
  getValuesLoop fuel domain values nvalues 0 none

-- What a zone has been allocated for
def Zone.metrics (zone : Zone) : List (List StatsMetric) := zone.blocks.map fun blk => blk.metrics

-- What the numbers of values are to be
def Block.total (blk : Block) : Nat := (blk.metrics.map fun metric => metric.elements.length).sum

def Zone.total (zone : Zone) : Nat := (zone.blocks.map Block.total).sum

def Domain.total (domain : Domain) : Nat := (domain.zones.map fun z => z.2.total).sum

-- The values in the order of the zones, blocks, metrics and elements
def Block.values (blk : Block) : List StatsMetricValue :=
  blk.metrics.flatMap fun metric => metric.elements.map (·.value)

def Zone.values (zone : Zone) : List StatsMetricValue := zone.blocks.flatMap Block.values

def Domain.values (domain : Domain) : List StatsMetricValue :=
  domain.zones.flatMap fun z => z.2.values

structure Zone.Accounted (zone : Zone) : Prop where
  nvalues : zone.nvalues = UInt64.ofNat zone.total
  block : ∀ blk ∈ zone.blocks, blk.nvalues = UInt64.ofNat blk.total
  refCount : zone.refCount = 1

structure Domain.Accounted (domain : Domain) : Prop where
  nodup : (domain.zones.map Prod.fst).Nodup
  zone : ∀ z ∈ domain.zones, z.2.Accounted
  nvalues : domain.nvalues = UInt64.ofNat domain.total

section Attach

-- What the loop over the elements of a metric can count, and how far it gets
def Counted (fuel : Nat) (metric : StatsMetric) : Prop :=
  metric.elements.length < 2 ^ 32 ∧ metric.elements.length < fuel

theorem statsMetricAttach_eq {fuel : Nat} {metric : StatsMetric} (h : Counted fuel metric)
    (blk : Block)
    : statsMetricAttach fuel metric blk =
        some { blk with nvalues := blk.nvalues + nelements metric } := by
  have helement : ∀ (n : UInt32) (s : Unit), n.toNat < metric.elements.length →
      attachElement metric n s = some s := by
    intro n s hn
    rw [attachElement, List.getElem?_eq_getElem hn]
    rfl
  obtain ⟨_, hloop, -⟩ := CountedLoop.exists_loop h.1 (fun _ (_ : Unit) => True) trivial
    (fun n s hn _ => ⟨s, helement n s hn, trivial⟩) h.2
  unfold statsMetricAttach attachElements
  rw [hloop]
  rfl

theorem lt_of_statsMetricAttach {fuel : Nat} {metric : StatsMetric} {blk blk' : Block}
    (h : statsMetricAttach fuel metric blk = some blk')
    : metric.elements.length < 2 ^ 32 := by
  by_contra hle
  unfold statsMetricAttach attachElements at h
  rw [CountedLoop.loop_eq_none (Nat.le_of_not_lt hle)] at h
  cases h

theorem foldlM_statsMetricAttach {fuel : Nat} {metrics : List StatsMetric}
    (h : ∀ metric ∈ metrics, Counted fuel metric) (blk : Block)
    : metrics.foldlM (fun blk metric => statsMetricAttach fuel metric blk) blk =
        some { blk with
          nvalues := blk.nvalues +
            UInt64.ofNat (metrics.map fun metric => metric.elements.length).sum } := by
  induction metrics generalizing blk with
  | nil => simp
  | cons metric metrics ih =>
    rw [List.forall_mem_cons] at h
    rw [List.foldlM_cons, statsMetricAttach_eq h.1, Option.bind_eq_bind, Option.bind_some, ih h.2]
    simp [nelements, UInt64.ofNat_add, UInt64.add_assoc]

theorem lt_of_foldlM_statsMetricAttach {fuel : Nat} {metrics : List StatsMetric} {blk blk' : Block}
    (h : metrics.foldlM (fun blk metric => statsMetricAttach fuel metric blk) blk = some blk')
    : ∀ metric ∈ metrics, metric.elements.length < 2 ^ 32 := by
  induction metrics generalizing blk with
  | nil => simp
  | cons metric metrics ih =>
    rw [List.foldlM_cons] at h
    obtain ⟨blk₁, hmetric, hrest⟩ := Option.bind_eq_some_iff.mp h
    rw [List.forall_mem_cons]
    exact ⟨lt_of_statsMetricAttach hmetric, ih hrest⟩

theorem foldl_statsMetricDetach (metrics : List StatsMetric) (blk : Block)
    : metrics.foldl (fun blk metric => statsMetricDetach metric blk) blk =
        { blk with
          nvalues := blk.nvalues -
            UInt64.ofNat (metrics.map fun metric => metric.elements.length).sum } := by
  induction metrics generalizing blk with
  | nil => simp
  | cons metric metrics ih =>
    rw [List.foldl_cons, ih]
    simp only [statsMetricDetach, nelements, List.map_cons, List.sum_cons, UInt64.ofNat_add,
      Block.mk.injEq, true_and]
    grind

-- A block that is attached counts its values
def Block.attached (blk : Block) : Block := { blk with nvalues := UInt64.ofNat blk.total }

def Block.detached (blk : Block) : Block := { blk with nvalues := 0 }

theorem attachBlocks_eq {fuel : Nat} {blocks : List Block}
    (hcount : ∀ blk ∈ blocks, ∀ metric ∈ blk.metrics, Counted fuel metric)
    (h : ∀ blk ∈ blocks, blk.nvalues = 0) (n : UInt64)
    : attachBlocks fuel blocks n =
        some (blocks.map Block.attached, n + UInt64.ofNat (blocks.map Block.total).sum) := by
  induction blocks generalizing n with
  | nil => simp [attachBlocks]
  | cons blk blocks ih =>
    rw [List.forall_mem_cons] at hcount h
    unfold attachBlocks statsBlockAttach
    rw [foldlM_statsMetricAttach hcount.1, h.1, UInt64.zero_add]
    simp only [Option.bind_eq_bind, Option.bind_some]
    rw [ih hcount.2 h.2]
    simp [Block.attached, Block.total, UInt64.ofNat_add, UInt64.add_assoc]

theorem lt_of_attachBlocks {fuel : Nat} {blocks : List Block} {n : UInt64}
    {out : List Block × UInt64} (h : attachBlocks fuel blocks n = some out)
    : ∀ blk ∈ blocks, ∀ metric ∈ blk.metrics, metric.elements.length < 2 ^ 32 := by
  induction blocks generalizing n out with
  | nil => simp
  | cons blk blocks ih =>
    obtain ⟨⟨blk', n'⟩, hblk, h⟩ := Option.bind_eq_some_iff.mp h
    obtain ⟨out', hrest, -⟩ := Option.bind_eq_some_iff.mp h
    obtain ⟨_, hfold, -⟩ := Option.bind_eq_some_iff.mp hblk
    rw [List.forall_mem_cons]
    exact ⟨lt_of_foldlM_statsMetricAttach hfold, ih hrest⟩

theorem detachBlocks_eq {blocks : List Block}
    (h : ∀ blk ∈ blocks, blk.nvalues = UInt64.ofNat blk.total) (n : UInt64)
    : detachBlocks blocks n =
        (blocks.map Block.detached, n - UInt64.ofNat (blocks.map Block.total).sum) := by
  induction blocks generalizing n with
  | nil => simp [detachBlocks]
  | cons blk blocks ih =>
    have hblk := h blk List.mem_cons_self
    unfold detachBlocks statsBlockDetach
    rw [foldl_statsMetricDetach]
    simp only
    rw [ih fun blk hmem => h blk (List.mem_cons_of_mem _ hmem), hblk]
    simp only [Block.detached, Block.total, List.map_cons, List.sum_cons, UInt64.ofNat_add,
      Prod.mk.injEq, List.cons.injEq, Block.mk.injEq, true_and, and_true]
    grind

end Attach

section Lookup

variable {domain : Domain} {addr : Nat}

theorem mem_of_lookup {zone : Zone} (h : domain.zones.lookup addr = some zone)
    : (addr, zone) ∈ domain.zones := by
  obtain ⟨before, after, hzones, -⟩ := List.lookup_eq_some_iff.mp h
  rw [hzones]
  simp

theorem lookup_of_mem {z : Nat × Zone} (hnodup : (domain.zones.map Prod.fst).Nodup)
    (hz : z ∈ domain.zones)
    : domain.zones.lookup z.1 = some z.2 := by
  obtain ⟨before, after, hzones⟩ := List.append_of_mem hz
  apply List.lookup_eq_some_iff.mpr
  refine ⟨before, after, hzones, ?_⟩
  intro z' hz'
  rw [hzones, List.map_append, List.nodup_append] at hnodup
  simpa using (hnodup.2.2 z'.1 (List.mem_map_of_mem hz') z.1 (by simp)).symm

end Lookup

section Fill

theorem fills_statsMetric (metric : StatsMetric)
    : Buffer.Fills (statsMetricGetValues metric) (metric.elements.map (·.value)) := by
  intro values off n hoff
  have hn : (if n > metric.elements.length then metric.elements.length else n) =
      min n metric.elements.length := by
    split <;> omega
  unfold statsMetricGetValues
  simp only [hn]
  rw [Buffer.copy_eq_overwrite (by omega) (by rw [List.length_map]; omega), List.length_map]
  simp only [Option.bind_eq_bind, Option.bind_some]
  congr 3
  rw [← List.length_map (f := (·.value)), ← List.take_eq_take_min]

theorem fills_statsBlock (blk : Block) : Buffer.Fills (statsBlockGetValues blk) blk.values := by
  apply Buffer.fills_each
  intro metric _
  exact fills_statsMetric metric

theorem fills_statsZone (zone : Zone) : Buffer.Fills (statsZoneGetValues zone) zone.values := by
  apply Buffer.fills_each
  intro blk _
  exact fills_statsBlock blk

end Fill

section Walk

variable {domain : Domain}

theorem lookup_modifyZone (domain : Domain) (addr addr' : Nat) (f : Zone → Zone)
    : (modifyZone domain addr f).zones.lookup addr' =
        (domain.zones.lookup addr').map fun zone => if addr' = addr then f zone else zone := by
  unfold modifyZone
  simp only
  induction domain.zones with
  | nil => rfl
  | cons z zones ih =>
    obtain ⟨a, zone⟩ := z
    by_cases ha : addr' = a
    . subst ha
      by_cases haddr : addr' = addr <;> simp [haddr]
    . have hne : (addr' == a) = false := by simpa using ha
      have hskip : ∀ zone', ((a, zone') :: zones).lookup addr' = zones.lookup addr' := by
        intro zone'
        rw [List.lookup_cons, hne]
      have hskip' : ((if a = addr then (a, f zone) else (a, zone)) ::
          zones.map fun z => if z.1 = addr then (z.1, f z.2) else z).lookup addr' =
          (zones.map fun z => if z.1 = addr then (z.1, f z.2) else z).lookup addr' := by
        split <;> rw [List.lookup_cons, hne]
      rw [List.map_cons, hskip', hskip, ih]

-- A reference that is handed over for one to the next zone is given back
theorem modifyZone_get (next : Option Nat) (addr : Nat) (domain : Domain)
    : modifyZone (statsZoneGet next (statsZoneGet (some addr) domain)) addr
          (fun zone => { zone with refCount := zone.refCount - 1 }) =
        statsZoneGet next domain := by
  have hcancel : ∀ r : UInt32, r + 1 - 1 = r := by
    intro r
    grind
  obtain ⟨zones, nvalues⟩ := domain
  cases next with
  | none =>
    simp only [statsZoneGet, modifyZone, List.map_map, Domain.mk.injEq, and_true]
    conv_rhs => rw [← List.map_id zones]
    apply List.map_congr_left
    intro z _
    by_cases hz : z.1 = addr
    . simp only [Function.comp, hz, if_true, hcancel, id]
      rw [← hz]
    . simp [hz]
  | some next =>
    simp only [statsZoneGet, modifyZone, List.map_map, Domain.mk.injEq, and_true]
    apply List.map_congr_left
    intro z _
    by_cases hz : z.1 = addr
    . by_cases hz' : addr = next
      . simp [hz, hz', hcancel]
      . simp only [Function.comp, hz, if_true, hz', if_false, hcancel]
        rw [← hz]
    . by_cases hz' : z.1 = next <;> simp_all

theorem statsZonePut_get {zone : Zone} {addr : Nat} (next : Option Nat)
    (hlookup : domain.zones.lookup addr = some zone) (hcount : zone.refCount = 1)
    : statsZonePut (some addr) (statsZoneGet next (statsZoneGet (some addr) domain)) =
        some (statsZoneGet next domain) := by
  have hheld : ∃ zone', (statsZoneGet next (statsZoneGet (some addr) domain)).zones.lookup addr =
      some zone' ∧ zone'.refCount ≠ 0 := by
    cases next with
    | none =>
      refine ⟨{ zone with refCount := zone.refCount + 1 }, ?_, ?_⟩
      . simp [statsZoneGet, lookup_modifyZone, hlookup]
      . simp [hcount]
    | some next =>
      simp only [statsZoneGet, lookup_modifyZone, hlookup, Option.map_some, if_true]
      refine ⟨_, rfl, ?_⟩
      split <;> simp [hcount]
  obtain ⟨zone', hlookup', hne⟩ := hheld
  unfold statsZonePut
  simp only [hlookup', Option.bind_eq_bind, Option.bind_some, if_neg hne, modifyZone_get]

theorem addrs_statsZoneGet (addr : Option Nat) (domain : Domain)
    : (statsZoneGet addr domain).zones.map Prod.fst = domain.zones.map Prod.fst := by
  cases addr with
  | none => rfl
  | some addr =>
    unfold statsZoneGet modifyZone
    simp only [List.map_map]
    apply List.map_congr_left
    intro z _
    simp only [Function.comp]
    split <;> rfl

-- The walk stands behind the zones that it has visited
theorem next_addr {before after : List (Nat × Zone)} (hzones : domain.zones = before ++ after)
    (hnodup : (domain.zones.map Prod.fst).Nodup)
    : (match before.getLast?.map Prod.fst with
        | none => (domain.zones.map Prod.fst).head?
        | some addr =>
          (domain.zones.map Prod.fst)[(domain.zones.map Prod.fst).idxOf addr + 1]?) =
        after.head?.map Prod.fst := by
  rcases List.eq_nil_or_concat' before with rfl | ⟨before, z, rfl⟩
  . rw [hzones]
    simp
  . rw [List.getLast?_concat, Option.map_some]
    simp only
    rw [hzones, List.map_append, List.map_append, List.nodup_append, List.nodup_append] at hnodup
    have hnot : z.1 ∉ before.map Prod.fst := by
      intro hmem
      exact hnodup.1.2.2 z.1 hmem z.1 (by simp) rfl
    have hidx : (domain.zones.map Prod.fst).idxOf z.1 = before.length := by
      rw [hzones, List.map_append, List.map_append, List.append_assoc,
        List.idxOf_append_of_notMem hnot]
      simp
    rw [hidx, hzones]
    cases after with
    | nil => simp
    | cons z' after => simp

-- The walk hands on its reference, and gives it back where it stops
theorem statsDomainGetNextZone_eq {before after : List (Nat × Zone)} (hd : domain.Accounted)
    (hzones : domain.zones = before ++ after)
    : statsDomainGetNextZone (statsZoneGet (before.getLast?.map Prod.fst) domain)
          (before.getLast?.map Prod.fst) =
        some (statsZoneGet (after.head?.map Prod.fst) domain, after.head?.map Prod.fst) := by
  unfold statsDomainGetNextZone
  simp only [addrs_statsZoneGet]
  rw [next_addr hzones hd.nodup]
  cases hlast : before.getLast? with
  | none => rfl
  | some z =>
    have hmem : z ∈ domain.zones := by
      rw [hzones]
      exact List.mem_append_left after (List.mem_of_getLast? hlast)
    rw [Option.map_some,
      statsZonePut_get _ (lookup_of_mem hd.nodup hmem) (hd.zone z hmem).refCount]
    rfl

theorem getValuesLoop_eq (hd : domain.Accounted) (before after : List (Nat × Zone))
    (hzones : domain.zones = before ++ after) (fuel : Nat) (hfuel : after.length < fuel)
    (values : List StatsMetricValue) (nvalues n : Nat) (hn : n ≤ nvalues)
    (hsize : nvalues ≤ values.length)
    : getValuesLoop fuel (statsZoneGet (before.getLast?.map Prod.fst) domain) values nvalues n
          (before.getLast?.map Prod.fst) =
        some (n + min (nvalues - n) (after.flatMap fun z => z.2.values).length,
          Buffer.overwrite values n ((after.flatMap fun z => z.2.values).take (nvalues - n)),
          domain) := by
  induction after generalizing before fuel values n with
  | nil =>
    obtain ⟨fuel, rfl⟩ : ∃ f, fuel = f + 1 := ⟨fuel - 1, by omega⟩
    unfold getValuesLoop
    rw [statsDomainGetNextZone_eq hd hzones]
    simp [statsZoneGet]
  | cons z after ih =>
    obtain ⟨fuel, rfl⟩ : ∃ f, fuel = f + 1 := ⟨fuel - 1, by omega⟩
    have hmem : z ∈ domain.zones := by
      rw [hzones]
      simp
    have hlookup := lookup_of_mem hd.nodup hmem
    have hheld : (statsZoneGet (some z.1) domain).zones.lookup z.1 =
        some { z.2 with refCount := z.2.refCount + 1 } := by
      simp [statsZoneGet, lookup_modifyZone, hlookup]
    have hfill := fills_statsZone { z.2 with refCount := z.2.refCount + 1 } values n (nvalues - n)
      (by omega)
    have hvalues : Zone.values { z.2 with refCount := z.2.refCount + 1 } = z.2.values := rfl
    rw [hvalues] at hfill
    unfold getValuesLoop
    rw [statsDomainGetNextZone_eq hd hzones]
    simp only [List.head?_cons, Option.map_some, Option.bind_eq_bind, Option.bind_some, hheld, hfill]
    have hlen : (z.2.values.take (nvalues - n)).length = min (nvalues - n) z.2.values.length :=
      List.length_take
    have hbuf : (Buffer.overwrite values n (z.2.values.take (nvalues - n))).length =
        values.length := Buffer.length_overwrite (by omega)
    rw [List.flatMap_cons, List.length_append, List.take_append]
    split
    . next hfull =>
      have hput := statsZonePut_get none hlookup (hd.zone z hmem).refCount
      simp only [statsZoneGet] at hput ⊢
      rw [hput]
      have hrest : nvalues - n - z.2.values.length = 0 := by omega
      rw [hrest, List.take_zero, List.append_nil]
      simp only [Option.bind_some, Option.some.injEq, Prod.mk.injEq, and_true]
      omega
    . next hmore =>
      have hnext := ih (before ++ [z]) (by rw [hzones]; simp) fuel
        (by simp only [List.length_cons] at hfuel; omega)
        (Buffer.overwrite values n (z.2.values.take (nvalues - n)))
        (n + min (nvalues - n) z.2.values.length) (by omega) (by omega)
      rw [List.getLast?_concat, Option.map_some] at hnext
      rw [hnext, ← hlen, Buffer.overwrite_overwrite (by omega), hlen]
      have hmin : min (nvalues - n) z.2.values.length = z.2.values.length := by omega
      rw [hmin, Nat.sub_add_eq]
      simp only [Option.some.injEq, Prod.mk.injEq, and_true]
      omega

end Walk

section Totals

theorem Block.length_values (blk : Block) : blk.values.length = blk.total := by
  unfold Block.values Block.total
  rw [List.length_flatMap]
  simp

theorem Zone.length_values (zone : Zone) : zone.values.length = zone.total := by
  unfold Zone.values Zone.total
  rw [List.length_flatMap]
  simp [Block.length_values]

theorem Domain.length_values (domain : Domain) : domain.values.length = domain.total := by
  unfold Domain.values Domain.total
  rw [List.length_flatMap]
  simp [Zone.length_values]

end Totals

end StatsValues
