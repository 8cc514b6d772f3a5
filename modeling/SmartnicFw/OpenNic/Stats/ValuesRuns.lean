import SmartnicFw.OpenNic.Stats.Values

/-!
This module contains the runs of a statistics domain whose zones are allocated, detached, attached
again and freed, and what the numbers of values and the copies into a buffer are after any of them.
-/

namespace StatsValues

-- The zones that have been detached are kept beside the domain, with their addresses
structure State where
  domain : Domain
  detached : List (Nat × Zone)
  deriving DecidableEq, Repr

def empty : State := { domain := { zones := [], nvalues := 0 }, detached := [] }

inductive Op where
  | alloc (addr : Nat) (blocks : List (List StatsMetric))
  | detach (addr : Nat)
  | attach (addr : Nat)
  | free (addr : Nat)
  deriving DecidableEq, Repr

def Op.apply (fuel : Nat) (op : Op) (s : State) : Option State :=
  match op with
  | .alloc addr blocks => do
    let domain ← statsZoneAlloc fuel addr blocks s.domain
    some { s with domain }
  | .detach addr => do
    let (zone, domain) ← statsZoneDetach addr s.domain
    some { domain, detached := s.detached ++ [(addr, zone)] }
  | .attach addr => do
    let zone ← s.detached.lookup addr
    let domain ← statsZoneAttach fuel addr zone s.domain
    some { domain, detached := s.detached.filter fun z => z.1 ≠ addr }
  | .free addr => some { s with detached := s.detached.filter fun z => z.1 ≠ addr }

def run (fuel : Nat) (ops : List Op) (s : State) : Option State :=
  ops.foldlM (fun s op => op.apply fuel s) s

-- What is attached, in the order in which it was, and what is detached. Each zone is told by what it
-- has been allocated for.
structure Tracked where
  attached : List (Nat × List (List StatsMetric))
  detached : List (Nat × List (List StatsMetric))
  deriving DecidableEq, Repr

-- A new zone gets an address that no other one has, a zone is detached while it is attached, and
-- attached again or freed while it is detached.
def Op.track (op : Op) (t : Tracked) : Option Tracked :=
  match op with
  | .alloc addr blocks =>
    if addr ∈ (t.attached ++ t.detached).map Prod.fst then
      none
    else
      some { t with attached := t.attached ++ [(addr, blocks)] }
  | .detach addr => do
    let blocks ← t.attached.lookup addr
    some {
      attached := t.attached.filter fun z => z.1 ≠ addr
      detached := t.detached ++ [(addr, blocks)] }
  | .attach addr => do
    let blocks ← t.detached.lookup addr
    some {
      attached := t.attached ++ [(addr, blocks)]
      detached := t.detached.filter fun z => z.1 ≠ addr }
  | .free addr => do
    let _ ← t.detached.lookup addr
    some { t with detached := t.detached.filter fun z => z.1 ≠ addr }

def track (ops : List Op) : Option Tracked :=
  ops.foldlM (fun t op => op.track t) { attached := [], detached := [] }

-- What the zones are allocated for
def Op.zones (op : Op) : List (List (List StatsMetric)) :=
  match op with
  | .alloc _ blocks => [blocks]
  | _ => []

def allocated (ops : List Op) : List (List (List StatsMetric)) := ops.flatMap Op.zones

-- There are fewer than `n` blocks, fewer metrics in each of them, and fewer elements in each of these
def Within (n : Nat) (blocks : List (List StatsMetric)) : Prop :=
  blocks.length < n ∧ ∀ metrics ∈ blocks, metrics.length < n ∧
    ∀ metric ∈ metrics, metric.elements.length < n

instance (n : Nat) (blocks : List (List StatsMetric)) : Decidable (Within n blocks) :=
  inferInstanceAs (Decidable (_ ∧ _))

-- What the loops can count, and how far they get
def CountedZone (fuel : Nat) (blocks : List (List StatsMetric)) : Prop :=
  Within (2 ^ 32) blocks ∧ Within fuel blocks

-- The numbers of values are those of what is attached, and a buffer is filled with the first of the
-- values. The domain is left as it is, its references to zones included.
structure Booked (t : Tracked) (s : State) : Prop where
  attached_eq : (s.domain.zones.map fun z => (z.1, z.2.metrics)) = t.attached
  detached_eq : (s.detached.map fun z => (z.1, z.2.metrics)) = t.detached
  domain_nvalues : s.domain.nvalues = UInt64.ofNat s.domain.total
  zone_nvalues : ∀ z ∈ s.domain.zones, z.2.nvalues = UInt64.ofNat z.2.total
  block_nvalues : ∀ z ∈ s.domain.zones, ∀ blk ∈ z.2.blocks, blk.nvalues = UInt64.ofNat blk.total
  detached_nvalues : ∀ z ∈ s.detached, z.2.nvalues = 0 ∧ ∀ blk ∈ z.2.blocks, blk.nvalues = 0
  domain_values : ∀ (values : List StatsMetricValue) (nvalues : Nat), nvalues ≤ values.length →
    ∀ fuel, s.domain.zones.length < fuel →
      statsDomainGetValues fuel s.domain values nvalues =
        some (min nvalues s.domain.total,
          Buffer.overwrite values 0 (s.domain.values.take nvalues), s.domain)
  zone_values : ∀ z ∈ s.domain.zones, ∀ (values : List StatsMetricValue) (nvalues : Nat),
    nvalues ≤ values.length →
      statsZoneGetValues z.2 values 0 nvalues =
        some (min nvalues z.2.total, Buffer.overwrite values 0 (z.2.values.take nvalues))

-- A zone that is not attached counts nothing
structure Zone.Idle (zone : Zone) : Prop where
  nvalues : zone.nvalues = 0
  block : ∀ blk ∈ zone.blocks, blk.nvalues = 0

section Zones

variable {fuel addr : Nat} {domain : Domain} {zone : Zone}

def Zone.attached (zone : Zone) : Zone :=
  { zone with blocks := zone.blocks.map Block.attached, nvalues := UInt64.ofNat zone.total }

def Zone.detached (zone : Zone) : Zone :=
  { zone with blocks := zone.blocks.map Block.detached, nvalues := 0 }

theorem Zone.accounted_attached (h : zone.refCount = 1) : zone.attached.Accounted := by
  constructor
  . unfold attached total
    rw [List.map_map]
    rfl
  . intro blk hmem
    obtain ⟨blk', _, rfl⟩ := List.mem_map.mp hmem
    rfl
  . exact h

theorem Zone.idle_detached (zone : Zone) : zone.detached.Idle := by
  constructor
  . rfl
  . intro blk hmem
    obtain ⟨blk', -, rfl⟩ := List.mem_map.mp hmem
    rfl

@[simp]
theorem Zone.metrics_attached (zone : Zone) : zone.attached.metrics = zone.metrics := by
  unfold attached metrics
  rw [List.map_map]
  rfl

@[simp]
theorem Zone.metrics_detached (zone : Zone) : zone.detached.metrics = zone.metrics := by
  unfold detached metrics
  rw [List.map_map]
  rfl

theorem statsZoneAttach_eq (hidle : zone.Idle)
    (hcount : ∀ metrics ∈ zone.metrics, ∀ metric ∈ metrics, Counted fuel metric)
    : statsZoneAttach fuel addr zone domain =
        some {
          zones := domain.zones ++ [(addr, zone.attached)]
          nvalues := domain.nvalues + zone.attached.nvalues } := by
  have hblocks : ∀ blk ∈ zone.blocks, ∀ metric ∈ blk.metrics, Counted fuel metric :=
    fun blk hblk => hcount blk.metrics (List.mem_map_of_mem hblk)
  unfold statsZoneAttach
  rw [attachBlocks_eq hblocks hidle.block, hidle.nvalues, UInt64.zero_add]
  rfl

theorem lt_of_statsZoneAttach {domain' : Domain}
    (h : statsZoneAttach fuel addr zone domain = some domain')
    : ∀ metrics ∈ zone.metrics, ∀ metric ∈ metrics, metric.elements.length < 2 ^ 32 := by
  obtain ⟨out, hblocks, -⟩ := Option.bind_eq_some_iff.mp h
  intro metrics hmetrics
  obtain ⟨blk, hblk, rfl⟩ := List.mem_map.mp hmetrics
  exact lt_of_attachBlocks hblocks blk hblk

theorem Domain.Accounted.append (hd : domain.Accounted) (hz : zone.Accounted)
    (h : addr ∉ domain.zones.map Prod.fst)
    : Domain.Accounted {
        zones := domain.zones ++ [(addr, zone)], nvalues := domain.nvalues + zone.nvalues } := by
  constructor
  . simp only [List.map_append, List.map_cons, List.map_nil]
    rw [List.nodup_append]
    refine ⟨hd.nodup, by simp, ?_⟩
    intro a ha b hb
    rw [List.mem_singleton.mp hb]
    rintro rfl
    exact h ha
  . intro z hmem
    rcases List.mem_append.mp hmem with hmem | hmem
    . exact hd.zone z hmem
    . rw [List.mem_singleton.mp hmem]
      exact hz
  . unfold Domain.total
    simp only [List.map_append, List.map_cons, List.map_nil, List.sum_append, List.sum_singleton,
      UInt64.ofNat_add]
    rw [hd.nvalues, hz.nvalues]
    rfl

theorem modifyZone_append (hnot : addr ∉ domain.zones.map Prod.fst) (f : Zone → Zone)
    (nvalues : UInt64)
    : modifyZone { zones := domain.zones ++ [(addr, zone)], nvalues } addr f =
        { zones := domain.zones ++ [(addr, f zone)], nvalues } := by
  have hmap : (domain.zones.map fun z => if z.1 = addr then (z.1, f z.2) else z) =
      domain.zones := by
    rw [List.map_congr_left (g := id)]
    . exact List.map_id _
    . intro z hz
      apply if_neg
      rintro rfl
      exact hnot (List.mem_map_of_mem hz)
  unfold modifyZone
  simp only [List.map_append, hmap, List.map_cons, if_true, List.map_nil]

-- The zone that is allocated, with the reference that the caller gets
def allocatedZone (blocks : List (List StatsMetric)) : Zone :=
  Zone.attached {
    blocks := blocks.map fun metrics => { metrics, nvalues := 0 }
    nvalues := 0
    refCount := 1 }

@[simp]
theorem metrics_allocatedZone (blocks : List (List StatsMetric))
    : (allocatedZone blocks).metrics = blocks := by
  unfold allocatedZone
  rw [Zone.metrics_attached, Zone.metrics, List.map_map]
  exact List.map_id blocks

theorem CountedZone.counted {blocks : List (List StatsMetric)} (h : CountedZone fuel blocks)
    : ∀ metrics ∈ blocks, ∀ metric ∈ metrics, Counted fuel metric :=
  fun metrics hmetrics metric hmetric =>
    ⟨(h.1.2 metrics hmetrics).2 metric hmetric, (h.2.2 metrics hmetrics).2 metric hmetric⟩

theorem statsBlockAlloc_eq {metrics : List StatsMetric} (hlt : metrics.length < 2 ^ 32)
    (hfuel : metrics.length < fuel)
    : statsBlockAlloc fuel metrics = some { metrics, nvalues := 0 } := by
  have hstep : ∀ (n : UInt32) metric done (blk : Block), metrics[n.toNat]? = some metric →
      blk = { metrics := done, nvalues := 0 } →
      ∃ blk', allocMetric metrics n blk = some blk' ∧
        blk' = { metrics := done ++ [metric], nvalues := 0 } := by
    rintro n metric done _ hmetric rfl
    refine ⟨_, ?_, rfl⟩
    unfold allocMetric
    rw [hmetric]
    rfl
  obtain ⟨blk, hloop, rfl⟩ := CountedLoop.exists_loop_items hlt
    (fun done (blk : Block) => blk = { metrics := done, nvalues := 0 }) rfl hstep hfuel
  exact hloop

theorem metrics_of_statsBlockAlloc {metrics : List StatsMetric} {blk : Block}
    (h : statsBlockAlloc fuel metrics = some blk)
    : metrics.length < 2 ^ 32 ∧ blk.metrics = metrics := by
  refine CountedLoop.inv_of_loop_items (fun done (blk : Block) => blk.metrics = done) rfl ?_ h
  intro n metric done blk blk' hmetric hblk hbody
  unfold allocMetric at hbody
  rw [hmetric] at hbody
  cases hbody
  rw [← hblk]

def unattachedZone (blocks : List (List StatsMetric)) : Zone :=
  { blocks := blocks.map fun metrics => { metrics, nvalues := 0 }, nvalues := 0, refCount := 0 }

theorem metrics_unattachedZone (blocks : List (List StatsMetric))
    : (unattachedZone blocks).metrics = blocks := by
  unfold unattachedZone Zone.metrics
  rw [List.map_map]
  exact List.map_id blocks

theorem idle_unattachedZone (blocks : List (List StatsMetric)) : (unattachedZone blocks).Idle := by
  refine ⟨rfl, ?_⟩
  intro blk hmem
  obtain ⟨metrics, -, rfl⟩ := List.mem_map.mp hmem
  rfl

theorem allocBlocks_eq {blocks : List (List StatsMetric)} (hcount : CountedZone fuel blocks)
    : CountedLoop.loop blocks.length (allocBlock fuel blocks) fuel 0
        { blocks := [], nvalues := 0, refCount := 0 } = some (unattachedZone blocks) := by
  have hstep : ∀ (n : UInt32) metrics done (zone : Zone), blocks[n.toNat]? = some metrics →
      zone = unattachedZone done →
      ∃ zone', allocBlock fuel blocks n zone = some zone' ∧
        zone' = unattachedZone (done ++ [metrics]) := by
    rintro n metrics done _ hmetrics rfl
    have hmem := List.mem_of_getElem? hmetrics
    refine ⟨_, ?_, rfl⟩
    unfold allocBlock
    rw [hmetrics, Option.bind_eq_bind, Option.bind_some,
      statsBlockAlloc_eq (hcount.1.2 metrics hmem).1 (hcount.2.2 metrics hmem).1]
    simp [unattachedZone]
  obtain ⟨_, hloop, rfl⟩ := CountedLoop.exists_loop_items hcount.1.1
    (fun done (zone : Zone) => zone = unattachedZone done) rfl hstep hcount.2.1
  exact hloop

theorem statsZoneAlloc_eq {blocks : List (List StatsMetric)}
    (hnot : addr ∉ domain.zones.map Prod.fst) (hcount : CountedZone fuel blocks)
    : statsZoneAlloc fuel addr blocks domain =
        some {
          zones := domain.zones ++ [(addr, allocatedZone blocks)]
          nvalues := domain.nvalues + (allocatedZone blocks).nvalues } := by
  have hattach := @statsZoneAttach_eq fuel addr domain _ (idle_unattachedZone blocks) (by
    rw [metrics_unattachedZone]
    exact hcount.counted)
  unfold statsZoneAlloc
  rw [allocBlocks_eq hcount, Option.bind_eq_bind, Option.bind_some, hattach, Option.bind_eq_bind,
    Option.bind_some]
  unfold statsZoneGet
  simp only [modifyZone_append hnot]
  rfl

-- A zone that cannot be counted is never attached
theorem within_of_statsZoneAlloc {blocks : List (List StatsMetric)} {domain' : Domain}
    (h : statsZoneAlloc fuel addr blocks domain = some domain')
    : Within (2 ^ 32) blocks := by
  obtain ⟨zone, hloop, h⟩ := Option.bind_eq_some_iff.mp h
  obtain ⟨_, hattach, -⟩ := Option.bind_eq_some_iff.mp h
  obtain ⟨hlt, hmetrics, hall⟩ := CountedLoop.inv_of_loop_items
    (fun done (zone : Zone) => zone.metrics = done ∧ ∀ metrics ∈ done, metrics.length < 2 ^ 32)
    ⟨rfl, List.forall_mem_nil _⟩
    (fun n metrics done zone zone' hmetrics hinv hbody => by
      obtain ⟨_, hget, hbody⟩ := Option.bind_eq_some_iff.mp hbody
      obtain rfl := Option.some.inj (hmetrics.symm.trans hget)
      obtain ⟨blk, hblk, hbody⟩ := Option.bind_eq_some_iff.mp hbody
      cases hbody
      obtain ⟨hlt, heq⟩ := metrics_of_statsBlockAlloc hblk
      refine ⟨?_, ?_⟩
      . unfold Zone.metrics
        rw [List.map_append, List.map_singleton, heq, ← hinv.1]
        rfl
      . exact List.forall_mem_append.mpr ⟨hinv.2, List.forall_mem_singleton.mpr hlt⟩) hloop
  refine ⟨hlt, fun metrics hmem => ⟨hall metrics hmem, ?_⟩⟩
  rw [← hmetrics] at hmem
  exact lt_of_statsZoneAttach hattach metrics hmem

-- What is left when a zone is taken out
theorem perm_filter {α : Type} {l : List (Nat × α)} {x : α} (hnodup : (l.map Prod.fst).Nodup)
    (h : (addr, x) ∈ l)
    : l.Perm ((addr, x) :: l.filter fun z => z.1 ≠ addr) := by
  obtain ⟨before, after, rfl⟩ := List.append_of_mem h
  rw [List.map_append, List.map_cons, List.nodup_append, List.nodup_cons] at hnodup
  obtain ⟨-, ⟨hafter, -⟩, hbefore⟩ := hnodup
  have hkeep : ∀ l : List (Nat × α), addr ∉ l.map Prod.fst →
      l.filter (fun z => decide (z.1 ≠ addr)) = l := by
    intro l hl
    rw [List.filter_eq_self]
    intro z hz
    simp only [ne_eq, decide_not, Bool.not_eq_true', decide_eq_false_iff_not]
    rintro rfl
    exact hl (List.mem_map_of_mem hz)
  have hnot : addr ∉ before.map Prod.fst := by
    intro hmem
    exact hbefore addr hmem addr List.mem_cons_self rfl
  rw [List.filter_append, hkeep before hnot, List.filter_cons_of_neg (by simp), hkeep after hafter]
  exact List.perm_middle

theorem statsZoneDetach_eq (hd : domain.Accounted) (hlookup : domain.zones.lookup addr = some zone)
    : statsZoneDetach addr domain =
        some (zone.detached, {
          zones := domain.zones.filter fun z => z.1 ≠ addr
          nvalues := domain.nvalues - zone.nvalues }) := by
  have hzone := hd.zone _ (mem_of_lookup hlookup)
  unfold statsZoneDetach
  rw [hlookup, Option.bind_eq_bind, Option.bind_some, detachBlocks_eq hzone.block, hzone.nvalues]
  simp only [Option.some.injEq, Prod.mk.injEq, and_true]
  unfold Zone.detached Zone.total
  rw [UInt64.sub_self]

theorem Domain.Accounted.filter (hd : domain.Accounted)
    (hlookup : domain.zones.lookup addr = some zone)
    : Domain.Accounted {
        zones := domain.zones.filter fun z => z.1 ≠ addr
        nvalues := domain.nvalues - zone.nvalues } := by
  have hmem := mem_of_lookup hlookup
  constructor
  . exact hd.nodup.sublist (List.filter_sublist.map Prod.fst)
  . intro z hz
    exact hd.zone z (List.mem_filter.mp hz).1
  . simp only
    have hsum := ((perm_filter hd.nodup hmem).map fun z => z.2.total).sum_eq
    rw [List.map_cons, List.sum_cons] at hsum
    unfold Domain.total
    rw [hd.nvalues, (hd.zone _ hmem).nvalues, Domain.total, hsum, UInt64.ofNat_add]
    simp only
    grind

end Zones

-- All zones, and what the loops have to count in them
def Tracked.zones (t : Tracked) : List (Nat × List (List StatsMetric)) := t.attached ++ t.detached

structure Tracked.Counted (fuel : Nat) (t : Tracked) : Prop where
  nodup : (t.zones.map Prod.fst).Nodup
  counted : ∀ z ∈ t.zones, ∀ metrics ∈ z.2, ∀ metric ∈ metrics, StatsValues.Counted fuel metric

-- The invariant: the state is what has been tracked
structure Follows (t : Tracked) (s : State) : Prop where
  attached_eq : (s.domain.zones.map fun z => (z.1, z.2.metrics)) = t.attached
  detached_eq : (s.detached.map fun z => (z.1, z.2.metrics)) = t.detached
  accounted : s.domain.Accounted
  idle : ∀ z ∈ s.detached, z.2.Idle ∧ z.2.refCount = 1

section Track

variable {fuel addr : Nat} {t t' : Tracked}

theorem mem_of_lookup_tracked {α : Type} {l : List (Nat × α)} {x : α}
    (h : l.lookup addr = some x)
    : (addr, x) ∈ l := by
  obtain ⟨before, after, rfl, -⟩ := List.lookup_eq_some_iff.mp h
  simp

theorem Tracked.Counted.of_perm (h : t.Counted fuel) (hperm : t'.zones.Perm t.zones)
    : t'.Counted fuel := by
  constructor
  . exact (hperm.map Prod.fst).nodup_iff.mpr h.nodup
  . intro z hz
    exact h.counted z (hperm.mem_iff.mp hz)

theorem Tracked.Counted.track_alloc (h : t.Counted fuel) {blocks : List (List StatsMetric)}
    (htrack : (Op.alloc addr blocks).track t = some t') (hcount : CountedZone fuel blocks)
    : t'.Counted fuel := by
  obtain ⟨hnot, heq⟩ := Option.ite_none_left_eq_some.mp htrack
  cases heq
  have hperm : (t.attached ++ [(addr, blocks)] ++ t.detached).Perm ((addr, blocks) :: t.zones) := by
    rw [List.append_assoc, List.singleton_append]
    exact List.perm_middle
  constructor
  . exact (hperm.map Prod.fst).nodup_iff.mpr (List.nodup_cons.mpr ⟨hnot, h.nodup⟩)
  . intro z hz
    rcases List.mem_cons.mp (hperm.mem_iff.mp hz) with rfl | hz
    . exact hcount.counted
    . exact h.counted z hz

theorem Tracked.Counted.track_detach (h : t.Counted fuel)
    (htrack : (Op.detach addr).track t = some t')
    : t'.Counted fuel := by
  obtain ⟨blocks, hlookup, heq⟩ := Option.bind_eq_some_iff.mp htrack
  cases heq
  have hnodup : (t.attached.map Prod.fst).Nodup :=
    h.nodup.sublist ((List.sublist_append_left _ _).map Prod.fst)
  apply h.of_perm
  unfold zones
  rw [← List.append_assoc]
  exact (List.perm_append_singleton _ _).trans
    ((perm_filter hnodup (mem_of_lookup_tracked hlookup)).symm.append_right t.detached)

theorem Tracked.Counted.track_attach (h : t.Counted fuel)
    (htrack : (Op.attach addr).track t = some t')
    : t'.Counted fuel := by
  obtain ⟨blocks, hlookup, heq⟩ := Option.bind_eq_some_iff.mp htrack
  cases heq
  have hnodup : (t.detached.map Prod.fst).Nodup :=
    h.nodup.sublist ((List.sublist_append_right _ _).map Prod.fst)
  apply h.of_perm
  unfold zones
  rw [List.append_assoc, List.singleton_append]
  exact (perm_filter hnodup (mem_of_lookup_tracked hlookup)).symm.append_left t.attached

theorem Tracked.Counted.track_free (h : t.Counted fuel) (htrack : (Op.free addr).track t = some t')
    : t'.Counted fuel := by
  obtain ⟨blocks, -, heq⟩ := Option.bind_eq_some_iff.mp htrack
  cases heq
  have hsub : (t.attached ++ t.detached.filter fun z => z.1 ≠ addr).Sublist t.zones :=
    List.filter_sublist.append_left t.attached
  exact ⟨h.nodup.sublist (hsub.map Prod.fst), fun z hz => h.counted z (hsub.subset hz)⟩

theorem Tracked.Counted.track (h : t.Counted fuel) {op : Op} (htrack : op.track t = some t')
    (hcount : ∀ blocks ∈ op.zones, CountedZone fuel blocks)
    : t'.Counted fuel := by
  cases op with
  | alloc addr blocks => exact h.track_alloc htrack (hcount blocks List.mem_cons_self)
  | detach addr => exact h.track_detach htrack
  | attach addr => exact h.track_attach htrack
  | free addr => exact h.track_free htrack

end Track

section Steps

variable {fuel addr : Nat} {t t' : Tracked} {s s' : State}

theorem lookup_map_snd {α β : Type} (l : List (Nat × α)) (f : α → β)
    : (l.map fun z => (z.1, f z.2)).lookup addr = (l.lookup addr).map f := by
  induction l with
  | nil => rfl
  | cons z l ih =>
    obtain ⟨a, x⟩ := z
    simp only [List.map_cons, List.lookup_cons]
    cases addr == a <;> simp [ih]

theorem filter_map_fst {α β : Type} (l : List (Nat × α)) (f : α → β)
    : (l.filter fun z => z.1 ≠ addr).map (fun z => (z.1, f z.2)) =
        (l.map fun z => (z.1, f z.2)).filter fun z => z.1 ≠ addr := by
  rw [List.filter_map]
  rfl

theorem addrs_eq {zones : List (Nat × Zone)} {tracked : List (Nat × List (List StatsMetric))}
    (h : (zones.map fun z => (z.1, z.2.metrics)) = tracked)
    : zones.map Prod.fst = tracked.map Prod.fst := by
  rw [← h, List.map_map]
  rfl

-- A zone that is tracked is there
theorem exists_zone {zones : List (Nat × Zone)} {tracked : List (Nat × List (List StatsMetric))}
    (h : (zones.map fun z => (z.1, z.2.metrics)) = tracked) {blocks : List (List StatsMetric)}
    (hlookup : tracked.lookup addr = some blocks)
    : ∃ zone, zones.lookup addr = some zone ∧ zone.metrics = blocks := by
  rw [← h, lookup_map_snd (f := Zone.metrics)] at hlookup
  exact Option.map_eq_some_iff.mp hlookup

theorem Follows.alloc (h : Follows t s) {blocks : List (List StatsMetric)}
    (htrack : (Op.alloc addr blocks).track t = some t') (hcount : CountedZone fuel blocks)
    : ∃ s', (Op.alloc addr blocks).apply fuel s = some s' ∧ Follows t' s' := by
  obtain ⟨hnot, heq⟩ := Option.ite_none_left_eq_some.mp htrack
  cases heq
  have hnew : addr ∉ s.domain.zones.map Prod.fst := by
    rw [addrs_eq h.attached_eq]
    rw [List.map_append, List.mem_append, not_or] at hnot
    exact hnot.1
  have halloc := @statsZoneAlloc_eq fuel addr s.domain blocks hnew hcount
  refine ⟨_, by unfold Op.apply; simp only; rw [halloc]; rfl, ?_⟩
  refine ⟨?_, h.detached_eq, h.accounted.append (Zone.accounted_attached rfl) hnew, h.idle⟩
  simp only [List.map_append, List.map_cons, List.map_nil, metrics_allocatedZone, h.attached_eq]

theorem Follows.detach (h : Follows t s) (htrack : (Op.detach addr).track t = some t')
    : ∃ s', (Op.detach addr).apply fuel s = some s' ∧ Follows t' s' := by
  obtain ⟨blocks, hblocks, heq⟩ := Option.bind_eq_some_iff.mp htrack
  cases heq
  obtain ⟨zone, hlookup, rfl⟩ := exists_zone h.attached_eq hblocks
  refine ⟨_, by unfold Op.apply; simp only; rw [statsZoneDetach_eq h.accounted hlookup]; rfl, ?_⟩
  refine ⟨?_, ?_, h.accounted.filter hlookup, ?_⟩
  . simp only
    rw [filter_map_fst, h.attached_eq]
  . simp only [List.map_append, List.map_cons, List.map_nil, Zone.metrics_detached, h.detached_eq]
  . intro z hz
    rcases List.mem_append.mp hz with hz | hz
    . exact h.idle z hz
    . rw [List.mem_singleton.mp hz]
      exact ⟨zone.idle_detached, (h.accounted.zone _ (mem_of_lookup hlookup)).refCount⟩

theorem Follows.attach (h : Follows t s) (ht : t.Counted fuel)
    (htrack : (Op.attach addr).track t = some t')
    : ∃ s', (Op.attach addr).apply fuel s = some s' ∧ Follows t' s' := by
  obtain ⟨blocks, hblocks, heq⟩ := Option.bind_eq_some_iff.mp htrack
  cases heq
  obtain ⟨zone, hlookup, rfl⟩ := exists_zone h.detached_eq hblocks
  have hmem := mem_of_lookup_tracked hlookup
  have hmem' := mem_of_lookup_tracked hblocks
  obtain ⟨hidle, hrefs⟩ := h.idle _ hmem
  -- an address is attached or detached
  have hnew : addr ∉ s.domain.zones.map Prod.fst := by
    rw [addrs_eq h.attached_eq]
    have hnodup := ht.nodup
    unfold Tracked.zones at hnodup
    rw [List.map_append, List.nodup_append] at hnodup
    intro hattached
    exact hnodup.2.2 addr hattached addr (List.mem_map_of_mem hmem') rfl
  have hattach := @statsZoneAttach_eq fuel addr s.domain zone hidle
    (ht.counted _ (List.mem_append_right _ hmem'))
  refine ⟨_, by
    unfold Op.apply
    simp only
    rw [hlookup, Option.bind_eq_bind, Option.bind_some, hattach]
    rfl, ?_⟩
  refine ⟨?_, ?_, h.accounted.append (Zone.accounted_attached hrefs) hnew, ?_⟩
  . simp only [List.map_append, List.map_cons, List.map_nil, Zone.metrics_attached, h.attached_eq]
  . simp only
    rw [filter_map_fst, h.detached_eq]
  . intro z hz
    exact h.idle z (List.mem_filter.mp hz).1

theorem Follows.free (h : Follows t s) (htrack : (Op.free addr).track t = some t')
    : ∃ s', (Op.free addr).apply fuel s = some s' ∧ Follows t' s' := by
  obtain ⟨blocks, -, heq⟩ := Option.bind_eq_some_iff.mp htrack
  cases heq
  refine ⟨_, rfl, h.attached_eq, ?_, h.accounted, ?_⟩
  . simp only
    rw [filter_map_fst, h.detached_eq]
  . intro z hz
    exact h.idle z (List.mem_filter.mp hz).1

theorem Follows.step (h : Follows t s) (ht : t.Counted fuel) {op : Op}
    (htrack : op.track t = some t') (hcount : ∀ blocks ∈ op.zones, CountedZone fuel blocks)
    : ∃ s', op.apply fuel s = some s' ∧ Follows t' s' := by
  cases op with
  | alloc addr blocks => exact h.alloc htrack (hcount blocks List.mem_cons_self)
  | detach addr => exact h.detach htrack
  | attach addr => exact h.attach ht htrack
  | free addr => exact h.free htrack

theorem Follows.run (h : Follows t s) (ht : t.Counted fuel) {ops : List Op}
    (htrack : ops.foldlM (fun t op => op.track t) t = some t')
    (hcount : ∀ blocks ∈ allocated ops, CountedZone fuel blocks)
    : ∃ s', run fuel ops s = some s' ∧ Follows t' s' := by
  unfold StatsValues.run
  induction ops generalizing t s with
  | nil =>
    cases htrack
    exact ⟨s, rfl, h⟩
  | cons op ops ih =>
    rw [List.foldlM_cons] at htrack
    obtain ⟨t₁, htrack₁, htrack⟩ := Option.bind_eq_some_iff.mp htrack
    have hop : ∀ blocks ∈ op.zones, CountedZone fuel blocks :=
      fun blocks hmem => hcount blocks (List.mem_flatMap.mpr ⟨op, List.mem_cons_self, hmem⟩)
    have hops : ∀ blocks ∈ allocated ops, CountedZone fuel blocks := by
      intro blocks hmem
      obtain ⟨op', hop', hmem⟩ := List.mem_flatMap.mp hmem
      exact hcount blocks (List.mem_flatMap.mpr ⟨op', List.mem_cons_of_mem _ hop', hmem⟩)
    obtain ⟨s₁, happly, h₁⟩ := h.step ht htrack₁ hop
    obtain ⟨s', hrun, h'⟩ := ih h₁ (ht.track htrack₁ hop) htrack hops
    refine ⟨s', ?_, h'⟩
    rw [List.foldlM_cons, happly]
    exact hrun

theorem within_of_apply {op : Op} (h : op.apply fuel s = some s')
    : ∀ blocks ∈ op.zones, Within (2 ^ 32) blocks := by
  cases op with
  | alloc addr blocks =>
    obtain ⟨_, halloc, -⟩ := Option.bind_eq_some_iff.mp h
    exact List.forall_mem_singleton.mpr (within_of_statsZoneAlloc halloc)
  | detach addr => exact List.forall_mem_nil _
  | attach addr => exact List.forall_mem_nil _
  | free addr => exact List.forall_mem_nil _

theorem within_of_run {ops : List Op} (h : run fuel ops s = some s')
    : ∀ blocks ∈ allocated ops, Within (2 ^ 32) blocks := by
  unfold run at h
  induction ops generalizing s with
  | nil => exact List.forall_mem_nil _
  | cons op ops ih =>
    rw [List.foldlM_cons] at h
    obtain ⟨s₁, happly, hrest⟩ := Option.bind_eq_some_iff.mp h
    intro blocks hmem
    obtain ⟨op', hop', hblocks⟩ := List.mem_flatMap.mp hmem
    rcases List.mem_cons.mp hop' with rfl | hop'
    . exact within_of_apply happly blocks hblocks
    . exact ih hrest blocks (List.mem_flatMap.mpr ⟨op', hop', hblocks⟩)

theorem Follows.booked (h : Follows t s) : Booked t s where
  attached_eq := h.attached_eq
  detached_eq := h.detached_eq
  domain_nvalues := h.accounted.nvalues
  zone_nvalues := fun z hz => (h.accounted.zone z hz).nvalues
  block_nvalues := fun z hz => (h.accounted.zone z hz).block
  detached_nvalues := fun z hz => ⟨(h.idle z hz).1.nvalues, (h.idle z hz).1.block⟩
  domain_values := by
    intro values nvalues hsize fuel hfuel
    have hloop := getValuesLoop_eq h.accounted [] s.domain.zones rfl fuel hfuel values nvalues 0
      (Nat.zero_le _) hsize
    rw [Nat.zero_add, Nat.sub_zero] at hloop
    rw [← s.domain.length_values]
    exact hloop
  zone_values := by
    intro z _ values nvalues hsize
    rw [← Zone.length_values]
    apply fills_statsZone
    omega

theorem follows_empty : Follows { attached := [], detached := [] } empty := by
  refine ⟨rfl, rfl, ?_, List.forall_mem_nil _⟩
  constructor
  . exact List.nodup_nil
  . exact List.forall_mem_nil _
  . rfl

end Steps

-- How often the loops are passed through at most
def loopSize (blocks : List (List StatsMetric)) : Nat :=
  blocks.length + (blocks.map List.length).sum +
    (blocks.flatten.map fun metric => metric.elements.length).sum

theorem within_of_loopSize_lt {n : Nat} {blocks : List (List StatsMetric)} (h : loopSize blocks < n)
    : Within n blocks := by
  unfold loopSize at h
  refine ⟨by omega, fun metrics hmetrics => ⟨?_, fun metric hmetric => ?_⟩⟩
  . have hle := List.le_sum_of_mem (List.mem_map_of_mem (f := List.length) hmetrics)
    omega
  . have hmem := List.mem_flatten.mpr ⟨metrics, hmetrics, hmetric⟩
    have hle := List.le_sum_of_mem
      (List.mem_map_of_mem (f := fun metric : StatsMetric => metric.elements.length) hmem)
    omega

-- After any zones have been attached and detached, the numbers of values are those of what is
-- attached, unless an `unsigned int` cannot count the blocks, metrics or elements of a zone
theorem run_values_iff {ops : List Op} {t : Tracked} (htrack : track ops = some t)
    : (∃ least, ∀ fuel ≥ least, ∃ s, run fuel ops empty = some s ∧ Booked t s) ↔
        ∀ blocks ∈ allocated ops, Within (2 ^ 32) blocks := by
  constructor
  . rintro ⟨least, h⟩
    obtain ⟨s, hrun, -⟩ := h least (Nat.le_refl least)
    exact within_of_run hrun
  . intro hwithin
    refine ⟨((allocated ops).map loopSize).sum + 1, ?_⟩
    intro fuel hfuel
    have hcount : ∀ blocks ∈ allocated ops, CountedZone fuel blocks := by
      intro blocks hmem
      have hle := List.le_sum_of_mem (List.mem_map_of_mem (f := loopSize) hmem)
      exact ⟨hwithin blocks hmem, within_of_loopSize_lt (by omega)⟩
    obtain ⟨s, hrun, h⟩ := follows_empty.run ⟨List.nodup_nil, List.forall_mem_nil _⟩ htrack hcount
    exact ⟨s, hrun, h.booked⟩

-- A metric of two elements
def twoElements : StatsMetric :=
  { spec := { name := [], nelements := 2, type := .counter, flags := 4, initValue := 0 }
    elements := [⟨⟨1, []⟩, 1⟩, ⟨⟨2, []⟩, 2⟩]
    elements_ne := by simp }

-- Of two zones the first one is detached and attached again, so that it comes last
def reattached : List Op :=
  [.alloc 0 [[twoElements]], .alloc 1 [[], [twoElements]], .detach 0, .attach 0, .detach 1]

theorem run_values_reattached
    : ∃ least, ∀ fuel ≥ least, ∃ s, run fuel reattached empty = some s ∧
        Booked { attached := [(0, [[twoElements]])], detached := [(1, [[], [twoElements]])] } s := by
  have htrack : track reattached =
      some { attached := [(0, [[twoElements]])], detached := [(1, [[], [twoElements]])] } := by
    decide
  exact (run_values_iff htrack).mpr (by decide)

-- An array whose elements an `unsigned int` cannot count
theorem exists_hugeArray : ∃ metric : StatsMetric, metric.elements.length = 2 ^ 32 := by
  have hne : List.replicate (2 ^ 32) (StatsMetricElement.mk ⟨0, []⟩ 0) ≠ [] := by
    rw [Ne, List.replicate_eq_nil_iff]
    decide
  exact ⟨⟨⟨[], 2 ^ 32, .counter, 4, 0⟩, _, hne⟩, List.length_replicate⟩

theorem not_booked_hugeArray
    : ∃ metric : StatsMetric, metric.elements.length = 2 ^ 32 ∧
        track [.alloc 0 [[metric]]] = some { attached := [(0, [[metric]])], detached := [] } ∧
        ¬ ∃ least, ∀ fuel ≥ least, ∃ s, run fuel [.alloc 0 [[metric]]] empty = some s ∧
          Booked { attached := [(0, [[metric]])], detached := [] } s := by
  obtain ⟨metric, hlen⟩ := exists_hugeArray
  refine ⟨metric, hlen, rfl, ?_⟩
  rintro ⟨least, h⟩
  obtain ⟨s, hrun, -⟩ := h least (Nat.le_refl least)
  have hlt := ((within_of_run hrun [[metric]] List.mem_cons_self).2 _ List.mem_cons_self).2 metric
    List.mem_cons_self
  omega

end StatsValues
