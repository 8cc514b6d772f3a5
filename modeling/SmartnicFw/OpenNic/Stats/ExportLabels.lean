import SmartnicFw.OpenNic.Stats.Export

/-!
This module contains what a metric exports: one sample for each of its elements, under the element's
own labels.
-/

namespace StatsExport

section Labels

variable (spec : Spec) (names : Names)

def allLabels : List StatsLabelSpec :=
  defaultStatsLabels ++ (if isArray spec.toStatsMetricSpec then arrayStatsLabels else []) ++
    spec.labels

def publicLabels : List StatsLabelSpec := (allLabels spec).filter (! ·.noExport)

-- The labels of an element that are exported, each key with its value
def ownLabels (n : Nat) : List StatsLabel :=
  (publicLabels spec).map fun lspec =>
    { key := lspec.key, value := labelValue lspec (names.format (UInt32.ofNat n)) }

def tuple (n : Nat) : List (Option Text) := (ownLabels spec names n).map fun label => some label.value

theorem length_allLabels : (allLabels spec).length = nlabels spec := by
  unfold allLabels nlabels
  split
  . simp only [List.length_append]
    omega
  . simp only [List.length_append, List.length_nil]
    omega

theorem nlabels_pos : 0 < nlabels spec := by
  unfold nlabels
  have hdefault : defaultStatsLabels.length = 3 := rfl
  omega

theorem addLabels_eq (lspecs labels : List StatsLabelSpec) (keys : List Text)
    : addLabels lspecs (labels, keys) =
        (labels ++ lspecs, keys ++ (lspecs.filter (! ·.noExport)).map (·.key)) := by
  induction lspecs generalizing labels keys with
  | nil => simp [addLabels]
  | cons lspec lspecs ih =>
    have hcons : addLabels (lspec :: lspecs) (labels, keys) =
        addLabels lspecs (addLabel lspec (labels, keys)) := rfl
    rw [hcons, addLabel, ih]
    cases h : lspec.noExport with
    | true => simp [h]
    | false => simp [h]

theorem addLabels_concat (lspecs : List StatsLabelSpec) (lspec : StatsLabelSpec)
    (s : List StatsLabelSpec × List Text)
    : addLabels (lspecs ++ [lspec]) s = addLabel lspec (addLabels lspecs s) := by
  exact List.foldl_concat ..

end Labels

section Alloc

variable {spec : Spec} {fuel : Nat}

theorem loop_addLabel {lspecs : List StatsLabelSpec} (hlt : lspecs.length < 2 ^ 32)
    (hfuel : lspecs.length < fuel) (s : List StatsLabelSpec × List Text)
    : CountedLoop.loop lspecs.length
        (fun n s => do
          let lspec ← lspecs[n.toNat]?
          some (addLabel lspec s)) fuel 0 s =
        some (addLabels lspecs s) := by
  have hstep : ∀ (n : UInt32) out, n.toNat < lspecs.length →
      out = addLabels (lspecs.take n.toNat) s →
      ∃ out', (do let lspec ← lspecs[n.toNat]?; some (addLabel lspec out)) = some out' ∧
        out' = addLabels (lspecs.take (n.toNat + 1)) s := by
    intro n out hn hout
    refine ⟨_, ?_, rfl⟩
    rw [List.getElem?_eq_getElem hn, List.take_succ_eq_append_getElem hn, addLabels_concat, ← hout]
    rfl
  have hstart : s = addLabels (lspecs.take 0) s := rfl
  obtain ⟨out, hloop, hout⟩ := CountedLoop.exists_loop hlt
    (fun n out => out = addLabels (lspecs.take n) s) hstart hstep hfuel
  rw [hloop, hout, List.take_length]

-- What `stats_metric_alloc` returns
def allocated (spec : Spec) : Metric :=
  { spec := spec.toStatsMetricSpec
    labels := allLabels spec
    nelements := spec.toStatsMetricSpec.numElements
    elements := (List.range spec.toStatsMetricSpec.numElements).map fun n =>
      { u64 := spec.initValue, f64 := 0, last := spec.initValue, labels := n * nlabels spec }
    records := List.replicate (spec.toStatsMetricSpec.numElements * nlabels spec)
      { key := none, value := none }
    gauge := promGaugeNew ((publicLabels spec).map (·.key)) }

theorem statsMetricAlloc_eq (hlt : spec.labels.length < 2 ^ 32) (hfuel : spec.labels.length < fuel)
    : statsMetricAlloc fuel spec = some (allocated spec) := by
  have hall : addLabels spec.labels
      (if isArray spec.toStatsMetricSpec then
        addLabels arrayStatsLabels (addLabels defaultStatsLabels ([], []))
      else
        addLabels defaultStatsLabels ([], [])) =
      (allLabels spec, (publicLabels spec).map (·.key)) := by
    simp only [addLabels_eq]
    unfold publicLabels allLabels
    split
    . simp only [addLabels_eq, List.filter_append, List.map_append, List.nil_append]
    . simp only [addLabels_eq, List.filter_append, List.map_append, List.nil_append,
        List.append_nil]
  unfold statsMetricAlloc
  dsimp only
  rw [loop_addLabel hlt hfuel, hall]
  rfl

theorem statsMetricAlloc_eq_none (hle : 2 ^ 32 ≤ spec.labels.length) (fuel : Nat)
    : statsMetricAlloc fuel spec = none := by
  unfold statsMetricAlloc
  dsimp only
  rw [CountedLoop.loop_eq_none hle]
  rfl

end Alloc

section Attach

variable {spec : Spec} {names : Names} {metric : Metric} {fuel : Nat}

-- The records of the first elements have been filled in, which are one after the other
structure Filled (spec : Spec) (names : Names) (n : Nat) (records : List LabelRecord) : Prop where
  length_eq : records.length = spec.toStatsMetricSpec.numElements * nlabels spec
  record_eq : ∀ k < n, ∀ i < nlabels spec,
    records[k * nlabels spec + i]? =
      (allLabels spec)[i]?.map (labelRecord (names.format (UInt32.ofNat k)))

theorem block_lt {n k i width : Nat} (hk : k < n) (hi : i < width) : k * width + i < n * width := by
  have hle : (k + 1) * width ≤ n * width := Nat.mul_le_mul_right width hk
  rw [Nat.succ_mul] at hle
  omega

theorem Filled.step {records : List LabelRecord} {n : UInt32}
    (h : Filled spec names n.toNat records) (hn : n.toNat < spec.toStatsMetricSpec.numElements)
    : Filled spec names (n.toNat + 1)
        (Buffer.overwrite records (n.toNat * nlabels spec)
          ((allLabels spec).map (labelRecord (names.format n)))) := by
  have hlen : ((allLabels spec).map (labelRecord (names.format n))).length = nlabels spec := by
    rw [List.length_map, length_allLabels]
  have hroom : n.toNat * nlabels spec + nlabels spec ≤ records.length := by
    rw [h.length_eq, ← Nat.succ_mul]
    exact Nat.mul_le_mul_right _ hn
  constructor
  . rw [Buffer.length_overwrite (by omega), h.length_eq]
  . intro k hk i hi
    rcases Nat.lt_succ_iff_lt_or_eq.mp hk with hlt | rfl
    . rw [Buffer.getElem?_overwrite_of_lt (by omega) (block_lt hlt hi), h.record_eq k hlt i hi]
    . rw [Buffer.getElem?_overwrite (by omega) (by omega), List.getElem?_map, UInt32.ofNat_toNat]

-- What holds of a metric from when it is attached on
structure Attached (spec : Spec) (names : Names) (metric : Metric) : Prop where
  spec_eq : metric.spec = spec.toStatsMetricSpec
  labels_eq : metric.labels = allLabels spec
  nelements_eq : metric.nelements = spec.toStatsMetricSpec.numElements
  keys_eq : metric.gauge.keys = (publicLabels spec).map (·.key)
  length_elements : metric.elements.length = spec.toStatsMetricSpec.numElements
  position_eq : ∀ n e, metric.elements[n]? = some e → e.labels = n * nlabels spec
  filled : Filled spec names spec.toStatsMetricSpec.numElements metric.records
  sampled : ∀ vs, (metric.gauge.samples vs).isSome →
    ∃ n < spec.toStatsMetricSpec.numElements, vs = tuple spec names n

theorem position_allocated {n : Nat} {e : Element} (he : (allocated spec).elements[n]? = some e)
    : e.labels = n * nlabels spec := by
  simp only [allocated, List.getElem?_map] at he
  obtain ⟨k, hk, rfl⟩ := Option.map_eq_some_iff.mp he
  obtain ⟨_, rfl⟩ := List.getElem?_eq_some_iff.mp hk
  rw [List.getElem_range]

theorem statsMetricAttach_eq (hlt : spec.toStatsMetricSpec.numElements < 2 ^ 32)
    (hfuel : spec.toStatsMetricSpec.numElements < fuel)
    : ∃ metric, statsMetricAttach fuel names (allocated spec) = some metric ∧
        Attached spec names metric := by
  have hstart : Filled spec names 0 (allocated spec).records := by
    constructor
    . exact List.length_replicate
    . intro k hk
      omega
  have hstep : ∀ (n : UInt32) records, n.toNat < spec.toStatsMetricSpec.numElements →
      Filled spec names n.toNat records →
      ∃ records', (do
          let e ← (allocated spec).elements[n.toNat]?
          some (Buffer.overwrite records e.labels
            ((allocated spec).labels.map (labelRecord (names.format n))))) = some records' ∧
        Filled spec names (n.toNat + 1) records' := by
    intro n records hn hfilled
    have hlen : n.toNat < (allocated spec).elements.length := by
      simpa [allocated] using hn
    refine ⟨_, ?_, hfilled.step hn⟩
    have he := List.getElem?_eq_getElem hlen
    rw [he, Option.bind_eq_bind, Option.bind_some, position_allocated he]
    rfl
  obtain ⟨records, hloop, hfilled⟩ := CountedLoop.exists_loop hlt
    (Filled spec names) hstart hstep hfuel
  refine ⟨{ allocated spec with records := records }, ?_, ?_⟩
  . unfold statsMetricAttach
    rw [show (allocated spec).nelements = spec.toStatsMetricSpec.numElements from rfl, hloop]
    rfl
  . exact {
      spec_eq := rfl
      labels_eq := rfl
      nelements_eq := rfl
      keys_eq := rfl
      length_elements := by simp [allocated]
      position_eq := fun _ _ => position_allocated
      filled := hfilled
      sampled := fun _ h => Bool.noConfusion h }

end Attach

section Update

variable {spec : Spec} {names : Names} {metric : Metric} {fuel n : Nat} {e : Element}

def publicValues (lspecs : List StatsLabelSpec) (fspec : StatsLabelFormatSpec)
    : List (Option Text) :=
  (lspecs.filter (! ·.noExport)).map fun lspec => some (labelValue lspec fspec)

theorem publicValues_concat (lspecs : List StatsLabelSpec) (lspec : StatsLabelSpec)
    (fspec : StatsLabelFormatSpec)
    : publicValues (lspecs ++ [lspec]) fspec =
        publicValues lspecs fspec ++ if lspec.noExport then [] else [some (labelValue lspec fspec)] := by
  unfold publicValues
  rw [List.filter_append, List.map_append]
  cases h : lspec.noExport with
  | true => simp [h]
  | false => simp [h]

theorem publicValues_allLabels (spec : Spec) (names : Names) (n : Nat)
    : publicValues (allLabels spec) (names.format (UInt32.ofNat n)) = tuple spec names n := by
  unfold publicValues tuple ownLabels
  rw [List.map_map]
  rfl

theorem publicLabelValues_eq (hmetric : Attached spec names metric) (hlt : nlabels spec < 2 ^ 32)
    (hfuel : nlabels spec < fuel) (hn : n < spec.toStatsMetricSpec.numElements)
    (he : e.labels = n * nlabels spec)
    : publicLabelValues fuel metric e = some (tuple spec names n) := by
  have hlen : metric.labels.length = nlabels spec := by
    rw [hmetric.labels_eq, length_allLabels]
  have hstart : [] = publicValues ((allLabels spec).take 0) (names.format (UInt32.ofNat n)) := rfl
  have hstep : ∀ (i : UInt32) plv, i.toNat < metric.labels.length →
      plv = publicValues ((allLabels spec).take i.toNat) (names.format (UInt32.ofNat n)) →
      ∃ plv', (do
          let lspec ← metric.labels[i.toNat]?
          if lspec.noExport then
            some plv
          else do
            let label ← metric.records[e.labels + i.toNat]?
            some (plv ++ [label.value])) = some plv' ∧
        plv' = publicValues ((allLabels spec).take (i.toNat + 1)) (names.format (UInt32.ofNat n)) := by
    intro i plv hi hplv
    have hall : i.toNat < (allLabels spec).length := by
      rw [← hmetric.labels_eq]
      exact hi
    have hlspec := List.getElem?_eq_getElem hall
    have hrecord := hmetric.filled.record_eq n hn i.toNat (by omega)
    refine ⟨_, ?_, rfl⟩
    rw [List.take_succ_eq_append_getElem hall, publicValues_concat, ← hplv, hmetric.labels_eq,
      hlspec, Option.bind_eq_bind, Option.bind_some]
    split
    . rw [List.append_nil]
    . rw [he, hrecord, hlspec]
      rfl
  rw [← hlen] at hlt hfuel
  obtain ⟨plv, hloop, hplv⟩ := CountedLoop.exists_loop hlt
    (fun i plv => plv =
      publicValues ((allLabels spec).take i) (names.format (UInt32.ofNat n))) hstart hstep hfuel
  unfold publicLabelValues
  rw [hloop, hplv, hlen, ← length_allLabels, List.take_length, publicValues_allLabels]

-- The index label tells the elements of an array apart
theorem text_injective {n m : Nat} (h : text (Nat.toDigits 10 n) = text (Nat.toDigits 10 m))
    : n = m := by
  have hback : ∀ n : Nat, (text (Nat.toDigits 10 n)).map (fun b => Char.ofNat b.toNat) =
      Nat.toDigits 10 n := by
    intro n
    unfold text
    rw [List.map_map]
    refine (List.map_congr_left ?_).trans (List.map_id _)
    intro c hc
    have hdigit := Char.isDigit_iff_toNat.mp
      (Nat.isDigit_of_mem_toDigits (by omega) (by omega) hc)
    have hlt : c.toNat < 2 ^ 8 := Nat.lt_of_le_of_lt hdigit.2 (by decide)
    have hc : (UInt8.ofNat c.toNat).toNat = c.toNat := UInt8.toNat_ofNat_of_lt hlt
    simp only [Function.comp_apply, hc, Char.ofNat_toNat, id_eq]
  have hdigits : Nat.toDigits 10 n = Nat.toDigits 10 m := by
    rw [← hback n, h, hback m]
  rw [← @Nat.ofDigitChars_ten_toDigits n, hdigits, Nat.ofDigitChars_ten_toDigits]

theorem tuple_injective (hlt : spec.toStatsMetricSpec.numElements < 2 ^ 32) {n m : Nat}
    (hn : n < spec.toStatsMetricSpec.numElements) (hm : m < spec.toStatsMetricSpec.numElements)
    (h : tuple spec names n = tuple spec names m)
    : n = m := by
  by_cases harray : isArray spec.toStatsMetricSpec = true
  . have hindex : ∀ n < spec.toStatsMetricSpec.numElements,
        (tuple spec names n)[3]? = some (some (text (Nat.toDigits 10 n))) := by
      intro n hn
      rw [← publicValues_allLabels]
      unfold publicValues allLabels
      rw [if_pos harray]
      have hidx : (UInt32.ofNat n).toNat = n := UInt32.toNat_ofNat_of_lt' (Nat.lt_trans hn hlt)
      show some (some (text (Nat.toDigits 10 (UInt32.ofNat n).toNat))) = _
      rw [hidx]
    have htext := (hindex n hn).symm.trans (h ▸ hindex m hm)
    apply text_injective
    exact Option.some.inj (Option.some.inj htext)
  . have hone : spec.toStatsMetricSpec.numElements = 1 := if_neg harray
    omega

-- The first elements have been published, each with one sample under its own labels
structure Published (spec : Spec) (names : Names) (update : Update) (n : Nat) (metric : Metric)
    : Prop where
  attached : Attached spec names metric
  sample_eq : ∀ k < n, ∀ e, metric.elements[k]? = some e →
    e.f64 = update.convert e.u64 ∧ metric.gauge.samples (tuple spec names k) = some e.f64

-- One turn of the loop over the elements
def updated (update : Update) (metric : Metric) (n : Nat) (e : Element) : Element :=
  let e := accumulate metric.spec e (update.readings n) (update.doClear n)
  { e with f64 := update.convert e.u64 }

def published (spec : Spec) (names : Names) (update : Update) (n : Nat) (metric : Metric)
    (e : Element)
    : Metric :=
  { metric with
    elements := metric.elements.set n (updated update metric n e)
    gauge := promGaugeSet metric.gauge (updated update metric n e).f64 (tuple spec names n) }

variable {update : Update}

theorem Attached.setElement (hmetric : Attached spec names metric)
    (he : metric.elements[n]? = some e) {e' : Element} (hposition : e'.labels = e.labels)
    : Attached spec names { metric with elements := metric.elements.set n e' } := by
  refine { hmetric with length_elements := ?_, position_eq := ?_ }
  . exact List.length_set.trans hmetric.length_elements
  . intro k e'' he''
    by_cases hk : n = k
    . subst hk
      obtain ⟨hlen, _⟩ := List.getElem?_eq_some_iff.mp he
      rw [List.getElem?_set_self hlen] at he''
      cases he''
      rw [hposition]
      exact hmetric.position_eq n e he
    . rw [List.getElem?_set_ne hk] at he''
      exact hmetric.position_eq k e'' he''

theorem Attached.setGauge (hmetric : Attached spec names metric)
    (hn : n < spec.toStatsMetricSpec.numElements) (value : Double)
    : Attached spec names
        { metric with gauge := promGaugeSet metric.gauge value (tuple spec names n) } := by
  refine { hmetric with sampled := ?_ }
  intro vs hvs
  by_cases h : vs = tuple spec names n
  . exact ⟨n, hn, h⟩
  . apply hmetric.sampled
    simpa only [promGaugeSet, if_neg h] using hvs

theorem Published.step (hlt : spec.toStatsMetricSpec.numElements < 2 ^ 32)
    (h : Published spec names update n metric) (hn : n < spec.toStatsMetricSpec.numElements)
    (he : metric.elements[n]? = some e)
    : Published spec names update (n + 1) (published spec names update n metric e) := by
  have hlen := h.attached.length_elements
  have hattached : Attached spec names
      { metric with elements := metric.elements.set n (updated update metric n e) } :=
    h.attached.setElement he rfl
  refine ⟨hattached.setGauge hn _, ?_⟩
  intro k hk e' he'
  rcases Nat.lt_succ_iff_lt_or_eq.mp hk with hltk | rfl
  . -- the sample of an element before it is under other labels
    rw [published, List.getElem?_set_ne (by omega)] at he'
    obtain ⟨hconvert, hsample⟩ := h.sample_eq k hltk e' he'
    have hne : tuple spec names k ≠ tuple spec names n := by
      intro heq
      have := tuple_injective hlt (by omega) hn heq
      omega
    refine ⟨hconvert, ?_⟩
    rw [published, promGaugeSet]
    simp only [if_neg hne]
    exact hsample
  . rw [published, List.getElem?_set_self (by omega)] at he'
    cases he'
    exact ⟨rfl, if_pos rfl⟩

theorem statsBlockUpdateMetric_eq (hmetric : Attached spec names metric)
    (hlt : spec.toStatsMetricSpec.numElements < 2 ^ 32) (hlabels : nlabels spec < 2 ^ 32)
    (hfuel : spec.toStatsMetricSpec.numElements < fuel) (hfuel' : nlabels spec < fuel)
    (update : Update)
    : ∃ metric', statsBlockUpdateMetric fuel update metric = some metric' ∧
        Published spec names update spec.toStatsMetricSpec.numElements metric' := by
  have hstart : Published spec names update 0 metric := by
    refine ⟨hmetric, ?_⟩
    intro k hk
    omega
  have hstep : ∀ (n : UInt32) metric, n.toNat < spec.toStatsMetricSpec.numElements →
      Published spec names update n.toNat metric →
      ∃ metric', (do
          let e ← metric.elements[n.toNat]?
          let e := accumulate metric.spec e (update.readings n.toNat) (update.doClear n.toNat)
          let e := { e with f64 := update.convert e.u64 }
          let metric := { metric with elements := metric.elements.set n.toNat e }
          let values ← publicLabelValues fuel metric e
          some { metric with gauge := promGaugeSet metric.gauge e.f64 values }) = some metric' ∧
        Published spec names update (n.toNat + 1) metric' := by
    intro n metric hn h
    have hlen : n.toNat < metric.elements.length := by
      rw [h.attached.length_elements]
      exact hn
    have he := List.getElem?_eq_getElem hlen
    refine ⟨_, ?_, h.step hlt hn he⟩
    let e := updated update metric n.toNat metric.elements[n.toNat]
    have hattached : Attached spec names
        { metric with elements := metric.elements.set n.toNat e } :=
      h.attached.setElement he rfl
    have hposition : e.labels = n.toNat * nlabels spec := h.attached.position_eq n.toNat metric.elements[n.toNat] he
    have hvalues := publicLabelValues_eq hattached hlabels hfuel' hn hposition
    rw [he, Option.bind_eq_bind, Option.bind_some]
    exact Option.bind_eq_some_iff.mpr ⟨_, hvalues, rfl⟩
  unfold statsBlockUpdateMetric
  rw [hmetric.nelements_eq]
  exact CountedLoop.exists_loop hlt (Published spec names update) hstart hstep hfuel

end Update

end StatsExport
