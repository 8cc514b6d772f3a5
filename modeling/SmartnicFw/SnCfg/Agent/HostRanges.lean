import SmartnicFw.SnCfg.Agent.HostConfig

/-!
This module contains what the range of a channel is to be, and the runs of requests in which it is.
-/

namespace SnCfg.Host

open Qdma (Layout Regs functionMax channelMax functionSetQueues functionGetQueues channelSetQueues)

-- The first queue of a function and the number of its queues
def funcRange (L : Layout) (regs : Regs) (hostId func : Nat) : Nat × Nat :=
  let qconf := regs.igrQConfig hostId func
  (((L.igrBase hostId).get qconf).toNat, ((L.igrNumQ hostId).get qconf).toNat)

def chanRange (L : Layout) (regs : Regs) (hostId : Nat) : Nat × Nat :=
  let qconf := regs.qconf hostId
  ((L.qbase.get qconf).toNat, (L.numq.get qconf).toNat)

-- The channel has the queues of every function that has any
def ChannelCovers (L : Layout) (regs : Regs) (hostId : Nat) : Prop :=
  ∀ func < functionMax, 0 < (funcRange L regs hostId func).2 →
    (chanRange L regs hostId).1 ≤ (funcRange L regs hostId func).1 ∧
      (funcRange L regs hostId func).1 + (funcRange L regs hostId func).2 ≤
        (chanRange L regs hostId).1 + (chanRange L regs hostId).2

def Covered (L : Layout) (devices : List Device) : Prop :=
  ∀ dev ∈ devices, ∀ hostId < channelMax, ChannelCovers L dev.qdma hostId

-- The range of a function after the settings of a request: the last one for it counts
def rangeAfter (L : Layout) (dma : HostDmaConfig) (regs : Regs) (hostId func : Nat) : Nat × Nat :=
  match (dma.functions.filter fun f => convertToDriverQdmaFunction f.funcId = some func).getLast? with
  | some f =>
    (f.baseQueue.toNat % 2 ^ (L.igrBase hostId).width,
      f.numQueues.toNat % 2 ^ (L.igrNumQ hostId).width)
  | none => if dma.reset then (0, 0) else funcRange L regs hostId func

def totalQueues (ranges : Nat → Nat × Nat) (qfs : List Nat) : Nat :=
  (qfs.map fun func => (ranges func).2).sum

-- No function ends further from the start of another than all of them have queues
structure GapFree (L : Layout) (ranges : Nat → Nat × Nat) : Prop where
  gapless : ∀ func < functionMax, ∀ func' < functionMax, 0 < (ranges func).2 → 0 < (ranges func').2 →
    (ranges func).1 + (ranges func).2 ≤ (ranges func').1 +
      totalQueues ranges (List.range functionMax)
  base_lt : ∀ func < functionMax, 0 < (ranges func).2 → (ranges func).1 < 2 ^ L.qbase.width
  total_lt : totalQueues ranges (List.range functionMax) < 2 ^ L.numq.width

-- The defaults give each host the queue of its own number and leave the virtual functions as they are
structure DefaultsFit (L : Layout) (regs : Regs) (hostId : Nat) : Prop where
  base_lt : hostId < 2 ^ L.qbase.width ∧ hostId < 2 ^ (L.igrBase hostId).width
  num_lt : 1 < 2 ^ L.numq.width
  virtual : ∀ func < functionMax, func ≠ 0 → 0 < (funcRange L regs hostId func).2 →
    hostId ≤ (funcRange L regs hostId func).1 ∧
      (funcRange L regs hostId func).1 + (funcRange L regs hostId func).2 ≤ hostId + 1

def selectHosts (hostId : Int) : List Nat :=
  if hostId > -1 then [hostId.toNat] else List.range nhosts

-- The condition on a request, for the devices and hosts that it selects
def StepOk (L : Layout) (devices : List Device) (req : Request) : Prop :=
  match req with
  | .hostConfig req =>
    ∀ config dma, req.config = some config → config.dma = some dma →
      ∀ devId ∈ selectDevices req.devId devices, ∀ dev, devices[devId]? = some dev →
        ∀ hostId ∈ selectHosts req.hostId, GapFree L (rangeAfter L dma dev.qdma hostId)
  | .defaults req =>
    ∀ devId ∈ selectDevices req.devId devices, ∀ dev, devices[devId]? = some dev →
      ∀ hostId < nhosts, DefaultsFit L dev.qdma hostId

section Frame

variable {L : Layout} {regs : Regs} {hostId : Nat}

theorem functionSetQueues_frame (L : Layout) (regs : Regs) (hostId func : Nat)
    (baseQueue numQueues : BitVec 32)
    : (functionSetQueues L regs hostId func baseQueue numQueues).2.qconf = regs.qconf ∧
        ∀ c f, ¬ (c = hostId ∧ f = func) →
          (functionSetQueues L regs hostId func baseQueue numQueues).2.igrQConfig c f =
            regs.igrQConfig c f := by
  by_cases hvalid : hostId ≥ channelMax ∨ func ≥ functionMax
  . rw [Qdma.functionSetQueues_of_not_valid regs baseQueue numQueues hvalid]
    exact ⟨rfl, fun _ _ _ => rfl⟩
  . by_cases hsize : numQueues.toNat > L.tableSize func
    . rw [Qdma.functionSetQueues_of_not_fits regs baseQueue hvalid hsize]
      exact ⟨rfl, fun _ _ _ => rfl⟩
    . obtain ⟨regs', hset, hinstalled, _⟩ :=
        Qdma.functionSetQueues_of_fits regs baseQueue hvalid hsize
      rw [hset]
      exact ⟨hinstalled.qconf_frame, hinstalled.igrQConfig_frame⟩

-- An accepted setting is the range of the function
theorem funcRange_set {func : Nat} {baseQueue numQueues : BitVec 32} {regs' : Regs}
    (h : functionSetQueues L regs hostId func baseQueue numQueues = (true, regs'))
    : funcRange L regs' hostId func = (baseQueue.toNat % 2 ^ (L.igrBase hostId).width,
        numQueues.toNat % 2 ^ (L.igrNumQ hostId).width) := by
  by_cases hvalid : hostId ≥ channelMax ∨ func ≥ functionMax
  . rw [Qdma.functionSetQueues_of_not_valid regs baseQueue numQueues hvalid] at h
    cases h
  . by_cases hsize : numQueues.toNat > L.tableSize func
    . rw [Qdma.functionSetQueues_of_not_fits regs baseQueue hvalid hsize] at h
      cases h
    . obtain ⟨regs₁, hset, _, hget⟩ :=
        Qdma.functionSetQueues_of_fits regs baseQueue hvalid hsize
      rw [hset] at h
      cases h
      unfold funcRange
      simp only [hget]
      rw [RegField.get_set_of_disjoint (L.igr_disjoint hostId), RegField.get_set, RegField.get_set,
        RegField.toNat_and_ones, RegField.toNat_and_ones]

theorem funcRange_congr {regs' : Regs} {func : Nat}
    (h : regs'.igrQConfig hostId func = regs.igrQConfig hostId func)
    : funcRange L regs' hostId func = funcRange L regs hostId func := by
  unfold funcRange
  rw [h]

theorem setFunctions_frame (L : Layout) (hostId : Nat) (functions : List HostFunctionDmaConfig) (regs : Regs)
    : (setFunctions L hostId functions regs).2.qconf = regs.qconf ∧
        ∀ c f, c ≠ hostId →
          (setFunctions L hostId functions regs).2.igrQConfig c f = regs.igrQConfig c f := by
  induction functions generalizing regs with
  | nil => exact ⟨rfl, fun _ _ _ => rfl⟩
  | cons func functions ih =>
    unfold setFunctions
    cases convertToDriverQdmaFunction func.funcId with
    | none => exact ⟨rfl, fun _ _ _ => rfl⟩
    | some qf =>
      obtain ⟨hqconf, higr⟩ := functionSetQueues_frame L regs hostId qf func.baseQueue
        func.numQueues
      have higr : ∀ c f, c ≠ hostId →
          (functionSetQueues L regs hostId qf func.baseQueue func.numQueues).2.igrQConfig c f =
            regs.igrQConfig c f := by
        intro c f hc
        apply higr
        exact fun h => hc h.1
      cases hset : functionSetQueues L regs hostId qf func.baseQueue func.numQueues with
      | mk ok regs₁ =>
        rw [hset] at hqconf higr
        simp only [hset]
        cases ok with
        | false => exact ⟨hqconf, higr⟩
        | true =>
          obtain ⟨hqconf', higr'⟩ := ih regs₁
          refine ⟨hqconf'.trans hqconf, ?_⟩
          intro c f hc
          exact (higr' c f hc).trans (higr c f hc)

theorem setFunctions_range {functions : List HostFunctionDmaConfig} {regs regs' : Regs}
    (h : setFunctions L hostId functions regs = (.EC_OK, regs')) (func : Nat)
    : funcRange L regs' hostId func =
        match (functions.filter fun f =>
          convertToDriverQdmaFunction f.funcId = some func).getLast? with
        | some f => (f.baseQueue.toNat % 2 ^ (L.igrBase hostId).width,
            f.numQueues.toNat % 2 ^ (L.igrNumQ hostId).width)
        | none => funcRange L regs hostId func := by
  induction functions generalizing regs with
  | nil =>
    cases h
    rfl
  | cons f functions ih =>
    unfold setFunctions at h
    cases hconv : convertToDriverQdmaFunction f.funcId with
    | none =>
      rw [hconv] at h
      cases h
    | some qf =>
      rw [hconv] at h
      cases hset : functionSetQueues L regs hostId qf f.baseQueue f.numQueues with
      | mk ok regs₁ =>
        simp only [hset] at h
        cases ok with
        | false => cases h
        | true =>
          rw [ih h]
          by_cases hqf : qf = func
          . subst hqf
            rw [List.filter_cons_of_pos (by simp [hconv]), List.getLast?_cons]
            cases (functions.filter fun f =>
              convertToDriverQdmaFunction f.funcId = some qf).getLast? with
            | some last => rfl
            | none => exact funcRange_set hset
          . rw [List.filter_cons_of_neg (by simp [hconv, hqf])]
            cases (functions.filter fun f =>
              convertToDriverQdmaFunction f.funcId = some func).getLast? with
            | some last => rfl
            | none =>
              have hframe := (functionSetQueues_frame L regs hostId qf f.baseQueue
                f.numQueues).2 hostId func (fun h => hqf h.2.symm)
              rw [hset] at hframe
              exact funcRange_congr hframe

theorem functionSetQueues_zero (regs : Regs) (baseQueue : BitVec 32) (hhost : hostId < channelMax)
    {func : Nat} (hfunc : func < functionMax)
    : ∃ regs', functionSetQueues L regs hostId func baseQueue 0 = (true, regs') := by
  have hvalid : ¬ (hostId ≥ channelMax ∨ func ≥ functionMax) := by omega
  obtain ⟨regs', hset, _⟩ := Qdma.functionSetQueues_of_fits (L := L) regs baseQueue hvalid
    (show ¬ (0 : BitVec 32).toNat > L.tableSize func by simp)
  exact ⟨regs', hset⟩

theorem foldl_reset_range (hhost : hostId < channelMax) {qfs : List Nat}
    (hqfs : ∀ qf ∈ qfs, qf < functionMax) (regs : Regs) (func : Nat)
    : funcRange L (qfs.foldl (fun regs qf => (functionSetQueues L regs hostId qf 0 0).2) regs) hostId
        func = if func ∈ qfs then (0, 0) else funcRange L regs hostId func := by
  induction qfs generalizing regs with
  | nil => rfl
  | cons qf qfs ih =>
    have hrest : ∀ qf ∈ qfs, qf < functionMax := fun qf hmem => hqfs qf (List.mem_cons_of_mem _ hmem)
    obtain ⟨regs₁, hset⟩ := functionSetQueues_zero (L := L) regs 0 hhost
      (hqfs qf List.mem_cons_self)
    rw [List.foldl_cons, ih hrest, hset]
    by_cases hfunc : func = qf
    . subst hfunc
      have hzero := funcRange_set hset
      rw [if_pos List.mem_cons_self, hzero]
      split <;> simp
    . have hframe := (functionSetQueues_frame L regs hostId qf 0 0).2 hostId func
        (fun h => hfunc h.2)
      rw [hset] at hframe
      rw [funcRange_congr hframe]
      simp [hfunc]

theorem foldl_reset_frame (L : Layout) (hostId : Nat) (qfs : List Nat) (regs : Regs)
    : let regs' := qfs.foldl (fun regs qf => (functionSetQueues L regs hostId qf 0 0).2) regs
      regs'.qconf = regs.qconf ∧
        ∀ c f, c ≠ hostId → regs'.igrQConfig c f = regs.igrQConfig c f := by
  induction qfs generalizing regs with
  | nil => exact ⟨rfl, fun _ _ _ => rfl⟩
  | cons qf qfs ih =>
    obtain ⟨hqconf, higr⟩ := functionSetQueues_frame L regs hostId qf 0 0
    obtain ⟨hqconf', higr'⟩ := ih (functionSetQueues L regs hostId qf 0 0).2
    refine ⟨hqconf'.trans hqconf, ?_⟩
    intro c f hc
    exact (higr' c f hc).trans (higr c f fun h => hc h.1)

-- The range that the loop over the functions builds: the lowest base, and the sum of the sizes
theorem channelRange_spec (hhost : hostId < channelMax) {qfs : List Nat}
    (hqfs : ∀ qf ∈ qfs, qf < functionMax) (regs : Regs) (chanBase chanQueues : BitVec 32)
    : ∃ base queues, channelRange L regs hostId qfs chanBase chanQueues = some (base, queues) ∧
        queues.toNat = (chanQueues.toNat + totalQueues (funcRange L regs hostId) qfs) % 2 ^ 32 ∧
        base.toNat ≤ chanBase.toNat ∧
        (∀ qf ∈ qfs, 0 < (funcRange L regs hostId qf).2 →
          base.toNat ≤ (funcRange L regs hostId qf).1) ∧
        (base = chanBase ∨ ∃ qf ∈ qfs, 0 < (funcRange L regs hostId qf).2 ∧
          base.toNat = (funcRange L regs hostId qf).1) := by
  induction qfs generalizing chanBase chanQueues with
  | nil =>
    refine ⟨chanBase, chanQueues, rfl, ?_, le_refl _, by simp, .inl rfl⟩
    rw [show totalQueues (funcRange L regs hostId) [] = 0 from rfl, Nat.add_zero,
      Nat.mod_eq_of_lt chanQueues.isLt]
  | cons qf qfs ih =>
    have hrest : ∀ qf ∈ qfs, qf < functionMax := fun qf hmem => hqfs qf (List.mem_cons_of_mem _ hmem)
    have hqf := hqfs qf List.mem_cons_self
    have hvalid : ¬ (hostId ≥ channelMax ∨ qf ≥ functionMax) := by omega
    have htotal : totalQueues (funcRange L regs hostId) (qf :: qfs) =
        (funcRange L regs hostId qf).2 + totalQueues (funcRange L regs hostId) qfs := by
      simp [totalQueues]
    unfold channelRange functionGetQueues
    simp only [if_neg hvalid]
    have hrange : funcRange L regs hostId qf =
      (((L.igrBase hostId).get (regs.igrQConfig hostId qf)).toNat,
        ((L.igrNumQ hostId).get (regs.igrQConfig hostId qf)).toNat) := rfl
    generalize (L.igrBase hostId).get (regs.igrQConfig hostId qf) = funcBase at hrange ⊢
    generalize (L.igrNumQ hostId).get (regs.igrQConfig hostId qf) = funcQueues at hrange ⊢
    rw [htotal, hrange]
    by_cases hlive : funcQueues.toNat > 0
    . rw [if_pos hlive]
      obtain ⟨base, queues, hgo, hqueues, hle, hall, hfrom⟩ := ih hrest
        (if funcBase < chanBase then funcBase else chanBase) (chanQueues + funcQueues)
      have hmin : (if funcBase < chanBase then funcBase else chanBase).toNat =
          min funcBase.toNat chanBase.toNat := by
        split
        . rename_i hlt
          have hlt : funcBase.toNat < chanBase.toNat := hlt
          omega
        . rename_i hlt
          have hlt : ¬ funcBase.toNat < chanBase.toNat := hlt
          omega
      refine ⟨base, queues, hgo, ?_, by omega, ?_, ?_⟩
      . rw [hqueues, BitVec.toNat_add]
        omega
      . intro qf' hmem hlive'
        rcases List.mem_cons.mp hmem with rfl | hmem
        . rw [hrange]
          show base.toNat ≤ funcBase.toNat
          omega
        . exact hall qf' hmem hlive'
      . rcases hfrom with rfl | ⟨qf', hmem, hlive', heq⟩
        . by_cases hlt : funcBase < chanBase
          . rw [if_pos hlt]
            exact .inr ⟨qf, List.mem_cons_self, by rw [hrange]; exact hlive, by rw [hrange]⟩
          . rw [if_neg hlt]
            exact .inl rfl
        . exact .inr ⟨qf', List.mem_cons_of_mem _ hmem, hlive', heq⟩
    . rw [if_neg hlive]
      obtain ⟨base, queues, hgo, hqueues, hle, hall, hfrom⟩ := ih hrest chanBase chanQueues
      have hzero : funcQueues.toNat = 0 := by omega
      refine ⟨base, queues, hgo, ?_, hle, ?_, ?_⟩
      . rw [hqueues]
        show _ = (chanQueues.toNat + (funcQueues.toNat + _)) % 2 ^ 32
        rw [hzero, Nat.zero_add]
      . intro qf' hmem hlive'
        rcases List.mem_cons.mp hmem with rfl | hmem
        . rw [hrange] at hlive'
          exact absurd hlive' hlive
        . exact hall qf' hmem hlive'
      . rcases hfrom with heq | ⟨qf', hmem, hlive', heq⟩
        . exact .inl heq
        . exact .inr ⟨qf', List.mem_cons_of_mem _ hmem, hlive', heq⟩

theorem channelSetQueues_spec (regs : Regs) (hhost : hostId < channelMax)
    (baseQueue numQueues : BitVec 32)
    : ∃ regs', channelSetQueues L regs hostId baseQueue numQueues = (true, regs') ∧
        regs'.igrQConfig = regs.igrQConfig ∧ (∀ c, c ≠ hostId → regs'.qconf c = regs.qconf c) ∧
        chanRange L regs' hostId =
          (baseQueue.toNat % 2 ^ L.qbase.width, numQueues.toNat % 2 ^ L.numq.width) := by
  unfold channelSetQueues
  rw [if_pos hhost]
  refine ⟨_, rfl, rfl, ?_, ?_⟩
  . intro c hc
    exact Function.update_of_ne hc _ _
  . unfold chanRange
    simp only [Function.update_self]
    rw [RegField.get_set_of_disjoint L.qconf_disjoint, RegField.get_set, RegField.get_set,
      RegField.toNat_and_ones, RegField.toNat_and_ones]

-- What a request leaves alone: the registers of the other channels
def Keeps (hostId : Nat) (regs regs' : Regs) : Prop :=
  ∀ c, c ≠ hostId → regs'.qconf c = regs.qconf c ∧ ∀ f, regs'.igrQConfig c f = regs.igrQConfig c f

theorem Keeps.trans {regs₁ regs₂ regs₃ : Regs} (h : Keeps hostId regs₁ regs₂)
    (h' : Keeps hostId regs₂ regs₃)
    : Keeps hostId regs₁ regs₃ := by
  intro c hc
  exact ⟨(h' c hc).1.trans (h c hc).1, fun f => ((h' c hc).2 f).trans ((h c hc).2 f)⟩

theorem Keeps.rangeAfter {regs' : Regs} (h : Keeps hostId regs regs') {c : Nat} (hc : c ≠ hostId)
    (dma : HostDmaConfig)
    : rangeAfter L dma regs' c = rangeAfter L dma regs c := by
  funext func
  unfold Host.rangeAfter
  rw [funcRange_congr ((h c hc).2 func)]

theorem Keeps.covers {regs' : Regs} (h : Keeps hostId regs regs') {c : Nat} (hc : c ≠ hostId)
    (hcovers : ChannelCovers L regs c)
    : ChannelCovers L regs' c := by
  have hchan : chanRange L regs' c = chanRange L regs c := by
    unfold chanRange
    rw [(h c hc).1]
  intro func hfunc
  rw [hchan, funcRange_congr ((h c hc).2 func)]
  exact hcovers func hfunc

theorem channelSetQueues_keeps (regs : Regs) (baseQueue numQueues : BitVec 32)
    : Keeps hostId regs (channelSetQueues L regs hostId baseQueue numQueues).2 := by
  intro c hc
  unfold channelSetQueues
  split
  . exact ⟨Function.update_of_ne hc _ _, fun _ => rfl⟩
  . exact ⟨rfl, fun _ => rfl⟩

theorem resetQueues_keeps (regs : Regs) : Keeps hostId regs (resetQueues L hostId regs) := by
  obtain ⟨hqconf, higr⟩ := foldl_reset_frame L hostId (List.range functionMax) regs
  have hfold : Keeps hostId regs ((List.range functionMax).foldl
      (fun regs qf => (functionSetQueues L regs hostId qf 0 0).2) regs) := by
    intro c hc
    exact ⟨by rw [hqconf], fun f => higr c f hc⟩
  exact hfold.trans (channelSetQueues_keeps _ 0 0)

theorem setDma_keeps (dma : HostDmaConfig) (regs : Regs)
    : Keeps hostId regs (setDma L hostId dma regs).2 := by
  have hreset : Keeps hostId regs (if dma.reset then resetQueues L hostId regs else regs) := by
    split
    . exact resetQueues_keeps regs
    . exact fun _ _ => ⟨rfl, fun _ => rfl⟩
  unfold setDma
  simp only
  generalize (if dma.reset then resetQueues L hostId regs else regs) = regs₀ at hreset ⊢
  obtain ⟨hqconf, higr⟩ := setFunctions_frame L hostId dma.functions regs₀
  have hfunctions : Keeps hostId regs (setFunctions L hostId dma.functions regs₀).2 := by
    apply hreset.trans
    intro c hc
    exact ⟨by rw [hqconf], fun f => higr c f hc⟩
  generalize setFunctions L hostId dma.functions regs₀ = res at hfunctions ⊢
  obtain ⟨err, regs₁⟩ := res
  cases err with
  | EC_OK =>
    simp only
    cases channelRange L regs₁ hostId (List.range functionMax) (BitVec.allOnes 32) 0 with
    | none => exact hfunctions
    | some range =>
      obtain ⟨chanBase, chanQueues⟩ := range
      simp only
      split
      . exact hfunctions.trans (channelSetQueues_keeps regs₁ chanBase chanQueues)
      . exact hfunctions
  | _ => exact hfunctions

theorem totalQueues_congr {ranges ranges' : Nat → Nat × Nat} {qfs : List Nat}
    (h : ∀ qf ∈ qfs, ranges qf = ranges' qf)
    : totalQueues ranges qfs = totalQueues ranges' qfs := by
  unfold totalQueues
  congr 1
  apply List.map_congr_left
  intro qf hmem
  rw [h qf hmem]

theorem le_totalQueues (ranges : Nat → Nat × Nat) {qfs : List Nat} {qf : Nat} (h : qf ∈ qfs)
    : (ranges qf).2 ≤ totalQueues ranges qfs := by
  unfold totalQueues
  apply List.le_sum_of_mem
  exact List.mem_map_of_mem h

theorem setDma_covers (hhost : hostId < channelMax) {dma : HostDmaConfig} {regs regs' : Regs}
    (h : setDma L hostId dma regs = (.EC_OK, regs'))
    (hgap : GapFree L (rangeAfter L dma regs hostId))
    : ChannelCovers L regs' hostId := by
  unfold setDma at h
  simp only at h
  have hstart : ∀ func < functionMax,
      funcRange L (if dma.reset then resetQueues L hostId regs else regs) hostId func =
        if dma.reset then (0, 0) else funcRange L regs hostId func := by
    intro func hfunc
    split
    . have hmem : func ∈ List.range functionMax := List.mem_range.mpr hfunc
      have hfold := foldl_reset_range (L := L) hhost (fun qf hmem => List.mem_range.mp hmem) regs func
      rw [if_pos hmem] at hfold
      rw [← hfold]
      unfold resetQueues
      obtain ⟨regs₁, hset, higr, _⟩ := channelSetQueues_spec (L := L)
        ((List.range functionMax).foldl (fun regs qf => (functionSetQueues L regs hostId qf 0 0).2)
          regs) hhost 0 0
      simp only [hset]
      apply funcRange_congr
      rw [higr]
    . rfl
  generalize (if dma.reset then resetQueues L hostId regs else regs) = regs₀ at hstart h
  cases hfunctions : setFunctions L hostId dma.functions regs₀ with
  | mk err regs₁ =>
    rw [hfunctions] at h
    cases err with
    | EC_OK =>
      have hafter : ∀ func < functionMax,
          funcRange L regs₁ hostId func = rangeAfter L dma regs hostId func := by
        intro func hfunc
        rw [setFunctions_range hfunctions func, rangeAfter, hstart func hfunc]
      have hqfs : ∀ qf ∈ List.range functionMax, qf < functionMax :=
        fun qf hmem => List.mem_range.mp hmem
      have htotal : totalQueues (funcRange L regs₁ hostId) (List.range functionMax) =
          totalQueues (rangeAfter L dma regs hostId) (List.range functionMax) := by
        apply totalQueues_congr
        intro qf hmem
        exact hafter qf (hqfs qf hmem)
      obtain ⟨base, queues, hgo, hqueues, _, hall, hfrom⟩ := channelRange_spec (L := L) hhost hqfs
        regs₁ (BitVec.allOnes 32) 0
      have hnumq : 2 ^ L.numq.width ≤ 2 ^ 32 := by
        apply Nat.pow_le_pow_right (by decide)
        have := L.numq.shift_add_width_le
        omega
      have htotal_lt := hgap.total_lt
      rw [htotal, show (0 : BitVec 32).toNat = 0 from rfl, Nat.zero_add,
        Nat.mod_eq_of_lt (by omega)] at hqueues
      simp only [hgo] at h
      intro func hfunc hlive
      have hle := le_totalQueues (rangeAfter L dma regs hostId)
        (List.mem_range.mpr hfunc)
      split at h
      . obtain ⟨regs₂, hset, higr, _, hchan⟩ := channelSetQueues_spec (L := L) regs₁ hhost base queues
        rw [hset] at h
        obtain ⟨_, rfl⟩ := Prod.mk.inj h
        have hrange : funcRange L regs₂ hostId func = rangeAfter L dma regs hostId func := by
          rw [← hafter func hfunc]
          apply funcRange_congr
          rw [higr]
        rw [hrange] at hlive ⊢
        have hbase_le : base.toNat ≤ (rangeAfter L dma regs hostId func).1 := by
          have := hall func (List.mem_range.mpr hfunc)
          rw [hafter func hfunc] at this
          exact this hlive
        -- The base of the channel is that of a function with queues
        obtain ⟨func', hfunc', hlive', hbase⟩ : ∃ func' < functionMax,
            0 < (rangeAfter L dma regs hostId func').2 ∧
              base.toNat = (rangeAfter L dma regs hostId func').1 := by
          rcases hfrom with rfl | ⟨func', hmem', hlive', hbase⟩
          . refine ⟨func, hfunc, hlive, ?_⟩
            have hlt : (funcRange L regs₁ hostId func).1 < 2 ^ 32 := BitVec.isLt _
            rw [hafter func hfunc] at hlt
            have hones : (BitVec.allOnes 32).toNat = 2 ^ 32 - 1 := rfl
            omega
          . have hfunc' := hqfs func' hmem'
            rw [hafter func' hfunc'] at hlive' hbase
            exact ⟨func', hfunc', hlive', hbase⟩
        have hbase_lt := hgap.base_lt func' hfunc' hlive'
        have hgapless := hgap.gapless func hfunc func' hfunc' hlive hlive'
        rw [hchan, hqueues, Nat.mod_eq_of_lt (by omega), Nat.mod_eq_of_lt (by omega)]
        exact ⟨hbase_le, by rw [hbase]; exact hgapless⟩
      . rename_i hzero
        cases h
        rw [hafter func hfunc] at hlive
        omega
    | _ => cases h

theorem setHost_qdma (config : HostConfig) (dev : Device)
    : (setHost L hostId config dev).2.qdma =
        match config.dma with
        | none => dev.qdma
        | some dma => (setDma L hostId dma dev.qdma).2 := by
  unfold setHost
  cases config.dma with
  | none =>
    simp only
    cases config.flowControl with
    | none => rfl
    | some fc =>
      simp only
      split <;> rfl
  | some dma =>
    simp only
    generalize setDma L hostId dma dev.qdma = res
    obtain ⟨err, qdma⟩ := res
    cases err <;> cases config.flowControl <;> try rfl
    simp only
    split <;> rfl

theorem setHost_dma_ok {config : HostConfig} {dma : HostDmaConfig} (hdma : config.dma = some dma)
    {dev : Device} (h : (setHost L hostId config dev).1 = .EC_OK)
    : (setDma L hostId dma dev.qdma).1 = .EC_OK := by
  unfold setHost at h
  rw [hdma] at h
  simp only at h
  generalize setDma L hostId dma dev.qdma = res at h ⊢
  obtain ⟨err, qdma⟩ := res
  cases err <;> first | rfl | exact h

theorem setHost_keeps (config : HostConfig) (dev : Device)
    : Keeps hostId dev.qdma (setHost L hostId config dev).2.qdma := by
  rw [setHost_qdma]
  cases config.dma with
  | none => exact fun _ _ => ⟨rfl, fun _ => rfl⟩
  | some dma => exact setDma_keeps dma dev.qdma

theorem setHost_covers (hhost : hostId < channelMax) {config : HostConfig} {dev : Device}
    (h : (setHost L hostId config dev).1 = .EC_OK)
    (hgap : ∀ dma, config.dma = some dma → GapFree L (rangeAfter L dma dev.qdma hostId))
    (hcovers : ChannelCovers L dev.qdma hostId)
    : ChannelCovers L (setHost L hostId config dev).2.qdma hostId := by
  rw [setHost_qdma]
  cases hdma : config.dma with
  | none => exact hcovers
  | some dma =>
    have hok := setHost_dma_ok hdma h
    apply setDma_covers hhost _ (hgap dma hdma)
    rw [← hok]

-- The responses of a request are all EC_OK
def AllOk (resps : List Response) : Prop := ∀ resp ∈ resps, resp.errorCode = .EC_OK

def DeviceCovered (L : Layout) (dev : Device) : Prop :=
  ∀ hostId < channelMax, ChannelCovers L dev.qdma hostId

theorem hostLoop_covers {config : HostConfig} {devId : Nat} {hostIds : List Nat} {dev : Device}
    (hnodup : hostIds.Nodup) (hhosts : ∀ hostId ∈ hostIds, hostId < channelMax)
    (hok : AllOk (hostLoop L config devId hostIds dev).1)
    (hgap : ∀ dma, config.dma = some dma → ∀ hostId ∈ hostIds,
      GapFree L (rangeAfter L dma dev.qdma hostId))
    (hcovers : DeviceCovered L dev)
    : DeviceCovered L (hostLoop L config devId hostIds dev).2 := by
  induction hostIds generalizing dev with
  | nil => exact hcovers
  | cons hostId hostIds ih =>
    obtain ⟨hnew, hnodup⟩ := List.nodup_cons.mp hnodup
    have hhost := hhosts hostId List.mem_cons_self
    have hkeeps : Keeps hostId dev.qdma (setHost L hostId config dev).2.qdma :=
      setHost_keeps config dev
    unfold hostLoop at hok ⊢
    have hhere : (setHost L hostId config dev).1 = .EC_OK := hok _ List.mem_cons_self
    apply ih hnodup
    . intro hostId' hmem
      exact hhosts hostId' (List.mem_cons_of_mem _ hmem)
    . intro resp hmem
      exact hok resp (List.mem_cons_of_mem _ hmem)
    . intro dma hdma hostId' hmem
      have hne : hostId' ≠ hostId := fun heq => hnew (heq ▸ hmem)
      rw [hkeeps.rangeAfter hne]
      exact hgap dma hdma hostId' (List.mem_cons_of_mem _ hmem)
    . intro c hc
      by_cases heq : c = hostId
      . subst heq
        apply setHost_covers hc hhere _ (hcovers c hc)
        intro dma hdma
        exact hgap dma hdma c List.mem_cons_self
      . exact hkeeps.covers heq (hcovers c hc)

theorem deviceLoop_covers {f : Nat → Device → List Response × Device} {good : Nat → Device → Prop}
    (hf : ∀ devId dev, good devId dev → DeviceCovered L dev → AllOk (f devId dev).1 →
      DeviceCovered L (f devId dev).2)
    {devIds : List Nat} {devices : List Device} (hnodup : devIds.Nodup)
    (hgood : ∀ devId ∈ devIds, ∀ dev, devices[devId]? = some dev → good devId dev)
    (hok : AllOk (deviceLoop f devIds devices).1) (hcovers : Covered L devices)
    : Covered L (deviceLoop f devIds devices).2 := by
  induction devIds generalizing devices with
  | nil => exact hcovers
  | cons devId devIds ih =>
    obtain ⟨hnew, hnodup⟩ := List.nodup_cons.mp hnodup
    unfold deviceLoop at hok ⊢
    cases hdev : devices[devId]? with
    | none => exact hcovers
    | some dev =>
      simp only [hdev] at hok ⊢
      apply ih hnodup
      . intro devId' hmem dev' hdev'
        have hne : devId ≠ devId' := fun heq => hnew (heq ▸ hmem)
        rw [List.getElem?_set_ne hne] at hdev'
        exact hgood devId' (List.mem_cons_of_mem _ hmem) dev' hdev'
      . intro resp hmem
        exact hok resp (List.mem_append_right _ hmem)
      . intro dev' hmem
        rcases List.mem_or_eq_of_mem_set hmem with hmem | rfl
        . exact hcovers dev' hmem
        . apply hf devId dev (hgood devId List.mem_cons_self dev hdev)
          . exact hcovers dev (List.mem_of_getElem? hdev)
          . intro resp hmem
            exact hok resp (List.mem_append_left _ hmem)

-- One host of the defaults
theorem defaultHost_covers (hhost : hostId < channelMax) {regs : Regs}
    (hfit : DefaultsFit L regs hostId) {regs₁ regs₂ : Regs}
    (hset : functionSetQueues L regs hostId 0 (BitVec.ofNat 32 hostId) 1 = (true, regs₁))
    (hchan : channelSetQueues L regs₁ hostId (BitVec.ofNat 32 hostId) 1 = (true, regs₂))
    : ChannelCovers L regs₂ hostId ∧ Keeps hostId regs regs₂ := by
  have hlt : hostId < 2 ^ 32 := by
    unfold channelMax at hhost
    omega
  have hone : (1 : BitVec 32).toNat = 1 := rfl
  obtain ⟨hqconf, higr⟩ := functionSetQueues_frame L regs hostId 0 (BitVec.ofNat 32 hostId) 1
  rw [hset] at hqconf higr
  have hkeeps₁ : Keeps hostId regs regs₁ := by
    intro c hc
    exact ⟨by rw [hqconf], fun f => higr c f fun h => hc h.1⟩
  have hkeeps₂ : Keeps hostId regs₁
      (channelSetQueues L regs₁ hostId (BitVec.ofNat 32 hostId) 1).2 :=
    channelSetQueues_keeps regs₁ (BitVec.ofNat 32 hostId) 1
  obtain ⟨regs₃, hchan', higr', _, hrange⟩ := channelSetQueues_spec (L := L) regs₁ hhost
    (BitVec.ofNat 32 hostId) 1
  rw [hchan] at hkeeps₂ hchan'
  obtain ⟨_, rfl⟩ := Prod.mk.inj hchan'
  refine ⟨?_, hkeeps₁.trans hkeeps₂⟩
  have hchanRange : chanRange L regs₂ hostId = (hostId, 1) := by
    rw [hrange, hone, BitVec.toNat_ofNat, Nat.mod_eq_of_lt hlt, Nat.mod_eq_of_lt hfit.base_lt.1,
      Nat.mod_eq_of_lt hfit.num_lt]
  intro func hfunc hlive
  have hfuncRange : funcRange L regs₂ hostId func = funcRange L regs₁ hostId func := by
    apply funcRange_congr
    rw [higr']
  rw [hfuncRange] at hlive ⊢
  rw [hchanRange]
  by_cases hpf : func = 0
  . subst hpf
    rw [funcRange_set hset] at hlive ⊢
    simp only [hone, BitVec.toNat_ofNat] at hlive ⊢
    have hle := Nat.mod_le 1 (2 ^ (L.igrNumQ hostId).width)
    rw [Nat.mod_eq_of_lt hlt, Nat.mod_eq_of_lt hfit.base_lt.2]
    omega
  . have hframe : funcRange L regs₁ hostId func = funcRange L regs hostId func := by
      apply funcRange_congr
      exact higr hostId func fun h => hpf h.2
    rw [hframe] at hlive ⊢
    exact hfit.virtual func hfunc hpf hlive

theorem Keeps.defaultsFit {regs regs' : Regs} (h : Keeps hostId regs regs') {c : Nat}
    (hc : c ≠ hostId) (hfit : DefaultsFit L regs c)
    : DefaultsFit L regs' c := by
  refine ⟨hfit.base_lt, hfit.num_lt, ?_⟩
  intro func hfunc hne
  rw [funcRange_congr ((h c hc).2 func)]
  exact hfit.virtual func hfunc hne

theorem defaultHosts_covers {hostIds : List Nat} {regs : Regs} (hnodup : hostIds.Nodup)
    (hhosts : ∀ hostId ∈ hostIds, hostId < channelMax)
    (hok : (defaultHosts L hostIds regs).1 = .EC_OK)
    (hfit : ∀ hostId ∈ hostIds, DefaultsFit L regs hostId)
    (hcovers : ∀ c < channelMax, ChannelCovers L regs c)
    : ∀ c < channelMax, ChannelCovers L (defaultHosts L hostIds regs).2 c := by
  induction hostIds generalizing regs with
  | nil => exact hcovers
  | cons hostId hostIds ih =>
    obtain ⟨hnew, hnodup⟩ := List.nodup_cons.mp hnodup
    have hhost := hhosts hostId List.mem_cons_self
    unfold defaultHosts at hok ⊢
    cases hset : functionSetQueues L regs hostId 0 (BitVec.ofNat 32 hostId) 1 with
    | mk ok regs₁ =>
      cases ok with
      | false =>
        rw [hset] at hok
        contradiction
      | true =>
        cases hchan : channelSetQueues L regs₁ hostId (BitVec.ofNat 32 hostId) 1 with
        | mk ok regs₂ =>
          simp only [hset, hchan] at hok ⊢
          cases ok with
          | false => contradiction
          | true =>
            obtain ⟨hhere, hkeeps⟩ := defaultHost_covers hhost (hfit hostId List.mem_cons_self) hset
              hchan
            apply ih hnodup _ hok
            . intro hostId' hmem
              have hne : hostId' ≠ hostId := fun heq => hnew (heq ▸ hmem)
              exact hkeeps.defaultsFit hne (hfit hostId' (List.mem_cons_of_mem _ hmem))
            . intro c hc
              by_cases heq : c = hostId
              . subst heq
                exact hhere
              . exact hkeeps.covers heq (hcovers c hc)
            . intro hostId' hmem
              exact hhosts hostId' (List.mem_cons_of_mem _ hmem)

theorem selectDevices_nodup (devId : Int) (devices : List Device)
    : (selectDevices devId devices).Nodup := by
  unfold selectDevices
  split
  . exact List.nodup_singleton _
  . exact List.nodup_range

end Frame

section Run

variable {L : Layout} {devices devices' : List Device}

theorem step_eq_some {req : Request} (h : step L devices req = some devices')
    : AllOk (handle L req devices).1 ∧ (handle L req devices).2 = devices' := by
  unfold step at h
  simp only at h
  split at h
  . rename_i hall
    refine ⟨?_, Option.some.inj h⟩
    intro resp hmem
    simpa using List.all_eq_true.mp hall resp hmem
  . contradiction

theorem setHostConfig_covers {req : HostConfigRequest}
    (hok : AllOk (setHostConfig L req devices).1)
    (hgood : StepOk L devices (.hostConfig req)) (hcovers : Covered L devices)
    : Covered L (setHostConfig L req devices).2 := by
  unfold setHostConfig at hok ⊢
  split
  . exact hcovers
  . rename_i hdevId
    rw [if_neg hdevId] at hok
    cases hconfig : req.config with
    | none => exact hcovers
    | some config =>
      simp only [hconfig] at hok ⊢
      have hdevice : ∀ devId dev, (∀ dma, config.dma = some dma →
          ∀ hostId ∈ selectHosts req.hostId, GapFree L (rangeAfter L dma dev.qdma hostId)) →
          DeviceCovered L dev → AllOk (setDevice L req config devId dev).1 →
            DeviceCovered L (setDevice L req config devId dev).2 := by
        intro devId dev hgap hdev hall
        unfold setDevice at hall ⊢
        split
        . exact hdev
        . rename_i hhostId
          rw [if_neg hhostId] at hall
          have hhosts : ∀ hostId ∈ selectHosts req.hostId, hostId < channelMax := by
            intro hostId hmem
            unfold selectHosts nhosts at hmem
            unfold nhosts at hhostId
            unfold channelMax
            split at hmem
            . rw [List.mem_singleton] at hmem
              omega
            . exact List.mem_range.mp hmem
          have hnodup : (selectHosts req.hostId).Nodup := by
            unfold selectHosts
            split
            . exact List.nodup_singleton _
            . exact List.nodup_range
          exact hostLoop_covers hnodup hhosts hall hgap hdev
      apply deviceLoop_covers hdevice (selectDevices_nodup req.devId devices) _ hok hcovers
      intro devId hmem dev hdev dma hdma hostId hhost
      exact hgood config dma hconfig hdma devId hmem dev hdev hostId hhost

theorem setDefaults_covers {req : DefaultsRequest} (hok : AllOk (setDefaults L req devices).1)
    (hgood : StepOk L devices (.defaults req)) (hcovers : Covered L devices)
    : Covered L (setDefaults L req devices).2 := by
  unfold setDefaults at hok ⊢
  split
  . exact hcovers
  . rename_i hdevId
    rw [if_neg hdevId] at hok
    have hdevice : ∀ devId dev, (∀ hostId < nhosts, DefaultsFit L dev.qdma hostId) →
        DeviceCovered L dev → AllOk (setDefaultsDevice L req.profile devId dev).1 →
          DeviceCovered L (setDefaultsDevice L req.profile devId dev).2 := by
      intro devId dev hfit hdev hall
      unfold setDefaultsDevice at hall ⊢
      cases hprofile : req.profile with
      | other value => exact hdev
      | DS_ONE_TO_ONE =>
        simp only [hprofile] at hall
        have hok : (defaultHosts L (List.range nhosts) dev.qdma).1 = .EC_OK :=
          hall _ (List.mem_singleton.mpr rfl)
        apply defaultHosts_covers List.nodup_range _ hok _ hdev
        . intro hostId hmem
          exact List.mem_range.mp hmem
        . intro hostId hmem
          exact hfit hostId (List.mem_range.mp hmem)
    exact deviceLoop_covers hdevice (selectDevices_nodup req.devId devices) hgood hok hcovers

theorem step_covers {req : Request} (h : step L devices req = some devices')
    (hgood : StepOk L devices req) (hcovers : Covered L devices)
    : Covered L devices' := by
  obtain ⟨hok, rfl⟩ := step_eq_some h
  cases req with
  | hostConfig req => exact setHostConfig_covers hok hgood hcovers
  | defaults req => exact setDefaults_covers hok hgood hcovers

def AllEmpty (L : Layout) (devices : List Device) : Prop :=
  ∀ dev ∈ devices, ∀ hostId < channelMax, ∀ func < functionMax,
    (funcRange L dev.qdma hostId func).2 = 0

theorem AllEmpty.covered (h : AllEmpty L devices) : Covered L devices := by
  intro dev hdev hostId hhost func hfunc hlive
  have := h dev hdev hostId hhost func hfunc
  omega

end Run

-- When the ranges of the functions never have gaps, the channels have the queues of all functions
theorem run_covered (L : Layout) (devices : List Device) (reqs : List Request)
    (hempty : AllEmpty L devices) (hsteps : Transition.StepsSatisfy (step L) (StepOk L) devices reqs)
    : Transition.StatesSatisfy (step L) (Covered L) devices reqs := by
  have hkeeps : ∀ devices req devices', Covered L devices → step L devices req = some devices' →
      StepOk L devices req → Covered L devices' := by
    intro devices req devices' hcovers hstep hok
    exact step_covers hstep hok hcovers
  exact Transition.StatesSatisfy.of_steps (fun _ h => h) hkeeps hempty.covered hsteps

section Examples

def zeroDevice : Device := { qdma := Qdma.zeroRegs, egrFcThresh := [0, 0, 0, 0] }

-- Queues 0 and 1 of the first host for its physical function and its first virtual one, or with a
-- gap between them
def twoFunctions (baseQueue : BitVec 32) : Request :=
  .hostConfig
    { devId := 0
      hostId := 0
      config := some
        { dma := some
            { functions := [⟨⟨.HOST_FUNC_PHYSICAL, 0⟩, 0, 1⟩,
                ⟨⟨.HOST_FUNC_VIRTUAL, 0⟩, baseQueue, 1⟩]
              reset := true }
          flowControl := none } }

theorem zeroDevice_empty : AllEmpty Qdma.exampleLayout [zeroDevice] := by
  intro dev hdev hostId _ func _
  rw [List.mem_singleton.mp hdev]
  simp [funcRange, zeroDevice, Qdma.zeroRegs, RegField.get]

theorem run_covered_twoFunctions
    : Transition.StatesSatisfy (step Qdma.exampleLayout) (Covered Qdma.exampleLayout) [zeroDevice]
        [twoFunctions 1] := by
  apply run_covered Qdma.exampleLayout [zeroDevice] [twoFunctions 1] zeroDevice_empty
  intro devices' _
  refine ⟨?_, trivial⟩
  intro config dma hconfig hdma devId hdevId dev hdev hostId hhostId
  cases hconfig
  cases hdma
  rw [List.mem_singleton.mp hdevId] at hdev
  cases hdev
  rw [List.mem_singleton.mp hhostId]
  constructor
  . decide +kernel
  . decide +kernel
  . decide +kernel

-- With queues 0 and 10 the channel has the queues 0 and 1
theorem not_covered_gap
    : ¬ Transition.StatesSatisfy (step Qdma.exampleLayout) (Covered Qdma.exampleLayout) [zeroDevice]
        [twoFunctions 10] := by
  intro h
  have hstep : step Qdma.exampleLayout [zeroDevice] (twoFunctions 10) =
      some (handle Qdma.exampleLayout (twoFunctions 10) [zeroDevice]).2 := by
    rfl
  have hcovered := (h.2 _ hstep) _ List.mem_cons_self 0 (by decide) 1 (by decide) (by decide +kernel)
  revert hcovered
  decide +kernel

end Examples

end SnCfg.Host
