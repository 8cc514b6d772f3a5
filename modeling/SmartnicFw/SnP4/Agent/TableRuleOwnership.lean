import SmartnicFw.SnP4.Agent.TableRuleBatch

/-!
This module contains the ownership of the buffers of a packed rule over a whole request: which rules
the loops come to, and that every buffer is released exactly once unless one of these overflows.
-/

namespace TableRules

section Reached

variable {σ : Type} (driver : TableDriver σ) (doInsert : Bool)

-- All rules before it have been applied, so that the loop has come to this one
def Comes (info : Snp4InfoPipeline) (rules : List TableRule) (handle : σ) (rule : TableRule)
    : Prop :=
  ∃ before after handle', rules = before ++ rule :: after ∧
    AppliesAll driver doInsert info before handle handle'

/--
The pipeline is one that the request selects, and the loop over its rules comes to this one.
-/
def Reaches (req : TableRuleRequest) (devices : List (Device σ)) (info : Snp4InfoPipeline)
    (rule : TableRule)
    : Prop :=
  ∃ devId pipelineId pipeline, pipelineAt devices devId pipelineId = some pipeline ∧
    req.Selects devId pipelineId ∧ pipeline.info = info ∧
    Comes driver doInsert info req.rules pipeline.handle rule

end Reached

section Rules

variable {σ : Type} {driver : TableDriver σ} {doInsert : Bool} {info : Snp4InfoPipeline}
variable {rule : TableRule} {rules : List TableRule} {handle handle' : σ}

theorem not_comes_nil : ¬ Comes driver doInsert info [] handle rule := by
  rintro ⟨before, after, handle', heq, _⟩
  simp at heq

theorem comes_cons_iff_of_applies (h : Applies driver doInsert info rule handle handle')
    (rule' : TableRule)
    : Comes driver doInsert info (rule :: rules) handle rule' ↔
        rule' = rule ∨ Comes driver doInsert info rules handle' rule' := by
  constructor
  . rintro ⟨before, after, handle'', heq, happlied⟩
    cases happlied with
    | nil => exact .inl (List.cons.inj heq).1.symm
    | @cons first before _ handle₁ _ hrule hrules =>
      obtain ⟨rfl, rfl⟩ := List.cons.inj heq
      have hsame := (outcome_of_applies hrule).symm.trans (outcome_of_applies h)
      obtain rfl := (Prod.mk.inj hsame).2
      exact .inr ⟨before, after, handle'', rfl, hrules⟩
  . rintro (rfl | ⟨before, after, handle'', rfl, happlied⟩)
    . exact ⟨[], rules, handle, rfl, .nil handle⟩
    . exact ⟨rule :: before, after, handle'', rfl, .cons h happlied⟩

theorem comes_cons_iff_of_not_applies
    (h : ¬ ∃ handle', Applies driver doInsert info rule handle handle') (rule' : TableRule)
    : Comes driver doInsert info (rule :: rules) handle rule' ↔ rule' = rule := by
  constructor
  . rintro ⟨before, after, handle'', heq, happlied⟩
    cases happlied with
    | nil => exact (List.cons.inj heq).1.symm
    | cons hrule hrules =>
      obtain ⟨rfl, _⟩ := List.cons.inj heq
      exact absurd ⟨_, hrule⟩ h
  . rintro rfl
    exact ⟨[], rules, handle, rfl, .nil handle⟩

end Rules

section Run

variable {σ : Type} (driver : TableDriver σ) {doInsert : Bool}

-- By induction on the rules: the loop goes on from the handle that the driver has left, or ends
theorem releasesIff_turns (info : Snp4InfoPipeline) (rules : List TableRule) (handle : σ)
    (heap : ByteHeap)
    : heap.ReleasesIff (turns driver doInsert info rules handle heap).2.2
        (∀ rule, Comes driver doInsert info rules handle rule → ¬ Overflows info doInsert rule) := by
  induction rules generalizing handle heap with
  | nil =>
    apply Heap.ReleasesIff.of_leaves (Heap.Leaves.refl heap)
    intro rule hcomes
    exact absurd hcomes not_comes_nil
  | cons rule rules ih =>
    have hturn := releasesIff_turn driver doInsert info handle heap rule
    obtain ⟨heap', heq⟩ := turn_eq driver doInsert info rule handle heap
    rw [heq] at hturn
    unfold turns
    rw [heq]
    rcases hout : outcome driver doInsert info rule handle with ⟨err, handle'⟩
    by_cases hok : err = .EC_OK
    . subst hok
      apply (hturn.append (ih handle' heap')).congr
      simp only [comes_cons_iff_of_applies (applies_of_outcome hout), forall_eq_or_imp]
    . have hnot : ¬ ∃ handle'', Applies driver doInsert info rule handle handle'' := by
        rintro ⟨handle'', happlies⟩
        rw [outcome_of_applies happlies] at hout
        exact hok (Prod.mk.inj hout).1.symm
      have hfirst : ¬ Overflows info doInsert rule ↔ ∀ rule',
          Comes driver doInsert info (rule :: rules) handle rule' →
            ¬ Overflows info doInsert rule' := by
        simp only [comes_cons_iff_of_not_applies hnot, forall_eq]
      have hstop := hturn.congr hfirst
      cases err <;> first | exact hstop | exact absurd rfl hok

-- No rule that the loop of one pipeline comes to overflows
def PipelineFine (driver : TableDriver σ) (doInsert : Bool) (rules : List TableRule)
    (pipeline : DevicePipeline σ)
    : Prop :=
  ∀ rule, Comes driver doInsert pipeline.info rules pipeline.handle rule →
    ¬ Overflows pipeline.info doInsert rule

-- Each pipeline is visited once, and so with the handle that it has had from the start
theorem releasesIff_pipelineLoop (rules : List TableRule) (devId : Nat) {pipelineIds : List Nat}
    (hnodup : pipelineIds.Nodup) (pipelines : List (DevicePipeline σ)) (heap : ByteHeap)
    : heap.ReleasesIff (pipelineLoop driver doInsert rules devId pipelineIds pipelines heap).2.2
        (∀ id ∈ pipelineIds, ∀ pipeline, pipelines[id]? = some pipeline →
          PipelineFine driver doInsert rules pipeline) := by
  induction pipelineIds generalizing pipelines heap with
  | nil => exact .of_leaves (Heap.Leaves.refl heap) (by simp)
  | cons id ids ih =>
    obtain ⟨hnotin, hnodup⟩ := List.nodup_cons.mp hnodup
    unfold pipelineLoop
    cases hget : pipelines[id]? with
    | none =>
      apply (ih hnodup pipelines heap).congr
      simp [hget]
    | some pipeline =>
      dsimp only
      apply ((releasesIff_turns driver pipeline.info rules pipeline.handle heap).append
        (ih hnodup _ _)).congr
      rw [List.forall_mem_cons, hget]
      apply and_congr
      . simp [PipelineFine]
      . apply forall₂_congr
        intro id' hmem
        rw [List.getElem?_set_ne]
        rintro rfl
        exact hnotin hmem

-- The same for the devices
def DeviceFine (driver : TableDriver σ) (doInsert : Bool) (req : TableRuleRequest)
    (dev : Device σ)
    : Prop :=
  ∀ (pipelineId : Nat) pipeline, dev.pipelines[pipelineId]? = some pipeline →
    (req.pipelineId < 0 ∨ req.pipelineId = pipelineId) →
    PipelineFine driver doInsert req.rules pipeline

theorem releasesIff_deviceTurn (req : TableRuleRequest) (devId : Nat) (dev : Device σ)
    (heap : ByteHeap)
    : heap.ReleasesIff (deviceTurn driver doInsert req devId dev heap).2.2
        (DeviceFine driver doInsert req dev) := by
  unfold deviceTurn
  split
  . next hinvalid =>
    apply Heap.ReleasesIff.of_leaves (Heap.Leaves.refl heap)
    intro pipelineId pipeline hget hsel
    have hlt := (List.getElem?_eq_some_iff.mp hget).1
    omega
  . next hvalid =>
    apply (releasesIff_pipelineLoop driver req.rules devId (nodup_selected _ _) dev.pipelines
      heap).congr
    constructor
    . intro hfine pipelineId pipeline hget hsel
      have hlt := (List.getElem?_eq_some_iff.mp hget).1
      exact hfine pipelineId ((mem_selected_iff hlt).mpr hsel) pipeline hget
    . intro hfine pipelineId hmem pipeline hget
      have hlt := lt_of_mem_selected hvalid hmem
      exact hfine pipelineId pipeline hget ((mem_selected_iff hlt).mp hmem)

theorem releasesIff_deviceLoop (req : TableRuleRequest) {devIds : List Nat}
    (hnodup : devIds.Nodup) (devices : List (Device σ)) (heap : ByteHeap)
    : heap.ReleasesIff (deviceLoop driver doInsert req devIds devices heap).2.2
        (∀ id ∈ devIds, ∀ dev, devices[id]? = some dev → DeviceFine driver doInsert req dev) := by
  induction devIds generalizing devices heap with
  | nil => exact .of_leaves (Heap.Leaves.refl heap) (by simp)
  | cons id ids ih =>
    obtain ⟨hnotin, hnodup⟩ := List.nodup_cons.mp hnodup
    unfold deviceLoop
    cases hget : devices[id]? with
    | none =>
      apply (ih hnodup devices heap).congr
      simp [hget]
    | some dev =>
      dsimp only
      apply ((releasesIff_deviceTurn driver req id dev heap).append (ih hnodup _ _)).congr
      rw [List.forall_mem_cons, hget]
      apply and_congr
      . simp
      . apply forall₂_congr
        intro id' hmem
        rw [List.getElem?_set_ne]
        rintro rfl
        exact hnotin hmem

theorem releasesIff_insertOrDeleteTableRule (req : TableRuleRequest) (devices : List (Device σ))
    (heap : ByteHeap)
    : heap.ReleasesIff (insertOrDeleteTableRule driver doInsert req devices heap).2.2
        (∀ info rule, Reaches driver doInsert req devices info rule →
          ¬ Overflows info doInsert rule) := by
  have hreaches : (∀ info rule, Reaches driver doInsert req devices info rule →
      ¬ Overflows info doInsert rule) ↔
        ∀ (devId : Nat) dev, devices[devId]? = some dev → (req.devId < 0 ∨ req.devId = devId) →
          DeviceFine driver doInsert req dev := by
    constructor
    . intro h devId dev hdev hsel pipelineId pipeline hget hsel' rule hcomes
      refine h pipeline.info rule ⟨devId, pipelineId, pipeline, ?_, ⟨hsel, hsel'⟩, rfl, hcomes⟩
      unfold pipelineAt
      rw [hdev]
      exact hget
    . rintro h info rule ⟨devId, pipelineId, pipeline, hat, ⟨hsel, hsel'⟩, rfl, hcomes⟩
      obtain ⟨dev, hdev, hget⟩ := Option.bind_eq_some_iff.mp hat
      exact h devId dev hdev hsel pipelineId pipeline hget hsel' rule hcomes
  rw [hreaches]
  unfold insertOrDeleteTableRule
  split
  . next hinvalid =>
    apply Heap.ReleasesIff.of_leaves (Heap.Leaves.refl heap)
    intro devId dev hdev hsel
    have hlt := (List.getElem?_eq_some_iff.mp hdev).1
    omega
  . next hvalid =>
    apply (releasesIff_deviceLoop driver req (nodup_selected _ _) devices heap).congr
    constructor
    . intro hfine devId dev hdev hsel
      have hlt := (List.getElem?_eq_some_iff.mp hdev).1
      exact hfine devId ((mem_selected_iff hlt).mpr hsel) dev hdev
    . intro hfine devId hmem dev hdev
      have hlt := lt_of_mem_selected hvalid hmem
      exact hfine devId dev hdev ((mem_selected_iff hlt).mp hmem)

end Run

-- What an insertion comes to for the packer, for one rule and for a whole request
theorem ownership_iff {σ : Type} (driver : TableDriver σ)
    : (∀ (pipeline : Snp4InfoPipeline) (rule : SnRule) (heap : ByteHeap),
        Owned heap (snp4RulePackBuffers pipeline rule heap) ↔ ¬ rule.Overflows pipeline) ∧
      (∀ (info : Snp4InfoPipeline) (doInsert : Bool) (rule : TableRule) (handle : σ)
          (heap : ByteHeap),
        heap.Leaves (turn driver doInsert info rule handle heap).2.2 [] ↔
          ¬ Overflows info doInsert rule) ∧
      ∀ (doInsert : Bool) (req : TableRuleRequest) (devices : List (Device σ)) (heap : ByteHeap),
        heap.Leaves (insertOrDeleteTableRule driver doInsert req devices heap).2.2 [] ↔
          ∀ info rule, Reaches driver doInsert req devices info rule →
            ¬ Overflows info doInsert rule := by
  refine ⟨?_, ?_, ?_⟩
  . intro pipeline rule heap
    exact owned_iff heap
  . intro info doInsert rule handle heap
    exact (releasesIff_turn driver doInsert info handle heap rule).leaves_iff
  . intro doInsert req devices heap
    exact (releasesIff_insertOrDeleteTableRule driver req devices heap).leaves_iff

-- A driver that takes every rule
def acceptingDriver : TableDriver Unit where
  snp4TableInsertKma _ _ _ _ _ _ _ _ := (true, ())
  snp4TableDeleteK _ _ _ _ := (true, ())

def keylessTableRule : TableRule :=
  { tableName := "t_0"
    priority := 0
    replace := false
    matchList := []
    action := { name := "a_nop", parameters := [] } }

def keylessRequest : TableRuleRequest :=
  { devId := 0
    pipelineId := 0
    rules := [keylessTableRule] }

def keylessDevice : Device Unit :=
  { pipelines := [{ info := keylessPipeline, handle := () }] }

-- Both buffers are given to `free` twice
theorem not_owned_keylessRule
    : keylessPipeline.Consistent ∧
        (snp4RulePackBuffers keylessPipeline keylessRule Heap.empty).2.2.released = [0, 1, 0, 1] ∧
        ¬ Owned Heap.empty (snp4RulePackBuffers keylessPipeline keylessRule Heap.empty) ∧
        ¬ Heap.empty.Leaves (insertOrDeleteTableRule acceptingDriver true keylessRequest
          [keylessDevice] Heap.empty).2.2 [] := by
  refine ⟨by decide, by decide +kernel, ?_, ?_⟩
  . rintro ⟨_, _, _, hleaves⟩
    have htwice := hleaves.count_le 0
    revert htwice
    decide +kernel
  . intro hleaves
    have htwice := hleaves.count_le 0
    revert htwice
    decide +kernel

-- The rule that would overflow comes after one that no table is found for
def unreachedRequest : TableRuleRequest :=
  { devId := 0
    pipelineId := -1
    rules := [{ keylessTableRule with tableName := "t_1" }, keylessTableRule] }

theorem not_reaches_unreachedRequest {info : Snp4InfoPipeline} {rule : TableRule}
    (h : Reaches acceptingDriver true unreachedRequest [keylessDevice] info rule)
    : ¬ Overflows info true rule := by
  rintro ⟨_, ti, sr, hload, _⟩
  obtain ⟨devId, pipelineId, pipeline, hat, _, rfl, hcomes⟩ := h
  obtain ⟨dev, hdev, hget⟩ := Option.bind_eq_some_iff.mp hat
  obtain rfl := List.mem_singleton.mp (List.mem_of_getElem? hdev)
  obtain rfl := List.mem_singleton.mp (List.mem_of_getElem? hget)
  have hunknown : loadRule keylessPipeline true { keylessTableRule with tableName := "t_1" } =
      .error .EC_INVALID_TABLE_NAME := by
    decide
  have hfirst : rule = { keylessTableRule with tableName := "t_1" } := by
    apply (comes_cons_iff_of_not_applies ?_ rule).mp hcomes
    rintro ⟨_, _, _, _, hloaded, _⟩
    rw [hunknown] at hloaded
    cases hloaded
  rw [hfirst, hunknown] at hload
  cases hload

def ternaryRequest : TableRuleRequest :=
  { devId := 0
    pipelineId := -1
    rules := [{
      tableName := "t_t9"
      priority := 0
      replace := false
      matchList := [.keyMask ['0', 'x', '1', '2'] ['0', 'x', 'f', 'f']]
      action := { name := "a_nop", parameters := [] } }] }

theorem ownership_ternaryRequest
    : Heap.empty.Leaves (insertOrDeleteTableRule acceptingDriver true ternaryRequest
        [{ pipelines := [{ info := snp4InfoPipeline, handle := () }] }] Heap.empty).2.2 [] ∧
      Heap.empty.Leaves (insertOrDeleteTableRule acceptingDriver true unreachedRequest
        [keylessDevice] Heap.empty).2.2 [] := by
  refine ⟨((ownership_iff acceptingDriver).2.2 _ _ _ _).mpr ?_,
    ((ownership_iff acceptingDriver).2.2 _ _ _ _).mpr ?_⟩
  . rintro info rule ⟨devId, pipelineId, pipeline, hat, _, rfl, _⟩
    obtain ⟨dev, hdev, hget⟩ := Option.bind_eq_some_iff.mp hat
    obtain rfl := List.mem_singleton.mp (List.mem_of_getElem? hdev)
    obtain rfl := List.mem_singleton.mp (List.mem_of_getElem? hget)
    exact not_overflows_of_consistent snp4InfoPipeline_consistent (by decide) true rule
  . intro info rule
    exact not_reaches_unreachedRequest

end TableRules
