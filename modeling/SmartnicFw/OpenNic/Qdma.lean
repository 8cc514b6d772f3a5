import SmartnicFw.Lib.RegFields

/-!
This module contains the queue configuration of the host DMA channels and of their functions
(`qdma.c`), on the registers that hold it.
-/

namespace Qdma

def channelMax : Nat := 2

-- The physical function and the three virtual ones
def functionMax : Nat := 4

-- What the register map generator provides: the fields of the registers and the size of the tables
structure Layout where
  hashBase : RegField 32
  tableSize : Nat → Nat
  tableValue : Nat → RegField 32
  igrBase : Nat → RegField 32
  igrNumQ : Nat → RegField 32
  qbase : RegField 32
  numq : RegField 32
  tableSize_le : ∀ func, tableSize func ≤ 2 ^ (tableValue func).width
  igr_disjoint : ∀ channel, (igrBase channel).Disjoint (igrNumQ channel)
  qconf_disjoint : qbase.Disjoint numq

-- The registers by channel, by function and by table index
structure Regs where
  qConfig : Nat → Nat → BitVec 32
  table : Nat → Nat → Nat → BitVec 32
  igrQConfig : Nat → Nat → BitVec 32
  qconf : Nat → BitVec 32

def channelSetQueues (L : Layout) (regs : Regs) (channel : Nat) (baseQueue numQueues : BitVec 32)
    : Bool × Regs :=
  if channel < channelMax then
    let qconf := L.numq.set (L.qbase.set 0 baseQueue) numQueues
    (true, { regs with qconf := Function.update regs.qconf channel qconf })
  else
    (false, regs)

def functionGetQueues (L : Layout) (regs : Regs) (channel func : Nat)
    : Option (BitVec 32 × BitVec 32) :=
  if channel ≥ channelMax ∨ func ≥ functionMax then
    none
  else
    let qconf := regs.igrQConfig channel func
    some ((L.igrBase channel).get qconf, (L.igrNumQ channel).get qconf)

namespace Regs

def setQConfig (regs : Regs) (channel func : Nat) (v : BitVec 32) : Regs :=
  { regs with qConfig := fun c f => if c = channel ∧ f = func then v else regs.qConfig c f }

def setTable (regs : Regs) (channel func q : Nat) (v : BitVec 32) : Regs :=
  { regs with
    table := fun c f i => if c = channel ∧ f = func ∧ i = q then v else regs.table c f i }

def setIgrQConfig (regs : Regs) (channel func : Nat) (v : BitVec 32) : Regs :=
  { regs with igrQConfig := fun c f => if c = channel ∧ f = func then v else regs.igrQConfig c f }

end Regs

-- The loop over the first `n` entries of the hash table of a function
def fillTable (L : Layout) (channel func : Nat) (spread : BitVec 32) (n : Nat) (regs : Regs) : Regs :=
  match n with
  | 0 => regs
  | q + 1 =>
    (fillTable L channel func spread q regs).setTable channel func q
      ((L.tableValue func).set 0 (BitVec.ofNat 32 (q % spread.toNat)))

def functionSetQueues (L : Layout) (regs : Regs) (channel func : Nat)
    (baseQueue numQueues : BitVec 32)
    : Bool × Regs :=
  if channel ≥ channelMax ∨ func ≥ functionMax then
    (false, regs)
  else
    let spread := if numQueues.toNat > 0 then numQueues else 1
    let regs := regs.setQConfig channel func (L.hashBase.set 0 baseQueue)
    if numQueues.toNat > L.tableSize func then
      (false, regs)
    else
      let regs := fillTable L channel func spread (L.tableSize func) regs
      let qconf := (L.igrNumQ channel).set ((L.igrBase channel).set 0 baseQueue) numQueues
      (true, regs.setIgrQConfig channel func qconf)

section Spec

variable {L : Layout} {regs : Regs} {channel func : Nat} {baseQueue numQueues : BitVec 32}

theorem fillTable_eq (spread : BitVec 32) (n : Nat)
    : fillTable L channel func spread n regs = { regs with
        table := fun c f q =>
          if c = channel ∧ f = func ∧ q < n then
            (L.tableValue func).set 0 (BitVec.ofNat 32 (q % spread.toNat))
          else
            regs.table c f q } := by
  induction n with
  | zero => simp [fillTable]
  | succ n ih =>
    rw [fillTable, ih]
    unfold Regs.setTable
    congr 1
    funext c f q
    by_cases heq : c = channel ∧ f = func ∧ q = n
    . obtain ⟨rfl, rfl, rfl⟩ := heq
      simp
    . rw [if_neg heq]
      have hiff : (c = channel ∧ f = func ∧ q < n) ↔ (c = channel ∧ f = func ∧ q < n + 1) := by
        constructor
        . rintro ⟨hc, hf, hq⟩
          exact ⟨hc, hf, by omega⟩
        . rintro ⟨hc, hf, hq⟩
          refine ⟨hc, hf, ?_⟩
          have hne : q ≠ n := fun hq => heq ⟨hc, hf, hq⟩
          omega
      simp only [hiff]

-- What a function's queues are to be after they have been set
structure Installed (L : Layout) (regs regs' : Regs) (channel func : Nat)
    (baseQueue numQueues : BitVec 32) : Prop where
  queues_eq : (L.igrBase channel).Fits baseQueue → (L.igrNumQ channel).Fits numQueues →
    functionGetQueues L regs' channel func = some (baseQueue, numQueues)
  table_eq : ∀ q < L.tableSize func,
    ((L.tableValue func).get (regs'.table channel func q)).toNat = q % max numQueues.toNat 1
  table_lt : ∀ q < L.tableSize func,
    ((L.tableValue func).get (regs'.table channel func q)).toNat < max numQueues.toNat 1
  qConfig_frame : ∀ c f, ¬ (c = channel ∧ f = func) → regs'.qConfig c f = regs.qConfig c f
  table_frame : ∀ c f, ¬ (c = channel ∧ f = func) → regs'.table c f = regs.table c f
  igrQConfig_frame : ∀ c f, ¬ (c = channel ∧ f = func) → regs'.igrQConfig c f = regs.igrQConfig c f
  qconf_frame : regs'.qconf = regs.qconf

theorem functionGetQueues_set (baseQueue numQueues : BitVec 32)
    (h : ¬ (channel ≥ channelMax ∨ func ≥ functionMax))
    (hget : regs.igrQConfig channel func =
      (L.igrNumQ channel).set ((L.igrBase channel).set 0 baseQueue) numQueues)
    : functionGetQueues L regs channel func =
        some (baseQueue &&& (L.igrBase channel).ones, numQueues &&& (L.igrNumQ channel).ones) := by
  unfold functionGetQueues
  rw [if_neg h]
  simp only [hget]
  rw [RegField.get_set_of_disjoint (L.igr_disjoint channel), RegField.get_set, RegField.get_set]

theorem functionSetQueues_of_fits (regs : Regs) (baseQueue : BitVec 32)
    (hvalid : ¬ (channel ≥ channelMax ∨ func ≥ functionMax))
    (hsize : ¬ numQueues.toNat > L.tableSize func)
    : ∃ regs', functionSetQueues L regs channel func baseQueue numQueues = (true, regs') ∧
        Installed L regs regs' channel func baseQueue numQueues ∧
        regs'.igrQConfig channel func =
          (L.igrNumQ channel).set ((L.igrBase channel).set 0 baseQueue) numQueues := by
  let spread : BitVec 32 := if numQueues.toNat > 0 then numQueues else 1
  have hspread : spread.toNat = max numQueues.toNat 1 := by
    show (if numQueues.toNat > 0 then numQueues else 1).toNat = _
    split
    . omega
    . have hone : (1 : BitVec 32).toNat = 1 := rfl
      omega
  have hset : functionSetQueues L regs channel func baseQueue numQueues =
      (true, (fillTable L channel func spread (L.tableSize func)
        (regs.setQConfig channel func (L.hashBase.set 0 baseQueue))).setIgrQConfig channel func
          ((L.igrNumQ channel).set ((L.igrBase channel).set 0 baseQueue) numQueues)) := by
    unfold functionSetQueues
    rw [if_neg hvalid]
    simp only [if_neg hsize]
    rfl
  refine ⟨_, hset, ?_, ?_⟩
  . rw [fillTable_eq]
    have htable : ∀ q < L.tableSize func, ((L.tableValue func).get ((L.tableValue func).set 0
        (BitVec.ofNat 32 (q % spread.toNat)))).toNat = q % max numQueues.toNat 1 := by
      intro q hq
      have hle := Nat.mod_le q spread.toNat
      have hbits := L.tableSize_le func
      have hwidth : 2 ^ (L.tableValue func).width ≤ 2 ^ 32 := by
        apply Nat.pow_le_pow_right (by decide)
        have := (L.tableValue func).shift_add_width_le
        omega
      rw [RegField.get_set, RegField.toNat_and_ones, BitVec.toNat_ofNat,
        Nat.mod_eq_of_lt (a := q % spread.toNat) (by omega), Nat.mod_eq_of_lt (by omega), hspread]
    constructor
    . intro hbase hnum
      rw [functionGetQueues_set baseQueue numQueues hvalid (by simp [Regs.setIgrQConfig]),
        RegField.and_ones_of_fits hbase, RegField.and_ones_of_fits hnum]
    . intro q hq
      simp only [Regs.setIgrQConfig, true_and, if_pos hq]
      exact htable q hq
    . intro q hq
      simp only [Regs.setIgrQConfig, true_and, if_pos hq]
      rw [htable q hq]
      apply Nat.mod_lt
      omega
    . intro c f hne
      simp [Regs.setIgrQConfig, Regs.setQConfig, hne]
    . intro c f hne
      funext q
      have hne' : ¬ (c = channel ∧ f = func ∧ q < L.tableSize func) :=
        fun ⟨hc, hf, _⟩ => hne ⟨hc, hf⟩
      simp only [Regs.setIgrQConfig, Regs.setQConfig, if_neg hne']
    . intro c f hne
      simp [Regs.setIgrQConfig, Regs.setQConfig, hne]
    . rfl
  . simp [Regs.setIgrQConfig]

theorem functionSetQueues_of_not_valid (regs : Regs) (baseQueue numQueues : BitVec 32)
    (hvalid : channel ≥ channelMax ∨ func ≥ functionMax)
    : functionSetQueues L regs channel func baseQueue numQueues = (false, regs) := by
  unfold functionSetQueues
  rw [if_pos hvalid]

-- A request for more queues than the table of the function has entries is rejected after the base of
-- the function has been written
theorem functionSetQueues_of_not_fits (regs : Regs) (baseQueue : BitVec 32)
    (hvalid : ¬ (channel ≥ channelMax ∨ func ≥ functionMax))
    (hsize : numQueues.toNat > L.tableSize func)
    : functionSetQueues L regs channel func baseQueue numQueues =
        (false, regs.setQConfig channel func (L.hashBase.set 0 baseQueue)) := by
  unfold functionSetQueues
  rw [if_neg hvalid]
  simp only [if_pos hsize]

theorem setQConfig_eq_iff (v : BitVec 32)
    : regs.setQConfig channel func v = regs ↔ regs.qConfig channel func = v := by
  constructor
  . intro h
    have hv : (regs.setQConfig channel func v).qConfig channel func = v := by
      simp [Regs.setQConfig]
    rw [← hv, h]
  . rintro rfl
    unfold Regs.setQConfig
    congr 1
    funext c f
    split
    . rename_i heq
      rw [heq.1, heq.2]
    . rfl

end Spec

theorem functionSetQueues_allOrNothing_iff (L : Layout) (regs : Regs) (channel func : Nat)
    (baseQueue numQueues : BitVec 32)
    : ((functionSetQueues L regs channel func baseQueue numQueues).1 = false →
          (functionSetQueues L regs channel func baseQueue numQueues).2 = regs) ∧
        ((functionSetQueues L regs channel func baseQueue numQueues).1 = true →
          Installed L regs (functionSetQueues L regs channel func baseQueue numQueues).2 channel func
            baseQueue numQueues) ↔
      ¬ (channel < channelMax ∧ func < functionMax ∧ L.tableSize func < numQueues.toNat ∧
        regs.qConfig channel func ≠ L.hashBase.set 0 baseQueue) := by
  by_cases hvalid : channel ≥ channelMax ∨ func ≥ functionMax
  . have hset : functionSetQueues L regs channel func baseQueue numQueues = (false, regs) := by
      unfold functionSetQueues
      rw [if_pos hvalid]
    rw [hset]
    constructor
    . rintro _ ⟨hchannel, hfunc, _⟩
      omega
    . intro _
      exact ⟨fun _ => rfl, fun h => absurd h (by simp)⟩
  . by_cases hsize : numQueues.toNat > L.tableSize func
    . rw [functionSetQueues_of_not_fits regs baseQueue hvalid hsize]
      constructor
      . rintro ⟨hsame, _⟩ ⟨_, _, _, hne⟩
        exact hne ((setQConfig_eq_iff _).mp (hsame rfl))
      . intro hcond
        refine ⟨fun _ => ?_, fun h => absurd h (by simp)⟩
        rw [setQConfig_eq_iff]
        by_contra hne
        exact hcond ⟨by omega, by omega, hsize, hne⟩
    . obtain ⟨regs', hset, hinstalled, _⟩ := functionSetQueues_of_fits regs baseQueue hvalid hsize
      rw [hset]
      constructor
      . rintro _ ⟨_, _, hlt, _⟩
        exact hsize hlt
      . intro _
        exact ⟨fun h => absurd h (by simp), fun _ => hinstalled⟩

def exampleTableSize (func : Nat) : Nat := if func = 0 then 128 else 64

theorem exampleTableSize_le (func : Nat) : exampleTableSize func ≤ 2 ^ 7 := by
  unfold exampleTableSize
  split <;> decide

-- Tables of 128 entries for the physical function and of 64 for the virtual ones
def exampleLayout : Layout :=
  { hashBase := ⟨0, 12, by decide⟩
    tableSize := exampleTableSize
    tableValue := fun _ => ⟨0, 7, by decide⟩
    igrBase := fun _ => ⟨0, 12, by decide⟩
    igrNumQ := fun _ => ⟨16, 12, by decide⟩
    qbase := ⟨0, 16, by decide⟩
    numq := ⟨16, 16, by decide⟩
    tableSize_le := exampleTableSize_le
    igr_disjoint := fun _ => .inl (by decide)
    qconf_disjoint := .inl (by decide) }

def zeroRegs : Regs :=
  { qConfig := fun _ _ => 0, table := fun _ _ _ => 0, igrQConfig := fun _ _ => 0, qconf := fun _ => 0 }

-- 200 queues from 5 on are rejected for the physical function, whose hash base is 5 from then on
theorem functionSetQueues_rejected_changes
    : ∃ regs', functionSetQueues exampleLayout zeroRegs 0 0 5 200 = (false, regs') ∧
        regs'.qConfig 0 0 = 5 ∧ regs' ≠ zeroRegs := by
  refine ⟨_, rfl, by decide, ?_⟩
  intro h
  have hbase : (5 : BitVec 32) = 0 := congrFun (congrFun (congrArg Regs.qConfig h) 0) 0
  contradiction

end Qdma
