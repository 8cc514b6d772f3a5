import SmartnicFw.Lib.Buffer

/-!
This module contains the counter blocks of a pipeline: their description (`snp4_info_hw.c`) and how
a whole block is read (`snp4_api.c`).
-/

inductive XilVitisNetP4CounterType where
  | packets
  | bytes
  | packetsAndBytes
  | flag
  | other (code : UInt32)
  deriving DecidableEq, Repr

structure XilVitisNetP4TargetCounterConfig where
  nameString : List UInt8
  counterType : XilVitisNetP4CounterType
  numCounters : UInt32
  deriving DecidableEq, Repr

inductive Snp4InfoCounterType where
  | packets
  | bytes
  | packetsAndBytes
  | flag
  deriving DecidableEq, Repr

structure Snp4InfoCounterBlock where
  name : List UInt8
  type : Snp4InfoCounterType
  numCounters : UInt32
  deriving DecidableEq, Repr

inductive Snp4InfoCounterStatus where
  | tooManyCounterBlocks
  | invalidCounterType
  deriving DecidableEq, Repr

def snp4MaxPipelineCounterBlocks : Nat := 64

def snp4InfoGetCounterBlock (xc : XilVitisNetP4TargetCounterConfig)
    : Except Snp4InfoCounterStatus Snp4InfoCounterBlock := do
  let type ← match xc.counterType with
    | .packets => pure .packets
    | .bytes => pure .bytes
    | .packetsAndBytes => pure .packetsAndBytes
    | .flag => pure .flag
    | .other _ => throw .invalidCounterType
  return { name := xc.nameString, type, numCounters := xc.numCounters }

def snp4InfoGetCounterBlocks (cfgCounters : List XilVitisNetP4TargetCounterConfig)
    : Except Snp4InfoCounterStatus (List Snp4InfoCounterBlock) :=
  if cfgCounters.length > snp4MaxPipelineCounterBlocks then
    throw .tooManyCounterBlocks
  else
    cfgCounters.mapM snp4InfoGetCounterBlock

-- What the counters of a block stand at, by the position of the block, and the driver's reads of
-- the first counters of a block: whether a read succeeds, and what it leaves where it was to put
-- the counts. A read that fails can have got to any number of them.
structure CounterDriver where
  counts : Nat → Nat → UInt64
  packets : Nat → Nat → UInt64
  bytes : Nat → Nat → UInt64
  collectSimpleRead : Nat → Nat → Bool × List UInt64
  collectComboRead : Nat → Nat → Bool × List UInt64 × List UInt64
  simple_counts : ∀ b n, (collectSimpleRead b n).1 →
    (collectSimpleRead b n).2 = (List.range n).map (counts b)
  simple_length : ∀ b n, (collectSimpleRead b n).2.length ≤ n
  combo_counts : ∀ b n, (collectComboRead b n).1 →
    (collectComboRead b n).2 = ((List.range n).map (packets b), (List.range n).map (bytes b))
  combo_length : ∀ b n, (collectComboRead b n).2.1.length ≤ n ∧
    (collectComboRead b n).2.2.length ≤ n

section

variable (cfg : List XilVitisNetP4TargetCounterConfig) (driver : CounterDriver)

def snp4CounterBlockByName (blockName : List UInt8)
    : Option (Nat × XilVitisNetP4TargetCounterConfig) := do
  let n ← cfg.findIdx? fun c => blockName = c.nameString
  let c ← cfg[n]?
  return (n, c)

-- The counts are in `mem`, from an offset on. What the block has no counters for is cleared.
def clearCounts (mem : List UInt64) (counts ncounts numCounters : Nat) : Option (List UInt64) :=
  if ncounts > numCounters then
    Buffer.write mem (counts + numCounters) (List.replicate (ncounts - numCounters) 0)
  else
    some mem

def snp4CounterBlockSimpleRead (blockName : List UInt8) (mem : List UInt64) (counts ncounts : Nat)
    : Option (Bool × List UInt64) :=
  match snp4CounterBlockByName cfg blockName with
  | none => some (false, mem)
  | some (b, block) => do
    let numCounters := block.numCounters.toNat
    let mem ← clearCounts mem counts ncounts numCounters
    let ncounts := if ncounts > numCounters then numCounters else ncounts
    let (ok, read) := driver.collectSimpleRead b ncounts
    let mem ← Buffer.write mem counts read
    return (ok, mem)

def snp4CounterBlockComboRead (blockName : List UInt8) (mem : List UInt64)
    (packets bytes ncounts : Nat)
    : Option (Bool × List UInt64) :=
  match snp4CounterBlockByName cfg blockName with
  | none => some (false, mem)
  | some (b, block) => do
    let numCounters := block.numCounters.toNat
    let mem ← clearCounts mem packets ncounts numCounters
    let mem ← clearCounts mem bytes ncounts numCounters
    let ncounts := if ncounts > numCounters then numCounters else ncounts
    let (ok, readPackets, readBytes) := driver.collectComboRead b ncounts
    let mem ← Buffer.write mem packets readPackets
    let mem ← Buffer.write mem bytes readBytes
    return (ok, mem)

end
