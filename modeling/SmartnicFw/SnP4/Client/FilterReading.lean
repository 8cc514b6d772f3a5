import SmartnicFw.SnP4.Agent.FilterSemantics
import SmartnicFw.SnP4.Client.Filter

/-!
This module contains what the filter expressions of the client read as, and in which of them the
negations are in order.
-/

namespace FilterExpr

-- About the elements of a metric, the parts of a string with their indices, or a string
inductive Meaning (n : Nat) where
  | filter (p : Fin n → Prop)
  | part (p : List UInt8 → Nat → Prop)
  | string (p : List UInt8 → Prop)

namespace Meaning

variable {n : Nat}

def complement : Meaning n → Meaning n
  | .filter p => .filter fun i => ¬ p i
  | .part p => .part fun s i => ¬ p s i
  | .string p => .string fun s => ¬ p s

def filter? : Option (Meaning n) → Option (Fin n → Prop)
  | some (.filter p) => some p
  | _ => none

def part? : Option (Meaning n) → Option (List UInt8 → Nat → Prop)
  | some (.part p) => some p
  | _ => none

-- `None` is a wildcard
def string? : Option (Meaning n) → Option (List UInt8 → Prop)
  | none => some fun _ => True
  | some (.string p) => some p
  | _ => none

def splitPart? : Option (Meaning n) → Option (List UInt8 → Nat → Prop)
  | none => some fun _ _ => True
  | some (.part p) => some p
  | _ => none

-- A set of filters or of parts, the first member tells which
def ofMembers (filters : List (Fin n → Prop) → Fin n → Prop)
    (parts : List (List UInt8 → Nat → Prop) → List UInt8 → Nat → Prop)
    (members : List (Option (Meaning n)))
    : Option (Meaning n) :=
  match members with
  | some (.filter p) :: members => do
    let ps ← members.mapM filter?
    return .filter (filters (p :: ps))
  | some (.part p) :: members => do
    let ps ← members.mapM part?
    return .part (parts (p :: ps))
  | _ => none

def union (members : List (Option (Meaning n))) : Option (Meaning n) :=
  ofMembers (fun ps i => ∃ p ∈ ps, p i) (fun ps s i => ∃ p ∈ ps, p s i) members

def inter (members : List (Option (Meaning n))) : Option (Meaning n) :=
  ofMembers (fun ps i => ∀ p ∈ ps, p i) (fun ps s i => ∀ p ∈ ps, p s i) members

def neg (m : Option (Meaning n)) : Option (Meaning n) :=
  match m with
  | some (.filter p) => some (complement (.filter p))
  | some (.part p) => some (complement (.part p))
  | _ => none

end Meaning

-- Indices below zero are relative to the end
def fromEnd (n : Nat) (i : Int) : Int := if i < 0 then i + n else i

-- The indices from the first one in increments of the step, not exceeding the end
def IndexKey.Selects (k : IndexKey) (n i : Nat) : Prop :=
  match k with
  | .index k => i < n ∧ (i : Int) = fromEnd n k
  | .slice start stop step =>
    let first := max (fromEnd n (start.getD 0)) 0
    i < n ∧ first ≤ i ∧ (i : Int) ≤ fromEnd n (stop.getD (-1)) ∧
      max (step.getD 1) 1 ∣ i - first

section Reading

variable (re : Regex) (spec : StatsForEachSpec) (type : SnP4V2.StatsMetricType)

-- A filter by a string of the metric
def attributeReading (string : Option (Meaning spec.nvalues)) (name : List UInt8)
    : Option (Meaning spec.nvalues) := do
  let p ← Meaning.string? string
  return .filter fun _ => p name

def splitReading (pattern : List UInt8) (any : Bool) (part : Option (Meaning spec.nvalues))
    : Option (Meaning spec.nvalues) := do
  let p ← Meaning.splitPart? part
  let parts := re.split pattern
  if any then
    return .string fun str => ∃ i s, (parts str)[i]? = some s ∧ p s i
  else
    return .string fun str => parts str ≠ [] ∧ ∀ i s, (parts str)[i]? = some s → p s i

def methodReading (method : Method) (args : List (Option (Meaning spec.nvalues)))
    : Option (Meaning spec.nvalues) :=
  match method, args with
  | .neg, [m] => Meaning.neg m
  | .any, members => Meaning.union members
  | .all, members => Meaning.inter members
  | .type t, [] => some (.filter fun _ => type = t)
  | .domain, [string] => attributeReading spec string spec.domain.name
  | .zone, [string] => attributeReading spec string spec.zone.name
  | .block, [string] => attributeReading spec string spec.block.name
  | .name, [string] => attributeReading spec string spec.metric.name
  | .indices key, [] => do
    let _ ← key.mapM IndexKey.slice?
    return .filter fun i =>
      if statsMetricFlagTest spec.metric.flags .array then
        ∃ k ∈ key, k.Selects spec.nvalues i
      else
        key = []
  | .label, [key, value] => do
    let p ← Meaning.string? key
    let q ← Meaning.string? value
    return .filter fun i =>
      ∃ v, spec.values[i.val]? = some v ∧ ∃ l ∈ v.labels, p l.key ∧ q l.value
  | .exact string, [] => some (.string fun str => str = string)
  | .prefixed string, [] => some (.string fun str => string <+: str)
  | .suffix string, [] => some (.string fun str => string <:+ str)
  | .sub string, [] => some (.string fun str => string <:+: str)
  | .re pattern, [] => some (.string fun str => re.regexMatch pattern .ecmaScript str = true)
  | .splitAny pattern, [part] => splitReading re spec pattern true part
  | .splitAll pattern, [part] => splitReading re spec pattern false part
  | .partValue, [string] => do
    let p ← Meaning.string? string
    return .part fun s _ => p s
  | .partIndex index, [] => do
    let _ ← uint32 index
    return .part fun _ i => (i : Int) = index
  | _, _ => none

def reading : Interp Method Unit (Option (Meaning spec.nvalues)) := fun method args _ => do
  let m ← methodReading re spec type method args
  return (some m, ())

end Reading

-- A reference to a message, and whether the negations on the way to it are odd in number
abbrev Mark := Option (Nat × Bool)

def markInOrder (negated : List Bool) (m : Mark) : Bool :=
  match m with
  | none => true
  | some (r, odd) => negated[r]? == some odd

-- All methods but one copy the messages they are given
def copied {α : Type} (method : Method) (args : List α) : List α :=
  match method with
  | .neg => []
  | _ => args

section Copies

variable (re : Regex) (spec : StatsForEachSpec) (type : SnP4V2.StatsMetricType)

end Copies

end FilterExpr
