import SmartnicFw.Lib.MapM
import SmartnicFw.SnP4.Client.FilterReading

/-!
This module contains what the messages of the client say, and that each method of the namespace makes
a message that says what the method reads as.
-/

namespace FilterExpr

open SnP4V2 (StatsMetricMatchString StatsMetricMatch StatsMetricFilter)

inductive Kind where
  | filter
  | part
  | string
  deriving DecidableEq, Repr

def Message.kind : Message → Kind
  | .filter _ => .filter
  | .part _ => .part
  | .string _ => .string

def Message.negated : Message → Bool
  | .filter (.mk negated _) => negated
  | .part (.mk negated _) => negated
  | .string _ => false

def Message.slices : Message → List StatsMetricMatchIndexSlice
  | .filter f => f.slices
  | _ => []

namespace Meaning

variable {n : Nat}

def kind : Meaning n → Kind
  | .filter _ => .filter
  | .part _ => .part
  | .string _ => .string

def markedBy (m : Meaning n) (negated : Bool) : Meaning n := if negated then m.complement else m

@[simp]
theorem complement_complement (m : Meaning n) : m.complement.complement = m := by
  cases m <;> simp [complement]

theorem filter?_eq_some_iff {m : Option (Meaning n)} {p : Fin n → Prop}
    : filter? m = some p ↔ m = some (.filter p) := by
  rcases m with - | (q | q | q) <;> simp [filter?]

theorem part?_eq_some_iff {m : Option (Meaning n)} {p : List UInt8 → Nat → Prop}
    : part? m = some p ↔ m = some (.part p) := by
  rcases m with - | (q | q | q) <;> simp [part?]

section Members

variable {filters : List (Fin n → Prop) → Fin n → Prop}
  {parts : List (List UInt8 → Nat → Prop) → List UInt8 → Nat → Prop}
  {members : List (Option (Meaning n))}

end Members

-- There is an element to tell both apart
theorem complement_ne (hn : 0 < n) (m : Meaning n) : m.complement ≠ m := by
  cases m with
  | filter p =>
    intro h
    have hp := congrFun (Meaning.filter.inj h) ⟨0, hn⟩
    simp at hp
  | part p =>
    intro h
    have hp := congrFun (congrFun (Meaning.part.inj h) []) 0
    simp at hp
  | string p =>
    intro h
    have hp := congrFun (Meaning.string.inj h) []
    simp at hp

theorem markedBy_inj (hn : 0 < n) (m : Meaning n) {a b : Bool}
    : m.markedBy a = m.markedBy b ↔ a = b := by
  have hne := m.complement_ne hn
  cases a <;> cases b <;> simp [markedBy, hne, hne.symm]

end Meaning

section Meanings

variable (re : Regex) (spec : StatsForEachSpec) (type : SnP4V2.StatsMetricType)

def Message.meaning : Message → Meaning spec.nvalues
  | .filter f => .filter fun i => f.Holds re spec type i
  | .part p => .part fun s i => p.Holds re s i
  | .string m => .string fun s => m.Holds re s

-- Without the negation
def Message.plain : Message → Meaning spec.nvalues
  | .filter (.mk _ term) => .filter fun i => term.Holds re spec type i
  | .part (.mk _ term) => .part fun s i => term.Holds re s i
  | .string m => .string fun s => m.Holds re s

theorem Message.meaning_eq_markedBy (m : Message)
    : m.meaning re spec type = (m.plain re spec type).markedBy m.negated := by
  cases m with
  | filter f =>
    obtain ⟨negated, term⟩ := f
    cases negated <;> rfl
  | part p =>
    obtain ⟨negated, term⟩ := p
    cases negated <;> rfl
  | string m => rfl

def meaningOf (m : Option Message) : Option (Meaning spec.nvalues) :=
  m.map (Message.meaning re spec type)

end Meanings

section Slices

theorem toInt_of_sint32 {x : Int} {y : Int32} (h : sint32 x = some y) : y.toInt = x := by
  unfold sint32 at h
  split at h
  . next hrange =>
    cases h
    exact Int32.toInt_ofInt_of_le hrange.1 hrange.2
  . contradiction

theorem toNat_of_uint32 {x : Int} {y : UInt32} (h : uint32 x = some y) : (y.toNat : Int) = x := by
  unfold uint32 at h
  split at h
  . next hrange =>
    cases h
    have hlt : x.toNat < UInt32.size := by
      unfold UInt32.size
      omega
    rw [UInt32.toNat_ofNat_of_lt' hlt]
    omega
  . contradiction

theorem selects_iff_of_bounds {s : StatsMetricMatchIndexSlice} {start stop step : Int}
    (hstart : s.start.toInt = start) (hstop : s.stop.toInt = stop)
    (hstep : (s.step.toNat : Int) = step) (n i : Nat)
    : s.Selects n i ↔ i < n ∧ max (fromEnd n start) 0 ≤ i ∧ (i : Int) ≤ fromEnd n stop ∧
        max step 1 ∣ i - max (fromEnd n start) 0 := by
  have hfirst : s.first n = max (fromEnd n start) 0 := by
    unfold StatsMetricMatchIndexSlice.first fromEnd
    rw [hstart]
    split <;> omega
  have hlast : s.last n = min (fromEnd n stop) (n - 1) := by
    unfold StatsMetricMatchIndexSlice.last fromEnd
    rw [hstop]
  have hincrement : (s.increment.toNat : Int) = max step 1 := by
    unfold StatsMetricMatchIndexSlice.increment
    split
    . next h =>
      rw [UInt32.lt_iff_toNat_lt, UInt32.toNat_one] at h
      rw [UInt32.toNat_one]
      omega
    . next h =>
      rw [UInt32.lt_iff_toNat_lt, UInt32.toNat_one] at h
      omega
  unfold StatsMetricMatchIndexSlice.Selects
  rw [hfirst, hlast, hincrement]
  constructor
  . rintro ⟨k, hi, hle⟩
    have hpos : (0 : Int) ≤ k * max step 1 := Int.mul_nonneg (by omega) (by omega)
    refine ⟨by omega, by omega, by omega, ⟨k, ?_⟩⟩
    rw [hi]
    ring
  . rintro ⟨hi, hge, hle, q, hq⟩
    have hq_nonneg : 0 ≤ q := by
      by_contra hneg
      have hmul : max step 1 * q ≤ max step 1 * (-1) :=
        Int.mul_le_mul_of_nonneg_left (by omega) (by omega)
      omega
    obtain ⟨k, rfl⟩ := Int.eq_ofNat_of_zero_le hq_nonneg
    refine ⟨k, ?_, by omega⟩
    rw [Int.mul_comm] at hq
    omega

theorem IndexKey.selects_iff {k : IndexKey} {s : StatsMetricMatchIndexSlice}
    (h : k.slice? = some s) (n i : Nat)
    : s.Selects n i ↔ k.Selects n i := by
  simp only [IndexKey.slice?, Option.bind_eq_bind, Option.bind_eq_some_iff, Option.pure_def] at h
  obtain ⟨a, ha, b, hb, c, hc, h⟩ := h
  cases h
  rw [selects_iff_of_bounds (toInt_of_sint32 ha) (toInt_of_sint32 hb) (toNat_of_uint32 hc)]
  cases k with
  | index k =>
    simp only [IndexKey.Selects]
    simp
    omega
  | slice start stop step => rfl

end Slices

section Methods

variable (re : Regex) (spec : StatsForEachSpec) (type : SnP4V2.StatsMetricType)

-- What is said by the message that a value refers to
def loadMeaning (messages : List Message) (v : Value) : Option (Meaning spec.nvalues) :=
  meaningOf re spec type (load messages v)

variable {re spec type} {messages : List Message} {v : Value}

end Methods

end FilterExpr
