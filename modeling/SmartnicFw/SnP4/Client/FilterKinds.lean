import SmartnicFw.SnP4.Client.FilterMeaning

/-!
This module contains that the methods of the namespace accept their operands by their kinds only, so
that an expression has a reading whatever its negations are.
-/

namespace FilterExpr

namespace Meaning

variable {n : Nat} {a b : Option (Meaning n)}

def SameKind (a b : Option (Meaning n)) : Prop := a.map kind = b.map kind

theorem SameKind.filter? (h : SameKind a b) {p : Fin n → Prop} (ha : Meaning.filter? a = some p)
    : ∃ q, Meaning.filter? b = some q := by
  obtain rfl := filter?_eq_some_iff.mp ha
  rcases b with - | (q | q | q) <;> simp_all [SameKind, kind, Meaning.filter?]

theorem SameKind.part? (h : SameKind a b) {p : List UInt8 → Nat → Prop}
    (ha : Meaning.part? a = some p)
    : ∃ q, Meaning.part? b = some q := by
  obtain rfl := part?_eq_some_iff.mp ha
  rcases b with - | (q | q | q) <;> simp_all [SameKind, kind, Meaning.part?]

theorem SameKind.string? (h : SameKind a b) {p : List UInt8 → Prop}
    (ha : Meaning.string? a = some p)
    : ∃ q, Meaning.string? b = some q := by
  rcases a with - | (p | p | p) <;> rcases b with - | (q | q | q) <;>
    simp_all [SameKind, kind, Meaning.string?]

theorem SameKind.splitPart? (h : SameKind a b) {p : List UInt8 → Nat → Prop}
    (ha : Meaning.splitPart? a = some p)
    : ∃ q, Meaning.splitPart? b = some q := by
  rcases a with - | (p | p | p) <;> rcases b with - | (q | q | q) <;>
    simp_all [SameKind, kind, Meaning.splitPart?]

variable {as bs : List (Option (Meaning n))}

end Meaning

open Meaning

section

variable {re : Regex} {spec : StatsForEachSpec} {type : SnP4V2.StatsMetricType}
  {a b : Option (Meaning spec.nvalues)} {m : Meaning spec.nvalues}

end

end FilterExpr
