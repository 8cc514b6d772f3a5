import Mathlib

/-!
This module contains the string matches of the statistics filters (`stats.cpp`): the messages, the
code that applies them and what they stand for. Strings are lists of bytes, regular expressions are
a parameter.
-/

namespace SnP4V2

inductive StringRegexpGrammar where
  | unknown
  | ecmaScript
  | basicPosix
  | extendedPosix
  | awk
  | grep
  | egrep
  deriving DecidableEq, Repr

structure StringRegexp where
  grammar : StringRegexpGrammar
  pattern : List UInt8
  deriving DecidableEq, Repr

mutual

inductive StatsMetricMatchString where
  | notSet
  | exact (exact : List UInt8)
  | prefixed (text : List UInt8)
  | suffix (suffix : List UInt8)
  | substring (substring : List UInt8)
  | regexp (regexp : StringRegexp)
  | split (pattern : List UInt8) (any : Bool) (part : SplitPart)

inductive SplitPart where
  | mk (negated : Bool) (term : SplitPartTerm)

inductive SplitPartTerm where
  | notSet
  | ofMatch (m : SplitPartMatch)
  | anySet (members : List SplitPart)
  | allSet (members : List SplitPart)

inductive SplitPartMatch where
  | notSet
  | value (value : StatsMetricMatchString)
  | index (index : UInt32)

end

end SnP4V2

-- The options of `regex_constants`
inductive RegexSyntax where
  | ecmaScript
  | basic
  | extended
  | awk
  | grep
  | egrep
  deriving DecidableEq, Repr

-- `regex_match` of a whole string, and the parts that a string is split into by a token iterator
structure Regex where
  regexMatch : List UInt8 → RegexSyntax → List UInt8 → Bool
  split : List UInt8 → List UInt8 → List (List UInt8)

def stringRegexpSyntax : SnP4V2.StringRegexpGrammar → RegexSyntax
  | .basicPosix => .basic
  | .extendedPosix => .extended
  | .awk => .awk
  | .grep => .grep
  | .egrep => .egrep
  | .unknown => .ecmaScript
  | .ecmaScript => .ecmaScript

open SnP4V2

variable (re : Regex)

def applyMetricFilterMatchStringRegexp (regexp : StringRegexp) (str : List UInt8) : Bool :=
  re.regexMatch regexp.pattern (stringRegexpSyntax regexp.grammar) str

-- The loop over the parts of a split string. Each part is matched with its index.
def applyMetricFilterMatchStringSplit.go (matchPart : List UInt8 → Nat → Bool) (any : Bool)
    (parts : List (List UInt8)) (index : Nat)
    : Bool :=
  match parts with
  | [] => !any && index > 0
  | part :: parts =>
    let ok := matchPart part index
    if any && ok then
      true
    else if !any && !ok then
      false
    else
      go matchPart any parts (index + 1)

mutual

def applyMetricFilterMatchString (m : StatsMetricMatchString) (str : List UInt8) : Bool :=
  match m with
  | .exact exact => exact == str
  | .prefixed text => text.length ≤ str.length && str.take text.length == text
  | .suffix suffix =>
    suffix.length ≤ str.length && (str.drop (str.length - suffix.length)).take suffix.length == suffix
  | .substring sub =>
    sub.length ≤ str.length &&
      (List.range (str.length + 1)).any fun pos => (str.drop pos).take sub.length == sub
  | .regexp regexp => applyMetricFilterMatchStringRegexp re regexp str
  | .split pattern any part =>
    applyMetricFilterMatchStringSplit.go
      (fun str index => applyMetricFilterMatchStringSplitPart part str index) any
      (re.split pattern str) 0
  | .notSet => true

def applyMetricFilterMatchStringSplitPart (part : SplitPart) (str : List UInt8) (index : Nat)
    : Bool :=
  match part with
  | .mk negated term =>
    let ok := applyMetricFilterMatchStringSplitPartTerm term str index
    if negated then !ok else ok

def applyMetricFilterMatchStringSplitPartTerm (term : SplitPartTerm) (str : List UInt8)
    (index : Nat)
    : Bool :=
  match term with
  | .ofMatch m => applyMetricFilterMatchStringSplitPartAttr m str index
  | .anySet members => members.length < 1 || matchAnyPart members str index
  | .allSet members => matchAllParts members str index
  | .notSet => true

def matchAnyPart (members : List SplitPart) (str : List UInt8) (index : Nat) : Bool :=
  match members with
  | [] => false
  | member :: members =>
    if applyMetricFilterMatchStringSplitPart member str index then
      true
    else
      matchAnyPart members str index

def matchAllParts (members : List SplitPart) (str : List UInt8) (index : Nat) : Bool :=
  match members with
  | [] => true
  | member :: members =>
    if !applyMetricFilterMatchStringSplitPart member str index then
      false
    else
      matchAllParts members str index

def applyMetricFilterMatchStringSplitPartAttr (m : SplitPartMatch) (str : List UInt8)
    (index : Nat)
    : Bool :=
  match m with
  | .value value => applyMetricFilterMatchString value str
  | .index i => i.toNat == index
  | .notSet => true

end

mutual

-- What a match says about a string
def SnP4V2.StatsMetricMatchString.Holds (m : StatsMetricMatchString) (str : List UInt8) : Prop :=
  match m with
  | .exact exact => str = exact
  | .prefixed text => text <+: str
  | .suffix suffix => suffix <:+ str
  | .substring sub => sub <:+: str
  | .regexp regexp => re.regexMatch regexp.pattern (stringRegexpSyntax regexp.grammar) str = true
  | .split pattern true part =>
    ∃ i s, (re.split pattern str)[i]? = some s ∧ part.Holds s i
  | .split pattern false part =>
    re.split pattern str ≠ [] ∧ ∀ i s, (re.split pattern str)[i]? = some s → part.Holds s i
  | .notSet => True

def SnP4V2.SplitPart.Holds (part : SplitPart) (str : List UInt8) (index : Nat) : Prop :=
  match part with
  | .mk true term => ¬ term.Holds str index
  | .mk false term => term.Holds str index

def SnP4V2.SplitPartTerm.Holds (term : SplitPartTerm) (str : List UInt8) (index : Nat) : Prop :=
  match term with
  | .ofMatch m => m.Holds str index
  | .anySet members => members = [] ∨ AnyPartHolds members str index
  | .allSet members => AllPartsHold members str index
  | .notSet => True

def AnyPartHolds (members : List SplitPart) (str : List UInt8) (index : Nat) : Prop :=
  match members with
  | [] => False
  | member :: members => member.Holds str index ∨ AnyPartHolds members str index

def AllPartsHold (members : List SplitPart) (str : List UInt8) (index : Nat) : Prop :=
  match members with
  | [] => True
  | member :: members => member.Holds str index ∧ AllPartsHold members str index

def SnP4V2.SplitPartMatch.Holds (m : SplitPartMatch) (str : List UInt8) (index : Nat) : Prop :=
  match m with
  | .value value => value.Holds str
  | .index i => index = i.toNat
  | .notSet => True

end

namespace applyMetricFilterMatchStringSplit

theorem go_any (matchPart : List UInt8 → Nat → Bool) (parts : List (List UInt8)) (index : Nat)
    : go matchPart true parts index = (parts.zipIdx index).any fun p => matchPart p.1 p.2 := by
  induction parts generalizing index with
  | nil => rfl
  | cons part parts ih =>
    cases hok : matchPart part index <;>
      simp [go, hok, ih]

theorem go_all (matchPart : List UInt8 → Nat → Bool) (parts : List (List UInt8)) (index : Nat)
    : go matchPart false parts index =
        (decide (0 < index + parts.length) &&
          (parts.zipIdx index).all fun p => matchPart p.1 p.2) := by
  induction parts generalizing index with
  | nil => simp [go]
  | cons part parts ih =>
    have hpos : 0 < index + 1 + parts.length := by omega
    cases hok : matchPart part index <;>
      simp [go, hok, ih, hpos]

end applyMetricFilterMatchStringSplit

-- The code looks for a substring at every position
theorem any_range_drop_iff (sub str : List UInt8)
    : (sub.length ≤ str.length &&
        (List.range (str.length + 1)).any fun pos => (str.drop pos).take sub.length == sub) = true ↔
      sub <:+: str := by
  simp only [Bool.and_eq_true, decide_eq_true_eq, List.any_eq_true, List.mem_range, beq_iff_eq]
  constructor
  . rintro ⟨_, pos, _, htake⟩
    have hprefix : sub <+: str.drop pos := by
      rw [← htake]
      exact List.take_prefix _ _
    exact hprefix.isInfix.trans (List.drop_suffix pos str).isInfix
  . rintro ⟨s, t, rfl⟩
    refine ⟨?_, s.length, ?_, by simp⟩ <;>
    . simp only [List.length_append]
      omega

theorem take_length_eq_iff (text str : List UInt8)
    : (text.length ≤ str.length && str.take text.length == text) = true ↔ text <+: str := by
  rw [Bool.and_eq_true, decide_eq_true_eq, beq_iff_eq]
  constructor
  . rintro ⟨_, htake⟩
    rw [← htake]
    exact List.take_prefix _ _
  . intro h
    exact ⟨h.length_le, (List.prefix_iff_eq_take.mp h).symm⟩

theorem drop_length_eq_iff (suffix str : List UInt8)
    : (suffix.length ≤ str.length &&
        (str.drop (str.length - suffix.length)).take suffix.length == suffix) = true ↔
      suffix <:+ str := by
  rw [Bool.and_eq_true, decide_eq_true_eq, beq_iff_eq]
  have htake : suffix.length ≤ str.length →
      (str.drop (str.length - suffix.length)).take suffix.length =
        str.drop (str.length - suffix.length) := by
    intro hle
    apply List.take_of_length_le
    rw [List.length_drop]
    omega
  constructor
  . rintro ⟨hle, hdrop⟩
    rw [htake hle] at hdrop
    rw [← hdrop]
    exact List.drop_suffix _ _
  . intro h
    rw [htake h.length_le]
    exact ⟨h.length_le, (List.suffix_iff_eq_drop.mp h).symm⟩

mutual

theorem applyMetricFilterMatchString_iff (m : StatsMetricMatchString) (str : List UInt8)
    : applyMetricFilterMatchString re m str = true ↔ m.Holds re str := by
  cases m with
  | notSet => simp [applyMetricFilterMatchString, StatsMetricMatchString.Holds]
  | exact exact =>
    rw [applyMetricFilterMatchString, StatsMetricMatchString.Holds]
    exact beq_iff_eq.trans eq_comm
  | prefixed text =>
    rw [applyMetricFilterMatchString, StatsMetricMatchString.Holds]
    exact take_length_eq_iff text str
  | suffix suffix =>
    rw [applyMetricFilterMatchString, StatsMetricMatchString.Holds]
    exact drop_length_eq_iff suffix str
  | substring sub =>
    rw [applyMetricFilterMatchString, StatsMetricMatchString.Holds]
    exact any_range_drop_iff sub str
  | regexp regexp =>
    rw [applyMetricFilterMatchString, StatsMetricMatchString.Holds]
    rfl
  | split pattern any part =>
    have hpart := fun s i => applyMetricFilterMatchStringSplitPart_iff part s i
    rw [applyMetricFilterMatchString]
    cases any with
    | true =>
      rw [applyMetricFilterMatchStringSplit.go_any, StatsMetricMatchString.Holds]
      simp only [List.any_eq_true, Prod.exists, List.mem_zipIdx_iff_getElem?, hpart]
      exact exists_comm
    | false =>
      rw [applyMetricFilterMatchStringSplit.go_all, StatsMetricMatchString.Holds]
      simp only [Bool.and_eq_true, decide_eq_true_eq, Nat.zero_add, List.length_pos_iff,
        List.all_eq_true, Prod.forall, List.mem_zipIdx_iff_getElem?, hpart]
      exact and_congr_right' forall_comm

theorem applyMetricFilterMatchStringSplitPart_iff (part : SplitPart) (str : List UInt8)
    (index : Nat)
    : applyMetricFilterMatchStringSplitPart re part str index = true ↔
        part.Holds re str index := by
  cases part with
  | mk negated term =>
    have hterm := applyMetricFilterMatchStringSplitPartTerm_iff term str index
    cases negated with
    | true =>
      simp [applyMetricFilterMatchStringSplitPart, SplitPart.Holds, ← hterm]
    | false => simpa [applyMetricFilterMatchStringSplitPart, SplitPart.Holds] using hterm

theorem applyMetricFilterMatchStringSplitPartTerm_iff (term : SplitPartTerm) (str : List UInt8)
    (index : Nat)
    : applyMetricFilterMatchStringSplitPartTerm re term str index = true ↔
        term.Holds re str index := by
  cases term with
  | notSet => simp [applyMetricFilterMatchStringSplitPartTerm, SplitPartTerm.Holds]
  | ofMatch m =>
    rw [applyMetricFilterMatchStringSplitPartTerm, SplitPartTerm.Holds]
    exact applyMetricFilterMatchStringSplitPartAttr_iff m str index
  | anySet members =>
    have hmembers := matchAnyPart_iff members str index
    simp [applyMetricFilterMatchStringSplitPartTerm, SplitPartTerm.Holds, hmembers]
  | allSet members =>
    rw [applyMetricFilterMatchStringSplitPartTerm, SplitPartTerm.Holds]
    exact matchAllParts_iff members str index

theorem matchAnyPart_iff (members : List SplitPart) (str : List UInt8) (index : Nat)
    : matchAnyPart re members str index = true ↔ AnyPartHolds re members str index := by
  cases members with
  | nil => simp [matchAnyPart, AnyPartHolds]
  | cons member members =>
    have hmember := applyMetricFilterMatchStringSplitPart_iff member str index
    have hmembers := matchAnyPart_iff members str index
    rw [matchAnyPart, AnyPartHolds, ← hmember, ← hmembers]
    split <;> simp_all

theorem matchAllParts_iff (members : List SplitPart) (str : List UInt8) (index : Nat)
    : matchAllParts re members str index = true ↔ AllPartsHold re members str index := by
  cases members with
  | nil => simp [matchAllParts, AllPartsHold]
  | cons member members =>
    have hmember := applyMetricFilterMatchStringSplitPart_iff member str index
    have hmembers := matchAllParts_iff members str index
    rw [matchAllParts, AllPartsHold, ← hmember, ← hmembers]
    split <;> simp_all

theorem applyMetricFilterMatchStringSplitPartAttr_iff (m : SplitPartMatch) (str : List UInt8)
    (index : Nat)
    : applyMetricFilterMatchStringSplitPartAttr re m str index = true ↔ m.Holds re str index := by
  cases m with
  | notSet => simp [applyMetricFilterMatchStringSplitPartAttr, SplitPartMatch.Holds]
  | value value =>
    rw [applyMetricFilterMatchStringSplitPartAttr, SplitPartMatch.Holds]
    exact applyMetricFilterMatchString_iff value str
  | index i =>
    rw [applyMetricFilterMatchStringSplitPartAttr, SplitPartMatch.Holds]
    exact beq_iff_eq.trans eq_comm

end
