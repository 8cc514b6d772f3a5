import SmartnicFw.Lib.Except
import SmartnicFw.SnP4.Agent.MetricFilter

/-!
This module contains the evaluation of a filter with the exceptions of `std::regex` (`stats.cpp`), and
that it yields what the evaluation without exceptions does wherever none is thrown. None is thrown
where all patterns of the filter are accepted.
-/

inductive RegexError where
  | regexError
  deriving DecidableEq, Repr

-- The patterns that `std::regex` can be constructed from
structure ThrowingRegex extends Regex where
  accepts : List UInt8 → RegexSyntax → Bool

open SnP4V2 (StringRegexp StatsMetricMatchString SplitPart SplitPartTerm SplitPartMatch
  StatsMetricMatch StatsMetricFilter StatsMetricFilterTerm StatsFilters)

namespace Throwing

-- An evaluation that need not end
abbrev Eval (α : Type) := ExceptT RegexError Option α

variable (re : ThrowingRegex)

def construct (pattern : List UInt8) (syntax' : RegexSyntax) : Except RegexError Unit :=
  if re.accepts pattern syntax' then .ok () else .error .regexError

def applyMetricFilterMatchStringRegexp (regexp : StringRegexp) (str : List UInt8)
    : Except RegexError Bool := do
  construct re regexp.pattern (stringRegexpSyntax regexp.grammar)
  return re.regexMatch regexp.pattern (stringRegexpSyntax regexp.grammar) str

def applyMetricFilterMatchStringSplit.go
    (matchPart : List UInt8 → Nat → Except RegexError Bool) (any : Bool)
    (parts : List (List UInt8)) (index : Nat)
    : Except RegexError Bool :=
  match parts with
  | [] => .ok (!any && index > 0)
  | part :: parts => do
    let ok ← matchPart part index
    if any && ok then
      return true
    else if !any && !ok then
      return false
    else
      go matchPart any parts (index + 1)

mutual

def applyMetricFilterMatchString (m : StatsMetricMatchString) (str : List UInt8)
    : Except RegexError Bool :=
  match m with
  | .exact exact => .ok (exact == str)
  | .prefixed text => .ok (text.length ≤ str.length && str.take text.length == text)
  | .suffix suffix =>
    .ok (suffix.length ≤ str.length &&
      (str.drop (str.length - suffix.length)).take suffix.length == suffix)
  | .substring sub =>
    .ok (sub.length ≤ str.length &&
      (List.range (str.length + 1)).any fun pos => (str.drop pos).take sub.length == sub)
  | .regexp regexp => applyMetricFilterMatchStringRegexp re regexp str
  | .split pattern any part => do
    construct re pattern .ecmaScript
    applyMetricFilterMatchStringSplit.go
      (fun str index => applyMetricFilterMatchStringSplitPart part str index) any
      (re.split pattern str) 0
  | .notSet => .ok true

def applyMetricFilterMatchStringSplitPart (part : SplitPart) (str : List UInt8) (index : Nat)
    : Except RegexError Bool :=
  match part with
  | .mk negated term => do
    let ok ← applyMetricFilterMatchStringSplitPartTerm term str index
    return if negated then !ok else ok

def applyMetricFilterMatchStringSplitPartTerm (term : SplitPartTerm) (str : List UInt8)
    (index : Nat)
    : Except RegexError Bool :=
  match term with
  | .ofMatch m => applyMetricFilterMatchStringSplitPartAttr m str index
  | .anySet members =>
    if members.length < 1 then .ok true else matchAnyPart members str index
  | .allSet members => matchAllParts members str index
  | .notSet => .ok true

def matchAnyPart (members : List SplitPart) (str : List UInt8) (index : Nat)
    : Except RegexError Bool :=
  match members with
  | [] => .ok false
  | member :: members => do
    let ok ← applyMetricFilterMatchStringSplitPart member str index
    if ok then
      return true
    else
      matchAnyPart members str index

def matchAllParts (members : List SplitPart) (str : List UInt8) (index : Nat)
    : Except RegexError Bool :=
  match members with
  | [] => .ok true
  | member :: members => do
    let ok ← applyMetricFilterMatchStringSplitPart member str index
    if !ok then
      return false
    else
      matchAllParts members str index

def applyMetricFilterMatchStringSplitPartAttr (m : SplitPartMatch) (str : List UInt8)
    (index : Nat)
    : Except RegexError Bool :=
  match m with
  | .value value => applyMetricFilterMatchString value str
  | .index i => .ok (i.toNat == index)
  | .notSet => .ok true

end

section Label

variable {nbits : Nat}

-- A missing key or value matches always
def optionMatches (m : Option StatsMetricMatchString) (str : List UInt8) : Except RegexError Bool :=
  match m with
  | none => .ok true
  | some m => applyMetricFilterMatchString re m str

def applyMetricFilterMatchLabel.labelMatches (key value : Option StatsMetricMatchString)
    (vl : StatsLabel)
    : Except RegexError Bool := do
  let ok ← optionMatches re key vl.key
  if !ok then
    return false
  else
    optionMatches re value vl.value

def applyMetricFilterMatchLabel.anyLabel (key value : Option StatsMetricMatchString)
    (labels : List StatsLabel)
    : Except RegexError Bool :=
  match labels with
  | [] => .ok false
  | vl :: labels => do
    let ok ← labelMatches re key value vl
    if ok then
      return true
    else
      anyLabel key value labels

def applyMetricFilterMatchLabel.go (key value : Option StatsMetricMatchString)
    (values : List StatsMetricValue) (n : Nat) (valid : BitArray nbits)
    : Except RegexError (BitArray nbits) :=
  match values with
  | [] => .ok valid
  | v :: values => do
    let ok ← anyLabel re key value v.labels
    if ok then
      go key value values (n + 1) (valid.assignBit n true)
    else
      go key value values (n + 1) valid

end Label

section Filter

variable {nbits : Nat} (fuel : Nat) (spec : StatsForEachSpec)

def assignAllMatches (m : StatsMetricMatchString) (str : List UInt8) (valid : BitArray nbits)
    : Except RegexError (BitArray nbits) := do
  let ok ← applyMetricFilterMatchString re m str
  return valid.assignAll ok

def applyMetricFilterMatch (m : StatsMetricMatch) (type : SnP4V2.StatsMetricType)
    (valid : BitArray nbits)
    : Eval (BitArray nbits) :=
  match m with
  | .type t => pure (valid.assignAll (t == type))
  | .domain domain => ExceptT.mk (some (assignAllMatches re domain spec.domain.name valid))
  | .zone zone => ExceptT.mk (some (assignAllMatches re zone spec.zone.name valid))
  | .block block => ExceptT.mk (some (assignAllMatches re block spec.block.name valid))
  | .name name => ExceptT.mk (some (assignAllMatches re name spec.metric.name valid))
  | .indices slices => ExceptT.lift (applyMetricFilterMatchIndices fuel spec slices valid)
  | .label key value =>
    ExceptT.mk (some (applyMetricFilterMatchLabel.go re key value spec.values 0 valid))
  | .notSet => pure (valid.assignAll true)

mutual

def applyMetricFilter (filter : StatsMetricFilter) (type : SnP4V2.StatsMetricType)
    (valid : BitArray nbits)
    : Eval (BitArray nbits) :=
  match filter with
  | .mk negated term => do
    let valid ← applyMetricFilterTerm term type valid
    return if negated then valid.negateAll else valid

def applyMetricFilterTerm (term : StatsMetricFilterTerm) (type : SnP4V2.StatsMetricType)
    (valid : BitArray nbits)
    : Eval (BitArray nbits) :=
  match term with
  | .ofMatch m => applyMetricFilterMatch re fuel spec m type valid
  | .anySet members =>
    if members.length < 1 then
      pure valid.setAll
    else
      applyMetricFilterAnySet members type valid (BitArray.new nbits valid.nbits_pos)
  | .allSet members =>
    let valid := valid.setAll
    if members.length < 1 then
      pure valid
    else
      applyMetricFilterAllSet members type valid (BitArray.new nbits valid.nbits_pos)
  | .notSet => pure valid.setAll

def applyMetricFilterAnySet (members : List StatsMetricFilter) (type : SnP4V2.StatsMetricType)
    (valid v : BitArray nbits)
    : Eval (BitArray nbits) :=
  match members with
  | [] => pure valid
  | member :: members => do
    let v ← applyMetricFilter member type v
    let valid := valid.orAssign v
    if valid.isAllSet then
      return valid
    applyMetricFilterAnySet members type valid v.clearAll

def applyMetricFilterAllSet (members : List StatsMetricFilter) (type : SnP4V2.StatsMetricType)
    (valid v : BitArray nbits)
    : Eval (BitArray nbits) :=
  match members with
  | [] => pure valid
  | member :: members => do
    let v ← applyMetricFilter member type v
    let valid := valid.andAssign v
    if valid.isAllCleared then
      return valid
    applyMetricFilterAllSet members type valid v.clearAll

end

def applyFilters (filters : StatsFilters) (type : SnP4V2.StatsMetricType) (valid : BitArray nbits)
    : Eval (BitArray nbits) := do
  let valid := applyFilters.go filters.nonZero spec.values 0 valid
  if valid.isAllCleared then
    return valid
  match filters.metricFilter with
  | some metricFilter =>
    let v ← applyMetricFilter re fuel spec metricFilter type (BitArray.new nbits valid.nbits_pos)
    return valid.andAssign v
  | none => return valid

end Filter

end Throwing

section Patterns

namespace SnP4V2

mutual

-- All patterns that occur in a match, each with the grammar that it is constructed with
def StatsMetricMatchString.patterns (m : StatsMetricMatchString)
    : List (List UInt8 × RegexSyntax) :=
  match m with
  | .regexp regexp => [(regexp.pattern, stringRegexpSyntax regexp.grammar)]
  | .split pattern _ part => (pattern, .ecmaScript) :: part.patterns
  | _ => []

def SplitPart.patterns (part : SplitPart) : List (List UInt8 × RegexSyntax) :=
  match part with
  | .mk _ term => term.patterns

def SplitPartTerm.patterns (term : SplitPartTerm) : List (List UInt8 × RegexSyntax) :=
  match term with
  | .ofMatch m => m.patterns
  | .anySet members => patternsOfParts members
  | .allSet members => patternsOfParts members
  | .notSet => []

def patternsOfParts (members : List SplitPart) : List (List UInt8 × RegexSyntax) :=
  match members with
  | [] => []
  | member :: members => member.patterns ++ patternsOfParts members

def SplitPartMatch.patterns (m : SplitPartMatch) : List (List UInt8 × RegexSyntax) :=
  match m with
  | .value value => value.patterns
  | _ => []

end

def patternsOfOption (m : Option StatsMetricMatchString) : List (List UInt8 × RegexSyntax) :=
  (m.map StatsMetricMatchString.patterns).getD []

def StatsMetricMatch.patterns (m : StatsMetricMatch) : List (List UInt8 × RegexSyntax) :=
  match m with
  | .domain m => m.patterns
  | .zone m => m.patterns
  | .block m => m.patterns
  | .name m => m.patterns
  | .label key value => patternsOfOption key ++ patternsOfOption value
  | _ => []

mutual

def StatsMetricFilter.patterns (filter : StatsMetricFilter) : List (List UInt8 × RegexSyntax) :=
  match filter with
  | .mk _ term => term.patterns

def StatsMetricFilterTerm.patterns (term : StatsMetricFilterTerm)
    : List (List UInt8 × RegexSyntax) :=
  match term with
  | .ofMatch m => m.patterns
  | .anySet members => patternsOfMembers members
  | .allSet members => patternsOfMembers members
  | .notSet => []

def patternsOfMembers (members : List StatsMetricFilter) : List (List UInt8 × RegexSyntax) :=
  match members with
  | [] => []
  | member :: members => member.patterns ++ patternsOfMembers members

end

end SnP4V2

def ThrowingRegex.AcceptsAll (re : ThrowingRegex) (patterns : List (List UInt8 × RegexSyntax))
    : Prop :=
  ∀ p ∈ patterns, re.accepts p.1 p.2 = true

end Patterns

section Agreement

/--
The value wherever no exception is thrown, and none is thrown if `accepted` holds.
-/
structure Except.Yields {ε α : Type} (accepted : Prop) (x : Except ε α) (a : α) : Prop where
  eq_of_ok : ∀ b, x = .ok b → b = a
  ok_of_accepted : accepted → x = .ok a

structure Throwing.Eval.Yields {α : Type} (accepted : Prop) (x : Throwing.Eval α) (y : Option α)
    : Prop where
  eq_of_ok : ∀ b, x = (some (.ok b) : Option (Except RegexError α)) → y = some b
  ok_of_accepted : accepted → x = y.map Except.ok

variable {accepted : Prop}

theorem Except.Yields.ok {ε α : Type} (a : α) : Except.Yields accepted (.ok a : Except ε α) a where
  eq_of_ok := by
    intro b h
    cases h
    rfl
  ok_of_accepted := fun _ => rfl

theorem Except.Yields.bind {ε α β : Type} {x : Except ε α} {a : α} {f : α → Except ε β} {b : β}
    (hx : Except.Yields accepted x a) (hf : Except.Yields accepted (f a) b)
    : Except.Yields accepted (x >>= f) b where
  eq_of_ok := by
    intro c h
    obtain ⟨a', ha', hc⟩ := Except.bind_eq_ok_iff.mp h
    rw [hx.eq_of_ok a' ha'] at hc
    exact hf.eq_of_ok c hc
  ok_of_accepted := by
    intro h
    rw [hx.ok_of_accepted h]
    exact hf.ok_of_accepted h

theorem Throwing.Eval.Yields.pure {α : Type} (a : α)
    : Throwing.Eval.Yields accepted (Pure.pure a) (some a) where
  eq_of_ok := by
    intro b h
    cases h
    rfl
  ok_of_accepted := fun _ => rfl

theorem Throwing.Eval.Yields.bind {α β : Type} {x : Throwing.Eval α} {y : Option α}
    {f : α → Throwing.Eval β} {g : α → Option β} (hx : Throwing.Eval.Yields accepted x y)
    (hf : ∀ a, Throwing.Eval.Yields accepted (f a) (g a))
    : Throwing.Eval.Yields accepted (x >>= f) (y >>= g) where
  eq_of_ok := by
    intro c h
    match x with
    | none => cases h
    | some (.error e) => cases h
    | some (.ok a) =>
      rw [hx.eq_of_ok a rfl]
      exact (hf a).eq_of_ok c h
  ok_of_accepted := by
    intro h
    rw [hx.ok_of_accepted h]
    cases y with
    | none => rfl
    | some a => exact (hf a).ok_of_accepted h

theorem Throwing.Eval.Yields.of_except {α : Type} {x : Except RegexError α} {a : α}
    (h : Except.Yields accepted x a)
    : Throwing.Eval.Yields accepted (ExceptT.mk (some x)) (some a) where
  eq_of_ok := by
    intro b hb
    rw [h.eq_of_ok b (Option.some.inj hb)]
  ok_of_accepted := by
    intro hyes
    rw [h.ok_of_accepted hyes]
    rfl

theorem Throwing.Eval.Yields.lift {α : Type} (x : Option α)
    : Throwing.Eval.Yields accepted (ExceptT.lift x) x where
  eq_of_ok := by
    intro b hb
    cases x with
    | none => cases hb
    | some a =>
      cases hb
      rfl
  ok_of_accepted := by
    intro _
    cases x <;> rfl

variable (re : ThrowingRegex)

theorem ThrowingRegex.AcceptsAll.left {re : ThrowingRegex} {ps qs : List (List UInt8 × RegexSyntax)}
    (h : accepted → re.AcceptsAll (ps ++ qs))
    : accepted → re.AcceptsAll ps := by
  intro hyes
  exact (List.forall_mem_append.mp (h hyes)).1

theorem ThrowingRegex.AcceptsAll.right {re : ThrowingRegex}
    {ps qs : List (List UInt8 × RegexSyntax)} (h : accepted → re.AcceptsAll (ps ++ qs))
    : accepted → re.AcceptsAll qs := by
  intro hyes
  exact (List.forall_mem_append.mp (h hyes)).2

theorem construct_bind_yields {β : Type} {pattern : List UInt8} {grammar : RegexSyntax}
    (hpattern : accepted → re.accepts pattern grammar = true) {x : Except RegexError β} {b : β}
    (h : Except.Yields accepted x b)
    : Except.Yields accepted (Throwing.construct re pattern grammar >>= fun _ => x) b where
  eq_of_ok := by
    intro c hc
    obtain ⟨_, _, hc⟩ := Except.bind_eq_ok_iff.mp hc
    exact h.eq_of_ok c hc
  ok_of_accepted := by
    intro hyes
    unfold Throwing.construct
    rw [if_pos (hpattern hyes)]
    exact h.ok_of_accepted hyes

theorem go_yields {matchPart : List UInt8 → Nat → Except RegexError Bool}
    {matchPart' : List UInt8 → Nat → Bool}
    (h : ∀ str index, Except.Yields accepted (matchPart str index) (matchPart' str index))
    (any : Bool)
    (parts : List (List UInt8)) (index : Nat)
    : Except.Yields accepted (Throwing.applyMetricFilterMatchStringSplit.go matchPart any parts index)
        (applyMetricFilterMatchStringSplit.go matchPart' any parts index) := by
  induction parts generalizing index with
  | nil => exact Except.Yields.ok _
  | cons part parts ih =>
    unfold Throwing.applyMetricFilterMatchStringSplit.go applyMetricFilterMatchStringSplit.go
    apply (h part index).bind
    simp only
    split
    . exact Except.Yields.ok _
    . split
      . exact Except.Yields.ok _
      . exact ih (index + 1)

mutual

theorem applyMetricFilterMatchString_yields (m : StatsMetricMatchString)
    (h : accepted → re.AcceptsAll m.patterns) (str : List UInt8)
    : Except.Yields accepted (Throwing.applyMetricFilterMatchString re m str)
        (applyMetricFilterMatchString re.toRegex m str) := by
  cases m with
  | notSet =>
    rw [Throwing.applyMetricFilterMatchString, applyMetricFilterMatchString]
    exact Except.Yields.ok _
  | exact exact =>
    rw [Throwing.applyMetricFilterMatchString, applyMetricFilterMatchString]
    exact Except.Yields.ok _
  | prefixed text =>
    rw [Throwing.applyMetricFilterMatchString, applyMetricFilterMatchString]
    exact Except.Yields.ok _
  | suffix suffix =>
    rw [Throwing.applyMetricFilterMatchString, applyMetricFilterMatchString]
    exact Except.Yields.ok _
  | substring sub =>
    rw [Throwing.applyMetricFilterMatchString, applyMetricFilterMatchString]
    exact Except.Yields.ok _
  | regexp regexp =>
    rw [Throwing.applyMetricFilterMatchString, applyMetricFilterMatchString]
    apply construct_bind_yields re _ (Except.Yields.ok _)
    intro hyes
    exact h hyes _ (List.mem_singleton_self _)
  | split pattern any part =>
    rw [Throwing.applyMetricFilterMatchString, applyMetricFilterMatchString]
    apply construct_bind_yields re fun hyes => (List.forall_mem_cons.mp (h hyes)).1
    apply go_yields
    intro s i
    apply applyMetricFilterMatchStringSplitPart_yields part
    intro hyes
    exact (List.forall_mem_cons.mp (h hyes)).2

theorem applyMetricFilterMatchStringSplitPart_yields (part : SplitPart)
    (h : accepted → re.AcceptsAll part.patterns) (str : List UInt8) (index : Nat)
    : Except.Yields accepted (Throwing.applyMetricFilterMatchStringSplitPart re part str index)
        (applyMetricFilterMatchStringSplitPart re.toRegex part str index) := by
  cases part with
  | mk negated term =>
    rw [Throwing.applyMetricFilterMatchStringSplitPart, applyMetricFilterMatchStringSplitPart]
    apply (applyMetricFilterMatchStringSplitPartTerm_yields term h str index).bind
    exact Except.Yields.ok _

theorem applyMetricFilterMatchStringSplitPartTerm_yields (term : SplitPartTerm)
    (h : accepted → re.AcceptsAll term.patterns) (str : List UInt8) (index : Nat)
    : Except.Yields accepted (Throwing.applyMetricFilterMatchStringSplitPartTerm re term str index)
        (applyMetricFilterMatchStringSplitPartTerm re.toRegex term str index) := by
  cases term with
  | notSet =>
    rw [Throwing.applyMetricFilterMatchStringSplitPartTerm,
      applyMetricFilterMatchStringSplitPartTerm]
    exact Except.Yields.ok _
  | ofMatch m =>
    rw [Throwing.applyMetricFilterMatchStringSplitPartTerm,
      applyMetricFilterMatchStringSplitPartTerm]
    exact applyMetricFilterMatchStringSplitPartAttr_yields m h str index
  | anySet members =>
    rw [Throwing.applyMetricFilterMatchStringSplitPartTerm,
      applyMetricFilterMatchStringSplitPartTerm]
    by_cases hlength : members.length < 1
    . simp only [hlength, if_true, decide_true, Bool.true_or]
      exact Except.Yields.ok _
    . simp only [hlength, if_false, decide_false, Bool.false_or]
      exact matchAnyPart_yields members h str index
  | allSet members =>
    rw [Throwing.applyMetricFilterMatchStringSplitPartTerm,
      applyMetricFilterMatchStringSplitPartTerm]
    exact matchAllParts_yields members h str index

theorem matchAnyPart_yields (members : List SplitPart)
    (h : accepted → re.AcceptsAll (SnP4V2.patternsOfParts members)) (str : List UInt8)
    (index : Nat)
    : Except.Yields accepted (Throwing.matchAnyPart re members str index)
        (matchAnyPart re.toRegex members str index) := by
  cases members with
  | nil =>
    rw [Throwing.matchAnyPart, matchAnyPart]
    exact Except.Yields.ok _
  | cons member members =>
    rw [Throwing.matchAnyPart, matchAnyPart]
    apply (applyMetricFilterMatchStringSplitPart_yields member (.left h) str index).bind
    split
    . exact Except.Yields.ok _
    . exact matchAnyPart_yields members (.right h) str index

theorem matchAllParts_yields (members : List SplitPart)
    (h : accepted → re.AcceptsAll (SnP4V2.patternsOfParts members)) (str : List UInt8)
    (index : Nat)
    : Except.Yields accepted (Throwing.matchAllParts re members str index)
        (matchAllParts re.toRegex members str index) := by
  cases members with
  | nil =>
    rw [Throwing.matchAllParts, matchAllParts]
    exact Except.Yields.ok _
  | cons member members =>
    rw [Throwing.matchAllParts, matchAllParts]
    apply (applyMetricFilterMatchStringSplitPart_yields member (.left h) str index).bind
    split
    . exact Except.Yields.ok _
    . exact matchAllParts_yields members (.right h) str index

theorem applyMetricFilterMatchStringSplitPartAttr_yields (m : SplitPartMatch)
    (h : accepted → re.AcceptsAll m.patterns) (str : List UInt8) (index : Nat)
    : Except.Yields accepted (Throwing.applyMetricFilterMatchStringSplitPartAttr re m str index)
        (applyMetricFilterMatchStringSplitPartAttr re.toRegex m str index) := by
  cases m with
  | notSet =>
    rw [Throwing.applyMetricFilterMatchStringSplitPartAttr,
      applyMetricFilterMatchStringSplitPartAttr]
    exact Except.Yields.ok _
  | value value =>
    rw [Throwing.applyMetricFilterMatchStringSplitPartAttr,
      applyMetricFilterMatchStringSplitPartAttr]
    exact applyMetricFilterMatchString_yields value h str
  | index i =>
    rw [Throwing.applyMetricFilterMatchStringSplitPartAttr,
      applyMetricFilterMatchStringSplitPartAttr]
    exact Except.Yields.ok _

end

theorem anyLabel_yields {key value : Option StatsMetricMatchString}
    (h : accepted → re.AcceptsAll (SnP4V2.StatsMetricMatch.label key value).patterns)
    (labels : List StatsLabel)
    : Except.Yields accepted (Throwing.applyMetricFilterMatchLabel.anyLabel re key value labels)
        (labels.any (applyMetricFilterMatchLabel.labelMatches re.toRegex key value)) := by
  have hoption : ∀ (m : Option StatsMetricMatchString) (str : List UInt8),
      (accepted → re.AcceptsAll (SnP4V2.patternsOfOption m)) →
        Except.Yields accepted (Throwing.optionMatches re m str)
          (match m with
            | none => true
            | some m => applyMetricFilterMatchString re.toRegex m str) := by
    intro m str hm
    cases m with
    | none => exact Except.Yields.ok _
    | some m => exact applyMetricFilterMatchString_yields re m hm str
  have hlabel (vl : StatsLabel)
      : Except.Yields accepted
          (Throwing.applyMetricFilterMatchLabel.labelMatches re key value vl)
          (applyMetricFilterMatchLabel.labelMatches re.toRegex key value vl) := by
    unfold Throwing.applyMetricFilterMatchLabel.labelMatches
    apply (hoption key vl.key (.left h)).bind
    have hvalue := hoption value vl.value (.right h)
    unfold applyMetricFilterMatchLabel.labelMatches
    cases key with
    | none => exact hvalue
    | some key =>
      by_cases hkey : applyMetricFilterMatchString re.toRegex key vl.key = true
      . simp only [hkey, Bool.true_and]
        exact hvalue
      . simp only [hkey, Bool.false_and]
        exact Except.Yields.ok _
  induction labels with
  | nil => exact Except.Yields.ok _
  | cons vl labels ih =>
    rw [List.any_cons]
    unfold Throwing.applyMetricFilterMatchLabel.anyLabel
    apply (hlabel vl).bind
    cases applyMetricFilterMatchLabel.labelMatches re.toRegex key value vl with
    | true => exact Except.Yields.ok _
    | false => exact ih

section Filter

variable {nbits fuel : Nat} {spec : StatsForEachSpec}

theorem label_go_yields {key value : Option StatsMetricMatchString}
    (h : accepted → re.AcceptsAll (SnP4V2.StatsMetricMatch.label key value).patterns)
    (values : List StatsMetricValue) (n : Nat) (valid : BitArray nbits)
    : Except.Yields accepted (Throwing.applyMetricFilterMatchLabel.go re key value values n valid)
        (applyMetricFilterMatchLabel.go re.toRegex key value values n valid) := by
  induction values generalizing n valid with
  | nil => exact Except.Yields.ok _
  | cons v values ih =>
    unfold Throwing.applyMetricFilterMatchLabel.go applyMetricFilterMatchLabel.go
    apply (anyLabel_yields re h v.labels).bind
    split
    . exact ih (n + 1) _
    . exact ih (n + 1) _

theorem assignAllMatches_yields {m : StatsMetricMatchString}
    (h : accepted → re.AcceptsAll m.patterns) (str : List UInt8) (valid : BitArray nbits)
    : Except.Yields accepted (Throwing.assignAllMatches re m str valid)
        (valid.assignAll (applyMetricFilterMatchString re.toRegex m str)) := by
  unfold Throwing.assignAllMatches
  apply (applyMetricFilterMatchString_yields re m h str).bind
  exact Except.Yields.ok _

theorem applyMetricFilterMatch_yields (m : StatsMetricMatch)
    (h : accepted → re.AcceptsAll m.patterns) (type : SnP4V2.StatsMetricType)
    (valid : BitArray nbits)
    : Throwing.Eval.Yields accepted (Throwing.applyMetricFilterMatch re fuel spec m type valid)
        (applyMetricFilterMatch re.toRegex fuel spec m type valid) := by
  unfold Throwing.applyMetricFilterMatch applyMetricFilterMatch
  cases m with
  | notSet => exact Throwing.Eval.Yields.pure _
  | type t => exact Throwing.Eval.Yields.pure _
  | domain m => exact Throwing.Eval.Yields.of_except (assignAllMatches_yields re h _ valid)
  | zone m => exact Throwing.Eval.Yields.of_except (assignAllMatches_yields re h _ valid)
  | block m => exact Throwing.Eval.Yields.of_except (assignAllMatches_yields re h _ valid)
  | name m => exact Throwing.Eval.Yields.of_except (assignAllMatches_yields re h _ valid)
  | indices slices => exact Throwing.Eval.Yields.lift _
  | label key value =>
    exact Throwing.Eval.Yields.of_except (label_go_yields re h spec.values 0 valid)

mutual

theorem applyMetricFilter_yields (filter : StatsMetricFilter)
    (h : accepted → re.AcceptsAll filter.patterns) (type : SnP4V2.StatsMetricType)
    (valid : BitArray nbits)
    : Throwing.Eval.Yields accepted (Throwing.applyMetricFilter re fuel spec filter type valid)
        (applyMetricFilter re.toRegex fuel spec filter type valid) := by
  cases filter with
  | mk negated term =>
    rw [Throwing.applyMetricFilter, applyMetricFilter]
    apply (applyMetricFilterTerm_yields term h type valid).bind
    intro valid
    exact Throwing.Eval.Yields.pure _

theorem applyMetricFilterTerm_yields (term : StatsMetricFilterTerm)
    (h : accepted → re.AcceptsAll term.patterns) (type : SnP4V2.StatsMetricType)
    (valid : BitArray nbits)
    : Throwing.Eval.Yields accepted (Throwing.applyMetricFilterTerm re fuel spec term type valid)
        (applyMetricFilterTerm re.toRegex fuel spec term type valid) := by
  cases term with
  | notSet =>
    rw [Throwing.applyMetricFilterTerm, applyMetricFilterTerm]
    exact Throwing.Eval.Yields.pure _
  | ofMatch m =>
    rw [Throwing.applyMetricFilterTerm, applyMetricFilterTerm]
    exact applyMetricFilterMatch_yields re m h type valid
  | anySet members =>
    rw [Throwing.applyMetricFilterTerm, applyMetricFilterTerm]
    split
    . exact Throwing.Eval.Yields.pure _
    . exact applyMetricFilterAnySet_yields members h type valid _
  | allSet members =>
    rw [Throwing.applyMetricFilterTerm, applyMetricFilterTerm]
    split
    . exact Throwing.Eval.Yields.pure _
    . exact applyMetricFilterAllSet_yields members h type _ _

theorem applyMetricFilterAnySet_yields (members : List StatsMetricFilter)
    (h : accepted → re.AcceptsAll (SnP4V2.patternsOfMembers members))
    (type : SnP4V2.StatsMetricType) (valid v : BitArray nbits)
    : Throwing.Eval.Yields accepted (Throwing.applyMetricFilterAnySet re fuel spec members type valid v)
        (applyMetricFilterAnySet re.toRegex fuel spec members type valid v) := by
  cases members with
  | nil =>
    rw [Throwing.applyMetricFilterAnySet, applyMetricFilterAnySet]
    exact Throwing.Eval.Yields.pure _
  | cons member members =>
    rw [Throwing.applyMetricFilterAnySet, applyMetricFilterAnySet]
    apply (applyMetricFilter_yields member (.left h) type v).bind
    intro v
    simp only
    split
    . exact Throwing.Eval.Yields.pure _
    . exact applyMetricFilterAnySet_yields members (.right h) type _ _

theorem applyMetricFilterAllSet_yields (members : List StatsMetricFilter)
    (h : accepted → re.AcceptsAll (SnP4V2.patternsOfMembers members))
    (type : SnP4V2.StatsMetricType) (valid v : BitArray nbits)
    : Throwing.Eval.Yields accepted (Throwing.applyMetricFilterAllSet re fuel spec members type valid v)
        (applyMetricFilterAllSet re.toRegex fuel spec members type valid v) := by
  cases members with
  | nil =>
    rw [Throwing.applyMetricFilterAllSet, applyMetricFilterAllSet]
    exact Throwing.Eval.Yields.pure _
  | cons member members =>
    rw [Throwing.applyMetricFilterAllSet, applyMetricFilterAllSet]
    apply (applyMetricFilter_yields member (.left h) type v).bind
    intro v
    simp only
    split
    . exact Throwing.Eval.Yields.pure _
    . exact applyMetricFilterAllSet_yields members (.right h) type _ _

end

theorem applyFilters_yields (filters : StatsFilters)
    (h : accepted → ∀ filter, filters.metricFilter = some filter → re.AcceptsAll filter.patterns)
    (type : SnP4V2.StatsMetricType) (valid : BitArray nbits)
    : Throwing.Eval.Yields accepted (Throwing.applyFilters re fuel spec filters type valid)
        (applyFilters re.toRegex fuel spec filters type valid) := by
  unfold Throwing.applyFilters applyFilters
  dsimp only
  split
  . exact Throwing.Eval.Yields.pure _
  . cases hfilter : filters.metricFilter with
    | none => exact Throwing.Eval.Yields.pure _
    | some metricFilter =>
      have hmetric : accepted → re.AcceptsAll metricFilter.patterns :=
        fun hyes => h hyes metricFilter hfilter
      apply (applyMetricFilter_yields re metricFilter hmetric type _).bind
      intro v
      exact Throwing.Eval.Yields.pure _

end Filter

end Agreement
