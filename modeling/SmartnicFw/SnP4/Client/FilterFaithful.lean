import SmartnicFw.SnP4.Client.FilterKinds

/-!
This module contains when the messages that the client makes of a filter expression say what the
expression reads as: the evaluation is followed side by side with the reading and with the marks.
-/

namespace FilterExpr

section Follow

variable (re : Regex) (spec : StatsForEachSpec) (type : SnP4V2.StatsMetricType)

-- The log of the messages agrees with that of the readings as long as the marks are in order
structure Tracks (s : List Message × List (Option Message))
    (t : (Unit × List (Option (Meaning spec.nvalues))) × List Bool × List Bool)
    : Prop where
  negated : t.2.1 = s.1.map Message.negated
  length : s.2.length = t.1.2.length
  agree : s.2.map (meaningOf re spec type) = t.1.2 ↔ ∀ b ∈ t.2.2, b = true

-- What a value reads as differs from its message by negations at most, and as long as the marks are
-- in order these are the negations that have been counted
def Refers (s : List Message × List (Option Message))
    (t : (Unit × List (Option (Meaning spec.nvalues))) × List Bool × List Bool) (v : Value)
    (x : Option (Meaning spec.nvalues) × Mark)
    : Prop :=
  match v, x with
  | none, (none, none) => True
  | some r, (some m, some (r', odd)) =>
    r' = r ∧ ∃ msg, s.1[r]? = some msg ∧ msg.kind = m.kind ∧
      ((∀ b ∈ t.2.2, b = true) → m = (msg.plain re spec type).markedBy odd)
  | _, _ => False

variable {re spec type} {s s' : List Message × List (Option Message)}
  {t t' : (Unit × List (Option (Meaning spec.nvalues))) × List Bool × List Bool} {v : Value}
  {x : Option (Meaning spec.nvalues) × Mark}

theorem Refers.agree (h : Refers re spec type s t v x) (hS : Tracks re spec type s t)
    (hlog : ∀ b ∈ t.2.2, b = true)
    : loadMeaning re spec type s.1 v = x.1 ↔ markInOrder t.2.1 x.2 = true := by
  obtain ⟨m, k⟩ := x
  rcases v with - | r <;> rcases m with - | m <;> rcases k with - | ⟨r', odd⟩ <;>
    simp only [Refers] at h
  . simp [loadMeaning, load, meaningOf, markInOrder]
  . obtain ⟨rfl, msg, hmsg, -, hm⟩ := h
    have hload : load s.1 (some r') = some msg := hmsg
    have hnegated : (s.1.map Message.negated)[r']? = some msg.negated := by simp [hmsg]
    rw [loadMeaning, hload, hm hlog, hS.negated, markInOrder, hnegated]
    simp [meaningOf, Message.meaning_eq_markedBy, Meaning.markedBy_inj spec.nvalues_pos]

-- No message goes away, and none changes but for its negation
def Extends (re : Regex) (spec : StatsForEachSpec) (type : SnP4V2.StatsMetricType)
    (messages messages' : List Message)
    : Prop :=
  ∀ (r : Nat) (m : Message), messages[r]? = some m →
    ∃ m', messages'[r]? = some m' ∧ m'.kind = m.kind ∧ m'.plain re spec type = m.plain re spec type

theorem Refers.keep (hext : Extends re spec type s.1 s'.1)
    (hlog : (∀ b ∈ t'.2.2, b = true) → ∀ b ∈ t.2.2, b = true) (h : Refers re spec type s t v x)
    : Refers re spec type s' t' v x := by
  obtain ⟨m, k⟩ := x
  rcases v with - | r <;> rcases m with - | m <;> rcases k with - | ⟨r', odd⟩ <;>
    simp only [Refers] at h ⊢
  . obtain ⟨rfl, msg, hmsg, hkind, hm⟩ := h
    obtain ⟨msg', hmsg', hkind', hplain⟩ := hext _ _ hmsg
    refine ⟨rfl, msg', hmsg', by rw [hkind', hkind], ?_⟩
    intro hlog'
    rw [hplain]
    exact hm (hlog hlog')

-- All values at once
theorem agree_of_refers {vs : List Value} {xs : List (Option (Meaning spec.nvalues) × Mark)}
    (hS : Tracks re spec type s t) (h : List.Forall₂ (Refers re spec type s t) vs xs)
    (hlog : ∀ b ∈ t.2.2, b = true)
    : vs.map (loadMeaning re spec type s.1) = xs.map Prod.fst ↔
        ∀ b ∈ (xs.map Prod.snd).map (markInOrder t.2.1), b = true := by
  induction h with
  | nil => simp
  | cons hv _ ih =>
    simp only [List.map_cons, List.cons.injEq, List.forall_mem_cons, ih, hv.agree hS hlog]

-- The logs after the operands have been copied
theorem Tracks.copy {vs : List Value} {xs : List (Option (Meaning spec.nvalues) × Mark)}
    (hS : Tracks re spec type s t) (h : List.Forall₂ (Refers re spec type s t) vs xs)
    : (s.2 ++ vs.map (load s.1)).map (meaningOf re spec type) = t.1.2 ++ xs.map Prod.fst ↔
        ∀ b ∈ t.2.2 ++ (xs.map Prod.snd).map (markInOrder t.2.1), b = true := by
  have hlength : (s.2.map (meaningOf re spec type)).length = t.1.2.length := by
    rw [List.length_map, hS.length]
  have hmap : (vs.map (load s.1)).map (meaningOf re spec type) =
      vs.map (loadMeaning re spec type s.1) := by
    rw [List.map_map]
    rfl
  rw [List.map_append, hmap, List.forall_mem_append]
  constructor
  . intro heq
    obtain ⟨hold, hnew⟩ := List.append_inj heq hlength
    have hlog := hS.agree.mp hold
    exact ⟨hlog, (agree_of_refers hS h hlog).mp hnew⟩
  . rintro ⟨hlog, hnew⟩
    rw [hS.agree.mpr hlog, (agree_of_refers hS h hlog).mpr hnew]

end Follow

end FilterExpr
