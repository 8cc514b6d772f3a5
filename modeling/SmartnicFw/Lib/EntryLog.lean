import SmartnicFw.Lib.UpdateEach

/-!
This module contains logs of what has been done to the entries of named tables, what such a log tells
about each entry, and the logs of items that are worked off one after another.
-/

namespace EntryLog

variable {N K P C : Type}

-- An entry has a part that stays as it has been put and one that can be changed
abbrev Store (N K P C : Type) := N → K → Option (P × C)

inductive Effect (N K P C : Type) where
  | put (name : N) (key : K) (kept : P) (content : C)
  | change (name : N) (key : K) (content : C)
  | remove (name : N) (key : K)
  | clear (name : N)
  deriving DecidableEq, Repr

section Log

variable [DecidableEq N] [DecidableEq K]

def Effect.onEntry (effect : Effect N K P C) (name : N) (key : K) (entry : Option (P × C))
    : Option (P × C) :=
  match effect with
  | .put n k kept content => if n = name ∧ k = key then some (kept, content) else entry
  | .change n k content =>
    if n = name ∧ k = key then entry.map fun e => (e.1, content) else entry
  | .remove n k => if n = name ∧ k = key then none else entry
  | .clear n => if n = name then none else entry

def Effect.act (effect : Effect N K P C) (store : Store N K P C) : Store N K P C :=
  fun name key => effect.onEntry name key (store name key)

def after (log : List (Effect N K P C)) (store : Store N K P C) : Store N K P C :=
  log.foldl (fun store effect => effect.act store) store

-- Whether an effect puts an entry there or takes it away
def Effect.presence (name : N) (key : K) : Effect N K P C → Option Bool
  | .put n k _ _ => if n = name ∧ k = key then some true else none
  | .change _ _ _ => none
  | .remove n k => if n = name ∧ k = key then some false else none
  | .clear n => if n = name then some false else none

def Effect.kept (name : N) (key : K) : Effect N K P C → Option P
  | .put n k kept _ => if n = name ∧ k = key then some kept else none
  | _ => none

def Effect.content (name : N) (key : K) : Effect N K P C → Option C
  | .put n k _ content => if n = name ∧ k = key then some content else none
  | .change n k content => if n = name ∧ k = key then some content else none
  | _ => none

-- The log has an entry that was put and not taken away since, with its last content
structure Tells (log : List (Effect N K P C)) (name : N) (key : K) (kept : P) (content : C) : Prop where
  present : lastSome (Effect.presence name key) log = some true
  kept : lastSome (Effect.kept name key) log = some kept
  content : lastSome (Effect.content name key) log = some content

variable {log log' : List (Effect N K P C)} {name : N} {key : K}

@[simp]
theorem after_nil (store : Store N K P C) : after [] store = store := by
  rfl

@[simp]
theorem after_cons (effect : Effect N K P C) (log : List (Effect N K P C)) (store : Store N K P C)
    : after (effect :: log) store = after log (effect.act store) := by
  rfl

theorem after_append (log log' : List (Effect N K P C)) (store : Store N K P C)
    : after (log ++ log') store = after log' (after log store) := by
  unfold after
  rw [List.foldl_append]

theorem after_clears (names : List N) (store : Store N K P C) (name : N) (key : K)
    : after (names.map Effect.clear) store name key = if name ∈ names then none else store name key := by
  induction names generalizing store with
  | nil => simp
  | cons n names ih =>
    rw [List.map_cons, after_cons, ih]
    by_cases hmem : name ∈ names
    . simp [hmem]
    . by_cases hname : name = n
      . simp [hname, Effect.act, Effect.onEntry]
      . simp [hmem, hname, Ne.symm hname, Effect.act, Effect.onEntry]

theorem not_tells_nil {kept : P} {content : C} : ¬ Tells ([] : List (Effect N K P C)) name key kept content := by
  intro h
  cases h.present

theorem tells_concat_iff (log : List (Effect N K P C)) (effect : Effect N K P C) (kept : P) (content : C)
    : Tells (log ++ [effect]) name key kept content ↔
        (effect.presence name key).or (lastSome (Effect.presence name key) log) = some true ∧
        (effect.kept name key).or (lastSome (Effect.kept name key) log) = some kept ∧
        (effect.content name key).or (lastSome (Effect.content name key) log) = some content := by
  rw [← lastSome_concat, ← lastSome_concat, ← lastSome_concat]
  constructor
  . rintro ⟨hpresent, hkept, hcontent⟩
    exact ⟨hpresent, hkept, hcontent⟩
  . rintro ⟨hpresent, hkept, hcontent⟩
    exact ⟨hpresent, hkept, hcontent⟩

-- What an effect can do to an entry: it puts it, changes it, takes it away or leaves it
theorem Effect.cases (effect : Effect N K P C) (name : N) (key : K)
    : (∃ p c, effect.presence name key = some true ∧ effect.kept name key = some p ∧
          effect.content name key = some c ∧ ∀ e, effect.onEntry name key e = some (p, c)) ∨
        (∃ c, effect.presence name key = none ∧ effect.kept name key = none ∧
          effect.content name key = some c ∧
          ∀ e, effect.onEntry name key e = e.map fun e => (e.1, c)) ∨
        (effect.presence name key = some false ∧ ∀ e, effect.onEntry name key e = none) ∨
        (effect.presence name key = none ∧ effect.kept name key = none ∧
          effect.content name key = none ∧ ∀ e, effect.onEntry name key e = e) := by
  cases effect with
  | put n k p c =>
    by_cases h : n = name ∧ k = key
    . exact .inl ⟨p, c, if_pos h, if_pos h, if_pos h, fun e => if_pos h⟩
    . exact .inr (.inr (.inr ⟨if_neg h, if_neg h, if_neg h, fun e => if_neg h⟩))
  | change n k c =>
    by_cases h : n = name ∧ k = key
    . exact .inr (.inl ⟨c, rfl, rfl, if_pos h, fun e => if_pos h⟩)
    . exact .inr (.inr (.inr ⟨rfl, rfl, if_neg h, fun e => if_neg h⟩))
  | remove n k =>
    by_cases h : n = name ∧ k = key
    . exact .inr (.inr (.inl ⟨if_pos h, fun e => if_pos h⟩))
    . exact .inr (.inr (.inr ⟨if_neg h, rfl, rfl, fun e => if_neg h⟩))
  | clear n =>
    by_cases h : n = name
    . exact .inr (.inr (.inl ⟨if_pos h, fun e => if_pos h⟩))
    . exact .inr (.inr (.inr ⟨if_neg h, rfl, rfl, fun e => if_neg h⟩))

theorem exists_content (h : lastSome (Effect.presence name key) log = some true)
    : ∃ content, lastSome (Effect.content name key) log = some content := by
  induction log using List.reverseRecOn with
  | nil => cases h
  | append_singleton log effect ih =>
    rw [lastSome_concat] at h ⊢
    rcases effect.cases name key with ⟨_, c, _, _, hcontent, _⟩ | ⟨c, _, _, hcontent, _⟩ |
      ⟨hpresent, _⟩ | ⟨hpresent, _, hcontent, _⟩
    . exact ⟨c, by rw [hcontent, Option.some_or]⟩
    . exact ⟨c, by rw [hcontent, Option.some_or]⟩
    . rw [hpresent] at h
      cases h
    . rw [hpresent, Option.none_or] at h
      rw [hcontent, Option.none_or]
      exact ih h

-- What is there after a log that began with no entries. By induction on the log from its end: an entry
-- that is there has both of its parts in the log, so that a change finds the part that stays.
theorem after_eq_some_iff {store : Store N K P C} (hempty : store name key = none) (kept : P)
    (content : C)
    : after log store name key = some (kept, content) ↔ Tells log name key kept content := by
  induction log using List.reverseRecOn generalizing kept content with
  | nil => simp [hempty, not_tells_nil]
  | append_singleton log effect ih =>
    rw [after_append, after_cons, after_nil, tells_concat_iff]
    unfold Effect.act
    rcases effect.cases name key with ⟨p, c, hpresent, hkept, hcontent, hentry⟩ |
      ⟨c, hpresent, hkept, hcontent, hentry⟩ | ⟨hpresent, hentry⟩ | ⟨hpresent, hkept, hcontent, hentry⟩
    . rw [hpresent, hkept, hcontent, hentry]
      simp
    . rw [hpresent, hkept, hcontent, hentry, Option.none_or, Option.none_or, Option.some_or]
      constructor
      . intro h
        obtain ⟨⟨p, c'⟩, hbefore, heq⟩ := Option.map_eq_some_iff.mp h
        obtain ⟨rfl, rfl⟩ := Prod.mk.inj heq
        have htells := (ih p c').mp hbefore
        exact ⟨htells.present, htells.kept, rfl⟩
      . rintro ⟨hpresent, hkept, hcontent⟩
        obtain rfl := Option.some.inj hcontent
        obtain ⟨c', hbefore⟩ : ∃ c', after log store name key = some (kept, c') := by
          obtain ⟨c', hcontent⟩ := exists_content hpresent
          exact ⟨c', (ih kept c').mpr ⟨hpresent, hkept, hcontent⟩⟩
        rw [hbefore]
        rfl
    . rw [hpresent, hentry]
      simp
    . rw [hpresent, hkept, hcontent, hentry, Option.none_or, Option.none_or, Option.none_or, ih]
      constructor
      . rintro ⟨hpresent, hkept, hcontent⟩
        exact ⟨hpresent, hkept, hcontent⟩
      . rintro ⟨hpresent, hkept, hcontent⟩
        exact ⟨hpresent, hkept, hcontent⟩

end Log

-- Items that are worked off in their order, of which each has a log of its own if it can be done at all
section Items

variable {A E : Type} (logOf : A → Option (List E))

def OfAll (items : List A) (log : List E) : Prop :=
  ∃ logs, items.mapM logOf = some logs ∧ log = logs.flatten

-- The items that were done before one that was not finished, whose log was followed for a while
def OfBefore (done : List A) (item : A) (log : List E) : Prop :=
  ∃ log' log'', OfAll logOf done log' ∧ log = log' ++ log'' ∧
    (log'' = [] ∨ ∃ full, logOf item = some full ∧ log'' <+: full)

variable {logOf} {item : A} {items : List A} {log log' : List E}

theorem OfAll.nil : OfAll logOf [] [] :=
  ⟨[], rfl, rfl⟩

theorem OfAll.cons (hitem : logOf item = some log) (h : OfAll logOf items log')
    : OfAll logOf (item :: items) (log ++ log') := by
  obtain ⟨logs, hlogs, rfl⟩ := h
  exact ⟨log :: logs, by simp [hitem, hlogs], rfl⟩

theorem OfAll.of_cons (h : OfAll logOf (item :: items) log)
    : ∃ first rest, logOf item = some first ∧ OfAll logOf items rest ∧ log = first ++ rest := by
  obtain ⟨logs, hlogs, rfl⟩ := h
  rw [List.mapM_cons] at hlogs
  obtain ⟨first, hfirst, hlogs⟩ := Option.bind_eq_some_iff.mp hlogs
  obtain ⟨rest, hrest, hlogs⟩ := Option.bind_eq_some_iff.mp hlogs
  obtain rfl := Option.some.inj hlogs
  exact ⟨first, rest.flatten, hfirst, ⟨rest, hrest, rfl⟩, rfl⟩

theorem OfAll.unique (h : OfAll logOf items log) (h' : OfAll logOf items log') : log = log' := by
  obtain ⟨logs, hlogs, rfl⟩ := h
  obtain ⟨logs', hlogs', rfl⟩ := h'
  obtain rfl := Option.some.inj (hlogs.symm.trans hlogs')
  rfl

theorem OfBefore.nil : OfBefore logOf [] item [] :=
  ⟨[], [], .nil, rfl, .inl rfl⟩

theorem OfBefore.head (h : log = [] ∨ ∃ full, logOf item = some full ∧ log <+: full)
    : OfBefore logOf [] item log :=
  ⟨[], log, .nil, rfl, h⟩

theorem OfBefore.cons {last : A} (hitem : logOf item = some log) (h : OfBefore logOf items last log')
    : OfBefore logOf (item :: items) last (log ++ log') := by
  obtain ⟨log₁, log₂, hdone, rfl, hlast⟩ := h
  exact ⟨log ++ log₁, log₂, hdone.cons hitem, by rw [List.append_assoc], hlast⟩

end Items

end EntryLog
