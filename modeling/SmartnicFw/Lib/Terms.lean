import Mathlib.Data.List.Forall2

/-!
This module contains terms with shared subterms: operations applied to terms, names and binding. A
term is evaluated from left to right in an interpretation of its operations that may change a
state, so that one term has as many readings as its operations have interpretations.
-/

universe u

inductive Term (Op : Type u) where
  | name (i : Nat)
  | share (value body : Term Op)
  | call (op : Op) (args : List (Term Op))

-- What an operation does with the values of its arguments
abbrev Interp (Op σ α : Type u) := Op → List α → σ → Option (α × σ)

namespace Interp

variable {Op σ τ α β γ : Type u}

end Interp

namespace Term

section Eval

variable {Op σ α : Type u} (I : Interp Op σ α)

mutual

-- Names are numbered in the order in which they are bound
def eval (env : List α) (t : Term Op) (s : σ) : Option (α × σ) :=
  match t with
  | .name i => do
    let a ← env[i]?
    return (a, s)
  | .share value body => do
    let (a, s) ← eval env value s
    eval (env ++ [a]) body s
  | .call op args => do
    let (as, s) ← evalArgs env args s
    I op as s

def evalArgs (env : List α) (ts : List (Term Op)) (s : σ) : Option (List α × σ) :=
  match ts with
  | [] => some ([], s)
  | t :: ts => do
    let (a, s) ← eval env t s
    let (as, s) ← evalArgs env ts s
    return (a :: as, s)

end

mutual

-- All operations that occur in a term
def ops (t : Term Op) : List Op :=
  match t with
  | .name _ => []
  | .share value body => ops value ++ ops body
  | .call op args => opsOfArgs args ++ [op]

def opsOfArgs (ts : List (Term Op)) : List Op :=
  match ts with
  | [] => []
  | t :: ts => ops t ++ opsOfArgs ts

end

end Eval

section Simulation

variable {Op σ τ α β : Type u}

-- Whatever an operation does in `I` can be followed in `J`. The values are related with respect to
-- the states, and values that are related stay so.
def Follows (P : Op → Prop) (I : Interp Op σ α) (J : Interp Op τ β) (S : σ → τ → Prop)
    (V : σ → τ → α → β → Prop)
    : Prop :=
  ∀ ⦃op : Op⦄, P op → ∀ ⦃s t as bs a s'⦄, S s t → List.Forall₂ (V s t) as bs →
    I op as s = some (a, s') →
      ∃ b t', J op bs t = some (b, t') ∧ S s' t' ∧ V s' t' a b ∧
        ∀ x y, V s t x y → V s' t' x y

variable {P : Op → Prop} {I : Interp Op σ α} {J : Interp Op τ β} {S : σ → τ → Prop}
  {V : σ → τ → α → β → Prop}

mutual

theorem eval_follows (hcall : Follows P I J S V) (e : Term Op) (hops : ∀ op ∈ e.ops, P op)
    {env : List α} {env' : List β} {s s' : σ} {t : τ} {a : α} (hS : S s t)
    (henv : List.Forall₂ (V s t) env env') (h : eval I env e s = some (a, s'))
    : ∃ b t', eval J env' e t = some (b, t') ∧ S s' t' ∧ V s' t' a b ∧
        ∀ x y, V s t x y → V s' t' x y := by
  cases e with
  | name i =>
    rw [eval, Option.bind_eq_bind, Option.bind_eq_some_iff] at h
    obtain ⟨a, ha, h⟩ := h
    cases h
    obtain ⟨hi, rfl⟩ := List.getElem?_eq_some_iff.mp ha
    have hi' : i < env'.length := henv.length_eq ▸ hi
    refine ⟨env'[i], t, ?_, hS, henv.get hi hi', fun _ _ hv => hv⟩
    simp [eval, hi']
  | share value body =>
    rw [eval, Option.bind_eq_bind, Option.bind_eq_some_iff] at h
    obtain ⟨⟨a₁, s₁⟩, hvalue, h⟩ := h
    obtain ⟨b₁, t₁, hvalue', hS₁, hV₁, hkeep₁⟩ :=
      eval_follows hcall value (fun op hop => hops op (by simp [ops, hop])) hS henv hvalue
    have henv₁ := List.rel_append (henv.imp hkeep₁) (.cons hV₁ .nil)
    obtain ⟨b, t', hbody, hS', hV', hkeep⟩ :=
      eval_follows hcall body (fun op hop => hops op (by simp [ops, hop])) hS₁ henv₁ h
    refine ⟨b, t', ?_, hS', hV', fun x y hv => hkeep x y (hkeep₁ x y hv)⟩
    rw [eval, hvalue']
    exact hbody
  | call op args =>
    rw [eval, Option.bind_eq_bind, Option.bind_eq_some_iff] at h
    obtain ⟨⟨as, s₁⟩, hargs, h⟩ := h
    obtain ⟨bs, t₁, hargs', hS₁, hV₁, hkeep₁⟩ :=
      evalArgs_follows hcall args (fun op hop => hops op (by simp [ops, hop])) hS henv hargs
    obtain ⟨b, t', hop, hS', hV', hkeep⟩ := hcall (hops op (by simp [ops])) hS₁ hV₁ h
    refine ⟨b, t', ?_, hS', hV', fun x y hv => hkeep x y (hkeep₁ x y hv)⟩
    rw [eval, hargs']
    exact hop

theorem evalArgs_follows (hcall : Follows P I J S V) (es : List (Term Op))
    (hops : ∀ op ∈ opsOfArgs es, P op) {env : List α} {env' : List β} {s s' : σ} {t : τ}
    {as : List α} (hS : S s t) (henv : List.Forall₂ (V s t) env env')
    (h : evalArgs I env es s = some (as, s'))
    : ∃ bs t', evalArgs J env' es t = some (bs, t') ∧ S s' t' ∧ List.Forall₂ (V s' t') as bs ∧
        ∀ x y, V s t x y → V s' t' x y := by
  cases es with
  | nil =>
    cases h
    exact ⟨[], t, rfl, hS, .nil, fun _ _ hv => hv⟩
  | cons e es =>
    rw [evalArgs, Option.bind_eq_bind, Option.bind_eq_some_iff] at h
    obtain ⟨⟨a, s₁⟩, he, h⟩ := h
    rw [Option.bind_eq_bind, Option.bind_eq_some_iff] at h
    obtain ⟨⟨as', s₂⟩, hes, h⟩ := h
    cases h
    obtain ⟨b, t₁, he', hS₁, hV₁, hkeep₁⟩ :=
      eval_follows hcall e (fun op hop => hops op (by simp [opsOfArgs, hop])) hS henv he
    obtain ⟨bs, t', hes', hS', hV', hkeep⟩ :=
      evalArgs_follows hcall es (fun op hop => hops op (by simp [opsOfArgs, hop])) hS₁
        (henv.imp hkeep₁) hes
    refine ⟨b :: bs, t', ?_, hS', .cons (hkeep _ _ hV₁) hV', fun x y hv => hkeep x y (hkeep₁ x y hv)⟩
    rw [evalArgs, he']
    show (do let (as, s) ← evalArgs J env' es t₁; return (b :: as, s)) = _
    rw [hes']
    rfl

end

end Simulation

end Term
