import SmartnicFw.Lib.UpdateEach

/-!
This module contains handlers that apply settings one after another until one of them is rejected: what
such a handler leaves in a state and what it answers, put together from its parts.
-/

namespace Accepted

variable {S A E : Type}

-- The settings before the first one that is rejected
def accepted (settings : List (Option A)) : List A :=
  match settings with
  | some setting :: settings => setting :: accepted settings
  | _ => []

-- In the states that the settings keep to, the handler does what the accepted ones say
structure Performs (inv : S → Prop) (apply : S → A → S) (ok : E) (run : S → E × S)
    (settings : List (Option A)) : Prop where
  state : ∀ s, inv s → (run s).2 = (accepted settings).foldl apply s
  answer : ∀ s, inv s → ((run s).1 = ok ↔ none ∉ settings)

theorem accepted_append_of_not_mem {settings : List (Option A)} (h : none ∉ settings)
    (rest : List (Option A))
    : accepted (settings ++ rest) = accepted settings ++ accepted rest := by
  induction settings with
  | nil => rfl
  | cons s settings ih =>
    rw [List.mem_cons, not_or] at h
    cases s with
    | none => exact absurd rfl h.1
    | some s =>
      simp only [List.cons_append, accepted]
      rw [ih h.2]

theorem accepted_append_of_mem {settings : List (Option A)} (h : none ∈ settings)
    (rest : List (Option A))
    : accepted (settings ++ rest) = accepted settings := by
  induction settings with
  | nil => cases h
  | cons s settings ih =>
    cases s with
    | none => rfl
    | some s =>
      have hmem : none ∈ settings := by simpa using h
      simp only [List.cons_append, accepted]
      rw [ih hmem]

theorem mem_of_mem_accepted {settings : List (Option A)} {setting : A}
    (h : setting ∈ accepted settings)
    : some setting ∈ settings := by
  induction settings with
  | nil => cases h
  | cons s settings ih =>
    cases s with
    | none => cases h
    | some s =>
      rcases List.mem_cons.mp h with rfl | h
      . exact List.mem_cons_self
      . exact List.mem_cons_of_mem _ (ih h)

theorem accepted_map_some {settings : List A} : accepted (settings.map some) = settings := by
  induction settings with
  | nil => rfl
  | cons s settings ih => exact congrArg (s :: ·) ih

theorem foldl_keeps {inv : S → Prop} {apply : S → A → S} (hkeeps : ∀ s a, inv s → inv (apply s a))
    (settings : List A) {s : S} (h : inv s)
    : inv (settings.foldl apply s) := by
  induction settings generalizing s with
  | nil => exact h
  | cons a settings ih => exact ih (hkeeps s a h)

namespace Performs

variable {inv : S → Prop} {apply : S → A → S} {ok err : E} {run next : S → E × S}
variable {settings rest : List (Option A)}

theorem nil : Performs inv apply ok (fun s => (ok, s)) [] := by
  constructor <;> simp [accepted]

theorem rejected (h : err ≠ ok) (settings : List (Option A))
    : Performs inv apply ok (fun s => (err, s)) (none :: settings) := by
  constructor <;> simp [accepted, h]

theorem cons (h : Performs inv apply ok next settings) (hkeeps : ∀ s a, inv s → inv (apply s a))
    {setting : A} (hrun : ∀ s, inv s → run s = next (apply s setting))
    : Performs inv apply ok run (some setting :: settings) := by
  constructor
  . intro s hs
    rw [hrun s hs, h.state _ (hkeeps s setting hs)]
    rfl
  . intro s hs
    rw [hrun s hs, h.answer _ (hkeeps s setting hs)]
    simp

-- Settings that are never rejected come before the rest
theorem prepend (h : Performs inv apply ok next rest) (hkeeps : ∀ s a, inv s → inv (apply s a))
    (settings : List A) (hrun : ∀ s, inv s → run s = next (settings.foldl apply s))
    : Performs inv apply ok run (settings.map some ++ rest) := by
  have hnot : none ∉ settings.map some := by simp
  constructor
  . intro s hs
    rw [hrun s hs, h.state _ (foldl_keeps hkeeps settings hs), accepted_append_of_not_mem hnot,
      accepted_map_some, List.foldl_append]
  . intro s hs
    rw [hrun s hs, h.answer _ (foldl_keeps hkeeps settings hs)]
    simp

theorem congr (h : Performs inv apply ok next settings) (hrun : ∀ s, inv s → run s = next s)
    : Performs inv apply ok run settings := by
  constructor
  . intro s hs
    rw [hrun s hs, h.state s hs]
  . intro s hs
    rw [hrun s hs, h.answer s hs]

theorem keeps (h : Performs inv apply ok run settings) (hkeeps : ∀ s a, inv s → inv (apply s a)) {s : S}
    (hs : inv s)
    : inv (run s).2 := by
  rw [h.state s hs]
  exact foldl_keeps hkeeps _ hs

-- A handler of two parts, of which the second is left out when the first has not gone through
theorem append [DecidableEq E] (hrun : Performs inv apply ok run settings)
    (hnext : Performs inv apply ok next rest) (hkeeps : ∀ s a, inv s → inv (apply s a)) {both : S → E × S}
    (hboth : ∀ s, inv s → both s = if (run s).1 = ok then next (run s).2 else run s)
    : Performs inv apply ok both (settings ++ rest) := by
  constructor
  . intro s hs
    have hstate := hrun.state s hs
    have hanswer := hrun.answer s hs
    rw [hboth s hs]
    by_cases hmem : none ∈ settings
    . rw [if_neg (fun hok => hanswer.mp hok hmem), accepted_append_of_mem hmem, hstate]
    . rw [if_pos (hanswer.mpr hmem), accepted_append_of_not_mem hmem, List.foldl_append, ← hstate,
        hnext.state _ (hrun.keeps hkeeps hs)]
  . intro s hs
    have hanswer := hrun.answer s hs
    rw [hboth s hs, List.mem_append, not_or]
    by_cases hmem : none ∈ settings
    . have hne : (run s).1 ≠ ok := fun hok => hanswer.mp hok hmem
      rw [if_neg hne]
      simp [hne, hmem]
    . rw [if_pos (hanswer.mpr hmem), hnext.answer _ (hrun.keeps hkeeps hs)]
      simp [hmem]

-- The handlers of a list of parts, each with the settings of its own
theorem foldl_run {I B : Type} {change : S → B → S} {lift : I → A → B} {ids : List I} {run : I → S → E × S}
    {settings : I → List (Option A)}
    (hruns : ∀ id ∈ ids, Performs inv (fun s a => change s (lift id a)) ok (run id) (settings id))
    (hkeeps : ∀ s b, inv s → inv (change s b)) {s : S} (hs : inv s)
    : ids.foldl (fun s id => (run id s).2) s =
        (ids.flatMap fun id => (accepted (settings id)).map (lift id)).foldl change s := by
  induction ids generalizing s with
  | nil => rfl
  | cons id ids ih =>
    have hrun := hruns id List.mem_cons_self
    have hrest := ih (fun id hmem => hruns id (List.mem_cons_of_mem _ hmem))
      (hrun.keeps (fun s a => hkeeps s (lift id a)) hs)
    rw [List.foldl_cons, hrest, hrun.state s hs, List.flatMap_cons, List.foldl_append, List.foldl_map]

end Performs

end Accepted
