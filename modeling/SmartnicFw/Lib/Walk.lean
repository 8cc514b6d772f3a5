import Mathlib

/-!
This module contains walks over a buffer that read one item after another, where each item says how
long it is.
-/

namespace Walk

variable {α ε ρ σ : Type}

-- What is read at a position, and the position after it
@[ext]
structure Read (ρ : Type) (pos : Nat) where
  item : ρ
  next : Nat
  lt_next : pos < next

-- What of a slice lies in the buffer
def slice (buf : List α) (pos n : Nat) : List α := (buf.drop pos).take n

def walk (read : (buf : List α) → (pos : Nat) → pos < buf.length → Except ε (Read ρ pos))
    (buf : List α) (pos : Nat) (acc : List ρ)
    : Except ε (List ρ) :=
  if h : pos < buf.length then
    match read buf pos h with
    | .error e => .error e
    | .ok r => walk read buf r.next (acc ++ [r.item])
  else
    .ok acc
termination_by buf.length - pos
decreasing_by
  have := r.lt_next
  omega

-- A reader that succeeds where the encoding of a source stands in full and `item` accepts it
structure Decodes (read : (buf : List α) → (pos : Nat) → pos < buf.length → Except ε (Read ρ pos))
    (encode : σ → List α) (item : σ → Except ε ρ)
    : Prop where
  encode_ne : ∀ s, encode s ≠ []
  read_eq_ok_iff : ∀ (buf : List α) (pos : Nat) (h : pos < buf.length) (r : Read ρ pos),
    read buf pos h = .ok r ↔
      ∃ s after, buf.drop pos = encode s ++ after ∧ r.next = pos + (encode s).length ∧
        item s = .ok r.item

variable {read : (buf : List α) → (pos : Nat) → pos < buf.length → Except ε (Read ρ pos)}
variable {encode : σ → List α} {item : σ → Except ε ρ}

-- By induction on what is left of the buffer
theorem walk_eq_ok_iff_aux (h : Decodes read encode item) (buf : List α) (left : Nat) (pos : Nat)
    (hleft : buf.length - pos ≤ left) (acc rs : List ρ)
    : walk read buf pos acc = .ok rs ↔
        ∃ (ss : List σ) (xs : List ρ), ss.flatMap encode = buf.drop pos ∧ ss.mapM item = .ok xs ∧
          rs = acc ++ xs := by
  induction left generalizing pos acc with
  | zero =>
    rw [walk, dif_neg (by omega), List.drop_eq_nil_of_le (by omega)]
    constructor
    . intro hok
      cases hok
      exact ⟨[], [], rfl, rfl, (List.append_nil _).symm⟩
    . intro ⟨ss, xs, hflat, hmap, hrs⟩
      cases ss with
      | nil =>
        rw [List.mapM_nil] at hmap
        cases hmap
        rw [hrs, List.append_nil]
      | cons s ss =>
        rw [List.flatMap_cons, List.append_eq_nil_iff] at hflat
        exact absurd hflat.1 (h.encode_ne s)
  | succ left ih =>
    by_cases hpos : pos < buf.length
    . rw [walk, dif_pos hpos]
      constructor
      . intro hok
        cases hread : read buf pos hpos with
        | error e =>
          rw [hread] at hok
          contradiction
        | ok r =>
          rw [hread] at hok
          have hlt := r.lt_next
          obtain ⟨ss, xs, hflat, hmap, hrs⟩ := (ih r.next (by omega) _).mp hok
          obtain ⟨s, after, hdrop, hnext, hitem⟩ := (h.read_eq_ok_iff buf pos hpos r).mp hread
          refine ⟨s :: ss, r.item :: xs, ?_, ?_, ?_⟩
          . rw [List.flatMap_cons, hflat, hnext, ← List.drop_drop, hdrop, List.drop_left]
          . rw [List.mapM_cons, hitem, hmap]
            rfl
          . rw [hrs, List.append_assoc, List.singleton_append]
      . intro ⟨ss, xs, hflat, hmap, hrs⟩
        cases ss with
        | nil =>
          have hnil := List.drop_eq_nil_iff.mp hflat.symm
          omega
        | cons s ss =>
          rw [List.flatMap_cons] at hflat
          rw [List.mapM_cons] at hmap
          cases hitem : item s with
          | error e =>
            rw [hitem] at hmap
            contradiction
          | ok x =>
            cases hrest : ss.mapM item with
            | error e =>
              rw [hitem, hrest] at hmap
              contradiction
            | ok ys =>
              rw [hitem, hrest] at hmap
              cases hmap
              have hlen := List.length_pos_of_ne_nil (h.encode_ne s)
              let r : Read ρ pos := ⟨x, pos + (encode s).length, by omega⟩
              have hread : read buf pos hpos = .ok r :=
                (h.read_eq_ok_iff buf pos hpos r).mpr ⟨s, _, hflat.symm, rfl, hitem⟩
              rw [hread]
              apply (ih r.next (by dsimp only [r]; omega) _).mpr
              refine ⟨ss, ys, ?_, hrest, ?_⟩
              . rw [← List.drop_drop, ← hflat, List.drop_left]
              . rw [hrs, List.append_assoc, List.singleton_append]
    . exact ih pos (by omega) acc

theorem walk_eq_ok_iff (h : Decodes read encode item) (buf : List α) (rs : List ρ)
    : walk read buf 0 [] = .ok rs ↔
        ∃ ss : List σ, ss.flatMap encode = buf ∧ ss.mapM item = .ok rs := by
  rw [walk_eq_ok_iff_aux h buf buf.length 0 (by omega)]
  simp

-- A source can be told from the start of what follows
def PrefixFree (encode : σ → List α) : Prop :=
  ∀ s s' after after', encode s ++ after = encode s' ++ after' → s = s'

theorem flatMap_injective (hne : ∀ s, encode s ≠ []) (hfree : PrefixFree encode)
    : Function.Injective (List.flatMap encode) := by
  intro ss
  induction ss with
  | nil =>
    intro ss' h
    cases ss' with
    | nil => rfl
    | cons s' ss' =>
      rw [List.flatMap_nil, List.flatMap_cons, eq_comm, List.append_eq_nil_iff] at h
      exact absurd h.1 (hne s')
  | cons s ss ih =>
    intro ss' h
    cases ss' with
    | nil =>
      rw [List.flatMap_nil, List.flatMap_cons, List.append_eq_nil_iff] at h
      exact absurd h.1 (hne s)
    | cons s' ss' =>
      rw [List.flatMap_cons, List.flatMap_cons] at h
      have hs := hfree s s' _ _ h
      rw [hs] at h ⊢
      rw [ih (List.append_cancel_left h)]

end Walk
