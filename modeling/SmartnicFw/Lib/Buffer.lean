import Mathlib

/-!
This module contains copies into a buffer that check that neither the source nor the buffer is left,
and functions that fill a buffer with what there is and tell how much that was.
-/

namespace Buffer

variable {α : Type}

-- `src` reads the source, and has nothing to read outside of it
def copy (data : List α) (dst : Nat) (src : Nat → Option α) (start n : Nat) : Option (List α) :=
  match n with
  | 0 => some data
  | n + 1 => do
    let data ← copy data dst src start n
    let a ← src (start + n)
    if dst + n < data.length then some (data.set (dst + n) a) else none

theorem exists_copy {data : List α} {dst : Nat} {src : Nat → Option α} {start n : Nat}
    (hdst : dst + n ≤ data.length) (hsrc : ∀ k < n, (src (start + k)).isSome)
    : ∃ data', copy data dst src start n = some data' ∧ data'.length = data.length ∧
        (∀ k < n, data'[dst + k]? = src (start + k)) ∧
        ∀ i, i < dst ∨ dst + n ≤ i → data'[i]? = data[i]? := by
  induction n with
  | zero =>
    refine ⟨data, rfl, rfl, ?_, ?_⟩
    . intro k hk
      omega
    . intro i _
      rfl
  | succ n ih =>
    have hdst' : dst + n ≤ data.length := by omega
    have hsrc' : ∀ k < n, (src (start + k)).isSome := by
      intro k hk
      apply hsrc
      omega
    obtain ⟨data', hcopy, hlen, hcopied, hkept⟩ := ih hdst' hsrc'
    obtain ⟨a, ha⟩ := Option.isSome_iff_exists.mp (hsrc n (by omega))
    refine ⟨data'.set (dst + n) a, ?_, ?_, ?_, ?_⟩
    . simp only [copy, hcopy, ha, Option.bind_eq_bind, Option.bind_some]
      rw [if_pos (by omega)]
    . rw [List.length_set, hlen]
    . intro k hk
      rcases Nat.lt_succ_iff_lt_or_eq.mp hk with hlt | rfl
      . rw [List.getElem?_set_ne (by omega)]
        apply hcopied
        exact hlt
      . rw [ha]
        apply List.getElem?_set_self
        omega
    . intro i hi
      rw [List.getElem?_set_ne (by omega)]
      apply hkept
      omega

def overwrite (buf : List α) (off : Nat) (vs : List α) : List α :=
  buf.take off ++ vs ++ buf.drop (off + vs.length)

@[simp]
theorem overwrite_nil (buf : List α) (off : Nat) : overwrite buf off [] = buf := by
  simp [overwrite]

theorem length_overwrite {buf : List α} {off : Nat} {vs : List α}
    (h : off + vs.length ≤ buf.length)
    : (overwrite buf off vs).length = buf.length := by
  simp only [overwrite, List.length_append, List.length_take, List.length_drop]
  omega

theorem getElem?_overwrite {buf : List α} {off i : Nat} {vs : List α} (h : off ≤ buf.length)
    (hi : i < vs.length)
    : (overwrite buf off vs)[off + i]? = vs[i]? := by
  have hlen : (buf.take off).length = off := by
    rw [List.length_take]
    omega
  unfold overwrite
  rw [List.append_assoc, List.getElem?_append_right (by omega), hlen, Nat.add_sub_cancel_left,
    List.getElem?_append_left hi]

theorem getElem?_overwrite_of_lt {buf : List α} {off i : Nat} {vs : List α} (h : off ≤ buf.length)
    (hi : i < off)
    : (overwrite buf off vs)[i]? = buf[i]? := by
  have hlen : (buf.take off).length = off := by
    rw [List.length_take]
    omega
  unfold overwrite
  rw [List.append_assoc, List.getElem?_append_left (by omega), List.getElem?_take_of_lt hi]

theorem overwrite_overwrite {buf : List α} {off : Nat} {vs : List α}
    (h : off + vs.length ≤ buf.length) (ws : List α)
    : overwrite (overwrite buf off vs) (off + vs.length) ws = overwrite buf off (vs ++ ws) := by
  have hlen : (buf.take off ++ vs).length = off + vs.length := by
    simp only [List.length_append, List.length_take]
    omega
  have htake : (overwrite buf off vs).take (off + vs.length) = buf.take off ++ vs := by
    unfold overwrite
    rw [← hlen, List.take_left']
    rfl
  have hdrop : (overwrite buf off vs).drop (off + vs.length + ws.length) =
      buf.drop (off + (vs ++ ws).length) := by
    unfold overwrite
    rw [List.drop_append, hlen, List.drop_eq_nil_of_le (by omega), List.nil_append, List.drop_drop,
      List.length_append]
    congr 1
    omega
  show (overwrite buf off vs).take (off + vs.length) ++ ws ++
    (overwrite buf off vs).drop (off + vs.length + ws.length) = _
  rw [htake, hdrop]
  simp [overwrite]

theorem overwrite_singleton {buf : List α} {i : Nat} (h : i < buf.length) (a : α)
    : overwrite buf i [a] = buf.set i a := by
  rw [List.set_eq_take_append_cons_drop, if_pos h]
  simp [overwrite]

theorem copy_eq_overwrite {buf : List α} {off : Nat} {vs : List α} {n : Nat}
    (hoff : off + n ≤ buf.length) (hn : n ≤ vs.length)
    : copy buf off (fun k => vs[k]?) 0 n = some (overwrite buf off (vs.take n)) := by
  induction n with
  | zero => simp [copy]
  | succ n ih =>
    have hlen : (vs.take n).length = n := by
      rw [List.length_take]
      omega
    have hover : (overwrite buf off (vs.take n)).length = buf.length :=
      length_overwrite (by omega)
    have hget : vs[n]? = some vs[n] := List.getElem?_eq_getElem (by omega)
    rw [copy, ih (by omega) (by omega), Nat.zero_add, hget]
    simp only [Option.bind_eq_bind, Option.bind_some]
    rw [if_pos (by omega), ← overwrite_singleton (by omega)]
    congr 1
    have happend : overwrite (overwrite buf off (vs.take n)) (off + (vs.take n).length) [vs[n]] =
        overwrite buf off (vs.take n ++ [vs[n]]) := overwrite_overwrite (by omega) _
    rw [hlen] at happend
    rw [happend, List.take_append_getElem]

-- Reads and writes of several items at once, which have no result where they leave the buffer
def read (buf : List α) (off n : Nat) : Option (List α) :=
  if off + n ≤ buf.length then some ((buf.drop off).take n) else none

def write (buf : List α) (off : Nat) (vs : List α) : Option (List α) :=
  if off + vs.length ≤ buf.length then some (overwrite buf off vs) else none

theorem write_eq {buf : List α} {off : Nat} {vs : List α} (h : off + vs.length ≤ buf.length)
    : ∃ buf', write buf off vs = some buf' ∧ buf'.length = buf.length := by
  refine ⟨overwrite buf off vs, if_pos h, ?_⟩
  exact length_overwrite h

theorem write_append (before old after : List α) {vs : List α} {off : Nat}
    (hoff : off = before.length) (hlen : vs.length = old.length)
    : write (before ++ old ++ after) off vs = some (before ++ vs ++ after) := by
  unfold write
  rw [if_pos (by simp only [List.length_append]; omega)]
  congr 1
  unfold overwrite
  rw [hoff, hlen, ← List.length_append, List.drop_left]
  congr 2
  rw [List.append_assoc, List.take_left]

theorem read_append (before vs after : List α) {off n : Nat} (hoff : off = before.length)
    (hlen : n = vs.length)
    : read (before ++ vs ++ after) off n = some vs := by
  unfold read
  rw [if_pos (by simp only [List.length_append]; omega), hoff, List.append_assoc, List.drop_left,
    hlen, List.take_left]

-- A function that fills a buffer from an offset on with as many of some values as it is asked for
def Fills (get : List α → Nat → Nat → Option (Nat × List α)) (vs : List α) : Prop :=
  ∀ buf off n, off + n ≤ buf.length →
    get buf off n = some (min n vs.length, overwrite buf off (vs.take n))

-- The loop that fills a buffer from one item after the other until it is full
def fillEach {β : Type*} (get : β → List α → Nat → Nat → Option (Nat × List α)) (items : List β)
    (buf : List α) (off n filled : Nat)
    : Option (Nat × List α) :=
  match items with
  | [] => some (filled, buf)
  | item :: items =>
    if filled < n then
      match get item buf (off + filled) (n - filled) with
      | none => none
      | some (more, buf) => fillEach get items buf off n (filled + more)
    else
      some (filled, buf)

theorem fillEach_eq {β : Type*} {get : β → List α → Nat → Nat → Option (Nat × List α)}
    {vals : β → List α} {items : List β} (h : ∀ item ∈ items, Fills (get item) (vals item))
    {buf : List α} {off n filled : Nat} (hfilled : filled ≤ n) (hoff : off + n ≤ buf.length)
    : fillEach get items buf off n filled =
        some (filled + min (n - filled) (items.flatMap vals).length,
          overwrite buf (off + filled) ((items.flatMap vals).take (n - filled))) := by
  induction items generalizing buf filled with
  | nil => simp [fillEach]
  | cons item items ih =>
    unfold fillEach
    by_cases hlt : filled < n
    . rw [if_pos hlt, h item List.mem_cons_self buf (off + filled) (n - filled) (by omega)]
      have hlen : ((vals item).take (n - filled)).length = min (n - filled) (vals item).length :=
        List.length_take
      have hbuf : (overwrite buf (off + filled) ((vals item).take (n - filled))).length =
          buf.length := length_overwrite (by omega)
      simp only
      rw [ih (fun item hitem => h item (List.mem_cons_of_mem _ hitem)) (by omega) (by omega),
        List.flatMap_cons, List.length_append, List.take_append]
      congr 2
      . omega
      . rw [← hlen, ← Nat.add_assoc, overwrite_overwrite (by omega), hlen]
        congr 3
        omega
    . rw [if_neg hlt, show n - filled = 0 by omega]
      simp

theorem fills_each {β : Type*} {get : β → List α → Nat → Nat → Option (Nat × List α)}
    {vals : β → List α} {items : List β} (h : ∀ item ∈ items, Fills (get item) (vals item))
    : Fills (fun buf off n => fillEach get items buf off n 0) (items.flatMap vals) := by
  intro buf off n hoff
  simp only
  rw [fillEach_eq h (Nat.zero_le n) hoff]
  simp

end Buffer
