import SmartnicFw.SnP4.Agent.BitArrayImpl

/-!
This module contains that the arrays of the class behave like vectors of booleans as long as an
`unsigned int` can count their bits.
-/

namespace BitArrayImpl

open BitArray (Word fullMask)

variable {n : Nat}

-- The class keeps the words of an array whose upper bits are clear
structure Packs (v : BitArrayImpl) (b : BitArray n) : Prop where
  nbits_eq : v.nbits.toNat = n
  nwords_eq : v.nwords.toNat = BitArray.nwords n
  words_eq : v.words = b.words
  upperMask_eq : v.upperMask = BitArray.upperMask n

theorem nwords_le_nbits (h : 0 < n) : BitArray.nwords n ≤ n := by
  have := BitArray.nwords_le h
  omega

section Packs

variable {v rhs : BitArrayImpl} {b c : BitArray n} {fuel : Nat}

theorem Packs.length_words (h : Packs v b) : v.words.length = BitArray.nwords n := by
  rw [h.words_eq, b.length_words]

theorem Packs.lastWord (h : Packs v b) : (v.nwords - 1).toNat = BitArray.nwords n - 1 := by
  have hpos := BitArray.nwords_pos n
  have hle : (1 : UInt64) ≤ v.nwords := by
    rw [UInt64.le_iff_toNat_le, h.nwords_eq]
    exact hpos
  rw [UInt64.toNat_sub_of_le _ _ hle, h.nwords_eq]
  rfl

theorem Packs.withWords (h : Packs v b) {words : List Word} (hwords : words = c.words)
    : Packs { v with words } c where
  nbits_eq := h.nbits_eq
  nwords_eq := h.nwords_eq
  words_eq := hwords
  upperMask_eq := h.upperMask_eq

theorem store_eq {words : List Word} {w : Nat} (h : w < words.length) (word : Word)
    : store words w word = some (words.set w word) := if_pos h

end Packs

-- The loops over all words
section Words

variable {v rhs : BitArrayImpl} {b c : BitArray n} {fuel : Nat}

theorem eq_words {words : List Word} {g : Nat → Word} (hlen : words.length = BitArray.nwords n)
    (hwords : ∀ i < BitArray.nwords n, words[i]? = some (g i))
    (hc : ∀ i < BitArray.nwords n, c.words[i]? = some (g i))
    : words = c.words := by
  apply List.ext_getElem?
  intro i
  by_cases hi : i < BitArray.nwords n
  . rw [hwords i hi, hc i hi]
  . have hc := c.length_words
    rw [List.getElem?_eq_none (by omega), List.getElem?_eq_none (by omega)]

theorem clearAll_of (hbits : v.nbits.toNat = n) (hnwords : v.nwords.toNat = BitArray.nwords n)
    (hlen : v.words.length = BitArray.nwords n) (hmask : v.upperMask = BitArray.upperMask n)
    (hpos : 0 < n) (hn : n < 2 ^ 32) (hfuel : n < fuel)
    : ∃ v', v.clearAll fuel = some v' ∧ Packs v' (BitArray.new n hpos) := by
  have hle := nwords_le_nbits hpos
  have hbody : ∀ (w : UInt32) (words : List Word), w.toNat < v.nwords.toNat →
      words.length = v.words.length → (∀ i, w.toNat ≤ i → words[i]? = v.words[i]?) →
      store words w.toNat 0 = some (words.set w.toNat 0) := by
    intro w words hw hlen' _
    apply store_eq
    omega
  obtain ⟨words, hloop, hlen', hdone, _⟩ :=
    @CountedLoop.exists_fill v.nwords.toNat _ v.words _ (by omega) (by omega) (fun _ => 0) hbody
      fuel (by omega)
  refine ⟨{ v with words }, ?_, hbits, hnwords, ?_, hmask⟩
  . unfold clearAll
    rw [hloop]
    rfl
  . rw [hnwords] at hdone
    refine eq_words (hlen'.trans hlen) hdone ?_
    intro i hi
    exact List.getElem?_replicate_of_lt hi

theorem Packs.clearAll (h : Packs v b) (hn : n < 2 ^ 32) (hfuel : n < fuel)
    : ∃ v', v.clearAll fuel = some v' ∧ Packs v' b.clearAll :=
  clearAll_of h.nbits_eq h.nwords_eq h.length_words h.upperMask_eq b.nbits_pos hn hfuel

theorem new_eq {nbits : UInt64} (hbits : nbits.toNat = n) (hpos : 0 < n) (hn : n < 2 ^ 32)
    (hfuel : n < fuel) (garbage : Nat → Word)
    : ∃ v, new fuel nbits garbage = some v ∧ Packs v (BitArray.new n hpos) := by
  have hnwords : (if nbits > nbitsPerWord then (nbits + nbitsPerWord - 1) / nbitsPerWord
      else 1).toNat = BitArray.nwords n := by
    unfold BitArray.nwords BitArray.nbitsPerWord nbitsPerWord
    have hgt : nbits > 64 ↔ n > 64 := by
      rw [gt_iff_lt, UInt64.lt_iff_toNat_lt, hbits]
      rfl
    by_cases h : n > 64
    . have hsum : (nbits + 64 - 1).toNat = n + 63 := by
        rw [UInt64.toNat_sub, UInt64.toNat_add, hbits]
        simp only [UInt64.toNat_ofNat]
        omega
      rw [if_pos h, if_pos (hgt.mpr h), UInt64.toNat_div, hsum]
      rfl
    . rw [if_neg h, if_neg (fun h' => h (hgt.mp h'))]
      rfl
  have hmask : (if nbits % nbitsPerWord > 0 then (1#64 <<< (nbits % nbitsPerWord).toNat) - 1
      else fullMask) = BitArray.upperMask n := by
    have hrem : (nbits % nbitsPerWord).toNat = n % BitArray.nbitsPerWord := by
      rw [UInt64.toNat_mod, hbits]
      rfl
    have hgt : nbits % nbitsPerWord > 0 ↔ n % BitArray.nbitsPerWord > 0 := by
      rw [gt_iff_lt, UInt64.lt_iff_toNat_lt, hrem]
      rfl
    unfold BitArray.upperMask
    simp only [hrem, hgt]
  apply clearAll_of hbits hnwords _ hmask hpos hn hfuel
  rw [List.length_map, List.length_range, hnwords]

theorem getElem?_maskWords {i : Nat} (hi : i < BitArray.nwords n)
    : (BitArray.maskWords n)[i]? =
        some (if i < BitArray.nwords n - 1 then fullMask else BitArray.upperMask n) := by
  unfold BitArray.maskWords
  split
  . next hlt =>
    rw [List.getElem?_append_left (by rw [List.length_replicate]; exact hlt),
      List.getElem?_replicate_of_lt hlt]
  . next hge =>
    have heq : i = BitArray.nwords n - 1 := by omega
    rw [List.getElem?_append_right (by rw [List.length_replicate]; omega), List.length_replicate,
      heq, Nat.sub_self]
    rfl

theorem Packs.setAll (h : Packs v b) (hn : n < 2 ^ 32) (hfuel : n < fuel)
    : ∃ v', v.setAll fuel = some v' ∧ Packs v' b.setAll := by
  have hpos := BitArray.nwords_pos n
  have hle := nwords_le_nbits b.nbits_pos
  have hlen := h.length_words
  have hlast := h.lastWord
  have hbody : ∀ (w : UInt32) (words : List Word), w.toNat < (v.nwords - 1).toNat →
      words.length = v.words.length → (∀ i, w.toNat ≤ i → words[i]? = v.words[i]?) →
      store words w.toNat fullMask = some (words.set w.toNat fullMask) := by
    intro w words hw hlen' _
    apply store_eq
    omega
  obtain ⟨words, hloop, hlen', hdone, _⟩ :=
    @CountedLoop.exists_fill (v.nwords - 1).toNat _ v.words _ (by omega) (by omega)
      (fun _ => fullMask) hbody fuel (by omega)
  have hstore := @store_eq words (v.nwords - 1).toNat (by omega) v.upperMask
  refine ⟨{ v with words := words.set (v.nwords - 1).toNat v.upperMask }, ?_, h.withWords ?_⟩
  . unfold BitArrayImpl.setAll
    rw [hloop, Option.bind_eq_bind, Option.bind_some, hstore]
    rfl
  . refine eq_words ((List.length_set).trans (hlen'.trans hlen)) ?_ fun i hi => getElem?_maskWords hi
    intro i hi
    rw [hlast, h.upperMask_eq]
    by_cases hlt : i < BitArray.nwords n - 1
    . rw [List.getElem?_set_ne (by omega), hdone i (by omega), if_pos hlt]
    . have heq : i = BitArray.nwords n - 1 := by omega
      rw [if_neg hlt, heq, List.getElem?_set_self (by omega)]

-- A word of two arrays, in the terms of the array that the class keeps
theorem getElem?_zipWith {f : Word → Word → Word} {i : Nat} (hi : i < BitArray.nwords n)
    : (List.zipWith f b.words c.words)[i]? = some (f (b.words.getD i 0) (c.words.getD i 0)) := by
  have hb := b.length_words
  have hc := c.length_words
  rw [List.getElem?_zipWith, List.getElem?_eq_getElem (by omega), List.getElem?_eq_getElem (by omega)]
  simp only [List.getD_eq_getElem?_getD, List.getElem?_eq_getElem (show i < b.words.length by omega),
    List.getElem?_eq_getElem (show i < c.words.length by omega), Option.getD_some]

theorem getElem?_words {i : Nat} (hi : i < BitArray.nwords n)
    : b.words[i]? = some (b.words.getD i 0) := by
  have hb := b.length_words
  rw [List.getD_eq_getElem?_getD, List.getElem?_eq_getElem (by omega), Option.getD_some]

theorem Packs.negateAll (h : Packs v b) (hn : n < 2 ^ 32) (hfuel : n < fuel)
    : ∃ v', v.negateAll fuel = some v' ∧ Packs v' b.negateAll := by
  have hpos := BitArray.nwords_pos n
  have hle := nwords_le_nbits b.nbits_pos
  have hlen := h.length_words
  have hlast := h.lastWord
  have hbody : ∀ (w : UInt32) (words : List Word), w.toNat < (v.nwords - 1).toNat →
      words.length = v.words.length → (∀ i, w.toNat ≤ i → words[i]? = v.words[i]?) →
      (do
        let word ← words[w.toNat]?
        store words w.toNat (word ^^^ fullMask)) =
      some (words.set w.toNat (b.words.getD w.toNat 0 ^^^ fullMask)) := by
    intro w words hw hlen' hrest
    rw [hrest w.toNat (Nat.le_refl _), h.words_eq, getElem?_words (by omega)]
    exact store_eq (by omega) _
  obtain ⟨words, hloop, hlen', hdone, hrest⟩ :=
    @CountedLoop.exists_fill (v.nwords - 1).toNat _ v.words _ (by omega) (by omega)
      (fun i => b.words.getD i 0 ^^^ fullMask) hbody fuel (by omega)
  have hword : words[(v.nwords - 1).toNat]? = some (b.words.getD (v.nwords - 1).toNat 0) := by
    rw [hrest _ (Nat.le_refl _), h.words_eq, getElem?_words (by omega)]
  let last := b.words.getD (v.nwords - 1).toNat 0 ^^^ v.upperMask
  have hstore := @store_eq words (v.nwords - 1).toNat (by omega) last
  refine ⟨{ v with words := words.set (v.nwords - 1).toNat last }, ?_, h.withWords ?_⟩
  . unfold BitArrayImpl.negateAll
    rw [hloop, Option.bind_eq_bind, Option.bind_some, hword, Option.bind_eq_bind, Option.bind_some,
      hstore]
    rfl
  . have hzip : ∀ i < BitArray.nwords n, b.negateAll.words[i]? = some (b.words.getD i 0 ^^^
        if i < BitArray.nwords n - 1 then fullMask else BitArray.upperMask n) := by
      intro i hi
      have hmask : b.setAll.words.getD i 0 =
          if i < BitArray.nwords n - 1 then fullMask else BitArray.upperMask n := by
        rw [List.getD_eq_getElem?_getD]
        show ((BitArray.maskWords n)[i]?).getD 0 = _
        rw [getElem?_maskWords hi, Option.getD_some]
      rw [← hmask]
      exact getElem?_zipWith hi
    refine eq_words ((List.length_set).trans (hlen'.trans hlen)) ?_ hzip
    intro i hi
    dsimp only [last]
    rw [hlast, h.upperMask_eq]
    by_cases hlt : i < BitArray.nwords n - 1
    . rw [List.getElem?_set_ne (by omega), hdone i (by omega), if_pos hlt]
    . have heq : i = BitArray.nwords n - 1 := by omega
      rw [if_neg hlt, heq, List.getElem?_set_self (by omega)]

theorem Packs.assignWords {f : Word → Word → Word} (h : Packs v b) (hrhs : Packs rhs c)
    (hn : n < 2 ^ 32) (hfuel : n < fuel) {d : BitArray n}
    (hd : d.words = List.zipWith f b.words c.words)
    : ∃ v', v.assignWords f fuel rhs = some v' ∧ Packs v' d := by
  have hle := nwords_le_nbits b.nbits_pos
  have hlen := h.length_words
  have hnwords := h.nwords_eq
  have hassert : v.nwords = rhs.nwords := by
    rw [← UInt64.toNat_inj, hnwords, hrhs.nwords_eq]
  have hbody : ∀ (w : UInt32) (words : List Word), w.toNat < v.nwords.toNat →
      words.length = v.words.length → (∀ i, w.toNat ≤ i → words[i]? = v.words[i]?) →
      (do
        let word ← words[w.toNat]?
        let other ← rhs.words[w.toNat]?
        store words w.toNat (f word other)) =
      some (words.set w.toNat (f (b.words.getD w.toNat 0) (c.words.getD w.toNat 0))) := by
    intro w words hw hlen' hrest
    rw [hrest w.toNat (Nat.le_refl _), h.words_eq, getElem?_words (by omega), hrhs.words_eq,
      getElem?_words (by omega)]
    exact store_eq (by omega) _
  obtain ⟨words, hloop, hlen', hdone, _⟩ :=
    @CountedLoop.exists_fill v.nwords.toNat _ v.words _ (by omega) (by omega)
      (fun i => f (b.words.getD i 0) (c.words.getD i 0)) hbody fuel (by omega)
  refine ⟨{ v with words }, ?_, h.withWords ?_⟩
  . unfold BitArrayImpl.assignWords
    rw [if_pos hassert, hloop]
    rfl
  . rw [hnwords] at hdone
    apply eq_words (hlen'.trans hlen) hdone
    intro i hi
    rw [hd]
    exact getElem?_zipWith hi

theorem Packs.copy (h : Packs v b) (hn : n < 2 ^ 32) (hfuel : n < fuel) (garbage : Nat → Word)
    : ∃ v', v.copy fuel garbage = some v' ∧ Packs v' b := by
  obtain ⟨v', hnew, hv'⟩ := new_eq h.nbits_eq b.nbits_pos hn hfuel garbage
  have hle := nwords_le_nbits b.nbits_pos
  have hlen := hv'.length_words
  have hnwords := hv'.nwords_eq
  have hbody : ∀ (w : UInt32) (words : List Word), w.toNat < v'.nwords.toNat →
      words.length = v'.words.length → (∀ i, w.toNat ≤ i → words[i]? = v'.words[i]?) →
      (do
        let word ← v.words[w.toNat]?
        store words w.toNat word) = some (words.set w.toNat (b.words.getD w.toNat 0)) := by
    intro w words hw hlen' _
    rw [h.words_eq, getElem?_words (by omega)]
    exact store_eq (by omega) _
  obtain ⟨words, hloop, hlen', hdone, _⟩ :=
    @CountedLoop.exists_fill v'.nwords.toNat _ v'.words _ (by omega) (by omega)
      (fun i => b.words.getD i 0) hbody fuel (by omega)
  refine ⟨{ v' with words }, ?_, hv'.withWords ?_⟩
  . unfold BitArrayImpl.copy
    rw [hnew, Option.bind_eq_bind, Option.bind_some, hloop]
    rfl
  . rw [hnwords] at hdone
    exact eq_words (hlen'.trans hlen) hdone fun i hi => getElem?_words hi

end Words

section Bits

variable {v : BitArrayImpl} {b : BitArray n} {fuel : Nat}

theorem Packs.lt_nbits_iff (h : Packs v b) (pos : UInt32)
    : pos.toUInt64 < v.nbits ↔ pos.toNat < n := by
  rw [UInt64.lt_iff_toNat_lt, h.nbits_eq, UInt32.toNat_toUInt64]

theorem Packs.isBitSet_eq (h : Packs v b) (pos : UInt32)
    : v.isBitSet pos = some (b.isBitSet pos.toNat) := by
  unfold BitArrayImpl.isBitSet BitArray.isBitSet
  simp only [h.lt_nbits_iff]
  split
  . next hlt =>
    rw [h.words_eq, getElem?_words (BitArray.div_lt_nwords hlt)]
    rfl
  . rfl

theorem Packs.changeBit (h : Packs v b) {f : Word → Word → Word} {pos : UInt32} {c : BitArray n}
    (hc : c.words = if pos.toNat < n then
      b.words.modify (pos.toNat / 64) fun word => f word (BitVec.twoPow 64 (pos.toNat % 64))
    else
      b.words)
    : ∃ v', v.changeBit f pos = some v' ∧ Packs v' c := by
  unfold BitArrayImpl.changeBit
  simp only [h.lt_nbits_iff]
  by_cases hlt : pos.toNat < n
  . have hword := getElem?_words (b := b) (BitArray.div_lt_nwords hlt)
    have hw : pos.toNat / 64 < v.words.length := by
      rw [h.length_words]
      exact BitArray.div_lt_nwords hlt
    let word := f (b.words.getD (pos.toNat / 64) 0) (1#64 <<< (pos.toNat % 64))
    have hread : v.words[pos.toNat / 64]? = some (b.words.getD (pos.toNat / 64) 0) := by
      rw [h.words_eq, hword]
    have hstore := store_eq hw word
    rw [if_pos hlt] at hc
    refine ⟨{ v with words := v.words.set (pos.toNat / 64) word }, ?_, h.withWords ?_⟩
    . rw [if_pos hlt, hread, Option.bind_eq_bind, Option.bind_some, hstore]
      rfl
    . rw [hc, h.words_eq, List.modify_eq_set_getElem?, hword]
      rfl
  . rw [if_neg hlt] at hc
    refine ⟨v, if_neg hlt, h.nbits_eq, h.nwords_eq, ?_, h.upperMask_eq⟩
    rw [hc, h.words_eq]

theorem Packs.setBit (h : Packs v b) (pos : UInt32)
    : ∃ v', v.setBit pos = some v' ∧ Packs v' (b.setBit pos.toNat) := by
  apply h.changeBit
  unfold BitArray.setBit
  split <;> rfl

theorem Packs.clearBit (h : Packs v b) (pos : UInt32)
    : ∃ v', v.clearBit pos = some v' ∧ Packs v' (b.clearBit pos.toNat) := by
  apply h.changeBit
  unfold BitArray.clearBit
  split <;> rfl

theorem Packs.negateBit (h : Packs v b) (pos : UInt32)
    : ∃ v', v.negateBit pos = some v' ∧ Packs v' (b.negateBit pos.toNat) := by
  apply h.changeBit
  unfold BitArray.negateBit
  split <;> rfl

theorem Packs.assignBit (h : Packs v b) (pos : UInt32) (value : Bool)
    : ∃ v', v.assignBit pos value = some v' ∧ Packs v' (b.assignBit pos.toNat value) := by
  cases value with
  | true => exact h.setBit pos
  | false => exact h.clearBit pos

theorem Packs.assignAll (h : Packs v b) (hn : n < 2 ^ 32) (hfuel : n < fuel) (value : Bool)
    : ∃ v', v.assignAll fuel value = some v' ∧ Packs v' (b.assignAll value) := by
  cases value with
  | true => exact h.setAll hn hfuel
  | false => exact h.clearAll hn hfuel

end Bits

section Queries

variable {v : BitArrayImpl} {b : BitArray n} {fuel : Nat}

theorem Packs.all_eq (h : Packs v b) (hn : n < 2 ^ 32) {bound : Nat}
    (hbound : bound ≤ BitArray.nwords n) (hfuel : bound < fuel) (q : Word → Bool)
    : CountedLoop.all bound
        (fun w => do
          let word ← v.words[w.toNat]?
          some (q word)) fuel 0 =
        some (decide (∀ i < bound, q (b.words.getD i 0) = true)) := by
  have hle := nwords_le_nbits b.nbits_pos
  apply CountedLoop.all_eq (q := fun i => q (b.words.getD i 0)) (by omega) _ hfuel
  intro w hw
  rw [h.words_eq, getElem?_words (by omega)]
  rfl

theorem Packs.isAllCleared_eq (h : Packs v b) (hn : n < 2 ^ 32) (hfuel : n < fuel)
    : v.isAllCleared fuel = some b.isAllCleared := by
  have hle := nwords_le_nbits b.nbits_pos
  unfold BitArrayImpl.isAllCleared
  rw [h.nwords_eq, h.all_eq hn (Nat.le_refl _) (by omega) (· == 0), Option.some.injEq,
    Bool.eq_iff_iff, decide_eq_true_iff, BitArray.isAllCleared, List.all_eq_true]
  constructor
  . intro hall word hword
    obtain ⟨i, hi, rfl⟩ := List.getElem_of_mem hword
    have hword := hall i (by rwa [b.length_words] at hi)
    rwa [List.getD_eq_getElem?_getD, List.getElem?_eq_getElem hi] at hword
  . intro hall i hi
    exact hall _ (List.mem_of_getElem? (getElem?_words hi))

theorem isAllSet_iff_words (b : BitArray n)
    : b.isAllSet = true ↔ (∀ i < BitArray.nwords n - 1, b.words.getD i 0 = fullMask) ∧
        b.words.getD (BitArray.nwords n - 1) 0 = BitArray.upperMask n := by
  have hpos := BitArray.nwords_pos n
  rw [BitArray.isAllSet, beq_iff_eq]
  constructor
  . intro heq
    have hword : ∀ i < BitArray.nwords n, b.words.getD i 0 =
        if i < BitArray.nwords n - 1 then fullMask else BitArray.upperMask n := by
      intro i hi
      have hmask := getElem?_maskWords hi
      rw [← heq, getElem?_words hi] at hmask
      exact Option.some.inj hmask
    constructor
    . intro i hi
      rw [hword i (by omega), if_pos hi]
    . rw [hword _ (by omega), if_neg (Nat.lt_irrefl _)]
  . rintro ⟨hfull, hupper⟩
    symm
    apply eq_words (BitArray.length_maskWords n) (fun i hi => getElem?_maskWords hi)
    intro i hi
    rw [getElem?_words hi]
    split
    . next hlt => rw [hfull i hlt]
    . next hge =>
      have heq : i = BitArray.nwords n - 1 := by omega
      rw [heq, hupper]

theorem Packs.isAllSet_eq (h : Packs v b) (hn : n < 2 ^ 32) (hfuel : n < fuel)
    : v.isAllSet fuel = some b.isAllSet := by
  have hpos := BitArray.nwords_pos n
  have hle := nwords_le_nbits b.nbits_pos
  have hlast : v.words[BitArray.nwords n - 1]? = some (b.words.getD (BitArray.nwords n - 1) 0) := by
    rw [h.words_eq, getElem?_words (by omega)]
  unfold BitArrayImpl.isAllSet
  rw [h.lastWord, h.all_eq hn (Nat.sub_le _ _) (by omega) (· == fullMask), Option.bind_eq_bind,
    Option.bind_some, hlast, h.upperMask_eq]
  simp only [beq_iff_eq, decide_eq_true_eq]
  split
  . next hfull =>
    rw [Option.bind_eq_bind, Option.bind_some, Option.some.injEq, Bool.eq_iff_iff, beq_iff_eq,
      isAllSet_iff_words]
    exact ⟨fun heq => ⟨hfull, heq⟩, fun heq => heq.2⟩
  . next hfull =>
    rw [Option.some.injEq, eq_comm, ← Bool.not_eq_true, isAllSet_iff_words]
    exact fun heq => hfull heq.1

theorem Packs.countAllSet_eq (h : Packs v b) (hn : n < 2 ^ 32) (hfuel : n < fuel)
    : ∃ count, v.countAllSet fuel = some count ∧
        count.toNat = (List.range n).countP b.isBitSet := by
  have hstep : ∀ (pos : UInt32) (count : UInt64), pos.toNat < n →
      count.toNat = (List.range pos.toNat).countP b.isBitSet →
      ∃ count', (do
          if ← v.isBitSet pos then
            some (count + 1)
          else
            some count) = some count' ∧
        count'.toNat = (List.range (pos.toNat + 1)).countP b.isBitSet := by
    intro pos count hpos hcount
    have hle : (List.range pos.toNat).countP b.isBitSet ≤ pos.toNat := by
      have := List.countP_le_length (p := b.isBitSet) (l := List.range pos.toNat)
      rwa [List.length_range] at this
    rw [h.isBitSet_eq, List.range_succ, List.countP_append, List.countP_singleton,
      Option.bind_eq_bind, Option.bind_some]
    cases b.isBitSet pos.toNat with
    | true =>
      refine ⟨count + 1, rfl, ?_⟩
      rw [UInt64.toNat_add, hcount]
      have hone : (1 : UInt64).toNat = 1 := rfl
      rw [hone, if_pos rfl]
      omega
    | false => exact ⟨count, rfl, hcount⟩
  unfold BitArrayImpl.countAllSet
  rw [h.nbits_eq]
  exact CountedLoop.exists_loop hn
    (fun k (count : UInt64) => count.toNat = (List.range k).countP b.isBitSet) rfl hstep hfuel

end Queries

end BitArrayImpl
