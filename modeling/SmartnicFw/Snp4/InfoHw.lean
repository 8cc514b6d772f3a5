import SmartnicFw.Snp4.Info

/-!
This module contains the parsing of a table's format string (`snp4_info_hw.c`).
-/

-- A text that ends at its first zero
structure CString where
  chars : List Char
  not_nul : Char.ofNat 0 ∉ chars

namespace Snp4InfoHw

structure MatchInfo where
  numMatches : UInt16
  priorityRequired : Bool
  matchList : List Snp4InfoMatch
  deriving DecidableEq, Repr

def invalidMatch : Snp4InfoMatch := { type := .invalid, bits := 0 }

-- The count of the fields of a string that is not empty. The index has 32 bits, the count 16.
def countFields (s : List Char) (fuel : Nat) (i : UInt32) (numMatches : UInt16) : Option UInt16 :=
  match fuel with
  | 0 => none
  | fuel + 1 =>
    match s[i.toNat]? with
    | none => some numMatches
    | some c => countFields s fuel (i + 1) (if c = ':' then numMatches + 1 else numMatches)

-- The next field and the cursor after it
def strsep (cursor : Option (List Char)) : Option (List Char) × Option (List Char) :=
  match cursor with
  | none => (none, none)
  | some s =>
    match s.dropWhile (· ≠ ':') with
    | [] => (some s, none)
    | _ :: rest => (some (s.takeWhile (· ≠ ':')), some rest)

def isspace (c : Char) : Bool := c ∈ [' ', '\t', '\n', Char.ofNat 0x0b, Char.ofNat 0x0c, '\r']

-- `strtoul` of a decimal number, with its unsigned result stored in an `unsigned int`
def toFieldSize (negative : Bool) (digits : List Char) : UInt32 :=
  let n := Nat.ofDigitChars 10 digits 0
  if n ≥ 2 ^ 64 then
    UInt32.ofNat (2 ^ 64 - 1)
  else if negative then
    UInt32.ofNat (2 ^ 64 - n)
  else
    UInt32.ofNat n

def takeSign (s : List Char) : Bool × List Char :=
  match s with
  | '-' :: s => (true, s)
  | '+' :: s => (false, s)
  | s => (false, s)

-- `sscanf(field_fmt, "%u%c", &field_size, &field_type)`, where it matches both
def sscanf (fieldFmt : List Char) : Option (UInt32 × Char) :=
  let (negative, s) := takeSign (fieldFmt.dropWhile isspace)
  match s.takeWhile Char.isDigit, s.dropWhile Char.isDigit with
  | [], _ => none
  | _, [] => none
  | digits, fieldType :: _ => some (toFieldSize negative digits, fieldType)

-- What is recorded for a field, and whether it asks for a priority
def parseField (fieldFmt : List Char) : Snp4InfoMatch × Bool :=
  match sscanf fieldFmt with
  | none => (invalidMatch, false)
  | some (fieldSize, fieldType) =>
    let bits := fieldSize.toUInt16
    match fieldType with
    | 'b' => ({ type := .bitfield, bits }, false)
    | 'c' => ({ type := .constant, bits }, false)
    | 'p' => ({ type := .prefixed, bits }, true)
    | 'r' => ({ type := .range, bits }, true)
    | 't' => ({ type := .ternary, bits }, true)
    | 'u' => ({ type := .unused, bits }, false)
    | _ => (invalidMatch, false)

-- The second pass, with the number of fields that are left. The next one goes to the slot of that
-- number less 1.
def fillMatches (left : Nat) (cursor : Option (List Char)) (slots : List Snp4InfoMatch)
    (priorityRequired : Bool)
    : List Snp4InfoMatch × Bool :=
  match left with
  | 0 => (slots, priorityRequired)
  | left + 1 =>
    match strsep cursor with
    | (none, cursor) => fillMatches left cursor (slots.set left invalidMatch) priorityRequired
    | (some fieldFmt, cursor) =>
      let (m, priority) := parseField fieldFmt
      fillMatches left cursor (slots.set left m) (priorityRequired || priority)

-- There is no result where the count of the fields goes round for ever within the fuel
def snp4InfoGetMatches (fuel : Nat) (formatString : CString) (maxMatches : UInt16)
    (slots : List Snp4InfoMatch)
    : Option (Except Snp4Status MatchInfo) :=
  let s := formatString.chars
  let count := if s = [] then some 0 else countFields s fuel 0 1
  match count with
  | none => none
  | some numMatches =>
    if numMatches > maxMatches then
      some (.error .infoTooManyMatches)
    else
      let (matchList, priorityRequired) := fillMatches numMatches.toNat (some s) slots false
      some (.ok { numMatches, priorityRequired, matchList })

-- The letters of the grammar
def letterType : Char → Option Snp4InfoMatchType
  | 'b' => some .bitfield
  | 'c' => some .constant
  | 'p' => some .prefixed
  | 'r' => some .range
  | 't' => some .ternary
  | 'u' => some .unused
  | _ => none

def needsPriority : Snp4InfoMatchType → Bool
  | .prefixed | .range | .ternary => true
  | _ => false

-- A decimal width and a letter
structure IsField (field digits : List Char) (letter : Char) (type : Snp4InfoMatchType) : Prop where
  eq_append : field = digits ++ [letter]
  digits_ne : digits ≠ []
  isDigit : ∀ c ∈ digits, c.isDigit
  width_lt : Nat.ofDigitChars 10 digits 0 < 2 ^ 16
  letter_eq : letterType letter = some type

-- The meaning of a field under the grammar
def meaning (field : List Char) : Snp4InfoMatch :=
  match field.takeWhile Char.isDigit, field.dropWhile Char.isDigit with
  | [], _ => invalidMatch
  | digits, [letter] =>
    match letterType letter with
    | none => invalidMatch
    | some type =>
      let width := Nat.ofDigitChars 10 digits 0
      if width < 2 ^ 16 then { type, bits := UInt16.ofNat width } else invalidMatch
  | _, _ => invalidMatch

def fields (s : List Char) : List (List Char) := if s = [] then [] else s.splitOn ':'

end Snp4InfoHw

namespace Snp4InfoHw

-- How `sscanf` finds a width and a known letter in a field
structure Scans (field blanks sign digits : List Char) (letter : Char) (after : List Char)
    : Prop where
  eq_append : field = blanks ++ (sign ++ (digits ++ letter :: after))
  isspace : ∀ c ∈ blanks, isspace c
  sign_mem : sign ∈ [[], ['+'], ['-']]
  digits_ne : digits ≠ []
  isDigit : ∀ c ∈ digits, c.isDigit
  letter_known : (letterType letter).isSome

theorem not_isDigit_of_letter {letter : Char} (h : (letterType letter).isSome)
    : letter.isDigit = false := by
  unfold letterType at h
  split at h <;> first | rfl | contradiction

theorem not_isspace_of_isDigit {c : Char} (h : c.isDigit) : isspace c = false := by
  by_contra hspace
  simp only [isspace, Bool.not_eq_false, decide_eq_true_eq, List.mem_cons, List.not_mem_nil,
    or_false] at hspace
  rcases hspace with rfl | rfl | rfl | rfl | rfl | rfl <;> contradiction

theorem takeSign_append {sign rest : List Char} (hsign : sign ∈ [[], ['+'], ['-']])
    (hrest : ∀ c ∈ rest.head?, c.isDigit)
    : takeSign (sign ++ rest) = (decide (sign = ['-']), rest) := by
  simp only [List.mem_cons, List.not_mem_nil, or_false] at hsign
  rcases hsign with rfl | rfl | rfl
  . cases rest with
    | nil => rfl
    | cons c rest =>
      have hdigit := hrest c rfl
      rw [List.nil_append]
      unfold takeSign
      split
      . next heq =>
        cases heq
        contradiction
      . next heq =>
        cases heq
        contradiction
      . rfl
  . rfl
  . rfl

theorem exists_takeSign (s : List Char)
    : ∃ sign ∈ [[], ['+'], ['-']], s = sign ++ (takeSign s).2 ∧
        (takeSign s).1 = decide (sign = ['-']) := by
  unfold takeSign
  split
  . exact ⟨['-'], by decide, rfl, rfl⟩
  . exact ⟨['+'], by decide, rfl, rfl⟩
  . exact ⟨[], by decide, rfl, rfl⟩

theorem takeWhile_digits {digits : List Char} (hdigits : ∀ c ∈ digits, c.isDigit) {c : Char}
    (hc : c.isDigit = false) (after : List Char)
    : (digits ++ c :: after).takeWhile Char.isDigit = digits ∧
        (digits ++ c :: after).dropWhile Char.isDigit = c :: after := by
  constructor
  . rw [List.takeWhile_append_of_pos hdigits, List.takeWhile_cons_of_neg (by simp [hc]),
      List.append_nil]
  . rw [List.dropWhile_append_of_pos hdigits, List.dropWhile_cons_of_neg (by simp [hc])]

theorem sscanf_of_scans {field blanks sign digits after : List Char} {letter : Char}
    (h : Scans field blanks sign digits letter after)
    : sscanf field = some (toFieldSize (decide (sign = ['-'])) digits, letter) := by
  obtain ⟨d, ds, hcons⟩ := List.exists_cons_of_ne_nil h.digits_ne
  have hd : d.isDigit := h.isDigit d (by rw [hcons]; exact List.mem_cons_self)
  have hhead : ∀ c ∈ (digits ++ letter :: after).head?, c.isDigit := by
    intro c hc
    rw [hcons] at hc
    cases hc
    exact hd
  have hskip : (blanks ++ (sign ++ (digits ++ letter :: after))).dropWhile isspace =
      sign ++ (digits ++ letter :: after) := by
    rw [List.dropWhile_append_of_pos h.isspace]
    have hsign := h.sign_mem
    simp only [List.mem_cons, List.not_mem_nil, or_false] at hsign
    rcases hsign with rfl | rfl | rfl
    . rw [List.nil_append, hcons, List.cons_append,
        List.dropWhile_cons_of_neg (by simp [not_isspace_of_isDigit hd])]
    . rfl
    . rfl
  obtain ⟨htake, hdrop⟩ := takeWhile_digits h.isDigit (not_isDigit_of_letter h.letter_known) after
  unfold sscanf
  rw [h.eq_append, hskip, takeSign_append h.sign_mem hhead]
  simp only [htake, hdrop]
  subst hcons
  rfl

theorem exists_scans {field : List Char} {size : UInt32} {letter : Char}
    (h : sscanf field = some (size, letter)) (hknown : (letterType letter).isSome)
    : ∃ blanks sign digits after, Scans field blanks sign digits letter after := by
  obtain ⟨sign, hmem, hsign, _⟩ := exists_takeSign (field.dropWhile isspace)
  unfold sscanf at h
  dsimp only at h
  let s := (takeSign (field.dropWhile isspace)).2
  split at h
  . contradiction
  . contradiction
  . next fieldType after hdrop hne =>
    cases h
    refine ⟨field.takeWhile isspace, sign, s.takeWhile Char.isDigit, after, ?_, ?_, hmem, hne, ?_,
      hknown⟩
    . rw [← hdrop, List.takeWhile_append_dropWhile, ← hsign, List.takeWhile_append_dropWhile]
    . intro c hc
      exact List.mem_takeWhile_imp hc
    . intro c hc
      exact List.mem_takeWhile_imp hc

theorem parseField_of_sscanf {field : List Char} {size : UInt32} {letter : Char}
    (h : sscanf field = some (size, letter))
    : parseField field =
        match letterType letter with
        | none => (invalidMatch, false)
        | some type => ({ type, bits := size.toUInt16 }, needsPriority type) := by
  unfold parseField
  rw [h]
  dsimp only
  unfold letterType
  split <;> rfl

theorem letterType_ne_invalid {letter : Char} {type : Snp4InfoMatchType}
    (h : letterType letter = some type)
    : type ≠ .invalid := by
  intro hinvalid
  subst hinvalid
  unfold letterType at h
  split at h <;> contradiction

-- The priority is asked for by the type that is recorded
theorem parseField_snd (field : List Char)
    : (parseField field).2 = needsPriority (parseField field).1.type := by
  cases hscan : sscanf field with
  | none =>
    unfold parseField
    rw [hscan]
    rfl
  | some p =>
    rw [parseField_of_sscanf hscan]
    cases letterType p.2 <;> rfl

theorem meaning_of_isField {field digits : List Char} {letter : Char} {type : Snp4InfoMatchType}
    (h : IsField field digits letter type)
    : meaning field = { type, bits := UInt16.ofNat (Nat.ofDigitChars 10 digits 0) } := by
  have hletter : letter.isDigit = false := by
    apply not_isDigit_of_letter
    rw [h.letter_eq]
    rfl
  obtain ⟨htake, hdrop⟩ := takeWhile_digits h.isDigit hletter []
  obtain ⟨d, ds, hcons⟩ := List.exists_cons_of_ne_nil h.digits_ne
  have hlt := h.width_lt
  unfold meaning
  rw [h.eq_append, htake, hdrop]
  subst hcons
  simp only [h.letter_eq, hlt, ↓reduceIte]

theorem isField_of_meaning {field : List Char} (h : meaning field ≠ invalidMatch)
    : ∃ digits letter type, IsField field digits letter type := by
  unfold meaning at h
  split at h
  . contradiction
  . next letter hdrop hne =>
    split at h
    . contradiction
    . next type hletter =>
      dsimp only at h
      split at h
      . next hlt =>
        refine ⟨field.takeWhile Char.isDigit, letter, type, ?_, hne, ?_, hlt, hletter⟩
        . rw [← hdrop, List.takeWhile_append_dropWhile]
        . intro c hc
          exact List.mem_takeWhile_imp hc
      . contradiction
  . contradiction

-- A field that `sscanf` finds a width and a known letter in is one of the grammar
def Exact (field : List Char) : Prop :=
  ∀ blanks sign digits letter after, Scans field blanks sign digits letter after →
    blanks = [] ∧ sign = [] ∧ after = [] ∧ Nat.ofDigitChars 10 digits 0 < 2 ^ 16

theorem IsField.scans {field digits : List Char} {letter : Char} {type : Snp4InfoMatchType}
    (h : IsField field digits letter type)
    : Scans field [] [] digits letter [] where
  eq_append := h.eq_append
  isspace := by simp
  sign_mem := by simp
  digits_ne := h.digits_ne
  isDigit := h.isDigit
  letter_known := by
    rw [h.letter_eq]
    rfl

theorem toUInt16_toFieldSize {digits : List Char} (h : Nat.ofDigitChars 10 digits 0 < 2 ^ 16)
    : (toFieldSize false digits).toUInt16 = UInt16.ofNat (Nat.ofDigitChars 10 digits 0) := by
  have hlt : ¬ Nat.ofDigitChars 10 digits 0 ≥ 2 ^ 64 := by omega
  unfold toFieldSize
  simp only [hlt, ↓reduceIte, Bool.false_eq_true]
  rw [← UInt16.toNat_inj, UInt32.toNat_toUInt16, UInt32.toNat_ofNat', UInt16.toNat_ofNat']
  omega

theorem parseField_of_isField {field digits : List Char} {letter : Char}
    {type : Snp4InfoMatchType} (h : IsField field digits letter type)
    : (parseField field).1 = meaning field := by
  rw [parseField_of_sscanf (sscanf_of_scans h.scans), h.letter_eq, meaning_of_isField h]
  simp only [reduceCtorEq, decide_false, toUInt16_toFieldSize h.width_lt]

theorem IsField.exact_of_scans {field digits digits' blanks sign after : List Char}
    {letter letter' : Char} {type : Snp4InfoMatchType} (h : IsField field digits' letter' type)
    (hscans : Scans field blanks sign digits letter after)
    : blanks = [] ∧ sign = [] ∧ after = [] ∧ Nat.ofDigitChars 10 digits 0 < 2 ^ 16 := by
  obtain ⟨d, ds, hcons⟩ := List.exists_cons_of_ne_nil h.digits_ne
  have hd : d.isDigit := h.isDigit d (by rw [hcons]; exact List.mem_cons_self)
  have hsame := hscans.eq_append.symm.trans h.eq_append
  have hblanks : blanks = [] := by
    cases blanks with
    | nil => rfl
    | cons b bs =>
      rw [hcons] at hsame
      have hspace := hscans.isspace b List.mem_cons_self
      rw [(List.cons.inj hsame).1, not_isspace_of_isDigit hd] at hspace
      contradiction
  have hsign : sign = [] := by
    rw [hblanks, hcons] at hsame
    have hmem := hscans.sign_mem
    simp only [List.mem_cons, List.not_mem_nil, or_false] at hmem
    rcases hmem with rfl | rfl | rfl
    . rfl
    . rw [← (List.cons.inj hsame).1] at hd
      contradiction
    . rw [← (List.cons.inj hsame).1] at hd
      contradiction
  have hletter' : letter'.isDigit = false := by
    apply not_isDigit_of_letter
    rw [h.letter_eq]
    rfl
  rw [hblanks, hsign, List.nil_append, List.nil_append] at hsame
  obtain ⟨htake, hdrop⟩ :=
    takeWhile_digits hscans.isDigit (not_isDigit_of_letter hscans.letter_known) after
  obtain ⟨htake', hdrop'⟩ := takeWhile_digits h.isDigit hletter' []
  rw [hsame, htake'] at htake
  rw [hsame, hdrop'] at hdrop
  refine ⟨hblanks, hsign, ?_, ?_⟩
  . exact (List.cons.inj hdrop).2.symm
  . rw [← htake]
    exact h.width_lt

-- The other fields of the grammar of `sscanf` are recorded with a type, and so are not refused
theorem parseField_eq_meaning_iff (field : List Char)
    : (parseField field).1 = meaning field ↔ Exact field := by
  constructor
  . intro heq blanks sign digits letter after hscans
    have hparse := parseField_of_sscanf (sscanf_of_scans hscans)
    obtain ⟨type, htype⟩ := Option.isSome_iff_exists.mp hscans.letter_known
    rw [htype] at hparse
    have hne : meaning field ≠ invalidMatch := by
      rw [← heq, hparse]
      intro hinvalid
      exact letterType_ne_invalid htype (congrArg Snp4InfoMatch.type hinvalid)
    obtain ⟨digits', letter', type', hfield⟩ := isField_of_meaning hne
    exact hfield.exact_of_scans hscans
  . intro hexact
    by_cases hne : meaning field = invalidMatch
    . rw [hne]
      cases hscan : sscanf field with
      | none =>
        unfold parseField
        rw [hscan]
      | some p =>
        rw [parseField_of_sscanf hscan]
        cases htype : letterType p.2 with
        | none => rfl
        | some type =>
          have hknown : (letterType p.2).isSome := by
            rw [htype]
            rfl
          obtain ⟨blanks, sign, digits, after, hscans⟩ := exists_scans hscan hknown
          obtain ⟨hblanks, hsign, hafter, hlt⟩ := hexact _ _ _ _ _ hscans
          have hfield : IsField field digits p.2 type := {
            eq_append := by
              rw [hscans.eq_append, hblanks, hsign, hafter]
              rfl
            digits_ne := hscans.digits_ne
            isDigit := hscans.isDigit
            width_lt := hlt
            letter_eq := htype }
          rw [meaning_of_isField hfield] at hne
          exact absurd (congrArg Snp4InfoMatch.type hne) (letterType_ne_invalid htype)
    . obtain ⟨digits, letter, type, hfield⟩ := isField_of_meaning hne
      exact parseField_of_isField hfield

-- The two passes

theorem length_fields (s : List Char) (hne : s ≠ [])
    : (fields s).length = s.count ':' + 1 := by
  unfold fields
  rw [if_neg hne]
  clear hne
  induction s with
  | nil => rfl
  | cons c s ih =>
    rw [List.splitOn_cons_eq_if_modifyHead, List.count_cons]
    split
    . rw [List.length_cons, ih]
    . rw [List.length_modifyHead, ih]

-- By induction on what is left of the string
theorem countFields_eq (s rest : List Char) (i : UInt32) (numMatches : UInt16)
    (hlt : s.length < 2 ^ 32) (hrest : s.drop i.toNat = rest) (hi : i.toNat ≤ s.length)
    : countFields s (rest.length + 1) i numMatches =
        some (numMatches + UInt16.ofNat (rest.count ':')) := by
  induction rest generalizing i numMatches with
  | nil =>
    have hend : s[i.toNat]? = none := by
      rw [← List.head?_drop, hrest]
      rfl
    unfold countFields
    rw [hend]
    simp
  | cons c rest ih =>
    have hget : s[i.toNat]? = some c := by
      rw [← List.head?_drop, hrest]
      rfl
    obtain ⟨hbound, _⟩ := List.getElem?_eq_some_iff.mp hget
    have hone : (1 : UInt32).toNat = 1 := rfl
    have hnext : (i + 1).toNat = i.toNat + 1 := by
      rw [UInt32.toNat_add]
      omega
    have hdrop : s.drop (i + 1).toNat = rest := by
      rw [hnext, ← List.drop_drop, hrest]
      rfl
    rw [List.length_cons, countFields, hget]
    dsimp only
    rw [ih _ _ hdrop (by omega), List.count_cons]
    congr 1
    split
    . next hcolon =>
      simp only [hcolon, beq_self_eq_true, ↓reduceIte, UInt16.ofNat_add]
      grind
    . next hcolon =>
      simp [hcolon]

theorem countFields_eq_none (s : List Char) (hge : 2 ^ 32 ≤ s.length) (fuel : Nat) (i : UInt32)
    (numMatches : UInt16)
    : countFields s fuel i numMatches = none := by
  induction fuel generalizing i numMatches with
  | zero => rfl
  | succ fuel ih =>
    have hi := i.toNat_lt
    rw [countFields, List.getElem?_eq_getElem (by omega : i.toNat < s.length)]
    apply ih

theorem countFields_mono {s : List Char} {fuel : Nat} {i : UInt32} {numMatches n : UInt16}
    (h : countFields s fuel i numMatches = some n) (more : Nat)
    : countFields s (fuel + more) i numMatches = some n := by
  induction fuel generalizing i numMatches with
  | zero => contradiction
  | succ fuel ih =>
    rw [Nat.succ_add]
    unfold countFields at h ⊢
    split at h
    . exact h
    . apply ih
      exact h

theorem splitOn_eq (s : List Char)
    : s.splitOn ':' =
        match s.dropWhile (· ≠ ':') with
        | [] => [s]
        | _ :: rest => s.takeWhile (· ≠ ':') :: rest.splitOn ':' := by
  have hfirst : ∀ c ∈ s.takeWhile (· ≠ ':'), (c == ':') = false := by
    intro c hc
    have hmem := List.mem_takeWhile_imp hc
    simpa using hmem
  split
  . next hnil =>
    have hall : s.takeWhile (· ≠ ':') = s := by
      have happend := List.takeWhile_append_dropWhile (p := (· ≠ ':')) (l := s)
      rw [hnil, List.append_nil] at happend
      exact happend
    rw [List.splitOn_eq_splitOnP]
    rw [hall] at hfirst
    exact List.splitOnP_eq_singleton hfirst
  . next c rest hcons =>
    have hc : c = ':' := by
      have hhead := List.head?_dropWhile_not (· ≠ ':') s
      rw [hcons] at hhead
      simpa using hhead
    subst hc
    have happend := List.takeWhile_append_dropWhile (p := (· ≠ ':')) (l := s)
    rw [hcons] at happend
    rw [List.splitOn_eq_splitOnP]
    nth_rewrite 1 [← happend]
    exact List.splitOnP_append_cons_of_forall_mem hfirst _ (by simp) rest

-- By induction on the number of fields that are left
theorem fillMatches_eq (left : Nat) (s : List Char) (slots : List Snp4InfoMatch)
    (priorityRequired : Bool) (hleft : left ≤ (s.splitOn ':').length) (hslots : left ≤ slots.length)
    : fillMatches left (some s) slots priorityRequired =
        ((((s.splitOn ':').take left).map fun f => (parseField f).1).reverse ++ slots.drop left,
          priorityRequired || ((s.splitOn ':').take left).any fun f => (parseField f).2) := by
  induction left generalizing s slots priorityRequired with
  | zero => simp [fillMatches]
  | succ left ih =>
    have hset : ∀ m : Snp4InfoMatch,
        (slots.set left m).drop left = m :: slots.drop (left + 1) := by
      intro m
      rw [List.drop_eq_getElem_cons (by rw [List.length_set]; omega), List.getElem_set_self,
        List.drop_set_of_lt (by omega)]
    rw [splitOn_eq] at hleft ⊢
    unfold fillMatches
    cases hdrop : s.dropWhile (· ≠ ':') with
    | nil =>
      have hsep : strsep (some s) = (some s, none) := by
        unfold strsep
        dsimp only
        rw [hdrop]
      rw [hdrop] at hleft
      rw [List.length_singleton] at hleft
      cases Nat.le_zero.mp (Nat.le_of_succ_le_succ hleft)
      have hslot := hset (parseField s).1
      rw [List.drop_zero] at hslot
      rw [hsep]
      simp [fillMatches, hslot]
    | cons c rest =>
      have hsep : strsep (some s) = (some (s.takeWhile (· ≠ ':')), some rest) := by
        unfold strsep
        dsimp only
        rw [hdrop]
      rw [hdrop] at hleft
      simp only [List.length_cons, Nat.add_le_add_iff_right] at hleft
      rw [hsep]
      dsimp only
      rw [ih rest _ _ hleft (by rw [List.length_set]; omega), hset]
      simp [Bool.or_assoc]

variable (formatString : CString) (maxMatches : UInt16)

def numFields : Nat := (fields formatString.chars).length

-- What a call gives that returns
def outcome (slots : List Snp4InfoMatch) : Except Snp4Status MatchInfo :=
  let numMatches := UInt16.ofNat (numFields formatString)
  if numMatches > maxMatches then
    .error .infoTooManyMatches
  else
    let (matchList, priorityRequired) :=
      fillMatches numMatches.toNat (some formatString.chars) slots false
    .ok { numMatches, priorityRequired, matchList }

theorem snp4InfoGetMatches_eq (hlt : formatString.chars.length < 2 ^ 32)
    (slots : List Snp4InfoMatch)
    : snp4InfoGetMatches (formatString.chars.length + 1) formatString maxMatches slots =
        some (outcome formatString maxMatches slots) := by
  have hcount : (if formatString.chars = [] then some 0 else
      countFields formatString.chars (formatString.chars.length + 1) 0 1) =
        some (UInt16.ofNat (numFields formatString)) := by
    split
    . next hnil =>
      unfold numFields fields
      rw [if_pos hnil]
      rfl
    . next hne =>
      rw [countFields_eq _ formatString.chars 0 1 hlt rfl (Nat.zero_le _), numFields,
        length_fields _ hne, UInt16.ofNat_add]
      congr 1
      grind
  unfold snp4InfoGetMatches outcome
  simp only [hcount]
  split <;> rfl

theorem eq_outcome {fuel : Nat} {slots : List Snp4InfoMatch} {r : Except Snp4Status MatchInfo}
    (h : snp4InfoGetMatches fuel formatString maxMatches slots = some r)
    : formatString.chars.length < 2 ^ 32 ∧ r = outcome formatString maxMatches slots := by
  by_cases hnil : formatString.chars = []
  . have hlt : formatString.chars.length < 2 ^ 32 := by
      rw [hnil]
      decide
    have hrun := snp4InfoGetMatches_eq formatString maxMatches hlt slots
    unfold snp4InfoGetMatches at h hrun
    simp only [hnil, ↓reduceIte] at h hrun
    rw [h] at hrun
    exact ⟨hlt, Option.some.inj hrun⟩
  . have hlt : formatString.chars.length < 2 ^ 32 := by
      by_contra hge
      unfold snp4InfoGetMatches at h
      simp only [hnil, ↓reduceIte, countFields_eq_none _ (Nat.le_of_not_lt hge)] at h
      contradiction
    have hrun := snp4InfoGetMatches_eq formatString maxMatches hlt slots
    unfold snp4InfoGetMatches at h hrun
    simp only [hnil, ↓reduceIte] at h hrun
    cases hcount : countFields formatString.chars fuel 0 1 with
    | none =>
      rw [hcount] at h
      contradiction
    | some n =>
      have hmono := countFields_mono hcount (formatString.chars.length + 1)
      have hown := countFields_eq _ formatString.chars 0 1 hlt rfl (Nat.zero_le _)
      rw [Nat.add_comm, countFields_mono hown fuel] at hmono
      rw [hown, hmono] at hrun
      rw [hcount] at h
      rw [h] at hrun
      exact ⟨hlt, Option.some.inj hrun⟩

theorem fillMatches_fields {s : List Char} {left : Nat} (hleft : left ≤ (fields s).length)
    {slots : List Snp4InfoMatch} (hslots : left ≤ slots.length)
    : fillMatches left (some s) slots false =
        ((((fields s).take left).map fun f => (parseField f).1).reverse ++ slots.drop left,
          ((fields s).take left).any fun f => (parseField f).2) := by
  by_cases hnil : s = []
  . subst hnil
    cases Nat.le_zero.mp hleft
    rfl
  . unfold fields at hleft ⊢
    rw [if_neg hnil] at hleft ⊢
    rw [fillMatches_eq left s slots false hleft hslots, Bool.false_or]

-- The count, the fields in reverse order and the need of a priority are those of the grammar, and
-- slots that are not needed keep what they hold
def Meets : Prop :=
  ∀ slots : List Snp4InfoMatch, slots.length = maxMatches.toNat →
    ∃ fuel,
      if numFields formatString ≤ maxMatches.toNat then
        ∃ out, snp4InfoGetMatches fuel formatString maxMatches slots = some (.ok out) ∧
          out.numMatches.toNat = numFields formatString ∧
          out.matchList = ((fields formatString.chars).map meaning).reverse ++
            slots.drop (numFields formatString) ∧
          out.priorityRequired =
            (fields formatString.chars).any fun f => needsPriority (meaning f).type
      else
        snp4InfoGetMatches fuel formatString maxMatches slots = some (.error .infoTooManyMatches)

structure Readable : Prop where
  length_lt : formatString.chars.length < 2 ^ 32
  count_not_cut : numFields formatString < 2 ^ 16 ∨
    maxMatches.toNat < numFields formatString % 2 ^ 16
  exact_fields : numFields formatString ≤ maxMatches.toNat →
    ∀ f ∈ fields formatString.chars, Exact f

theorem outcome_of_gt (hgt : maxMatches.toNat < numFields formatString % 2 ^ 16)
    (slots : List Snp4InfoMatch)
    : outcome formatString maxMatches slots = .error .infoTooManyMatches := by
  unfold outcome
  dsimp only
  rw [if_pos]
  rw [gt_iff_lt, UInt16.lt_iff_toNat_lt, UInt16.toNat_ofNat']
  exact hgt

theorem outcome_of_le (hle : numFields formatString ≤ maxMatches.toNat)
    {slots : List Snp4InfoMatch} (hslots : slots.length = maxMatches.toNat)
    : outcome formatString maxMatches slots = .ok {
        numMatches := UInt16.ofNat (numFields formatString)
        priorityRequired := (fields formatString.chars).any fun f => (parseField f).2
        matchList := ((fields formatString.chars).map fun f => (parseField f).1).reverse ++
          slots.drop (numFields formatString) } := by
  have hmax := maxMatches.toNat_lt
  have hnum : (UInt16.ofNat (numFields formatString)).toNat = numFields formatString := by
    rw [UInt16.toNat_ofNat']
    omega
  unfold outcome
  dsimp only
  have hfill : fillMatches (numFields formatString) (some formatString.chars) slots false = _ :=
    fillMatches_fields (Nat.le_refl _) (hle.trans hslots.ge)
  rw [if_neg, hnum, hfill]
  . simp only [numFields, List.take_length]
  . rw [gt_iff_lt, UInt16.lt_iff_toNat_lt, hnum]
    omega

theorem meets_iff : Meets formatString maxMatches ↔ Readable formatString maxMatches := by
  have hmax := maxMatches.toNat_lt
  constructor
  . intro hmeets
    let slots := List.replicate maxMatches.toNat invalidMatch
    have hslots : slots.length = maxMatches.toNat := List.length_replicate
    obtain ⟨fuel, hrun⟩ := hmeets slots hslots
    split at hrun
    . next hle =>
      obtain ⟨out, hrun, _, hlist, _⟩ := hrun
      obtain ⟨hlt, hout⟩ := eq_outcome formatString maxMatches hrun
      rw [outcome_of_le _ _ hle hslots] at hout
      refine ⟨hlt, .inl (by omega), ?_⟩
      intro _ f hf
      rw [Except.ok.inj hout, List.append_cancel_right_eq, List.reverse_inj] at hlist
      rw [← parseField_eq_meaning_iff]
      exact List.map_inj_left.mp hlist f hf
    . next hgt =>
      obtain ⟨hlt, hout⟩ := eq_outcome formatString maxMatches hrun
      refine ⟨hlt, ?_, fun hle => absurd hle hgt⟩
      by_contra hcut
      push Not at hcut
      unfold outcome at hout
      dsimp only at hout
      rw [if_neg] at hout
      . contradiction
      . rw [gt_iff_lt, UInt16.lt_iff_toNat_lt, UInt16.toNat_ofNat']
        omega
  . intro hreadable slots hslots
    refine ⟨formatString.chars.length + 1, ?_⟩
    rw [snp4InfoGetMatches_eq formatString maxMatches hreadable.length_lt slots]
    split
    . next hle =>
      have hparse : ∀ f ∈ fields formatString.chars, (parseField f).1 = meaning f := by
        intro f hf
        rw [parseField_eq_meaning_iff]
        exact hreadable.exact_fields hle f hf
      refine ⟨_, by rw [outcome_of_le _ _ hle hslots], ?_, ?_, ?_⟩
      . dsimp only
        rw [UInt16.toNat_ofNat']
        omega
      . rw [List.map_congr_left hparse]
      . have hmap := List.map_congr_left hparse
        calc ((fields formatString.chars).any fun f => (parseField f).2)
          _ = (((fields formatString.chars).map fun f => (parseField f).1).any
                fun m => needsPriority m.type) := by
              simp only [List.any_map, Function.comp_def, parseField_snd]
          _ = (((fields formatString.chars).map meaning).any fun m => needsPriority m.type) := by
              rw [hmap]
          _ = _ := by simp only [List.any_map, Function.comp_def]
    . next hgt =>
      rw [outcome_of_gt]
      have hcut := hreadable.count_not_cut
      rcases hcut with hlt | hcut
      . rw [Nat.mod_eq_of_lt hlt]
        omega
      . exact hcut

-- What the hardware's tools write for a list of fields
section Render

def letterOf : Snp4InfoMatchType → List Char
  | .invalid => []
  | .bitfield => ['b']
  | .constant => ['c']
  | .prefixed => ['p']
  | .range => ['r']
  | .ternary => ['t']
  | .unused => ['u']

def renderField (m : Snp4InfoMatch) : List Char := Nat.toDigits 10 m.bits.toNat ++ letterOf m.type

def render (ms : List Snp4InfoMatch) : List Char :=
  [':'].intercalate (ms.reverse.map renderField)

variable {m : Snp4InfoMatch} {ms : List Snp4InfoMatch}

theorem isField_renderField (h : m.type ≠ .invalid)
    : ∃ letter, IsField (renderField m) (Nat.toDigits 10 m.bits.toNat) letter m.type := by
  have hletter : ∃ letter, letterOf m.type = [letter] ∧ letterType letter = some m.type := by
    cases htype : m.type with
    | invalid => contradiction
    | bitfield => exact ⟨'b', rfl, rfl⟩
    | constant => exact ⟨'c', rfl, rfl⟩
    | prefixed => exact ⟨'p', rfl, rfl⟩
    | range => exact ⟨'r', rfl, rfl⟩
    | ternary => exact ⟨'t', rfl, rfl⟩
    | unused => exact ⟨'u', rfl, rfl⟩
  obtain ⟨letter, hof, htype⟩ := hletter
  refine ⟨letter, ?_, Nat.toDigits_ne_nil, ?_, ?_, htype⟩
  . unfold renderField
    rw [hof]
  . intro c hc
    exact Nat.isDigit_of_mem_toDigits (by omega) (by omega) hc
  . rw [Nat.ofDigitChars_ten_toDigits]
    exact m.bits.toNat_lt

theorem meaning_renderField (h : m.type ≠ .invalid) : meaning (renderField m) = m := by
  obtain ⟨letter, hfield⟩ := isField_renderField h
  rw [meaning_of_isField hfield, Nat.ofDigitChars_ten_toDigits, UInt16.ofNat_toNat]

theorem exact_renderField (h : m.type ≠ .invalid) : Exact (renderField m) := by
  obtain ⟨letter, hfield⟩ := isField_renderField h
  rw [← parseField_eq_meaning_iff]
  exact parseField_of_isField hfield

theorem isDigit_or_letter_of_mem (m : Snp4InfoMatch) {c : Char} (hc : c ∈ renderField m)
    : c.isDigit ∨ c ∈ ['b', 'c', 'p', 'r', 't', 'u'] := by
  unfold renderField at hc
  rcases List.mem_append.mp hc with hdigit | hletter
  . exact .inl (Nat.isDigit_of_mem_toDigits (by omega) (by omega) hdigit)
  . right
    cases htype : m.type <;> simp_all [letterOf]

theorem not_mem_renderField (m : Snp4InfoMatch) {c : Char} (hdigit : c.isDigit = false)
    (hletter : c ∉ ['b', 'c', 'p', 'r', 't', 'u'])
    : c ∉ renderField m := by
  intro hc
  rcases isDigit_or_letter_of_mem m hc with h | h
  . rw [hdigit] at h
    contradiction
  . exact hletter h

theorem length_renderField_le (m : Snp4InfoMatch) : (renderField m).length ≤ 6 := by
  have hbits := m.bits.toNat_lt
  have hdigits : (Nat.toDigits 10 m.bits.toNat).length ≤ 5 := by
    rw [Nat.length_toDigits_le_iff (by omega) (by omega)]
    omega
  have hletter : (letterOf m.type).length ≤ 1 := by
    cases m.type <;> decide
  unfold renderField
  rw [List.length_append]
  omega

theorem fields_render (ms : List Snp4InfoMatch)
    : fields (render ms) = ms.reverse.map renderField := by
  cases hms : ms with
  | nil => rfl
  | cons m ms' =>
    have hne : ms.reverse.map renderField ≠ [] := by
      rw [hms]
      simp
    have hcolon : ∀ f ∈ ms.reverse.map renderField, ':' ∉ f := by
      intro f hf
      obtain ⟨m', _, hm'⟩ := List.mem_map.mp hf
      rw [← hm']
      exact not_mem_renderField m' (by decide) (by decide)
    have hsplit : (render ms).splitOn ':' = ms.reverse.map renderField :=
      List.splitOn_intercalate ':' hcolon hne
    have hnil : render ms ≠ [] := by
      intro hnil
      rw [hnil] at hsplit
      have hmem : [] ∈ ms.reverse.map renderField := by
        rw [← hsplit]
        exact List.mem_singleton.mpr rfl
      obtain ⟨m', hm', hempty⟩ := List.mem_map.mp hmem
      have hdigits : Nat.toDigits 10 m'.bits.toNat ≠ [] := Nat.toDigits_ne_nil
      unfold renderField at hempty
      exact hdigits (List.append_eq_nil_iff.mp hempty).1
    rw [← hms]
    unfold fields
    rw [if_neg hnil, hsplit]

theorem not_mem_intercalate {α : Type} {sep a : α} (hsep : a ≠ sep) {ls : List (List α)}
    (h : ∀ l ∈ ls, a ∉ l)
    : a ∉ [sep].intercalate ls := by
  induction ls with
  | nil => simp
  | cons l ls ih =>
    have hl := h l List.mem_cons_self
    have hls := ih fun l' hl' => h l' (List.mem_cons_of_mem _ hl')
    cases ls with
    | nil => simpa using hl
    | cons l' ls' =>
      rw [List.intercalate_cons_cons]
      simp only [List.append_assoc, List.mem_append, List.mem_singleton, not_or]
      exact ⟨hl, hsep, hls⟩

theorem length_intercalate_le {α : Type} (sep : α) (n : Nat) (ls : List (List α))
    (h : ∀ l ∈ ls, l.length ≤ n)
    : ([sep].intercalate ls).length ≤ (n + 1) * ls.length := by
  induction ls with
  | nil => simp
  | cons l ls ih =>
    have hl := h l List.mem_cons_self
    have hls := ih fun l' hl' => h l' (List.mem_cons_of_mem _ hl')
    cases ls with
    | nil =>
      simp
      omega
    | cons l' ls' =>
      rw [List.intercalate_cons_cons, List.length_append, List.length_append, List.length_singleton]
      have hsucc : (l :: l' :: ls').length = (l' :: ls').length + 1 := List.length_cons
      rw [hsucc]
      linarith

def renderString (ms : List Snp4InfoMatch) : CString where
  chars := render ms
  not_nul := by
    apply not_mem_intercalate (by decide)
    intro f hf
    obtain ⟨m, _, hm⟩ := List.mem_map.mp hf
    rw [← hm]
    exact not_mem_renderField m (by decide) (by decide)

theorem numFields_renderString (ms : List Snp4InfoMatch)
    : numFields (renderString ms) = ms.length := by
  unfold numFields
  rw [renderString, fields_render, List.length_map, List.length_reverse]

theorem readable_renderString {maxMatches : UInt16} (h : ∀ m ∈ ms, m.type ≠ .invalid)
    (hlen : ms.length ≤ maxMatches.toNat)
    : Readable (renderString ms) maxMatches := by
  have hmax := maxMatches.toNat_lt
  refine ⟨?_, ?_, ?_⟩
  . have hle := length_intercalate_le ':' 6 (ms.reverse.map renderField) (by
      intro f hf
      obtain ⟨m, _, hm⟩ := List.mem_map.mp hf
      rw [← hm]
      exact length_renderField_le m)
    rw [List.length_map, List.length_reverse] at hle
    unfold renderString render
    dsimp only
    omega
  . left
    rw [numFields_renderString]
    omega
  . intro _ f hf
    rw [renderString, fields_render] at hf
    obtain ⟨m, hm, hrender⟩ := List.mem_map.mp hf
    rw [← hrender]
    exact exact_renderField (h m (List.mem_reverse.mp hm))

theorem snp4InfoGetMatches_renderString {maxMatches : UInt16} (h : ∀ m ∈ ms, m.type ≠ .invalid)
    (hlen : ms.length ≤ maxMatches.toNat) {slots : List Snp4InfoMatch}
    (hslots : slots.length = maxMatches.toNat)
    : ∃ fuel out,
        snp4InfoGetMatches fuel (renderString ms) maxMatches slots = some (.ok out) ∧
          out.numMatches.toNat = ms.length ∧ out.matchList = ms ++ slots.drop ms.length := by
  obtain ⟨fuel, hrun⟩ := (meets_iff _ _).mpr (readable_renderString h hlen) slots hslots
  rw [numFields_renderString, if_pos hlen] at hrun
  obtain ⟨out, hrun, hnum, hlist, _⟩ := hrun
  refine ⟨fuel, out, hrun, hnum, ?_⟩
  have hback : (ms.reverse.map renderField).map meaning = ms.reverse := by
    have hid : ∀ m ∈ ms.reverse, (meaning ∘ renderField) m = id m := by
      intro m hm
      exact meaning_renderField (h m (List.mem_reverse.mp hm))
    rw [List.map_map, List.map_congr_left hid, List.map_id]
  rw [hlist, renderString, fields_render, hback, List.reverse_reverse]

end Render

-- A string is read by the grammar if and only if no field, no count and no index is cut or read by
-- more than the grammar allows; what is written for a list of fields always is
theorem meets_iff_readable (formatString : CString) (maxMatches : UInt16)
    : (Meets formatString maxMatches ↔ Readable formatString maxMatches) ∧
        ∀ ms : List Snp4InfoMatch, (∀ m ∈ ms, m.type ≠ .invalid) →
          ms.length ≤ maxMatches.toNat → ∀ slots : List Snp4InfoMatch,
            slots.length = maxMatches.toNat →
              ∃ fuel out,
                snp4InfoGetMatches fuel (renderString ms) maxMatches slots = some (.ok out) ∧
                  out.numMatches.toNat = ms.length ∧
                  out.matchList = ms ++ slots.drop ms.length := by
  constructor
  . exact meets_iff formatString maxMatches
  . intro ms h hlen slots hslots
    exact snp4InfoGetMatches_renderString h hlen hslots

-- A width of 65544 bits
def wideField : CString where
  chars := ['6', '5', '5', '4', '4', 'b']
  not_nul := by decide

theorem not_meets_wideField
    : snp4InfoGetMatches 7 wideField 1 [invalidMatch] = some (.ok {
          numMatches := 1
          priorityRequired := false
          matchList := [{ type := .bitfield, bits := 8 }] }) ∧
        ¬ Meets wideField 1 := by
  constructor
  . decide +kernel
  . intro hmeets
    have hreadable := (meets_iff _ _).mp hmeets
    have hscans : Scans wideField.chars [] [] ['6', '5', '5', '4', '4'] 'b' [] := {
      eq_append := rfl
      isspace := by simp
      sign_mem := by simp
      digits_ne := by simp
      isDigit := List.all_eq_true.mp (by decide)
      letter_known := rfl }
    have hmem : wideField.chars ∈ fields wideField.chars := by decide +kernel
    have hlt := (hreadable.exact_fields (by decide +kernel) _ hmem _ _ _ _ _ hscans).2.2.2
    revert hlt
    decide

end Snp4InfoHw
