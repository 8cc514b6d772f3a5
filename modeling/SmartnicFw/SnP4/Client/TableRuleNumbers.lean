import SmartnicFw.SnP4.Client.TableRule

/-!
This module contains what becomes of the number texts of a table rule on their way from the regular
expressions of the client to the integers of the agent.
-/

namespace TableClient

open MpzText
open P4bm (P4bmError pyInt intMaxStrDigits)
open TableRules (Text Match ActionParameter tableRuleParseMatch tableRuleParseActionParameter)

section Numbers

/--
The number texts as they are documented: hexadecimal after `0x`, binary after `0b`, octal after `0`
and decimal otherwise.
-/
inductive Denotes : Text → Nat → Prop where
  | hexadecimal (x : Char) (ds : Text) (hx : x = 'x' ∨ x = 'X') (hne : ds ≠ [])
    (hds : ∀ c ∈ ds, isDigit 16 c)
    : Denotes ('0' :: x :: ds) (value 16 ds)
  | binary (x : Char) (ds : Text) (hx : x = 'b' ∨ x = 'B') (hne : ds ≠ [])
    (hds : ∀ c ∈ ds, isDigit 2 c)
    : Denotes ('0' :: x :: ds) (value 2 ds)
  | octal (ds : Text) (hds : ∀ c ∈ ds, isDigit 8 c)
    : Denotes ('0' :: ds) (value 8 ds)
  | decimal (d : Char) (ds : Text) (hd : d ≠ '0') (hds : ∀ c ∈ d :: ds, isDigit 10 c)
    : Denotes (d :: ds) (value 10 (d :: ds))

variable {u : Unicode} {c : Char} {s : Text} {n : Nat}

theorem hexDigit_iff : hexDigit c ↔ isDigit 16 c := by
  have hval : c.val.toNat = c.toNat := rfl
  rw [isDigit_iff]
  simp only [hexDigit, Bool.or_eq_true, Bool.and_eq_true, decide_eq_true_eq, Char.le_def,
    UInt32.le_iff_toNat_le, hval, Char.reduceVal, UInt32.reduceToNat]
  omega

theorem octDigit_iff : octDigit c ↔ isDigit 8 c := by
  have hval : c.val.toNat = c.toNat := rfl
  rw [isDigit_iff]
  simp only [octDigit, Bool.and_eq_true, decide_eq_true_eq, Char.le_def,
    UInt32.le_iff_toNat_le, hval, Char.reduceVal, UInt32.reduceToNat]
  omega

theorem binDigit_iff : binDigit c ↔ isDigit 2 c := by
  have hzero : c = '0' ↔ c.toNat = 48 := (Char.toNat_inj (d := '0')).symm
  have hone : c = '1' ↔ c.toNat = 49 := (Char.toNat_inj (d := '1')).symm
  rw [isDigit_iff]
  simp only [binDigit, Bool.or_eq_true, decide_eq_true_eq, hzero, hone]
  omega

theorem le_toNat_of_isDigit {base : Nat} (h : isDigit base c) : 48 ≤ c.toNat := by
  have := (isDigit_iff base c).mp h
  omega

theorem isDigit_mono {base base' : Nat} (hle : base ≤ base') (h : isDigit base c)
    : isDigit base' c := by
  rw [isDigit_iff] at h ⊢
  omega

theorem le_toNat_of_decDigit (h : decDigit u c) : 48 ≤ c.toNat := by
  by_cases hascii : c.toNat < 128
  . exact le_toNat_of_isDigit (isDigit_ten_iff.mpr (u.decimal_isDigit c hascii h))
  . omega

theorem Denotes.isPlain (h : Denotes s n) : ∀ c ∈ s, IsPlain c := by
  intro c hc
  apply isPlain_of_toNat
  cases h with
  | hexadecimal x ds hx _ hds =>
    rcases List.mem_cons.mp hc with rfl | hc
    . decide
    . rcases List.mem_cons.mp hc with rfl | hc
      . rcases hx with rfl | rfl <;> decide
      . exact le_toNat_of_isDigit (hds c hc)
  | binary x ds hx _ hds =>
    rcases List.mem_cons.mp hc with rfl | hc
    . decide
    . rcases List.mem_cons.mp hc with rfl | hc
      . rcases hx with rfl | rfl <;> decide
      . exact le_toNat_of_isDigit (hds c hc)
  | octal ds hds =>
    rcases List.mem_cons.mp hc with rfl | hc
    . decide
    . exact le_toNat_of_isDigit (hds c hc)
  | decimal d ds _ hds => exact le_toNat_of_isDigit (hds c hc)

-- What the agent reads is what the text is documented to say
theorem Denotes.mpzInitSetStr_eq (h : Denotes s n) : mpzInitSetStr s = some (n : Mpz) := by
  rw [mpzInitSetStr_of_plain h.isPlain, Option.map_eq_some_iff]
  refine ⟨n, ?_, rfl⟩
  cases h with
  | hexadecimal x ds hx hne hds =>
    obtain ⟨c, ds, rfl⟩ := List.exists_cons_of_ne_nil hne
    rw [magnitude, if_pos rfl, if_pos hx]
    exact number_of_digits hne hds
  | binary x ds hx hne hds =>
    have hnot : ¬ (x = 'x' ∨ x = 'X') := by
      rcases hx with rfl | rfl <;> decide
    rw [magnitude, if_pos rfl, if_neg hnot, if_pos hx]
    exact number_of_digits hne hds
  | octal ds hds =>
    cases ds with
    | nil =>
      have hzero : ∀ c ∈ ['0'], isDigit 10 c := by simp [isDigit_iff]
      exact number_of_digits (List.cons_ne_nil '0' []) hzero
    | cons x ds =>
      have hdigit := hds x List.mem_cons_self
      have hx : ¬ (x = 'x' ∨ x = 'X') := by
        rintro (rfl | rfl) <;> revert hdigit <;> decide
      have hb : ¬ (x = 'b' ∨ x = 'B') := by
        rintro (rfl | rfl) <;> revert hdigit <;> decide
      rw [magnitude, if_pos rfl, if_neg hx, if_neg hb]
      exact number_of_digits (List.cons_ne_nil x ds) hds
  | decimal d ds hd hds =>
    cases ds with
    | nil => exact number_of_digits (List.cons_ne_nil d []) hds
    | cons x ds =>
      rw [magnitude, if_neg hd]
      exact number_of_digits (List.cons_ne_nil d (x :: ds)) hds

/--
Decimal digits for the client, of which the agent does not take all: one is not an ASCII digit, or
the 0 in front of them makes the number an octal one and one is an 8 or a 9.
-/
def Misread (s : Text) : Prop :=
  (∃ c ∈ s, 128 ≤ c.toNat) ∨
    s.head? = some '0' ∧ (∀ c ∈ s, c.isDigit) ∧ ∃ c ∈ s, c = '8' ∨ c = '9'

section Words

open RegExp

-- What the expression for a number can read
inductive IsMpz (u : Unicode) : Text → Prop where
  | hexadecimal (x : Char) (ds : Text) (hx : x = 'x' ∨ x = 'X') (hne : ds ≠ [])
    (hds : ∀ c ∈ ds, hexDigit c)
    : IsMpz u ('0' :: x :: ds)
  | binary (x : Char) (ds : Text) (hx : x = 'b' ∨ x = 'B') (hne : ds ≠ [])
    (hds : ∀ c ∈ ds, binDigit c)
    : IsMpz u ('0' :: x :: ds)
  | octal (ds : Text) (hne : ds ≠ []) (hds : ∀ c ∈ ds, octDigit c) : IsMpz u ('0' :: ds)
  | decimal (ds : Text) (hne : ds ≠ []) (hds : ∀ c ∈ ds, decDigit u c) : IsMpz u ds

theorem isMpz_of_parses {caps caps' : Captures Char GroupName} {rest : Text}
    (h : (mpzRe u).Parses caps s caps' rest)
    : caps' = caps ∧ ∃ w, IsMpz u w ∧ s = w ++ rest := by
  rcases h with h | h | h | h
  . simp only [parses_concat_cons, parses_concat_nil, parses_lit_iff, parses_plus_iff] at h
    obtain ⟨_, _, ⟨rfl, rfl⟩, _, _, ⟨rfl, x, hx, rfl⟩, _, _, ⟨rfl, ds, hne, hds, rfl⟩, rfl, rfl⟩ := h
    refine ⟨rfl, '0' :: x :: ds, .hexadecimal x ds ?_ hne hds, rfl⟩
    simpa using hx
  . simp only [parses_concat_cons, parses_concat_nil, parses_lit_iff, parses_plus_iff] at h
    obtain ⟨_, _, ⟨rfl, rfl⟩, _, _, ⟨rfl, x, hx, rfl⟩, _, _, ⟨rfl, ds, hne, hds, rfl⟩, rfl, rfl⟩ := h
    refine ⟨rfl, '0' :: x :: ds, .binary x ds ?_ hne hds, rfl⟩
    simpa using hx
  . simp only [parses_concat_cons, parses_concat_nil, parses_lit_iff, parses_plus_iff] at h
    obtain ⟨_, _, ⟨rfl, rfl⟩, _, _, ⟨rfl, ds, hne, hds, rfl⟩, rfl, rfl⟩ := h
    exact ⟨rfl, '0' :: ds, .octal ds hne hds, rfl⟩
  . obtain ⟨rfl, ds, hne, hds, rfl⟩ := parses_plus_iff.mp h
    exact ⟨rfl, ds, .decimal ds hne hds, rfl⟩

theorem magnitude_of_decDigit {d x : Char} {ds : Text} (hx : decDigit u x)
    : magnitude (d :: x :: ds) =
        if d = '0' then number 8 (x :: ds) else number 10 (d :: x :: ds) := by
  have hletter : ∀ l : Char, l.toNat < 128 → ¬ l.isDigit → x ≠ l := by
    rintro l hascii hnot rfl
    exact hnot (u.decimal_isDigit x hascii hx)
  have hhex : ¬ (x = 'x' ∨ x = 'X') :=
    not_or.mpr ⟨hletter 'x' (by decide) (by decide), hletter 'X' (by decide) (by decide)⟩
  have hbin : ¬ (x = 'b' ∨ x = 'B') :=
    not_or.mpr ⟨hletter 'b' (by decide) (by decide), hletter 'B' (by decide) (by decide)⟩
  rw [magnitude, if_neg hhex, if_neg hbin]

-- The number is an octal one if its first digit is 0
theorem magnitude_eq_none {d c : Char} {ds : Text} (hds : ∀ c ∈ d :: ds, decDigit u c)
    (hc : c ∈ d :: ds) (hzero : c ≠ '0') (h : ¬ isDigit (if d = '0' then 8 else 10) c)
    : magnitude (d :: ds) = none := by
  cases ds with
  | nil =>
    obtain rfl := List.mem_singleton.mp hc
    rw [if_neg hzero] at h
    exact number_of_mem hc h
  | cons x ds =>
    rw [magnitude_of_decDigit (hds x (by simp))]
    split at h
    . next hd =>
      rw [if_pos hd]
      apply number_of_mem _ h
      rcases List.mem_cons.mp hc with rfl | hc
      . exact absurd hd hzero
      . exact hc
    . next hd =>
      rw [if_neg hd]
      exact number_of_mem hc h

theorem IsMpz.isPlain {w : Text} (hw : IsMpz u w) : ∀ c ∈ w, IsPlain c := by
  intro c hc
  apply isPlain_of_toNat
  cases hw with
  | hexadecimal x ds hx _ hds =>
    rcases List.mem_cons.mp hc with rfl | hc
    . decide
    . rcases List.mem_cons.mp hc with rfl | hc
      . rcases hx with rfl | rfl <;> decide
      . exact le_toNat_of_isDigit (hexDigit_iff.mp (hds c hc))
  | binary x ds hx _ hds =>
    rcases List.mem_cons.mp hc with rfl | hc
    . decide
    . rcases List.mem_cons.mp hc with rfl | hc
      . rcases hx with rfl | rfl <;> decide
      . exact le_toNat_of_isDigit (binDigit_iff.mp (hds c hc))
  | octal ds _ hds =>
    rcases List.mem_cons.mp hc with rfl | hc
    . decide
    . exact le_toNat_of_isDigit (octDigit_iff.mp (hds c hc))
  | decimal ds _ hds => exact le_toNat_of_decDigit (hds c hc)

theorem toNat_lt_of_isDigit {base : Nat} (h : isDigit base c) : c.toNat < 128 := by
  have := (isDigit_iff base c).mp h
  omega

theorem not_misread_of_base {x : Char} {ds : Text} (hascii : x.toNat < 128) (hx : ¬ x.isDigit)
    (hds : ∀ c ∈ ds, isDigit 16 c)
    : ¬ Misread ('0' :: x :: ds) := by
  rintro (⟨c, hc, hlarge⟩ | ⟨_, hdigits, _⟩)
  . rcases List.mem_cons.mp hc with rfl | hc
    . contradiction
    . rcases List.mem_cons.mp hc with rfl | hc
      . omega
      . have := toNat_lt_of_isDigit (hds c hc)
        omega
  . exact hx (hdigits x (by simp))

theorem not_misread_of_octal {ds : Text} (hds : ∀ c ∈ ds, isDigit 8 c) : ¬ Misread ('0' :: ds) := by
  rintro (⟨c, hc, hlarge⟩ | ⟨_, _, c, hc, height⟩)
  . rcases List.mem_cons.mp hc with rfl | hc
    . contradiction
    . have := toNat_lt_of_isDigit (hds c hc)
      omega
  . rcases List.mem_cons.mp hc with rfl | hc
    . revert height
      decide
    . have hdigit := hds c hc
      rcases height with rfl | rfl <;> revert hdigit <;> decide

-- Only what is read as decimal digits can be misread
theorem Misread.exists_decDigits {w : Text} (hw : IsMpz u w) (h : Misread w)
    : ∃ d ds c, w = d :: ds ∧ (∀ c ∈ w, decDigit u c) ∧ c ∈ w ∧ c ≠ '0' ∧
        ¬ isDigit (if d = '0' then 8 else 10) c := by
  cases hw with
  | hexadecimal x ds hx _ hds =>
    have hds' : ∀ c ∈ ds, isDigit 16 c := fun c hc => hexDigit_iff.mp (hds c hc)
    refine absurd h (not_misread_of_base ?_ ?_ hds') <;> rcases hx with rfl | rfl <;> decide
  | binary x ds hx _ hds =>
    have hds' : ∀ c ∈ ds, isDigit 16 c := fun c hc =>
      isDigit_mono (by decide) (binDigit_iff.mp (hds c hc))
    refine absurd h (not_misread_of_base ?_ ?_ hds') <;> rcases hx with rfl | rfl <;> decide
  | octal ds _ hds => exact absurd h (not_misread_of_octal fun c hc => octDigit_iff.mp (hds c hc))
  | decimal ds hne hds =>
    obtain ⟨d, ds, rfl⟩ := List.exists_cons_of_ne_nil hne
    rcases h with ⟨c, hc, hlarge⟩ | ⟨hd, _, c, hc, height⟩
    . refine ⟨d, ds, c, rfl, hds, hc, ?_, ?_⟩
      . rintro rfl
        contradiction
      . intro hdigit
        have := toNat_lt_of_isDigit hdigit
        omega
    . obtain rfl : d = '0' := by simpa using hd
      refine ⟨'0', ds, c, rfl, hds, hc, ?_, ?_⟩
      . rcases height with rfl | rfl <;> decide
      . rw [if_pos rfl]
        rcases height with rfl | rfl <;> decide

theorem Misread.mpzInitSetStr_eq {w : Text} (hw : IsMpz u w) (h : Misread w)
    : mpzInitSetStr w = none := by
  rw [mpzInitSetStr_of_plain hw.isPlain]
  obtain ⟨d, ds, c, rfl, hds, hc, hzero, hnot⟩ := h.exists_decDigits hw
  rw [magnitude_eq_none hds hc hzero hnot]
  rfl

theorem IsMpz.denotes {w : Text} (hw : IsMpz u w) (h : ¬ Misread w) : ∃ n, Denotes w n := by
  cases hw with
  | hexadecimal x ds hx hne hds =>
    exact ⟨_, .hexadecimal x ds hx hne fun c hc => hexDigit_iff.mp (hds c hc)⟩
  | binary x ds hx hne hds =>
    exact ⟨_, .binary x ds hx hne fun c hc => binDigit_iff.mp (hds c hc)⟩
  | octal ds hne hds => exact ⟨_, .octal ds fun c hc => octDigit_iff.mp (hds c hc)⟩
  | decimal ds hne hds =>
    obtain ⟨d, ds, rfl⟩ := List.exists_cons_of_ne_nil hne
    unfold Misread at h
    push Not at h
    have hdigits : ∀ c ∈ d :: ds, c.isDigit := by
      intro c hc
      exact u.decimal_isDigit c (h.1 c hc) (hds c hc)
    by_cases hd : d = '0'
    . subst hd
      refine ⟨_, .octal ds ?_⟩
      intro c hc
      have hne := h.2 rfl hdigits c (List.mem_cons_of_mem _ hc)
      have hdigit := (isDigit_iff 10 c).mp (isDigit_ten_iff.mpr (hdigits c (List.mem_cons_of_mem _ hc)))
      have height : c.toNat ≠ 56 := fun heq => hne.1 (Char.toNat_inj.mp heq)
      have hnine : c.toNat ≠ 57 := fun heq => hne.2 (Char.toNat_inj.mp heq)
      rw [isDigit_iff]
      omega
    . exact ⟨_, .decimal d ds hd fun c hc => isDigit_ten_iff.mpr (hdigits c hc)⟩

end Words

end Numbers

end TableClient
