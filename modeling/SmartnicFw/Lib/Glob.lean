import SmartnicFw.Lib.Atoms
import SmartnicFw.Lib.Utf8

/-!
This module contains globs: patterns in which a star stands for any run of symbols other than a
separator. They are matched field by field, and by a regular expression.
-/

namespace Glob

variable {α : Type}

inductive Matches (star sep : α) : List α → List α → Prop where
  | nil : Matches star sep [] []
  | star {p u s : List α} (hu : sep ∉ u) (h : Matches star sep p s)
    : Matches star sep (star :: p) (u ++ s)
  | one {c : α} {p s : List α} (hc : c ≠ star) (h : Matches star sep p s)
    : Matches star sep (c :: p) (c :: s)

-- Each pattern is for one of the fields that the separator cuts a text into
def FieldsMatch [DecidableEq α] (star sep : α) (patterns : List (List α)) (s : List α) : Prop :=
  List.Forall₂ (Matches star sep) patterns (s.splitOn sep)

section Matches

variable {star sep : α} {p q s : List α} {c : α}

theorem matches_nil_iff : Matches star sep [] s ↔ s = [] := by
  constructor
  . rintro ⟨⟩
    rfl
  . rintro rfl
    exact .nil

theorem matches_star_iff
    : Matches star sep (star :: p) s ↔ ∃ u t, s = u ++ t ∧ sep ∉ u ∧ Matches star sep p t := by
  constructor
  . intro h
    cases h with
    | star hu h => exact ⟨_, _, rfl, hu, h⟩
    | one hc _ => exact absurd rfl hc
  . rintro ⟨u, t, rfl, hu, h⟩
    exact .star hu h

theorem matches_one_iff (hc : c ≠ star)
    : Matches star sep (c :: p) s ↔ ∃ t, s = c :: t ∧ Matches star sep p t := by
  constructor
  . intro h
    cases h with
    | star _ _ => exact absurd rfl hc
    | one _ h => exact ⟨_, rfl, h⟩
  . rintro ⟨t, rfl, h⟩
    exact .one hc h

theorem not_mem_of_matches (h : Matches star sep p s) (hp : sep ∉ p) : sep ∉ s := by
  induction h with
  | nil => exact List.not_mem_nil
  | star hu _ ih =>
    rw [List.mem_append, not_or]
    exact ⟨hu, ih fun hmem => hp (List.mem_cons_of_mem _ hmem)⟩
  | one _ _ ih =>
    rw [List.mem_cons, not_or] at hp ⊢
    exact ⟨hp.1, ih hp.2⟩

theorem Matches.append {t : List α} (h : Matches star sep p s) (h' : Matches star sep q t)
    : Matches star sep (p ++ q) (s ++ t) := by
  induction h with
  | nil => exact h'
  | star hu _ ih =>
    rw [List.append_assoc]
    exact .star hu ih
  | one hc _ ih => exact .one hc ih

theorem exists_of_matches_append (h : Matches star sep (p ++ q) s)
    : ∃ u t, s = u ++ t ∧ Matches star sep p u ∧ Matches star sep q t := by
  induction p generalizing s with
  | nil => exact ⟨[], s, rfl, .nil, h⟩
  | cons c p ih =>
    by_cases hc : c = star
    . subst hc
      obtain ⟨u, rest, rfl, hu, hrest⟩ := matches_star_iff.mp h
      obtain ⟨u', t, rfl, hp, hq⟩ := ih hrest
      exact ⟨u ++ u', t, by rw [List.append_assoc], .star hu hp, hq⟩
    . obtain ⟨rest, rfl, hrest⟩ := (matches_one_iff hc).mp h
      obtain ⟨u, t, rfl, hp, hq⟩ := ih hrest
      exact ⟨c :: u, t, rfl, .one hc hp, hq⟩

theorem matches_append_sep_iff (hsep : sep ≠ star)
    : Matches star sep (p ++ sep :: q) s ↔
        ∃ u t, s = u ++ sep :: t ∧ Matches star sep p u ∧ Matches star sep q t := by
  constructor
  . intro h
    obtain ⟨u, t, rfl, hp, h⟩ := exists_of_matches_append h
    obtain ⟨t, rfl, hq⟩ := (matches_one_iff hsep).mp h
    exact ⟨u, t, rfl, hp, hq⟩
  . rintro ⟨u, t, rfl, hp, hq⟩
    exact hp.append (.one hsep hq)

-- No star reads a separator, so that the separators of the pattern are those of the text
theorem matches_intercalate_iff [DecidableEq α] (hsep : sep ≠ star) {fields : List (List α)} (hne : fields ≠ [])
    (hfields : ∀ f ∈ fields, sep ∉ f)
    : Matches star sep ([sep].intercalate fields) s ↔ FieldsMatch star sep fields s := by
  unfold FieldsMatch
  induction fields generalizing s with
  | nil => exact absurd rfl hne
  | cons f fields ih =>
    obtain ⟨hf, hfields⟩ := List.forall_mem_cons.mp hfields
    cases fields with
    | nil =>
      rw [List.intercalate_singleton]
      constructor
      . intro h
        rw [List.splitOn_eq_singleton (not_mem_of_matches h hf)]
        exact .cons h .nil
      . intro h
        by_cases hs : sep ∈ s
        . obtain ⟨before, after, rfl⟩ := List.append_of_mem hs
          rw [List.splitOn_append_cons_self] at h
          have hlen := h.length_eq
          have hbefore := List.length_pos_iff.mpr (List.splitOn_ne_nil sep before)
          have hafter := List.length_pos_iff.mpr (List.splitOn_ne_nil sep after)
          rw [List.length_singleton, List.length_append] at hlen
          omega
        . rw [List.splitOn_eq_singleton hs] at h
          cases h with
          | cons h _ => exact h
    | cons g fields =>
      have hjoin : [sep].intercalate (f :: g :: fields) =
          f ++ sep :: [sep].intercalate (g :: fields) := by
        rw [List.intercalate_cons_cons, List.append_assoc, List.singleton_append]
      rw [hjoin, matches_append_sep_iff hsep]
      constructor
      . rintro ⟨u, t, rfl, hu, ht⟩
        rw [List.splitOn_append_cons_self_of_not_mem (not_mem_of_matches hu hf)]
        exact .cons hu ((ih (List.cons_ne_nil _ _) hfields).mp ht)
      . intro h
        have hs : sep ∈ s := by
          by_contra hs
          rw [List.splitOn_eq_singleton hs] at h
          have hlen := h.length_eq
          rw [List.length_singleton, List.length_cons, List.length_cons] at hlen
          omega
        obtain ⟨u, t, rfl, hu⟩ := List.eq_append_cons_of_mem hs
        rw [List.splitOn_append_cons_self_of_not_mem hu] at h
        cases h with
        | cons hfirst hrest =>
          exact ⟨u, t, rfl, hfirst, (ih (List.cons_ne_nil _ _) hfields).mpr hrest⟩

end Matches

section RegExp

variable [DecidableEq α] (star sep : α)

def item (c : α) : RegExp α Unit :=
  if c = star then .many fun d => d ≠ sep else .one fun d => d = c

-- What a glob is as a regular expression for a whole text
def full (newline : α → Bool) (p : List α) : RegExp α Unit :=
  RegExp.concat (p.map (item star sep) ++ [.atEnd newline])

variable {star sep} {newline : α → Bool} {p s : List α}

theorem parses_full_iff {caps caps' : RegExp.Captures α Unit} {rest : List α}
    : (full star sep newline p).Parses caps s caps' rest ↔
        caps' = caps ∧ (rest = [] ∨ ∃ c, newline c ∧ rest = [c]) ∧
          ∃ t, s = t ++ rest ∧ Matches star sep p t := by
  unfold full
  induction p generalizing caps s with
  | nil =>
    constructor
    . rintro ⟨caps₁, s₁, ⟨rfl, rfl, hend⟩, rfl, rfl⟩
      exact ⟨rfl, hend, [], rfl, .nil⟩
    . rintro ⟨rfl, hend, t, rfl, ht⟩
      obtain rfl := matches_nil_iff.mp ht
      exact ⟨caps', rest, ⟨rfl, rfl, hend⟩, rfl, rfl⟩
  | cons c p ih =>
    rw [List.map_cons, List.cons_append, RegExp.parses_concat_cons]
    simp only [ih]
    by_cases hc : c = star
    . subst hc
      unfold item
      rw [if_pos rfl]
      constructor
      . rintro ⟨caps₁, s₁, ⟨rfl, u, hu, rfl⟩, rfl, hend, t, rfl, ht⟩
        refine ⟨rfl, hend, u ++ t, by rw [List.append_assoc], .star ?_ ht⟩
        intro hmem
        simpa using hu sep hmem
      . rintro ⟨rfl, hend, t, rfl, ht⟩
        obtain ⟨u, t, rfl, hu, ht⟩ := matches_star_iff.mp ht
        refine ⟨caps', t ++ rest, ⟨rfl, u, ?_, by rw [List.append_assoc]⟩, rfl, hend, t, rfl, ht⟩
        intro d hd
        apply decide_eq_true
        rintro rfl
        exact hu hd
    . unfold item
      rw [if_neg hc]
      constructor
      . rintro ⟨caps₁, s₁, ⟨rfl, d, hd, rfl⟩, rfl, hend, t, rfl, ht⟩
        obtain rfl := of_decide_eq_true hd
        exact ⟨rfl, hend, d :: t, rfl, .one hc ht⟩
      . rintro ⟨rfl, hend, t, rfl, ht⟩
        obtain ⟨t', rfl, ht'⟩ := (matches_one_iff hc).mp ht
        exact ⟨caps', t' ++ rest, ⟨rfl, c, decide_eq_true rfl, rfl⟩, rfl, hend, t', rfl, ht'⟩

theorem isSome_groups_full_iff
    : ((full star sep newline p).groups s).isSome ↔
        Matches star sep p s ∨ ∃ t c, newline c ∧ s = t ++ [c] ∧ Matches star sep p t := by
  rw [RegExp.isSome_groups_iff]
  simp only [parses_full_iff]
  constructor
  . rintro ⟨caps, rest, rfl, rfl | ⟨c, hc, rfl⟩, t, rfl, ht⟩
    . rw [List.append_nil]
      exact .inl ht
    . exact .inr ⟨t, c, hc, rfl, ht⟩
  . rintro (h | ⟨t, c, hc, rfl, ht⟩)
    . exact ⟨[], [], rfl, .inl rfl, s, by rw [List.append_nil], h⟩
    . exact ⟨[], [c], rfl, .inr ⟨c, hc, rfl⟩, t, rfl, ht⟩

end RegExp

-- The regular expression that a glob with the usual star is written as
section Atoms

open RegExp (Atom metacharacters)

variable [DecidableEq α] (chr : Char → α) (sep : α)

def atom (c : α) : Atom α :=
  if c = chr '.' then .escaped c else if c = chr '*' then .runExcept sep else .one c

-- No metacharacter but those that are escaped or stand for a run
def Ordinary (p : List α) : Prop :=
  ∀ c ∈ p, c ∈ metacharacters.map chr → c = chr '.' ∨ c = chr '*'

variable {chr sep} {p : List α}

theorem row_atoms (hdot : chr '.' ≠ chr '*') (newline : α → Bool)
    : RegExp.row newline (p.map (atom chr sep)) = full (chr '*') sep newline p := by
  have hregExp : ∀ c, (atom chr sep c).regExp = item (chr '*') sep c := by
    intro c
    unfold atom item
    by_cases hc : c = chr '.'
    . rw [if_pos hc, if_neg (by rwa [hc])]
      rfl
    . rw [if_neg hc]
      split <;> rfl
  unfold RegExp.row full
  rw [List.map_map]
  congr 3
  funext c
  exact hregExp c

theorem plain_atoms (hsep : sep ∉ metacharacters.map chr) (hp : Ordinary chr p)
    : ∀ a ∈ p.map (atom chr sep), a.Plain chr := by
  intro a ha
  obtain ⟨c, hc, rfl⟩ := List.mem_map.mp ha
  unfold atom
  by_cases hdot : c = chr '.'
  . rw [if_pos hdot, hdot]
    exact List.mem_map_of_mem (by decide)
  . rw [if_neg hdot]
    by_cases hstar : c = chr '*'
    . rw [if_pos hstar]
      exact hsep
    . rw [if_neg hstar]
      intro hmeta
      rcases hp c hc hmeta with h | h
      . exact hdot h
      . exact hstar h

end Atoms

-- A glob of ASCII symbols matches the bytes of a text like its characters
section Utf8

open Utf8 (encode)

variable {p q s : List UInt8} {star sep : UInt8}

theorem matches_literal_append {l : List UInt8} (hl : star ∉ l) (h : Matches star sep p s)
    : Matches star sep (l ++ p) (l ++ s) := by
  induction l with
  | nil => exact h
  | cons b l ih =>
    rw [List.mem_cons, not_or] at hl
    exact .one (Ne.symm hl.1) (ih hl.2)

theorem exists_of_matches_literal_append {l : List UInt8} (hl : star ∉ l)
    (h : Matches star sep (l ++ p) s)
    : ∃ t, s = l ++ t ∧ Matches star sep p t := by
  induction l generalizing s with
  | nil => exact ⟨s, rfl, h⟩
  | cons b l ih =>
    rw [List.mem_cons, not_or] at hl
    obtain ⟨rest, rfl, hrest⟩ := (matches_one_iff (Ne.symm hl.1)).mp h
    obtain ⟨t, rfl, ht⟩ := ih hl.2 hrest
    exact ⟨t, rfl, ht⟩

variable {a b c : Char}

def byte (c : Char) : UInt8 := UInt8.ofNat c.toNat

theorem byte_not_mem (ha : a.toNat < 128) (hc : c ≠ a) : byte a ∉ String.utf8EncodeChar c := by
  intro hmem
  exact Utf8.ne_ofNat_of_mem ha hc hmem rfl

theorem matches_encode {p s : List Char} (ha : a.toNat < 128) (hb : b.toNat < 128)
    (h : Matches a b p s)
    : Matches (byte a) (byte b) (encode p) (encode s) := by
  induction h with
  | nil => exact .nil
  | star hu _ ih =>
    rw [Utf8.encode_cons, Utf8.utf8EncodeChar_of_lt ha, Utf8.encode_append]
    exact .star (Utf8.ofNat_not_mem_encode hb hu) ih
  | one hc _ ih =>
    rw [Utf8.encode_cons, Utf8.encode_cons]
    exact matches_literal_append (byte_not_mem ha hc) ih

theorem matches_of_encode {p s : List Char} (ha : a.toNat < 128) (hb : b.toNat < 128)
    (h : Matches (byte a) (byte b) (encode p) (encode s))
    : Matches a b p s := by
  induction p generalizing s with
  | nil =>
    rw [Utf8.encode_eq_nil_iff.mp (matches_nil_iff.mp h)]
    exact .nil
  | cons c p ih =>
    rw [Utf8.encode_cons] at h
    by_cases hc : c = a
    . subst hc
      rw [Utf8.utf8EncodeChar_of_lt ha, List.singleton_append] at h
      obtain ⟨u, t, hs, hu, ht⟩ := matches_star_iff.mp h
      by_cases hfirst : ∀ x ∈ t.head?, x.IsUTF8FirstByte
      . obtain ⟨ds, es, rfl, rfl, rfl⟩ := Utf8.exists_of_encode_eq_append hs hfirst
        exact .star (fun hmem => hu (Utf8.ofNat_mem_encode hb hmem)) (ih ht)
      . -- Within a character only another star can go on, and that one can read it all
        cases p with
        | nil =>
          rw [matches_nil_iff.mp ht] at hfirst
          exact absurd (by simp) hfirst
        | cons d p =>
          rw [Utf8.encode_cons] at ht
          by_cases hd : d = c
          . subst hd
            rw [Utf8.utf8EncodeChar_of_lt ha, List.singleton_append] at ht
            obtain ⟨v, w, rfl, hv, hw⟩ := matches_star_iff.mp ht
            have hall : Matches (byte d) (byte b) (encode (d :: p)) (encode s) := by
              rw [hs, ← List.append_assoc, Utf8.encode_cons, Utf8.utf8EncodeChar_of_lt ha]
              refine .star ?_ hw
              rw [List.mem_append, not_or]
              exact ⟨hu, hv⟩
            exact .star (u := []) List.not_mem_nil (ih hall)
          . obtain ⟨w, rfl, _⟩ := exists_of_matches_literal_append (byte_not_mem ha hd) ht
            apply absurd _ hfirst
            intro x hx
            rw [List.head?_append_of_ne_nil _ String.utf8EncodeChar_ne_nil] at hx
            obtain ⟨y, l, hl⟩ := List.exists_cons_of_ne_nil (@String.utf8EncodeChar_ne_nil d)
            have hy := @UInt8.isUTF8FirstByte_getElem_zero_utf8EncodeChar d
            simp only [hl, List.getElem_cons_zero, List.head?_cons, Option.mem_some_iff] at hx hy
            rw [← hx]
            exact hy
    . obtain ⟨t, hs, ht⟩ := exists_of_matches_literal_append (byte_not_mem ha hc) h
      cases s with
      | nil =>
        have hnil := (List.append_eq_nil_iff.mp hs.symm).1
        exact absurd hnil String.utf8EncodeChar_ne_nil
      | cons d s =>
        rw [Utf8.encode_cons] at hs
        obtain ⟨rfl, rfl⟩ := Utf8.eq_of_utf8EncodeChar_append hs
        exact .one hc (ih ht)

theorem toNat_lt_of_mem : ∀ c ∈ RegExp.metacharacters, c.toNat < 128 := by
  simp [RegExp.metacharacters]

theorem mem_metacharacters_of_encode {p : List Char} {b : UInt8} (hb : b ∈ encode p)
    (hmeta : b ∈ RegExp.metacharacters.map byte)
    : ∃ c ∈ p, c ∈ RegExp.metacharacters ∧ b = byte c := by
  obtain ⟨c, hc, rfl⟩ := List.mem_map.mp hmeta
  by_contra hno
  apply Utf8.ofNat_not_mem_encode (toNat_lt_of_mem c hc) _ hb
  intro hmem
  exact hno ⟨c, hmem, hc, rfl⟩

theorem ordinary_encode {p : List Char} (hp : Ordinary id p) : Ordinary byte (encode p) := by
  intro b hb hmeta
  obtain ⟨c, hc, hmeta, rfl⟩ := mem_metacharacters_of_encode hb hmeta
  rcases hp c hc (by rwa [List.map_id]) with rfl | rfl
  . exact .inl rfl
  . exact .inr rfl

-- The bytes of the text of a pattern are the text of the pattern for bytes
theorem encode_rowText (p : List Char)
    : encode (RegExp.rowText id (p.map (atom id ':'))) =
        RegExp.rowText byte ((encode p).map (atom byte (byte ':'))) := by
  have hatom : ∀ c, encode ((atom id ':' c).text id) =
      (String.utf8EncodeChar c).flatMap fun b => (atom byte (byte ':') b).text byte := by
    intro c
    by_cases hdot : c = '.'
    . subst hdot
      decide
    . by_cases hstar : c = '*'
      . subst hstar
        decide
      . have hone : ∀ b ∈ String.utf8EncodeChar c, (atom byte (byte ':') b).text byte = [b] := by
          intro b hb
          have hbdot := Utf8.ne_ofNat_of_mem (a := '.') (by decide) hdot hb
          have hbstar := Utf8.ne_ofNat_of_mem (a := '*') (by decide) hstar hb
          unfold atom byte
          rw [if_neg hbdot, if_neg hbstar]
          rfl
        rw [List.flatMap_congr hone, List.flatMap_singleton']
        unfold atom
        rw [id_eq, id_eq, if_neg hdot, if_neg hstar]
        exact List.append_nil _
  have hatoms : encode ((p.map (atom id ':')).flatMap (RegExp.Atom.text id)) =
      ((encode p).map (atom byte (byte ':'))).flatMap (RegExp.Atom.text byte) := by
    induction p with
    | nil => rfl
    | cons c p ih =>
      rw [List.map_cons, List.flatMap_cons, Utf8.encode_append, ih, hatom, Utf8.encode_cons,
        List.map_append, List.flatMap_append, List.flatMap_map, List.flatMap_map]
  unfold RegExp.rowText
  rw [Utf8.encode_append, Utf8.encode_cons, hatoms]
  rfl

end Utf8

end Glob
