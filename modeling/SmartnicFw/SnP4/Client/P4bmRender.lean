import SmartnicFw.SnP4.Client.P4bmArgs

/-!
This module contains the rules that a behaviour-model file can add to a table, the lines that they are
written as, and what is left of such a line as the arguments of its operation.
-/

namespace P4bm

open Fields RegExp

structure IsToken (t : Text) : Prop where
  nonempty : t ≠ []
  plain : ∀ c ∈ t, ¬ isspace c ∧ c ≠ '#'

structure IsName (u : Unicode) (t : Text) : Prop where
  nonempty : t ≠ []
  word : ∀ c ∈ t, u.word c

structure RuleText (u : Unicode) where
  tableName : Text
  actionName : Text
  matchTexts : List Text
  actionParams : List Text
  priority : Option Nat
  isTableName : IsName u tableName
  isActionName : IsName u actionName
  hasMatches : matchTexts ≠ []
  areTokens : ∀ t ∈ matchTexts ++ actionParams, IsToken t

namespace RuleText

variable {u : Unicode}

def tableRule (rule : RuleText u) : TableRule :=
  ⟨rule.tableName, rule.actionName, rule.matchTexts, rule.actionParams, rule.priority.map Int.ofNat⟩

def tail (rule : RuleText u) : List Text :=
  rule.actionParams ++ (rule.priority.map (Nat.toDigits 10)).toList

def tokens (rule : RuleText u) : List Text :=
  P4bmTableAdd.name :: rule.tableName :: rule.actionName :: (rule.matchTexts ++ arrow :: rule.tail)

end RuleText

-- How a line is laid out: the white space before each token, and what comes after the last one
structure Layout where
  gaps : List Text
  trail : Text
  comment : Option Text
  newline : Bool

def IsGap (gap : Text) : Prop := ∀ c ∈ gap, isspace c ∧ c ≠ '\n' ∧ c ≠ '\r'

structure Layout.Fits (layout : Layout) (tokens : List Text) : Prop where
  length : layout.gaps.length = tokens.length
  areGaps : ∀ gap ∈ layout.gaps, IsGap gap
  between : ∀ gap ∈ layout.gaps.tail, gap ≠ []
  isTrail : IsGap layout.trail
  isComment : ∀ text ∈ layout.comment, '\n' ∉ text ∧ '\r' ∉ text

namespace Layout

variable (layout : Layout)

def front (tokens : List Text) : Text := (List.zipWith (· ++ ·) layout.gaps tokens).flatten

def commentText : Text :=
  match layout.comment with
  | none => []
  | some text => '#' :: text

def lineEnd : Text := if layout.newline then ['\n'] else []

def text (tokens : List Text) : Text := layout.front tokens ++ layout.trail ++ layout.commentText

def render (tokens : List Text) : Text := layout.text tokens ++ layout.lineEnd

-- White space that stands before a comment is not removed with it
def LeavesSpace : Prop := layout.trail ≠ [] ∧ layout.comment ≠ none

end Layout

section Digits

variable {u : Unicode} {c : Char}

theorem toNat_of_isDigit (h : c.isDigit) : 48 ≤ c.toNat ∧ c.toNat ≤ 57 := by
  have hval : c.toNat = c.val.toNat := rfl
  simp only [Char.isDigit, Bool.and_eq_true, decide_eq_true_eq, ge_iff_le,
    UInt32.le_iff_toNat_le] at h
  simp only [UInt32.reduceToNat, Char.reduceVal] at h
  omega

theorem decimal_of_isDigit (h : c.isDigit)
    : ∃ d : Fin 10, u.decimal c = some d ∧ d.val = c.toNat - '0'.toNat := by
  have hrange := toNat_of_isDigit h
  have hlt : c.toNat - 48 < 10 := by omega
  refine ⟨⟨c.toNat - 48, hlt⟩, ?_, rfl⟩
  have hc : c = Char.ofNat (48 + (c.toNat - 48)) := by
    rw [Nat.add_sub_cancel' hrange.1, Char.ofNat_toNat]
  conv => lhs; rw [hc]
  exact u.decimal_ascii ⟨c.toNat - 48, hlt⟩

theorem ne_of_isDigit (h : c.isDigit) : c ≠ '_' ∧ c ≠ '-' ∧ c ≠ '+' ∧ ¬ isspace c := by
  have hrange := toNat_of_isDigit h
  refine ⟨?_, ?_, ?_, ?_⟩
  . rintro rfl
    simp at hrange
  . rintro rfl
    simp at hrange
  . rintro rfl
    simp at hrange
  . simp only [isspace, decide_eq_true_eq]
    omega

end Digits

section Render

variable {u : Unicode} {layout : Layout} {tokens : List Text}

theorem isspace_of_isGap {gap : Text} (h : IsGap gap) : ∀ c ∈ gap, isspace c := fun c hc => (h c hc).1

theorem words_zipWith {gaps : List Text} {trail : Text} (hlen : gaps.length = tokens.length)
    (hgaps : ∀ gap ∈ gaps, IsGap gap) (hne : ∀ gap ∈ gaps, gap ≠ []) (htrail : IsGap trail)
    (htokens : ∀ t ∈ tokens, IsToken t)
    : Separated isspace ((List.zipWith (· ++ ·) gaps tokens).flatten ++ trail)
        ∧ words isspace ((List.zipWith (· ++ ·) gaps tokens).flatten ++ trail) = tokens := by
  induction gaps generalizing tokens with
  | nil =>
    obtain rfl := List.length_eq_zero_iff.mp hlen.symm
    constructor
    . intro c hc
      exact isspace_of_isGap htrail c (List.mem_of_head? (by simpa using hc))
    . simpa using words_seps (isspace_of_isGap htrail)
  | cons gap gaps ih =>
    cases tokens with
    | nil => contradiction
    | cons t tokens =>
      obtain ⟨hsep, hwords⟩ := @ih tokens (by simpa using hlen) (fun g hg => hgaps g (by simp [hg]))
        (fun g hg => hne g (by simp [hg])) (fun t ht => htokens t (by simp [ht]))
      have hgap := isspace_of_isGap (hgaps gap (by simp))
      have ht := htokens t (by simp)
      rw [List.zipWith_cons_cons, List.flatten_cons, List.append_assoc, List.append_assoc]
      constructor
      . intro c hc
        rw [List.head?_append_of_ne_nil _ (hne gap (by simp))] at hc
        exact hgap c (List.mem_of_head? hc)
      . rw [words_seps_append hgap, words_word_append ht.nonempty (fun c hc => (ht.plain c hc).1) hsep,
          hwords]

theorem words_front (hfits : layout.Fits tokens) (hne : tokens ≠ []) (htokens : ∀ t ∈ tokens, IsToken t)
    : words isspace (layout.front tokens ++ layout.trail) = tokens := by
  obtain ⟨t, tokens, rfl⟩ := List.exists_cons_of_ne_nil hne
  have hlen := hfits.length
  have hgaps := hfits.areGaps
  have hbetween := hfits.between
  unfold Layout.front
  cases hcons : layout.gaps with
  | nil => simp [hcons] at hlen
  | cons gap gaps =>
    rw [hcons] at hlen hgaps hbetween
    have ht := htokens t (by simp)
    obtain ⟨hsep, hwords⟩ := @words_zipWith tokens gaps layout.trail (by simpa using hlen)
      (fun g hg => hgaps g (by simp [hg])) hbetween hfits.isTrail (fun t ht => htokens t (by simp [ht]))
    rw [List.zipWith_cons_cons, List.flatten_cons, List.append_assoc, List.append_assoc,
      words_seps_append (isspace_of_isGap (hgaps gap (by simp))),
      words_word_append ht.nonempty (fun c hc => (ht.plain c hc).1) hsep, hwords]

theorem mem_front {c : Char} (h : c ∈ layout.front tokens)
    : (∃ gap ∈ layout.gaps, c ∈ gap) ∨ ∃ t ∈ tokens, c ∈ t := by
  unfold Layout.front at h
  obtain ⟨piece, hpiece, hc⟩ := List.mem_flatten.mp h
  obtain ⟨i, hi⟩ := List.mem_iff_getElem?.mp hpiece
  obtain ⟨gap, t, hgap, ht, rfl⟩ := List.getElem?_zipWith_eq_some.mp hi
  rcases List.mem_append.mp hc with hc | hc
  . exact .inl ⟨gap, List.mem_of_getElem? hgap, hc⟩
  . exact .inr ⟨t, List.mem_of_getElem? ht, hc⟩

-- Neither a comment nor the end of the line begins in front of the comment
theorem plain_of_mem {c : Char} (hfits : layout.Fits tokens) (htokens : ∀ t ∈ tokens, IsToken t)
    (h : c ∈ layout.front tokens ++ layout.trail)
    : c ≠ '#' ∧ c ≠ '\n' ∧ c ≠ '\r' := by
  have hgap : ∀ gap, IsGap gap → c ∈ gap → c ≠ '#' ∧ c ≠ '\n' ∧ c ≠ '\r' := by
    intro gap hgap hc
    refine ⟨?_, (hgap c hc).2⟩
    rintro rfl
    have := (hgap _ hc).1
    contradiction
  have htoken : ∀ t, IsToken t → c ∈ t → c ≠ '#' ∧ c ≠ '\n' ∧ c ≠ '\r' := by
    intro t ht hc
    refine ⟨(ht.plain c hc).2, ?_, ?_⟩
    . rintro rfl
      exact (ht.plain _ hc).1 (by decide)
    . rintro rfl
      exact (ht.plain _ hc).1 (by decide)
  rcases List.mem_append.mp h with h | h
  . rcases mem_front h with ⟨gap, hmem, hc⟩ | ⟨t, hmem, hc⟩
    . exact hgap gap (hfits.areGaps gap hmem) hc
    . exact htoken t (htokens t hmem) hc
  . exact hgap _ hfits.isTrail h

theorem rdropWhile_append_cons {p : Char → Bool} {c : Char} (hc : ¬ p c) (x y : Text)
    : (x ++ c :: y).rdropWhile p = x ++ c :: y.rdropWhile p := by
  induction y using List.reverseRecOn with
  | nil => simp [hc]
  | append_singleton y d ih =>
    rw [← List.cons_append, ← List.append_assoc]
    by_cases hd : p d
    . rw [List.rdropWhile_concat_pos _ _ _ hd, List.rdropWhile_concat_pos _ _ _ hd, ih]
    . rw [List.rdropWhile_concat_neg _ _ _ hd, List.rdropWhile_concat_neg _ _ _ hd]
      simp

theorem rdropWhile_append_of_pos {p : Char → Bool} {y : Text} (hy : ∀ c ∈ y, p c) (x : Text)
    : (x ++ y).rdropWhile p = x.rdropWhile p := by
  induction y using List.reverseRecOn with
  | nil => simp
  | append_singleton y d ih =>
    rw [← List.append_assoc, List.rdropWhile_concat_pos _ _ _ (hy d (by simp)),
      ih fun c hc => hy c (by simp [hc])]

theorem takeWhile_of_plain {s : Text} (h : ∀ c ∈ s, c ≠ '#') (rest : Text)
    : (s ++ '#' :: rest).takeWhile (· ≠ '#') = s := by
  rw [List.takeWhile_append_of_pos (by simpa using h)]
  simp

theorem command_of_comment {s rest : Text} (h : ∀ c ∈ s, c ≠ '#')
    : command (s ++ '#' :: rest) = s.dropWhile isspace := by
  have hhash : ¬ isspace '#' := by decide
  have hplain : ∀ c ∈ s.dropWhile isspace, c ≠ '#' := fun c hc =>
    h c ((List.dropWhile_sublist isspace).subset hc)
  have hdrop : (s ++ '#' :: rest).dropWhile isspace = s.dropWhile isspace ++ '#' :: rest := by
    rw [List.dropWhile_append]
    split
    . next hempty =>
      rw [List.isEmpty_iff.mp hempty]
      simp [hhash]
    . rfl
  rw [command, strip, hdrop, rdropWhile_append_cons hhash, takeWhile_of_plain hplain]

theorem command_of_no_comment {s rest : Text} (h : ∀ c ∈ s, c ≠ '#') (hrest : ∀ c ∈ rest, isspace c)
    (hs : words isspace s ≠ [])
    : command (s ++ rest) = strip isspace s := by
  have hstrip : strip isspace (s ++ rest) = strip isspace s := by
    have hne : s.dropWhile isspace ≠ [] := by
      intro hnil
      rw [← words_dropWhile, hnil, words_nil] at hs
      contradiction
    rw [strip, strip, List.dropWhile_append, if_neg (by simpa using hne),
      rdropWhile_append_of_pos hrest]
  have hplain : ∀ c ∈ strip isspace s, decide (c ≠ '#') := by
    intro c hc
    have hmem := (List.dropWhile_sublist isspace).subset ((List.rdropWhile_prefix isspace _).subset hc)
    simpa using h c hmem
  rw [command, hstrip, List.takeWhile_eq_self_iff.mpr hplain]

theorem endsInSpace_append {x y : Text} (hy : y ≠ []) : EndsInSpace (x ++ y) ↔ EndsInSpace y := by
  unfold EndsInSpace
  rw [List.getLast?_append_of_ne_nil _ hy]

theorem not_endsInSpace_front (hfits : layout.Fits tokens) (hne : tokens ≠ [])
    (htokens : ∀ t ∈ tokens, IsToken t)
    : ¬ EndsInSpace (layout.front tokens) := by
  have hlen := hfits.length
  obtain ⟨ts, t, rfl⟩ := (List.eq_nil_or_concat' tokens).resolve_left hne
  unfold Layout.front
  rcases List.eq_nil_or_concat' layout.gaps with hnil | ⟨gaps, gap, hgaps⟩
  . simp [hnil] at hlen
  . have ht := htokens t (by simp)
    rw [hgaps, List.length_append, List.length_append] at hlen
    rw [hgaps, List.zipWith_append (by simpa using hlen), List.flatten_append]
    simp only [List.zipWith_cons_cons, List.zipWith_nil_right, List.flatten_singleton,
      ← List.append_assoc]
    rw [endsInSpace_append ht.nonempty]
    rintro ⟨c, hc, hspace⟩
    exact (ht.plain c (List.mem_of_getLast? hc)).1 hspace

-- What is left of a line when its comment and its ends are removed
structure IsCommand (layout : Layout) (tokens : List Text) (cmd : Text) : Prop where
  head : ∀ c ∈ cmd.head?, ¬ isspace c
  words : words isspace cmd = tokens
  endsInSpace : EndsInSpace cmd ↔ layout.LeavesSpace

theorem isCommand_render (hfits : layout.Fits tokens) (hne : tokens ≠ [])
    (htokens : ∀ t ∈ tokens, IsToken t)
    : IsCommand layout tokens (command (layout.render tokens)) := by
  have hwords := words_front hfits hne htokens
  have hplain : ∀ c ∈ layout.front tokens ++ layout.trail, c ≠ '#' := fun c hc =>
    (plain_of_mem hfits htokens hc).1
  unfold Layout.render Layout.text Layout.commentText
  cases hcomment : layout.comment with
  | none =>
    have hrest : ∀ c ∈ layout.lineEnd, isspace c := by
      unfold Layout.lineEnd
      cases layout.newline with
      | false => simp
      | true => simpa using by decide
    rw [List.append_nil, command_of_no_comment hplain hrest (by rwa [hwords])]
    refine ⟨fun c => not_of_mem_head?_strip, by rw [words_strip, hwords], ?_⟩
    constructor
    . rintro ⟨c, hc, hspace⟩
      exact absurd hspace (not_of_mem_getLast?_strip hc)
    . intro hleaves
      exact absurd hcomment hleaves.2
  | some text =>
    rw [List.append_assoc, List.cons_append, command_of_comment hplain]
    refine ⟨fun c => not_of_mem_head?_dropWhile, by rw [words_dropWhile, hwords], ?_⟩
    have hfront := not_endsInSpace_front hfits hne htokens
    have hdropNe : (layout.front tokens ++ layout.trail).dropWhile isspace ≠ [] := by
      intro hnil
      rw [← words_dropWhile, hnil, words_nil] at hwords
      exact hne hwords.symm
    rw [← endsInSpace_append (x := (layout.front tokens ++ layout.trail).takeWhile isspace) hdropNe,
      List.takeWhile_append_dropWhile]
    by_cases htrail : layout.trail = []
    . simp [htrail, hfront, Layout.LeavesSpace]
    . rw [endsInSpace_append htrail]
      obtain ⟨gap, c, hgap⟩ := (List.eq_nil_or_concat' layout.trail).resolve_left htrail
      have hspace := isspace_of_isGap hfits.isTrail c (by simp [hgap])
      simp [Layout.LeavesSpace, hcomment, EndsInSpace, hgap, hspace]

theorem translateNewlines_eq {s : Text} (h : '\r' ∉ s) : translateNewlines s = s := by
  fun_induction translateNewlines s with
  | case1 s ih => simp at h
  | case2 s _ ih => simp at h
  | case3 c s _ _ ih => rw [ih fun hc => h (by simp [hc])]
  | case4 => rfl

theorem readLines_append {s : Text} (h : '\n' ∉ s) (line rest : Text)
    : readLines line (s ++ rest) = readLines (line ++ s) rest := by
  induction s generalizing line with
  | nil => simp
  | cons c s ih =>
    have hc : c ≠ '\n' := by
      rintro rfl
      simp at h
    rw [List.cons_append, readLines, if_neg hc, ih fun hmem => h (by simp [hmem])]
    simp

theorem plain_text (hfits : layout.Fits tokens) (htokens : ∀ t ∈ tokens, IsToken t)
    : '\n' ∉ layout.text tokens ∧ '\r' ∉ layout.text tokens := by
  have hcomment : '\n' ∉ layout.commentText ∧ '\r' ∉ layout.commentText := by
    have htext := hfits.isComment
    unfold Layout.commentText
    cases hcomment : layout.comment with
    | none => simp
    | some text => simpa using htext text hcomment
  unfold Layout.text
  constructor
  . intro h
    rcases List.mem_append.mp h with h | h
    . exact (plain_of_mem hfits htokens h).2.1 rfl
    . exact hcomment.1 h
  . intro h
    rcases List.mem_append.mp h with h | h
    . exact (plain_of_mem hfits htokens h).2.2 rfl
    . exact hcomment.2 h

theorem fileLines_render (hfits : layout.Fits tokens) (hne : tokens ≠ [])
    (htokens : ∀ t ∈ tokens, IsToken t)
    : fileLines (layout.render tokens) = [layout.render tokens] := by
  obtain ⟨hnewline, hreturn⟩ := plain_text hfits htokens
  have htext : layout.text tokens ≠ [] := by
    intro hnil
    have hwords := words_front hfits hne htokens
    rw [Layout.text, List.append_eq_nil_iff] at hnil
    rw [hnil.1, words_nil] at hwords
    exact hne hwords.symm
  have hreturn' : '\r' ∉ layout.render tokens := by
    unfold Layout.render Layout.lineEnd
    cases layout.newline with
    | false => simpa using hreturn
    | true => simpa using hreturn
  unfold fileLines
  rw [translateNewlines_eq hreturn']
  unfold Layout.render Layout.lineEnd
  rw [readLines_append hnewline]
  cases layout.newline with
  | false => simp [readLines, htext]
  | true => simp [readLines]

end Render

section Tokens

variable {u : Unicode}

theorem IsName.isToken {t : Text} (h : IsName u t) : IsToken t := by
  refine ⟨h.nonempty, ?_⟩
  intro c hc
  constructor
  . intro hspace
    exact not_word_of_isspace hspace (h.word c hc)
  . rintro rfl
    have halnum := u.alnum_ascii '#' (by decide)
    have hword := h.word _ hc
    simp only [Unicode.word, halnum] at hword
    contradiction

theorem isName_tableAdd : IsName u P4bmTableAdd.name := by
  refine ⟨by decide, ?_⟩
  intro c hc
  have hascii : ∀ c ∈ P4bmTableAdd.name, c = '_' ∨ (c.toNat < 128 ∧ c.isAlphanum) :=
    forall_mem_of_all (by decide)
  rcases hascii c hc with rfl | ⟨hlt, halnum⟩
  . simp [Unicode.word]
  . simp [Unicode.word, u.alnum_ascii c hlt, halnum]

theorem isToken_toDigits (n : Nat) : IsToken (Nat.toDigits 10 n) := by
  refine ⟨Nat.toDigits_ne_nil, ?_⟩
  intro c hc
  have hdigit := Nat.isDigit_of_mem_toDigits (by omega) (by omega) hc
  refine ⟨(ne_of_isDigit hdigit).2.2.2, ?_⟩
  rintro rfl
  contradiction

theorem isToken_of_mem_tokens (rule : RuleText u) : ∀ t ∈ rule.tokens, IsToken t := by
  have harrow : IsToken arrow := ⟨by decide, forall_mem_of_all (by decide)⟩
  intro t ht
  simp only [RuleText.tokens, RuleText.tail, List.mem_cons, List.mem_append, Option.mem_toList,
    Option.map_eq_some_iff] at ht
  rcases ht with rfl | rfl | rfl | ht | rfl | ht | ⟨n, _, rfl⟩
  . exact (isName_tableAdd (u := u)).isToken
  . exact rule.isTableName.isToken
  . exact rule.isActionName.isToken
  . exact rule.areTokens t (by simp [ht])
  . exact harrow
  . exact rule.areTokens t (by simp [ht])
  . exact isToken_toDigits n

theorem takeWhile_word {t y : Text} (ht : ∀ c ∈ t, u.word c) (hy : Separated isspace y)
    : (t ++ y).takeWhile u.word = t ∧ (t ++ y).dropWhile u.word = y := by
  have hhead := not_word_of_separated (u := u) hy
  rw [List.takeWhile_append_of_pos ht, List.dropWhile_append_of_pos ht]
  cases y with
  | nil => simp
  | cons c y => simp [hhead c rfl]

structure IsArguments (rule : RuleText u) (layout : Layout) (args : Text) : Prop where
  head : ∀ c ∈ args.head?, ¬ isspace c
  words : words isspace args
    = rule.tableName :: rule.actionName :: (rule.matchTexts ++ arrow :: rule.tail)
  endsInSpace : EndsInSpace args ↔ layout.LeavesSpace

theorem arguments_render {rule : RuleText u} {layout : Layout} (hfits : layout.Fits rule.tokens)
    : operation u (layout.render rule.tokens) = P4bmTableAdd.name
        ∧ IsArguments rule layout (arguments u (layout.render rule.tokens)) := by
  have hcmd := isCommand_render hfits (by simp [RuleText.tokens]) (isToken_of_mem_tokens rule)
  unfold operation arguments
  generalize command (layout.render rule.tokens) = cmd at hcmd ⊢
  obtain ⟨rest, hword, hrest⟩ := word_at_head hcmd.head hcmd.words
  have hsplit : cmd = P4bmTableAdd.name ++ rest := by simpa using hword.split
  obtain ⟨htake, hdrop⟩ := takeWhile_word (isName_tableAdd (u := u)).word hword.after
  rw [hsplit, htake, hdrop]
  refine ⟨rfl, fun c => not_of_mem_head?_dropWhile, by rw [words_dropWhile, hrest], ?_⟩
  have hne : rest.dropWhile isspace ≠ [] := by
    intro hnil
    rw [← words_dropWhile, hnil] at hrest
    simp at hrest
  rw [← hcmd.endsInSpace, hsplit, ← List.takeWhile_append_dropWhile (p := isspace) (l := rest),
    ← List.append_assoc, endsInSpace_append hne]
  simp

end Tokens

end P4bm
