import SmartnicFw.SnP4.Client.P4bmLines

/-!
This module contains how the arguments of a `table_add` are cut into the table, the action, the matches
and the parameters: the last separator that has white space on both sides is the one that counts.
-/

namespace P4bm

open Fields RegExp

variable {u : Unicode} {caps : Captures Char String}

-- What stands between the matches and the parameters, and `y` after it
def Separator (w y : Text) : Prop :=
  ∃ gap, w = gap ++ (['=', '>'] ++ y) ∧ gap ≠ [] ∧ (∀ c ∈ gap, isspace c) ∧ y ≠ [] ∧ Separated isspace y

def separatorRe : RegExp Char String :=
  .concat [.plus isspace, .lit ['=', '>'], .plus isspace, .group "params" (.many dot), eos]

theorem separatorRe_run {w y : Text} (hnl : '\n' ∉ w) (h : Separator w y)
    : separatorRe.run (fun caps _ => some caps) caps w = some (("params", y.dropWhile isspace) :: caps) := by
  obtain ⟨gap, rfl, hne, hgap, hy, hsep⟩ := h
  have hequals : ¬ isspace '=' := by decide
  unfold separatorRe
  rw [run_concat_cons]
  apply run_plus_append hne hgap
  . simp [hequals]
  rw [run_concat_cons, run_lit_append, run_concat_cons]
  obtain ⟨c, y, rfl⟩ := List.exists_cons_of_ne_nil hy
  apply run_plus_first (hsep c rfl)
  rw [run_concat_cons]
  apply run_group_many_all
  . apply dot_of_not_mem
    apply not_mem_dropWhile
    intro hmem
    apply hnl
    simp [hmem]
  . rfl

theorem exists_separator {w : Text} {x : Captures Char String} (hnl : '\n' ∉ w)
    (h : separatorRe.run (fun caps _ => some caps) caps w = some x)
    : ∃ y, Separator w y ∧ x = ("params", y.dropWhile isspace) :: caps := by
  have hrun := h
  unfold separatorRe at h
  rw [run_concat_cons] at h
  obtain ⟨gap, w', rfl, hne, hgap, hplus⟩ := exists_of_run_plus h
  rw [run_concat_cons] at hplus
  obtain ⟨y, rfl, hlit⟩ := exists_of_run_lit hplus
  rw [run_concat_cons] at hlit
  obtain ⟨gap', rest, rfl, hne', hgap', _⟩ := exists_of_run_plus hlit
  have hsep : Separator (gap ++ (['=', '>'] ++ (gap' ++ rest))) (gap' ++ rest) := by
    obtain ⟨c, gap', rfl⟩ := List.exists_cons_of_ne_nil hne'
    refine ⟨gap, rfl, hne, hgap, by simp, ?_⟩
    intro d hd
    obtain rfl : c = d := by simpa using hd
    exact hgap' c (by simp)
  rw [separatorRe_run hnl hsep] at hrun
  exact ⟨_, hsep, (Option.some.inj hrun).symm⟩

-- The text before the separator, where no longer one is possible
structure CutAt (body v y : Text) : Prop where
  nonempty : v ≠ []
  separator : ∃ w, body = v ++ w ∧ Separator w y
  last : ∀ v' w' y', body = v' ++ w' → Separator w' y' → v'.length ≤ v.length

def bodyRe : RegExp Char String := .seq (.group "matches" (.plus dot)) separatorRe

theorem cutAt_of_bodyRe {body : Text} {x : Captures Char String} (hnl : '\n' ∉ body)
    (h : bodyRe.run (fun caps _ => some caps) caps body = some x)
    : ∃ v y, CutAt body v y ∧ x = ("params", y.dropWhile isspace) :: ("matches", v) :: caps := by
  cases body with
  | nil => contradiction
  | cons c s =>
    have hdot : dot c := dot_of_not_mem hnl c (by simp)
    simp only [bodyRe, plus, run, hdot, if_true] at h
    obtain ⟨v, w, hlongest, hw⟩ := exists_isLongest h
    obtain rfl := hlongest.split
    rw [consumed_cons_append] at hw
    have hnl' : '\n' ∉ w := fun hmem => hnl (by simp [hmem])
    obtain ⟨y, hsep, rfl⟩ := exists_separator hnl' hw
    refine ⟨c :: v, y, ⟨by simp, ⟨w, rfl, hsep⟩, ?_⟩, rfl⟩
    intro v' w' y' hsplit hsep'
    rcases List.cons_eq_append_iff.mp hsplit with ⟨rfl, _⟩ | ⟨v'', rfl, hrest⟩
    . simp
    . by_contra hlen
      have hnl'' : '\n' ∉ w' := fun hmem => hnl (by simp [hrest, hmem])
      have hall : ∀ d ∈ v'', dot d := by
        apply dot_of_not_mem
        intro hmem
        exact hnl (by simp [hrest, hmem])
      have hnone := hlongest.longest v'' w' hrest hall (by simpa using hlen)
      rw [separatorRe_run hnl'' hsep'] at hnone
      contradiction

theorem exists_bodyRe {body v w y : Text} (hnl : '\n' ∉ body) (hsplit : body = v ++ w) (hne : v ≠ [])
    (hsep : Separator w y)
    : ∃ x, bodyRe.run (fun caps _ => some caps) caps body = some x := by
  obtain ⟨c, v, rfl⟩ := List.exists_cons_of_ne_nil hne
  subst hsplit
  have hdot : dot c := dot_of_not_mem hnl c (by simp)
  simp only [bodyRe, plus, run, hdot, if_true, List.cons_append]
  apply Option.ne_none_iff_exists'.mp
  intro hnone
  have hall : ∀ d ∈ v, dot d := by
    apply dot_of_not_mem
    intro hmem
    exact hnl (by simp [hmem])
  have hw := runMany_eq_none_iff.mp hnone v w rfl hall
  have hnl' : '\n' ∉ w := fun hmem => hnl (by simp [hmem])
  rw [separatorRe_run hnl' hsep] at hw
  contradiction

section ArgsRe

theorem not_word_of_isspace {c : Char} (h : isspace c) : ¬ u.word c := by
  have halnum := u.alnum_space c h
  have hunder : c ≠ '_' := by
    rintro rfl
    contradiction
  simp [Unicode.word, halnum, hunder]

theorem not_word_of_separated {s : Text} (h : Separated isspace s) : ∀ c ∈ s.head?, ¬ u.word c := by
  intro c hc
  exact not_word_of_isspace (h c hc)

theorem ne_nil_of_separated {s gap t rest : Text} (hs : Separated isspace s)
    (ht : IsWordIn isspace s gap t rest)
    : gap ≠ [] := by
  rintro rfl
  obtain ⟨c, t, rfl⟩ := List.exists_cons_of_ne_nil ht.nonempty
  have hc := hs c (by simp [ht.split])
  exact ht.word c (by simp) hc

-- The table and the action are taken as they are, and the white space after them
theorem argsRe_groups {args table action : Text} {ts : List Text}
    (hhead : ∀ c ∈ args.head?, ¬ isspace c)
    (hwords : words isspace args = table :: action :: ts) (hts : ts ≠ [])
    (htable : ∀ c ∈ table, u.word c) (haction : ∀ c ∈ action, u.word c)
    : ∃ skipped body, args = skipped ++ body ∧ (∀ c ∈ body.head?, ¬ isspace c)
        ∧ words isspace body = ts
        ∧ ∀ x, bodyRe.run (fun caps _ => some caps) [("action", action), ("table", table)] body = some x
            → (P4bmTableAdd.argsRe u).groups args = some x := by
  obtain ⟨rest, hword, hrest⟩ := word_at_head hhead hwords
  obtain ⟨gap, rest', hword', hgap, hrest'⟩ := first_word hrest
  have hgapNe := ne_nil_of_separated hword.after hword'
  have hne : rest' ≠ [] := by
    rintro rfl
    exact hts (by simpa using hrest'.symm)
  obtain ⟨c, s, hcons⟩ := List.exists_cons_of_ne_nil hne
  have hc : isspace c := hword'.after c (by simp [hcons])
  have hsplit : args = table ++ (gap ++ (action ++ rest')) := by
    rw [hword.split, hword'.split]
    simp
  refine ⟨table ++ (gap ++ (action ++ rest'.takeWhile isspace)), rest'.dropWhile isspace, ?_, ?_, ?_, ?_⟩
  . rw [hsplit]
    simp
  . intro d
    apply not_of_mem_head?_dropWhile
  . rw [words_dropWhile, hrest']
  . intro x hx
    unfold P4bmTableAdd.argsRe groups
    rw [hsplit, run_concat_cons]
    apply run_group_plus_append hword.nonempty htable
    . rw [← List.append_assoc, ← hword'.split]
      exact not_word_of_separated hword.after
    rw [run_concat_cons]
    apply run_plus_append hgapNe hgap
    . intro d hd
      rw [List.head?_append_of_ne_nil _ hword'.nonempty] at hd
      exact hword'.word d (List.mem_of_head? hd)
    rw [run_concat_cons]
    apply run_group_plus_append hword'.nonempty haction (not_word_of_separated hword'.after)
    rw [run_concat_cons, hcons]
    apply run_plus_first hc
    rw [← hcons]
    exact hx

end ArgsRe

section Cut

def arrow : Text := ['=', '>']

theorem words_of_separator {w y : Text} (h : Separator w y)
    : Separated isspace w ∧ words isspace w = arrow :: words isspace y := by
  obtain ⟨gap, rfl, hne, hgap, _, hsep⟩ := h
  constructor
  . intro c hc
    rw [List.head?_append_of_ne_nil _ hne] at hc
    exact hgap c (List.mem_of_head? hc)
  . rw [words_seps_append hgap, words_word_append (by simp) (forall_mem_of_all (by decide)) hsep]
    rfl

theorem words_cutAt {body v y : Text} (h : CutAt body v y)
    : words isspace body = words isspace v ++ arrow :: words isspace y := by
  obtain ⟨w, rfl, hsep⟩ := h.separator
  obtain ⟨hw, hwords⟩ := words_of_separator hsep
  rw [words_append v hw, hwords]

-- Whatever stands before another separator is also before the one of the cut
theorem words_prefix_of_cutAt {body v y v' w' y' : Text} (h : CutAt body v y) (hsplit : body = v' ++ w')
    (hsep : Separator w' y')
    : words isspace v' <+: words isspace v := by
  have hlen := h.last v' w' y' hsplit hsep
  obtain ⟨w, hbody, _⟩ := h.separator
  have hprefix : v' <+: v := by
    have h₁ : v' <+: body := ⟨w', hsplit.symm⟩
    have h₂ : v <+: body := ⟨w, hbody.symm⟩
    exact List.prefix_of_prefix_length_le h₁ h₂ hlen
  obtain ⟨z, rfl⟩ := hprefix
  have hz : Separated isspace z := by
    have hw' : w' = z ++ w := by
      have happend : v' ++ w' = v' ++ (z ++ w) := by rw [← hsplit, hbody, List.append_assoc]
      exact List.append_cancel_left happend
    intro c hc
    apply (words_of_separator hsep).1
    rw [hw', List.head?_append_of_ne_nil]
    . exact hc
    . rintro rfl
      contradiction
  rw [words_append v' hz]
  exact List.prefix_append _ _

def EndsInSpace (s : Text) : Prop := ∃ c ∈ s.getLast?, isspace c

theorem exists_separator_of_words {body : Text} {before after : List Text}
    (hwords : words isspace body = before ++ arrow :: after)
    (hbefore : before ≠ []) (hafter : after = [] → EndsInSpace body)
    : ∃ v w y, body = v ++ w ∧ v ≠ [] ∧ Separator w y ∧ words isspace v = before := by
  obtain ⟨x, y, hword, hx, hy⟩ := word_of_words hwords
  have hxne : x ≠ [] := by
    rintro rfl
    exact hbefore (by simpa using hx.symm)
  obtain ⟨v, c, rfl⟩ := (List.eq_nil_or_concat' x).resolve_left hxne
  have hc : isspace c := hword.before c (by simp)
  have hv : words isspace v = before := by
    rw [words_append_cons hc, words_nil, List.append_nil] at hx
    exact hx
  have hvne : v ≠ [] := by
    rintro rfl
    exact hbefore (by simpa using hv.symm)
  have hyne : y ≠ [] := by
    rintro rfl
    obtain ⟨d, hd, hspace⟩ := hafter (by simpa using hy.symm)
    have harrow : ¬ isspace '>' := by decide
    obtain rfl : '>' = d := by simpa [hword.split, arrow] using hd
    contradiction
  refine ⟨v, c :: (arrow ++ y), y, by simp [hword.split], hvne, ?_, hv⟩
  exact ⟨[c], by simp [arrow], by simp, by simpa using hc, hyne, hword.after⟩

-- The arrow stands nowhere in the tail but at its end, and there only without white space after it
structure Unmistakable (tail : List Text) (endsInSpace : Prop) : Prop where
  inside : arrow ∉ tail.dropLast
  atEnd : tail.getLast? = some arrow → ¬ endsInSpace

theorem not_unmistakable {tail : List Text} {endsInSpace : Prop} (h : ¬ Unmistakable tail endsInSpace)
    : ∃ before after, tail = before ++ arrow :: after ∧ (after = [] → endsInSpace) := by
  by_cases hinside : arrow ∈ tail.dropLast
  . obtain ⟨before, after, hsplit⟩ := List.append_of_mem hinside
    have hne : tail ≠ [] := by
      rintro rfl
      contradiction
    refine ⟨before, after ++ [tail.getLast hne], ?_, by simp⟩
    conv => lhs; rw [← List.dropLast_concat_getLast hne, hsplit]
    simp
  . by_cases hlast : tail.getLast? = some arrow ∧ endsInSpace
    . obtain ⟨before, hsplit⟩ := List.getLast?_eq_some_iff.mp hlast.1
      exact ⟨before, [], hsplit, fun _ => hlast.2⟩
    . exact absurd ⟨hinside, fun harrow hspace => hlast ⟨harrow, hspace⟩⟩ h

theorem endsInSpace_of_separator {v w y : Text} (hsep : Separator w y) (h : words isspace y = [])
    : EndsInSpace (v ++ w) := by
  obtain ⟨gap, rfl, _, _, hne, _⟩ := hsep
  obtain ⟨y, c, rfl⟩ := (List.eq_nil_or_concat' y).resolve_left hne
  refine ⟨c, ?_, words_eq_nil_iff.mp h c (by simp)⟩
  simp only [← List.append_assoc, List.getLast?_concat, Option.mem_some_iff]

-- The cut is the right one as long as no other arrow can be mistaken for the separator
theorem cutAt_iff {body v y : Text} {ms tail : List Text}
    (hwords : words isspace body = ms ++ arrow :: tail) (hms : ms ≠ []) (htail : tail ≠ [])
    (hcut : CutAt body v y)
    : words isspace v = ms ↔ Unmistakable tail (EndsInSpace body) := by
  have heq := (words_cutAt hcut).symm.trans hwords
  constructor
  . intro hv
    by_contra hnot
    obtain ⟨before, after, hsplit, hspace⟩ := not_unmistakable hnot
    have hwords' : words isspace body = (ms ++ arrow :: before) ++ arrow :: after := by
      rw [hwords, hsplit]
      simp
    obtain ⟨v', w', y', hbody, _, hsep, hv'⟩ :=
      exists_separator_of_words hwords' (by simp) hspace
    have hprefix := (words_prefix_of_cutAt hcut hbody hsep).length_le
    rw [hv', hv, List.length_append, List.length_cons] at hprefix
    omega
  . intro hsure
    obtain ⟨v', w', y', hbody, _, hsep, hv'⟩ :=
      exists_separator_of_words hwords hms fun hnil => absurd hnil htail
    obtain ⟨before, hbefore⟩ := words_prefix_of_cutAt hcut hbody hsep
    rw [hv'] at hbefore
    rw [← hbefore, List.append_assoc, List.append_cancel_left_eq] at heq
    cases before with
    | nil => simpa using hbefore.symm
    | cons t before =>
      obtain ⟨rfl, hsplit⟩ := List.cons.inj heq
      rw [List.append_eq] at hsplit
      exfalso
      cases hy : words isspace y with
      | nil =>
        apply hsure.atEnd
        . rw [← hsplit, hy]
          simp
        . obtain ⟨w, hbody', hsep'⟩ := hcut.separator
          rw [hbody']
          exact endsInSpace_of_separator hsep' hy
      | cons t ts =>
        apply hsure.inside
        rw [← hsplit, hy]
        simp

end Cut

end P4bm
