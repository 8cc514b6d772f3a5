import SmartnicFw.SnP4.Client.P4bm

/-!
This module contains what the regular expressions of the behaviour-model files match: the command of
a line, and the operation and the arguments of a command.
-/

namespace P4bm

open Fields RegExp

variable {u : Unicode}

section NewLines

theorem not_mem_takeWhile {c : Char} {p : Char → Bool} {s : Text} (h : c ∉ s) : c ∉ s.takeWhile p := by
  intro hc
  exact h ((List.takeWhile_sublist p).subset hc)

theorem not_mem_dropWhile {c : Char} {p : Char → Bool} {s : Text} (h : c ∉ s) : c ∉ s.dropWhile p := by
  intro hc
  exact h ((List.dropWhile_sublist p).subset hc)

theorem not_mem_strip {c : Char} {s : Text} (h : c ∉ s) : c ∉ strip isspace s := by
  intro hc
  exact not_mem_dropWhile h ((List.rdropWhile_prefix isspace _).subset hc)

theorem not_mem_strip_concat {s : Text} (h : '\n' ∉ s) : '\n' ∉ strip isspace (s ++ ['\n']) := by
  have hspace : isspace '\n' := by decide
  rw [strip, List.dropWhile_append]
  split
  . simp [hspace]
  . rw [List.rdropWhile_concat_pos isspace _ _ hspace]
    exact not_mem_strip h

theorem dot_of_not_mem {s : Text} (h : '\n' ∉ s) : ∀ c ∈ s, dot c := by
  intro c hc
  simp only [dot, decide_eq_true_eq]
  rintro rfl
  contradiction

end NewLines

theorem forall_mem_of_all {p : Char → Prop} [DecidablePred p] {s : Text}
    (h : s.all (fun c => decide (p c)) = true)
    : ∀ c ∈ s, p c := by
  simpa using h

section LineRe

-- Nothing is left, or a comment
theorem run_comment {caps : Captures Char String} {rest : Text} (hnl : '\n' ∉ rest)
    (hrest : ∀ c ∈ rest.head?, c = '#')
    : (concat [opt (concat [.many isspace, .lit ['#'], .many dot]), eos]).run
        (fun caps _ => some caps) caps rest = some caps := by
  rw [run_concat_cons]
  cases rest with
  | nil => rfl
  | cons c rest =>
    obtain rfl := hrest c rfl
    apply run_opt_of_some
    rw [run_concat_cons]
    apply run_many_first
    rw [run_concat_cons, List.dropWhile_cons_of_neg (by decide)]
    apply (run_lit_append ['#'] caps rest).trans
    rw [run_concat_cons]
    apply runMany_all
    . apply dot_of_not_mem
      intro h
      exact hnl (by simp [h])
    . rfl

theorem p4bmLineRe_groups {c : Char} {s : Text} (hc : c ≠ '#') (hs : '\n' ∉ c :: s)
    : p4bmLineRe.groups (c :: s) = some [("cmd", (c :: s).takeWhile (· ≠ '#'))] := by
  unfold p4bmLineRe groups
  rw [run_concat_cons]
  apply run_group_plus_first (by simpa using hc)
  apply run_comment (not_mem_dropWhile hs)
  intro d hd
  simpa using not_of_mem_head?_dropWhile hd

end LineRe

section CommandRe

theorem p4bmCommandRe_groups {c : Char} {s : Text} (hc : u.word c) (hs : '\n' ∉ c :: s)
    : (p4bmCommandRe u).groups (c :: s)
        = some [("args", ((c :: s).dropWhile u.word).dropWhile isspace),
            ("op", (c :: s).takeWhile u.word)] := by
  unfold p4bmCommandRe groups
  rw [run_concat_cons]
  apply run_group_plus_first hc
  rw [run_concat_cons]
  apply run_many_first
  rw [run_concat_cons]
  apply run_group_many_all
  . exact dot_of_not_mem (not_mem_dropWhile (not_mem_dropWhile hs))
  . rfl

theorem p4bmCommandRe_groups_none {c : Char} {s : Text} (hc : ¬ u.word c)
    : (p4bmCommandRe u).groups (c :: s) = none := by
  unfold p4bmCommandRe groups
  rw [run_concat_cons, run_group]
  apply run_plus_eq_none hc

end CommandRe

section ParseLine

def command (line : Text) : Text := (strip isspace line).takeWhile (· ≠ '#')

def operation (u : Unicode) (line : Text) : Text := (command line).takeWhile u.word

def arguments (u : Unicode) (line : Text) : Text := ((command line).dropWhile u.word).dropWhile isspace

theorem p4bmOps_nil : p4bmOps u [] = none := rfl

theorem p4bmOps_clearAll : p4bmOps u P4bmClearAll.name = some P4bmClearAll.parseInit := rfl

theorem p4bmOps_tableAdd : p4bmOps u P4bmTableAdd.name = some (P4bmTableAdd.parseInit u) := rfl

theorem p4bmOps_tableClear : p4bmOps u P4bmTableClear.name = some P4bmTableClear.parseInit := rfl

theorem p4bmOps_other {op : Text} (hclearAll : op ≠ P4bmClearAll.name) (hadd : op ≠ P4bmTableAdd.name)
    (hclear : op ≠ P4bmTableClear.name)
    : p4bmOps u op = none := by
  rw [p4bmOps, if_neg hclearAll, if_neg hadd, if_neg hclear]

theorem parseLine_eq {lineno : Nat} {line : Text} (h : '\n' ∉ strip isspace line)
    : parseLine u lineno line =
        match p4bmOps u (operation u line) with
        | none => .ok none
        | some parseInit => (parseInit lineno (arguments u line)).map some := by
  unfold parseLine arguments operation command
  generalize strip isspace line = line at h ⊢
  cases line with
  | nil => rfl
  | cons c s =>
    by_cases hc : c = '#'
    . subst hc
      rfl
    . have hcmd : (c :: s).takeWhile (· ≠ '#') = c :: s.takeWhile (· ≠ '#') := by simp [hc]
      have hnl : '\n' ∉ c :: s.takeWhile (· ≠ '#') := by
        rw [← hcmd]
        exact not_mem_takeWhile h
      have hget : Captures.get [("cmd", c :: s.takeWhile (· ≠ '#'))] "cmd"
          = c :: s.takeWhile (· ≠ '#') := rfl
      simp only [List.cons_ne_nil, List.head?_cons, Option.some.injEq, hc, or_self, if_false,
        p4bmLineRe_groups hc h, hcmd, hget]
      by_cases hword : u.word c
      . rw [p4bmCommandRe_groups hword hnl]
        rfl
      . rw [p4bmCommandRe_groups_none hword]
        simp [hword, p4bmOps_nil]

end ParseLine

section Files

theorem not_mem_strip_readLines {s line : Text} (h : '\n' ∉ line)
    : ∀ l ∈ readLines line s, '\n' ∉ strip isspace l := by
  induction s generalizing line with
  | nil =>
    intro l hl
    rw [readLines] at hl
    split at hl
    . contradiction
    . obtain rfl := List.mem_singleton.mp hl
      exact not_mem_strip h
  | cons c s ih =>
    intro l hl
    rw [readLines] at hl
    split at hl
    . rcases List.mem_cons.mp hl with rfl | hl
      . exact not_mem_strip_concat h
      . exact ih (by simp) l hl
    . next hc =>
      refine ih ?_ l hl
      simp [h, eq_comm, hc]

theorem not_mem_strip_fileLines (p4bmFile : Text)
    : ∀ line ∈ fileLines p4bmFile, '\n' ∉ strip isspace line := by
  apply not_mem_strip_readLines
  simp

end Files

end P4bm
