import SmartnicFw.Lib.RegExpParses

/-!
This module contains the text of regular expressions that are a row of atoms between the two ends of a
text: how they are written, how they are read back and what they match.
-/

namespace RegExp

variable {α : Type}

def metacharacters : List Char :=
  ['\\', '^', '$', '.', '*', '+', '?', '(', ')', '[', ']', '{', '}', '|']

-- A symbol, one that is escaped, one that is repeated and any run of the other ones
inductive Atom (α : Type) where
  | one (c : α)
  | escaped (c : α)
  | plus (c : α)
  | runExcept (c : α)
  deriving DecidableEq, Repr

section Text

variable (chr : Char → α)

def Atom.text : Atom α → List α
  | one c => [c]
  | escaped c => [chr '\\', c]
  | plus c => [c, chr '+']
  | runExcept c => [chr '[', chr '^', c, chr ']', chr '*']

def Atom.Plain : Atom α → Prop
  | one c => c ∉ metacharacters.map chr
  | escaped c => c ∈ metacharacters.map chr
  | plus c => c ∉ metacharacters.map chr
  | runExcept c => c ∉ metacharacters.map chr

def rowText (atoms : List (Atom α)) : List α :=
  chr '^' :: atoms.flatMap (Atom.text chr) ++ [chr '$']

variable {chr} {atoms : List (Atom α)} {c : α}

theorem ne_of_not_mem_map {m : Char} (hm : m ∈ metacharacters) (hc : c ∉ metacharacters.map chr)
    : c ≠ chr m := by
  rintro rfl
  exact hc (List.mem_map_of_mem hm)

-- No atom starts like the repetition of the one before it
theorem head_atoms_ne (hinj : ∀ m ∈ metacharacters, chr m = chr '+' → m = '+')
    (hplain : ∀ a ∈ atoms, a.Plain chr)
    : ∃ d s, atoms.flatMap (Atom.text chr) ++ [chr '$'] = d :: s ∧ d ≠ chr '+' := by
  have hmeta : ∀ m ∈ metacharacters, m ≠ '+' → chr m ≠ chr '+' := fun m hm hne heq =>
    hne (hinj m hm heq)
  cases atoms with
  | nil => exact ⟨_, _, rfl, hmeta '$' (by decide) (by decide)⟩
  | cons a atoms =>
    have ha := hplain a List.mem_cons_self
    cases a with
    | one c => exact ⟨_, _, rfl, ne_of_not_mem_map (by decide) ha⟩
    | escaped c => exact ⟨_, _, rfl, hmeta '\\' (by decide) (by decide)⟩
    | plus c => exact ⟨_, _, rfl, ne_of_not_mem_map (by decide) ha⟩
    | runExcept c => exact ⟨_, _, rfl, hmeta '[' (by decide) (by decide)⟩

end Text

section Read

variable [DecidableEq α] (chr : Char → α)

def Atom.regExp : Atom α → RegExp α Unit
  | one c => .one fun d => d = c
  | escaped c => .one fun d => d = c
  | plus c => .plus fun d => d = c
  | runExcept c => .many fun d => d ≠ c

def row (newline : α → Bool) (atoms : List (Atom α)) : RegExp α Unit :=
  concat (atoms.map Atom.regExp ++ [.atEnd newline])

def readAtoms : List α → Option (List (Atom α))
  | [] => none
  | [c] => if c = chr '$' then some [] else none
  | c :: d :: s =>
    if c = chr '\\' then
      (readAtoms s).map (Atom.escaped d :: ·)
    else if c = chr '[' then
      match s with
      | e :: f :: g :: s =>
        if d = chr '^' ∧ f = chr ']' ∧ g = chr '*' then
          (readAtoms s).map (Atom.runExcept e :: ·)
        else
          none
      | _ => none
    else if c ∈ metacharacters.map chr then
      none
    else if d = chr '+' then
      (readAtoms s).map (Atom.plus c :: ·)
    else
      (readAtoms (d :: s)).map (Atom.one c :: ·)

def readRow : List α → Option (List (Atom α))
  | [] => none
  | c :: s => if c = chr '^' then readAtoms chr s else none

variable {chr} {atoms : List (Atom α)} {a : Atom α} {c d : α} {s : List α}

theorem readAtoms_one (hc : c ∉ metacharacters.map chr) (hd : d ≠ chr '+')
    : readAtoms chr (c :: d :: s) = (readAtoms chr (d :: s)).map (Atom.one c :: ·) := by
  have hescape : c ≠ chr '\\' := ne_of_not_mem_map (by decide) hc
  have hclass : c ≠ chr '[' := ne_of_not_mem_map (by decide) hc
  rw [readAtoms.eq_def]
  dsimp only
  rw [if_neg hescape, if_neg hclass, if_neg hc, if_neg hd]

theorem readAtoms_plus (hc : c ∉ metacharacters.map chr)
    : readAtoms chr (c :: chr '+' :: s) = (readAtoms chr s).map (Atom.plus c :: ·) := by
  have hescape : c ≠ chr '\\' := ne_of_not_mem_map (by decide) hc
  have hclass : c ≠ chr '[' := ne_of_not_mem_map (by decide) hc
  rw [readAtoms.eq_def]
  dsimp only
  rw [if_neg hescape, if_neg hclass, if_neg hc, if_pos rfl]

theorem readAtoms_escaped
    : readAtoms chr (chr '\\' :: c :: s) = (readAtoms chr s).map (Atom.escaped c :: ·) := by
  rw [readAtoms.eq_def]
  exact if_pos rfl

theorem readAtoms_runExcept (hclass : chr '[' ≠ chr '\\')
    : readAtoms chr (chr '[' :: chr '^' :: c :: chr ']' :: chr '*' :: s) =
        (readAtoms chr s).map (Atom.runExcept c :: ·) := by
  rw [readAtoms, if_neg hclass, if_pos rfl]
  exact if_pos ⟨rfl, rfl, rfl⟩

theorem readAtoms_text (hinj : ∀ m ∈ metacharacters, ∀ m' ∈ metacharacters, chr m = chr m' → m = m')
    (hplain : ∀ a ∈ atoms, a.Plain chr)
    : readAtoms chr (atoms.flatMap (Atom.text chr) ++ [chr '$']) = some atoms := by
  induction atoms with
  | nil => exact if_pos rfl
  | cons a atoms ih =>
    obtain ⟨ha, hrest⟩ := List.forall_mem_cons.mp hplain
    rw [List.flatMap_cons, List.append_assoc]
    cases a with
    | one c =>
      obtain ⟨d, s, hhead, hd⟩ := head_atoms_ne
        (fun m hm => hinj m hm '+' (by decide)) hrest
      have hread := ih hrest
      rw [hhead] at hread ⊢
      rw [Atom.text, List.singleton_append, readAtoms_one ha hd, hread]
      rfl
    | escaped c =>
      rw [Atom.text, List.cons_append, List.singleton_append, readAtoms_escaped, ih hrest]
      rfl
    | plus c =>
      rw [Atom.text, List.cons_append, List.singleton_append, readAtoms_plus ha, ih hrest]
      rfl
    | runExcept c =>
      have hclass : chr '[' ≠ chr '\\' := by
        intro heq
        exact absurd (hinj _ (by decide) _ (by decide) heq) (by decide)
      have hread := readAtoms_runExcept (c := c)
        (s := atoms.flatMap (Atom.text chr) ++ [chr '$']) hclass
      rw [ih hrest] at hread
      exact hread

theorem readRow_rowText (hinj : ∀ m ∈ metacharacters, ∀ m' ∈ metacharacters, chr m = chr m' → m = m')
    (hplain : ∀ a ∈ atoms, a.Plain chr)
    : readRow chr (rowText chr atoms) = some atoms := by
  have hread := readAtoms_text hinj hplain
  unfold rowText readRow
  exact (if_pos rfl).trans hread

end Read

end RegExp
