import SmartnicFw.Lib.Glob
import SmartnicFw.Lib.SplitOn
import SmartnicFw.SnCfg.Client.StatsView
import SmartnicFw.SnP4.Agent.MatchString

/-!
This module contains the filters for views (`ViewFilter` of `stats.py`): the regular expressions that
they are converted to, and what these match for the client and for the agent.
-/

namespace ViewFilter

open P4bm (Text)
open StatsView (replace)
open Utf8 (encode)

def nfields : Nat := 3

def fieldGlobRe : Text := ['[', '^', ':', ']', '*']

-- View fields are matched by regular expression, so special characters need to be escaped
def fixupField (field : Text) : Text :=
  replace ['*'] fieldGlobRe 0 (replace ['.'] ['\\', '.'] 0 field)

def convert (value : Text) : Except String Text :=
  let fields := (value.splitOn ':').map fixupField
  if fields = [[]] then
    .error "Empty view specification filter."
  else if nfields < fields.length then
    .error ("Too many fields in view specification filter \"" ++ String.ofList value ++
      "\". Expected no more than 3 fields.")
  else
    let fields := fields ++ List.replicate (nfields - fields.length) fieldGlobRe
    .ok ('^' :: [':'].intercalate fields ++ ['$'])

-- The fields of a filter, with a star for each one that is missing
def fieldsOf (value : Text) : List Text :=
  let fields := value.splitOn ':'
  fields ++ List.replicate (nfields - fields.length) ['*']

-- A spec is matched field by field
def FilterMatches (value viewSpec : Text) : Prop :=
  Glob.FieldsMatch '*' ':' (fieldsOf value) viewSpec

-- The same for the bytes of a spec
def FilterMatchesBytes (value : Text) (viewSpec : List UInt8) : Prop :=
  Glob.FieldsMatch (Glob.byte '*') (Glob.byte ':') ((fieldsOf value).map encode) viewSpec

-- The glob for all fields at once
def joined (value : Text) : Text := [':'].intercalate (fieldsOf value)

section Convert

def escape (c : Char) : Text := (Glob.atom id ':' c).text id

theorem replace_singleton (a : Char) (new s : Text)
    : replace [a] new 0 s = s.flatMap fun c => if c = a then new else [c] := by
  induction s with
  | nil => rfl
  | cons c s ih =>
    rw [replace, List.flatMap_cons]
    by_cases hc : c = a
    . subst hc
      simp [ih]
    . have hbeq : (a == c) = false := beq_eq_false_iff_ne.mpr (Ne.symm hc)
      simp [hc, hbeq, ih, List.isPrefixOf]

theorem fixupField_eq (field : Text) : fixupField field = field.flatMap escape := by
  unfold fixupField
  rw [replace_singleton, replace_singleton, List.flatMap_assoc]
  apply List.flatMap_congr
  intro c _
  unfold escape Glob.atom
  by_cases hdot : c = '.'
  . subst hdot
    decide
  . by_cases hstar : c = '*'
    . subst hstar
      decide
    . simp [hdot, hstar, RegExp.Atom.text]

variable {value pattern : Text}

theorem convert_ok (h : convert value = .ok pattern)
    : (fieldsOf value).length = nfields ∧
        pattern = RegExp.rowText id ((joined value).map (Glob.atom id ':')) := by
  unfold convert at h
  dsimp only at h
  split at h
  . cases h
  . split at h
    . cases h
    . next hle =>
      cases h
      rw [List.length_map] at hle ⊢
      constructor
      . rw [fieldsOf, List.length_append, List.length_replicate]
        omega
      . have hfields : (value.splitOn ':').map fixupField ++
            List.replicate (nfields - (value.splitOn ':').length) fieldGlobRe =
              (fieldsOf value).map fun f => f.flatMap escape := by
          rw [fieldsOf, List.map_append, List.map_replicate]
          congr 1
          apply List.map_congr_left
          intro f _
          exact fixupField_eq f
        have hsep : escape ':' = [':'] := by decide
        rw [hfields, ← SplitOn.flatMap_intercalate hsep, RegExp.rowText, List.flatMap_map]
        rfl

end Convert

section Fields

variable {value : Text}

theorem sep_not_mem_fieldsOf {f : Text} (hf : f ∈ fieldsOf value) : ':' ∉ f := by
  intro hc
  rw [fieldsOf, List.mem_append] at hf
  rcases hf with hf | hf
  . exact (SplitOn.mem_of_mem_splitOn hf hc).2 rfl
  . obtain rfl := List.eq_of_mem_replicate hf
    exact absurd hc (by decide)

theorem ordinary_joined (h : Glob.Ordinary id value) : Glob.Ordinary id (joined value) := by
  intro c hc hmeta
  rcases SplitOn.mem_intercalate hc with hc | ⟨f, hf, hc⟩
  . rw [List.mem_singleton.mp hc] at hmeta
    exact absurd hmeta (by decide)
  . rw [fieldsOf, List.mem_append] at hf
    rcases hf with hf | hf
    . exact h c (SplitOn.mem_of_mem_splitOn hf hc).1 hmeta
    . obtain rfl := List.eq_of_mem_replicate hf
      exact .inr (List.mem_singleton.mp hc)

theorem fieldsOf_ne_nil (value : Text) : fieldsOf value ≠ [] := by
  unfold fieldsOf
  intro h
  exact List.splitOn_ne_nil ':' value (List.append_eq_nil_iff.mp h).1

theorem matches_joined_iff (value viewSpec : Text)
    : Glob.Matches '*' ':' (joined value) viewSpec ↔ FilterMatches value viewSpec := by
  exact Glob.matches_intercalate_iff (by decide) (fieldsOf_ne_nil value)
    fun _ hf => sep_not_mem_fieldsOf hf

theorem matches_encode_joined_iff (value : Text) (viewSpec : List UInt8)
    : Glob.Matches (Glob.byte '*') (Glob.byte ':') (encode (joined value)) viewSpec ↔
        FilterMatchesBytes value viewSpec := by
  unfold joined
  rw [SplitOn.encode_intercalate (by decide)]
  apply Glob.matches_intercalate_iff (by decide)
  . intro h
    exact fieldsOf_ne_nil value (List.map_eq_nil_iff.mp h)
  . intro f hf
    obtain ⟨f', hf', rfl⟩ := List.mem_map.mp hf
    exact Utf8.ofNat_not_mem_encode (by decide) (sep_not_mem_fieldsOf hf')

-- The bytes of a text are matched like its characters
theorem filterMatchesBytes_encode_iff (value viewSpec : Text)
    : FilterMatchesBytes value (encode viewSpec) ↔ FilterMatches value viewSpec := by
  rw [← matches_encode_joined_iff, ← matches_joined_iff]
  constructor
  . exact Glob.matches_of_encode (by decide) (by decide)
  . exact Glob.matches_encode (by decide) (by decide)

end Fields

-- What the two engines do with a row of atoms
section Engines

-- `re.compile` and the `match` of what it returns
structure Re where
  compile : Text → Option (Text → Bool)

def newline (c : Char) : Bool := c = '\n'

-- The end of a pattern is matched in front of a newline at the end of a text, too
structure Re.Follows (py : Re) : Prop where
  compile_rowText : ∀ atoms, (∀ a ∈ atoms, a.Plain id) → ∃ m,
    py.compile (RegExp.rowText id atoms) = some m ∧
      ∀ s, m s = ((RegExp.row newline atoms).groups s).isSome

-- A part that is empty is left out at the end, unless there is no other
def tokens (s : List UInt8) : List (List UInt8) :=
  let parts := s.splitOn (Glob.byte ',')
  if s ≠ [] ∧ parts.getLast? = some [] then parts.dropLast else parts

structure AgentFollows (re : Regex) : Prop where
  regexMatch_rowText : ∀ atoms, (∀ a ∈ atoms, a.Plain Glob.byte) → ∀ s,
    re.regexMatch (RegExp.rowText Glob.byte atoms) .ecmaScript s =
      ((RegExp.row (fun _ => false) atoms).groups s).isSome
  split_comma : ∀ s, re.split (encode [',']) s = tokens s

variable {py : Re} {re : Regex} {value pattern : Text}

theorem compile_convert (hpy : py.Follows) (hvalue : Glob.Ordinary id value)
    (h : convert value = .ok pattern)
    : ∃ m, py.compile pattern = some m ∧ ∀ s, m s = true ↔
        FilterMatches value s ∨ ∃ t, s = t ++ ['\n'] ∧ FilterMatches value t := by
  obtain ⟨-, rfl⟩ := convert_ok h
  have hsep : ':' ∉ RegExp.metacharacters.map id := by decide
  obtain ⟨m, hm, hgroups⟩ := hpy.compile_rowText _
    (Glob.plain_atoms hsep (ordinary_joined hvalue))
  refine ⟨m, hm, ?_⟩
  intro s
  rw [hgroups, Glob.row_atoms (by decide), Glob.isSome_groups_full_iff]
  simp only [id_eq, matches_joined_iff, newline, decide_eq_true_eq]
  apply or_congr_right
  constructor
  . rintro ⟨t, c, rfl, rfl, ht⟩
    exact ⟨t, rfl, ht⟩
  . rintro ⟨t, rfl, ht⟩
    exact ⟨t, '\n', rfl, rfl, ht⟩

theorem regexMatch_convert (hre : AgentFollows re) (hvalue : Glob.Ordinary id value)
    (h : convert value = .ok pattern) (s : List UInt8)
    : re.regexMatch (encode pattern) .ecmaScript s = true ↔ FilterMatchesBytes value s := by
  obtain ⟨-, rfl⟩ := convert_ok h
  have hsep : Glob.byte ':' ∉ RegExp.metacharacters.map Glob.byte := by decide
  rw [Glob.encode_rowText, hre.regexMatch_rowText _
    (Glob.plain_atoms hsep (Glob.ordinary_encode (ordinary_joined hvalue))), Glob.row_atoms (by decide), Glob.isSome_groups_full_iff, matches_encode_joined_iff]
  apply or_iff_left
  rintro ⟨t, c, hc, -⟩
  cases hc

-- Engines that know rows of atoms only
def rowRe : Re where
  compile pattern := (RegExp.readRow id pattern).map fun atoms s =>
    ((RegExp.row newline atoms).groups s).isSome

def rowRegex : Regex where
  regexMatch pattern _ s :=
    ((RegExp.readRow Glob.byte pattern).bind fun atoms =>
      (RegExp.row (fun _ => false) atoms).groups s).isSome
  split _ s := tokens s

theorem rowRe_follows : rowRe.Follows := by
  constructor
  intro atoms hplain
  have hinj : ∀ m ∈ RegExp.metacharacters, ∀ m' ∈ RegExp.metacharacters, id m = id m' → m = m' :=
    fun _ _ _ _ heq => heq
  refine ⟨fun s => ((RegExp.row newline atoms).groups s).isSome, ?_, fun _ => rfl⟩
  unfold rowRe
  dsimp only
  rw [RegExp.readRow_rowText hinj hplain]
  rfl

theorem rowRegex_follows : AgentFollows rowRegex := by
  have hinj : ∀ m ∈ RegExp.metacharacters, ∀ m' ∈ RegExp.metacharacters,
      Glob.byte m = Glob.byte m' → m = m' := fun m hm m' hm' heq =>
    (Utf8.ofNat_inj (Glob.toNat_lt_of_mem m hm) (Glob.toNat_lt_of_mem m' hm')).mp heq
  constructor
  . intro atoms hplain s
    unfold rowRegex
    dsimp only
    rw [RegExp.readRow_rowText hinj hplain]
    rfl
  . intro s
    rfl

end Engines

end ViewFilter
