import SmartnicFw.SnP4.Client.TableRuleNumbers

/-!
This module contains when the client and the agent agree on the texts of a table rule: what the
client takes for a match or a parameter, the agent reads as the number that it is documented to be.
-/

namespace TableClient

open RegExp
open P4bm (P4bmError pyInt pyNat pyDigits digitsValue intMaxStrDigits)
open TableRules (Text Match ActionParameter TableRule TableRuleRequest ErrorCode)
open TableRules (tableRuleParseMatch tableRuleParseActionParameter uint16Max)

section Int

variable {u : Unicode} {s : Text}

def decValue (u : Unicode) (s : Text) : Nat :=
  s.foldl (fun n c => n * 10 + (u.decimal c).elim 0 Fin.val) 0

theorem pyDigits_decDigits (hs : ∀ c ∈ s, decDigit u c) {digits : List (Fin 10)}
    (hne : digits ≠ [] ∨ s ≠ [])
    : ∃ ds, pyDigits u.toUnicode digits s = some ds ∧ ds.length = digits.length + s.length ∧
        digitsValue ds =
          s.foldl (fun n c => n * 10 + (u.decimal c).elim 0 Fin.val) (digitsValue digits) := by
  induction s generalizing digits with
  | nil =>
    have hdigits : digits ≠ [] := by simpa using hne
    exact ⟨digits, by simp [pyDigits, hdigits], by simp, by simp⟩
  | cons c s ih =>
    have hc := hs c List.mem_cons_self
    obtain ⟨d, hd⟩ := Option.isSome_iff_exists.mp hc
    have hrest : ∀ c ∈ s, decDigit u c := fun c hc => hs c (List.mem_cons_of_mem _ hc)
    obtain ⟨ds, hds, hlen, hvalue⟩ := @ih hrest (d :: digits) (by simp)
    refine ⟨ds, ?_, ?_, ?_⟩
    . rw [pyDigits, hd]
      . exact hds
      . rintro _ _ rfl _
        have := u.decimal_isDigit '_' (by decide) hc
        contradiction
    . rw [hlen]
      simp
      omega
    . rw [hvalue, List.foldl_cons, hd]
      rfl

theorem strip_decDigits (hs : ∀ c ∈ s, decDigit u c) : Fields.strip P4bm.isspace s = s := by
  have hspace : ∀ c ∈ s, ¬ P4bm.isspace c := by
    intro c hc hspace
    have hdigit := hs c hc
    unfold decDigit at hdigit
    rw [u.decimal_space c hspace] at hdigit
    contradiction
  have hdrop : s.dropWhile P4bm.isspace = s := by
    cases s with
    | nil => rfl
    | cons c s => exact List.dropWhile_cons_of_neg (hspace c List.mem_cons_self)
  rw [Fields.strip, hdrop, List.rdropWhile_eq_self_iff]
  intro hne
  exact hspace _ (List.getLast_mem hne)

theorem pyInt_decDigits (hne : s ≠ []) (hs : ∀ c ∈ s, decDigit u c)
    : pyInt u.toUnicode s =
        if s.length ≤ intMaxStrDigits then .ok (decValue u s : Int) else .error .valueError := by
  obtain ⟨ds, hds, hlen, hvalue⟩ := @pyDigits_decDigits u s hs [] (Or.inr hne)
  rw [List.length_nil, Nat.zero_add] at hlen
  have hnat : pyNat u.toUnicode s =
      if s.length ≤ intMaxStrDigits then some (decValue u s) else none := by
    have hsum : digitsValue ds = decValue u s := hvalue
    simp only [pyNat, hds, Option.bind_eq_bind, Option.bind_some, hlen, hsum]
    by_cases hmax : s.length ≤ intMaxStrDigits
    . rw [if_neg (by omega), if_pos hmax]
    . rw [if_pos (by omega), if_neg hmax]
  have hsign : ∀ l : Char, l.toNat < 128 → ¬ l.isDigit → ∀ s', s ≠ l :: s' := by
    rintro l hascii hnot s' rfl
    exact hnot (u.decimal_isDigit l hascii (hs l List.mem_cons_self))
  unfold pyInt
  rw [strip_decDigits hs]
  split
  . next s' => exact absurd rfl (hsign '-' (by decide) (by decide) s')
  . next s' => exact absurd rfl (hsign '+' (by decide) (by decide) s')
  . rw [hnat]
    split
    . rfl
    . rfl

end Int

section Texts

-- The parts of a match text that the client has told apart
inductive Shape where
  | unused
  | keyOnly (key : Text)
  | keyMask (key mask : Text)
  | keyPrefix (key prefixLength : Text)
  | range (lower upper : Text)
  deriving DecidableEq, Repr

def shape (u : Unicode) (m : Text) : Option Shape :=
  if m = ['.'] then
    some .unused
  else
    match (matchKeyOnlyRe u).groups m with
    | some rm => some (.keyOnly (rm.get .key))
    | none =>
      match (matchKeyMaskRe u).groups m with
      | some rm => some (.keyMask (rm.get .key) (rm.get .mask))
      | none =>
        match (matchKeyPrefixRe u).groups m with
        | some rm => some (.keyPrefix (rm.get .key) (rm.get .prefixLength))
        | none =>
          (matchRangeRe u).groups m |>.map fun rm => .range (rm.get .lower) (rm.get .upper)

def Shape.message (u : Unicode) (s : Shape) : Except P4bmError Match :=
  match s with
  | .unused => .ok .unused
  | .keyOnly key => .ok (.keyOnly key)
  | .keyMask key mask => .ok (.keyMask key mask)
  | .keyPrefix key prefixLength => do
    let prefixLength ← intField u prefixLength
    return .keyPrefix key prefixLength
  | .range lower upper => do
    let lower ← intField u lower
    let upper ← intField u upper
    return .range lower upper

variable {u : Unicode} {t : Text}

theorem tableRuleMatch_of_shape {s : Shape} (h : shape u t = some s)
    : tableRuleMatch u t = s.message u := by
  unfold shape at h
  unfold tableRuleMatch
  split at h
  . next hdot =>
    cases h
    rw [if_pos hdot]
    rfl
  . next hdot =>
    rw [if_neg hdot]
    cases hkey : (matchKeyOnlyRe u).groups t with
    | some rm =>
      rw [hkey] at h
      cases h
      rfl
    | none =>
      rw [hkey] at h
      dsimp only at h ⊢
      cases hmask : (matchKeyMaskRe u).groups t with
      | some rm =>
        rw [hmask] at h
        cases h
        rfl
      | none =>
        rw [hmask] at h
        dsimp only at h ⊢
        cases hlead : (matchKeyPrefixRe u).groups t with
        | some rm =>
          rw [hlead] at h
          cases h
          rfl
        | none =>
          rw [hlead] at h
          dsimp only at h ⊢
          obtain ⟨rm, hrange, rfl⟩ := Option.map_eq_some_iff.mp h
          rw [hrange]
          rfl

def EndOfText (nl : Text) : Prop := nl = [] ∨ nl = ['\n']

-- How the text is made up of the parts
inductive Shape.Splits (u : Unicode) : Shape → Text → Prop where
  | unused : Splits u .unused ['.']
  | keyOnly (key nl : Text) (hkey : IsMpz u key) (hnl : EndOfText nl)
    : Splits u (.keyOnly key) (key ++ nl)
  | keyMask (key mask nl : Text) (hkey : IsMpz u key) (hmask : IsMpz u mask) (hnl : EndOfText nl)
    : Splits u (.keyMask key mask) (key ++ (['&', '&', '&'] ++ (mask ++ nl)))
  | keyPrefix (key len nl : Text) (hkey : IsMpz u key) (hne : len ≠ [])
    (hlen : ∀ c ∈ len, decDigit u c) (hnl : EndOfText nl)
    : Splits u (.keyPrefix key len) (key ++ (['/'] ++ (len ++ nl)))
  | range (lower upper nl : Text) (hlower : lower ≠ []) (hlow : ∀ c ∈ lower, decDigit u c)
    (hupper : upper ≠ []) (hup : ∀ c ∈ upper, decDigit u c) (hnl : EndOfText nl)
    : Splits u (.range lower upper) (lower ++ (['-', '>'] ++ (upper ++ nl)))

theorem parses_eos {caps caps' : Captures Char GroupName} {s rest : Text}
    (h : eos.Parses caps s caps' rest)
    : caps' = caps ∧ EndOfText s := by
  obtain ⟨rfl, _, hs⟩ := h
  refine ⟨rfl, ?_⟩
  rcases hs with rfl | ⟨c, hc, rfl⟩
  . exact Or.inl rfl
  . simp only [decide_eq_true_eq] at hc
    exact Or.inr (by rw [hc])

theorem parses_key {g : GroupName} {caps caps' : Captures Char GroupName} {s rest : Text}
    (h : (group g (mpzRe u)).Parses caps s caps' rest)
    : ∃ w, IsMpz u w ∧ s = w ++ rest ∧ caps' = (g, w) :: caps := by
  obtain ⟨_, h, rfl⟩ := h
  obtain ⟨rfl, w, hw, rfl⟩ := isMpz_of_parses h
  exact ⟨w, hw, rfl, by rw [consumed_append]⟩

theorem parses_length {g : GroupName} {caps caps' : Captures Char GroupName} {s rest : Text}
    (h : (group g (plus (decDigit u))).Parses caps s caps' rest)
    : ∃ w, w ≠ [] ∧ (∀ c ∈ w, decDigit u c) ∧ s = w ++ rest ∧ caps' = (g, w) :: caps := by
  obtain ⟨_, h, rfl⟩ := h
  obtain ⟨rfl, w, hne, hw, rfl⟩ := parses_plus_iff.mp h
  exact ⟨w, hne, hw, rfl, by rw [consumed_append]⟩

theorem splits_of_shape {s : Shape} (h : shape u t = some s) : s.Splits u t := by
  unfold shape at h
  split at h
  . next hdot =>
    cases h
    rw [hdot]
    exact .unused
  . split at h
    . next rm hgroups =>
      cases h
      obtain ⟨rest, hparses⟩ := exists_of_groups hgroups
      simp only [matchKeyOnlyRe, parses_concat_cons, parses_concat_nil] at hparses
      obtain ⟨_, s₁, hkey, _, _, hend, rfl, rfl⟩ := hparses
      obtain ⟨w, hw, rfl, rfl⟩ := parses_key hkey
      obtain ⟨rfl, hnl⟩ := parses_eos hend
      exact .keyOnly w s₁ hw hnl
    . split at h
      . next rm hgroups =>
        cases h
        obtain ⟨rest, hparses⟩ := exists_of_groups hgroups
        simp only [matchKeyMaskRe, parses_concat_cons, parses_concat_nil, parses_lit_iff] at hparses
        obtain ⟨_, _, hkey, _, _, ⟨rfl, rfl⟩, _, _, hmask, _, _, hend, rfl, rfl⟩ := hparses
        obtain ⟨w, hw, rfl, rfl⟩ := parses_key hkey
        obtain ⟨w', hw', rfl, rfl⟩ := parses_key hmask
        obtain ⟨rfl, hnl⟩ := parses_eos hend
        exact .keyMask w w' _ hw hw' hnl
      . split at h
        . next rm hgroups =>
          cases h
          obtain ⟨rest, hparses⟩ := exists_of_groups hgroups
          simp only [matchKeyPrefixRe, parses_concat_cons, parses_concat_nil, parses_lit_iff]
            at hparses
          obtain ⟨_, _, hkey, _, _, ⟨rfl, rfl⟩, _, _, hlen, _, _, hend, rfl, rfl⟩ := hparses
          obtain ⟨w, hw, rfl, rfl⟩ := parses_key hkey
          obtain ⟨len, hne, hdigits, rfl, rfl⟩ := parses_length hlen
          obtain ⟨rfl, hnl⟩ := parses_eos hend
          exact .keyPrefix w len _ hw hne hdigits hnl
        . obtain ⟨rm, hgroups, rfl⟩ := Option.map_eq_some_iff.mp h
          obtain ⟨rest, hparses⟩ := exists_of_groups hgroups
          simp only [matchRangeRe, parses_concat_cons, parses_concat_nil, parses_lit_iff] at hparses
          obtain ⟨_, _, hlow, _, _, ⟨rfl, rfl⟩, _, _, hup, _, _, hend, rfl, rfl⟩ := hparses
          obtain ⟨lower, hlower, hlow', rfl, rfl⟩ := parses_length hlow
          obtain ⟨upper, hupper, hup', rfl, rfl⟩ := parses_length hup
          obtain ⟨rfl, hnl⟩ := parses_eos hend
          exact .range lower upper _ hlower hlow' hupper hup' hnl

end Texts

section Agreement

variable {u : Unicode} {t : Text}

/--
The match that a text is documented to be. The end of the text may be a new line.
-/
inductive Reads (u : Unicode) : Text → SnMatch → Prop where
  | unused : Reads u ['.'] .unused
  | keyOnly (key nl : Text) (n : Nat) (hkey : Denotes key n) (hnl : EndOfText nl)
    : Reads u (key ++ nl) (.keyOnly n)
  | keyMask (key mask nl : Text) (n m : Nat) (hkey : Denotes key n) (hmask : Denotes mask m)
    (hnl : EndOfText nl)
    : Reads u (key ++ (['&', '&', '&'] ++ (mask ++ nl))) (.keyMask n m)
  | keyPrefix (key len nl : Text) (n : Nat) (prefixLen : UInt16) (hkey : Denotes key n)
    (hlen : ∀ c ∈ len, decDigit u c) (hvalue : prefixLen.toNat = decValue u len)
    (hnl : EndOfText nl)
    : Reads u (key ++ (['/'] ++ (len ++ nl))) (.keyPrefix n prefixLen)
  | range (lower upper nl : Text) (l r : UInt16) (hlow : ∀ c ∈ lower, decDigit u c)
    (hup : ∀ c ∈ upper, decDigit u c) (hl : l.toNat = decValue u lower)
    (hr : r.toNat = decValue u upper) (hnl : EndOfText nl)
    : Reads u (lower ++ (['-', '>'] ++ (upper ++ nl))) (.range l r)

-- The prefix length and the bounds of a range fit 16 bits
def Shape.Fits (u : Unicode) (s : Shape) : Prop :=
  match s with
  | .keyPrefix _ len => decValue u len < 2 ^ 16
  | .range lower upper => decValue u lower < 2 ^ 16 ∧ decValue u upper < 2 ^ 16
  | _ => True

-- A number is misread, or has more digits than `int` takes
def Shape.Faulty (s : Shape) : Prop :=
  match s with
  | .unused => False
  | .keyOnly key => Misread key
  | .keyMask key mask => Misread key ∨ Misread mask
  | .keyPrefix key len => Misread key ∨ intMaxStrDigits < len.length
  | .range lower upper => intMaxStrDigits < lower.length ∨ intMaxStrDigits < upper.length

theorem uint32Field_natCast {n : Nat} (h : n < 2 ^ 32)
    : uint32Field (n : Int) = .ok (UInt32.ofNat n) := by
  have hrange : (0 : Int) ≤ n ∧ (n : Int) < 2 ^ 32 := by omega
  unfold uint32Field
  rw [if_pos hrange, Int.toNat_natCast]

theorem intField_of_le {len : Text} (hne : len ≠ []) (hlen : ∀ c ∈ len, decDigit u c)
    (hfits : decValue u len < 2 ^ 16) (hle : len.length ≤ intMaxStrDigits)
    : intField u len = .ok (UInt32.ofNat (decValue u len)) := by
  have hint := pyInt_decDigits hne hlen
  rw [if_pos hle] at hint
  exact Except.bind_eq_ok_iff.mpr ⟨_, hint, uint32Field_natCast (by omega)⟩

theorem intField_of_lt {len : Text} (hne : len ≠ []) (hlen : ∀ c ∈ len, decDigit u c)
    (hlt : intMaxStrDigits < len.length)
    : intField u len = .error .valueError := by
  have hint := pyInt_decDigits hne hlen
  rw [if_neg (not_le.mpr hlt)] at hint
  exact Except.bind_eq_error_iff.mpr (Or.inl hint)

theorem uint16_of_fits {n : Nat} (h : n < 2 ^ 16)
    : ¬ UInt32.ofNat n > uint16Max ∧ (UInt32.ofNat n).toUInt16.toNat = n := by
  have hlt : n < UInt32.size := by
    simp only [UInt32.size]
    omega
  have hn : (UInt32.ofNat n).toNat = n := UInt32.toNat_ofNat_of_lt' hlt
  constructor
  . rw [gt_iff_lt, UInt32.lt_iff_toNat_lt, hn]
    have hmax : uint16Max.toNat = 65535 := by decide
    omega
  . rw [UInt32.toNat_toUInt16, hn]
    exact Nat.mod_eq_of_lt h

theorem IsMpz.exists_of_not_misread {w : Text} (hw : IsMpz u w) (h : ¬ Misread w)
    : ∃ n, Denotes w n ∧ mpzInitSetStr w = some (n : Mpz) := by
  obtain ⟨n, hn⟩ := hw.denotes h
  exact ⟨n, hn, hn.mpzInitSetStr_eq⟩

theorem Shape.Splits.reads {s : Shape} (h : s.Splits u t) (hfits : s.Fits u) (hgood : ¬ s.Faulty)
    : ∃ m sm, s.message u = .ok m ∧ tableRuleParseMatch m = .ok sm ∧ Reads u t sm := by
  cases h with
  | unused => exact ⟨.unused, .unused, rfl, rfl, .unused⟩
  | keyOnly key nl hkey hnl =>
    obtain ⟨n, hn, hinit⟩ := hkey.exists_of_not_misread hgood
    refine ⟨_, .keyOnly n, rfl, ?_, .keyOnly key nl n hn hnl⟩
    simp only [tableRuleParseMatch, hinit]
  | keyMask key mask nl hkey hmask hnl =>
    obtain ⟨hgoodKey, hgoodMask⟩ := not_or.mp hgood
    obtain ⟨n, hn, hinit⟩ := hkey.exists_of_not_misread hgoodKey
    obtain ⟨n', hn', hinit'⟩ := hmask.exists_of_not_misread hgoodMask
    refine ⟨_, .keyMask n n', rfl, ?_, .keyMask key mask nl n n' hn hn' hnl⟩
    simp only [tableRuleParseMatch, hinit, hinit']
  | keyPrefix key len nl hkey hne hlen hnl =>
    obtain ⟨hgoodKey, hgoodLen⟩ := not_or.mp hgood
    obtain ⟨n, hn, hinit⟩ := hkey.exists_of_not_misread hgoodKey
    obtain ⟨hle, hvalue⟩ := uint16_of_fits hfits
    have hfield := intField_of_le hne hlen hfits (not_lt.mp hgoodLen)
    refine ⟨.keyPrefix key (UInt32.ofNat (decValue u len)), .keyPrefix n _, ?_, ?_,
      .keyPrefix key len nl n _ hn hlen hvalue hnl⟩
    . simp only [Shape.message, hfield]
      rfl
    . simp only [tableRuleParseMatch, if_neg hle, hinit]
  | range lower upper nl hlower hlow hupper hup hnl =>
    obtain ⟨hgoodLower, hgoodUpper⟩ := not_or.mp hgood
    obtain ⟨hle, hvalue⟩ := uint16_of_fits hfits.1
    obtain ⟨hle', hvalue'⟩ := uint16_of_fits hfits.2
    have hfield := intField_of_le hlower hlow hfits.1 (not_lt.mp hgoodLower)
    have hfield' := intField_of_le hupper hup hfits.2 (not_lt.mp hgoodUpper)
    refine ⟨.range (UInt32.ofNat (decValue u lower)) (UInt32.ofNat (decValue u upper)),
      .range _ _, ?_, ?_, .range lower upper nl _ _ hlow hup hvalue hvalue' hnl⟩
    . simp only [Shape.message, hfield, hfield']
      rfl
    . simp only [tableRuleParseMatch, if_neg hle, if_neg hle']

theorem Shape.Splits.not_parsed {s : Shape} (h : s.Splits u t) (hfits : s.Fits u)
    (hfaulty : s.Faulty)
    : ¬ ∃ m sm, s.message u = .ok m ∧ tableRuleParseMatch m = .ok sm := by
  rintro ⟨m, sm, hmessage, hparse⟩
  cases h with
  | unused => exact hfaulty
  | keyOnly key nl hkey hnl =>
    cases hmessage
    simp only [tableRuleParseMatch, Misread.mpzInitSetStr_eq hkey hfaulty] at hparse
    contradiction
  | keyMask key mask nl hkey hmask hnl =>
    cases hmessage
    rcases hfaulty with hfaulty | hfaulty
    . simp only [tableRuleParseMatch, Misread.mpzInitSetStr_eq hkey hfaulty] at hparse
      contradiction
    . simp only [tableRuleParseMatch, Misread.mpzInitSetStr_eq hmask hfaulty] at hparse
      split at hparse <;> contradiction
  | keyPrefix key len nl hkey hne hlen hnl =>
    by_cases hle : len.length ≤ intMaxStrDigits
    . simp only [Shape.message, intField_of_le hne hlen hfits hle] at hmessage
      cases hmessage
      rcases hfaulty with hfaulty | hfaulty
      . simp only [tableRuleParseMatch, Misread.mpzInitSetStr_eq hkey hfaulty] at hparse
        split at hparse <;> contradiction
      . omega
    . simp only [Shape.message, intField_of_lt hne hlen (not_le.mp hle)] at hmessage
      contradiction
  | range lower upper nl hlower hlow hupper hup hnl =>
    by_cases hle : lower.length ≤ intMaxStrDigits
    . by_cases hle' : upper.length ≤ intMaxStrDigits
      . rcases hfaulty with hfaulty | hfaulty
        . omega
        . omega
      . simp only [Shape.message, intField_of_le hlower hlow hfits.1 hle,
          intField_of_lt hupper hup (not_le.mp hle')] at hmessage
        contradiction
    . simp only [Shape.message, intField_of_lt hlower hlow (not_le.mp hle)] at hmessage
      contradiction

/--
What the client takes for a match, the agent reads as the match that the text is documented to be.
-/
def MatchAgrees (u : Unicode) (t : Text) : Prop :=
  ∀ s, shape u t = some s → s.Fits u →
    ∃ m sm, tableRuleMatch u t = .ok m ∧ tableRuleParseMatch m = .ok sm ∧ Reads u t sm

theorem matchAgrees_iff
    : MatchAgrees u t ↔ ∀ s, shape u t = some s → s.Fits u → ¬ s.Faulty := by
  constructor
  . intro h s hs hfits hfaulty
    obtain ⟨m, sm, hmessage, hparse, _⟩ := h s hs hfits
    rw [tableRuleMatch_of_shape hs] at hmessage
    exact (splits_of_shape hs).not_parsed hfits hfaulty ⟨m, sm, hmessage, hparse⟩
  . intro h s hs hfits
    obtain ⟨m, sm, hmessage, hparse, hreads⟩ := (splits_of_shape hs).reads hfits (h s hs hfits)
    rw [← tableRuleMatch_of_shape hs] at hmessage
    exact ⟨m, sm, hmessage, hparse, hreads⟩

def ParamAgrees (u : Unicode) (t : Text) : Prop :=
  ((actionParamRe u).groups t).isSome →
    ∃ p n key nl, tableRuleParam u t = .ok p ∧
      tableRuleParseActionParameter p = .ok (.mpz (Int.ofNat n)) ∧
      t = key ++ nl ∧ Denotes key n ∧ EndOfText nl

theorem splits_of_actionParam (h : ((actionParamRe u).groups t).isSome)
    : ∃ key nl, IsMpz u key ∧ EndOfText nl ∧ t = key ++ nl ∧ t.takeWhile (· ≠ '\n') = key ∧
        mpzInitSetStr t = mpzInitSetStr key := by
  obtain ⟨rm, hgroups⟩ := Option.isSome_iff_exists.mp h
  obtain ⟨rest, hparses⟩ := exists_of_groups hgroups
  simp only [actionParamRe, parses_concat_cons, parses_concat_nil] at hparses
  obtain ⟨_, nl, hkey, _, _, hend, rfl, rfl⟩ := hparses
  obtain ⟨rfl, key, hmpz, rfl⟩ := isMpz_of_parses hkey
  obtain ⟨rfl, hnl⟩ := parses_eos hend
  have hline : ∀ c ∈ key, decide (c ≠ '\n') = true := by
    intro c hc
    rw [decide_eq_true_eq]
    rintro rfl
    have := (hmpz.isPlain '\n' hc).2.1
    contradiction
  refine ⟨key, nl, hmpz, hnl, rfl, ?_, ?_⟩
  . rw [List.takeWhile_append_of_pos hline]
    rcases hnl with rfl | rfl
    . simp
    . simp
  . rcases hnl with rfl | rfl
    . rw [List.append_nil]
    . exact MpzText.mpzInitSetStr_append_newline hmpz.isPlain

theorem paramAgrees_iff
    : ParamAgrees u t ↔
        (((actionParamRe u).groups t).isSome → ¬ Misread (t.takeWhile (· ≠ '\n'))) := by
  unfold ParamAgrees
  apply forall_congr'
  intro haccepted
  obtain ⟨rm, hgroups⟩ := Option.isSome_iff_exists.mp haccepted
  have hparam : tableRuleParam u t = .ok { value := t } := by
    unfold tableRuleParam
    rw [hgroups]
  obtain ⟨key, nl, hkey, hnl, ht, htake, hinit⟩ := splits_of_actionParam haccepted
  rw [htake]
  constructor
  . rintro ⟨p, n, _, _, hp, hparse, _⟩ hmisread
    rw [hparam] at hp
    cases hp
    simp only [tableRuleParseActionParameter, hinit, hmisread.mpzInitSetStr_eq hkey] at hparse
    contradiction
  . intro hgood
    obtain ⟨n, hn, hvalue⟩ := hkey.exists_of_not_misread hgood
    refine ⟨{ value := t }, n, key, nl, hparam, ?_, ht, hn, hnl⟩
    simp only [tableRuleParseActionParameter, hinit, hvalue]
    rfl

-- The request has the messages of the texts, in their order
theorem tableRuleReq_rules {kargs : Kargs} {req : TableRuleRequest}
    (h : tableRuleReq u kargs = .ok req)
    : ∃ rule, req.rules = [rule] ∧
        List.Forall₂ (fun t m => tableRuleMatch u t = .ok m) kargs.matchList rule.matchList ∧
        (kargs.actionName ≠ none → List.Forall₂ (fun t p => tableRuleParam u t = .ok p)
          (kargs.actionParams.getD []) rule.action.parameters) := by
  obtain ⟨priority, _, h⟩ := Except.bind_eq_ok_iff.mp h
  obtain ⟨ms, hms, h⟩ := Except.bind_eq_ok_iff.mp h
  obtain ⟨action, haction, h⟩ := Except.bind_eq_ok_iff.mp h
  obtain ⟨devId, _, h⟩ := Except.bind_eq_ok_iff.mp h
  obtain ⟨pipelineId, _, h⟩ := Except.bind_eq_ok_iff.mp h
  cases h
  refine ⟨_, rfl, Except.forall₂_of_mapM_eq_ok hms, ?_⟩
  intro hname
  obtain ⟨name, hname⟩ := Option.ne_none_iff_exists'.mp hname
  unfold tableRuleAction at haction
  rw [hname] at haction
  obtain ⟨ps, hps, haction⟩ := Except.bind_eq_ok_iff.mp haction
  cases haction
  exact Except.forall₂_of_mapM_eq_ok hps

end Agreement

theorem numberTexts_agree_iff (u : Unicode)
    : (∀ t, MatchAgrees u t ↔ ∀ s, shape u t = some s → s.Fits u → ¬ s.Faulty) ∧
      (∀ t, ParamAgrees u t ↔
        (((actionParamRe u).groups t).isSome → ¬ Misread (t.takeWhile (· ≠ '\n')))) ∧
      ∀ kargs req, tableRuleReq u kargs = .ok req →
        ∃ rule, req.rules = [rule] ∧
          List.Forall₂ (fun t m => tableRuleMatch u t = .ok m) kargs.matchList rule.matchList ∧
          (kargs.actionName ≠ none → List.Forall₂ (fun t p => tableRuleParam u t = .ok p)
            (kargs.actionParams.getD []) rule.action.parameters) :=
  ⟨fun _ => matchAgrees_iff, fun _ => paramAgrees_iff, fun _ _ h => tableRuleReq_rules h⟩

def Unicode.ascii : Unicode where
  toUnicode := P4bm.Unicode.ascii
  decimal_isDigit := by
    intro c _ h
    simp only [P4bm.Unicode.ascii] at h
    split at h
    . next hdigit => exact hdigit
    . contradiction
  decimal_space := by
    intro c hspace
    simp only [P4bm.Unicode.ascii]
    rw [if_neg]
    intro hdigit
    have hrange := (MpzText.isDigit_iff 10 c).mp (MpzText.isDigit_ten_iff.mpr hdigit)
    simp only [P4bm.isspace, decide_eq_true_eq] at hspace
    omega

-- The client takes `08` for a decimal number, to the agent it starts like an octal one
theorem not_agrees_leadingZero
    : ¬ MatchAgrees Unicode.ascii ['0', '8'] ∧ ¬ ParamAgrees Unicode.ascii ['0', '8'] := by
  constructor
  . intro h
    obtain ⟨m, sm, hmessage, hparse, _⟩ := h (.keyOnly ['0', '8']) (by decide +kernel) trivial
    have hmatch : tableRuleMatch Unicode.ascii ['0', '8'] = .ok (.keyOnly ['0', '8']) := by decide +kernel
    have hrefused : tableRuleParseMatch (.keyOnly ['0', '8'])
        = .error .EC_TABLE_RULE_MATCH_INVALID_KEY_FORMAT := by decide +kernel
    rw [hmatch] at hmessage
    cases hmessage
    rw [hrefused] at hparse
    cases hparse
  . intro h
    obtain ⟨p, n, _, _, hparam, hparse, _⟩ := h (by decide +kernel)
    have htext : tableRuleParam Unicode.ascii ['0', '8'] = .ok { value := ['0', '8'] } := by decide +kernel
    have hrefused : tableRuleParseActionParameter { value := ['0', '8'] }
        = .error .EC_TABLE_RULE_INVALID_ACTION_PARAMETER_FORMAT := by decide +kernel
    rw [htext] at hparam
    cases hparam
    rw [hrefused] at hparse
    cases hparse

end TableClient
