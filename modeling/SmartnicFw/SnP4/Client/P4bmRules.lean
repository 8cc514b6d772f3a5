import SmartnicFw.SnP4.Client.P4bmRender

/-!
This module contains the round trip of the rules in behaviour-model files: a rule that is written as a
line is read back from it.
-/

namespace P4bm

open Fields RegExp

def Serves {u : Unicode} (info : Pipeline) (rule : RuleText u) : Prop :=
  ∃ tableInfo actionInfo, info.tables.find? (·.name = rule.tableName) = some tableInfo
    ∧ tableInfo.numMatches = rule.matchTexts.length
    ∧ tableInfo.actions.find? (·.name = rule.actionName) = some actionInfo
    ∧ actionInfo.numParameters = rule.actionParams.length

def RoundTrips {u : Unicode} (p4bmFile : Text) (info : Pipeline) (rule : RuleText u) : Prop :=
  ∃ op, parseP4bm u p4bmFile = .ok [op]
    ∧ op.call u info = .ok (.insertTableRule info.devId info.pipelineId rule.tableRule)

structure ReadsBack {u : Unicode} (rule : RuleText u) (layout : Layout) : Prop where
  hasTail : rule.tail ≠ []
  unmistakable : Unmistakable rule.tail layout.LeavesSpace
  fewDigits : ∀ n ∈ rule.priority, (Nat.toDigits 10 n).length ≤ intMaxStrDigits

section Priority

variable {u : Unicode}

theorem pyDigits_digits {s : Text} (hs : ∀ c ∈ s, c.isDigit) {digits : List (Fin 10)}
    (hne : digits ≠ [] ∨ s ≠ [])
    : ∃ ds, pyDigits u digits s = some ds ∧ ds.length = digits.length + s.length
        ∧ digitsValue ds = Nat.ofDigitChars 10 s (digitsValue digits) := by
  induction s generalizing digits with
  | nil =>
    have hdigits : digits ≠ [] := by simpa using hne
    exact ⟨digits, by simp [pyDigits, hdigits], by simp, by simp⟩
  | cons c s ih =>
    obtain ⟨d, hd, hval⟩ := decimal_of_isDigit (u := u) (hs c (by simp))
    obtain ⟨ds, hds, hlen, hvalue⟩ := @ih (fun c hc => hs c (by simp [hc])) (d :: digits) (by simp)
    refine ⟨ds, ?_, ?_, ?_⟩
    . rw [pyDigits, hd]
      . exact hds
      . intro _ _ hc _
        exact (ne_of_isDigit (hs c (by simp))).1 hc
    . rw [hlen]
      simp
      omega
    . rw [hvalue, Nat.ofDigitChars_cons, ← hval]
      congr 1
      simp [digitsValue, Nat.mul_comm]

theorem strip_digits {s : Text} (hs : ∀ c ∈ s, c.isDigit) : strip isspace s = s := by
  have hspace : ∀ c ∈ s, ¬ isspace c := fun c hc => (ne_of_isDigit (hs c hc)).2.2.2
  have hdrop : s.dropWhile isspace = s := by
    cases s with
    | nil => rfl
    | cons c s => exact List.dropWhile_cons_of_neg (hspace c (by simp))
  rw [strip, hdrop, List.rdropWhile_eq_self_iff]
  intro hne
  exact hspace _ (List.getLast_mem hne)

theorem pyInt_toDigits (n : Nat)
    : pyInt u (Nat.toDigits 10 n)
        = if (Nat.toDigits 10 n).length ≤ intMaxStrDigits then .ok (n : Int) else .error .valueError := by
  have hs : ∀ c ∈ Nat.toDigits 10 n, c.isDigit := by
    intro c hc
    exact Nat.isDigit_of_mem_toDigits (by omega) (by omega) hc
  obtain ⟨ds, hds, hlen, hvalue⟩ := @pyDigits_digits u _ hs [] (.inr Nat.toDigits_ne_nil)
  have hn : digitsValue ds = n := hvalue.trans Nat.ofDigitChars_ten_toDigits
  have hnat : pyNat u (Nat.toDigits 10 n)
      = if (Nat.toDigits 10 n).length ≤ intMaxStrDigits then some n else none := by
    rw [List.length_nil, Nat.zero_add] at hlen
    simp only [pyNat, hds, Option.bind_eq_bind, Option.bind_some, hlen, hn]
    by_cases hmax : (Nat.toDigits 10 n).length ≤ intMaxStrDigits
    . rw [if_neg (by omega), if_pos hmax]
    . rw [if_pos (by omega), if_neg hmax]
  obtain ⟨c, s, hcons⟩ := List.exists_cons_of_ne_nil (Nat.toDigits_ne_nil (n := n) (b := 10))
  obtain ⟨_, hminus, hplus, _⟩ := ne_of_isDigit (hs c (by simp [hcons]))
  unfold pyInt
  rw [strip_digits hs]
  rw [hcons] at hnat ⊢
  split
  . next h => exact absurd (List.cons.inj h).1 hminus
  . next h => exact absurd (List.cons.inj h).1 hplus
  . rw [hnat]
    split
    . rfl
    . rfl

end Priority

section Finalize

variable {u : Unicode} {rule : RuleText u} {info : Pipeline}

theorem parseFinalize_iff (hserves : Serves info rule) {lineno : Nat} {ms ps : List Text}
    {result : List Text × Option Int}
    : P4bmTableAdd.parseFinalize u lineno rule.tableName rule.actionName ms ps info = .ok result
        ↔ ms.length = rule.matchTexts.length
          ∧ ((ps.length = rule.actionParams.length ∧ result = (ps, none))
            ∨ (ps.length = rule.actionParams.length + 1
              ∧ ∃ priority, pyInt u (ps.getLastD []) = .ok priority
                ∧ result = (ps.dropLast, some priority))) := by
  obtain ⟨tableInfo, actionInfo, htable, hmatches, haction, hparams⟩ := hserves
  unfold P4bmTableAdd.parseFinalize
  simp only [htable, haction, hmatches, hparams]
  by_cases hlen : ms.length = rule.matchTexts.length
  . rw [if_neg (by simpa using hlen)]
    by_cases hgt : ps.length > rule.actionParams.length
    . rw [if_pos hgt]
      cases hint : pyInt u (ps.getLastD []) with
      | error e =>
        simp [bind, Except.bind, hlen]
        omega
      | ok priority =>
        have hdrop : ps.dropLast.length = ps.length - 1 := List.length_dropLast
        by_cases hexact : ps.length = rule.actionParams.length + 1
        . simp [bind, Except.bind, hlen, hexact, eq_comm]
        . have hne : ps.length - 1 ≠ rule.actionParams.length := by omega
          have hne' : ps.length ≠ rule.actionParams.length := by omega
          simp [bind, Except.bind, hexact, hne, hne']
    . rw [if_neg hgt]
      have hne : ps.length ≠ rule.actionParams.length + 1 := by omega
      by_cases hexact : ps.length = rule.actionParams.length
      . simp [bind, Except.bind, hlen, hexact, eq_comm]
      . simp [bind, Except.bind, hexact, hne]
  . simp [hlen]

theorem call_eq_iff {lineno : Nat} {table action : Text} {ms ps : List Text}
    : (P4bmOp.tableAdd lineno table action ms ps).call u info
          = .ok (.insertTableRule info.devId info.pipelineId rule.tableRule)
        ↔ table = rule.tableName ∧ action = rule.actionName ∧ ms = rule.matchTexts
          ∧ P4bmTableAdd.parseFinalize u lineno table action ms ps info
            = .ok (rule.actionParams, rule.priority.map Int.ofNat) := by
  unfold P4bmOp.call
  cases hparse : P4bmTableAdd.parseFinalize u lineno table action ms ps info with
  | error e => simp [hparse, bind, Except.bind]
  | ok result =>
    simp [hparse, bind, Except.bind, RuleText.tableRule]
    grind

end Finalize

section Parse

variable {u : Unicode} {rule : RuleText u} {layout : Layout}

theorem parseP4bm_render (hfits : layout.Fits rule.tokens)
    : parseP4bm u (layout.render rule.tokens)
        = (P4bmTableAdd.parseInit u 1 (arguments u (layout.render rule.tokens))).map fun op => [op] := by
  have hlines := fileLines_render hfits (by simp [RuleText.tokens]) (isToken_of_mem_tokens rule)
  have hnewline := not_mem_strip_fileLines (layout.render rule.tokens) (layout.render rule.tokens)
    (by simp [hlines])
  unfold parseP4bm
  rw [hlines, parseLines, parseLine_eq hnewline, (arguments_render hfits).1]
  cases h : P4bmTableAdd.parseInit u 1 (arguments u (layout.render rule.tokens)) with
  | error e => simp [p4bmOps_tableAdd, h, Except.map, bind, Except.bind]
  | ok op => simp [p4bmOps_tableAdd, h, Except.map, bind, Except.bind, parseLines]

theorem parseInit_eq_ok {lineno : Nat} {args : Text} {op : P4bmOp}
    (h : P4bmTableAdd.parseInit u lineno args = .ok op)
    : ∃ table action ms ps, op = .tableAdd lineno table action ms (splitRuns isspace ps) := by
  unfold P4bmTableAdd.parseInit at h
  split at h
  . contradiction
  . cases h
    exact ⟨_, _, _, _, rfl⟩

-- With a tail, the line is read, and cut where the last arrow can be taken for the separator
theorem parseInit_cutAt {args : Text} (hargs : IsArguments rule layout args) (hnl : '\n' ∉ args)
    (htail : rule.tail ≠ [])
    : ∃ body v y, CutAt body v y ∧ words isspace body = rule.matchTexts ++ arrow :: rule.tail
        ∧ (EndsInSpace body ↔ layout.LeavesSpace)
        ∧ P4bmTableAdd.parseInit u 1 args
          = .ok (.tableAdd 1 rule.tableName rule.actionName (words isspace v)
              (splitRuns isspace (strip isspace y))) := by
  obtain ⟨skipped, body, rfl, hhead, hbody, hgroups⟩ := argsRe_groups hargs.head hargs.words (by simp)
    rule.isTableName.word rule.isActionName.word
  have hbodyNl : '\n' ∉ body := fun hmem => hnl (by simp [hmem])
  have hbodyNe : body ≠ [] := by
    rintro rfl
    simp at hbody
  obtain ⟨v', w', y', hsplit, hne, hsep, _⟩ := exists_separator_of_words hbody rule.hasMatches
    fun hnil => absurd hnil htail
  obtain ⟨x, hx⟩ := @exists_bodyRe [("action", rule.actionName), ("table", rule.tableName)] _ _ _ _
    hbodyNl hsplit hne hsep
  obtain ⟨v, y, hcut, rfl⟩ := cutAt_of_bodyRe hbodyNl hx
  refine ⟨body, v, y, hcut, hbody, ?_, ?_⟩
  . rw [← hargs.endsInSpace, endsInSpace_append hbodyNe]
  . have hv : words isspace v ≠ [] := by
      obtain ⟨c, v, rfl⟩ := List.exists_cons_of_ne_nil hcut.nonempty
      obtain ⟨w, hbody', _⟩ := hcut.separator
      have hc : ¬ isspace c := hhead c (by simp [hbody'])
      rw [words_cons_of_not hc]
      simp
    rw [← splitRuns_strip hv, ← strip_dropWhile y]
    unfold P4bmTableAdd.parseInit
    rw [hgroups _ hx]
    rfl

theorem not_mem_arguments {line : Text} (h : '\n' ∉ strip isspace line) : '\n' ∉ arguments u line :=
  not_mem_dropWhile (not_mem_dropWhile (not_mem_takeWhile h))

end Parse

section RoundTrip

variable {u : Unicode} {rule : RuleText u} {layout : Layout} {info : Pipeline}

theorem roundTrips_iff_parseInit (hfits : layout.Fits rule.tokens)
    : RoundTrips (layout.render rule.tokens) info rule
        ↔ ∃ op, P4bmTableAdd.parseInit u 1 (arguments u (layout.render rule.tokens)) = .ok op
          ∧ op.call u info = .ok (.insertTableRule info.devId info.pipelineId rule.tableRule) := by
  unfold RoundTrips
  rw [parseP4bm_render hfits]
  cases P4bmTableAdd.parseInit u 1 (arguments u (layout.render rule.tokens)) with
  | error e => simp [Except.map]
  | ok op => simp [Except.map]

theorem tail_eq_nil_iff : rule.tail = [] ↔ rule.actionParams = [] ∧ rule.priority = none := by
  simp [RuleText.tail]

-- An empty list of parameters is read as one empty parameter, and that as the priority
theorem not_call_of_tail_eq_nil (hserves : Serves info rule) (htail : rule.tail = []) {lineno : Nat}
    {table action ps : Text} {ms : List Text}
    : (P4bmOp.tableAdd lineno table action ms (splitRuns isspace ps)).call u info
        ≠ .ok (.insertTableRule info.devId info.pipelineId rule.tableRule) := by
  obtain ⟨hparams, hpriority⟩ := tail_eq_nil_iff.mp htail
  intro hcall
  obtain ⟨rfl, rfl, rfl, hfinalize⟩ := call_eq_iff.mp hcall
  obtain ⟨_, ⟨hlen, _⟩ | ⟨_, _, _, heq⟩⟩ := (parseFinalize_iff hserves).mp hfinalize
  . rw [hparams, List.length_nil, List.length_eq_zero_iff] at hlen
    exact splitRuns_ne_nil ps hlen
  . simp [hpriority] at heq

theorem call_tail_iff (hserves : Serves info rule) {lineno : Nat}
    : (P4bmOp.tableAdd lineno rule.tableName rule.actionName rule.matchTexts rule.tail).call u info
          = .ok (.insertTableRule info.devId info.pipelineId rule.tableRule)
        ↔ ∀ n ∈ rule.priority, (Nat.toDigits 10 n).length ≤ intMaxStrDigits := by
  simp only [call_eq_iff, true_and, parseFinalize_iff hserves, RuleText.tail]
  cases hpriority : rule.priority with
  | none => simp
  | some n => simp [pyInt_toDigits]

theorem roundTrips_iff (hserves : Serves info rule) (hfits : layout.Fits rule.tokens)
    : RoundTrips (layout.render rule.tokens) info rule ↔ ReadsBack rule layout := by
  rw [roundTrips_iff_parseInit hfits]
  have hargs := (arguments_render hfits).2
  have hnl : '\n' ∉ arguments u (layout.render rule.tokens) := by
    apply not_mem_arguments
    apply not_mem_strip_fileLines (layout.render rule.tokens)
    rw [fileLines_render hfits (by simp [RuleText.tokens]) (isToken_of_mem_tokens rule)]
    simp
  by_cases htail : rule.tail = []
  . constructor
    . rintro ⟨op, hparse, hcall⟩
      obtain ⟨table, action, ms, ps, rfl⟩ := parseInit_eq_ok hparse
      exact absurd hcall (not_call_of_tail_eq_nil hserves htail)
    . intro hreads
      exact absurd htail hreads.hasTail
  . obtain ⟨body, v, y, hcut, hwords, hspace, hparse⟩ := parseInit_cutAt hargs hnl htail
    have hcutIff := cutAt_iff hwords rule.hasMatches htail hcut
    have hparams : words isspace v = rule.matchTexts →
        splitRuns isspace (strip isspace y) = rule.tail := by
      intro hv
      have hsplit := (words_cutAt hcut).symm.trans hwords
      rw [hv, List.append_cancel_left_eq, List.cons.injEq] at hsplit
      rw [splitRuns_strip (by rw [hsplit.2]; exact htail), hsplit.2]
    rw [hparse]
    constructor
    . rintro ⟨op, hop, hcall⟩
      cases hop
      obtain ⟨_, _, hv, _⟩ := call_eq_iff.mp hcall
      have hsure := hcutIff.mp hv
      rw [propext hspace] at hsure
      rw [hv, hparams hv] at hcall
      exact ⟨htail, hsure, (call_tail_iff hserves).mp hcall⟩
    . intro hreads
      have hv : words isspace v = rule.matchTexts := by
        rw [hcutIff, propext hspace]
        exact hreads.unmistakable
      refine ⟨_, rfl, ?_⟩
      rw [hv, hparams hv]
      exact (call_tail_iff hserves).mpr hreads.fewDigits

end RoundTrip

section Inputs

def noParams (priority : Option Nat) : RuleText .ascii where
  tableName := "t".toList
  actionName := "a".toList
  matchTexts := ["0x1".toList]
  actionParams := []
  priority := priority
  isTableName := ⟨by decide, forall_mem_of_all (by decide)⟩
  isActionName := ⟨by decide, forall_mem_of_all (by decide)⟩
  hasMatches := by decide
  areTokens := by
    intro t ht
    obtain rfl : t = "0x1".toList := by simpa using ht
    exact ⟨by decide, forall_mem_of_all (by decide)⟩

-- One space between two tokens, of which there are one more than gaps
def oneSpace (gaps : Nat) : Layout where
  gaps := [] :: List.replicate gaps [' ']
  trail := []
  comment := none
  newline := true

theorem fits_oneSpace {tokens : List Text} {gaps : Nat} (hlen : tokens.length = gaps + 1)
    : (oneSpace gaps).Fits tokens := by
  constructor
  . simp [oneSpace, hlen]
  . intro gap hgap c hc
    have hspace : c = ' ' := by
      rcases List.mem_cons.mp hgap with rfl | hgap
      . contradiction
      . rw [(List.mem_replicate.mp hgap).2] at hc
        simpa using hc
    subst hspace
    decide
  . intro gap hgap
    rw [(List.mem_replicate.mp hgap).2]
    simp
  . intro c hc
    contradiction
  . intro text htext
    contradiction

def onePipeline : Pipeline := ⟨0, 0, [⟨"t".toList, 1, [⟨"a".toList, 0⟩]⟩]⟩

theorem serves_onePipeline (priority : Option Nat) : Serves onePipeline (noParams priority) :=
  ⟨⟨"t".toList, 1, [⟨"a".toList, 0⟩]⟩, ⟨"a".toList, 0⟩, rfl, rfl, rfl, rfl⟩

theorem roundTrips_iff_noParams
    : RoundTrips ((oneSpace 5).render (noParams (some 7)).tokens) onePipeline (noParams (some 7))
        ↔ ReadsBack (noParams (some 7)) (oneSpace 5) :=
  roundTrips_iff (serves_onePipeline _) (fits_oneSpace rfl)

theorem not_roundTrips_noParams
    : ¬ ∀ (u : Unicode) (rule : RuleText u) (layout : Layout) (info : Pipeline),
        Serves info rule → layout.Fits rule.tokens →
        RoundTrips (layout.render rule.tokens) info rule := by
  intro h
  have hfits : (oneSpace 4).Fits (noParams none).tokens := fits_oneSpace rfl
  obtain ⟨op, hparse, _⟩ := h _ _ _ _ (serves_onePipeline none) hfits
  have hnone : (parseP4bm .ascii ((oneSpace 4).render (noParams none).tokens)).toOption = none := by
    decide +kernel
  rw [hparse] at hnone
  contradiction

end Inputs

end P4bm
