import SmartnicFw.SnP4.Client.P4bmLines

/-!
This module contains what the lines of a behaviour-model file say, and that applying the file issues
the calls that they say.
-/

namespace P4bm

open Fields

-- What a line asks of each pipeline, where a clear of the empty name is one of all tables
inductive Effect where
  | clear (tableName : Text)
  | insert
  deriving DecidableEq, Repr

inductive Meaning where
  | nothing
  | effect (e : Effect)
  | rejected
  deriving DecidableEq, Repr

def Meaning.effects : Meaning → List Effect
  | .nothing => []
  | .effect e => [e]
  | .rejected => []

def meaning (u : Unicode) (line : Text) : Meaning :=
  let args := words isspace (arguments u line)
  if operation u line = P4bmClearAll.name then
    if args = [] then .effect (.clear []) else .rejected
  else if operation u line = P4bmTableAdd.name then
    .effect .insert
  else if operation u line = P4bmTableClear.name then
    match args with
    | [tableName] => .effect (.clear tableName)
    | _ => .rejected
  else
    .nothing

def lineEffects (u : Unicode) (p4bmFile : Text) : List Effect :=
  (fileLines p4bmFile).flatMap fun line => (meaning u line).effects

def Call.effect : Call → Int × Int × Effect
  | .clearTable devId pipelineId tableName => (devId, pipelineId, .clear tableName)
  | .insertTableRule devId pipelineId _ => (devId, pipelineId, .insert)

-- In order and without anything between them, and all of them unless there is an error
def Issued {α : Type} (made expected : List α) (outcome : Except P4bmError Unit) : Prop :=
  made <+: expected ∧ (outcome = .ok () → made = expected)

def Pipeline.effects (pipeline : Pipeline) (effects : List Effect) : List (Int × Int × Effect) :=
  effects.map fun e => (pipeline.devId, pipeline.pipelineId, e)

structure ClearsWhatItSays (u : Unicode) (p4bmFile : Text) : Prop where
  accepted : ∀ line ∈ fileLines p4bmFile, meaning u line ≠ .rejected
  issued : ∀ stub pipelines ending,
    let (calls, outcome) := applyP4bm u stub pipelines ending p4bmFile
    Issued (calls.map Call.effect) (pipelines.flatMap (·.effects (lineEffects u p4bmFile))) outcome
  clearsAll : ∀ stub pipelines ending devId pipelineId,
    Call.clearTable devId pipelineId [] ∈ (applyP4bm u stub pipelines ending p4bmFile).1 →
      ∃ line ∈ fileLines p4bmFile, operation u line = P4bmClearAll.name ∧ arguments u line = []

-- The line names no table
def ClearsNothing (u : Unicode) (line : Text) : Prop :=
  operation u line = P4bmTableClear.name ∧ words isspace (arguments u line) = []

def P4bmOp.effect : P4bmOp → Effect
  | .clearAll _ => .clear []
  | .tableAdd .. => .insert
  | .tableClear _ tableName => .clear tableName

variable {u : Unicode}

section ParseInit

variable {lineno : Nat} {args : Text} {op : P4bmOp}

theorem clearAll_parseInit (h : P4bmClearAll.parseInit lineno args = .ok op)
    : args = [] ∧ op = .clearAll lineno := by
  unfold P4bmClearAll.parseInit at h
  split at h
  . contradiction
  . next hargs =>
    cases h
    exact ⟨not_not.mp hargs, rfl⟩

theorem tableAdd_parseInit (h : P4bmTableAdd.parseInit u lineno args = .ok op)
    : op.effect = .insert := by
  unfold P4bmTableAdd.parseInit at h
  split at h
  . contradiction
  . cases h
    rfl

theorem tableClear_parseInit (hne : words isspace args ≠ [])
    (h : P4bmTableClear.parseInit lineno args = .ok op)
    : ∃ tableName, words isspace args = [tableName] ∧ op = .tableClear lineno tableName := by
  unfold P4bmTableClear.parseInit at h
  rw [splitRuns_strip hne] at h
  cases hwords : words isspace args with
  | nil => contradiction
  | cons tableName rest =>
    simp only [hwords] at h
    split at h
    . contradiction
    . next hrest =>
      cases h
      exact ⟨tableName, by rw [not_not.mp hrest], rfl⟩

end ParseInit

section Lines

variable {lineno : Nat} {line : Text}

theorem not_of_mem_head?_arguments {c : Char} (h : c ∈ (arguments u line).head?) : ¬ isspace c :=
  not_of_mem_head?_dropWhile h

theorem words_arguments_eq_nil : words isspace (arguments u line) = [] ↔ arguments u line = [] := by
  constructor
  . intro h
    by_contra hne
    obtain ⟨c, args, hargs⟩ := List.exists_cons_of_ne_nil hne
    have hhead : c ∈ (arguments u line).head? := by simp [hargs]
    have hc := not_of_mem_head?_arguments hhead
    exact hc (words_eq_nil_iff.mp h c (by simp [hargs]))
  . intro h
    simp [h]

theorem name_ne_name : P4bmTableAdd.name ≠ P4bmClearAll.name
    ∧ P4bmTableClear.name ≠ P4bmClearAll.name ∧ P4bmTableClear.name ≠ P4bmTableAdd.name := by
  decide

theorem map_some_eq_ok {α ε : Type} {x : Except ε α} {y : Option α} (h : x.map some = .ok y)
    : ∃ a, x = .ok a ∧ y = some a := by
  cases x with
  | error e => contradiction
  | ok a =>
    cases h
    exact ⟨a, rfl, rfl⟩

-- Apart from the lines that name no table, what a line says is what its operation does
theorem parseLine_effect {op : Option P4bmOp} (hline : '\n' ∉ strip isspace line)
    (h : parseLine u lineno line = .ok op) (hclear : ¬ ClearsNothing u line)
    : meaning u line ≠ .rejected ∧ op.toList.map P4bmOp.effect = (meaning u line).effects := by
  obtain ⟨hadd, hclearAll, htable⟩ := name_ne_name
  rw [parseLine_eq hline] at h
  unfold meaning
  by_cases hop : operation u line = P4bmClearAll.name
  . simp only [hop, p4bmOps_clearAll] at h
    obtain ⟨op, hparse, rfl⟩ := map_some_eq_ok h
    obtain ⟨hargs, rfl⟩ := clearAll_parseInit hparse
    simp [hop, hargs, Meaning.effects, P4bmOp.effect]
  by_cases hop' : operation u line = P4bmTableAdd.name
  . simp only [hop', p4bmOps_tableAdd] at h
    obtain ⟨op, hparse, rfl⟩ := map_some_eq_ok h
    simp [hop', hadd, Meaning.effects, tableAdd_parseInit hparse]
  by_cases hop'' : operation u line = P4bmTableClear.name
  . simp only [hop'', p4bmOps_tableClear] at h
    obtain ⟨op, hparse, rfl⟩ := map_some_eq_ok h
    have hne : words isspace (arguments u line) ≠ [] := fun hnil => hclear ⟨hop'', hnil⟩
    obtain ⟨tableName, hwords, rfl⟩ := tableClear_parseInit hne hparse
    simp [hop'', hclearAll, htable, hwords, Meaning.effects, P4bmOp.effect]
  . rw [p4bmOps_other hop hop' hop''] at h
    cases h
    simp [hop, hop', hop'', Meaning.effects]

theorem parseLines_effects {lines : List Text} {ops : List P4bmOp}
    (hlines : ∀ line ∈ lines, '\n' ∉ strip isspace line)
    (h : parseLines u lineno lines = .ok ops) (hclear : ∀ line ∈ lines, ¬ ClearsNothing u line)
    : (∀ line ∈ lines, meaning u line ≠ .rejected)
        ∧ ops.map P4bmOp.effect = lines.flatMap fun line => (meaning u line).effects := by
  induction lines generalizing lineno ops with
  | nil =>
    cases h
    simp
  | cons line lines ih =>
    rw [parseLines] at h
    cases hop : parseLine u (lineno + 1) line with
    | error e =>
      rw [hop] at h
      contradiction
    | ok op =>
      rw [hop] at h
      cases hops : parseLines u (lineno + 1) lines with
      | error e =>
        rw [hops] at h
        contradiction
      | ok ops' =>
        rw [hops] at h
        cases h
        have hline := parseLine_effect (hlines line (by simp)) hop (hclear line (by simp))
        have hrest := ih (fun l hl => hlines l (by simp [hl])) hops fun l hl => hclear l (by simp [hl])
        constructor
        . simpa [hline.1] using hrest.1
        . rw [List.map_append, List.flatMap_cons, hline.2, hrest.2]

end Lines

section Issue

variable {stub : Stub}

theorem call_effect {op : P4bmOp} {pipeline : Pipeline} {call : Call} (h : op.call u pipeline = .ok call)
    : call.effect = (pipeline.devId, pipeline.pipelineId, op.effect) := by
  cases op with
  | clearAll lineno =>
    cases h
    rfl
  | tableAdd lineno tableName actionName matchTexts actionParams =>
    unfold P4bmOp.call at h
    cases hparams : P4bmTableAdd.parseFinalize u lineno tableName actionName matchTexts actionParams
        pipeline with
    | error e =>
      simp only [hparams] at h
      contradiction
    | ok params =>
      simp only [hparams] at h
      cases h
      rfl
  | tableClear lineno tableName =>
    cases h
    rfl

section Rules

variable {α : Type} {made made' expected expected' : List α} {outcome : Except P4bmError Unit}

theorem issued_nil (e : P4bmError) (expected : List α) : Issued [] expected (.error e) :=
  ⟨List.nil_prefix, nofun⟩

theorem issued_append (h : Issued made' expected' outcome)
    : Issued (made ++ made') (made ++ expected') outcome := by
  constructor
  . exact (List.prefix_append_right_inj made).mpr h.1
  . intro hok
    rw [h.2 hok]

theorem issued_error_append {e : P4bmError} (h : Issued made expected (.error e))
    : Issued made (expected ++ expected') (.error e) :=
  ⟨h.1.trans (List.prefix_append _ _), nofun⟩

end Rules

theorem effects_cons (pipeline : Pipeline) (e : Effect) (effects : List Effect)
    : pipeline.effects (e :: effects)
        = [(pipeline.devId, pipeline.pipelineId, e)] ++ pipeline.effects effects :=
  rfl

theorem applyOps_issued (pipeline : Pipeline) (ops : List P4bmOp) (calls : List Call)
    : ∃ made, (applyOps u stub pipeline ops calls).1 = calls ++ made
        ∧ Issued (made.map Call.effect) (pipeline.effects (ops.map P4bmOp.effect))
            (applyOps u stub pipeline ops calls).2 := by
  induction ops generalizing calls with
  | nil => exact ⟨[], by simp [applyOps], List.nil_prefix, fun _ => rfl⟩
  | cons op ops ih =>
    rw [applyOps, List.map_cons, effects_cons]
    cases hcall : op.call u pipeline with
    | error e => exact ⟨[], by simp, issued_nil _ _⟩
    | ok call =>
      rw [← call_effect hcall]
      generalize pipeline.effects (ops.map P4bmOp.effect) = expected at ih ⊢
      dsimp only
      cases stub calls call with
      | error e =>
        have hissued : Issued ([call.effect] ++ []) ([call.effect] ++ expected) (.error e) :=
          issued_append (issued_nil e _)
        exact ⟨[call], rfl, hissued⟩
      | ok _ =>
        obtain ⟨made, hmade, hrest⟩ := ih (calls ++ [call])
        have hissued : Issued ([call.effect] ++ made.map Call.effect) ([call.effect] ++ expected) _ :=
          issued_append hrest
        exact ⟨call :: made, by simp [hmade], hissued⟩

theorem applyPipelines_issued (ops : List P4bmOp) (pipelines : List Pipeline)
    (ending : Except P4bmError Unit) (calls : List Call)
    : ∃ made, (applyPipelines u stub ops pipelines ending calls).1 = calls ++ made
        ∧ Issued (made.map Call.effect) (pipelines.flatMap (·.effects (ops.map P4bmOp.effect)))
            (applyPipelines u stub ops pipelines ending calls).2 := by
  induction pipelines generalizing calls with
  | nil => exact ⟨[], by simp [applyPipelines], List.nil_prefix, fun _ => rfl⟩
  | cons pipeline pipelines ih =>
    rw [applyPipelines, List.flatMap_cons]
    obtain ⟨made, hmade, hissued⟩ := @applyOps_issued u stub pipeline ops calls
    rcases hops : applyOps u stub pipeline ops calls with ⟨calls', outcome⟩
    rw [hops] at hmade hissued
    obtain rfl := hmade
    cases outcome with
    | error e => exact ⟨made, rfl, issued_error_append hissued⟩
    | ok _ =>
      obtain ⟨made', hmade', hissued'⟩ := ih (calls ++ made)
      refine ⟨made ++ made', by simp [hmade'], ?_⟩
      rw [List.map_append, ← hissued.2 rfl]
      exact issued_append hissued'

end Issue

theorem issued_of_accepted {p4bmFile : Text} {ops : List P4bmOp}
    (h : parseP4bm u p4bmFile = .ok ops) (hops : ops.map P4bmOp.effect = lineEffects u p4bmFile)
    (stub : Stub) (pipelines : List Pipeline) (ending : Except P4bmError Unit)
    : Issued ((applyP4bm u stub pipelines ending p4bmFile).1.map Call.effect)
        (pipelines.flatMap (·.effects (lineEffects u p4bmFile)))
        (applyP4bm u stub pipelines ending p4bmFile).2 := by
  obtain ⟨made, hmade, hissued⟩ := @applyPipelines_issued u stub ops pipelines ending []
  simp only [applyP4bm, h, hmade, List.nil_append, ← hops]
  exact hissued

theorem clear_all_of_mem_lineEffects {p4bmFile : Text} (h : .clear [] ∈ lineEffects u p4bmFile)
    : ∃ line ∈ fileLines p4bmFile, operation u line = P4bmClearAll.name ∧ arguments u line = [] := by
  obtain ⟨line, hline, hmem⟩ := List.mem_flatMap.mp h
  refine ⟨line, hline, ?_⟩
  unfold meaning at hmem
  by_cases hop : operation u line = P4bmClearAll.name
  . by_cases hargs : words isspace (arguments u line) = []
    . exact ⟨hop, words_arguments_eq_nil.mp hargs⟩
    . simp [hop, hargs, Meaning.effects] at hmem
  . by_cases hadd : operation u line = P4bmTableAdd.name
    . simp [hadd, name_ne_name.1, Meaning.effects] at hmem
    . by_cases hclear : operation u line = P4bmTableClear.name
      . simp only [hclear, name_ne_name.2.1, name_ne_name.2.2, if_false, if_true] at hmem
        cases hwords : words isspace (arguments u line) with
        | nil => simp [hwords, Meaning.effects] at hmem
        | cons tableName rest =>
          have hmem' : tableName ∈ words isspace (arguments u line) := by
            rw [hwords]
            simp
          have hne := ne_nil_of_mem_words hmem'
          cases rest with
          | nil => simp [hwords, Meaning.effects, hne.symm] at hmem
          | cons _ _ => simp [hwords, Meaning.effects] at hmem
      . simp [hop, hadd, hclear, Meaning.effects] at hmem

theorem clearsWhatItSays_iff {p4bmFile : Text} {ops : List P4bmOp}
    (h : parseP4bm u p4bmFile = .ok ops)
    : ClearsWhatItSays u p4bmFile ↔ ∀ line ∈ fileLines p4bmFile, ¬ ClearsNothing u line := by
  constructor
  . intro hsays line hline hclear
    apply hsays.accepted line hline
    obtain ⟨_, hclearAll, htable⟩ := name_ne_name
    simp [meaning, hclear.1, hclear.2, hclearAll, htable]
  . intro hclear
    obtain ⟨haccepted, hops⟩ := parseLines_effects (not_mem_strip_fileLines p4bmFile) h hclear
    refine ⟨haccepted, issued_of_accepted h hops, ?_⟩
    intro stub pipelines ending devId pipelineId hmem
    apply clear_all_of_mem_lineEffects
    have hissued := (issued_of_accepted h hops stub pipelines ending).1.subset (List.mem_map_of_mem hmem)
    obtain ⟨pipeline, _, heffect⟩ := List.mem_flatMap.mp hissued
    obtain ⟨e, he, heq⟩ := List.mem_map.mp heffect
    cases heq
    exact he

def tableClearFile : Text := "clear_all\ntable_clear t1 # one table\n".toList

theorem clearsWhatItSays_iff_tableClearFile
    : ClearsWhatItSays .ascii tableClearFile
        ↔ ∀ line ∈ fileLines tableClearFile, ¬ ClearsNothing .ascii line := by
  have h : parseP4bm .ascii tableClearFile = .ok [.clearAll 1, .tableClear 2 "t1".toList] := by
    decide +kernel
  exact clearsWhatItSays_iff h

def bareTableClear : Text := "table_clear # t1\n".toList

theorem not_clearsWhatItSays_bareTableClear
    : ¬ ∀ u p4bmFile ops, parseP4bm u p4bmFile = .ok ops → ClearsWhatItSays u p4bmFile := by
  intro h
  have hparse : parseP4bm .ascii bareTableClear = .ok [.tableClear 1 []] := by decide +kernel
  have hmem : Call.clearTable 0 0 []
      ∈ (applyP4bm .ascii (fun _ _ => .ok ()) [⟨0, 0, []⟩] (.ok ()) bareTableClear).1 := by
    decide +kernel
  obtain ⟨line, hline, hop, _⟩ := (h _ _ _ hparse).clearsAll _ _ _ _ _ hmem
  have hnone : ∀ line ∈ fileLines bareTableClear, operation .ascii line ≠ P4bmClearAll.name := by
    decide +kernel
  exact hnone line hline hop

end P4bm
