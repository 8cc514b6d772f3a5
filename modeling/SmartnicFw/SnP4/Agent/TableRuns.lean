import SmartnicFw.SnP4.Agent.TableClear

/-!
This module contains what the tables of the pipelines hold after any calls to insert rules, to delete them
and to clear tables, told from a log of what the calls have done.
-/

namespace TableRuns

open Snp4Api
open TableRules (Device DevicePipeline TableRule TableRuleRequest TableRuleResponse loadRule packRule
  outcome outcomes callDriver tableDriver insertOrDeleteTableRule pipelineAt)
open TableClears (TableRequest TableResponse clearTable clearTables pipelineHasTable resetDevices)

section Rules

variable {σ τ : Type} (intf : TableIntf σ τ) (doInsert : Bool)

-- What the driver does for a rule, if it does anything
def callEffect (s : σ) (sr : SnRule) (replace : Bool) (pack : SnPack) : Option Effect := do
  let tableName ← sr.tableName
  if doInsert then
    let actionName ← sr.actionName
    insertEffect intf s tableName pack.key pack.mask actionName pack.params sr.priority replace
  else
    deleteEffect intf s tableName pack.key pack.mask

def ruleEffect (info : Snp4InfoPipeline) (s : σ) (rule : TableRule) : Option Effect := do
  let (ti, sr) ← (loadRule info doInsert rule).toOption
  let pack ← (packRule doInsert info ti sr).toOption
  callEffect intf doInsert s sr rule.replace pack

variable (names : σ → List String) (entries : σ → Entries)

-- A rule that is applied has its effect, and one that is not has none
structure Logs (effect : Option Effect) (s : σ) (r : TableRules.ErrorCode × σ) : Prop where
  alike : SetUpAlike intf names s r.2
  succeeds : r.1 = .EC_OK → ∃ e, effect = some e ∧ entries r.2 = e.act (entries s)
  fails : r.1 ≠ .EC_OK → entries r.2 = entries s

variable {intf names entries} {info : Snp4InfoPipeline}

theorem ruleEffect_of_alike {s s' : σ} (h : SetUpAlike intf names s s') (rule : TableRule)
    : ruleEffect intf doInsert info s' rule = ruleEffect intf doInsert info s rule := by
  unfold ruleEffect callEffect insertEffect deleteEffect
  rw [h.modeOf_eq, h.actionIdOf_eq]

theorem Logs.of_performs {effect : Option Effect} {s : σ} {r : Bool × σ}
    (h : Performs intf names entries effect s r) {err : TableRules.ErrorCode} (herr : err ≠ .EC_OK)
    : Logs intf names entries effect s (if r.1 then .EC_OK else err, r.2) := by
  rcases r with ⟨_ | _, s'⟩
  . exact ⟨h.alike, fun heq => absurd heq herr, fun _ => h.fails rfl⟩
  . exact ⟨h.alike, fun _ => h.succeeds rfl, fun hne => absurd rfl hne⟩

theorem Logs.refused (effect : Option Effect) (s : σ) {err : TableRules.ErrorCode} (herr : err ≠ .EC_OK)
    : Logs intf names entries effect s (err, s) :=
  ⟨.refl s, fun heq => absurd heq herr, fun _ => rfl⟩

theorem callDriver_eq {σ : Type} (driver : TableRules.TableDriver σ) (doInsert : Bool) (sr : SnRule)
    (replace : Bool) (pack : SnPack) (s : σ)
    : callDriver driver doInsert sr replace pack s =
        if doInsert then
          let r := driver.snp4TableInsertKma sr.tableName pack.key pack.mask sr.actionName pack.params
            sr.priority replace s
          (if r.1 then .EC_OK else .EC_FAILED_INSERT_TABLE_RULE, r.2)
        else
          let r := driver.snp4TableDeleteK sr.tableName pack.key pack.mask s
          (if r.1 then .EC_OK else .EC_FAILED_DELETE_TABLE_RULE, r.2) := by
  unfold callDriver
  cases doInsert with
  | true =>
    simp only [if_true]
    rcases driver.snp4TableInsertKma sr.tableName pack.key pack.mask sr.actionName pack.params
      sr.priority replace s with ⟨_ | _, _⟩ <;> rfl
  | false =>
    simp only [Bool.false_eq_true, if_false]
    rcases driver.snp4TableDeleteK sr.tableName pack.key pack.mask s with ⟨_ | _, _⟩ <;> rfl

theorem callDriver_logs (h : intf.Keeps names entries) (s : σ) (sr : SnRule) (replace : Bool)
    (pack : SnPack)
    : Logs intf names entries (callEffect intf doInsert s sr replace pack) s
        (callDriver (tableDriver intf.toDrvIntf) doInsert sr replace pack s) := by
  rw [callDriver_eq]
  cases doInsert with
  | true =>
    rw [if_pos rfl]
    refine Logs.of_performs ?_ (by decide)
    unfold callEffect tableDriver
    cases sr.tableName with
    | none => exact .refused _ s
    | some tableName =>
      cases sr.actionName with
      | none => exact .refused _ s
      | some actionName => exact snp4TableInsertKma_performs h s tableName ..
  | false =>
    rw [if_neg Bool.false_ne_true]
    refine Logs.of_performs ?_ (by decide)
    unfold callEffect tableDriver
    cases sr.tableName with
    | none => exact .refused _ s
    | some tableName => exact snp4TableDeleteK_performs h s tableName ..

theorem outcome_logs (h : intf.Keeps names entries) (info : Snp4InfoPipeline) (rule : TableRule) (s : σ)
    : Logs intf names entries (ruleEffect intf doInsert info s rule) s
        (outcome (tableDriver intf.toDrvIntf) doInsert info rule s) := by
  unfold outcome
  cases hload : loadRule info doInsert rule with
  | error err => exact .refused _ s (TableRules.loadRule_error hload)
  | ok r =>
    obtain ⟨ti, sr⟩ := r
    dsimp only
    cases hpack : packRule doInsert info ti sr with
    | error rc =>
      refine .refused _ s ?_
      rw [ne_eq, TableRules.errorOfStatus_eq_ok_iff]
      exact TableRules.packRule_error hpack
    | ok pack =>
      have heffect : ruleEffect intf doInsert info s rule =
          callEffect intf doInsert s sr rule.replace pack := by
        simp [ruleEffect, hload, hpack, Except.toOption]
      rw [heffect]
      exact callDriver_logs doInsert h s sr rule.replace pack

-- By induction on the rules: the log has the effects of those before the first one that fails
theorem outcomes_logs (h : intf.Keeps names entries) (info : Snp4InfoPipeline) (rules : List TableRule)
    (s : σ)
    : let r := outcomes (tableDriver intf.toDrvIntf) doInsert info rules s
      SetUpAlike intf names s r.2 ∧
        ∃ applied rest log, rules = applied ++ rest ∧
          applied.mapM (ruleEffect intf doInsert info s) = some log ∧
          entries r.2 = EntryLog.after log (entries s) ∧ (r.1 = .EC_OK ↔ rest = []) := by
  intro r
  induction rules generalizing s with
  | nil => exact ⟨.refl s, [], [], [], rfl, rfl, rfl, by simp [r, outcomes]⟩
  | cons rule rules ih =>
    have hlogs := outcome_logs doInsert h info rule s
    rcases hout : outcome (tableDriver intf.toDrvIntf) doInsert info rule s with ⟨err, s'⟩
    rw [hout] at hlogs
    by_cases hok : err = .EC_OK
    . subst hok
      have hr : r = outcomes (tableDriver intf.toDrvIntf) doInsert info rules s' := by
        unfold r
        rw [outcomes, hout]
      obtain ⟨e, heffect, hentries⟩ := hlogs.succeeds rfl
      obtain ⟨halike, applied, rest, log, rfl, hlog, hafter, hcode⟩ := ih s'
      have hs' : SetUpAlike intf names s s' := hlogs.alike
      rw [hr]
      refine ⟨hs'.trans halike, rule :: applied, rest, e :: log, rfl, ?_, ?_, hcode⟩
      . rw [funext (ruleEffect_of_alike doInsert hs')] at hlog
        simp [heffect, hlog]
      . rw [EntryLog.after_cons, hafter, hentries]
    . have hr : r = (err, s') := by
        unfold r
        rw [outcomes, hout]
        cases err <;> first | rfl | exact absurd rfl hok
      rw [hr]
      exact ⟨hlogs.alike, [], rule :: rules, [], rfl, rfl, hlogs.fails hok, by simp [hok]⟩

end Rules

section Calls

variable {σ τ : Type}

inductive TableCall where
  | insertTableRule (req : TableRuleRequest)
  | deleteTableRule (req : TableRuleRequest)
  | clearTable (req : TableRequest)

inductive TableAnswer where
  | rules (resps : List TableRuleResponse)
  | tables (resps : List TableResponse)

variable (intf : TableIntf σ τ)

def serve (call : TableCall) (devices : List (Device σ)) (heap : ByteHeap)
    : TableAnswer × List (Device σ) × ByteHeap :=
  match call with
  | .insertTableRule req =>
    let (resps, devices, heap) :=
      insertOrDeleteTableRule (tableDriver intf.toDrvIntf) true req devices heap
    (.rules resps, devices, heap)
  | .deleteTableRule req =>
    let (resps, devices, heap) :=
      insertOrDeleteTableRule (tableDriver intf.toDrvIntf) false req devices heap
    (.rules resps, devices, heap)
  | .clearTable req =>
    let (resps, devices) := clearTable intf req devices
    (.tables resps, devices, heap)

def serveAll (calls : List TableCall) (devices : List (Device σ)) (heap : ByteHeap)
    : List TableAnswer × List (Device σ) × ByteHeap :=
  match calls with
  | [] => ([], devices, heap)
  | call :: calls =>
    let (answer, devices, heap) := serve intf call devices heap
    let (answers, devices, heap) := serveAll calls devices heap
    (answer :: answers, devices, heap)

-- What a client is told of one pipeline
def TableAnswer.Ok (answer : TableAnswer) (devId pipelineId : Nat) : Prop :=
  match answer with
  | .rules resps => { errorCode := .EC_OK, devId := devId, pipelineId := pipelineId } ∈ resps
  | .tables resps => { errorCode := .EC_OK, devId := devId, pipelineId := pipelineId } ∈ resps

def TableCall.Selects (call : TableCall) (devId pipelineId : Nat) : Prop :=
  match call with
  | .insertTableRule req => req.Selects devId pipelineId
  | .deleteTableRule req => req.Selects devId pipelineId
  | .clearTable req => req.Selects devId pipelineId

-- The effects of the rules up to the first one that fails
def LogsRules (doInsert : Bool) (pipeline : DevicePipeline σ) (rules : List TableRule) (ok : Prop)
    (log : List Effect)
    : Prop :=
  ∃ applied rest, rules = applied ++ rest ∧
    applied.mapM (ruleEffect intf doInsert pipeline.info pipeline.handle) = some log ∧
    (ok ↔ rest = [])

-- All tables are cleared one after another, until one cannot be
def LogsClear (names : List String) (tableName : String) (ok : Prop) (log : List Effect) : Prop :=
  if tableName = "" then
    ∃ n, log = (names.take n).map .clear ∧ (ok → n = names.length)
  else
    ok ∧ log = [.clear tableName] ∨ ¬ ok ∧ log = []

def TableCall.Logs (names : σ → List String) (call : TableCall) (pipeline : DevicePipeline σ) (ok : Prop)
    (log : List Effect)
    : Prop :=
  match call with
  | .insertTableRule req => LogsRules intf true pipeline req.rules ok log
  | .deleteTableRule req => LogsRules intf false pipeline req.rules ok log
  | .clearTable req => LogsClear (names pipeline.handle) req.tableName ok log

-- What a call that is answered has done to one pipeline
structure Logged (names : σ → List String) (devId pipelineId : Nat) (pipeline : DevicePipeline σ)
    (answered : TableCall × TableAnswer) (log : List Effect) : Prop where
  selected : answered.1.Selects devId pipelineId →
    answered.1.Logs intf names pipeline (answered.2.Ok devId pipelineId) log
  others : ¬ answered.1.Selects devId pipelineId → log = [] ∧ ¬ answered.2.Ok devId pipelineId

end Calls

section Served

variable {σ τ : Type} {intf : TableIntf σ τ} {names : σ → List String} {entries : σ → Entries}
variable {devices : List (Device σ)} {devId pipelineId : Nat} {pipeline : DevicePipeline σ}

theorem mem_insertOrDeleteTableRule_ok_iff (driver : TableRules.TableDriver σ) (doInsert : Bool)
    (req : TableRuleRequest) (heap : ByteHeap)
    (hpipeline : pipelineAt devices devId pipelineId = some pipeline)
    : { errorCode := .EC_OK, devId := devId, pipelineId := pipelineId } ∈
        (insertOrDeleteTableRule driver doInsert req devices heap).1 ↔
      req.Selects devId pipelineId ∧
        (outcomes driver doInsert pipeline.info req.rules pipeline.handle).1 = .EC_OK := by
  have hcode : TableRules.codeOf driver doInsert req devices devId pipelineId =
      (outcomes driver doInsert pipeline.info req.rules pipeline.handle).1 := by
    unfold TableRules.codeOf
    rw [hpipeline]
  obtain ⟨dev, hdev, hget⟩ := Option.bind_eq_some_iff.mp hpipeline
  obtain ⟨hlt, _⟩ := List.getElem?_eq_some_iff.mp hdev
  obtain ⟨hlt', _⟩ := List.getElem?_eq_some_iff.mp hget
  rw [TableRules.fst_insertOrDeleteTableRule, ← hcode]
  unfold TableRules.responses TableRuleRequest.Selects
  split
  . next hgt =>
    constructor
    . intro hmem
      cases List.mem_singleton.mp hmem
    . omega
  . rw [List.mem_flatMap]
    constructor
    . rintro ⟨d, hd, hmem⟩
      cases hdev' : devices[d]? with
      | none =>
        rw [hdev'] at hmem
        cases hmem
      | some dev' =>
        rw [hdev'] at hmem
        dsimp only at hmem
        split at hmem
        . cases List.mem_singleton.mp hmem
        . obtain ⟨p, hp, heq⟩ := List.mem_map.mp hmem
          obtain ⟨hok, rfl, rfl⟩ := TableRuleResponse.mk.inj heq
          obtain rfl : dev' = dev := Option.some.inj (hdev'.symm.trans hdev)
          exact ⟨⟨(TableRules.mem_selected_iff hlt).mp hd, (TableRules.mem_selected_iff hlt').mp hp⟩, hok⟩
    . rintro ⟨⟨hsel, hsel'⟩, hok⟩
      refine ⟨devId, (TableRules.mem_selected_iff hlt).mpr hsel, ?_⟩
      rw [hdev]
      dsimp only
      rw [if_neg (by omega)]
      exact List.mem_map.mpr ⟨pipelineId, (TableRules.mem_selected_iff hlt').mpr hsel', by rw [hok]⟩

theorem serve_rules_logged (h : intf.Keeps names entries) (doInsert : Bool) (req : TableRuleRequest)
    (heap : ByteHeap) (hpipeline : pipelineAt devices devId pipelineId = some pipeline)
    : let r := insertOrDeleteTableRule (tableDriver intf.toDrvIntf) doInsert req devices heap
      ∃ handle' log, pipelineAt r.2.1 devId pipelineId = some { pipeline with handle := handle' } ∧
        SetUpAlike intf names pipeline.handle handle' ∧
        (req.Selects devId pipelineId → LogsRules intf doInsert pipeline req.rules
          ({ errorCode := .EC_OK, devId := devId, pipelineId := pipelineId } ∈ r.1) log) ∧
        (¬ req.Selects devId pipelineId → log = [] ∧
          { errorCode := .EC_OK, devId := devId, pipelineId := pipelineId } ∉ r.1) ∧
        entries handle' = EntryLog.after log (entries pipeline.handle) := by
  intro r
  have hat : pipelineAt r.2.1 devId pipelineId = _ :=
    TableRules.pipelineAt_insertOrDeleteTableRule (tableDriver intf.toDrvIntf) doInsert req devices heap
      devId pipelineId
  have hok := mem_insertOrDeleteTableRule_ok_iff (tableDriver intf.toDrvIntf) doInsert req heap hpipeline
  rw [hpipeline, Option.map_some] at hat
  by_cases hsel : req.Selects devId pipelineId
  . rw [if_pos hsel] at hat
    obtain ⟨halike, applied, rest, log, hsplit, hlog, hafter, hcode⟩ :=
      outcomes_logs doInsert h pipeline.info req.rules pipeline.handle
    refine ⟨_, log, hat, halike, fun _ => ?_, fun hnot => absurd hsel hnot, hafter⟩
    exact ⟨applied, rest, hsplit, hlog, by rw [hok, hcode]; simp [hsel]⟩
  . rw [if_neg hsel] at hat
    refine ⟨pipeline.handle, [], hat, .refl _, fun hyes => absurd hyes hsel, fun _ => ⟨rfl, ?_⟩, rfl⟩
    rw [hok]
    exact fun hboth => hsel hboth.1

theorem clearTables_logged (h : intf.Keeps names entries) (info : Snp4InfoPipeline) (tableName : String)
    (s : σ)
    : let r := clearTables intf info tableName s
      SetUpAlike intf names s r.2 ∧
        ∃ log, LogsClear (names s) tableName (r.1 = .EC_OK) log ∧
          entries r.2 = EntryLog.after log (entries s) := by
  intro r
  by_cases hempty : tableName = ""
  . obtain ⟨halike, n, hafter, hall⟩ := snp4ResetAllTables_clears h s
    rcases hreset : snp4ResetAllTables intf s with ⟨cleared, s'⟩
    rw [hreset] at halike hafter hall
    have hr : r = (if cleared then .EC_OK else .EC_FAILED_CLEAR_ALL_TABLES, s') := by
      unfold r clearTables
      rw [if_pos hempty, hreset]
      cases cleared <;> rfl
    rw [hr]
    refine ⟨halike, ((names s).take n).map .clear, ?_, hafter⟩
    unfold LogsClear
    rw [if_pos hempty]
    refine ⟨n, rfl, fun hok => hall ?_⟩
    cases cleared with
    | true => rfl
    | false => cases hok
  . by_cases hhas : pipelineHasTable info tableName
    . have hperforms := snp4ResetOneTable_performs h s tableName
      rcases hreset : snp4ResetOneTable intf tableName s with ⟨cleared, s'⟩
      rw [hreset] at hperforms
      have hr : r = (if cleared then .EC_OK else .EC_FAILED_CLEAR_TABLE, s') := by
        unfold r clearTables
        rw [if_neg hempty, hhas, Bool.not_true, if_neg Bool.false_ne_true, hreset]
        cases cleared <;> rfl
      rw [hr]
      refine ⟨hperforms.alike, if cleared then [.clear tableName] else [], ?_, ?_⟩
      . unfold LogsClear
        rw [if_neg hempty]
        cases cleared with
        | true => exact .inl ⟨rfl, rfl⟩
        | false => exact .inr ⟨nofun, rfl⟩
      . cases cleared with
        | true =>
          obtain ⟨e, he, hentries⟩ := hperforms.succeeds rfl
          obtain rfl := Option.some.inj he
          exact hentries
        | false => exact hperforms.fails rfl
    . have hr : r = (.EC_INVALID_TABLE_NAME, s) := by
        unfold r clearTables
        rw [if_neg hempty, if_pos (by simpa using hhas)]
      rw [hr]
      refine ⟨.refl s, [], ?_, rfl⟩
      unfold LogsClear
      rw [if_neg hempty]
      exact .inr ⟨nofun, rfl⟩

-- What one call does to one pipeline
theorem serve_logged (h : intf.Keeps names entries) (call : TableCall) (heap : ByteHeap)
    (hpipeline : pipelineAt devices devId pipelineId = some pipeline)
    : ∃ handle' log, pipelineAt (serve intf call devices heap).2.1 devId pipelineId =
          some { pipeline with handle := handle' } ∧
        SetUpAlike intf names pipeline.handle handle' ∧
        Logged intf names devId pipelineId pipeline (call, (serve intf call devices heap).1) log ∧
        entries handle' = EntryLog.after log (entries pipeline.handle) := by
  cases call with
  | insertTableRule req =>
    obtain ⟨handle', log, hat, halike, hsel, hnot, hafter⟩ := serve_rules_logged h true req heap hpipeline
    exact ⟨handle', log, hat, halike, ⟨hsel, hnot⟩, hafter⟩
  | deleteTableRule req =>
    obtain ⟨handle', log, hat, halike, hsel, hnot, hafter⟩ := serve_rules_logged h false req heap hpipeline
    exact ⟨handle', log, hat, halike, ⟨hsel, hnot⟩, hafter⟩
  | clearTable req =>
    have hat := @TableClears.pipelineAt_clearTable _ _ intf req devices devId pipelineId
    have hok := @TableClears.mem_clearTable_ok_iff _ _ intf req devices devId pipelineId
    rw [hpipeline, Option.map_some] at hat
    simp only [hpipeline, Option.some.injEq, exists_eq_left'] at hok
    by_cases hsel : req.Selects devId pipelineId
    . rw [if_pos hsel] at hat
      obtain ⟨halike, log, hlog, hafter⟩ := clearTables_logged h pipeline.info req.tableName pipeline.handle
      refine ⟨_, log, hat, halike, ⟨fun _ => ?_, fun hnot => absurd hsel hnot⟩, hafter⟩
      have hiff := (iff_of_eq (propext hok)).trans (and_iff_right hsel)
      rw [← propext hiff] at hlog
      exact hlog
    . rw [if_neg hsel] at hat
      refine ⟨pipeline.handle, [], hat, .refl _, ⟨fun hyes => absurd hyes hsel, fun _ => ⟨rfl, ?_⟩⟩, rfl⟩
      intro hmem
      exact hsel (hok.mp hmem).1

-- A log that holds of a pipeline holds of it with another target that has been set up alike
theorem Logged.of_alike {handle' : σ} (halike : SetUpAlike intf names pipeline.handle handle')
    {answered : TableCall × TableAnswer} {log : List Effect}
    (h : Logged intf names devId pipelineId { pipeline with handle := handle' } answered log)
    : Logged intf names devId pipelineId pipeline answered log := by
  have heffect (doInsert : Bool)
      : ruleEffect intf doInsert pipeline.info handle' = ruleEffect intf doInsert pipeline.info
          pipeline.handle :=
    funext (ruleEffect_of_alike doInsert halike)
  refine ⟨fun hsel => ?_, h.others⟩
  have hlogs := h.selected hsel
  obtain ⟨call, answer⟩ := answered
  cases call with
  | insertTableRule req =>
    unfold TableCall.Logs LogsRules at hlogs ⊢
    dsimp only at hlogs ⊢
    rwa [heffect] at hlogs
  | deleteTableRule req =>
    unfold TableCall.Logs LogsRules at hlogs ⊢
    dsimp only at hlogs ⊢
    rwa [heffect] at hlogs
  | clearTable req =>
    unfold TableCall.Logs at hlogs ⊢
    dsimp only at hlogs ⊢
    rwa [halike.names_eq] at hlogs

theorem serveAll_logged (h : intf.Keeps names entries) (calls : List TableCall) (heap : ByteHeap)
    (hpipeline : pipelineAt devices devId pipelineId = some pipeline)
    : ∃ handle' logs, pipelineAt (serveAll intf calls devices heap).2.1 devId pipelineId =
          some { pipeline with handle := handle' } ∧
        List.Forall₂ (Logged intf names devId pipelineId pipeline)
          (calls.zip (serveAll intf calls devices heap).1) logs ∧
        entries handle' = EntryLog.after logs.flatten (entries pipeline.handle) := by
  induction calls generalizing devices heap pipeline with
  | nil => exact ⟨pipeline.handle, [], hpipeline, .nil, rfl⟩
  | cons call calls ih =>
    obtain ⟨handle₁, log, hat, halike, hlogged, hafter⟩ := serve_logged h call heap hpipeline
    obtain ⟨handle', logs, hat', hlogs, hafter'⟩ := ih (serve intf call devices heap).2.2 hat
    refine ⟨handle', log :: logs, hat', .cons hlogged ?_, ?_⟩
    . exact hlogs.imp fun _ _ => Logged.of_alike halike
    . rw [List.flatten_cons, EntryLog.after_append, ← hafter]
      exact hafter'

/--
After any calls to the agent, a table of a pipeline has exactly the entries that the log tells of: those
that an applied rule has put there, and that no rule and no clearing that came later has taken away. A call
has had an effect on the pipelines that it selects, up to what it has answered.
-/
theorem tables_follow_log (h : intf.Keeps names entries) {configured : List (Device σ)}
    (hreset : resetDevices intf configured = some devices) (calls : List TableCall) (heap : ByteHeap)
    (hpipeline : pipelineAt devices devId pipelineId = some pipeline)
    : ∃ handle' logs, pipelineAt (serveAll intf calls devices heap).2.1 devId pipelineId =
          some { pipeline with handle := handle' } ∧
        List.Forall₂ (Logged intf names devId pipelineId pipeline)
          (calls.zip (serveAll intf calls devices heap).1) logs ∧
        ∀ name key priority content, entries handle' name key = some (priority, content) ↔
          EntryLog.Tells logs.flatten name key priority content := by
  obtain ⟨handle', logs, hat, hlogs, hafter⟩ := serveAll_logged h calls heap hpipeline
  refine ⟨handle', logs, hat, hlogs, ?_⟩
  intro name key priority content
  obtain ⟨before, _, _, hall⟩ := TableClears.pipelineAt_resetDevices hreset hpipeline
  rw [hafter]
  exact EntryLog.after_eq_some_iff (entries_of_snp4ResetAllTables h hall name key) priority content

end Served

section Listed

open TableRules (bcamTarget bitfieldRule bitfieldRequest)

def listedBcam : ListedTarget where
  names := ["t_b17"]
  target := bcamTarget
  named := by
    intro name hne
    unfold bcamTarget at hne
    by_contra hnot
    rw [if_neg (by simpa using hnot)] at hne
    exact hne rfl

def listedDevices (handle : ListedTarget) : List (Device ListedTarget) :=
  [{ pipelines := [{ info := snp4InfoPipeline, handle := handle }] }]

def listedCalls : List TableCall :=
  [.insertTableRule (bitfieldRequest 0), .clearTable { devId := -1, pipelineId := 0, tableName := "" },
    .insertTableRule (bitfieldRequest (-1))]

theorem tables_follow_log_listed
    : ∃ handle' logs, pipelineAt (serveAll ListedTarget.intf listedCalls
            (listedDevices (snp4ResetAllTables ListedTarget.intf listedBcam).2) Heap.empty).2.1 0 0 =
          some ⟨snp4InfoPipeline, handle'⟩ ∧
        List.Forall₂ (Logged ListedTarget.intf ListedTarget.names 0 0
            ⟨snp4InfoPipeline, (snp4ResetAllTables ListedTarget.intf listedBcam).2⟩)
          (listedCalls.zip (serveAll ListedTarget.intf listedCalls
            (listedDevices (snp4ResetAllTables ListedTarget.intf listedBcam).2) Heap.empty).1) logs ∧
        ∀ name key priority content, handle'.target.entries name key = some (priority, content) ↔
          EntryLog.Tells logs.flatten name key priority content := by
  have hreset : resetDevices ListedTarget.intf (listedDevices listedBcam) =
      some (listedDevices (snp4ResetAllTables ListedTarget.intf listedBcam).2) := by
    rfl
  have hpipeline : pipelineAt (listedDevices (snp4ResetAllTables ListedTarget.intf listedBcam).2) 0 0 =
      some ⟨snp4InfoPipeline, (snp4ResetAllTables ListedTarget.intf listedBcam).2⟩ := by
    rfl
  exact tables_follow_log ListedTarget.keeps hreset listedCalls Heap.empty hpipeline

end Listed

end TableRuns
