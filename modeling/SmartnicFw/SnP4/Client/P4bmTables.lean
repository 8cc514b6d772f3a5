import SmartnicFw.SnP4.Client.Rpc
import SmartnicFw.SnP4.Client.TableRuleAgrees

/-!
This module contains what applying a behaviour-model file does to the tables of the pipelines, from the
lines of the file to the entries that the drivers keep.
-/

namespace P4bmTables

open Snp4Api
open EntryLog (OfAll OfBefore)
open P4bm (P4bmError P4bmOp Call Pipeline applyOps applyPipelines applyP4bm parseP4bm)
open PipelineAgent (PipelineInfoResponse)
open Rpc
open TableRules (Device DevicePipeline pipelineAt)
open TableRuns (TableCall ruleEffect serve LogsRules LogsClear)

section Apply

def toActionInfo (action : PipelineAgent.ActionInfo) : P4bm.ActionInfo where
  name := action.name.toList
  numParameters := action.parameters.length

def toTableInfo (table : PipelineAgent.TableInfo) : P4bm.TableInfo where
  name := table.name.toList
  numMatches := table.matchList.length
  actions := table.actions.map toActionInfo

-- What a client looks at in the description of a pipeline
def toPipeline (resp : PipelineInfoResponse) : Pipeline where
  devId := resp.devId
  pipelineId := resp.pipelineId
  tables := resp.info.elim [] fun info => info.tables.map toTableInfo

variable {σ τ : Type} (intf : TableIntf σ τ) (u : TableClient.Unicode)

def applyFile (infos : List (List PipelineAgent.DevicePipeline)) (devId pipelineId : Int)
    (p4bmFile : P4bm.Text) (devices : List (Device σ)) (heap : ByteHeap)
    : Except P4bmError Unit × List (Device σ) × ByteHeap :=
  let (resps, ending) := rpcGetPipelineInfo infos devId pipelineId
  let (calls, outcome) :=
    applyP4bm u.toUnicode (agentStub intf u devices heap) (resps.map toPipeline) ending p4bmFile
  (outcome, issueAll intf u calls devices heap)

end Apply

-- What an operation does to the tables of a pipeline when it is done
section Logs

variable {σ τ : Type} (intf : TableIntf σ τ) (u : TableClient.Unicode) (names : σ → List String)

def callLog (pipeline : DevicePipeline σ) : TableCall → Option (List Effect)
  | .insertTableRule req => req.rules.mapM (ruleEffect intf true pipeline.info pipeline.handle)
  | .deleteTableRule req => req.rules.mapM (ruleEffect intf false pipeline.info pipeline.handle)
  | .clearTable req =>
    if req.tableName = "" then
      some ((names pipeline.handle).map .clear)
    else
      some [.clear req.tableName]

def requestLog (pipeline : DevicePipeline σ) (call : Call) : Option (List Effect) := do
  let req ← (request u call).toOption
  callLog intf names pipeline req

def opLog (shown : Pipeline) (pipeline : DevicePipeline σ) (op : P4bmOp) : Option (List Effect) := do
  let call ← (op.call u.toUnicode shown).toOption
  requestLog intf u names pipeline call

variable (entries : σ → Entries)

-- What has become of a pipeline when its tables have followed a log
structure Follows (pipeline pipeline' : DevicePipeline σ) (log : List Effect) : Prop where
  info_eq : pipeline'.info = pipeline.info
  alike : SetUpAlike intf names pipeline.handle pipeline'.handle
  entries_eq : entries pipeline'.handle = EntryLog.after log (entries pipeline.handle)

variable {intf u names entries} {pipeline pipeline' pipeline'' : DevicePipeline σ} {log log' : List Effect}

theorem Follows.refl (pipeline : DevicePipeline σ) : Follows intf names entries pipeline pipeline [] :=
  ⟨rfl, .refl _, rfl⟩

theorem Follows.trans (h : Follows intf names entries pipeline pipeline' log)
    (h' : Follows intf names entries pipeline' pipeline'' log')
    : Follows intf names entries pipeline pipeline'' (log ++ log') where
  info_eq := h'.info_eq.trans h.info_eq
  alike := h.alike.trans h'.alike
  entries_eq := by rw [EntryLog.after_append, ← h.entries_eq, h'.entries_eq]

-- What is done depends on a pipeline only by its description and by what it is set up with
theorem opLog_of_alike (hinfo : pipeline'.info = pipeline.info)
    (h : SetUpAlike intf names pipeline.handle pipeline'.handle) (shown : Pipeline)
    : opLog intf u names shown pipeline' = opLog intf u names shown pipeline := by
  have heffect (doInsert : Bool)
      : ruleEffect intf doInsert pipeline.info pipeline'.handle =
          ruleEffect intf doInsert pipeline.info pipeline.handle :=
    funext (TableRuns.ruleEffect_of_alike doInsert h)
  funext op
  unfold opLog requestLog callLog
  rw [hinfo, heffect, heffect, h.names_eq]

theorem callLog_of_logs {call : TableCall} {ok : Prop} (h : call.Logs intf names pipeline ok log) (hok : ok)
    : callLog intf names pipeline call = some log := by
  have hrules {doInsert : Bool} {rules : List TableRules.TableRule}
      (h : LogsRules intf doInsert pipeline rules ok log)
      : rules.mapM (ruleEffect intf doInsert pipeline.info pipeline.handle) = some log := by
    obtain ⟨applied, rest, rfl, hlog, hrest⟩ := h
    rw [hrest.mp hok, List.append_nil]
    exact hlog
  cases call with
  | insertTableRule req => exact hrules h
  | deleteTableRule req => exact hrules h
  | clearTable req =>
    unfold TableCall.Logs LogsClear at h
    dsimp only at h
    unfold callLog
    split at h
    . next hempty =>
      obtain ⟨n, rfl, hall⟩ := h
      dsimp only
      rw [if_pos hempty, hall hok, List.take_length]
    . next hname =>
      dsimp only
      rw [if_neg hname]
      rcases h with ⟨_, rfl⟩ | ⟨hnot, _⟩
      . rfl
      . exact absurd hok hnot

-- A call for one rule or for one table does all or nothing, and a clearing of all tables a part
theorem prefix_of_logs {call : TableCall} {devId pipelineId : Nat} (hfor : IsFor call devId pipelineId)
    {ok : Prop} (h : call.Logs intf names pipeline ok log)
    : log = [] ∨ ∃ full, callLog intf names pipeline call = some full ∧ log <+: full := by
  have hrules {doInsert : Bool} {rules : List TableRules.TableRule} (hone : ∃ rule, rules = [rule])
      (h : LogsRules intf doInsert pipeline rules ok log)
      : log = [] ∨ ∃ full, rules.mapM (ruleEffect intf doInsert pipeline.info pipeline.handle) = some full ∧
          log <+: full := by
    obtain ⟨rule, rfl⟩ := hone
    obtain ⟨applied, rest, hsplit, hlog, _⟩ := h
    cases applied with
    | nil => exact .inl (Option.some.inj hlog).symm
    | cons first applied =>
      obtain ⟨rfl, hnil⟩ := List.cons.inj hsplit
      obtain ⟨rfl, rfl⟩ := List.append_eq_nil_iff.mp hnil.symm
      exact .inr ⟨log, hlog, List.prefix_rfl⟩
  cases call with
  | insertTableRule req => exact hrules hfor.2.2 h
  | deleteTableRule req => exact hrules hfor.2.2 h
  | clearTable req =>
    unfold TableCall.Logs LogsClear at h
    dsimp only at h
    unfold callLog
    dsimp only
    split at h
    . next hempty =>
      obtain ⟨n, rfl, _⟩ := h
      refine .inr ⟨_, if_pos hempty, ?_⟩
      exact (List.take_prefix n _).map _
    . next hname =>
      rcases h with ⟨_, rfl⟩ | ⟨_, rfl⟩
      . exact .inr ⟨_, if_neg hname, List.prefix_rfl⟩
      . exact .inl rfl

end Logs

section Steps

variable {σ τ : Type} {intf : TableIntf σ τ} {u : TableClient.Unicode} {names : σ → List String}
variable {entries : σ → Entries} {devices : List (Device σ)} {heap : ByteHeap} {call : Call}
variable {devId pipelineId : Nat} {pipeline : DevicePipeline σ}

-- A call changes nothing of a pipeline but its target, and nothing at all if it does not select it
theorem exists_pipelineAt_serve (req : TableCall) (d p : Nat)
    : ∃ f : DevicePipeline σ → DevicePipeline σ,
        pipelineAt (serve intf req devices heap).2.1 d p = (pipelineAt devices d p).map f ∧
        (∀ pipeline, (f pipeline).info = pipeline.info) ∧ (¬ req.Selects d p → f = id) := by
  have hites {c : Prop} [Decidable c] (f : DevicePipeline σ → DevicePipeline σ)
      (hf : ∀ pipeline, (f pipeline).info = pipeline.info)
      : (∀ pipeline, (if c then f pipeline else pipeline).info = pipeline.info) ∧
          (¬ c → (fun pipeline => if c then f pipeline else pipeline) = id) := by
    refine ⟨fun pipeline => ?_, fun hnot => funext fun pipeline => if_neg hnot⟩
    split
    . exact hf pipeline
    . rfl
  cases req with
  | insertTableRule req =>
    exact ⟨_, TableRules.pipelineAt_insertOrDeleteTableRule _ true req devices heap d p,
      hites _ fun _ => rfl⟩
  | deleteTableRule req =>
    exact ⟨_, TableRules.pipelineAt_insertOrDeleteTableRule _ false req devices heap d p,
      hites _ fun _ => rfl⟩
  | clearTable req =>
    exact ⟨_, TableClears.pipelineAt_clearTable req devices d p, hites _ fun _ => rfl⟩

theorem pipelineAt_serve {req : TableCall} (hfor : IsFor req devId pipelineId) {d p : Nat}
    (hne : ¬ (d = devId ∧ p = pipelineId))
    : pipelineAt (serve intf req devices heap).2.1 d p = pipelineAt devices d p := by
  obtain ⟨f, hat, _, hid⟩ := @exists_pipelineAt_serve _ _ intf devices heap req d p
  rw [hat, hid fun hsel => hne ((selects_iff hfor d p).mp hsel), Option.map_id, id]

theorem pipelineAt_issue (hfor : CallsFor call devId pipelineId) {d p : Nat}
    (hne : ¬ (d = devId ∧ p = pipelineId))
    : pipelineAt (issue intf u call devices heap).2.1 d p = pipelineAt devices d p := by
  unfold issue
  cases hreq : request u call with
  | error e => rfl
  | ok req => exact pipelineAt_serve (isFor_of_request hreq hfor) hne

-- A call that ends well has done all that it is for, and one that does not a part of it at most
theorem issue_follows (h : intf.Keeps names entries) (hfor : CallsFor call devId pipelineId)
    (hpipeline : pipelineAt devices devId pipelineId = some pipeline)
    : let r := issue intf u call devices heap
      ∃ pipeline' log, pipelineAt r.2.1 devId pipelineId = some pipeline' ∧
        Follows intf names entries pipeline pipeline' log ∧
        (r.1 = .ok () → requestLog intf u names pipeline call = some log) ∧
        (log = [] ∨ ∃ full, requestLog intf u names pipeline call = some full ∧ log <+: full) := by
  intro r
  cases hreq : request u call with
  | error e =>
    have hr : r = (.error e, devices, heap) := by
      unfold r issue
      rw [hreq]
    rw [hr]
    exact ⟨pipeline, [], hpipeline, .refl pipeline, nofun, .inl rfl⟩
  | ok req =>
    have hr : r = (ending (serve intf req devices heap).1, (serve intf req devices heap).2) := by
      unfold r issue
      rw [hreq]
    have hrequest : requestLog intf u names pipeline call = callLog intf names pipeline req := by
      unfold requestLog
      rw [hreq]
      rfl
    have hfor' := isFor_of_request hreq hfor
    have hselects := (selects_iff hfor' devId pipelineId).mpr ⟨rfl, rfl⟩
    obtain ⟨handle', log, hat, halike, hlogged, hafter⟩ := TableRuns.serve_logged h req heap hpipeline
    have hlogs := hlogged.selected hselects
    rw [hr, hrequest]
    refine ⟨{ pipeline with handle := handle' }, log, hat, ⟨rfl, halike, hafter⟩, ?_, ?_⟩
    . intro hok
      exact callLog_of_logs hlogs ((ending_serve_iff hfor' hpipeline).mp hok)
    . exact prefix_of_logs hfor' hlogs

theorem issueAll_concat (calls : List Call)
    : issueAll intf u (calls ++ [call]) devices heap =
        let world := issueAll intf u calls devices heap
        (issue intf u call world.1 world.2).2 := by
  unfold issueAll
  rw [List.foldl_append]
  rfl

theorem callsFor_of_call {resp : PipelineInfoResponse} {op : P4bmOp}
    (h : op.call u.toUnicode (toPipeline resp) = .ok call)
    : CallsFor call resp.devId resp.pipelineId := by
  cases op with
  | clearAll lineno =>
    obtain rfl := Except.ok.inj h
    exact ⟨rfl, rfl⟩
  | tableAdd lineno tableName actionName matchTexts actionParams =>
    obtain ⟨r, _, h⟩ := Except.bind_eq_ok_iff.mp h
    obtain rfl := Except.ok.inj h
    exact ⟨rfl, rfl⟩
  | tableClear lineno tableName =>
    obtain rfl := Except.ok.inj h
    exact ⟨rfl, rfl⟩

end Steps

section Applied

variable {σ τ : Type} (intf : TableIntf σ τ) (u : TableClient.Unicode) (names : σ → List String)
variable (entries : σ → Entries)

def Describes (resp : PipelineInfoResponse) (devId pipelineId : Nat) : Prop :=
  devId = resp.devId ∧ pipelineId = resp.pipelineId

-- An operation that is not done for a pipeline: the client refuses it, or the agent answers it with a
-- failure
inductive Refused (resp : PipelineInfoResponse) (op : P4bmOp) (world : List (Device σ) × ByteHeap)
    (e : P4bmError) : Prop where
  | byClient (h : op.call u.toUnicode (toPipeline resp) = .error e)
  | byAgent (call : Call) (hcall : op.call u.toUnicode (toPipeline resp) = .ok call)
    (h : (issue intf u call world.1 world.2).1 = .error e)

-- The operations for a pipeline stopped at `op`, which is refused when those before it have been done
structure StoppedAt (resp : PipelineInfoResponse) (before : List P4bmOp) (op : P4bmOp)
    (pipeline : DevicePipeline σ) (log : List Effect) (e : P4bmError) : Prop where
  part : OfBefore (opLog intf u names (toPipeline resp) pipeline) before op log
  refused : ∃ world pipeline' log', OfAll (opLog intf u names (toPipeline resp) pipeline) before log' ∧
    pipelineAt world.1 resp.devId resp.pipelineId = some pipeline' ∧
    Follows intf names entries pipeline pipeline' log' ∧ Refused intf u resp op world e

-- All operations are applied to the pipelines in `done`, and those before the one that ended the run to the
-- pipeline at which it stopped
structure Applied (ops : List P4bmOp) (outcome : Except P4bmError Unit) (done : List PipelineInfoResponse)
    (stopped : Option PipelineInfoResponse) (devId pipelineId : Nat) (pipeline : DevicePipeline σ)
    (log : List Effect) : Prop where
  whole : ∀ resp ∈ done, Describes resp devId pipelineId →
    OfAll (opLog intf u names (toPipeline resp) pipeline) ops log
  part : ∀ resp ∈ stopped, Describes resp devId pipelineId →
    ∃ before op after e, ops = before ++ op :: after ∧ outcome = .error e ∧
      StoppedAt intf u names entries resp before op pipeline log e
  others : (∀ resp ∈ done ++ stopped.toList, ¬ Describes resp devId pipelineId) → log = []

end Applied

section Runs

variable {σ τ : Type} {intf : TableIntf σ τ} {u : TableClient.Unicode} {names : σ → List String}
variable {entries : σ → Entries} {devices : List (Device σ)} {heap : ByteHeap} {calls : List Call}
variable {resp : PipelineInfoResponse} {pipeline : DevicePipeline σ}

-- An operation that is done comes before those that were stopped
theorem StoppedAt.cons {pipeline₁ : DevicePipeline σ} {before : List P4bmOp} {op last : P4bmOp}
    {log log₁ : List Effect} {e : P4bmError}
    (h : StoppedAt intf u names entries resp before last pipeline₁ log e)
    (halike : opLog intf u names (toPipeline resp) pipeline₁ = opLog intf u names (toPipeline resp) pipeline)
    (hfollows : Follows intf names entries pipeline pipeline₁ log₁)
    (hlog : opLog intf u names (toPipeline resp) pipeline op = some log₁)
    : StoppedAt intf u names entries resp (op :: before) last pipeline (log₁ ++ log) e := by
  obtain ⟨hpart, world, pipeline', log', hbefore, hat, hfollows', hrefused⟩ := h
  rw [halike] at hpart hbefore
  exact ⟨hpart.cons hlog, world, pipeline', log₁ ++ log', hbefore.cons hlog, hat,
    hfollows.trans hfollows', hrefused⟩

section Pipelines

variable {ops : List P4bmOp} {outcome : Except P4bmError Unit} {done : List PipelineInfoResponse}
variable {stopped : Option PipelineInfoResponse} {d p : Nat} {log : List Effect}

theorem Applied.stoppedAt {before after : List P4bmOp} {op : P4bmOp} {e : P4bmError}
    (hops : ops = before ++ op :: after)
    (h : StoppedAt intf u names entries resp before op pipeline log e)
    : Applied intf u names entries ops (.error e) [] (some resp) resp.devId resp.pipelineId pipeline
        log := by
  refine ⟨nofun, ?_, fun hnone => ?_⟩
  . intro resp' hresp' _
    cases hresp'
    exact ⟨before, op, after, e, hops, rfl, h⟩
  . exact absurd ⟨rfl, rfl⟩ (hnone resp List.mem_cons_self)

theorem Applied.untouched (h : ¬ Describes resp d p)
    : Applied intf u names entries ops outcome [] (some resp) d p pipeline [] := by
  refine ⟨nofun, ?_, fun _ => rfl⟩
  intro resp' hresp' hdesc
  cases hresp'
  exact absurd hdesc h

-- A pipeline that has had all operations is not among the others
theorem Applied.cons_self (h : OfAll (opLog intf u names (toPipeline resp) pipeline) ops log)
    (hothers : ∀ resp' ∈ done ++ stopped.toList, ¬ Describes resp' resp.devId resp.pipelineId)
    : Applied intf u names entries ops outcome (resp :: done) stopped resp.devId resp.pipelineId pipeline
        log := by
  refine ⟨?_, ?_, fun hnone => ?_⟩
  . intro resp' hmem hdesc
    rcases List.mem_cons.mp hmem with rfl | hmem
    . exact h
    . exact absurd hdesc (hothers resp' (List.mem_append_left _ hmem))
  . intro resp' hmem hdesc
    exact absurd hdesc (hothers resp' (List.mem_append_right _ (Option.mem_toList.mpr hmem)))
  . exact absurd ⟨rfl, rfl⟩ (hnone resp List.mem_cons_self)

theorem Applied.cons (h : Applied intf u names entries ops outcome done stopped d p pipeline log)
    (hdesc : ¬ Describes resp d p)
    : Applied intf u names entries ops outcome (resp :: done) stopped d p pipeline log := by
  refine ⟨?_, h.part, ?_⟩
  . intro resp' hmem hdesc'
    rcases List.mem_cons.mp hmem with rfl | hmem
    . exact absurd hdesc' hdesc
    . exact h.whole resp' hmem hdesc'
  . intro hnone
    exact h.others fun resp' hmem => hnone resp' (List.mem_cons_of_mem _ hmem)

end Pipelines

-- By induction on the operations: one that is done adds its log, and the first one that is not adds a part
-- of its own
theorem applyOps_follows (h : intf.Keeps names entries) (ops : List P4bmOp)
    (hpipeline : pipelineAt (issueAll intf u calls devices heap).1 resp.devId resp.pipelineId =
      some pipeline)
    : let r := applyOps u.toUnicode (agentStub intf u devices heap) (toPipeline resp) ops calls
      (∃ pipeline' log,
        pipelineAt (issueAll intf u r.1 devices heap).1 resp.devId resp.pipelineId = some pipeline' ∧
        Follows intf names entries pipeline pipeline' log ∧
        (r.2 = .ok () → OfAll (opLog intf u names (toPipeline resp) pipeline) ops log) ∧
        ∀ e, r.2 = .error e → ∃ before op after, ops = before ++ op :: after ∧
          StoppedAt intf u names entries resp before op pipeline log e) ∧
      ∀ d p, ¬ (d = resp.devId ∧ p = resp.pipelineId) →
        pipelineAt (issueAll intf u r.1 devices heap).1 d p =
          pipelineAt (issueAll intf u calls devices heap).1 d p := by
  induction ops generalizing calls pipeline with
  | nil => exact ⟨⟨pipeline, [], hpipeline, .refl pipeline, fun _ => .nil, nofun⟩, fun _ _ _ => rfl⟩
  | cons op ops ih =>
    intro r
    cases hcall : op.call u.toUnicode (toPipeline resp) with
    | error e =>
      have hr : r = (calls, .error e) := by
        unfold r applyOps
        rw [hcall]
      rw [hr]
      refine ⟨⟨pipeline, [], hpipeline, .refl pipeline, nofun, ?_⟩, fun _ _ _ => rfl⟩
      rintro e' ⟨⟩
      exact ⟨[], op, ops, rfl, .nil, _, pipeline, [], .nil, hpipeline, .refl pipeline, .byClient hcall⟩
    | ok call =>
      have hfor := callsFor_of_call hcall
      have hop : opLog intf u names (toPipeline resp) pipeline op =
          requestLog intf u names pipeline call := by
        unfold opLog
        rw [hcall]
        rfl
      obtain ⟨pipeline₁, log₁, hat, hfollows, hwhole, hpart⟩ :=
        @issue_follows _ _ intf u names entries _ (issueAll intf u calls devices heap).2 call _ _ _ h hfor
          hpipeline
      rw [← issueAll_concat] at hat
      have hothers : ∀ d p, ¬ (d = resp.devId ∧ p = resp.pipelineId) →
          pipelineAt (issueAll intf u (calls ++ [call]) devices heap).1 d p =
            pipelineAt (issueAll intf u calls devices heap).1 d p := by
        intro d p hne
        rw [issueAll_concat]
        exact pipelineAt_issue hfor hne
      rw [← hop] at hwhole hpart
      cases hissue : agentStub intf u devices heap calls call with
      | error e =>
        have hr : r = (calls ++ [call], .error e) := by
          unfold r applyOps
          rw [hcall]
          dsimp only
          rw [hissue]
        rw [hr]
        refine ⟨⟨pipeline₁, log₁, hat, hfollows, nofun, ?_⟩, hothers⟩
        rintro e' ⟨⟩
        exact ⟨[], op, ops, rfl, .head hpart, _, pipeline, [], .nil, hpipeline, .refl pipeline,
          .byAgent call hcall hissue⟩
      | ok done =>
        have hr : r = applyOps u.toUnicode (agentStub intf u devices heap) (toPipeline resp) ops
            (calls ++ [call]) := by
          unfold r
          rw [applyOps, hcall]
          dsimp only
          rw [hissue]
        obtain ⟨⟨pipeline₂, log₂, hat₂, hfollows₂, hwhole₂, hpart₂⟩, hothers₂⟩ := ih hat
        have halike := opLog_of_alike (u := u) hfollows.info_eq hfollows.alike (toPipeline resp)
        rw [halike] at hwhole₂
        have hlog₁ := hwhole hissue
        rw [hr]
        refine ⟨⟨pipeline₂, log₁ ++ log₂, hat₂, hfollows.trans hfollows₂, ?_, ?_⟩, ?_⟩
        . intro hok
          exact (hwhole₂ hok).cons hlog₁
        . intro e he
          obtain ⟨before, last, after, rfl, hstopped⟩ := hpart₂ e he
          exact ⟨op :: before, last, after, rfl, hstopped.cons halike hfollows hlog₁⟩
        . intro d p hne
          rw [hothers₂ d p hne, hothers d p hne]

-- By induction on the pipelines, of which each one is described once
theorem applyPipelines_follows (h : intf.Keeps names entries) (ops : List P4bmOp)
    (ending : Except P4bmError Unit) (resps : List PipelineInfoResponse)
    (hnodup : (resps.map idsOf).Nodup)
    (hexists : ∀ resp ∈ resps, ∃ pipeline,
      pipelineAt (issueAll intf u calls devices heap).1 resp.devId resp.pipelineId = some pipeline)
    : let r := applyPipelines u.toUnicode (agentStub intf u devices heap) ops (resps.map toPipeline) ending
        calls
      ∃ done rest, resps = done ++ rest ∧ (r.2 = .ok () → rest = [] ∧ ending = .ok ()) ∧
        (rest = [] → r.2 = ending) ∧
        ∀ d p pipeline, pipelineAt (issueAll intf u calls devices heap).1 d p = some pipeline →
          ∃ pipeline' log, pipelineAt (issueAll intf u r.1 devices heap).1 d p = some pipeline' ∧
            Follows intf names entries pipeline pipeline' log ∧
            Applied intf u names entries ops r.2 done rest.head? d p pipeline log := by
  induction resps generalizing calls with
  | nil =>
    refine ⟨[], [], rfl, fun hok => ⟨rfl, hok⟩, fun _ => rfl, fun d p pipeline hpipeline => ?_⟩
    exact ⟨pipeline, [], hpipeline, .refl pipeline, nofun, nofun, fun _ => rfl⟩
  | cons resp resps ih =>
    intro r
    rw [List.map_cons, List.nodup_cons] at hnodup
    have hlater : ∀ resp' ∈ resps, ¬ Describes resp' resp.devId resp.pipelineId := by
      rintro resp' hmem ⟨hd, hp⟩
      exact hnodup.1 (List.mem_map.mpr ⟨resp', hmem, by unfold idsOf; rw [hd, hp]⟩)
    obtain ⟨pipeline₀, hpipeline₀⟩ := hexists resp List.mem_cons_self
    obtain ⟨⟨pipeline₁, log₁, hat, hfollows, hwhole, hpart⟩, hothers⟩ :=
      applyOps_follows h ops hpipeline₀
    rcases hops : applyOps u.toUnicode (agentStub intf u devices heap) (toPipeline resp) ops calls with
      ⟨calls', outcome⟩
    rw [hops] at hat hwhole hpart hothers
    cases outcome with
    | error e =>
      have hr : r = (calls', .error e) := by
        unfold r
        rw [List.map_cons, applyPipelines, hops]
      rw [hr]
      refine ⟨[], resp :: resps, rfl, nofun, nofun, fun d p pipeline hpipeline => ?_⟩
      by_cases hdesc : Describes resp d p
      . obtain ⟨rfl, rfl⟩ := hdesc
        obtain rfl := Option.some.inj (hpipeline₀.symm.trans hpipeline)
        obtain ⟨before, op, after, hsplit, hstopped⟩ := hpart e rfl
        exact ⟨pipeline₁, log₁, hat, hfollows, .stoppedAt hsplit hstopped⟩
      . refine ⟨pipeline, [], ?_, .refl pipeline, .untouched hdesc⟩
        rw [hothers d p hdesc, hpipeline]
    | ok _ =>
      have hr : r = applyPipelines u.toUnicode (agentStub intf u devices heap) ops (resps.map toPipeline)
          ending calls' := by
        unfold r
        rw [List.map_cons, applyPipelines, hops]
      have hexists' : ∀ resp' ∈ resps, ∃ pipeline,
          pipelineAt (issueAll intf u calls' devices heap).1 resp'.devId resp'.pipelineId =
            some pipeline := by
        intro resp' hmem
        rw [hothers _ _ fun hdesc => hlater resp' hmem ⟨hdesc.1.symm, hdesc.2.symm⟩]
        exact hexists resp' (List.mem_cons_of_mem _ hmem)
      obtain ⟨done, rest, rfl, hok, hending, hrest⟩ := ih hnodup.2 hexists'
      rw [hr]
      refine ⟨resp :: done, rest, rfl, hok, hending, fun d p pipeline hpipeline => ?_⟩
      by_cases hdesc : Describes resp d p
      . obtain ⟨rfl, rfl⟩ := hdesc
        obtain rfl := Option.some.inj (hpipeline₀.symm.trans hpipeline)
        have hothers' : ∀ resp' ∈ done ++ rest.head?.toList,
            ¬ Describes resp' resp.devId resp.pipelineId := by
          intro resp' hmem
          apply hlater
          rcases List.mem_append.mp hmem with hdone | hhead
          . exact List.mem_append_left _ hdone
          . exact List.mem_append_right _ (List.mem_of_mem_head? (Option.mem_toList.mp hhead))
        obtain ⟨pipeline₂, log₂, hat₂, hfollows₂, happlied⟩ := hrest _ _ _ hat
        obtain rfl := happlied.others hothers'
        have hlog := hfollows.trans hfollows₂
        rw [List.append_nil] at hlog
        exact ⟨pipeline₂, log₁, hat₂, hlog, .cons_self (hwhole rfl) hothers'⟩
      . rw [← hothers d p hdesc] at hpipeline
        obtain ⟨pipeline₂, log₂, hat₂, hfollows₂, happlied⟩ := hrest d p pipeline hpipeline
        exact ⟨pipeline₂, log₂, hat₂, hfollows₂, happlied.cons hdesc⟩

end Runs

section Files

open ForSelected (Selects partAt)

variable {σ τ : Type} {intf : TableIntf σ τ} {u : TableClient.Unicode} {names : σ → List String}
variable {entries : σ → Entries} {infos : List (List PipelineAgent.DevicePipeline)}
variable {devices : List (Device σ)} {devId pipelineId : Int} {d p : Nat}

-- The pipelines of the devices are set up with the descriptions that the agent tells of
def DescribedBy (infos : List (List PipelineAgent.DevicePipeline)) (devices : List (Device σ)) : Prop :=
  devices.map (fun dev => dev.pipelines.map DevicePipeline.info) =
    infos.map fun pipelines => pipelines.map fun pipeline => pipeline.info.toSnp4InfoPipeline

theorem partAt_of_describedBy (h : DescribedBy infos devices) (d p : Nat)
    : (pipelineAt devices d p).map DevicePipeline.info =
        (partAt infos d p).map fun pipeline => pipeline.info.toSnp4InfoPipeline := by
  have hget := congrArg (·[d]?) h
  simp only [List.getElem?_map] at hget
  unfold pipelineAt partAt
  cases hdev : devices[d]? with
  | none =>
    rw [hdev, Option.map_none, eq_comm, Option.map_eq_none_iff] at hget
    rw [hget]
    rfl
  | some dev =>
    rw [hdev, Option.map_some, eq_comm, Option.map_eq_some_iff] at hget
    obtain ⟨pipelines, hpipelines, heq⟩ := hget
    have hget' := congrArg (·[p]?) heq
    simp only [List.getElem?_map] at hget'
    rw [hpipelines]
    exact hget'.symm

theorem exists_pipelineAt_iff (h : DescribedBy infos devices)
    : (∃ pipeline, pipelineAt devices d p = some pipeline) ↔
        ∃ pipeline, partAt infos d p = some pipeline := by
  have hmap := congrArg Option.isSome (partAt_of_describedBy h d p)
  rw [Option.isSome_map, Option.isSome_map] at hmap
  rw [← Option.isSome_iff_exists, ← Option.isSome_iff_exists, hmap]

theorem applyFile_eq_of_error {p4bmFile : P4bm.Text} {e : P4bmError}
    (h : parseP4bm u.toUnicode p4bmFile = .error e) (heap : ByteHeap)
    : applyFile intf u infos devId pipelineId p4bmFile devices heap = (.error e, devices, heap) := by
  unfold applyFile applyP4bm
  rw [h]
  rfl

theorem applyFile_eq_of_ok {p4bmFile : P4bm.Text} {ops : List P4bmOp}
    (h : parseP4bm u.toUnicode p4bmFile = .ok ops) (heap : ByteHeap)
    : applyFile intf u infos devId pipelineId p4bmFile devices heap =
        let resps := rpcGetPipelineInfo infos devId pipelineId
        let r := applyPipelines u.toUnicode (agentStub intf u devices heap) ops (resps.1.map toPipeline)
          resps.2 []
        (r.2, issueAll intf u r.1 devices heap) := by
  unfold applyFile applyP4bm
  rw [h]

-- What applying a file has done to a pipeline, when it is done with some of the pipelines that the agent
-- tells of and not with the rest
structure FileApplied (intf : TableIntf σ τ) (u : TableClient.Unicode) (names : σ → List String)
    (entries : σ → Entries) (p4bmFile : P4bm.Text) (outcome : Except P4bmError Unit)
    (done rest : List PipelineInfoResponse) (d p : Nat) (pipeline : DevicePipeline σ)
    (log : List Effect) : Prop where
  parsed : ∀ ops, parseP4bm u.toUnicode p4bmFile = .ok ops →
    Applied intf u names entries ops outcome done rest.head? d p pipeline log
  refused : ∀ e, parseP4bm u.toUnicode p4bmFile = .error e → outcome = .error e ∧ log = []

theorem applyFile_follows (h : intf.Keeps names entries) (hinfos : DescribedBy infos devices)
    (devId pipelineId : Int) (p4bmFile : P4bm.Text) (heap : ByteHeap)
    : let resps := rpcGetPipelineInfo infos devId pipelineId
      let r := applyFile intf u infos devId pipelineId p4bmFile devices heap
      ∃ done rest, resps.1 = done ++ rest ∧
        (r.1 = .ok () → rest = [] ∧ resps.2 = .ok () ∧
          ∃ ops, parseP4bm u.toUnicode p4bmFile = .ok ops) ∧
        (∀ e, r.1 = .error e →
          parseP4bm u.toUnicode p4bmFile = .error e ∨ rest ≠ [] ∨ resps.2 = .error e) ∧
        ∀ d p pipeline, pipelineAt devices d p = some pipeline →
          ∃ pipeline' log, pipelineAt r.2.1 d p = some pipeline' ∧
            Follows intf names entries pipeline pipeline' log ∧
            FileApplied intf u names entries p4bmFile r.1 done rest d p pipeline log := by
  intro resps r
  cases hparse : parseP4bm u.toUnicode p4bmFile with
  | error e =>
    have hr : r = (.error e, devices, heap) := applyFile_eq_of_error hparse heap
    rw [hr]
    refine ⟨[], resps.1, rfl, nofun, ?_, fun d p pipeline hpipeline => ?_⟩
    . exact fun e' he => .inl (congrArg Except.error (Except.error.inj he))
    refine ⟨pipeline, [], hpipeline, .refl pipeline, fun ops hops => ?_, fun e' he' => ?_⟩
    . rw [hparse] at hops
      cases hops
    . rw [hparse] at he'
      exact ⟨congrArg Except.error (Except.error.inj he'), rfl⟩
  | ok ops =>
    have hr : applyFile intf u infos devId pipelineId p4bmFile devices heap = _ :=
      applyFile_eq_of_ok hparse heap
    have hexists : ∀ resp ∈ resps.1, ∃ pipeline,
        pipelineAt (issueAll intf u [] devices heap).1 resp.devId resp.pipelineId = some pipeline := by
      intro resp hmem
      obtain ⟨d, p, pipeline, hpart, _, _, rfl⟩ := exists_of_mem_rpcGetPipelineInfo hmem
      exact (exists_pipelineAt_iff hinfos).mpr ⟨pipeline, hpart⟩
    obtain ⟨done, rest, hsplit, hok, hending, hall⟩ :=
      applyPipelines_follows h ops resps.2 resps.1 nodup_rpcGetPipelineInfo hexists
    unfold r
    rw [hr]
    refine ⟨done, rest, hsplit, fun hrun => ⟨(hok hrun).1, (hok hrun).2, ops, rfl⟩, ?_, ?_⟩
    . intro e he
      by_cases hrest : rest = []
      . exact .inr (.inr ((hending hrest).symm.trans he))
      . exact .inr (.inl hrest)
    . intro d p pipeline hpipeline
      obtain ⟨pipeline', log, hat, hfollows, happlied⟩ := hall d p pipeline hpipeline
      refine ⟨pipeline', log, hat, hfollows, fun ops' hops' => ?_, fun e he => ?_⟩
      . obtain rfl := Except.ok.inj (hparse.symm.trans hops')
        exact happlied
      . rw [hparse] at he
        cases he

-- A response is told by its ids
theorem eq_of_describes {resp resp' : PipelineInfoResponse}
    (h : resp ∈ (rpcGetPipelineInfo infos devId pipelineId).1)
    (h' : resp' ∈ (rpcGetPipelineInfo infos devId pipelineId).1) (hdesc : Describes resp d p)
    (hdesc' : Describes resp' d p)
    : resp = resp' := by
  obtain ⟨_, _, pipeline, hpart, _, _, rfl⟩ := exists_of_mem_rpcGetPipelineInfo h
  obtain ⟨_, _, pipeline', hpart', _, _, rfl⟩ := exists_of_mem_rpcGetPipelineInfo h'
  obtain ⟨rfl, rfl⟩ := hdesc
  obtain ⟨rfl, rfl⟩ := hdesc'
  obtain rfl := Option.some.inj (hpart.symm.trans hpart')
  rfl

-- What has been applied to a pipeline that is selected, when nothing has failed
theorem ofAll_of_fileApplied (hinfos : DescribedBy infos devices) {p4bmFile : P4bm.Text}
    {pipeline : DevicePipeline σ} {log : List Effect}
    (hpipeline : pipelineAt devices d p = some pipeline)
    (hending : (rpcGetPipelineInfo infos devId pipelineId).2 = .ok ()) {ops : List P4bmOp}
    (hops : parseP4bm u.toUnicode p4bmFile = .ok ops) (hdev : Selects devId d) (hid : Selects pipelineId p)
    {outcome : Except P4bmError Unit}
    (happlied : FileApplied intf u names entries p4bmFile outcome
      (rpcGetPipelineInfo infos devId pipelineId).1 [] d p pipeline log)
    : ∃ resp ∈ (rpcGetPipelineInfo infos devId pipelineId).1, Describes resp d p ∧
        OfAll (opLog intf u names (toPipeline resp) pipeline) ops log := by
  obtain ⟨info, hpart⟩ := (exists_pipelineAt_iff hinfos).mp ⟨pipeline, hpipeline⟩
  have hmem := mem_rpcGetPipelineInfo hending hpart hdev hid
  exact ⟨_, hmem, ⟨rfl, rfl⟩, (happlied.parsed ops hops).whole _ hmem ⟨rfl, rfl⟩⟩

/--
Applying a file goes through the pipelines that its ids select, and through the operations of the file for
each of them, up to the first one that is refused: the tables of a pipeline that is done have followed the
logs of all operations, those of the pipeline at which it stopped the logs of the operations before the
refused one and at most a part of that one, and all other tables are as they were. Nothing else fails but
the parsing of the file and the request that tells of the pipelines.
-/
theorem tables_follow_file (h : intf.Keeps names entries) (hinfos : DescribedBy infos devices)
    (devId pipelineId : Int) (p4bmFile : P4bm.Text) (heap : ByteHeap)
    : let resps := (rpcGetPipelineInfo infos devId pipelineId).1
      let r := applyFile intf u infos devId pipelineId p4bmFile devices heap
      ∃ done rest, resps = done ++ rest ∧
        (∀ e, r.1 = .error e →
          parseP4bm u.toUnicode p4bmFile = .error e ∨ rest ≠ [] ∨
            (rpcGetPipelineInfo infos devId pipelineId).2 = .error e) ∧
        ∀ d p pipeline, pipelineAt devices d p = some pipeline →
          ∃ pipeline' log, pipelineAt r.2.1 d p = some pipeline' ∧
            Follows intf names entries pipeline pipeline' log ∧
            FileApplied intf u names entries p4bmFile r.1 done rest d p pipeline log ∧
            (¬ (Selects devId d ∧ Selects pipelineId p) → log = []) ∧
            (r.1 = .ok () → Selects devId d → Selects pipelineId p →
              ∃ ops, parseP4bm u.toUnicode p4bmFile = .ok ops ∧
                ∃ resp ∈ resps, Describes resp d p ∧
                  OfAll (opLog intf u names (toPipeline resp) pipeline) ops log) := by
  intro resps r
  obtain ⟨done, rest, hsplit, hok, herror, hall⟩ :=
    applyFile_follows h hinfos devId pipelineId p4bmFile heap
  refine ⟨done, rest, hsplit, herror, fun d p pipeline hpipeline => ?_⟩
  obtain ⟨pipeline', log, hat, hfollows, happlied⟩ := hall d p pipeline hpipeline
  refine ⟨pipeline', log, hat, hfollows, happlied, ?_, ?_⟩
  . intro hnot
    cases hparse : parseP4bm u.toUnicode p4bmFile with
    | error e => exact (happlied.refused e hparse).2
    | ok ops =>
      refine (happlied.parsed ops hparse).others fun resp hmem hdesc => hnot ?_
      have hresp : resp ∈ resps := by
        unfold resps
        rw [hsplit]
        rcases List.mem_append.mp hmem with hdone | hhead
        . exact List.mem_append_left _ hdone
        . exact List.mem_append_right _ (List.mem_of_mem_head? (Option.mem_toList.mp hhead))
      obtain ⟨_, _, _, _, hdev, hid, rfl⟩ := exists_of_mem_rpcGetPipelineInfo hresp
      obtain ⟨rfl, rfl⟩ := hdesc
      exact ⟨hdev, hid⟩
  . intro hrun hdev hid
    obtain ⟨rfl, hending, ops, hops⟩ := hok hrun
    rw [List.append_nil] at hsplit
    rw [← hsplit] at happlied
    exact ⟨ops, hops, ofAll_of_fileApplied hinfos hpipeline hending hops hdev hid happlied⟩

theorem opLog_clearAll {resp : PipelineInfoResponse} {pipeline : DevicePipeline σ} {lineno : Nat}
    {log : List Effect}
    (h : opLog intf u names (toPipeline resp) pipeline (.clearAll lineno) = some log)
    : log = (names pipeline.handle).map .clear := by
  unfold opLog requestLog at h
  obtain ⟨call, hcall, h⟩ := Option.bind_eq_some_iff.mp h
  obtain ⟨req, hreq, h⟩ := Option.bind_eq_some_iff.mp h
  obtain rfl := Option.some.inj hcall
  cases hreq' : request u (.clearTable (toPipeline resp).devId (toPipeline resp).pipelineId []) with
  | error e =>
    rw [hreq'] at hreq
    cases hreq
  | ok req' =>
    rw [hreq'] at hreq
    obtain rfl := Option.some.inj hreq
    obtain ⟨_, _, hreq'⟩ := Except.bind_eq_ok_iff.mp hreq'
    obtain ⟨_, _, hreq'⟩ := Except.bind_eq_ok_iff.mp hreq'
    obtain rfl := Except.ok.inj hreq'
    exact (Option.some.inj h).symm

-- What is kept after all tables have been cleared does not depend on what was kept before
theorem after_clears_eq (h : intf.Keeps names entries) (s : σ)
    : EntryLog.after ((names s).map .clear) (entries s) = fun _ _ => none := by
  funext name key
  rw [EntryLog.after_clears]
  split
  . rfl
  . next hnot =>
    by_contra hne
    exact hnot (h.named s name key hne)

-- The tables after a file that begins with a clearing of all of them
theorem entries_of_clearAll (h : intf.Keeps names entries) (hinfos : DescribedBy infos devices)
    {p4bmFile : P4bm.Text} {lineno : Nat} {ops : List P4bmOp}
    (hops : parseP4bm u.toUnicode p4bmFile = .ok (.clearAll lineno :: ops)) {heap : ByteHeap}
    (hok : (applyFile intf u infos devId pipelineId p4bmFile devices heap).1 = .ok ())
    {pipeline : DevicePipeline σ} (hpipeline : pipelineAt devices d p = some pipeline)
    (hdev : Selects devId d) (hid : Selects pipelineId p)
    : ∃ pipeline' log,
        pipelineAt (applyFile intf u infos devId pipelineId p4bmFile devices heap).2.1 d p =
          some pipeline' ∧
        (∃ resp ∈ (rpcGetPipelineInfo infos devId pipelineId).1, Describes resp d p ∧
          OfAll (opLog intf u names (toPipeline resp) pipeline) ops log) ∧
        entries pipeline'.handle = EntryLog.after log fun _ _ => none := by
  obtain ⟨done, rest, hsplit, hdone, -, hall⟩ :=
    applyFile_follows h hinfos devId pipelineId p4bmFile heap
  obtain ⟨pipeline', log, hat, hfollows, happlied⟩ := hall d p pipeline hpipeline
  obtain ⟨rfl, hending, _, _⟩ := hdone hok
  rw [List.append_nil] at hsplit
  rw [← hsplit] at happlied
  obtain ⟨resp, hmem, hdesc, hlog⟩ := ofAll_of_fileApplied hinfos hpipeline hending hops hdev hid happlied
  obtain ⟨first, log', hfirst, hlog', rfl⟩ := hlog.of_cons
  obtain rfl := opLog_clearAll hfirst
  refine ⟨pipeline', log', hat, ⟨resp, hmem, hdesc, hlog'⟩, ?_⟩
  rw [hfollows.entries_eq, EntryLog.after_append, after_clears_eq h]

/--
A file that begins with `clear_all` leaves the same entries whatever the tables held before: two agents
with pipelines that are set up alike hold the same after it has been applied to both.
-/
theorem clearAll_file_determines_tables (h : intf.Keeps names entries)
    {devices devices' : List (Device σ)} (hinfos : DescribedBy infos devices)
    (hinfos' : DescribedBy infos devices') {pipeline pipeline' : DevicePipeline σ}
    (hpipeline : pipelineAt devices d p = some pipeline)
    (hpipeline' : pipelineAt devices' d p = some pipeline')
    (halike : SetUpAlike intf names pipeline.handle pipeline'.handle) {p4bmFile : P4bm.Text}
    {lineno : Nat} {ops : List P4bmOp}
    (hops : parseP4bm u.toUnicode p4bmFile = .ok (.clearAll lineno :: ops)) (heap heap' : ByteHeap)
    (hok : (applyFile intf u infos devId pipelineId p4bmFile devices heap).1 = .ok ())
    (hok' : (applyFile intf u infos devId pipelineId p4bmFile devices' heap').1 = .ok ())
    (hdev : Selects devId d) (hid : Selects pipelineId p)
    : ∃ after after',
        pipelineAt (applyFile intf u infos devId pipelineId p4bmFile devices heap).2.1 d p = some after ∧
        pipelineAt (applyFile intf u infos devId pipelineId p4bmFile devices' heap').2.1 d p =
          some after' ∧
        entries after'.handle = entries after.handle := by
  obtain ⟨after, log, hat, ⟨resp, hmem, hdesc, hlog⟩, hentries⟩ :=
    entries_of_clearAll h hinfos hops hok hpipeline hdev hid
  obtain ⟨after', log', hat', ⟨resp', hmem', hdesc', hlog'⟩, hentries'⟩ :=
    entries_of_clearAll h hinfos' hops hok' hpipeline' hdev hid
  obtain rfl := eq_of_describes hmem hmem' hdesc hdesc'
  have hinfo : pipeline'.info = pipeline.info := by
    have hat := partAt_of_describedBy hinfos d p
    have hat' := partAt_of_describedBy hinfos' d p
    rw [hpipeline] at hat
    rw [hpipeline', ← hat] at hat'
    exact Option.some.inj hat'
  rw [opLog_of_alike hinfo halike] at hlog'
  obtain rfl := hlog.unique hlog'
  exact ⟨after, after', hat, hat', by rw [hentries', hentries]⟩

end Files

section Listed

open Snp4InfoHw (aclPipeline)

def aclTarget (entries : Dict EntryKey EntryValue) : ListedTarget where
  names := ["acl"]
  target := fun name =>
    if name = "acl" then some { mode := .stcam, actions := ["drop", "forward"], entries := entries } else none
  named := by
    intro name hne
    by_contra hnot
    rw [if_neg (by simpa using hnot)] at hne
    exact hne rfl

def aclEntries : Dict EntryKey EntryValue :=
  Dict.empty.insert (some [192, 168, 0, 0, 0, 80], some [255, 255, 0, 0, 255, 255]) ⟨1, 0, none⟩

def aclInfos : List (List PipelineAgent.DevicePipeline) :=
  [[{ id := 0, info := aclPipeline, stats := { counters := none, tableEcc := none } }]]

def aclDevices (entries : Dict EntryKey EntryValue) : List (Device ListedTarget) :=
  [{ pipelines := [{ info := aclPipeline.toSnp4InfoPipeline, handle := aclTarget entries }] }]

def aclFile : P4bm.Text :=
  "clear_all\ntable_add acl forward 0xa000000/8 80&&&0xffff => 3 7\n".toList

def applyAclFile (entries : Dict EntryKey EntryValue)
    : Except P4bmError Unit × List (Device ListedTarget) × ByteHeap :=
  applyFile ListedTarget.intf .ascii aclInfos (-1) 0 aclFile (aclDevices entries) Heap.empty

theorem describedBy_aclInfos (entries : Dict EntryKey EntryValue)
    : DescribedBy aclInfos (aclDevices entries) := by
  rfl

theorem setUpAlike_aclTarget (entries entries' : Dict EntryKey EntryValue)
    : SetUpAlike ListedTarget.intf ListedTarget.names (aclTarget entries) (aclTarget entries') := by
  refine ListedTarget.setUpAlike rfl ?_
  funext name
  unfold MapTarget.setUp aclTarget
  dsimp only
  split <;> rfl

theorem tables_follow_file_acl
    : ∃ done rest, (rpcGetPipelineInfo aclInfos (-1) 0).1 = done ++ rest ∧
        (∀ e, (applyAclFile aclEntries).1 = .error e →
          parseP4bm P4bm.Unicode.ascii aclFile = .error e ∨ rest ≠ [] ∨
            (rpcGetPipelineInfo aclInfos (-1) 0).2 = .error e) ∧
        ∀ d p pipeline, pipelineAt (aclDevices aclEntries) d p = some pipeline →
          ∃ pipeline' log, pipelineAt (applyAclFile aclEntries).2.1 d p = some pipeline' ∧
            Follows ListedTarget.intf ListedTarget.names (fun s => s.target.entries) pipeline pipeline'
              log ∧
            FileApplied ListedTarget.intf .ascii ListedTarget.names (fun s => s.target.entries) aclFile
              (applyAclFile aclEntries).1 done rest d p pipeline log ∧
            (¬ (ForSelected.Selects (-1) d ∧ ForSelected.Selects 0 p) → log = []) ∧
            ((applyAclFile aclEntries).1 = .ok () → ForSelected.Selects (-1) d → ForSelected.Selects 0 p →
              ∃ ops, parseP4bm P4bm.Unicode.ascii aclFile = .ok ops ∧
                ∃ resp ∈ (rpcGetPipelineInfo aclInfos (-1) 0).1, Describes resp d p ∧
                  OfAll (opLog ListedTarget.intf .ascii ListedTarget.names (toPipeline resp) pipeline) ops
                    log) :=
  tables_follow_file ListedTarget.keeps (describedBy_aclInfos aclEntries) (-1) 0 aclFile Heap.empty

theorem clearAll_file_determines_tables_acl
    : ∃ after after',
        pipelineAt (applyAclFile Dict.empty).2.1 0 0 = some after ∧
        pipelineAt (applyAclFile aclEntries).2.1 0 0 = some after' ∧
        after'.handle.target.entries = after.handle.target.entries := by
  have hops : parseP4bm P4bm.Unicode.ascii aclFile =
      .ok [.clearAll 1, .tableAdd 2 "acl".toList "forward".toList
        ["0xa000000/8".toList, "80&&&0xffff".toList] [['3'], ['7']]] := by
    decide +kernel
  exact clearAll_file_determines_tables ListedTarget.keeps (describedBy_aclInfos _)
    (describedBy_aclInfos _) rfl rfl (setUpAlike_aclTarget _ _) hops Heap.empty Heap.empty
    (by decide +kernel) (by decide +kernel) (.inl (by decide)) (.inr rfl)

end Listed

end P4bmTables
