import SmartnicFw.Lib.Fields
import SmartnicFw.Lib.RegExp

/-!
This module contains the behaviour-model files of the client (`p4bm.py`): how the operations of a
file are parsed, and how they are applied to the pipelines that are selected.
-/

namespace P4bm

open Fields

abbrev Text := List Char

-- `str.isspace` of a single character, which is also what `\s` matches and what `strip` removes
def isspace (c : Char) : Bool :=
  let n := c.toNat
  (0x09 ≤ n ∧ n ≤ 0x0d) ∨ (0x1c ≤ n ∧ n ≤ 0x20) ∨ n = 0x85 ∨ n = 0xa0 ∨ n = 0x1680
    ∨ (0x2000 ≤ n ∧ n ≤ 0x200a) ∨ n = 0x2028 ∨ n = 0x2029 ∨ n = 0x202f ∨ n = 0x205f ∨ n = 0x3000

theorem toNat_of_isAlphanum {c : Char} (h : c.isAlphanum)
    : (48 ≤ c.toNat ∧ c.toNat ≤ 57) ∨ (65 ≤ c.toNat ∧ c.toNat ≤ 90)
        ∨ (97 ≤ c.toNat ∧ c.toNat ≤ 122) := by
  have hval : c.toNat = c.val.toNat := rfl
  change (((decide (65 ≤ c.val ∧ c.val ≤ 90)) || (decide (97 ≤ c.val) && decide (c.val ≤ 122)))
    || (decide (48 ≤ c.val) && decide (c.val ≤ 57))) = true at h
  simp only [Bool.or_eq_true, Bool.and_eq_true, decide_eq_true_eq, UInt32.le_iff_toNat_le,
    UInt32.reduceToNat] at h
  omega

-- What the Unicode database says of the other characters
structure Unicode where
  alnum : Char → Bool
  decimal : Char → Option (Fin 10)
  alnum_ascii : ∀ c, c.toNat < 128 → alnum c = c.isAlphanum
  alnum_space : ∀ c, isspace c → alnum c = false
  decimal_ascii : ∀ d : Fin 10, decimal (Char.ofNat (48 + d.val)) = some d

def Unicode.ascii : Unicode where
  alnum c := c.toNat < 128 && c.isAlphanum
  decimal c := if c.isDigit then some (Fin.ofNat 10 (c.toNat - 48)) else none
  alnum_ascii := by
    intro c hc
    simp [hc]
  alnum_space := by
    intro c hspace
    by_contra halnum
    simp only [Bool.not_eq_false, Bool.and_eq_true] at halnum
    have hrange := toNat_of_isAlphanum halnum.2
    simp only [isspace, decide_eq_true_eq] at hspace
    omega
  decimal_ascii := by decide

-- `\w`, and `.` without the flag that lets it match a new line
def Unicode.word (u : Unicode) (c : Char) : Bool := u.alnum c || c = '_'

def dot (c : Char) : Bool := c ≠ '\n'

def eos : RegExp Char String := .atEnd (· = '\n')

inductive P4bmError where
  | clickException (message : String)
  | valueError
  deriving DecidableEq, Repr

section Int

-- The number of digits from which on `int` refuses a text
def intMaxStrDigits : Nat := 4300

-- The digits of a number, of which the ones read so far are the last ones first
def pyDigits (u : Unicode) (digits : List (Fin 10)) : Text → Option (List (Fin 10))
  | [] => if digits = [] then none else some digits
  | '_' :: c :: s =>
    if digits = [] then
      none
    else
      match u.decimal c with
      | none => none
      | some d => pyDigits u (d :: digits) s
  | c :: s =>
    match u.decimal c with
    | none => none
    | some d => pyDigits u (d :: digits) s

def digitsValue (digits : List (Fin 10)) : Nat := digits.foldr (fun d n => n * 10 + d.val) 0

def pyNat (u : Unicode) (s : Text) : Option Nat := do
  let digits ← pyDigits u [] s
  if digits.length > intMaxStrDigits then none else some (digitsValue digits)

def pyInt (u : Unicode) (s : Text) : Except P4bmError Int :=
  let n :=
    match strip isspace s with
    | '-' :: s => (pyNat u s).map fun n => -Int.ofNat n
    | '+' :: s => (pyNat u s).map Int.ofNat
    | s => (pyNat u s).map Int.ofNat
  match n with
  | some n => .ok n
  | none => .error .valueError

end Int

section Pipelines

-- What is read of a pipeline's information
structure ActionInfo where
  name : Text
  numParameters : Nat
  deriving DecidableEq, Repr

structure TableInfo where
  name : Text
  numMatches : Nat
  actions : List ActionInfo
  deriving DecidableEq, Repr

structure Pipeline where
  devId : Int
  pipelineId : Int
  tables : List TableInfo
  deriving DecidableEq, Repr

end Pipelines

section Operations

structure TableRule where
  tableName : Text
  actionName : Text
  matchTexts : List Text
  actionParams : List Text
  priority : Option Int
  deriving DecidableEq, Repr

inductive P4bmOp where
  | clearAll (lineno : Nat)
  | tableAdd (lineno : Nat) (tableName actionName : Text) (matchTexts actionParams : List Text)
  | tableClear (lineno : Nat) (tableName : Text)
  deriving DecidableEq, Repr

def quote (s : Text) : String := String.ofList s

namespace P4bmClearAll

def name : Text := "clear_all".toList

def parseInit (lineno : Nat) (args : Text) : Except P4bmError P4bmOp :=
  let text := quote args
  if args ≠ [] then
    .error (.clickException <|
      s!"Unexpected arguments passed to P4BM operation \"clear_all\" on line {lineno}: \"{text}\".")
  else
    .ok (.clearAll lineno)

end P4bmClearAll

namespace P4bmTableAdd

def name : Text := "table_add".toList

def help : String :=
  "table_add <table_name> <action_name> <match0>[ <match1>...] => <param0>[ <param1>...] [priority]"

def argsRe (u : Unicode) : RegExp Char String :=
  .concat [.group "table" (.plus u.word), .plus isspace, .group "action" (.plus u.word),
    .plus isspace, .group "matches" (.plus dot), .plus isspace, .lit ['=', '>'], .plus isspace,
    .group "params" (.many dot), eos]

def parseInit (u : Unicode) (lineno : Nat) (args : Text) : Except P4bmError P4bmOp :=
  let text := quote args
  match (argsRe u).groups args with
  | none =>
    .error (.clickException <|
      s!"Invalid argument formatting to P4BM operation \"table_add\" on line {lineno}: \"{text}\". "
        ++ s!"Expected format is: \"{help}\".")
  | some rm =>
    .ok (.tableAdd lineno (rm.get "table") (rm.get "action")
      (splitRuns isspace (strip isspace (rm.get "matches")))
      (splitRuns isspace (strip isspace (rm.get "params"))))

def parseFinalize (u : Unicode) (lineno : Nat) (tableName actionName : Text)
    (matchTexts actionParams : List Text) (info : Pipeline)
    : Except P4bmError (List Text × Option Int) :=
  let table := quote tableName
  let action := quote actionName
  match info.tables.find? (·.name = tableName) with
  | none =>
    .error (.clickException <|
      s!"Unknown table name \"{table}\" referenced by P4BM operation \"table_add\" "
        ++ s!"on line {lineno}.")
  | some tableInfo =>
    let given := matchTexts.length
    let expected := tableInfo.numMatches
    if given ≠ expected then
      .error (.clickException <|
        s!"Mismatched number of matches for table \"{table}\" referenced by P4BM operation "
          ++ s!"\"table_add\" on line {lineno}. Expected {expected} matches, but was given {given}.")
    else
      match tableInfo.actions.find? (·.name = actionName) with
      | none =>
        .error (.clickException <|
          s!"Unknown action name \"{action}\" for table \"{table}\" referenced by P4BM operation "
            ++ s!"\"table_add\" on line {lineno}.")
      | some actionInfo => do
        let given := actionParams.length
        let expected := actionInfo.numParameters
        let (params, priority) ←
          if given > expected then do
            let priority ← pyInt u (actionParams.getLastD [])
            .ok (actionParams.dropLast, some priority)
          else
            .ok (actionParams, none)
        let given := params.length
        if given ≠ expected then
          .error (.clickException <|
            s!"Mismatched number of action parameters for action \"{action}\" in table \"{table}\" "
              ++ s!"referenced by P4BM operation \"table_add\" on line {lineno}. "
              ++ s!"Expected {expected} parameters, but was given {given}.")
        else
          .ok (params, priority)

end P4bmTableAdd

namespace P4bmTableClear

def name : Text := "table_clear".toList

def help : String := "table_clear <table_name>"

def parseInit (lineno : Nat) (args : Text) : Except P4bmError P4bmOp :=
  match splitRuns isspace (strip isspace args) with
  | [] =>
    .error (.clickException <|
      "Missing required table_name argument to P4BM operation \"table_clear\" "
        ++ s!"on line {lineno}. Expected format is: \"{help}\".")
  | tableName :: rest =>
    if rest ≠ [] then
      let extraArgs := " ".intercalate (rest.map quote)
      .error (.clickException <|
        "Unknown extra arguments passed to P4BM operation \"table_clear\" "
          ++ s!"on line {lineno}: \"{extraArgs}\". Expected format is: \"{help}\".")
    else
      .ok (.tableClear lineno tableName)

end P4bmTableClear

-- `P4BM_OPS`, with what the class does when it is instantiated
def p4bmOps (u : Unicode) (op : Text) : Option (Nat → Text → Except P4bmError P4bmOp) :=
  if op = P4bmClearAll.name then
    some P4bmClearAll.parseInit
  else if op = P4bmTableAdd.name then
    some (P4bmTableAdd.parseInit u)
  else if op = P4bmTableClear.name then
    some P4bmTableClear.parseInit
  else
    none

end Operations

section Parse

def p4bmLineRe : RegExp Char String :=
  .concat [.group "cmd" (.plus (· ≠ '#')), .opt (.concat [.many isspace, .lit ['#'], .many dot]), eos]

def p4bmCommandRe (u : Unicode) : RegExp Char String :=
  .concat [.group "op" (.plus u.word), .many isspace, .group "args" (.many dot), eos]

-- A line that is skipped has no operation, whether or not the user is told
def parseLine (u : Unicode) (lineno : Nat) (line : Text) : Except P4bmError (Option P4bmOp) :=
  let line := strip isspace line
  if line = [] ∨ line.head? = some '#' then
    .ok none
  else
    match p4bmLineRe.groups line with
    | none => .ok none
    | some rm =>
      match (p4bmCommandRe u).groups (rm.get "cmd") with
      | none => .ok none
      | some rm =>
        match p4bmOps u (rm.get "op") with
        | none => .ok none
        | some parseInit => (parseInit lineno (rm.get "args")).map some

def parseLines (u : Unicode) (lineno : Nat) : List Text → Except P4bmError (List P4bmOp)
  | [] => .ok []
  | line :: lines => do
    let op ← parseLine u (lineno + 1) line
    let ops ← parseLines u (lineno + 1) lines
    .ok (op.toList ++ ops)

-- A file opened in text mode, where each line ends with its new line
def translateNewlines : Text → Text
  | '\r' :: '\n' :: s => '\n' :: translateNewlines s
  | '\r' :: s => '\n' :: translateNewlines s
  | c :: s => c :: translateNewlines s
  | [] => []

def readLines (line : Text) : Text → List Text
  | [] => if line = [] then [] else [line]
  | c :: s => if c = '\n' then (line ++ ['\n']) :: readLines [] s else readLines (line ++ [c]) s

def fileLines (p4bmFile : Text) : List Text := readLines [] (translateNewlines p4bmFile)

def parseP4bm (u : Unicode) (p4bmFile : Text) : Except P4bmError (List P4bmOp) :=
  parseLines u 0 (fileLines p4bmFile)

end Parse

section Apply

-- What an operation calls on the server
inductive Call where
  | clearTable (devId pipelineId : Int) (tableName : Text)
  | insertTableRule (devId pipelineId : Int) (rule : TableRule)
  deriving DecidableEq, Repr

def P4bmOp.call (u : Unicode) (op : P4bmOp) (pipeline : Pipeline) : Except P4bmError Call :=
  match op with
  | .clearAll _ => .ok (.clearTable pipeline.devId pipeline.pipelineId [])
  | .tableAdd lineno tableName actionName matchTexts actionParams => do
    let (params, priority) ←
      P4bmTableAdd.parseFinalize u lineno tableName actionName matchTexts actionParams pipeline
    .ok (.insertTableRule pipeline.devId pipeline.pipelineId
      ⟨tableName, actionName, matchTexts, params, priority⟩)
  | .tableClear _ tableName => .ok (.clearTable pipeline.devId pipeline.pipelineId tableName)

-- How a call ends, which may depend on the calls before it
abbrev Stub := List Call → Call → Except P4bmError Unit

variable (u : Unicode) (stub : Stub)

def applyOps (pipeline : Pipeline) (ops : List P4bmOp) (calls : List Call)
    : List Call × Except P4bmError Unit :=
  match ops with
  | [] => (calls, .ok ())
  | op :: ops =>
    match op.call u pipeline with
    | .error e => (calls, .error e)
    | .ok call =>
      match stub calls call with
      | .error e => (calls ++ [call], .error e)
      | .ok () => applyOps pipeline ops (calls ++ [call])

-- The pipelines are those that the server selects, and `ending` is how its answers end
def applyPipelines (ops : List P4bmOp) (pipelines : List Pipeline) (ending : Except P4bmError Unit)
    (calls : List Call)
    : List Call × Except P4bmError Unit :=
  match pipelines with
  | [] => (calls, ending)
  | pipeline :: pipelines =>
    match applyOps u stub pipeline ops calls with
    | (calls, .error e) => (calls, .error e)
    | (calls, .ok ()) => applyPipelines ops pipelines ending calls

def applyP4bm (pipelines : List Pipeline) (ending : Except P4bmError Unit) (p4bmFile : Text)
    : List Call × Except P4bmError Unit :=
  match parseP4bm u p4bmFile with
  | .error e => ([], .error e)
  | .ok ops => applyPipelines u stub ops pipelines ending []

end Apply

end P4bm
