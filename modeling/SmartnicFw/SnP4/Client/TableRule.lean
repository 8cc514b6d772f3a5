import SmartnicFw.Lib.RegExpParses
import SmartnicFw.SnP4.Agent.TableRule
import SmartnicFw.SnP4.Client.P4bm

/-!
This module contains the requests that the client builds for table rules (`table.py`).
-/

namespace TableClient

open P4bm (P4bmError pyInt)
open TableRules (Text Match Action ActionParameter TableRule TableRuleRequest)

-- Which characters the Unicode database does not have as decimal digits
structure Unicode extends P4bm.Unicode where
  decimal_isDigit : ∀ c, c.toNat < 128 → (decimal c).isSome → c.isDigit
  decimal_space : ∀ c, P4bm.isspace c → decimal c = none

inductive GroupName where
  | key
  | mask
  | prefixLength
  | lower
  | upper
  deriving DecidableEq, Repr

def hexDigit (c : Char) : Bool :=
  ('0' ≤ c && c ≤ '9') || ('a' ≤ c && c ≤ 'f') || ('A' ≤ c && c ≤ 'F')

def binDigit (c : Char) : Bool := c = '0' || c = '1'

def octDigit (c : Char) : Bool := '0' ≤ c && c ≤ '7'

section Regexps

open RegExp

variable (u : Unicode)

-- `\d`
def decDigit (c : Char) : Bool := (u.decimal c).isSome

def mpzRe : RegExp Char GroupName :=
  alt (concat [lit ['0'], one fun c => c = 'x' || c = 'X', plus hexDigit])
    (alt (concat [lit ['0'], one fun c => c = 'b' || c = 'B', plus binDigit])
      (alt (concat [lit ['0'], plus octDigit]) (plus (decDigit u))))

def eos : RegExp Char GroupName := .atEnd (· = '\n')

def matchKeyOnlyRe : RegExp Char GroupName := concat [group .key (mpzRe u), eos]

def matchKeyMaskRe : RegExp Char GroupName :=
  concat [group .key (mpzRe u), lit ['&', '&', '&'], group .mask (mpzRe u), eos]

def matchKeyPrefixRe : RegExp Char GroupName :=
  concat [group .key (mpzRe u), lit ['/'], group .prefixLength (plus (decDigit u)), eos]

def matchRangeRe : RegExp Char GroupName :=
  concat [group .lower (plus (decDigit u)), lit ['-', '>'], group .upper (plus (decDigit u)), eos]

def actionParamRe : RegExp Char GroupName := concat [mpzRe u, eos]

end Regexps

-- An integer that is assigned to a field of the message
def uint32Field (n : Int) : Except P4bmError UInt32 :=
  if 0 ≤ n ∧ n < 2 ^ 32 then .ok (UInt32.ofNat n.toNat) else .error .valueError

def sint32Field (n : Int) : Except P4bmError Int :=
  if -2 ^ 31 ≤ n ∧ n < 2 ^ 31 then .ok n else .error .valueError

def intField (u : Unicode) (s : Text) : Except P4bmError UInt32 := do
  let n ← pyInt u.toUnicode s
  uint32Field n

def tableRuleMatch (u : Unicode) (m : Text) : Except P4bmError Match :=
  if m = ['.'] then
    .ok .unused
  else
    match (matchKeyOnlyRe u).groups m with
    | some rm => .ok (.keyOnly (rm.get .key))
    | none =>
      match (matchKeyMaskRe u).groups m with
      | some rm => .ok (.keyMask (rm.get .key) (rm.get .mask))
      | none =>
        match (matchKeyPrefixRe u).groups m with
        | some rm => do
          let prefixLength ← intField u (rm.get .prefixLength)
          return .keyPrefix (rm.get .key) prefixLength
        | none =>
          match (matchRangeRe u).groups m with
          | some rm => do
            let lower ← intField u (rm.get .lower)
            let upper ← intField u (rm.get .upper)
            return .range lower upper
          | none =>
            .error (.clickException s!"Unknown table rule match format: \"{String.ofList m}\"")

def tableRuleParam (u : Unicode) (p : Text) : Except P4bmError ActionParameter :=
  match (actionParamRe u).groups p with
  | none => .error (.clickException s!"Unknown action parameter format: \"{String.ofList p}\"")
  | some _ => .ok { value := p }

structure Kargs where
  devId : Int
  pipelineId : Int
  tableName : String
  priority : Option Int
  replace : Option Bool
  matchList : List Text
  actionName : Option String
  actionParams : Option (List Text)
  deriving DecidableEq, Repr

def tableRuleAction (u : Unicode) (kargs : Kargs) : Except P4bmError Action :=
  match kargs.actionName with
  | none => .ok { name := "", parameters := [] }
  | some actionName => do
    let parameters ← (kargs.actionParams.getD []).mapM (tableRuleParam u)
    return { name := actionName, parameters := parameters }

def tableRuleReq (u : Unicode) (kargs : Kargs) : Except P4bmError TableRuleRequest := do
  let priority ← uint32Field (kargs.priority.getD 0)
  let ms ← kargs.matchList.mapM (tableRuleMatch u)
  let action ← tableRuleAction u kargs
  let devId ← sint32Field kargs.devId
  let pipelineId ← sint32Field kargs.pipelineId
  return {
    devId := devId
    pipelineId := pipelineId
    rules := [{
      tableName := kargs.tableName
      priority := priority
      replace := kargs.replace.getD false
      matchList := ms
      action := action }] }

end TableClient
