import SmartnicFw.Lib.Terms
import SmartnicFw.SnP4.Agent.MetricFilter

/-!
This module contains the filter expressions of the client (`stats.py`): the methods of the namespace
that an expression is evaluated in, and the request made of the filters. The methods work on
messages that are referred to, so that one message can be an operand of several methods.
-/

open SnP4V2 (StatsMetricMatchString SplitPart StatsMetricMatch StatsMetricFilter StatsFilters)

namespace FilterExpr

inductive Message where
  | filter (filter : StatsMetricFilter)
  | part (part : SplitPart)
  | string (string : StatsMetricMatchString)

-- Either `None` or a reference to a message
abbrev Value := Option Nat

-- The items between the brackets of `indices[...]`
inductive IndexKey where
  | index (k : Int)
  | slice (start stop step : Option Int)
  deriving DecidableEq, Repr

inductive Method where
  | neg
  | any
  | all
  | type (type : SnP4V2.StatsMetricType)
  | domain
  | zone
  | block
  | name
  | indices (key : List IndexKey)
  | label
  | exact (string : List UInt8)
  | prefixed (string : List UInt8)
  | suffix (string : List UInt8)
  | sub (string : List UInt8)
  | re (pattern : List UInt8)
  | splitAny (pattern : List UInt8)
  | splitAll (pattern : List UInt8)
  | partValue
  | partIndex (index : Int)
  deriving DecidableEq, Repr

-- A value out of the range of its field is refused
def sint32 (x : Int) : Option Int32 :=
  if -2 ^ 31 ≤ x ∧ x < 2 ^ 31 then some (Int32.ofInt x) else none

def uint32 (x : Int) : Option UInt32 :=
  if 0 ≤ x ∧ x < 2 ^ 32 then some (UInt32.ofNat x.toNat) else none

def IndexKey.slice? (k : IndexKey) : Option StatsMetricMatchIndexSlice := do
  let (start, stop, step) :=
    match k with
    | .index k => (k, k, 1)
    | .slice start stop step => (start.getD 0, stop.getD (-1), step.getD 1)
  return { start := ← sint32 start, stop := ← sint32 stop, step := ← uint32 step }

section Load

variable (messages : List Message) (v : Value)

def load : Option Message := do
  let r ← v
  messages[r]?

def loadFilter : Option StatsMetricFilter :=
  match load messages v with
  | some (.filter filter) => some filter
  | _ => none

def loadPart : Option SplitPart :=
  match load messages v with
  | some (.part part) => some part
  | _ => none

-- A field that is given as `None` is left unset
def loadString : Option (Option StatsMetricMatchString) :=
  match v with
  | none => some none
  | some r =>
    match messages[r]? with
    | some (.string string) => some (some string)
    | _ => none

end Load

def new (m : Message) (messages : List Message) : Value × List Message :=
  (some messages.length, messages ++ [m])

-- The message is marked in place
def neg (v : Value) (messages : List Message) : Option (Value × List Message) := do
  let r ← v
  match messages[r]? with
  | some (.filter (.mk _ term)) => return (v, messages.set r (.filter (.mk true term)))
  | some (.part (.mk _ term)) => return (v, messages.set r (.part (.mk true term)))
  | _ => none

-- What kind of set it is depends on the first member
def any (members : List Value) (messages : List Message) : Option (Value × List Message) := do
  let first ← members.head?
  match load messages first with
  | some (.part _) =>
    let members ← members.mapM (loadPart messages)
    return new (.part (.mk false (.anySet members))) messages
  | _ =>
    let members ← members.mapM (loadFilter messages)
    return new (.filter (.mk false (.anySet members))) messages

def all (members : List Value) (messages : List Message) : Option (Value × List Message) := do
  let first ← members.head?
  match load messages first with
  | some (.part _) =>
    let members ← members.mapM (loadPart messages)
    return new (.part (.mk false (.allSet members))) messages
  | _ =>
    let members ← members.mapM (loadFilter messages)
    return new (.filter (.mk false (.allSet members))) messages

def newMatch (m : StatsMetricMatch) : Message := .filter (.mk false (.ofMatch m))

-- The methods that match a single attribute by a string
def matchString (field : StatsMetricMatchString → StatsMetricMatch) (v : Value)
    (messages : List Message)
    : Option (Value × List Message) := do
  let string ← loadString messages v
  return new (newMatch ((string.map field).getD .notSet)) messages

def domain := matchString .domain

def zone := matchString .zone

def block := matchString .block

def name := matchString .name

def indices (key : List IndexKey) (messages : List Message) : Option (Value × List Message) := do
  let slices ← key.mapM IndexKey.slice?
  return new (newMatch (.indices slices)) messages

def label (key value : Value) (messages : List Message) : Option (Value × List Message) := do
  let key ← loadString messages key
  let value ← loadString messages value
  return new (newMatch (.label key value)) messages

def split (pattern : List UInt8) (any : Bool) (part : Value) (messages : List Message)
    : Option (Value × List Message) := do
  let part ← match part with
    | none => some (.mk false .notSet)
    | some r => loadPart messages r
  return new (.string (.split pattern any part)) messages

def partValue (v : Value) (messages : List Message) : Option (Value × List Message) := do
  let string ← loadString messages v
  let m := (string.map SnP4V2.SplitPartMatch.value).getD .notSet
  return new (.part (.mk false (.ofMatch m))) messages

def partIndex (index : Int) (messages : List Message) : Option (Value × List Message) := do
  let index ← uint32 index
  return new (.part (.mk false (.ofMatch (.index index)))) messages

-- A wrong number of arguments is refused
def client : Interp Method (List Message) Value := fun method args messages =>
  match method, args with
  | .neg, [filter] => neg filter messages
  | .any, members => any members messages
  | .all, members => all members messages
  | .type type, [] => new (newMatch (.type type)) messages
  | .domain, [string] => domain string messages
  | .zone, [string] => zone string messages
  | .block, [string] => block string messages
  | .name, [string] => name string messages
  | .indices key, [] => indices key messages
  | .label, [key, value] => label key value messages
  | .exact string, [] => new (.string (.exact string)) messages
  | .prefixed string, [] => new (.string (.prefixed string)) messages
  | .suffix string, [] => new (.string (.suffix string)) messages
  | .sub string, [] => new (.string (.substring string)) messages
  | .re pattern, [] => new (.string (.regexp { grammar := .unknown, pattern })) messages
  | .splitAny pattern, [part] => split pattern true part messages
  | .splitAll pattern, [part] => split pattern false part messages
  | .partValue, [string] => partValue string messages
  | .partIndex index, [] => partIndex index messages
  | _, _ => none

-- The names that are there beside the methods, with the messages they refer to
def namespaceEnv : List Value := [some 0]

def namespaceMessages : List Message := [newMatch (.indices [])]

-- What an expression stands for, for each expression in a namespace of its own
def convert (e : Term Method) : Option Message := do
  let (v, messages) ← e.eval client namespaceEnv namespaceMessages
  load messages v

end FilterExpr

section Request

open FilterExpr

structure StatsKargs where
  filters : List Message
  metricTypes : List String
  units : List (List UInt8)
  zeroes : Bool
  labels : Bool
  aliases : Bool

def metricTypeRmap (mt : String) : Option SnP4V2.StatsMetricType :=
  if mt = "counter" then some .counter
  else if mt = "gauge" then some .gauge
  else if mt = "flag" then some .flag
  else none

def filterMember (m : Message) : Option StatsMetricFilter :=
  match m with
  | .filter filter => some filter
  | _ => none

def typeFilter (mt : String) : Option StatsMetricFilter := do
  let type ← metricTypeRmap mt
  return .mk false (.ofMatch (.type type))

def unitsKey : List UInt8 := [0x75, 0x6e, 0x69, 0x74, 0x73]

def unitsFilter (u : List UInt8) : StatsMetricFilter :=
  .mk false (.ofMatch (.label (some (.exact unitsKey)) (some (.exact u))))

-- The members of the set at the root: the filters, one set for all types and one for all units
def rootMembers (kargs : StatsKargs) : Option (List StatsMetricFilter) := do
  let filters ← kargs.filters.mapM filterMember
  let types ← kargs.metricTypes.mapM typeFilter
  let types := if kargs.metricTypes = [] then [] else [.mk false (.anySet types)]
  let units :=
    if kargs.units = [] then [] else [.mk false (.anySet (kargs.units.map unitsFilter))]
  return filters ++ types ++ units

def metricFilter (kargs : StatsKargs) : Option (Option StatsMetricFilter) := do
  if kargs.filters.isEmpty && kargs.metricTypes.isEmpty && kargs.units.isEmpty then
    return none
  let members ← rootMembers kargs
  return some (.mk false (.allSet members))

def statsReqKargs (kargs : StatsKargs) : Option StatsFilters := do
  return {
    nonZero := !kargs.zeroes
    metricFilter := ← metricFilter kargs
    withLabels := kargs.labels || kargs.aliases
  }

end Request
