import Mathlib.Data.List.Infix
import SmartnicFw.Lib.MapM

/-!
This module contains the authentication of the requests to the server (`agent.cpp`): how the tokens
are taken from the lists of the options or from the configuration file, and which requests they let
through.
-/

namespace SnCfg

abbrev Bytes := List UInt8

def bytes (s : String) : Bytes := s.toUTF8.toList

-- The character that the delimiter's regular expression matches
def delimRe : UInt8 := 0x3a

-- The pieces after a match, of which the first has been read as far as `piece`
def sregexTokenIterator.go (piece : Bytes) : Bytes → List Bytes
  | [] => if piece = [] then [] else [piece]
  | c :: rest =>
    if c = delimRe then
      piece :: go [] rest
    else
      go (piece ++ [c]) rest

-- Nothing comes after the last match when it ends the string, but a string without any match is a
-- piece of its own, whatever its length
def sregexTokenIterator (item : Bytes) : List Bytes :=
  if delimRe ∈ item then sregexTokenIterator.go [] item else [item]

def parseEnvList (inList outList : List Bytes) : List Bytes :=
  match inList with
  | [] => outList
  | item :: inList => parseEnvList inList (outList ++ sregexTokenIterator item)

-- A number is as the file writes it
inductive JsonValue where
  | null
  | boolean (b : Bool)
  | number (literal : Bytes)
  | string (s : Bytes)
  | array (values : List JsonValue)
  | object

-- What the parser's library documents of `asString`, which throws for arrays and objects. How it
-- writes a number is left to it.
structure JsonText where
  asString : JsonValue → Option Bytes
  null : asString .null = some []
  boolean (b : Bool) : asString (.boolean b) = some (bytes (if b then "true" else "false"))
  number (literal : Bytes) : ∃ text, asString (.number literal) = some text ∧ text ≠ []
  string (s : Bytes) : asString (.string s) = some s
  array (values : List JsonValue) : asString (.array values) = none
  object : asString .object = none

variable (json : JsonText)

-- The tokens of `agent_server_run`, which does not come to run without any
def authTokens (optionTokens : List Bytes) (configTokens : JsonValue) : Option (List Bytes) :=
  if optionTokens = [] then
    match configTokens with
    | .array values => if values.length < 1 then none else values.mapM json.asString
    | _ => none
  else
    some (parseEnvList optionTokens [])

inductive Status where
  | OK
  | UNAUTHENTICATED (message : String)
  deriving DecidableEq, Repr

-- The entries of one key are in the order in which they came
abbrev InputMetadata := List (Bytes × Bytes)

structure AuthMetadataToken where
  tokens : List Bytes

namespace AuthMetadataToken

def new (authTokens : List Bytes) : AuthMetadataToken := ⟨authTokens.map (bytes "Bearer " ++ ·)⟩

def process (auth : AuthMetadataToken) (authMetadata : InputMetadata) : Status :=
  if (authMetadata.lookup (bytes ":path")).any (bytes "/grpc.health.v1.Health/" <+: ·) then
    .OK
  else
    match authMetadata.lookup (bytes "authorization") with
    | none => .UNAUTHENTICATED "Missing token key from metadata."
    | some mdToken => if mdToken ∈ auth.tokens then .OK else .UNAUTHENTICATED "Unknown token."

end AuthMetadataToken

section Spec

-- The pieces that the delimiter separates, or the texts that the configuration file lists
def configured (optionTokens : List Bytes) (configTokens : JsonValue) : List Bytes :=
  if optionTokens = [] then
    match configTokens with
    | .array values => values.filterMap json.asString
    | _ => []
  else
    optionTokens.flatMap (·.splitOn delimRe)

def IsHealthCheck (authMetadata : InputMetadata) : Prop :=
  ∃ path, authMetadata.lookup (bytes ":path") = some path
    ∧ bytes "/grpc.health.v1.Health/" <+: path

def Presents (authMetadata : InputMetadata) (token : Bytes) : Prop :=
  authMetadata.lookup (bytes "authorization") = some (bytes "Bearer " ++ token)

def Entitled (tokens : List Bytes) (authMetadata : InputMetadata) : Prop :=
  IsHealthCheck authMetadata ∨ ∃ token ∈ tokens, token ≠ [] ∧ Presents authMetadata token

-- One of the lists makes the empty string a token
def HasBlank (optionTokens : List Bytes) (configTokens : JsonValue) : Prop :=
  if optionTokens = [] then
    ∃ values, configTokens = .array values ∧ (.null ∈ values ∨ .string [] ∈ values)
  else
    ∃ item ∈ optionTokens, item = [] ∨ item.head? = some delimRe ∨ [delimRe, delimRe] <:+: item

end Spec

section TokenIterator

theorem mem_go {token : Bytes} (h : token ≠ []) (piece rest : Bytes)
    : token ∈ sregexTokenIterator.go piece rest
        ↔ token ∈ rest.splitOnPPrepend (· == delimRe) piece.reverse := by
  induction rest generalizing piece with
  | nil =>
    by_cases hpiece : piece = []
    . simp [sregexTokenIterator.go, hpiece, h]
    . simp [sregexTokenIterator.go, hpiece]
  | cons c rest ih =>
    by_cases hc : c = delimRe
    . have hrest := ih []
      simp only [List.reverse_nil, List.splitOnPPrepend_nil_right] at hrest
      simp [sregexTokenIterator.go, hc, hrest, List.splitOnPPrepend_cons_pos]
    . have hrest := ih (piece ++ [c])
      simp only [List.reverse_append, List.reverse_singleton, List.singleton_append] at hrest
      simp [sregexTokenIterator.go, hc, hrest, List.splitOnPPrepend_cons_neg]

theorem mem_sregexTokenIterator {token : Bytes} (h : token ≠ []) (item : Bytes)
    : token ∈ sregexTokenIterator item ↔ token ∈ item.splitOn delimRe := by
  by_cases hitem : delimRe ∈ item
  . simpa [sregexTokenIterator, hitem, List.splitOn_eq_splitOnP] using mem_go h [] item
  . simp [sregexTokenIterator, hitem, List.splitOn_eq_singleton]

theorem delims_infix_cons (c : UInt8) (rest : Bytes)
    : [delimRe, delimRe] <:+: c :: rest
        ↔ (c = delimRe ∧ rest.head? = some delimRe) ∨ [delimRe, delimRe] <:+: rest := by
  rw [List.infix_cons_iff, List.cons_prefix_cons]
  cases rest with
  | nil => simp
  | cons d rest => simp [List.cons_prefix_cons, eq_comm]

theorem nil_mem_go (piece rest : Bytes)
    : [] ∈ sregexTokenIterator.go piece rest
        ↔ (piece = [] ∧ rest.head? = some delimRe) ∨ [delimRe, delimRe] <:+: rest := by
  induction rest generalizing piece with
  | nil =>
    by_cases h : piece = []
    . simp [sregexTokenIterator.go, h]
    . simp [sregexTokenIterator.go, h]
  | cons c rest ih =>
    rw [delims_infix_cons]
    by_cases h : c = delimRe
    . simp [sregexTokenIterator.go, h, ih, eq_comm]
    . simp [sregexTokenIterator.go, h, ih]

theorem nil_mem_sregexTokenIterator (item : Bytes)
    : [] ∈ sregexTokenIterator item
        ↔ item = [] ∨ item.head? = some delimRe ∨ [delimRe, delimRe] <:+: item := by
  by_cases h : delimRe ∈ item
  . have hne : item ≠ [] := by
      rintro rfl
      simp at h
    simp [sregexTokenIterator, h, hne, nil_mem_go]
  . have hhead : item.head? ≠ some delimRe := by
      intro hhead
      exact h (List.mem_of_head? hhead)
    have hdouble : ¬ [delimRe, delimRe] <:+: item := by
      intro hdouble
      exact h (hdouble.subset (by simp))
    simp [sregexTokenIterator, h, hhead, hdouble, eq_comm]

theorem parseEnvList_eq (inList outList : List Bytes)
    : parseEnvList inList outList = outList ++ inList.flatMap sregexTokenIterator := by
  induction inList generalizing outList with
  | nil => simp [parseEnvList]
  | cons item inList ih => simp [parseEnvList, ih]

end TokenIterator

variable {json} {optionTokens : List Bytes} {configTokens : JsonValue} {tokens : List Bytes}

-- The values without a text of their own
theorem JsonText.asString_eq_nil_iff (value : JsonValue)
    : json.asString value = some [] ↔ value = .null ∨ value = .string [] := by
  cases value with
  | null => simp [json.null]
  | boolean b => cases b <;> simp [json.boolean] <;> decide +kernel
  | number literal =>
    obtain ⟨text, htext, hne⟩ := json.number literal
    simp [htext, hne]
  | string s => simp [json.string]
  | array values => simp [json.array]
  | object => simp [json.object]

theorem authTokens_cases (h : authTokens json optionTokens configTokens = some tokens)
    : (optionTokens = [] ∧ ∃ values, configTokens = .array values
          ∧ values.mapM json.asString = some tokens)
        ∨ (optionTokens ≠ [] ∧ tokens = optionTokens.flatMap sregexTokenIterator) := by
  unfold authTokens at h
  split at h
  . next hnil =>
    split at h
    . split at h
      . contradiction
      . exact .inl ⟨hnil, _, rfl, h⟩
    . contradiction
  . next hnil =>
    cases h
    exact .inr ⟨hnil, by simp [parseEnvList_eq]⟩

theorem mem_authTokens (h : authTokens json optionTokens configTokens = some tokens) {token : Bytes}
    (hne : token ≠ [])
    : token ∈ tokens ↔ token ∈ configured json optionTokens configTokens := by
  rcases authTokens_cases h with ⟨rfl, values, rfl, hvalues⟩ | ⟨hoptions, rfl⟩
  . simp only [configured, if_true, List.mem_filterMap]
    exact mem_mapM_iff hvalues token
  . simp [configured, hoptions, mem_sregexTokenIterator hne]

theorem nil_mem_authTokens (h : authTokens json optionTokens configTokens = some tokens)
    : [] ∈ tokens ↔ HasBlank optionTokens configTokens := by
  rcases authTokens_cases h with ⟨rfl, values, rfl, hvalues⟩ | ⟨hoptions, rfl⟩
  . simp [HasBlank, mem_mapM_iff hvalues, JsonText.asString_eq_nil_iff, and_or_left, exists_or]
  . simp [HasBlank, hoptions, nil_mem_sregexTokenIterator]

theorem any_path_iff (authMetadata : InputMetadata)
    : (authMetadata.lookup (bytes ":path")).any (bytes "/grpc.health.v1.Health/" <+: ·)
        ↔ IsHealthCheck authMetadata := by
  unfold IsHealthCheck
  cases authMetadata.lookup (bytes ":path") with
  | none => simp
  | some path => simp

theorem process_eq_OK_iff (tokens : List Bytes) (authMetadata : InputMetadata)
    : (AuthMetadataToken.new tokens).process authMetadata = .OK
        ↔ IsHealthCheck authMetadata ∨ ∃ token ∈ tokens, Presents authMetadata token := by
  rw [← any_path_iff]
  unfold AuthMetadataToken.process Presents
  split
  . next h => simp [h]
  . next h =>
    rw [or_iff_right h]
    cases authMetadata.lookup (bytes "authorization") with
    | none => simp
    | some mdToken => simp [AuthMetadataToken.new, eq_comm]

-- A blank item lets through everyone who presents no token, and nothing else goes wrong
theorem process_iff_entitled (h : authTokens json optionTokens configTokens = some tokens)
    (authMetadata : InputMetadata)
    : ((AuthMetadataToken.new tokens).process authMetadata = .OK
          ↔ Entitled (configured json optionTokens configTokens) authMetadata)
        ↔ ¬ (HasBlank optionTokens configTokens ∧ Presents authMetadata []
              ∧ ¬ IsHealthCheck authMetadata) := by
  rw [process_eq_OK_iff, ← nil_mem_authTokens h]
  constructor
  . rintro hiff ⟨hblank, hpresents, hhealth⟩
    rcases hiff.mp (.inr ⟨[], hblank, hpresents⟩) with hhealth' | ⟨token, _, hne, hpresents'⟩
    . contradiction
    . have heq := Option.some.inj (hpresents.symm.trans hpresents')
      exact hne (List.append_cancel_left heq).symm
  . intro hblank
    constructor
    . rintro (hhealth | ⟨token, hmem, hpresents⟩)
      . exact .inl hhealth
      . by_cases hne : token = []
        . subst hne
          by_contra hentitled
          apply hblank
          exact ⟨hmem, hpresents, fun hhealth => hentitled (.inl hhealth)⟩
        . exact .inr ⟨token, (mem_authTokens h hne).mp hmem, hne, hpresents⟩
    . rintro (hhealth | ⟨token, hmem, hne, hpresents⟩)
      . exact .inl hhealth
      . exact .inr ⟨token, (mem_authTokens h hne).mpr hmem, hpresents⟩

-- A library that writes a number as the file does
def JsonText.literal : JsonText where
  asString
    | .null => some []
    | .boolean b => some (bytes (if b then "true" else "false"))
    | .number literal => some (if literal = [] then bytes "0" else literal)
    | .string s => some s
    | .array _ => none
    | .object => none
  null := rfl
  boolean _ := rfl
  number literal := by
    refine ⟨_, rfl, ?_⟩
    split
    . decide +kernel
    . assumption
  string _ := rfl
  array _ := rfl
  object := rfl

-- The options and a request that carries nothing but the scheme
def leadingDelim : List Bytes := [bytes ":secret"]

def schemeOnly : InputMetadata := [(bytes "authorization", bytes "Bearer ")]

theorem process_iff_entitled_leadingDelim
    : authTokens .literal leadingDelim .null = some [[], bytes "secret"]
      ∧ (((AuthMetadataToken.new [[], bytes "secret"]).process schemeOnly = .OK
            ↔ Entitled (configured .literal leadingDelim .null) schemeOnly)
          ↔ ¬ (HasBlank leadingDelim .null ∧ Presents schemeOnly [] ∧ ¬ IsHealthCheck schemeOnly)) := by
  have h : authTokens .literal leadingDelim .null = some [[], bytes "secret"] := by decide +kernel
  exact ⟨h, process_iff_entitled h schemeOnly⟩

theorem not_entitled_leadingDelim
    : ¬ ∀ json optionTokens configTokens tokens authMetadata,
        authTokens json optionTokens configTokens = some tokens →
        ((AuthMetadataToken.new tokens).process authMetadata = .OK
          ↔ Entitled (configured json optionTokens configTokens) authMetadata) := by
  intro h
  have htokens : authTokens .literal leadingDelim .null = some [[], bytes "secret"] := by
    decide +kernel
  have hok : (AuthMetadataToken.new [[], bytes "secret"]).process schemeOnly = .OK := by
    decide +kernel
  rcases (h _ _ _ _ schemeOnly htokens).mp hok with ⟨path, hpath, _⟩ | ⟨token, _, hne, hpresents⟩
  . have hnone : schemeOnly.lookup (bytes ":path") = none := by decide +kernel
    cases hnone.symm.trans hpath
  . have hsome : schemeOnly.lookup (bytes "authorization") = some (bytes "Bearer ") := by
      decide +kernel
    have heq := Option.some.inj (hsome.symm.trans hpresents)
    exact hne (List.self_eq_append_right.mp heq)

end SnCfg
