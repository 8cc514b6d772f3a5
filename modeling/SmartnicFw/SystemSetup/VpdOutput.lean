import SmartnicFw.Lib.Assignments
import SmartnicFw.Lib.Except
import SmartnicFw.Lib.Utf8
import SmartnicFw.SystemSetup.VpdDecoder

/-!
This module contains what the decoder prints (`smartnic-vpd-decoder`), which `udev` reads as
assignments, and for which cards it gets the card's own records and nothing else.
-/

namespace VpdDecoder

open Utf8 (bytes)
open Assignments (assignment lines terminated)

-- What there is of a device
inductive Device where
  | noArgument
  | noPath
  | noVpd
  | unreadable
  | vpd (raw : List UInt8)

inductive MainError where
  | exit (code : Nat)
  | decode (e : VpdError)
  | noTags
  -- `srdt_name` stands for nothing there, which is a `NameError`
  | srdtName
  | unknownLrdt (name : UInt8) (data : List UInt8)
  deriving DecidableEq, Repr

-- The lines that are printed for a tag
def printTag (tag : VpdTag) : Except MainError (List String) :=
  if tag.rdType = 0 then
    if tag.name = 0xf then .ok [] else .error .srdtName
  else if tag.name = 0x02 then do
    let line ← (decodeAsciiVpd "IDENT" tag.data).mapError .decode
    return [line]
  else if tag.name = 0x10 then do
    let visits ← (decodeVpdR tag.data).mapError .decode
    return visits.filterMap (·.line)
  else if tag.name = 0x11 then
    .ok []
  else
    .error (.unknownLrdt tag.name tag.data)

def main : Device → Except MainError (List String)
  | .noArgument => .error (.exit 1)
  | .noPath => .error (.exit 2)
  | .noVpd => .ok ["VPD_STATUS=\"missing\""]
  | .unreadable => .ok ["VPD_STATUS=\"unreadable\""]
  | .vpd raw => do
    let tags ← (vpdParseTags raw).mapError .decode
    if tags.length < 1 then
      .error .noTags
    else do
      let printed ← tags.mapM printTag
      return "VPD_STATUS=\"OK\"" :: printed.flatten

def newline : UInt8 := 0x0a

def equals : UInt8 := 0x3d

def quote : UInt8 := 0x22

def stdout (printed : List String) : List UInt8 := terminated newline (printed.map bytes)

-- The records of a read-only section, each with its keyword
def sectionRecords : List UInt8 → List (List UInt8 × List UInt8)
  | first :: second :: len :: rest =>
    ([first, second], rest.take len.toNat) :: sectionRecords (rest.drop len.toNat)
  | _ => []
termination_by vpd => vpd.length
decreasing_by
  simp only [List.length_cons, List.length_drop]
  omega

-- The keywords whose data is a text
def isPrinted (kw : List UInt8) : Bool :=
  (["EC", "MN", "PN", "SN", "YA", "PG", "CC", "FC", "NA", "RM"].map bytes).contains kw ||
    (['V', 'Y', 'Z'].map fun c => some (UInt8.ofNat c.toNat)).contains kw.head?

def VpdTag.records (tag : VpdTag) : List (List UInt8 × List UInt8) :=
  if tag.rdType = 0 then
    []
  else if tag.name = 0x02 then
    [(bytes "IDENT", tag.data)]
  else if tag.name = 0x10 then
    (sectionRecords tag.data).filter fun r => isPrinted r.1
  else
    []

def printedRecords (raw : List UInt8) : List (List UInt8 × List UInt8) :=
  match vpdParseTags raw with
  | .error _ => []
  | .ok tags => tags.flatMap VpdTag.records

def upToNul (data : List UInt8) : List UInt8 := data.takeWhile (· ≠ 0)

def recordAssignment (r : List UInt8 × List UInt8) : List UInt8 × List UInt8 :=
  (bytes "VPD_" ++ r.1, upToNul r.2)

-- What a card says of itself
def assignments (raw : List UInt8) : List (List UInt8 × List UInt8) :=
  (bytes "VPD_STATUS", bytes "OK") :: (printedRecords raw).map recordAssignment

structure SpeaksForItself (raw : List UInt8) (printed : List String) : Prop where
  lines_eq : lines newline (stdout printed) = (assignments raw).map (assignment equals quote)
  read_eq : Assignments.read newline equals quote (stdout printed) = some (assignments raw)

-- No record can be taken for more than one line, nor for another key
def Harmless (raw : List UInt8) : Prop :=
  ∀ r ∈ printedRecords raw, newline ∉ r.1 ∧ newline ∉ upToNul r.2 ∧ equals ∉ r.1

instance (raw : List UInt8) : Decidable (Harmless raw) := List.decidableBAll _ _

theorem bytes_of_decodeUtf8 {data : List UInt8} {text : String} (h : decodeUtf8 data = .ok text)
    : bytes text = data := by
  unfold decodeUtf8 at h
  split at h
  . contradiction
  . next hdecode =>
    cases h
    exact Utf8.bytes_of_fromUTF8? hdecode

theorem bytes_of_decodeAsciiVpd {kw line : String} {data : List UInt8}
    (h : decodeAsciiVpd kw data = .ok line)
    : bytes line = assignment equals quote (recordAssignment (bytes kw, data)) := by
  unfold decodeAsciiVpd at h
  split at h
  . contradiction
  . next text htext =>
    cases h
    have hcut : bytes (String.ofList (text.toList.takeWhile (· ≠ Char.ofNat 0))) = upToNul data := by
      rw [Utf8.bytes_ofList, ← Utf8.takeWhile_encode (by decide), ← Utf8.bytes_eq_encode,
        bytes_of_decodeUtf8 htext]
      rfl
    have hmiddle : bytes "=\"" = [equals, quote] := by decide
    have hlast : bytes "\"" = [quote] := by decide
    rw [Utf8.bytes_append, Utf8.bytes_append, Utf8.bytes_append, Utf8.bytes_append, hcut, hmiddle,
      hlast]
    simp [assignment, recordAssignment]

theorem isPrinted_iff {kw : String}
    : isPrinted (bytes kw) ↔
        kw ∈ ["EC", "MN", "PN", "SN", "YA", "PG", "CC", "FC", "NA", "RM"] ∨
          kw.toList.head? ∈ ['V', 'Y', 'Z'].map some := by
  have hmem : ∀ kws : List String, bytes kw ∈ kws.map bytes ↔ kw ∈ kws := by
    intro kws
    rw [List.mem_map_of_injective]
    intro s t h
    exact Utf8.bytes_inj.mp h
  have hhead : ∀ c : Char, c.toNat < 128 →
      ((bytes kw).head? = some (UInt8.ofNat c.toNat) ↔ kw.toList.head? = some c) := by
    intro c hc
    rw [Utf8.bytes_eq_encode]
    exact Utf8.head?_encode_eq_iff hc _
  unfold isPrinted
  rw [Bool.or_eq_true, List.contains_iff_mem, List.contains_iff_mem, hmem]
  simp only [List.map_cons, List.map_nil, List.mem_cons, List.not_mem_nil, or_false]
  rw [hhead 'V' (by decide), hhead 'Y' (by decide), hhead 'Z' (by decide)]

theorem bytes_of_printed {kw : String} {data : List UInt8} {line : Option String}
    (h : some <$> decodeAsciiVpd kw data = .ok line)
    : line.map bytes = some (assignment equals quote (recordAssignment (bytes kw, data))) := by
  cases hline : decodeAsciiVpd kw data with
  | error e =>
    rw [hline] at h
    contradiction
  | ok text =>
    rw [hline] at h
    cases h
    rw [Option.map_some, bytes_of_decodeAsciiVpd hline]

theorem bytes_of_visit {kw : String} {data : List UInt8} {line : Option String}
    (h : decodeVpdR.visit kw data = .ok line)
    : line.map bytes = if isPrinted (bytes kw) then
        some (assignment equals quote (recordAssignment (bytes kw, data))) else none := by
  rw [ite_cond_congr (propext isPrinted_iff)]
  unfold decodeVpdR.visit at h
  split at h
  . next hkw =>
    rw [if_pos (.inl (by simp at hkw ⊢; tauto))]
    exact bytes_of_printed h
  . next hkw =>
    split at h
    . contradiction
    . next first rest hlist =>
      simp only [hlist, List.head?_cons, List.map_cons, List.map_nil, List.mem_cons,
        List.not_mem_nil, or_false, Option.some.injEq] at hkw ⊢
      split at h
      . next hfirst =>
        rw [if_pos (by tauto)]
        exact bytes_of_printed h
      . split at h
        . next hfirst =>
          rw [if_pos (by tauto)]
          exact bytes_of_printed h
        . split at h
          . next hfirst =>
            simp only [List.mem_cons, List.not_mem_nil, or_false] at hfirst
            rw [if_pos (by tauto)]
            exact bytes_of_printed h
          . next hlast =>
            simp only [List.mem_cons, List.not_mem_nil, or_false] at hlast
            split at h
            . next hfirst =>
              rw [if_pos (by tauto)]
              exact bytes_of_printed h
            . rw [if_neg (by tauto)]
              split at h
              . split at h
                . contradiction
                . cases h
                  rfl
              . cases h
                rfl

theorem sectionRecords_flatMap (records : List KeywordRecord)
    : sectionRecords (records.flatMap KeywordRecord.encode) = records.map fun r => (r.kw, r.data) := by
  induction records with
  | nil =>
    rw [List.flatMap_nil, sectionRecords]
    . rfl
    . simp
  | cons record records ih =>
    obtain ⟨kw, data, hkw, hdata⟩ := record
    obtain ⟨first, second, rfl⟩ := List.length_eq_two.mp hkw
    have hlen : (UInt8.ofNat data.length).toNat = data.length := by
      rw [UInt8.toNat_ofNat', Nat.mod_eq_of_lt hdata]
    have hencode : ∀ rest : List UInt8, KeywordRecord.encode ⟨[first, second], data, hkw, hdata⟩ ++ rest =
        first :: second :: UInt8.ofNat data.length :: (data ++ rest) := fun _ => rfl
    rw [List.flatMap_cons, hencode, sectionRecords, hlen, List.take_left, List.drop_left, ih]
    rfl

theorem bytes_of_keywordVisit {record : KeywordRecord} {v : VpdKeyword} (h : record.visit = .ok v)
    : v.line.map bytes = if isPrinted record.kw then
        some (assignment equals quote (recordAssignment (record.kw, record.data))) else none := by
  unfold KeywordRecord.visit at h
  obtain ⟨kw, hkw, h⟩ := Except.bind_eq_ok_iff.mp h
  obtain ⟨line, hline, h⟩ := Except.bind_eq_ok_iff.mp h
  cases h
  rw [← bytes_of_decodeUtf8 hkw]
  exact bytes_of_visit hline

-- By induction on the records of the section
theorem bytes_of_decodeVpdR {vpd : List UInt8} {visits : List VpdKeyword}
    (h : decodeVpdR vpd = .ok visits)
    : (visits.filterMap (·.line)).map bytes =
        (((sectionRecords vpd).filter fun r => isPrinted r.1).map recordAssignment).map
          (assignment equals quote) := by
  obtain ⟨records, rfl, hvisits⟩ := (decodeVpdR_eq_ok_iff vpd visits).mp h
  have hall := Except.forall₂_of_mapM_eq_ok hvisits
  clear h hvisits
  rw [sectionRecords_flatMap]
  induction hall with
  | nil => rfl
  | @cons record v _ _ hvisit _ ih =>
    have hline := bytes_of_keywordVisit hvisit
    rw [List.map_cons, List.filter_cons]
    cases hprinted : isPrinted record.kw with
    | true =>
      rw [hprinted, if_pos rfl] at hline
      obtain ⟨line, hsome, hbytes⟩ := Option.map_eq_some_iff.mp hline
      rw [List.filterMap_cons_some hsome, List.map_cons, hbytes, ih, if_pos rfl, List.map_cons,
        List.map_cons]
    | false =>
      rw [hprinted, if_neg (by decide), Option.map_eq_none_iff] at hline
      rw [List.filterMap_cons_none hline, ih, if_neg (by decide)]

theorem of_mapError {α : Type} {x : Except VpdError α} {a : α}
    (h : x.mapError MainError.decode = .ok a)
    : x = .ok a := by
  cases x with
  | error e => contradiction
  | ok b =>
    cases h
    rfl

theorem bytes_of_printTag {tag : VpdTag} {printed : List String} (h : printTag tag = .ok printed)
    : printed.map bytes = (tag.records.map recordAssignment).map (assignment equals quote) := by
  unfold printTag at h
  unfold VpdTag.records
  split at h
  . next htype =>
    rw [if_pos htype]
    split at h
    . cases h
      rfl
    . contradiction
  . next htype =>
    rw [if_neg htype]
    split at h
    . next hname =>
      obtain ⟨line, hline, h⟩ := Except.bind_eq_ok_iff.mp h
      cases h
      rw [if_pos hname, List.map_singleton, bytes_of_decodeAsciiVpd (of_mapError hline)]
      rfl
    . next hident =>
      rw [if_neg hident]
      split at h
      . next hname =>
        obtain ⟨visits, hvisits, h⟩ := Except.bind_eq_ok_iff.mp h
        cases h
        rw [if_pos hname]
        exact bytes_of_decodeVpdR (of_mapError hvisits)
      . next hread =>
        rw [if_neg hread]
        split at h
        . cases h
          rfl
        . contradiction

theorem bytes_of_printTags {tags : List VpdTag} {parts : List (List String)}
    (h : tags.mapM printTag = .ok parts)
    : parts.flatten.map bytes =
        ((tags.flatMap VpdTag.records).map recordAssignment).map (assignment equals quote) := by
  have hall := Except.forall₂_of_mapM_eq_ok h
  clear h
  induction hall with
  | nil => rfl
  | cons hpart _ ih =>
    rw [List.flatten_cons, List.map_append, bytes_of_printTag hpart, ih, List.flatMap_cons,
      List.map_append, List.map_append]

theorem bytes_of_main {raw : List UInt8} {printed : List String} (h : main (.vpd raw) = .ok printed)
    : printed.map bytes = (assignments raw).map (assignment equals quote) := by
  unfold main at h
  obtain ⟨tags, htags, h⟩ := Except.bind_eq_ok_iff.mp h
  split at h
  . contradiction
  . obtain ⟨parts, hparts, h⟩ := Except.bind_eq_ok_iff.mp h
    cases h
    have hstatus : bytes "VPD_STATUS=\"OK\"" =
        assignment equals quote (bytes "VPD_STATUS", bytes "OK") := by decide
    unfold assignments printedRecords
    rw [of_mapError htags, List.map_cons, List.map_cons, hstatus, bytes_of_printTags hparts]

theorem forall_assignments_iff (raw : List UInt8)
    : (∀ r ∈ assignments raw, newline ∉ r.1 ∧ newline ∉ r.2 ∧ equals ∉ r.1) ↔ Harmless raw := by
  have hvpd : newline ∉ bytes "VPD_" ∧ equals ∉ bytes "VPD_" := by decide
  have hstatus : newline ∉ bytes "VPD_STATUS" ∧ newline ∉ bytes "OK" ∧
      equals ∉ bytes "VPD_STATUS" := by decide
  unfold assignments Harmless
  rw [List.forall_mem_cons, List.forall_mem_map]
  simp only [recordAssignment, List.mem_append, hvpd, hstatus, false_or, not_false_eq_true,
    and_self, true_and]

theorem speaksForItself_iff {raw : List UInt8} {printed : List String}
    (h : main (.vpd raw) = .ok printed)
    : SpeaksForItself raw printed ↔ Harmless raw := by
  have hequals : newline ≠ equals := by decide
  have hquote : newline ≠ quote := by decide
  have hread := Assignments.read_terminated_iff hequals hquote (assignments raw)
  rw [← bytes_of_main h, forall_assignments_iff] at hread
  constructor
  . intro hspeaks
    exact hread.mp hspeaks.read_eq
  . intro hharmless
    refine ⟨?_, hread.mpr hharmless⟩
    unfold stdout
    rw [bytes_of_main h]
    apply Assignments.lines_terminated_of_not_mem
    rw [List.forall_mem_map]
    intro r hr
    obtain ⟨hkey, hvalue, _⟩ := (forall_assignments_iff raw).mpr hharmless r hr
    exact (Assignments.newline_not_mem_assignment_iff hequals hquote r).mpr ⟨hkey, hvalue⟩

-- A card whose part number holds the given bytes
section PartNumber

def partNumber (data : List UInt8) (h : data.length < 256) : KeywordRecord where
  kw := [0x50, 0x4e]
  data := data
  length_kw := rfl
  length_data_lt := h

theorem length_encode_partNumber (data : List UInt8) (h : data.length < 256)
    : (partNumber data h).encode.length ≤ 65535 := by
  unfold KeywordRecord.encode partNumber
  simp only [List.length_append, List.length_cons, List.length_nil]
  omega

def card (data : List UInt8) (h : data.length < 256) : List VpdResource :=
  [.large 0x10 (partNumber data h).encode (length_encode_partNumber data h),
    .small 0xf [] (Nat.zero_le 7)]

variable {data : List UInt8} {h : data.length < 256}

theorem vpdParseTags_card
    : vpdParseTags ((card data h).flatMap VpdResource.encode) =
        .ok [{ rdType := 1, name := 0x10, data := (partNumber data h).encode },
          { rdType := 0, name := 0xf, data := [] }] :=
  (vpdParseTags_eq_ok_iff _ _).mpr ⟨card data h, rfl, rfl⟩

theorem main_card {line : String} (hline : decodeAsciiVpd "PN" data = .ok line)
    : main (.vpd ((card data h).flatMap VpdResource.encode)) =
        .ok ["VPD_STATUS=\"OK\"", line] := by
  have hvisit : (partNumber data h).visit = .ok { kw := "PN", data, line := some line } := by
    have hkw : decodeUtf8 [0x50, 0x4e] = .ok "PN" := by decide
    have hprint : decodeVpdR.visit "PN" data = .ok (some line) := by
      unfold decodeVpdR.visit
      rw [if_pos (by decide), hline]
      rfl
    unfold KeywordRecord.visit partNumber
    dsimp only
    rw [hkw]
    show decodeVpdR.visit "PN" data >>= _ = _
    rw [hprint]
    rfl
  have hvisits : decodeVpdR (partNumber data h).encode =
      .ok [{ kw := "PN", data, line := some line }] := by
    rw [decodeVpdR_eq_ok_iff]
    refine ⟨[partNumber data h], List.flatMap_singleton _ _, ?_⟩
    rw [List.mapM_cons, hvisit]
    rfl
  unfold main
  dsimp only
  rw [vpdParseTags_card]
  show List.mapM printTag _ >>= _ = _
  unfold printTag
  rw [List.mapM_cons]
  dsimp only
  rw [hvisits]
  rfl

theorem printedRecords_card
    : printedRecords ((card data h).flatMap VpdResource.encode) = [([0x50, 0x4e], data)] := by
  have hrecords := sectionRecords_flatMap [partNumber data h]
  rw [List.flatMap_singleton] at hrecords
  have hprinted : isPrinted [0x50, 0x4e] = true := by decide
  have hsection : VpdTag.records ⟨1, 0x10, (partNumber data h).encode⟩ = [([0x50, 0x4e], data)] := by
    have htype : (1 : UInt8) ≠ 0 := by decide
    have hname : (0x10 : UInt8) ≠ 0x02 := by decide
    unfold VpdTag.records
    dsimp only
    rw [if_neg htype, if_neg hname, if_pos rfl, hrecords]
    exact List.filter_cons_of_pos hprinted
  have hend : VpdTag.records ⟨0, 0xf, []⟩ = [] := if_pos rfl
  unfold printedRecords
  rw [vpdParseTags_card]
  dsimp only
  rw [List.flatMap_cons, List.flatMap_singleton, hsection, hend, List.append_nil]

end PartNumber

theorem speaksForItself_card
    : main (.vpd ((card [0x41, 0x22, 0x31, 0] (by decide)).flatMap VpdResource.encode)) =
          .ok ["VPD_STATUS=\"OK\"", "VPD_PN=\"A\"1\""] ∧
        SpeaksForItself ((card [0x41, 0x22, 0x31, 0] (by decide)).flatMap VpdResource.encode)
          ["VPD_STATUS=\"OK\"", "VPD_PN=\"A\"1\""] := by
  have hmain := @main_card [0x41, 0x22, 0x31, 0] (by decide) "VPD_PN=\"A\"1\"" (by decide)
  refine ⟨hmain, (speaksForItself_iff hmain).mpr ?_⟩
  unfold Harmless
  rw [printedRecords_card]
  decide

-- The bytes of `x"`, a newline and `VPD_STATUS="missing`
def forgedData : List UInt8 :=
  [0x78, 0x22, 0x0a, 0x56, 0x50, 0x44, 0x5f, 0x53, 0x54, 0x41, 0x54, 0x55, 0x53, 0x3d, 0x22, 0x6d,
    0x69, 0x73, 0x73, 0x69, 0x6e, 0x67]

-- The part number of the card sets the status, too
theorem not_speaksForItself_forged
    : main (.vpd ((card forgedData (by decide)).flatMap VpdResource.encode)) =
          .ok ["VPD_STATUS=\"OK\"", "VPD_PN=\"x\"\nVPD_STATUS=\"missing\""] ∧
        ¬ SpeaksForItself ((card forgedData (by decide)).flatMap VpdResource.encode)
          ["VPD_STATUS=\"OK\"", "VPD_PN=\"x\"\nVPD_STATUS=\"missing\""] := by
  refine ⟨main_card (by decide), ?_⟩
  intro h
  have hlen := congrArg List.length h.lines_eq
  unfold assignments at hlen
  rw [printedRecords_card] at hlen
  revert hlen
  decide

end VpdDecoder
