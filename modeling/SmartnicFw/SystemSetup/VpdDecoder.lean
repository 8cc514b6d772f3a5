import SmartnicFw.Lib.Walk

/-!
This module contains the decoder of a card's vital product data (`smartnic-vpd-decoder`).
-/

namespace VpdDecoder

open Walk (slice walk Read Decodes)

inductive VpdError where
  | srdtLen (len pos vpdLen : Nat)
  -- A text is raised there, which is a `TypeError`
  | lrdtHeader (pos : Nat)
  | lrdtLen (len pos vpdLen : Nat)
  | vpdHeader (pos : Nat)
  | kwLen (kw : String) (len : Nat)
  | unicodeDecode
  | index
  deriving DecidableEq, Repr

structure VpdTag where
  rdType : UInt8
  name : UInt8
  data : List UInt8
  deriving DecidableEq, Repr

namespace vpdParseTags

-- One turn of the loop
def read (vpdRaw : List UInt8) (pos : Nat) (_ : pos < vpdRaw.length)
    : Except VpdError (Read VpdTag pos) :=
  let vpdLen := vpdRaw.length
  let tag := vpdRaw[pos]
  let dataPos := pos + 1
  let rdType := tag >>> 7
  if rdType = 0 then
    let srdtName := (tag >>> 3) &&& 0xf
    let srdtLen := (tag &&& 0x7).toNat
    if dataPos + srdtLen ≤ vpdLen then
      let srdtData := slice vpdRaw dataPos srdtLen
      .ok {
        item := { rdType, name := srdtName, data := srdtData }
        next := dataPos + srdtLen
        lt_next := by omega }
    else
      .error (.srdtLen srdtLen dataPos vpdLen)
  else
    let lrdtName := tag &&& 0x7f
    if h : dataPos + 2 ≤ vpdLen then
      let lrdtLen := vpdRaw[dataPos + 1].toNat <<< 8 ||| vpdRaw[dataPos].toNat
      let lrdtPos := dataPos + 2
      if lrdtPos + lrdtLen ≤ vpdLen then
        let lrdtData := slice vpdRaw lrdtPos lrdtLen
        .ok {
          item := { rdType, name := lrdtName, data := lrdtData }
          next := lrdtPos + lrdtLen
          lt_next := by omega }
      else
        .error (.lrdtLen lrdtLen lrdtPos vpdLen)
    else
      .error (.lrdtHeader dataPos)

end vpdParseTags

def vpdParseTags (vpdRaw : List UInt8) : Except VpdError (List VpdTag) :=
  walk vpdParseTags.read vpdRaw 0 []

def decodeUtf8 (bytes : List UInt8) : Except VpdError String :=
  match String.fromUTF8? ⟨bytes.toArray⟩ with
  | none => .error .unicodeDecode
  | some text => .ok text

-- The line that is printed
def decodeAsciiVpd (kw : String) (kwData : List UInt8) : Except VpdError String :=
  match decodeUtf8 kwData with
  | .error e => .error e
  | .ok text =>
    let kwString := String.ofList (text.toList.takeWhile (· ≠ Char.ofNat 0))
    .ok ("VPD_" ++ kw ++ "=\"" ++ kwString ++ "\"")

structure VpdKeyword where
  kw : String
  data : List UInt8
  line : Option String
  deriving DecidableEq, Repr

namespace decodeVpdR

def visit (kw : String) (kwData : List UInt8) : Except VpdError (Option String) :=
  if kw ∈ ["EC", "MN", "PN", "SN", "YA", "PG"] then
    some <$> decodeAsciiVpd kw kwData
  else
    match kw.toList with
    | [] => .error .index
    | first :: _ =>
      if first = 'V' then
        some <$> decodeAsciiVpd kw kwData
      else if first = 'Y' then
        some <$> decodeAsciiVpd kw kwData
      else if kw ∈ ["CC", "FC", "NA", "RM"] then
        some <$> decodeAsciiVpd kw kwData
      else if first = 'Z' then
        some <$> decodeAsciiVpd kw kwData
      else if kw = "RV" then
        -- The checksum is read, and neither checked nor printed
        match kwData with
        | [] => .error .index
        | _ :: _ => .ok none
      else
        .ok none

def read (vpd : List UInt8) (pos : Nat) (_ : pos < vpd.length)
    : Except VpdError (Read VpdKeyword pos) :=
  let vpdLen := vpd.length
  if h : pos + 3 ≤ vpdLen then
    match decodeUtf8 (slice vpd pos 2) with
    | .error e => .error e
    | .ok kw =>
      let kwLen := vpd[pos + 2].toNat
      let kwPos := pos + 3
      if kwPos + kwLen ≤ vpdLen then
        let kwData := slice vpd kwPos kwLen
        match visit kw kwData with
        | .error e => .error e
        | .ok line =>
          .ok {
            item := { kw, data := kwData, line }
            next := kwPos + kwLen
            lt_next := by omega }
      else
        .error (.kwLen kw kwLen)
  else
    .error (.vpdHeader pos)

end decodeVpdR

-- The keywords that the loop gets to see, with what it prints for each
def decodeVpdR (vpd : List UInt8) : Except VpdError (List VpdKeyword) :=
  walk decodeVpdR.read vpd 0 []

-- What a card stores
inductive VpdResource where
  | small (name : Fin 16) (data : List UInt8) (h : data.length ≤ 7)
  | large (name : Fin 128) (data : List UInt8) (h : data.length ≤ 65535)

namespace VpdResource

def tag : VpdResource → VpdTag
  | small name data _ => { rdType := 0, name := UInt8.ofNat name, data }
  | large name data _ => { rdType := 1, name := UInt8.ofNat name, data }

def encode : VpdResource → List UInt8
  | small name data _ => UInt8.ofNat (name * 8 + data.length) :: data
  | large name data _ =>
    UInt8.ofNat (128 + name) :: UInt8.ofNat (data.length % 256) ::
      UInt8.ofNat (data.length / 256) :: data

end VpdResource

structure KeywordRecord where
  kw : List UInt8
  data : List UInt8
  length_kw : kw.length = 2
  length_data_lt : data.length < 256

namespace KeywordRecord

def encode (record : KeywordRecord) : List UInt8 :=
  record.kw ++ UInt8.ofNat record.data.length :: record.data

-- What the loop makes of a record
def visit (record : KeywordRecord) : Except VpdError VpdKeyword := do
  let kw ← decodeUtf8 record.kw
  let line ← decodeVpdR.visit kw record.data
  return { kw, data := record.data, line }

end KeywordRecord

-- The bits of a tag
section Bits

theorem toNat_shiftRight (t : UInt8) {k : Nat} (hk : k < 8)
    : (t >>> UInt8.ofNat k).toNat = t.toNat / 2 ^ k := by
  rw [UInt8.toNat_shiftRight, Nat.shiftRight_eq_div_pow, UInt8.toNat_ofNat']
  congr 2
  omega

theorem toNat_and_low (t : UInt8) {k : Nat} (hk : k < 8)
    : (t &&& UInt8.ofNat (2 ^ k - 1)).toNat = t.toNat % 2 ^ k := by
  have hlt : 2 ^ k - 1 < 256 := by
    have hpow : 2 ^ k ≤ 2 ^ 7 := Nat.pow_le_pow_right (by decide) (by omega)
    omega
  rw [UInt8.toNat_and, UInt8.toNat_ofNat', Nat.mod_eq_of_lt (by omega), Nat.and_two_pow_sub_one_eq_mod]

theorem rdType_eq_zero_iff (t : UInt8) : t >>> 7 = 0 ↔ t.toNat < 128 := by
  rw [← UInt8.toNat_inj]
  have hshift : (t >>> 7).toNat = t.toNat / 2 ^ 7 := toNat_shiftRight t (by decide)
  rw [hshift]
  show t.toNat / 128 = 0 ↔ _
  omega

theorem rdType_eq_one {t : UInt8} (h : 128 ≤ t.toNat) : t >>> 7 = 1 := by
  rw [← UInt8.toNat_inj]
  have hshift : (t >>> 7).toNat = t.toNat / 2 ^ 7 := toNat_shiftRight t (by decide)
  have hlt := t.toNat_lt
  rw [hshift]
  show t.toNat / 128 = 1
  omega

theorem toNat_srdtName (t : UInt8) : ((t >>> 3) &&& 0xf).toNat = t.toNat / 8 % 16 := by
  have hshift : (t >>> 3).toNat = t.toNat / 2 ^ 3 := toNat_shiftRight t (by decide)
  have hlow : ((t >>> 3) &&& 0xf).toNat = (t >>> 3).toNat % 2 ^ 4 :=
    toNat_and_low (k := 4) _ (by decide)
  rw [hlow, hshift]
  rfl

theorem toNat_srdtLen (t : UInt8) : (t &&& 0x7).toNat = t.toNat % 8 := toNat_and_low (k := 3) t (by decide)

theorem toNat_lrdtName (t : UInt8) : (t &&& 0x7f).toNat = t.toNat % 128 :=
  toNat_and_low (k := 7) t (by decide)

theorem lrdtLen_eq (low high : UInt8)
    : high.toNat <<< 8 ||| low.toNat = high.toNat * 256 + low.toNat := by
  rw [Nat.shiftLeft_eq, Nat.mul_comm, ← Nat.two_pow_add_eq_or_of_lt (i := 8) low.toNat_lt]

end Bits

theorem drop_eq_slice_append {vpd : List UInt8} {pos n : Nat} (h : pos + n ≤ vpd.length)
    : vpd.drop pos = slice vpd pos n ++ vpd.drop (pos + n) ∧ (slice vpd pos n).length = n := by
  unfold slice
  constructor
  . rw [← List.drop_drop, List.take_append_drop]
  . rw [List.length_take, List.length_drop]
    omega

namespace vpdParseTags

-- The two kinds of resources, from the bytes of a header and what follows it
theorem exists_small {t : UInt8} {data : List UInt8} (ht : t.toNat < 128)
    (hdata : data.length = (t &&& 0x7).toNat)
    : ∃ s : VpdResource, s.encode = t :: data ∧
        s.tag = { rdType := t >>> 7, name := (t >>> 3) &&& 0xf, data } := by
  rw [toNat_srdtLen] at hdata
  refine ⟨.small ⟨t.toNat / 8, by omega⟩ data (by omega), ?_, ?_⟩
  . have hfirst : UInt8.ofNat (t.toNat / 8 * 8 + data.length) = t := by
      rw [← UInt8.toNat_inj, UInt8.toNat_ofNat', hdata]
      omega
    unfold VpdResource.encode
    dsimp only
    rw [hfirst]
  . have hname : UInt8.ofNat (t.toNat / 8) = (t >>> 3) &&& 0xf := by
      rw [← UInt8.toNat_inj, toNat_srdtName, UInt8.toNat_ofNat']
      omega
    rw [(rdType_eq_zero_iff t).mpr ht, ← hname]
    rfl

theorem exists_large {t low high : UInt8} {data : List UInt8} (ht : 128 ≤ t.toNat)
    (hdata : data.length = high.toNat <<< 8 ||| low.toNat)
    : ∃ s : VpdResource, s.encode = t :: low :: high :: data ∧
        s.tag = { rdType := t >>> 7, name := t &&& 0x7f, data } := by
  have hlt := t.toNat_lt
  have hlow := low.toNat_lt
  have hhigh := high.toNat_lt
  rw [lrdtLen_eq] at hdata
  refine ⟨.large ⟨t.toNat % 128, by omega⟩ data (by omega), ?_, ?_⟩
  . have hfirst : UInt8.ofNat (128 + t.toNat % 128) = t := by
      rw [← UInt8.toNat_inj, UInt8.toNat_ofNat']
      omega
    have hsecond : UInt8.ofNat (data.length % 256) = low := by
      rw [← UInt8.toNat_inj, UInt8.toNat_ofNat']
      omega
    have hthird : UInt8.ofNat (data.length / 256) = high := by
      rw [← UInt8.toNat_inj, UInt8.toNat_ofNat']
      omega
    unfold VpdResource.encode
    dsimp only
    rw [hfirst, hsecond, hthird]
  . have hname : UInt8.ofNat (t.toNat % 128) = t &&& 0x7f := by
      rw [← UInt8.toNat_inj, toNat_lrdtName, UInt8.toNat_ofNat']
      omega
    rw [rdType_eq_one ht, ← hname]
    rfl

theorem exists_of_read {vpdRaw : List UInt8} {pos : Nat} {h : pos < vpdRaw.length}
    {r : Read VpdTag pos} (hread : read vpdRaw pos h = .ok r)
    : ∃ (s : VpdResource) (after : List UInt8), vpdRaw.drop pos = s.encode ++ after ∧
        r.next = pos + s.encode.length ∧ s.tag = r.item := by
  have hdrop := List.drop_eq_getElem_cons h
  unfold read at hread
  dsimp only at hread
  split at hread
  . next hsmall =>
    split at hread
    . next hle =>
      cases hread
      obtain ⟨hrest, hlen⟩ := drop_eq_slice_append hle
      obtain ⟨s, hencode, htag⟩ := exists_small ((rdType_eq_zero_iff _).mp hsmall) hlen
      refine ⟨s, vpdRaw.drop (pos + 1 + (vpdRaw[pos] &&& 0x7).toNat), ?_, ?_, htag⟩
      . rw [hdrop, hencode, hrest]
        rfl
      . rw [hencode, List.length_cons, hlen]
        dsimp only
        omega
    . contradiction
  . next hlarge =>
    rw [rdType_eq_zero_iff] at hlarge
    split at hread
    . next hheader =>
      split at hread
      . next hle =>
        cases hread
        obtain ⟨hrest, hlen⟩ := drop_eq_slice_append hle
        have ht : 128 ≤ vpdRaw[pos].toNat := by omega
        obtain ⟨s, hencode, htag⟩ := exists_large ht hlen
        have hsecond : pos + 1 < vpdRaw.length := by omega
        have hthird : pos + 1 + 1 < vpdRaw.length := by omega
        refine ⟨s, vpdRaw.drop (pos + 1 + 2 +
          (vpdRaw[pos + 1 + 1].toNat <<< 8 ||| vpdRaw[pos + 1].toNat)), ?_, ?_, htag⟩
        . rw [hdrop, List.drop_eq_getElem_cons hsecond, List.drop_eq_getElem_cons hthird, hrest,
            hencode]
          rfl
        . rw [hencode, List.length_cons, List.length_cons, List.length_cons, hlen]
          dsimp only
          omega
      . contradiction
    . contradiction

theorem read_small {vpdRaw data after : List UInt8} {pos : Nat} {h : pos < vpdRaw.length} {t : UInt8}
    (hdrop : vpdRaw.drop pos = t :: (data ++ after)) (ht : t.toNat < 128)
    (hdata : data.length = (t &&& 0x7).toNat)
    : read vpdRaw pos h = .ok {
        item := { rdType := t >>> 7, name := (t >>> 3) &&& 0xf, data }
        next := pos + 1 + data.length
        lt_next := by omega } := by
  have hlen := congrArg List.length hdrop
  simp only [List.length_drop, List.length_cons, List.length_append] at hlen
  obtain ⟨hget, hrest⟩ := List.cons.inj ((List.drop_eq_getElem_cons h).symm.trans hdrop)
  have hslice : slice vpdRaw (pos + 1) data.length = data := by
    unfold slice
    rw [hrest, List.take_left]
  have hle : pos + 1 + data.length ≤ vpdRaw.length := by omega
  unfold read
  simp only [hget, (rdType_eq_zero_iff t).mpr ht, ← hdata, hle, hslice, ↓reduceIte]

theorem read_large {vpdRaw data after : List UInt8} {pos : Nat} {h : pos < vpdRaw.length}
    {t low high : UInt8} (hdrop : vpdRaw.drop pos = t :: low :: high :: (data ++ after))
    (ht : 128 ≤ t.toNat) (hdata : data.length = high.toNat <<< 8 ||| low.toNat)
    : read vpdRaw pos h = .ok {
        item := { rdType := t >>> 7, name := t &&& 0x7f, data }
        next := pos + 1 + 2 + data.length
        lt_next := by omega } := by
  have hlen := congrArg List.length hdrop
  simp only [List.length_drop, List.length_cons, List.length_append] at hlen
  have hsecond : pos + 1 < vpdRaw.length := by omega
  have hthird : pos + 1 + 1 < vpdRaw.length := by omega
  obtain ⟨hget, hrest⟩ := List.cons.inj ((List.drop_eq_getElem_cons h).symm.trans hdrop)
  obtain ⟨hlow, hrest⟩ := List.cons.inj ((List.drop_eq_getElem_cons hsecond).symm.trans hrest)
  obtain ⟨hhigh, hrest⟩ := List.cons.inj ((List.drop_eq_getElem_cons hthird).symm.trans hrest)
  have hslice : slice vpdRaw (pos + 1 + 2) data.length = data := by
    unfold slice
    rw [hrest, List.take_left]
  have hheader : pos + 1 + 2 ≤ vpdRaw.length := by omega
  have hle : pos + 1 + 2 + data.length ≤ vpdRaw.length := by omega
  have htype : ¬ t >>> 7 = 0 := by
    rw [rdType_eq_zero_iff]
    omega
  unfold read
  simp only [hget, hlow, hhigh, htype, ← hdata, hheader, hle, hslice, ↓reduceIte, ↓reduceDIte]

theorem read_of_drop {vpdRaw after : List UInt8} {pos : Nat} {h : pos < vpdRaw.length}
    {r : Read VpdTag pos} (s : VpdResource) (hdrop : vpdRaw.drop pos = s.encode ++ after)
    (hnext : r.next = pos + s.encode.length) (hitem : s.tag = r.item)
    : read vpdRaw pos h = .ok r := by
  cases s with
  | small name data hle =>
    have hname := name.isLt
    have ht : (UInt8.ofNat (name * 8 + data.length)).toNat = name * 8 + data.length := by
      rw [UInt8.toNat_ofNat']
      omega
    have hdata : data.length = (UInt8.ofNat (name * 8 + data.length) &&& 0x7).toNat := by
      rw [toNat_srdtLen, ht]
      omega
    have htag : (VpdResource.small name data hle).tag =
        { rdType := UInt8.ofNat (name * 8 + data.length) >>> 7,
          name := (UInt8.ofNat (name * 8 + data.length) >>> 3) &&& 0xf, data } := by
      have hback : (UInt8.ofNat (name * 8 + data.length) >>> 3) &&& 0xf = UInt8.ofNat name := by
        rw [← UInt8.toNat_inj, toNat_srdtName, ht, UInt8.toNat_ofNat']
        omega
      rw [(rdType_eq_zero_iff _).mpr (by omega), hback]
      rfl
    rw [read_small hdrop (by omega) hdata]
    congr 1
    apply Read.ext
    . rw [← hitem, htag]
    . rw [hnext]
      simp only [VpdResource.encode, List.length_cons]
      omega
  | large name data hle =>
    have hname := name.isLt
    have ht : (UInt8.ofNat (128 + name)).toNat = 128 + name := by
      rw [UInt8.toNat_ofNat']
      omega
    have hdata : data.length = (UInt8.ofNat (data.length / 256)).toNat <<< 8 |||
        (UInt8.ofNat (data.length % 256)).toNat := by
      rw [lrdtLen_eq, UInt8.toNat_ofNat', UInt8.toNat_ofNat']
      omega
    have htag : (VpdResource.large name data hle).tag =
        { rdType := UInt8.ofNat (128 + name) >>> 7, name := UInt8.ofNat (128 + name) &&& 0x7f,
          data } := by
      have hback : UInt8.ofNat (128 + name) &&& 0x7f = UInt8.ofNat name := by
        rw [← UInt8.toNat_inj, toNat_lrdtName, ht, UInt8.toNat_ofNat']
        omega
      rw [rdType_eq_one (by omega), hback]
      rfl
    rw [read_large hdrop (by omega) hdata]
    congr 1
    apply Read.ext
    . rw [← hitem, htag]
    . rw [hnext]
      simp only [VpdResource.encode, List.length_cons]
      omega

theorem decodes : Decodes read VpdResource.encode fun s => .ok s.tag where
  encode_ne s := by
    cases s <;> exact List.cons_ne_nil _ _
  read_eq_ok_iff vpdRaw pos h r := by
    constructor
    . intro hread
      obtain ⟨s, after, hdrop, hnext, htag⟩ := exists_of_read hread
      exact ⟨s, after, hdrop, hnext, congrArg Except.ok htag⟩
    . intro ⟨s, after, hdrop, hnext, hitem⟩
      apply read_of_drop s hdrop hnext
      exact Except.ok.inj hitem

end vpdParseTags

theorem vpdParseTags_eq_ok_iff (vpdRaw : List UInt8) (tags : List VpdTag)
    : vpdParseTags vpdRaw = .ok tags ↔
        ∃ rs : List VpdResource, rs.flatMap VpdResource.encode = vpdRaw ∧
          rs.map VpdResource.tag = tags := by
  unfold vpdParseTags
  rw [Walk.walk_eq_ok_iff vpdParseTags.decodes]
  have hmap : ∀ rs : List VpdResource,
      rs.mapM (fun s => (.ok s.tag : Except VpdError VpdTag)) = .ok (rs.map VpdResource.tag) := by
    intro rs
    exact List.mapM_pure
  simp only [hmap, Except.ok.injEq]

namespace decodeVpdR

theorem exists_of_read {vpd : List UInt8} {pos : Nat} {h : pos < vpd.length}
    {r : Read VpdKeyword pos} (hread : read vpd pos h = .ok r)
    : ∃ (s : KeywordRecord) (after : List UInt8), vpd.drop pos = s.encode ++ after ∧
        r.next = pos + s.encode.length ∧ s.visit = .ok r.item := by
  unfold read at hread
  dsimp only at hread
  split at hread
  . next hheader =>
    split at hread
    . contradiction
    . next kw hkw =>
      split at hread
      . next hle =>
        split at hread
        . contradiction
        . next line hline =>
          cases hread
          have hlen : pos + 2 < vpd.length := by omega
          have hkwle : pos + 2 ≤ vpd.length := by omega
          obtain ⟨hfirst, hkwlen⟩ := drop_eq_slice_append hkwle
          obtain ⟨hrest, hdatalen⟩ := drop_eq_slice_append hle
          have hlt := vpd[pos + 2].toNat_lt
          let s : KeywordRecord := {
            kw := slice vpd pos 2
            data := slice vpd (pos + 3) vpd[pos + 2].toNat
            length_kw := hkwlen
            length_data_lt := by omega }
          have hencode : s.encode = slice vpd pos 2 ++ vpd[pos + 2] ::
              slice vpd (pos + 3) vpd[pos + 2].toNat := by
            unfold KeywordRecord.encode
            dsimp only [s]
            rw [hdatalen, UInt8.ofNat_toNat]
          refine ⟨s, vpd.drop (pos + 3 + vpd[pos + 2].toNat), ?_, ?_, ?_⟩
          . rw [hencode, hfirst, List.drop_eq_getElem_cons hlen, hrest]
            simp
          . rw [hencode, List.length_append, hkwlen, List.length_cons, hdatalen]
            dsimp only
            omega
          . unfold KeywordRecord.visit
            dsimp only [s]
            rw [hkw]
            show (visit _ _ >>= _) = _
            rw [hline]
            rfl
      . contradiction
  . contradiction

theorem read_of_drop {vpd after : List UInt8} {pos : Nat} {h : pos < vpd.length}
    {r : Read VpdKeyword pos} (s : KeywordRecord) (hdrop : vpd.drop pos = s.encode ++ after)
    (hnext : r.next = pos + s.encode.length) (hitem : s.visit = .ok r.item)
    : read vpd pos h = .ok r := by
  have hkwlen := s.length_kw
  have hdatalt := s.length_data_lt
  have hlast : (UInt8.ofNat s.data.length).toNat = s.data.length := by
    rw [UInt8.toNat_ofNat']
    omega
  have hfirst : vpd.drop pos = s.kw ++ (UInt8.ofNat s.data.length :: (s.data ++ after)) := by
    rw [hdrop, KeywordRecord.encode, List.append_assoc]
    rfl
  have hlen := congrArg List.length hfirst
  simp only [List.length_drop, List.length_append, List.length_cons] at hlen
  have hsecond : vpd.drop (pos + 2) = UInt8.ofNat s.data.length :: (s.data ++ after) := by
    rw [← List.drop_drop, hfirst, List.drop_left' hkwlen]
  have hthird : pos + 2 < vpd.length := by omega
  obtain ⟨hget, hrest⟩ := List.cons.inj ((List.drop_eq_getElem_cons hthird).symm.trans hsecond)
  have hkwslice : slice vpd pos 2 = s.kw := by
    unfold slice
    rw [hfirst, List.take_left' hkwlen]
  have hslice : slice vpd (pos + 3) s.data.length = s.data := by
    unfold slice
    rw [hrest, List.take_left]
  unfold KeywordRecord.visit at hitem
  cases hkw : decodeUtf8 s.kw with
  | error e =>
    rw [hkw] at hitem
    contradiction
  | ok kw =>
    cases hline : visit kw s.data with
    | error e =>
      rw [hkw] at hitem
      change (visit kw s.data >>= _) = _ at hitem
      rw [hline] at hitem
      contradiction
    | ok line =>
      rw [hkw] at hitem
      change (visit kw s.data >>= _) = _ at hitem
      rw [hline] at hitem
      have hr : ({ kw, data := s.data, line } : VpdKeyword) = r.item := Except.ok.inj hitem
      have hheader : pos + 3 ≤ vpd.length := by omega
      have hle : pos + 3 + s.data.length ≤ vpd.length := by omega
      have hread : read vpd pos h = .ok {
          item := { kw, data := s.data, line }
          next := pos + 3 + s.data.length
          lt_next := by omega } := by
        unfold read
        simp only [hkwslice, hkw, hget, hlast, hslice, hline, hheader, hle, ↓reduceIte, ↓reduceDIte]
      rw [hread]
      congr 1
      apply Read.ext
      . exact hr
      . rw [hnext]
        simp only [KeywordRecord.encode, List.length_append, List.length_cons, hkwlen]
        omega

theorem decodes : Decodes read KeywordRecord.encode KeywordRecord.visit where
  encode_ne s := by
    unfold KeywordRecord.encode
    simp
  read_eq_ok_iff vpd pos h r := by
    constructor
    . exact exists_of_read
    . intro ⟨s, after, hdrop, hnext, hitem⟩
      exact read_of_drop s hdrop hnext hitem

end decodeVpdR

theorem decodeVpdR_eq_ok_iff (vpd : List UInt8) (visits : List VpdKeyword)
    : decodeVpdR vpd = .ok visits ↔
        ∃ records : List KeywordRecord, records.flatMap KeywordRecord.encode = vpd ∧
          records.mapM KeywordRecord.visit = .ok visits :=
  Walk.walk_eq_ok_iff decodeVpdR.decodes vpd visits

theorem KeywordRecord.prefixFree : Walk.PrefixFree KeywordRecord.encode := by
  intro s s' after after' h
  simp only [encode, List.append_assoc, List.cons_append] at h
  obtain ⟨hkw, h⟩ := List.append_inj h (s.length_kw.trans s'.length_kw.symm)
  obtain ⟨hlast, h⟩ := List.cons.inj h
  have hlen : s.data.length = s'.data.length := by
    have hlt := s.length_data_lt
    have hlt' := s'.length_data_lt
    rw [← UInt8.toNat_inj, UInt8.toNat_ofNat', UInt8.toNat_ofNat'] at hlast
    omega
  have hdata := (List.append_inj h hlen).1
  cases s
  cases s'
  cases hkw
  cases hdata
  rfl

-- The two walks undo the encodings of the card and of its read-only section. That they end, with a
-- list or an exception, is that they are functions.
theorem vpd_roundTrips
    : (∀ rs : List VpdResource,
          vpdParseTags (rs.flatMap VpdResource.encode) = .ok (rs.map VpdResource.tag)) ∧
        (∀ vpdRaw tags, vpdParseTags vpdRaw = .ok tags →
          ∃ rs : List VpdResource, rs.map VpdResource.tag = tags ∧
            rs.flatMap VpdResource.encode = vpdRaw) ∧
        (∀ vpd visits, decodeVpdR vpd = .ok visits ↔
          ∃ records : List KeywordRecord, records.flatMap KeywordRecord.encode = vpd ∧
            records.mapM KeywordRecord.visit = .ok visits) ∧
        Function.Injective (List.flatMap KeywordRecord.encode) := by
  refine ⟨?_, ?_, decodeVpdR_eq_ok_iff,
    Walk.flatMap_injective decodeVpdR.decodes.encode_ne KeywordRecord.prefixFree⟩
  . intro rs
    rw [vpdParseTags_eq_ok_iff]
    exact ⟨rs, rfl, rfl⟩
  . intro vpdRaw tags htags
    obtain ⟨rs, hencode, hmap⟩ := (vpdParseTags_eq_ok_iff vpdRaw tags).mp htags
    exact ⟨rs, hmap, hencode⟩

end VpdDecoder
