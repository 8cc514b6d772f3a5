import SmartnicFw.Lib.Tlv
import SmartnicFw.OpenNic.Cms

/-!
This module contains the parser of the card information that the card management system answers with
(`cms.c`), together with the accesses that it makes to the message.
-/

namespace CmsCardInfo

abbrev EtherAddr := Vector UInt8 6

-- The keys, those that come in fours with their index
inductive Key where
  | CARD_SN
  | MAC_ADDRESS (n : Fin 4)
  | CARD_REV
  | CARD_NAME
  | SAT_VERSION
  | TOTAL_POWER_AVAIL
  | FAN_PRESENCE
  | CONFIG_MODE
  | NEW_MAC_SCHEME
  | CAGE_TYPE (n : Fin 4)
  | other
  deriving DecidableEq, Repr

def Key.ofByte (byte : UInt8) : Key :=
  match byte.toNat with
  | 0x21 => .CARD_SN
  | 0x22 => .MAC_ADDRESS 0
  | 0x23 => .MAC_ADDRESS 1
  | 0x24 => .MAC_ADDRESS 2
  | 0x25 => .MAC_ADDRESS 3
  | 0x26 => .CARD_REV
  | 0x27 => .CARD_NAME
  | 0x28 => .SAT_VERSION
  | 0x29 => .TOTAL_POWER_AVAIL
  | 0x2a => .FAN_PRESENCE
  | 0x2b => .CONFIG_MODE
  | 0x4b => .NEW_MAC_SCHEME
  | 0x50 => .CAGE_TYPE 0
  | 0x51 => .CAGE_TYPE 1
  | 0x52 => .CAGE_TYPE 2
  | 0x53 => .CAGE_TYPE 3
  | _ => .other

-- A string is the offset of its first byte in the payload, and NULL is `none`
structure CardInfo where
  name : Option Nat
  serialNumber : Option Nat
  revision : Option Nat
  scVersion : Option Nat
  fanPresence : UInt8
  totalPowerAvail : Nat
  configMode : UInt8
  cageTypes : Fin 4 → UInt8
  cageValidMask : BitVec 32
  legacyAddrs : Fin 4 → EtherAddr
  legacyValidMask : BitVec 32
  blockCount : Nat
  blockBase : EtherAddr

-- What `calloc` returns
def CardInfo.zero : CardInfo :=
  { name := none
    serialNumber := none
    revision := none
    scVersion := none
    fanPresence := 0
    totalPowerAvail := 0
    configMode := 0
    cageTypes := fun _ => 0
    cageValidMask := 0
    legacyAddrs := fun _ => Vector.replicate 6 0
    legacyValidMask := 0
    blockCount := 0
    blockBase := Vector.replicate 6 0 }

inductive Entry where
  | legacyMac (n : Fin 4)
  | cage (n : Fin 4)
  deriving DecidableEq, Repr

-- A byte that is read, a string that is stored or handed to `ether_aton_r`, and an entry that is
-- marked valid, each with the value of its field
inductive Access where
  | read (index : Nat)
  | string (start length : Nat)
  | valid (entry : Entry) (start length : Nat) (filled : Bool)
  deriving DecidableEq, Repr

def validMask (n : Fin 4) : BitVec 32 := 1 <<< n.val

-- The library's `ether_aton_r`, on the characters before the terminator
abbrev EtherAtonR := List UInt8 → Option EtherAddr

def segment (payload : Nat → UInt8) (start length : Nat) : List UInt8 :=
  (List.range length).map fun i => payload (start + i)

-- Past the end of its field a string is not followed, as the access itself tells that it goes there
def fieldText (payload : Nat → UInt8) (start length : Nat) : List UInt8 :=
  (segment payload start length).takeWhile (· ≠ 0)

-- The field at `pos`. The result is the size of the field.
def parseField (etherAtonR : EtherAtonR) (payload : Nat → UInt8) (pos : Nat) (info : CardInfo)
    : Nat × CardInfo × List Access :=
  let length := (payload (pos + 1)).toNat
  let value := pos + 2
  let (info, accesses) : CardInfo × List Access :=
    match Key.ofByte (payload pos) with
    | .CARD_SN => ({ info with serialNumber := some value }, [.string value length])
    | .CARD_REV => ({ info with revision := some value }, [.string value length])
    | .CARD_NAME => ({ info with name := some value }, [.string value length])
    | .SAT_VERSION => ({ info with scVersion := some value }, [.string value length])
    | .TOTAL_POWER_AVAIL =>
      if length ≠ 1 then
        (info, [])
      else
        let info :=
          match (payload value).toNat with
          | 0 => { info with totalPowerAvail := 75 }
          | 1 => { info with totalPowerAvail := 150 }
          | 2 => { info with totalPowerAvail := 225 }
          | 4 => { info with totalPowerAvail := 300 }
          | _ => info
        (info, [.read value])
    | .FAN_PRESENCE =>
      if length ≠ 1 then
        (info, [])
      else
        ({ info with fanPresence := payload value }, [.read value])
    | .CONFIG_MODE =>
      if length ≠ 1 then
        (info, [])
      else
        ({ info with configMode := payload value }, [.read value])
    | .MAC_ADDRESS n =>
      if length ≠ 18 then
        (info, [])
      else
        let addr := etherAtonR (fieldText payload value length)
        let info :=
          { info with
            legacyAddrs := Function.update info.legacyAddrs n (addr.getD (info.legacyAddrs n))
            legacyValidMask := info.legacyValidMask ||| validMask n }
        (info, [.string value length, .valid (.legacyMac n) value length addr.isSome])
    | .NEW_MAC_SCHEME =>
      if length ≠ 8 then
        (info, [])
      else
        let info :=
          { info with
            blockCount := (payload value).toNat
            blockBase := Vector.ofFn fun i => payload (value + 2 + i) }
        (info, .read value :: (List.range 6).map fun i => .read (value + 2 + i))
    | .CAGE_TYPE n =>
      if length ≠ 1 then
        (info, [])
      else
        let info :=
          { info with
            cageTypes := Function.update info.cageTypes n (payload value)
            cageValidMask := info.cageValidMask ||| validMask n }
        (info, [.read value, .valid (.cage n) value length true])
    | .other => (info, [])
  (2 + length, info, .read pos :: .read (pos + 1) :: accesses)

-- The loop over the fields from `len` on
def parseLoop (etherAtonR : EtherAtonR) (payload : Nat → UInt8) (length fuel len : Nat)
    (info : CardInfo)
    : Option (CardInfo × List Access) :=
  if len < length then
    match fuel with
    | 0 => none
    | fuel + 1 => do
      let (size, info, accesses) := parseField etherAtonR payload len info
      let (info, rest) ← parseLoop etherAtonR payload length fuel (len + size) info
      some (info, accesses ++ rest)
  else
    some (info, [])

-- The response, as words of a little-endian host
structure Mailbox where
  length : BitVec 12
  payload : Nat → UInt32

-- The bytes after the copied words are those that the heap has there
def copiedPayload (mailbox : Mailbox) (heap : Nat → UInt8) (i : Nat) : UInt8 :=
  let nwords := (mailbox.length.toNat + 4 - 1) / 4
  if i < nwords * 4 then wordByte (mailbox.payload (i / 4)) (i % 4) else heap i

-- NULL when there is no memory
def cmsCardInfoParse (etherAtonR : EtherAtonR) (calloc : Bool) (heap : Nat → UInt8)
    (mailbox : Mailbox) (fuel : Nat)
    : Option (Option CardInfo × List Access) :=
  if !calloc then
    some (none, [])
  else do
    let (info, accesses) ← parseLoop etherAtonR (copiedPayload mailbox heap) mailbox.length.toNat
      fuel 0 CardInfo.zero
    some (some info, accesses)

def Mailbox.message (mailbox : Mailbox) : List UInt8 :=
  segment (fun i => wordByte (mailbox.payload (i / 4)) (i % 4)) 0 mailbox.length.toNat

-- An access that stays inside the first `length` bytes, and inside its own field
def Access.Inside (payload : Nat → UInt8) (length : Nat) (access : Access) : Prop :=
  match access with
  | .read index => index < length
  | .string start n => ∃ i < n, start + i < length ∧ payload (start + i) = 0
  | .valid _ start n filled => start + n ≤ length ∧ filled

-- What the information has was put there by an access
structure CardInfo.Logged (info : CardInfo) (accesses : List Access) : Prop where
  strings : ∀ start, some start ∈ [info.name, info.serialNumber, info.revision, info.scVersion] →
    ∃ n, .string start n ∈ accesses
  legacyMacs : ∀ n : Fin 4, info.legacyValidMask.getLsbD n → ∃ start length filled,
    .valid (.legacyMac n) start length filled ∈ accesses
  cages : ∀ n : Fin 4, info.cageValidMask.getLsbD n → ∃ start length filled,
    .valid (.cage n) start length filled ∈ accesses

-- The fields that can be parsed: a field that is used is complete, and a string is terminated
def FieldOk (etherAtonR : EtherAtonR) (field : Tlv.Field) : Prop :=
  match Key.ofByte field.key with
  | .CARD_SN | .CARD_REV | .CARD_NAME | .SAT_VERSION => 0 ∈ field.value
  | .TOTAL_POWER_AVAIL | .FAN_PRESENCE | .CONFIG_MODE | .CAGE_TYPE _ =>
    field.length = 1 → field.Complete
  | .MAC_ADDRESS _ =>
    field.length = 18 → field.Complete ∧ 0 ∈ field.value ∧
      (etherAtonR (field.value.takeWhile (· ≠ 0))).isSome
  | .NEW_MAC_SCHEME => field.length = 8 → field.Complete
  | .other => True

section Segment

variable {payload : Nat → UInt8} {start n : Nat}

theorem length_segment : (segment payload start n).length = n := by
  simp [segment]

theorem segment_succ
    : segment payload start (n + 1) = payload start :: segment payload (start + 1) n := by
  unfold segment
  rw [List.range_succ_eq_map, List.map_cons, List.map_map]
  congr 1
  apply List.map_congr_left
  intro i _
  show payload (start + (i + 1)) = payload (start + 1 + i)
  congr 1
  omega

theorem drop_segment (k : Nat)
    : (segment payload start n).drop k = segment payload (start + k) (n - k) := by
  induction k generalizing start n with
  | zero => rfl
  | succ k ih =>
    cases n with
    | zero => simp [segment]
    | succ n =>
      have hstart : start + 1 + k = start + (k + 1) := by omega
      rw [segment_succ, List.drop_succ_cons, ih, hstart, Nat.add_sub_add_right]

theorem take_segment (k : Nat)
    : (segment payload start n).take k = segment payload start (min k n) := by
  unfold segment
  rw [← List.map_take, List.take_range]

theorem mem_segment {byte : UInt8}
    : byte ∈ segment payload start n ↔ ∃ i < n, payload (start + i) = byte := by
  simp [segment]

end Segment

section Field

variable {etherAtonR : EtherAtonR} {payload : Nat → UInt8} {length pos : Nat}

-- The field at `pos`, as far as the message has it
def fieldAt (payload : Nat → UInt8) (length pos : Nat) : Tlv.Field :=
  ⟨payload pos, payload (pos + 1),
    (segment payload (pos + 2) (length - (pos + 2))).take (payload (pos + 1)).toNat⟩

theorem fieldAt_value
    : (fieldAt payload length pos).value =
        segment payload (pos + 2) (min (payload (pos + 1)).toNat (length - (pos + 2))) := by
  unfold fieldAt
  rw [take_segment]

theorem complete_iff (hpos : pos + 1 < length)
    : (fieldAt payload length pos).Complete ↔ pos + 2 + (payload (pos + 1)).toNat ≤ length := by
  unfold Tlv.Field.Complete
  rw [fieldAt_value, length_segment]
  show min (payload (pos + 1)).toNat (length - (pos + 2)) = (payload (pos + 1)).toNat ↔ _
  omega

theorem string_inside_iff
    : (Access.string (pos + 2) (payload (pos + 1)).toNat).Inside payload length ↔
        0 ∈ (fieldAt payload length pos).value := by
  rw [fieldAt_value, mem_segment]
  unfold Access.Inside
  constructor
  . rintro ⟨i, hi, hlt, hzero⟩
    exact ⟨i, by omega, hzero⟩
  . rintro ⟨i, hi, hzero⟩
    exact ⟨i, by omega, by omega, hzero⟩

theorem text_eq (hpos : pos + 1 < length) (hcomplete : (fieldAt payload length pos).Complete)
    : fieldText payload (pos + 2) (payload (pos + 1)).toNat =
        (fieldAt payload length pos).value.takeWhile (· ≠ 0) := by
  rw [complete_iff hpos] at hcomplete
  have hmin : min (payload (pos + 1)).toNat (length - (pos + 2)) = (payload (pos + 1)).toNat := by
    omega
  rw [fieldAt_value, hmin]
  rfl

theorem length_eq_iff {n : UInt8}
    : (fieldAt payload length pos).length = n ↔ (payload (pos + 1)).toNat = n.toNat := by
  rw [UInt8.toNat_inj]
  rfl

theorem header_inside_iff (hpos : pos + 1 < length) (accesses : List Access)
    : (∀ access ∈ .read pos :: .read (pos + 1) :: accesses, access.Inside payload length) ↔
        ∀ access ∈ accesses, access.Inside payload length := by
  rw [List.forall_mem_cons, List.forall_mem_cons]
  have hread : (Access.read pos).Inside payload length := by
    show pos < length
    omega
  have hread' : (Access.read (pos + 1)).Inside payload length := hpos
  simp only [hread, hread', true_and]

-- A value of one byte that is read when the field has that length
theorem byte_inside_iff (hpos : pos + 1 < length) {accesses : List Access}
    (h : (payload (pos + 1)).toNat = 1 → ((∀ access ∈ accesses, access.Inside payload length) ↔
      pos + 2 < length))
    (hother : (payload (pos + 1)).toNat ≠ 1 → accesses = [])
    : (∀ access ∈ accesses, access.Inside payload length) ↔
        ((fieldAt payload length pos).length = 1 → (fieldAt payload length pos).Complete) := by
  have hone : (1 : UInt8).toNat = 1 := rfl
  rw [length_eq_iff, hone, complete_iff hpos]
  by_cases hlength : (payload (pos + 1)).toNat = 1
  . rw [h hlength, hlength, eq_self_iff_true, true_implies]
    omega
  . rw [hother hlength]
    simp [hlength]

theorem newMac_inside_iff (hpos : pos + 1 < length) (hlength : (payload (pos + 1)).toNat = 8)
    : (∀ access ∈ Access.read (pos + 2) :: (List.range 6).map fun i => .read (pos + 2 + 2 + i),
        access.Inside payload length) ↔ (fieldAt payload length pos).Complete := by
  rw [complete_iff hpos, hlength, List.forall_mem_cons]
  simp only [List.forall_mem_map, List.mem_range]
  show (pos + 2 < length ∧ ∀ i < 6, pos + 2 + 2 + i < length) ↔ _
  constructor
  . rintro ⟨_, hbase⟩
    have hlast := hbase 5 (by omega)
    omega
  . intro hcomplete
    exact ⟨by omega, fun i hi => by omega⟩

theorem legacyMac_inside_iff (etherAtonR : EtherAtonR) (payload : Nat → UInt8) (hpos : pos + 1 < length) (n : Fin 4)
    : (∀ access ∈ [Access.string (pos + 2) (payload (pos + 1)).toNat,
          .valid (.legacyMac n) (pos + 2) (payload (pos + 1)).toNat
            (etherAtonR (fieldText payload (pos + 2) (payload (pos + 1)).toNat)).isSome],
        access.Inside payload length) ↔
        (fieldAt payload length pos).Complete ∧ 0 ∈ (fieldAt payload length pos).value ∧
          (etherAtonR ((fieldAt payload length pos).value.takeWhile (· ≠ 0))).isSome := by
  rw [List.forall_mem_cons, List.forall_mem_singleton, string_inside_iff]
  constructor
  . rintro ⟨hstring, hend, hfilled⟩
    have hcomplete := (complete_iff hpos).mpr hend
    rw [text_eq hpos hcomplete] at hfilled
    exact ⟨hcomplete, hstring, hfilled⟩
  . rintro ⟨hcomplete, hstring, hfilled⟩
    rw [text_eq hpos hcomplete]
    exact ⟨hstring, (complete_iff hpos).mp hcomplete, hfilled⟩

-- The accesses to a field stay inside exactly when the field can be parsed
theorem parseField_inside_iff (etherAtonR : EtherAtonR) (hpos : pos + 1 < length) (info : CardInfo)
    : (∀ access ∈ (parseField etherAtonR payload pos info).2.2, access.Inside payload length) ↔
        FieldOk etherAtonR (fieldAt payload length pos) := by
  have hkey : Key.ofByte (fieldAt payload length pos).key = Key.ofByte (payload pos) := rfl
  unfold parseField FieldOk
  rw [hkey]
  simp only [header_inside_iff hpos]
  cases Key.ofByte (payload pos) with
  | CARD_SN | CARD_REV | CARD_NAME | SAT_VERSION =>
    simp only [List.forall_mem_singleton]
    exact string_inside_iff
  | TOTAL_POWER_AVAIL | FAN_PRESENCE | CONFIG_MODE =>
    apply byte_inside_iff hpos
    . intro hlength
      simp only [hlength, ne_eq, not_true_eq_false, if_false, List.forall_mem_singleton]
      rfl
    . intro hlength
      simp only [ne_eq, hlength, not_false_eq_true, if_true]
  | CAGE_TYPE n =>
    apply byte_inside_iff hpos
    . intro hlength
      simp only [hlength, ne_eq, not_true_eq_false, if_false, List.forall_mem_cons,
        List.not_mem_nil, false_implies, implies_true, and_true]
      show (pos + 2 < length ∧ pos + 2 + 1 ≤ length ∧ true = true) ↔ _
      constructor
      . intro h
        exact h.1
      . intro h
        exact ⟨h, h, rfl⟩
    . intro hlength
      simp only [ne_eq, hlength, not_false_eq_true, if_true]
  | MAC_ADDRESS n =>
    have hlen : (18 : UInt8).toNat = 18 := rfl
    simp only [length_eq_iff, hlen]
    by_cases hlength : (payload (pos + 1)).toNat = 18
    . have hmac := legacyMac_inside_iff etherAtonR payload hpos n
      rw [hlength] at hmac
      simp only [hlength, ne_eq, not_true_eq_false, if_false, true_implies]
      exact hmac
    . simp [hlength]
  | NEW_MAC_SCHEME =>
    have hlen : (8 : UInt8).toNat = 8 := rfl
    simp only [length_eq_iff, hlen]
    by_cases hlength : (payload (pos + 1)).toNat = 8
    . simp only [hlength, ne_eq, not_true_eq_false, if_false, true_implies]
      exact newMac_inside_iff hpos hlength
    . simp [hlength]
  | other => simp

end Field

section Logged

variable {info info' : CardInfo} {accesses accesses' : List Access}

theorem getLsbD_validMask (mask : BitVec 32) (n m : Fin 4)
    : (mask ||| validMask n).getLsbD m = (mask.getLsbD m || decide (m = n)) := by
  rw [BitVec.getLsbD_or]
  congr 1
  revert n m
  decide

def CardInfo.strings (info : CardInfo) : List (Option Nat) :=
  [info.name, info.serialNumber, info.revision, info.scVersion]

-- What is new in the information is in the new accesses
theorem CardInfo.Logged.step (h : info.Logged accesses)
    (hstrings : ∀ start, some start ∈ info'.strings → some start ∈ info.strings ∨
      ∃ n, .string start n ∈ accesses')
    (hlegacy : ∀ n : Fin 4, info'.legacyValidMask.getLsbD n → info.legacyValidMask.getLsbD n ∨
      ∃ start length filled, .valid (.legacyMac n) start length filled ∈ accesses')
    (hcage : ∀ n : Fin 4, info'.cageValidMask.getLsbD n → info.cageValidMask.getLsbD n ∨
      ∃ start length filled, .valid (.cage n) start length filled ∈ accesses')
    : info'.Logged (accesses ++ accesses') := by
  constructor
  . intro start hmem
    rcases hstrings start hmem with hold | ⟨n, hnew⟩
    . obtain ⟨n, hn⟩ := h.strings start hold
      exact ⟨n, List.mem_append_left _ hn⟩
    . exact ⟨n, List.mem_append_right _ hnew⟩
  . intro n hvalid
    rcases hlegacy n hvalid with hold | ⟨start, length, filled, hnew⟩
    . obtain ⟨start, length, filled, hmem⟩ := h.legacyMacs n hold
      exact ⟨start, length, filled, List.mem_append_left _ hmem⟩
    . exact ⟨start, length, filled, List.mem_append_right _ hnew⟩
  . intro n hvalid
    rcases hcage n hvalid with hold | ⟨start, length, filled, hnew⟩
    . obtain ⟨start, length, filled, hmem⟩ := h.cages n hold
      exact ⟨start, length, filled, List.mem_append_left _ hmem⟩
    . exact ⟨start, length, filled, List.mem_append_right _ hnew⟩

-- Neither a string nor a valid entry is new
theorem CardInfo.Logged.keep (h : info.Logged accesses) (hstrings : info'.strings = info.strings)
    (hlegacy : info'.legacyValidMask = info.legacyValidMask)
    (hcage : info'.cageValidMask = info.cageValidMask)
    : info'.Logged (accesses ++ accesses') := by
  apply h.step
  . intro start hmem
    exact .inl (hstrings ▸ hmem)
  . intro n hvalid
    exact .inl (hlegacy ▸ hvalid)
  . intro n hvalid
    exact .inl (hcage ▸ hvalid)

theorem parseField_logged (etherAtonR : EtherAtonR) (payload : Nat → UInt8) (pos : Nat)
    (h : info.Logged accesses)
    : (parseField etherAtonR payload pos info).2.1.Logged
        (accesses ++ (parseField etherAtonR payload pos info).2.2) := by
  unfold parseField
  cases hkey : Key.ofByte (payload pos) with
  | CARD_SN | CARD_REV | CARD_NAME | SAT_VERSION =>
    apply h.step
    . intro start
      simp only [CardInfo.strings, List.mem_cons, Option.some.injEq, List.not_mem_nil, or_false]
      rintro (hmem | hmem | hmem | hmem) <;> simp [hmem]
    . exact fun n hvalid => .inl hvalid
    . exact fun n hvalid => .inl hvalid
  | TOTAL_POWER_AVAIL =>
    simp only
    split
    . exact h.keep rfl rfl rfl
    . split <;> exact h.keep rfl rfl rfl
  | FAN_PRESENCE | CONFIG_MODE | NEW_MAC_SCHEME =>
    simp only
    split <;> exact h.keep rfl rfl rfl
  | CAGE_TYPE n =>
    simp only
    split
    . exact h.keep rfl rfl rfl
    . apply h.step
      . exact fun start hmem => .inl hmem
      . exact fun m hvalid => .inl hvalid
      . intro m hvalid
        simp only [getLsbD_validMask, Bool.or_eq_true, decide_eq_true_eq] at hvalid
        rcases hvalid with hold | rfl
        . exact .inl hold
        . exact .inr ⟨_, _, _, List.mem_cons_of_mem _ (List.mem_cons_of_mem _
            (List.mem_cons_of_mem _ List.mem_cons_self))⟩
  | MAC_ADDRESS n =>
    simp only
    split
    . exact h.keep rfl rfl rfl
    . apply h.step
      . exact fun start hmem => .inl hmem
      . intro m hvalid
        simp only [getLsbD_validMask, Bool.or_eq_true, decide_eq_true_eq] at hvalid
        rcases hvalid with hold | rfl
        . exact .inl hold
        . exact .inr ⟨_, _, _, List.mem_cons_of_mem _ (List.mem_cons_of_mem _
            (List.mem_cons_of_mem _ List.mem_cons_self))⟩
      . exact fun m hvalid => .inl hvalid
  | other => exact h.keep rfl rfl rfl

theorem zero_logged : CardInfo.zero.Logged [] := by
  constructor
  . simp [CardInfo.zero]
  . simp [CardInfo.zero]
  . simp [CardInfo.zero]

end Logged

section Loop

variable {etherAtonR : EtherAtonR} {payload : Nat → UInt8} {length : Nat}

theorem segment_cons_cons {pos : Nat} (hpos : pos + 1 < length)
    : segment payload pos (length - pos) =
        payload pos :: payload (pos + 1) :: segment payload (pos + 2) (length - (pos + 2)) := by
  have hn : length - pos = length - (pos + 2) + 1 + 1 := by omega
  rw [hn, segment_succ, segment_succ]

theorem parseLoop_logged {fuel pos : Nat} {info info' : CardInfo} {accesses rest : List Access}
    (h : info.Logged accesses)
    (hloop : parseLoop etherAtonR payload length fuel pos info = some (info', rest))
    : info'.Logged (accesses ++ rest) := by
  induction fuel generalizing pos info accesses rest with
  | zero =>
    unfold parseLoop at hloop
    split at hloop
    . contradiction
    . cases hloop
      rw [List.append_nil]
      exact h
  | succ fuel ih =>
    rw [parseLoop] at hloop
    split at hloop
    . obtain ⟨⟨info₁, rest₁⟩, hnext, hloop⟩ := Option.bind_eq_some_iff.mp hloop
      cases hloop
      rw [← List.append_assoc]
      exact ih (parseField_logged etherAtonR payload pos h) hnext
    . cases hloop
      rw [List.append_nil]
      exact h

theorem parseField_size (etherAtonR : EtherAtonR) (payload : Nat → UInt8) (pos : Nat)
    (info : CardInfo)
    : (parseField etherAtonR payload pos info).1 = 2 + (payload (pos + 1)).toNat := rfl

-- Each field takes two bytes at least
theorem parseLoop_spec (etherAtonR : EtherAtonR) (payload : Nat → UInt8) {fuel pos : Nat}
    (hfuel : length ≤ pos + 2 * fuel) (info : CardInfo)
    : ∃ info' accesses, parseLoop etherAtonR payload length fuel pos info =
          some (info', accesses) ∧
        ((∀ access ∈ accesses, access.Inside payload length) ↔
          Tlv.All (FieldOk etherAtonR) (segment payload pos (length - pos))) := by
  induction fuel generalizing pos info with
  | zero =>
    have hn : length - pos = 0 := by omega
    refine ⟨info, [], ?_, ?_⟩
    . unfold parseLoop
      rw [if_neg (by omega)]
    . rw [hn]
      simp only [List.not_mem_nil, false_implies, implies_true, true_iff]
      exact Tlv.all_nil
  | succ fuel ih =>
    by_cases hlt : pos < length
    . have hfuel' : length ≤ pos + (parseField etherAtonR payload pos info).1 + 2 * fuel := by
        rw [parseField_size]
        omega
      obtain ⟨info', rest, hloop, hrest⟩ := ih hfuel' (parseField etherAtonR payload pos info).2.1
      refine ⟨info', (parseField etherAtonR payload pos info).2.2 ++ rest, ?_, ?_⟩
      . rw [parseLoop, if_pos hlt]
        simp only [hloop, Option.bind_eq_bind, Option.bind_some]
      . rw [List.forall_mem_append, hrest]
        by_cases hpos : pos + 1 < length
        . rw [parseField_inside_iff etherAtonR hpos, segment_cons_cons hpos, Tlv.all_cons_iff,
            drop_segment, parseField_size]
          have hstart : pos + (2 + (payload (pos + 1)).toNat) =
              pos + 2 + (payload (pos + 1)).toNat := by omega
          have hn : length - (pos + 2) - (payload (pos + 1)).toNat =
              length - (pos + 2 + (payload (pos + 1)).toNat) := by omega
          rw [hstart, hn]
          rfl
        . -- The header is cut short
          have hn : length - pos = 0 + 1 := by omega
          rw [hn, segment_succ]
          constructor
          . rintro ⟨hinside, _⟩
            have hread : (Access.read (pos + 1)).Inside payload length := by
              apply hinside
              exact List.mem_cons_of_mem _ List.mem_cons_self
            exact absurd hread hpos
          . intro h
            exact absurd h (Tlv.not_all_single _)
    . have hn : length - pos = 0 := by omega
      refine ⟨info, [], ?_, ?_⟩
      . rw [parseLoop, if_neg hlt]
      . rw [hn]
        simp only [List.not_mem_nil, false_implies, implies_true, true_iff]
        exact Tlv.all_nil

end Loop

theorem copiedPayload_message (mailbox : Mailbox) (heap : Nat → UInt8)
    : segment (copiedPayload mailbox heap) 0 mailbox.length.toNat = mailbox.message := by
  unfold Mailbox.message segment
  apply List.map_congr_left
  intro i hi
  have hi : i < mailbox.length.toNat := List.mem_range.mp hi
  unfold copiedPayload
  rw [Nat.zero_add, if_pos (by omega)]

-- The parser ends for every message. It stays inside the message, and what it marks or points to is
-- whole, exactly when each field that it uses is.
theorem cmsCardInfoParse_inside_iff (etherAtonR : EtherAtonR) (calloc : Bool) (heap : Nat → UInt8)
    (mailbox : Mailbox) (fuel : Nat)
    : ∃ info accesses,
        cmsCardInfoParse etherAtonR calloc heap mailbox (fuel + 2048) = some (info, accesses) ∧
        (∀ info', info = some info' → info'.Logged accesses) ∧
        ((∀ access ∈ accesses,
            access.Inside (copiedPayload mailbox heap) mailbox.length.toNat) ↔
          calloc = false ∨ Tlv.All (FieldOk etherAtonR) mailbox.message) := by
  unfold cmsCardInfoParse
  cases calloc with
  | false => exact ⟨none, [], rfl, by simp, by simp⟩
  | true =>
    have hlt : mailbox.length.toNat < 2 ^ 12 := mailbox.length.isLt
    obtain ⟨info, accesses, hloop, hinside⟩ := parseLoop_spec etherAtonR
      (copiedPayload mailbox heap) (show mailbox.length.toNat ≤ 0 + 2 * (fuel + 2048) by omega)
      CardInfo.zero
    refine ⟨some info, accesses, ?_, ?_, ?_⟩
    . simp [hloop]
    . rintro _ ⟨⟩
      exact parseLoop_logged zero_logged hloop
    . rw [hinside, Nat.sub_zero, copiedPayload_message]
      simp

-- The message of one field that says that it has one byte and has none
def cutMailbox : Mailbox :=
  { length := 2, payload := fun _ => 0x0150 }

-- The message of a serial number that has no terminator
def endlessMailbox : Mailbox :=
  { length := 4, payload := fun _ => 0x41410221 }

-- The type of a cage that is not in the message is taken from the byte after it, and a string is
-- pointed to that does not end in its field
theorem cutMailbox_not_inside
    : (∃ info accesses, cmsCardInfoParse (fun _ => none) true (fun _ => 0) cutMailbox 2048 =
          some (some info, accesses) ∧
        info.cageValidMask = 1 ∧ .read 2 ∈ accesses ∧
        ¬ ∀ access ∈ accesses, access.Inside (copiedPayload cutMailbox fun _ => 0)
          cutMailbox.length.toNat) ∧
      ∃ info accesses, cmsCardInfoParse (fun _ => none) true (fun _ => 0) endlessMailbox 2048 =
          some (some info, accesses) ∧
        info.serialNumber = some 2 ∧ .string 2 2 ∈ accesses ∧
        ¬ ∀ access ∈ accesses, access.Inside (copiedPayload endlessMailbox fun _ => 0)
          endlessMailbox.length.toNat := by
  constructor
  . refine ⟨_, _, rfl, by decide, by decide, ?_⟩
    intro hinside
    have hread : (Access.read 2).Inside (copiedPayload cutMailbox fun _ => 0) 2 :=
      hinside (.read 2) (by decide)
    exact absurd hread (by unfold Access.Inside; decide)
  . refine ⟨_, _, rfl, by decide, by decide, ?_⟩
    intro hinside
    obtain ⟨i, hi, _, hzero⟩ := hinside (.string 2 2) (by decide)
    have hbytes : ∀ i < 2, copiedPayload endlessMailbox (fun _ => 0) (2 + i) ≠ 0 := by decide
    exact hbytes i hi hzero

end CmsCardInfo
