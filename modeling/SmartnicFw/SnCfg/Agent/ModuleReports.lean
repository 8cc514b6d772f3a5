import SmartnicFw.SnCfg.Agent.ModuleInfo
import SmartnicFw.SnCfg.Agent.ModuleMemWrite

/-!
This module contains when the responses to a request about modules report what is so: which step was
the first to fail for a module, or what was asked for.
-/

namespace SnCfg

-- What the signals of a module say about its presence
def modulePresent (cms : Cms) (modId time : Nat) : Except ErrorCode Unit :=
  match cmsModuleGpioRead cms time (UInt8.ofNat modId) with
  | none => .error .EC_MODULE_GPIO_READ_FAILED
  | some gpio =>
    if gpio.present ∧ ¬ gpio.reset then .ok () else .error .EC_MODULE_NOT_PRESENT

-- A step that can only fail with one error code, and what is asked for if it does not
def needing {α : Type} (ok : Bool) (err : ErrorCode) (content : Option α → Prop)
    : Except ErrorCode (Option α → Prop) :=
  if ok then .ok content else .error err

section Check

variable {cms : Cms} {modId time devId : Nat} {isRange : Bool} {α : Type}

theorem cagePresence_eq (cms : Cms) (modId time : Nat)
    : cagePresence cms modId time = modulePresent cms modId time := by
  unfold cagePresence modulePresent cmsModuleGpioRead
  rw [setWidth_ofNat]
  cases cms.post time (.readModuleLowSpeedIo (BitVec.ofNat 2 modId)) with
  | none => rfl
  | some mailbox =>
    simp only [Option.bind_eq_bind, Option.bind_some]
    cases (mailbox 2).toNat.testBit 0 <;> cases (mailbox 2).toNat.testBit 3 <;> rfl

theorem checkModulePresent_eq (cms : Cms) (modId time : Nat)
    : checkModulePresent cms time modId = presenceCode (modulePresent cms modId time) := by
  rw [checkModulePresent_eq_cage, cagePresence_eq]

theorem modulePresent_error {err : ErrorCode} (h : modulePresent cms modId time = .error err)
    : (err = .EC_MODULE_GPIO_READ_FAILED ∧
          cmsModuleGpioRead cms time (UInt8.ofNat modId) = none) ∨
        (err = .EC_MODULE_NOT_PRESENT ∧
          cmsModuleGpioRead cms time (UInt8.ofNat modId) ≠ none) := by
  unfold modulePresent at h
  split at h
  . next hnone =>
    cases h
    exact .inl ⟨rfl, hnone⟩
  . next gpio hsome =>
    split at h
    . contradiction
    . cases h
      exact .inr ⟨rfl, by simp [hsome]⟩

-- The handlers that put the error code of the check into the response report it, except for a range
-- in which the signals of the module cannot be read
theorem reports_iff_of_check {resp : Option (ModuleResponse α)}
    {found : Except ErrorCode (Option α → Prop)} {p : Prop}
    (hok : modulePresent cms modId time = .ok () →
      (Reports isRange devId modId found resp.toList ↔ p))
    (herr : ∀ err, modulePresent cms modId time = .error err →
      resp = if isRange then none else some ⟨err, devId, modId, none⟩)
    : Reports isRange devId modId (modulePresent cms modId time >>= fun _ => found) resp.toList ↔
        (isRange = true → cmsModuleGpioRead cms time (UInt8.ofNat modId) ≠ none) ∧
          (modulePresent cms modId time = .ok () → p) := by
  cases hpresent : modulePresent cms modId time with
  | ok _ =>
    have hgpio : cmsModuleGpioRead cms time (UInt8.ofNat modId) ≠ none := by
      intro hnone
      simp [modulePresent, hnone] at hpresent
    rw [show (Except.ok () >>= fun _ => found) = found from rfl, hok hpresent]
    simp [hgpio]
  | error err =>
    rw [herr err hpresent]
    rcases modulePresent_error hpresent with ⟨rfl, hgpio⟩ | ⟨rfl, hgpio⟩
    . cases isRange <;> simp [Reports, bind, Except.bind, hgpio]
    . cases isRange <;> simp [Reports, bind, Except.bind, hgpio]

theorem skip_of_check {resp : Option (ModuleResponse α)} {ok : Bool} {err : ErrorCode}
    {content : Option α → Prop} (hne : err ≠ .EC_MODULE_NOT_PRESENT)
    (herr : ∀ err, modulePresent cms modId time = .error err →
      resp = if isRange then none else some ⟨err, devId, modId, none⟩) (hresp : resp ≠ none)
    : (modulePresent cms modId time >>= fun _ => needing ok err content) ≠
          .error .EC_MODULE_NOT_PRESENT ∨ isRange = false := by
  cases hpresent : modulePresent cms modId time with
  | ok _ =>
    left
    show needing ok err content ≠ _
    unfold needing
    cases ok <;> simp [hne]
  | error err' =>
    right
    rw [herr err' hpresent] at hresp
    cases isRange <;> simp_all

end Check

section Info

variable {Info : Type} (moduleInfo : ModulePages → Info) {cms : Cms} {modId time : Nat}

-- Does the module itself say that it has the optional page?
def CmsModule.hasPage02 (module : CmsModule) : Bool :=
  !((module.pageByte false 0 2).getD 0).toNat.testBit 2 &&
    ((module.pageByte true 0 (195 - cmsModulePageSize)).getD 0).toNat.testBit 7

structure ModulePages.Of (pages : ModulePages) (module : CmsModule) : Prop where
  lower : ∀ i < cmsModulePageSize, pages.lower.u8 i = module.pageByte false 0 i
  upper00 : ∀ i < cmsModulePageSize, pages.upper00.u8 i = module.pageByte true 0 i
  upper02 : pages.upper02.isSome = CmsModule.hasPage02 module
  upper02_u8 : ∀ page ∈ pages.upper02, ∀ i < cmsModulePageSize,
    page.u8 i = module.pageByte true 2 i

def infoPageId (modId : Nat) (upper : Bool) (page : UInt8) : CmsModuleId :=
  { cage := UInt8.ofNat modId, page, upper, cmis := false, bank := 0, sfpDiag := false }

def moduleOf (cms : Cms) (modId : Nat) : CmsModule := cms.modules (BitVec.ofNat 2 modId)

-- Are all pages read that the module has?
def infoPagesRead (cms : Cms) (modId time : Nat) : Bool :=
  (cmsModulePageRead cms time (infoPageId modId false 0)).isSome &&
    (cmsModulePageRead cms (time + 1) (infoPageId modId true 0)).isSome &&
    (!CmsModule.hasPage02 (moduleOf cms modId) ||
      (cmsModulePageRead cms (time + 2) (infoPageId modId true 2)).isSome)

def infoFound (_ : Nat) (dev : Device) (modId time : Nat)
    : Except ErrorCode (Option Info → Prop) := do
  modulePresent dev.cms modId time
  needing (infoPagesRead dev.cms modId (time + 1)) .EC_MODULE_PAGE_READ_FAILED fun content =>
    ∃ pages : ModulePages, pages.Of (moduleOf dev.cms modId) ∧ content = some (moduleInfo pages)

theorem pageRead_u8 {upper : Bool} {number : UInt8} {page : CmsModulePage}
    (h : cmsModulePageRead cms time (infoPageId modId upper number) = some page)
    : ∀ i < cmsModulePageSize, page.u8 i = (moduleOf cms modId).pageByte upper number i := by
  intro i hi
  have hread := cmsModulePageRead_u8 h rfl rfl hi
  unfold CmsModuleId.module infoPageId at hread
  rw [setWidth_ofNat] at hread
  exact hread

theorem modulePages_spec (cms : Cms) (modId time : Nat)
    : (infoPagesRead cms modId time = false ∧ (modulePages cms modId time).1 = none) ∨
        (infoPagesRead cms modId time = true ∧ ∃ pages, (modulePages cms modId time).1 = some pages ∧
          pages.Of (moduleOf cms modId)) := by
  unfold infoPagesRead modulePages
  cases hlower : cmsModulePageRead cms time (infoPageId modId false 0) with
  | none =>
    unfold infoPageId at hlower
    simp [hlower]
  | some lower =>
    cases hupper : cmsModulePageRead cms (time + 1) (infoPageId modId true 0) with
    | none =>
      unfold infoPageId at hlower hupper
      simp [hlower, hupper]
    | some upper00 =>
      have hlower' := pageRead_u8 hlower
      have hupper' := pageRead_u8 hupper
      have hpage02 : (!flatMem lower && hasPage02 upper00) =
          CmsModule.hasPage02 (moduleOf cms modId) := by
        unfold flatMem hasPage02 CmsModule.hasPage02
        rw [hlower' 2 (by decide), hupper' _ (by decide)]
      unfold infoPageId at hlower hupper
      simp only [hlower, hupper, hpage02]
      cases hhas : CmsModule.hasPage02 (moduleOf cms modId) with
      | false =>
        right
        refine ⟨by simp, _, rfl, ?_⟩
        exact ⟨hlower', hupper', by simp [hhas], by simp⟩
      | true =>
        cases hpage : cmsModulePageRead cms (time + 2) (infoPageId modId true 2) with
        | none =>
          unfold infoPageId at hpage
          simp [hpage]
        | some page =>
          have hpage' := pageRead_u8 hpage
          unfold infoPageId at hpage
          right
          simp only [hpage, if_true]
          refine ⟨by simp, _, rfl, hlower', hupper', by simp [hhas], ?_⟩
          intro p hp
          cases hp
          exact hpage'

theorem moduleInfoResponse_error {isRange : Bool} {devId : Nat} {dev : Device} {err : ErrorCode}
    (h : modulePresent dev.cms modId time = .error err)
    : (moduleInfoResponse moduleInfo isRange devId dev modId time).1 =
        if isRange then none else some ⟨err, devId, modId, none⟩ := by
  unfold moduleInfoResponse
  rw [checkModulePresent_eq, h]
  unfold presenceCode
  rcases modulePresent_error h with ⟨rfl, -⟩ | ⟨rfl, -⟩ <;> rfl

theorem moduleInfoResponse_reports_iff (isRange : Bool) (devId : Nat) (dev : Device)
    (modId time : Nat)
    : Reports isRange devId modId (infoFound moduleInfo devId dev modId time)
          (moduleInfoResponse moduleInfo isRange devId dev modId time).1.toList ↔
        (isRange = true → cmsModuleGpioRead dev.cms time (UInt8.ofNat modId) ≠ none) := by
  unfold infoFound
  rw [reports_iff_of_check (p := True) _ fun err h => moduleInfoResponse_error moduleInfo h]
  . simp
  . intro hpresent
    unfold moduleInfoResponse
    rw [checkModulePresent_eq, hpresent]
    unfold presenceCode
    simp only [iff_true]
    rcases modulePages_spec dev.cms modId (time + 1) with ⟨hread, hpages⟩ | ⟨hread, pages, hpages, hof⟩
    . rw [hread]
      split
      . simp [needing, Reports]
      . simp_all
    . rw [hread]
      split
      . simp_all
      . next pages' _ heq =>
        rw [heq] at hpages
        cases hpages
        exact ⟨_, ⟨pages, hof, rfl⟩, rfl⟩

end Info

section Status

variable {F64 : Type} {modId time : Nat}

-- The alarms and monitors among the metrics of a module, in their order
def moduleStatus (metrics : List (ModuleMetric F64)) : ModuleStatus F64 :=
  { alarms := (metrics.filter cmsModuleStatsIsAlarmMetric).map fun metric =>
      ⟨metric.name, decide (metric.u64 ≠ 0)⟩
    monitors := (metrics.filter cmsModuleStatsIsMonitorMetric).map fun metric =>
      ⟨metric.name, metric.f64⟩ }

def statusFound (_ : Nat) (dev : MonitoredDevice F64) (modId time : Nat)
    : Except ErrorCode (Option (ModuleStatus F64) → Prop) := do
  modulePresent dev.device.cms modId time
  .ok fun content => content = some (moduleStatus (dev.zones.getD modId []))

theorem foldl_getModuleStats (metrics : List (ModuleMetric F64)) (status : ModuleStatus F64)
    : metrics.foldl getModuleStats status =
        { alarms := status.alarms ++ (moduleStatus metrics).alarms
          monitors := status.monitors ++ (moduleStatus metrics).monitors } := by
  induction metrics generalizing status with
  | nil => simp [moduleStatus]
  | cons metric metrics ih =>
    rw [List.foldl_cons, ih]
    unfold getModuleStats moduleStatus cmsModuleStatsIsAlarmMetric cmsModuleStatsIsMonitorMetric
    cases htype : metric.type <;> simp [htype]

-- A module by itself that is not found to be present is not reported
theorem moduleStatusResponse_reports_iff (isRange : Bool) (devId : Nat) (dev : MonitoredDevice F64)
    (modId time : Nat)
    : Reports isRange devId modId (statusFound devId dev modId time)
          (moduleStatusResponse isRange devId dev modId time).1.toList ↔
        (isRange = true → cmsModuleGpioRead dev.device.cms time (UInt8.ofNat modId) ≠ none) ∧
          (isRange = false → modulePresent dev.device.cms modId time = .ok ()) := by
  unfold statusFound moduleStatusResponse
  rw [checkModulePresent_eq]
  unfold presenceCode
  cases hpresent : modulePresent dev.device.cms modId time with
  | ok _ =>
    have hgpio : cmsModuleGpioRead dev.device.cms time (UInt8.ofNat modId) ≠ none := by
      intro hnone
      simp [modulePresent, hnone] at hpresent
    simp [Reports, bind, Except.bind, hgpio, foldl_getModuleStats]
  | error err =>
    rcases modulePresent_error hpresent with ⟨rfl, hgpio⟩ | ⟨rfl, hgpio⟩
    . cases isRange <;> simp [Reports, bind, Except.bind, hgpio]
    . cases isRange <;> simp [Reports, bind, Except.bind, hgpio]

theorem moduleStatusResponse_skip {isRange : Bool} {devId : Nat} {dev : MonitoredDevice F64}
    (h : (moduleStatusResponse isRange devId dev modId time).1 ≠ none)
    : statusFound devId dev modId time ≠ .error .EC_MODULE_NOT_PRESENT ∨ isRange = false := by
  unfold statusFound
  unfold moduleStatusResponse at h
  rw [checkModulePresent_eq] at h
  unfold presenceCode at h
  cases hpresent : modulePresent dev.device.cms modId time with
  | ok _ =>
    left
    simp [bind, Except.bind]
  | error err =>
    right
    rw [hpresent] at h
    rcases modulePresent_error hpresent with ⟨rfl, -⟩ | ⟨rfl, -⟩ <;> cases isRange <;> simp_all

end Status

end SnCfg
