import Orchestrator.Numbers.Decimal

/-!
# Recovery targets

The grammar of the target ids of a recovery step, `rr_case:`, `rr_lead:`, `rr_template:` and
`rr_note:`, and the binder that writes them. Texts are lists of characters.

* `parseRecoveryOutreachTargets`, `parseRecoveryTemplateTargetValue`: the parser;
* `formatRecoveryCaseTarget`, `formatRecoveryLeadTarget`, `formatRecoveryTemplateTarget`: how
  targets are written;
* `mergeOutreachTargets`, `mergeCallbackTargets`: the targets of a step, from a canonical binding
  and what the model proposed.
-/

namespace Orchestrator

open Numbers

abbrev Text := List Char

namespace RecoveryTargetPrefix

/-! ## Prefixes -/

def case : Text := "rr_case:".toList

def lead : Text := "rr_lead:".toList

def template : Text := "rr_template:".toList

def note : Text := "rr_note:".toList

end RecoveryTargetPrefix

/-- The value of the first target with a prefix: `find(startsWith)?.slice(length)`. -/
def targetValue (pre : Text) (targetIds : List Text) : Option Text :=
  (targetIds.find? fun t => pre.isPrefixOf t).map fun t => t.drop pre.length

/-! ## The parser -/

inductive RecoveryTargetParseFailureCode where
  | recoveryTargetsMissing
  | recoveryTemplateMalformed
  | recoveryTemplateRequired
  | recoveryTemplateVersionInvalid
  deriving DecidableEq, Repr

/-- The details of a failure: the targets, or the value of the template. -/
inductive RecoveryTargetDetails where
  | targetIds (targetIds : List Text)
  | templateRaw (templateRaw : Text)
  deriving DecidableEq

structure RecoveryTargetFailure where
  code : RecoveryTargetParseFailureCode
  message : String
  details : RecoveryTargetDetails
  deriving DecidableEq

structure ParsedRecoveryOutreachTargets where
  recoveryCaseId : Text
  leadId : Text
  templateId : Option Text := none
  templateVersion : Option JsNumber := none
  note : Option Text := none
  deriving DecidableEq

/-- `lastIndexOf`, where there is such a character. -/
def lastIndexOf (c : Char) : Text → Option ℕ
  | [] => none
  | d :: cs =>
    match lastIndexOf c cs with
    | some i => some (i + 1)
    | none => if d = c then some 0 else none

/-- `number < 1`. -/
def lessThanOne : JsNumber → Bool
  | .nan => false
  | .infinity negative => negative
  | .finite negative x => negative || x.value < 1

/-- What follows `rr_template:`: `templateId@version`. -/
def parseRecoveryTemplateTargetValue (templateRaw : Text) :
    Except RecoveryTargetFailure (Text × JsNumber) :=
  let malformed : RecoveryTargetFailure :=
    ⟨.recoveryTemplateMalformed, "rr_template must be templateId@version",
      .templateRaw templateRaw⟩
  match lastIndexOf '@' templateRaw with
  | none => .error malformed
  | some 0 => .error malformed
  | some (i + 1) =>
    let templateVersion := stringToNumber (templateRaw.drop (i + 1 + 1))
    if !templateVersion.isInteger || lessThanOne templateVersion then
      .error ⟨.recoveryTemplateVersionInvalid, "Invalid recovery template version",
        .templateRaw templateRaw⟩
    else .ok (templateRaw.take (i + 1), templateVersion)

/-- A missing value, or an empty one. -/
def isFalsy (value : Option Text) : Bool := value.all (·.isEmpty)

def parseRecoveryOutreachTargets (targetIds : List Text) (requireTemplate : Bool := false) :
    Except RecoveryTargetFailure ParsedRecoveryOutreachTargets :=
  let caseId := targetValue RecoveryTargetPrefix.case targetIds
  let leadId := targetValue RecoveryTargetPrefix.lead targetIds
  let templateRaw := targetValue RecoveryTargetPrefix.template targetIds
  let note := targetValue RecoveryTargetPrefix.note targetIds
  if isFalsy caseId || isFalsy leadId then
    .error ⟨.recoveryTargetsMissing, "Recovery action requires rr_case: and rr_lead: targetIds",
      .targetIds targetIds⟩
  else if isFalsy templateRaw then
    if requireTemplate then
      .error ⟨.recoveryTemplateRequired,
        "Recovery outreach requires rr_template:templateId@version", .targetIds targetIds⟩
    else .ok { recoveryCaseId := caseId.getD [], leadId := leadId.getD [], note := note }
  else
    match parseRecoveryTemplateTargetValue (templateRaw.getD []) with
    | .error failure => .error failure
    | .ok (templateId, templateVersion) =>
      .ok {
        recoveryCaseId := caseId.getD []
        leadId := leadId.getD []
        templateId := some templateId
        templateVersion := some templateVersion
        note := note }

/-! ## Writing targets -/

def formatRecoveryCaseTarget (recoveryCaseId : Text) : Text :=
  RecoveryTargetPrefix.case ++ recoveryCaseId

def formatRecoveryLeadTarget (leadId : Text) : Text := RecoveryTargetPrefix.lead ++ leadId

def formatRecoveryTemplateTarget (templateId : Text) (templateVersion : JsNumber) : Text :=
  RecoveryTargetPrefix.template ++ (templateId ++ '@' :: templateVersion.text)

/-! ## The binder -/

structure CanonicalRecoveryTargetBinding where
  recoveryCaseId : Text
  leadId : Text
  templateId : Text
  templateVersion : JsNumber
  deriving DecidableEq

/-- The first note that the model proposed; its other targets are left out. -/
def permittedModelNote (modelTargets : List Text) : Option Text :=
  modelTargets.find? fun target => RecoveryTargetPrefix.note.isPrefixOf target

def mergeOutreachTargets (modelTargets : List Text) (binding : CanonicalRecoveryTargetBinding) :
    List Text :=
  [formatRecoveryCaseTarget binding.recoveryCaseId, formatRecoveryLeadTarget binding.leadId,
    formatRecoveryTemplateTarget binding.templateId binding.templateVersion] ++
  (permittedModelNote modelTargets).toList

def mergeCallbackTargets (modelTargets : List Text) (binding : CanonicalRecoveryTargetBinding) :
    List Text :=
  [formatRecoveryCaseTarget binding.recoveryCaseId, formatRecoveryLeadTarget binding.leadId] ++
  (permittedModelNote modelTargets).toList

/-! ## What the parser reads -/

theorem lastIndexOf_append {c : Char} {before after : Text} (h : c ∉ after) :
    lastIndexOf c (before ++ c :: after) = some before.length := by
  have hafter : lastIndexOf c after = none := by
    induction after with
    | nil => rfl
    | cons d after ih =>
      simp only [List.mem_cons, not_or] at h
      rw [lastIndexOf, ih h.2]
      simp only
      rw [if_neg (Ne.symm h.1)]
  induction before with
  | nil => simp [lastIndexOf, hafter]
  | cons d before ih => rw [List.cons_append, lastIndexOf, ih, List.length_cons]

theorem lastIndexOf_eq_none {c : Char} {cs : Text} (h : lastIndexOf c cs = none) : c ∉ cs := by
  induction cs with
  | nil => exact List.not_mem_nil
  | cons d cs ih =>
    unfold lastIndexOf at h
    split at h
    · cases h
    · next hnone =>
      split at h
      · cases h
      · next hne =>
        rw [List.mem_cons, not_or]
        exact ⟨Ne.symm hne, ih hnone⟩

/-- The text around the last such character. -/
theorem lastIndexOf_eq_some {c : Char} {cs : Text} {i : ℕ} (h : lastIndexOf c cs = some i) :
    cs = cs.take i ++ c :: cs.drop (i + 1) ∧ c ∉ cs.drop (i + 1) := by
  induction cs generalizing i with
  | nil => cases h
  | cons d cs ih =>
    unfold lastIndexOf at h
    split at h
    · next j hj =>
      cases h
      obtain ⟨hcs, hnot⟩ := ih hj
      exact ⟨by rw [List.take_succ_cons, List.cons_append, List.drop_succ_cons, ← hcs], hnot⟩
    · next hnone =>
      split at h
      · next hd =>
        cases h
        rw [hd]
        exact ⟨rfl, lastIndexOf_eq_none hnone⟩
      · cases h

theorem targetValue_cons_marked (pre value : Text) (targets : List Text) :
    targetValue pre ((pre ++ value) :: targets) = some value := by
  have hprefix : pre.isPrefixOf (pre ++ value) = true := by simp
  rw [targetValue, List.find?_cons_of_pos hprefix, Option.map_some, List.drop_left]

theorem targetValue_cons_unmarked {pre t : Text} (h : pre.isPrefixOf t = false)
    (targets : List Text) : targetValue pre (t :: targets) = targetValue pre targets := by
  rw [targetValue, targetValue, List.find?_cons_of_neg (by rw [h]; simp)]

/-- What is kept of the model's targets has no value for another prefix. -/
theorem targetValue_permittedModelNote {pre : Text} (modelTargets : List Text)
    (h : ∀ value, pre.isPrefixOf (RecoveryTargetPrefix.note ++ value) = false) :
    targetValue pre (permittedModelNote modelTargets).toList = none := by
  unfold permittedModelNote
  cases hfind : modelTargets.find? fun t => RecoveryTargetPrefix.note.isPrefixOf t with
  | none => rfl
  | some t =>
    have hnote := List.find?_some hfind
    obtain ⟨value, rfl⟩ := List.isPrefixOf_iff_prefix.mp hnote
    exact targetValue_cons_unmarked (h value) []

/-- The note that is kept is the model's first one. -/
theorem targetValue_note (modelTargets : List Text) :
    targetValue RecoveryTargetPrefix.note (permittedModelNote modelTargets).toList =
      targetValue RecoveryTargetPrefix.note modelTargets := by
  unfold permittedModelNote targetValue
  cases hfind : modelTargets.find? fun t => RecoveryTargetPrefix.note.isPrefixOf t with
  | none => rfl
  | some t =>
    have hnote := List.find?_some hfind
    rw [Option.toList_some, List.find?_cons_of_pos hnote]

end Orchestrator
