import Orchestrator.Recovery.TargetGrammar

/-!
# Recovery targets, there and back

The parser reads back exactly what the binder writes. A template target has more than one accepted
spelling, though: its version is read as the language reads any number.

* `RoundTrips`: the targets of a step give the binding back;
* `parse_mergeOutreachTargets`, `parse_mergeCallbackTargets`: they always do;
* `recovery_targets_canonical_iff`: a template target is accepted in one spelling only just when
  its version is written as a number is printed;
* `template_version_respelled`: `t@1e1` is accepted as version 10 of `t`.
-/

namespace Orchestrator

open Numbers

/-- A positive integer. -/
def IsVersion (version : JsNumber) : Prop :=
  version.isInteger = true ∧ lessThanOne version = false

instance (version : JsNumber) : Decidable (IsVersion version) :=
  inferInstanceAs (Decidable (_ ∧ _))

/-- A binding with its ids and a version. -/
structure CanonicalRecoveryTargetBinding.Canonical (binding : CanonicalRecoveryTargetBinding) :
    Prop where
  recoveryCaseId : binding.recoveryCaseId ≠ []
  leadId : binding.leadId ≠ []
  templateId : binding.templateId ≠ []
  templateVersion : IsVersion binding.templateVersion

/-! ## Versions as text -/

/-- A version is not zero, so its sign is read back as well. -/
theorem stringToNumber_version {version : JsNumber} (h : IsVersion version) :
    stringToNumber version.text = version := by
  rw [stringToNumber_text]
  cases version with
  | nan => rfl
  | infinity negative => rfl
  | finite negative x =>
    have hone := h.2
    simp only [lessThanOne, Bool.or_eq_false_iff] at hone
    rw [JsNumber.unsignedZero, hone.1, ite_self]

theorem at_not_mem_text {version : JsNumber} (h : IsVersion version) : '@' ∉ version.text := by
  cases version with
  | nan => exact absurd h.1 Bool.false_ne_true
  | infinity negative => exact absurd h.1 Bool.false_ne_true
  | finite negative x =>
    have hone := h.2
    simp only [lessThanOne, Bool.or_eq_false_iff] at hone
    rw [hone.1]
    unfold JsNumber.text
    simp only [Bool.false_eq_true, if_false, List.nil_append]
    intro hmem
    split at hmem
    · exact absurd hmem (by decide)
    · exact absurd (isNumeralChar_numeral _ _ '@' hmem) (by decide)

/-- The parser on the value of a template target. -/
theorem parseTemplate_append {before after : Text} (hbefore : before ≠ []) (hafter : '@' ∉ after) :
    parseRecoveryTemplateTargetValue (before ++ '@' :: after) =
      if IsVersion (stringToNumber after) then .ok (before, stringToNumber after)
      else .error ⟨.recoveryTemplateVersionInvalid, "Invalid recovery template version",
        .templateRaw (before ++ '@' :: after)⟩ := by
  obtain ⟨n, hn⟩ := Nat.exists_eq_succ_of_ne_zero (List.length_pos_of_ne_nil hbefore).ne'
  have htake : (before ++ '@' :: after).take (n + 1) = before := by
    rw [← Nat.succ_eq_add_one, ← hn, List.take_left]
  have hdrop : (before ++ '@' :: after).drop (n + 1 + 1) = after := by
    rw [← Nat.succ_eq_add_one n, ← hn, List.drop_append, List.drop_eq_nil_of_le (by omega)]
    simp
  unfold parseRecoveryTemplateTargetValue
  simp only [lastIndexOf_append hafter, hn, htake, hdrop, Nat.succ_eq_add_one]
  by_cases hversion : IsVersion (stringToNumber after)
  · rw [if_pos hversion, if_neg (by rw [hversion.1, hversion.2]; simp)]
  · rw [if_neg hversion, if_pos]
    by_contra hfalse
    rw [Bool.not_eq_true, Bool.or_eq_false_iff, Bool.not_eq_false'] at hfalse
    exact hversion hfalse

theorem parseTemplate_format {templateId : Text} {version : JsNumber} (hid : templateId ≠ [])
    (hversion : IsVersion version) :
    parseRecoveryTemplateTargetValue (templateId ++ '@' :: version.text) =
      .ok (templateId, version) := by
  rw [parseTemplate_append hid (at_not_mem_text hversion), stringToNumber_version hversion,
    if_pos hversion]

/-- What the parser accepts is a name, an `@` and a text that denotes a version. -/
theorem parseTemplate_ok {s : Text} {value : Text × JsNumber}
    (h : parseRecoveryTemplateTargetValue s = .ok value) :
    ∃ after, s = value.1 ++ '@' :: after ∧ value.1 ≠ [] ∧ '@' ∉ after ∧
      value.2 = stringToNumber after ∧ IsVersion value.2 := by
  have hindex : ∃ i, lastIndexOf '@' s = some (i + 1) := by
    unfold parseRecoveryTemplateTargetValue at h
    simp only at h
    split at h
    · cases h
    · cases h
    · next i hi => exact ⟨i, hi⟩
  obtain ⟨i, hi⟩ := hindex
  obtain ⟨hs, hnot⟩ := lastIndexOf_eq_some hi
  have hbefore : s.take (i + 1) ≠ [] := by
    intro hnil
    rw [List.take_eq_nil_iff] at hnil
    rcases hnil with h0 | rfl
    · omega
    · cases hi
  rw [hs, parseTemplate_append hbefore hnot] at h
  split at h
  · next hversion =>
    cases h
    exact ⟨_, hs, hbefore, hnot, rfl, hversion⟩
  · cases h

/-! ## The targets of a step -/

/-- The parser gives the binding back, for a message and for a callback. -/
structure RoundTrips (modelTargets : List Text) (binding : CanonicalRecoveryTargetBinding) :
    Prop where
  outreach : ∀ requireTemplate,
    parseRecoveryOutreachTargets (mergeOutreachTargets modelTargets binding) requireTemplate =
      .ok {
        recoveryCaseId := binding.recoveryCaseId
        leadId := binding.leadId
        templateId := some binding.templateId
        templateVersion := some binding.templateVersion
        note := targetValue RecoveryTargetPrefix.note modelTargets }
  callback : parseRecoveryOutreachTargets (mergeCallbackTargets modelTargets binding) =
    .ok {
      recoveryCaseId := binding.recoveryCaseId
      leadId := binding.leadId
      note := targetValue RecoveryTargetPrefix.note modelTargets }

theorem isFalsy_some {value : Text} (h : value ≠ []) : isFalsy (some value) = false := by
  rw [isFalsy, Option.all_some, List.isEmpty_eq_false_iff]
  exact h

/-- The targets of a step, each of its own kind. -/
theorem other_marks (value : Text) :
    RecoveryTargetPrefix.lead.isPrefixOf (RecoveryTargetPrefix.case ++ value) = false ∧
    RecoveryTargetPrefix.template.isPrefixOf (RecoveryTargetPrefix.case ++ value) = false ∧
    RecoveryTargetPrefix.template.isPrefixOf (RecoveryTargetPrefix.lead ++ value) = false ∧
    RecoveryTargetPrefix.template.isPrefixOf (RecoveryTargetPrefix.note ++ value) = false ∧
    RecoveryTargetPrefix.note.isPrefixOf (RecoveryTargetPrefix.case ++ value) = false ∧
    RecoveryTargetPrefix.note.isPrefixOf (RecoveryTargetPrefix.lead ++ value) = false ∧
    RecoveryTargetPrefix.note.isPrefixOf (RecoveryTargetPrefix.template ++ value) = false :=
  ⟨rfl, rfl, rfl, rfl, rfl, rfl, rfl⟩

theorem parse_mergeOutreachTargets (modelTargets : List Text)
    {binding : CanonicalRecoveryTargetBinding} (h : binding.Canonical) (requireTemplate : Bool) :
    parseRecoveryOutreachTargets (mergeOutreachTargets modelTargets binding) requireTemplate =
      .ok {
        recoveryCaseId := binding.recoveryCaseId
        leadId := binding.leadId
        templateId := some binding.templateId
        templateVersion := some binding.templateVersion
        note := targetValue RecoveryTargetPrefix.note modelTargets } := by
  obtain ⟨hcaseLead, hcaseTemplate, -, -, hcaseNote, -, -⟩ := other_marks binding.recoveryCaseId
  obtain ⟨-, -, hleadTemplate, -, -, hleadNote, -⟩ := other_marks binding.leadId
  obtain ⟨-, -, -, -, -, -, htemplateNote⟩ :=
    other_marks (binding.templateId ++ '@' :: binding.templateVersion.text)
  have hcase : targetValue RecoveryTargetPrefix.case (mergeOutreachTargets modelTargets binding) =
      some binding.recoveryCaseId := targetValue_cons_marked ..
  have hlead : targetValue RecoveryTargetPrefix.lead (mergeOutreachTargets modelTargets binding) =
      some binding.leadId :=
    (targetValue_cons_unmarked hcaseLead _).trans (targetValue_cons_marked ..)
  have htemplate : targetValue RecoveryTargetPrefix.template
      (mergeOutreachTargets modelTargets binding) =
      some (binding.templateId ++ '@' :: binding.templateVersion.text) :=
    (targetValue_cons_unmarked hcaseTemplate _).trans
      ((targetValue_cons_unmarked hleadTemplate _).trans (targetValue_cons_marked ..))
  have hnote : targetValue RecoveryTargetPrefix.note (mergeOutreachTargets modelTargets binding) =
      targetValue RecoveryTargetPrefix.note modelTargets :=
    (targetValue_cons_unmarked hcaseNote _).trans
      ((targetValue_cons_unmarked hleadNote _).trans
        ((targetValue_cons_unmarked htemplateNote _).trans (targetValue_note modelTargets)))
  unfold parseRecoveryOutreachTargets
  simp only [hcase, hlead, htemplate, hnote, isFalsy_some h.recoveryCaseId, isFalsy_some h.leadId,
    Option.getD_some, parseTemplate_format h.templateId h.templateVersion]
  rw [isFalsy_some (by simp)]
  rfl

theorem parse_mergeCallbackTargets (modelTargets : List Text)
    {binding : CanonicalRecoveryTargetBinding} (h : binding.Canonical) :
    parseRecoveryOutreachTargets (mergeCallbackTargets modelTargets binding) =
      .ok {
        recoveryCaseId := binding.recoveryCaseId
        leadId := binding.leadId
        note := targetValue RecoveryTargetPrefix.note modelTargets } := by
  obtain ⟨hcaseLead, hcaseTemplate, -, -, hcaseNote, -, -⟩ := other_marks binding.recoveryCaseId
  obtain ⟨-, -, hleadTemplate, -, -, hleadNote, -⟩ := other_marks binding.leadId
  have hcase : targetValue RecoveryTargetPrefix.case (mergeCallbackTargets modelTargets binding) =
      some binding.recoveryCaseId := targetValue_cons_marked ..
  have hlead : targetValue RecoveryTargetPrefix.lead (mergeCallbackTargets modelTargets binding) =
      some binding.leadId :=
    (targetValue_cons_unmarked hcaseLead _).trans (targetValue_cons_marked ..)
  have htemplate : targetValue RecoveryTargetPrefix.template
      (mergeCallbackTargets modelTargets binding) = none :=
    (targetValue_cons_unmarked hcaseTemplate _).trans
      ((targetValue_cons_unmarked hleadTemplate _).trans
        (targetValue_permittedModelNote modelTargets fun value => (other_marks value).2.2.2.1))
  have hnote : targetValue RecoveryTargetPrefix.note (mergeCallbackTargets modelTargets binding) =
      targetValue RecoveryTargetPrefix.note modelTargets :=
    (targetValue_cons_unmarked hcaseNote _).trans
      ((targetValue_cons_unmarked hleadNote _).trans (targetValue_note modelTargets))
  unfold parseRecoveryOutreachTargets
  simp only [hcase, hlead, htemplate, hnote, isFalsy_some h.recoveryCaseId, isFalsy_some h.leadId,
    Option.getD_some]
  rfl

/-! ## The spelling of a version -/

/-- The text is accepted as the value of a template target only as it is written for its id and
version. -/
def SpelledOnce (templateRaw : Text) : Prop :=
  ∀ templateId templateVersion,
    parseRecoveryTemplateTargetValue templateRaw = .ok (templateId, templateVersion) →
    formatRecoveryTemplateTarget templateId templateVersion =
      RecoveryTargetPrefix.template ++ templateRaw

/-- What follows the last `@` denotes no positive integer, or is one as it is printed. -/
def PrintedVersion (templateRaw : Text) : Prop :=
  ∀ before after, templateRaw = before ++ '@' :: after → before ≠ [] → '@' ∉ after →
    IsVersion (stringToNumber after) → ∃ version, IsVersion version ∧ after = version.text

theorem spelledOnce_iff (templateRaw : Text) :
    SpelledOnce templateRaw ↔ PrintedVersion templateRaw := by
  constructor
  · rintro honce before after rfl hbefore hafter hversion
    have hformat := honce before (stringToNumber after) (by
      rw [parseTemplate_append hbefore hafter, if_pos hversion])
    have htext := (List.cons.inj (List.append_cancel_left
      (List.append_cancel_left hformat))).2
    exact ⟨_, hversion, htext.symm⟩
  · intro hprinted templateId templateVersion hparse
    obtain ⟨after, hs, hbefore, hafter, hread, hversion⟩ := parseTemplate_ok hparse
    simp only at hs hbefore hread hversion
    obtain ⟨version, hversion', htext⟩ := hprinted templateId after hs hbefore hafter
      (hread ▸ hversion)
    -- the text is the one printed for the version that it denotes
    have hsame : templateVersion = version := by
      rw [hread, htext, stringToNumber_version hversion']
    rw [formatRecoveryTemplateTarget, hs, hsame, ← htext]

/-- For every binding, every list of model targets and every text: the targets of the binder give
the binding back, and the text is accepted in one spelling only, just when a version in it is
written as a number is printed. -/
theorem recovery_targets_canonical_iff (binding : CanonicalRecoveryTargetBinding)
    (hbinding : binding.Canonical) (modelTargets : List Text) (templateRaw : Text) :
    (RoundTrips modelTargets binding ∧ SpelledOnce templateRaw) ↔ PrintedVersion templateRaw := by
  rw [← spelledOnce_iff, and_iff_right_iff_imp]
  intro _
  exact ⟨parse_mergeOutreachTargets modelTargets hbinding,
    parse_mergeCallbackTargets modelTargets hbinding⟩

/-! ## A version with an exponent -/

namespace TargetScenario

/-- Version 3 of a template whose id holds an `@`. -/
def binding : CanonicalRecoveryTargetBinding where
  recoveryCaseId := "case:1".toList
  leadId := "lead@1".toList
  templateId := "t@2".toList
  templateVersion := .finite false ⟨3, by norm_num, roundDouble_natCast (n := 3) (by norm_num)⟩

/-- What a model may propose: a foreign case and two notes. -/
def proposed : List Text :=
  ["rr_case:other".toList, "rr_note:rr_lead:other".toList, "rr_note:second".toList]

theorem binding_canonical : binding.Canonical :=
  ⟨by decide, by decide, by decide, by decide⟩

theorem three_printed : PrintedVersion "t@3".toList := by
  intro before after hs hbefore hafter _
  have hlast : lastIndexOf '@' "t@3".toList = some before.length := hs ▸ lastIndexOf_append hafter
  have hlength : before.length = 1 := Option.some.inj (hlast.symm.trans (by decide))
  have hsplit : ['t'] ++ '@' :: ['3'] = before ++ '@' :: after := hs
  have htext : after = ['3'] :=
    ((List.cons.inj (List.append_inj hsplit hlength.symm).2).2).symm
  exact ⟨binding.templateVersion, by decide, by rw [htext]; decide +kernel⟩

end TargetScenario

open TargetScenario

/-- The theorem on a binding, proposed targets and a text as the binder writes it. -/
theorem recovery_targets_canonical_three :
    RoundTrips proposed binding ∧ SpelledOnce "t@3".toList :=
  (recovery_targets_canonical_iff binding binding_canonical proposed "t@3".toList).mpr
    three_printed

/-- `t@1e1` is accepted, as version 10. -/
theorem template_version_respelled :
    ¬∀ (binding : CanonicalRecoveryTargetBinding), binding.Canonical →
      ∀ (modelTargets : List Text) (templateRaw : Text),
      RoundTrips modelTargets binding ∧ SpelledOnce templateRaw := by
  intro h
  have honce := (h binding binding_canonical [] "t@1e1".toList).2 ['t']
    (stringToNumber "1e1".toList) (by decide +kernel)
  exact absurd honce (by decide +kernel)

end Orchestrator
