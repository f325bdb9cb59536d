import Mathlib.Tactic

/-!
# Validation findings and decisions

What the validators report about a plan, and the decision class that follows from it.

* `ValidationFinding`, and the findings no approver may override;
* `boundedHumanEscalation`, `ValidationDecisionEngine.decide`: the decision engine;
* `ValidationDecision.Sound`: a decision that lets a plan go on overrides no such finding;
* `settledClass`: the class of every final decision is a matter of the findings alone.
-/

namespace Orchestrator

/-! ## Findings -/

/-- `ValidationDecisionClassSchema`. -/
inductive ValidationDecisionClass where
  | pass
  | block
  | humanApprovalRequired
  | revise
  deriving DecidableEq, Repr

/-- The class's name in the source. -/
def ValidationDecisionClass.text : ValidationDecisionClass → String
  | .pass => "PASS"
  | .block => "BLOCK"
  | .humanApprovalRequired => "HUMAN_APPROVAL_REQUIRED"
  | .revise => "REVISE"

inductive ValidationFindingSeverity where
  | info
  | warning
  | error
  | critical
  deriving DecidableEq, Repr

inductive ValidationValidatorType where
  | schema
  | state
  | freshness
  | policy
  | capability
  | dependency
  | resource
  | security
  | verificationBinding
  | contextual
  deriving DecidableEq, Repr

/-- `ValidationFinding`, less its metadata. -/
structure ValidationFinding where
  findingId : String
  validatorType : ValidationValidatorType
  category : String
  severity : ValidationFindingSeverity
  ruleId : String
  message : String
  evidenceRefs : List String
  affectedStepIds : List String
  repairable : Bool
  approvalEligible : Bool
  blocking : Bool
  semanticFingerprint : String
  deriving DecidableEq, Repr

/-- The findings that no approver may override. -/
def isNonApprovalEligibleBlockingFinding (finding : ValidationFinding) : Bool :=
  finding.blocking && !finding.approvalEligible

def nonApprovalEligibleBlockingFindings (findings : List ValidationFinding) :
    List ValidationFinding :=
  findings.filter isNonApprovalEligibleBlockingFinding

/-- `isUnrepairableBlocking`. -/
def isUnrepairableBlocking (finding : ValidationFinding) : Bool :=
  finding.blocking && !finding.repairable

/-! ## The decision engine -/

/-- `VALIDATION_REASON_CODES`. -/
inductive ValidationReasonCode where
  | noBlockingFindings
  | unrepairableViolation
  | approvalRequiredNonRepairable
  | repeatedSemanticViolation
  | revisionAttemptsExhausted
  | repairableViolation
  | approvalEligibleFinding
  | revisionFailed
  | nonApprovalEligibleBlockingFinding
  deriving DecidableEq, Repr

structure ValidationDecisionInput where
  findings : List ValidationFinding
  repeatedFingerprints : List String
  remainingRevisionAttempts : ℕ

structure ValidationDecisionOutcome where
  decision : ValidationDecisionClass
  reasonCodes : List ValidationReasonCode
  requiresHumanAction : Bool
  decidingFindingIds : List String
  deriving DecidableEq, Repr

/-- The ids of findings. -/
def findingIds (findings : List ValidationFinding) : List String := findings.map (·.findingId)

/-- An escalation to a human, which a finding that no approver may override turns into a
block. -/
def boundedHumanEscalation (findings : List ValidationFinding) (reasonCode : ValidationReasonCode)
    (decidingFindingIds : List String) : ValidationDecisionOutcome :=
  let nonApprovable := nonApprovalEligibleBlockingFindings findings
  if nonApprovable ≠ [] then
    { decision := .block
      reasonCodes := [reasonCode, .nonApprovalEligibleBlockingFinding]
      requiresHumanAction := true
      decidingFindingIds := findingIds nonApprovable }
  else
    { decision := .humanApprovalRequired
      reasonCodes := [reasonCode]
      requiresHumanAction := true
      decidingFindingIds := decidingFindingIds }

namespace ValidationDecisionEngine

/-- The findings that neither a revision nor an approver may clear. -/
def hardBlocking (findings : List ValidationFinding) : List ValidationFinding :=
  findings.filter fun finding => !finding.repairable && isNonApprovalEligibleBlockingFinding finding

/-- The findings that only an approver may clear. -/
def approvableBlocking (findings : List ValidationFinding) : List ValidationFinding :=
  findings.filter fun finding => finding.blocking && !finding.repairable && finding.approvalEligible

def repairableBlocking (findings : List ValidationFinding) : List ValidationFinding :=
  findings.filter fun finding => finding.blocking && finding.repairable

/-- The findings that do not block, and that an approver is asked about. -/
def approvalEligible (findings : List ValidationFinding) : List ValidationFinding :=
  findings.filter fun finding => !finding.blocking && finding.approvalEligible

/-- The decision on findings of which some are repairable and none is beyond repair. -/
def decideRepairable (input : ValidationDecisionInput) : ValidationDecisionOutcome :=
  let repairable := repairableBlocking input.findings
  let recurring := repairable.filter fun finding =>
    input.repeatedFingerprints.contains finding.semanticFingerprint
  if recurring ≠ [] then
    boundedHumanEscalation input.findings .repeatedSemanticViolation (findingIds recurring)
  else if input.remainingRevisionAttempts = 0 then
    boundedHumanEscalation input.findings .revisionAttemptsExhausted (findingIds repairable)
  else
    { decision := .revise
      reasonCodes := [.repairableViolation]
      requiresHumanAction := false
      decidingFindingIds := findingIds repairable }

/-- `decide`: the precedence of the decision classes. -/
def decide (input : ValidationDecisionInput) : ValidationDecisionOutcome :=
  if hardBlocking input.findings ≠ [] then
    { decision := .block
      reasonCodes := [.unrepairableViolation]
      requiresHumanAction := true
      decidingFindingIds := findingIds (hardBlocking input.findings) }
  else if approvableBlocking input.findings ≠ [] then
    boundedHumanEscalation input.findings .approvalRequiredNonRepairable
      (findingIds (approvableBlocking input.findings))
  else if repairableBlocking input.findings ≠ [] then decideRepairable input
  else if approvalEligible input.findings ≠ [] then
    { decision := .humanApprovalRequired
      reasonCodes := [.approvalEligibleFinding]
      requiresHumanAction := true
      decidingFindingIds := findingIds (approvalEligible input.findings) }
  else
    { decision := .pass
      reasonCodes := [.noBlockingFindings]
      requiresHumanAction := false
      decidingFindingIds := [] }

end ValidationDecisionEngine

/-! ## Final classes -/

/-- The class of a final decision on findings. -/
def settledClass (findings : List ValidationFinding) : ValidationDecisionClass :=
  if findings.any isNonApprovalEligibleBlockingFinding then .block
  else if findings.any fun finding => finding.blocking || finding.approvalEligible then
    .humanApprovalRequired
  else .pass

theorem filter_ne_nil {α : Type} {p : α → Bool} {as : List α} :
    as.filter p ≠ [] ↔ as.any p = true := by
  simp

/-- An escalation blocks exactly where there is a finding that no approver may override. -/
theorem boundedHumanEscalation_decision (findings : List ValidationFinding)
    (reasonCode : ValidationReasonCode) (ids : List String) :
    (boundedHumanEscalation findings reasonCode ids).decision =
      if findings.any isNonApprovalEligibleBlockingFinding then .block
      else .humanApprovalRequired := by
  rw [boundedHumanEscalation, nonApprovalEligibleBlockingFindings]
  by_cases h : findings.any isNonApprovalEligibleBlockingFinding = true
  · rw [if_pos (filter_ne_nil.mpr h), if_pos h]
  · rw [if_neg (mt filter_ne_nil.mp h), if_neg h]

/-- Where something blocks, an escalation is the final class. -/
theorem boundedHumanEscalation_settled {findings : List ValidationFinding}
    (h : ∃ f ∈ findings, f.blocking = true) (reasonCode : ValidationReasonCode)
    (ids : List String) :
    (boundedHumanEscalation findings reasonCode ids).decision = settledClass findings := by
  have hany : findings.any (fun f => f.blocking || f.approvalEligible) = true := by
    obtain ⟨f, hf, hblocking⟩ := h
    exact List.any_eq_true.mpr ⟨f, hf, by rw [hblocking, Bool.true_or]⟩
  rw [boundedHumanEscalation_decision, settledClass, if_pos hany]

namespace ValidationDecisionEngine

variable {input : ValidationDecisionInput}

/-- Which branch the engine takes, with what it says of the findings. -/
theorem decide_cases (input : ValidationDecisionInput) :
    (input.findings.any isNonApprovalEligibleBlockingFinding = true ∧
      (decide input).decision = .block) ∨
    ((∃ f ∈ input.findings, f.blocking = true) ∧ ∃ code ids,
      decide input = boundedHumanEscalation input.findings code ids) ∨
    ((∃ f ∈ input.findings, f.blocking = true ∧ f.repairable = true) ∧
      (∀ f ∈ input.findings, f.blocking = true → f.repairable = true) ∧
      (∀ f ∈ input.findings, f.blocking = true →
        f.semanticFingerprint ∉ input.repeatedFingerprints) ∧
      input.remainingRevisionAttempts ≠ 0 ∧ (decide input).decision = .revise) ∨
    ((∀ f ∈ input.findings, f.blocking = false) ∧
      (decide input).decision = settledClass input.findings) := by
  rw [decide]
  by_cases hhard : hardBlocking input.findings ≠ []
  · refine .inl ⟨?_, by rw [if_pos hhard]⟩
    obtain ⟨f, hf, hp⟩ := List.any_eq_true.mp (filter_ne_nil.mp hhard)
    exact List.any_eq_true.mpr ⟨f, hf, (Bool.and_eq_true_iff.mp hp).2⟩
  rw [if_neg hhard]
  by_cases happrovable : approvableBlocking input.findings ≠ []
  · refine .inr (.inl ⟨?_, _, _, if_pos happrovable⟩)
    obtain ⟨f, hf, hp⟩ := List.any_eq_true.mp (filter_ne_nil.mp happrovable)
    exact ⟨f, hf, by simp_all⟩
  rw [if_neg happrovable]
  -- whatever blocks can now be repaired
  have hrepairable : ∀ f ∈ input.findings, f.blocking = true → f.repairable = true := by
    simp only [ne_eq, not_not, hardBlocking, approvableBlocking, List.filter_eq_nil_iff,
      isNonApprovalEligibleBlockingFinding] at hhard happrovable
    intro f hf hblocking
    have h₁ := hhard f hf
    have h₂ := happrovable f hf
    cases hr : f.repairable <;> simp_all
  by_cases hrep : repairableBlocking input.findings ≠ []
  · obtain ⟨f, hf, hp⟩ := List.any_eq_true.mp (filter_ne_nil.mp hrep)
    rw [Bool.and_eq_true] at hp
    rw [if_pos hrep, decideRepairable]
    split
    · exact .inr (.inl ⟨⟨f, hf, hp.1⟩, _, _, rfl⟩)
    · next hrecurring =>
      split
      · exact .inr (.inl ⟨⟨f, hf, hp.1⟩, _, _, rfl⟩)
      · next hremaining =>
        refine .inr (.inr (.inl ⟨⟨f, hf, hp⟩, hrepairable, fun f hf hb => ?_, hremaining, rfl⟩))
        simp only [ne_eq, not_not, List.filter_eq_nil_iff, repairableBlocking,
          List.mem_filter, Bool.and_eq_true, List.contains_iff_mem] at hrecurring
        exact hrecurring f ⟨hf, hb, hrepairable f hf hb⟩
  · refine .inr (.inr (.inr ?_))
    rw [if_neg hrep]
    have hfree : ∀ f ∈ input.findings, f.blocking = false := by
      simp only [ne_eq, not_not, repairableBlocking, List.filter_eq_nil_iff] at hrep
      intro f hf
      have h := hrep f hf
      cases hb : f.blocking
      · rfl
      · simp_all
    refine ⟨hfree, ?_⟩
    have hnone : input.findings.any isNonApprovalEligibleBlockingFinding = false := by
      simp_all [isNonApprovalEligibleBlockingFinding]
    have hsame : (approvalEligible input.findings ≠ []) ↔
        (input.findings.any fun f => f.blocking || f.approvalEligible) = true := by
      rw [approvalEligible, filter_ne_nil, List.any_eq_true, List.any_eq_true]
      refine exists_congr fun f => and_congr_right fun hf => ?_
      rw [hfree f hf, Bool.not_false, Bool.true_and, Bool.false_or]
    rw [settledClass, hnone]
    by_cases helig : approvalEligible input.findings ≠ []
    · rw [if_pos helig, if_neg (by simp), if_pos (hsame.mp helig)]
    · rw [if_neg helig, if_neg (by simp), if_neg (mt hsame.mpr helig)]

/-- Every final decision of the engine has the class of its findings. -/
theorem decide_settled (h : (decide input).decision ≠ .revise) :
    (decide input).decision = settledClass input.findings := by
  rcases decide_cases input with ⟨hany, hblock⟩ | ⟨hblocking, code, ids, hesc⟩ |
    ⟨-, -, -, -, hrevise⟩ | ⟨-, hsettled⟩
  · rw [hblock, settledClass, if_pos hany]
  · rw [hesc, boundedHumanEscalation_settled hblocking]
  · exact absurd hrevise h
  · exact hsettled

/-- The engine asks for a revision only where something blocks and was not seen before, and a
revision is left. -/
theorem decide_revise (h : (decide input).decision = .revise) :
    (∃ f ∈ input.findings, f.blocking = true) ∧
      (∀ f ∈ input.findings, f.blocking = true → f.repairable = true) ∧
      (∀ f ∈ input.findings, f.blocking = true →
        f.semanticFingerprint ∉ input.repeatedFingerprints) ∧
      input.remainingRevisionAttempts ≠ 0 := by
  rcases decide_cases input with ⟨-, hblock⟩ | ⟨-, code, ids, hesc⟩ |
    ⟨⟨f, hf, hb, -⟩, hrepairable, hnew, hleft, -⟩ | ⟨hfree, hsettled⟩
  · rw [hblock] at h
    cases h
  · rw [hesc, boundedHumanEscalation_decision] at h
    split at h <;> cases h
  · exact ⟨⟨f, hf, hb⟩, hrepairable, hnew, hleft⟩
  · rw [hsettled, settledClass] at h
    split at h
    · cases h
    · split at h <;> cases h

end ValidationDecisionEngine

/-! ## Decisions -/

/-- `ValidationDecision`. -/
structure ValidationDecision where
  validationDecisionId : String
  decision : ValidationDecisionClass
  findings : List ValidationFinding
  decidedAt : ℕ
  validatorId : String
  runId : String
  planId : String
  planVersion : ℕ
  planHash : String
  policyBundleHash : String
  repositoryFingerprint : String
  validationAttempt : ℕ
  requiresHumanAction : Bool
  deriving DecidableEq, Repr

/-- The class lets the plan go on: as it is, or with an approver. -/
def ValidationDecisionClass.letsGoOn (decision : ValidationDecisionClass) : Bool :=
  decision = .pass || decision = .humanApprovalRequired

/-- A decision of this class on these findings overrides no finding that no approver may
override. -/
def Overridable (decision : ValidationDecisionClass) (findings : List ValidationFinding) : Prop :=
  decision.letsGoOn = true → ∀ f ∈ findings, isNonApprovalEligibleBlockingFinding f = false

instance (decision : ValidationDecisionClass) (findings : List ValidationFinding) :
    Decidable (Overridable decision findings) := by
  unfold Overridable
  infer_instance

/-- The final class of findings overrides none of them. -/
theorem overridable_settledClass (findings : List ValidationFinding) :
    Overridable (settledClass findings) findings := by
  intro hgoes
  rw [settledClass] at hgoes
  split at hgoes
  · cases hgoes
  · next hany => simpa using hany

/-- What the engine decides overrides no finding. -/
theorem overridable_decide (input : ValidationDecisionInput) :
    Overridable (ValidationDecisionEngine.decide input).decision input.findings := by
  by_cases h : (ValidationDecisionEngine.decide input).decision = .revise
  · rw [h]
    exact fun hgoes => nomatch hgoes
  · rw [ValidationDecisionEngine.decide_settled h]
    exact overridable_settledClass _

/-- An escalation overrides no finding. -/
theorem overridable_escalation (findings : List ValidationFinding)
    (reasonCode : ValidationReasonCode) (ids : List String) :
    Overridable (boundedHumanEscalation findings reasonCode ids).decision findings := by
  intro hgoes
  rw [boundedHumanEscalation_decision] at hgoes
  split at hgoes
  · cases hgoes
  · next hany => simpa using hany

/-- A finding that an approver may override changes no class that something else blocks. -/
theorem settledClass_append {findings : List ValidationFinding} {extra : ValidationFinding}
    (h : ∃ f ∈ findings, f.blocking = true) (hextra : extra.approvalEligible = true) :
    settledClass (findings ++ [extra]) = settledClass findings := by
  obtain ⟨f, hf, hb⟩ := h
  have hany : findings.any (fun f => f.blocking || f.approvalEligible) = true :=
    List.any_eq_true.mpr ⟨f, hf, by rw [hb, Bool.true_or]⟩
  have hextra' : isNonApprovalEligibleBlockingFinding extra = false := by
    rw [isNonApprovalEligibleBlockingFinding, hextra, Bool.not_true, Bool.and_false]
  rw [settledClass, settledClass]
  simp only [List.any_append, List.any_cons, List.any_nil, Bool.or_false, hextra', hany,
    Bool.true_or]

end Orchestrator
