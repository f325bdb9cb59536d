import Mathlib.Tactic.Common
import Orchestrator.Domain.Run

/-!
# The outcome decision

The precedence ladder of `OutcomeDecisionEngine.decide` and the part of `verify` that calls it.

* `decide`: the ladder, gate by gate, with the contextual assessment at its end;
* `OutcomeVerdict`: the outcomes, from `CONTAINED` up to `VERIFIED_SUCCESS`;
* `decide_assessed_le`: an assessment never moves the outcome up;
* `verifiedOutcome_le`: neither does the model that `verify` asks for one.
-/

namespace Orchestrator.Verification

/-! ## Findings and results -/

inductive VerificationFindingCategory where
  | binding
  | authority
  | executionIntegrity
  | artifactIntegrity
  | postcondition
  | acceptanceCriterion
  | boundary
  | resource
  | containment
  | evidenceGap
  | contextual
  | governance
  | currentDrift
  deriving DecidableEq, Repr

/-- What the decision reads of a `VerificationFinding`. -/
structure VerificationFinding where
  category : VerificationFindingCategory
  ruleId : String
  blocksVerifiedSuccess : Bool
  deriving DecidableEq, Repr

/-- What the decision and its caller read of an `AcceptanceCriterionResult`. -/
structure AcceptanceCriterionResult where
  criterionId : String
  verdict : CriterionVerdict
  evidenceRefs : List String
  verificationMethod : String
  deriving DecidableEq, Repr

/-- What the decision reads of a `StepPostconditionResult`. -/
structure StepPostconditionResult where
  verdict : CriterionVerdict
  deriving DecidableEq, Repr

inductive OutcomeVerdict where
  | contained
  | verificationFailed
  | inconclusive
  | partialSuccess
  | verifiedSuccess
  deriving DecidableEq, Repr

/-- How high an outcome stands. -/
def OutcomeVerdict.rank : OutcomeVerdict → ℕ
  | .contained => 0
  | .verificationFailed => 1
  | .inconclusive => 2
  | .partialSuccess => 3
  | .verifiedSuccess => 4

instance : LE OutcomeVerdict := ⟨fun a b => a.rank ≤ b.rank⟩

instance (a b : OutcomeVerdict) : Decidable (a ≤ b) := inferInstanceAs (Decidable (a.rank ≤ b.rank))

/-- What a contextual model may recommend: any outcome but `CONTAINED`. -/
inductive RecommendedOutcome where
  | verifiedSuccess
  | partialSuccess
  | verificationFailed
  | inconclusive
  deriving DecidableEq, Repr

/-- What the decision reads of a `ContextualOutcomeAssessment`. -/
structure ContextualOutcomeAssessment where
  recommendedOutcome : RecommendedOutcome
  unsupportedClaims : List String
  contradictions : List String
  missingEvidence : List String
  findings : List VerificationFinding
  deriving DecidableEq, Repr

structure OutcomeDecisionInput where
  contained : Bool
  unresolvedSideEffectUncertainty : Bool
  criterionResults : List AcceptanceCriterionResult
  postconditionResults : List StepPostconditionResult
  findings : List VerificationFinding
  coverageComplete : Bool
  artifactIntegrityOk : Bool
  historicalAuthorityOk : Bool
  boundaryOk : Bool
  governanceOk : Bool
  allCriteriaHaveApprovedBindings : Bool
  allBindingsFulfilled : Bool
  contextual : Option ContextualOutcomeAssessment
  deriving DecidableEq, Repr

structure OutcomeDecision where
  outcome : OutcomeVerdict
  requiresHumanReview : Bool
  reasonCodes : List String
  deriving DecidableEq, Repr

/-- A decision against success, which a human reviews. -/
def settled (outcome : OutcomeVerdict) (reasonCode : String) : OutcomeDecision :=
  { outcome, requiresHumanReview := true, reasonCodes := [reasonCode] }

/-! ## The ladder -/

/-- The categories whose blocking findings are hard failures. -/
def hardCategories : List VerificationFindingCategory :=
  [.binding, .artifactIntegrity, .boundary, .governance, .authority, .resource]

/-- The rules whose blocking findings are hard failures. -/
def hardRules : List String :=
  ["VERIFICATION_SCOPE_VIOLATION", "VERIFICATION_GOVERNANCE_VIOLATION",
    "VERIFICATION_ARTIFACT_HASH_MISMATCH", "VERIFICATION_ARTIFACT_MISSING",
    "VERIFICATION_ARTIFACT_IDENTITY_MISMATCH", "VERIFICATION_AUTHORITY_MISMATCH",
    "VERIFICATION_BINDING_MISMATCH"]

def isHardFailure (f : VerificationFinding) : Bool :=
  f.blocksVerifiedSuccess && (f.category ∈ hardCategories || f.ruleId ∈ hardRules)

/-- The results of criteria with a verdict. -/
def criteriaWith (input : OutcomeDecisionInput) (verdict : CriterionVerdict) :
    List AcceptanceCriterionResult :=
  input.criterionResults.filter fun c => c.verdict = verdict

/-- The results of postconditions with a verdict. -/
def postconditionsWith (input : OutcomeDecisionInput) (verdict : CriterionVerdict) :
    List StepPostconditionResult :=
  input.postconditionResults.filter fun p => p.verdict = verdict

def containmentGate (input : OutcomeDecisionInput) : Option OutcomeDecision :=
  if input.contained || input.unresolvedSideEffectUncertainty then
    some (settled .contained "CONTAINED_OR_UNRESOLVED")
  else none

def integrityGate (input : OutcomeDecisionInput) : Option OutcomeDecision :=
  if 0 < (input.findings.filter isHardFailure).length || !input.artifactIntegrityOk ||
      !input.historicalAuthorityOk || !input.boundaryOk || !input.governanceOk then
    some (settled .verificationFailed "HARD_INTEGRITY_OR_GOVERNANCE_FAILURE")
  else none

def criteriaGate (input : OutcomeDecisionInput) : Option OutcomeDecision :=
  if 0 < (criteriaWith input .unsatisfied).length then
    if 0 < (criteriaWith input .satisfied).length then
      some (settled .partialSuccess "SOME_CRITERIA_UNSATISFIED")
    else some (settled .verificationFailed "REQUIRED_CRITERIA_UNSATISFIED")
  else if 0 < (criteriaWith input .partiallySatisfied).length then
    some (settled .partialSuccess "CRITERION_PARTIALLY_SATISFIED")
  else if 0 < (criteriaWith input .inconclusive).length || !input.coverageComplete then
    some (settled .inconclusive "MISSING_OR_INCONCLUSIVE_EVIDENCE")
  else none

def postconditionGate (input : OutcomeDecisionInput) : Option OutcomeDecision :=
  if 0 < (postconditionsWith input .unsatisfied).length then
    some (settled
      (if 0 < (criteriaWith input .satisfied).length then .partialSuccess else .verificationFailed)
      "POSTCONDITION_UNSATISFIED")
  else if 0 < (postconditionsWith input .partiallySatisfied).length then
    some (settled .partialSuccess "POSTCONDITION_PARTIAL")
  else if 0 < (postconditionsWith input .inconclusive).length then
    some (settled .inconclusive "POSTCONDITION_INCONCLUSIVE")
  else none

def bindingGate (input : OutcomeDecisionInput) : Option OutcomeDecision :=
  if !input.allCriteriaHaveApprovedBindings || !input.allBindingsFulfilled then
    some (settled .inconclusive "APPROVED_BINDING_INCOMPLETE")
  else none

/-- The assessment names something that success would have to answer. -/
def materialGaps (contextual : ContextualOutcomeAssessment) : Bool :=
  0 < contextual.missingEvidence.length || 0 < contextual.contradictions.length ||
    0 < contextual.unsupportedClaims.length ||
    0 < (contextual.findings.filter (·.blocksVerifiedSuccess)).length

/-- The outcome past all gates, with the reason that the assessment adds. -/
def contextualOutcome (contextual : Option ContextualOutcomeAssessment) :
    OutcomeVerdict × List String :=
  match contextual with
  | none => (.verifiedSuccess, ["ALL_CRITERIA_SATISFIED"])
  | some contextual =>
    if materialGaps contextual then
      match contextual.recommendedOutcome with
      | .verificationFailed =>
        (.verificationFailed, ["ALL_CRITERIA_SATISFIED", "CONTEXTUAL_DOWNGRADE_FAILED"])
      | .partialSuccess =>
        (.partialSuccess, ["ALL_CRITERIA_SATISFIED", "CONTEXTUAL_DOWNGRADE_PARTIAL"])
      | _ => (.inconclusive, ["ALL_CRITERIA_SATISFIED", "CONTEXTUAL_DOWNGRADE_INCONCLUSIVE"])
    else
      match contextual.recommendedOutcome with
      | .verifiedSuccess =>
        (.verifiedSuccess, ["ALL_CRITERIA_SATISFIED", "CONTEXTUAL_AGREES_ADVISORY"])
      | _ => (.verifiedSuccess, ["ALL_CRITERIA_SATISFIED", "CONTEXTUAL_NONBLOCKING_ADVISORY"])

/-- The final guard: a gate that success needs has failed. -/
def successGateFailed (input : OutcomeDecisionInput) : Bool :=
  input.criterionResults.any (fun c => c.verdict ≠ .satisfied) ||
    input.postconditionResults.any (fun p => p.verdict ≠ .satisfied) ||
    !input.coverageComplete || !input.artifactIntegrityOk || !input.historicalAuthorityOk ||
    !input.boundaryOk || !input.governanceOk || !input.allCriteriaHaveApprovedBindings ||
    !input.allBindingsFulfilled

/-- The decision past all gates. -/
def contextualDecision (input : OutcomeDecisionInput) : OutcomeDecision :=
  let (outcome, reasonCodes) := contextualOutcome input.contextual
  if outcome = .verifiedSuccess && successGateFailed input then
    { outcome := .inconclusive, requiresHumanReview := true,
      reasonCodes := reasonCodes ++ ["SUCCESS_GATE_FAILED"] }
  else { outcome, requiresHumanReview := outcome ≠ .verifiedSuccess, reasonCodes }

/-- The gates that look at neither the findings nor the assessment. -/
def evidenceGates (input : OutcomeDecisionInput) : Option OutcomeDecision :=
  criteriaGate input <|> postconditionGate input <|> bindingGate input

/-- `decide`: the first gate that settles the outcome, else the assessment's say. -/
def OutcomeDecisionEngine.decide (input : OutcomeDecisionInput) : OutcomeDecision :=
  (containmentGate input <|> integrityGate input <|> evidenceGates input).getD
    (contextualDecision input)

/-- The input with an assessment, whose findings are appended. -/
def OutcomeDecisionInput.assessed (input : OutcomeDecisionInput)
    (assessment : ContextualOutcomeAssessment) : OutcomeDecisionInput :=
  { input with
    findings := input.findings ++ assessment.findings, contextual := some assessment }

/-! ## The final guard -/

/-- Where no result has a verdict, none is found among the results with it. -/
theorem criteriaWith_eq_nil {input : OutcomeDecisionInput} {verdict : CriterionVerdict}
    (h : ¬0 < (criteriaWith input verdict).length) :
    ∀ c ∈ input.criterionResults, c.verdict ≠ verdict := by
  intro c hc hverdict
  have hmem : c ∈ criteriaWith input verdict := List.mem_filter.mpr ⟨hc, by simpa using hverdict⟩
  exact h (List.length_pos_of_mem hmem)

theorem postconditionsWith_eq_nil {input : OutcomeDecisionInput} {verdict : CriterionVerdict}
    (h : ¬0 < (postconditionsWith input verdict).length) :
    ∀ p ∈ input.postconditionResults, p.verdict ≠ verdict := by
  intro p hp hverdict
  have hmem : p ∈ postconditionsWith input verdict :=
    List.mem_filter.mpr ⟨hp, by simpa using hverdict⟩
  exact h (List.length_pos_of_mem hmem)

/-- A verdict that is none of the other three. -/
theorem eq_satisfied {verdict : CriterionVerdict} (hunsatisfied : verdict ≠ .unsatisfied)
    (hpartly : verdict ≠ .partiallySatisfied) (hinconclusive : verdict ≠ .inconclusive) :
    verdict = .satisfied := by
  cases verdict with
  | satisfied => rfl
  | partiallySatisfied => exact absurd rfl hpartly
  | unsatisfied => exact absurd rfl hunsatisfied
  | inconclusive => exact absurd rfl hinconclusive

/-- Past the gate of criteria, each of them is satisfied. -/
theorem criteriaGate_none {input : OutcomeDecisionInput} (h : criteriaGate input = none) :
    (∀ c ∈ input.criterionResults, c.verdict = .satisfied) ∧ input.coverageComplete = true := by
  unfold criteriaGate at h
  split at h
  · split at h <;> exact nomatch h
  next hunsatisfied =>
    split at h
    · exact nomatch h
    next hpartly =>
      split at h
      · exact nomatch h
      next hinconclusive =>
        simp only [Bool.or_eq_true, decide_eq_true_eq, Bool.not_eq_true', not_or,
          Bool.not_eq_false] at hinconclusive
        refine ⟨fun c hc => ?_, hinconclusive.2⟩
        exact eq_satisfied (criteriaWith_eq_nil hunsatisfied c hc)
          (criteriaWith_eq_nil hpartly c hc) (criteriaWith_eq_nil hinconclusive.1 c hc)

/-- Past the gate of postconditions, each of them is satisfied. -/
theorem postconditionGate_none {input : OutcomeDecisionInput}
    (h : postconditionGate input = none) :
    ∀ p ∈ input.postconditionResults, p.verdict = .satisfied := by
  unfold postconditionGate at h
  split at h
  · exact nomatch h
  next hunsatisfied =>
    split at h
    · exact nomatch h
    next hpartly =>
      split at h
      · exact nomatch h
      next hinconclusive =>
        intro p hp
        exact eq_satisfied (postconditionsWith_eq_nil hunsatisfied p hp)
          (postconditionsWith_eq_nil hpartly p hp) (postconditionsWith_eq_nil hinconclusive p hp)

theorem bindingGate_none {input : OutcomeDecisionInput} (h : bindingGate input = none) :
    input.allCriteriaHaveApprovedBindings = true ∧ input.allBindingsFulfilled = true := by
  unfold bindingGate at h
  split at h
  · exact nomatch h
  next hbound =>
    simpa only [Bool.or_eq_true, Bool.not_eq_true', not_or, Bool.not_eq_false] using hbound

theorem integrityGate_none {input : OutcomeDecisionInput} (h : integrityGate input = none) :
    input.artifactIntegrityOk = true ∧ input.historicalAuthorityOk = true ∧
      input.boundaryOk = true ∧ input.governanceOk = true := by
  unfold integrityGate at h
  split at h
  · exact nomatch h
  next hok =>
    simp only [Bool.or_eq_true, Bool.not_eq_true', not_or, Bool.not_eq_false] at hok
    exact ⟨hok.1.1.1.2, hok.1.1.2, hok.1.2, hok.2⟩

theorem evidenceGates_none {input : OutcomeDecisionInput} (h : evidenceGates input = none) :
    criteriaGate input = none ∧ postconditionGate input = none ∧ bindingGate input = none := by
  unfold evidenceGates at h
  simpa only [Option.orElse_eq_orElse, Option.orElse_eq_or, Option.or_eq_none_iff] using h

/-- Past all gates the final guard has nothing left to find. -/
theorem successGate_open {input : OutcomeDecisionInput} (hintegrity : integrityGate input = none)
    (hevidence : evidenceGates input = none) : successGateFailed input = false := by
  obtain ⟨hcriteriaGate, hpostGate, hbindingGate⟩ := evidenceGates_none hevidence
  obtain ⟨hcriteria, hcoverage⟩ := criteriaGate_none hcriteriaGate
  have hpost := postconditionGate_none hpostGate
  obtain ⟨happroved, hfulfilled⟩ := bindingGate_none hbindingGate
  obtain ⟨hartifact, hauthority, hboundary, hgovernance⟩ := integrityGate_none hintegrity
  have hnoCriterion : (input.criterionResults.any fun c => c.verdict ≠ .satisfied) = false := by
    rw [List.any_eq_false]
    intro c hc
    simp [hcriteria c hc]
  have hnoPost : (input.postconditionResults.any fun p => p.verdict ≠ .satisfied) = false := by
    rw [List.any_eq_false]
    intro p hp
    simp [hpost p hp]
  unfold successGateFailed
  rw [hnoCriterion, hnoPost, hcoverage, hartifact, hauthority, hboundary, hgovernance, happroved,
    hfulfilled]
  rfl

/-! ## The assessment only downgrades -/

theorem OutcomeVerdict.le_refl (a : OutcomeVerdict) : a ≤ a := Nat.le_refl a.rank

theorem OutcomeVerdict.le_trans {a b c : OutcomeVerdict} (hab : a ≤ b) (hbc : b ≤ c) : a ≤ c :=
  Nat.le_trans hab hbc

theorem OutcomeVerdict.le_success (a : OutcomeVerdict) : a ≤ .verifiedSuccess := by
  show a.rank ≤ 4
  cases a <;> decide

theorem OutcomeVerdict.eq_success {a : OutcomeVerdict} (h : .verifiedSuccess ≤ a) :
    a = .verifiedSuccess := by
  revert h
  cases a <;> decide

theorem OutcomeVerdict.failed_le {a : OutcomeVerdict} (h : a ≠ .contained) :
    .verificationFailed ≤ a := by
  revert h
  cases a <;> decide

/-- What the integrity gate settles, it settles as a failure. -/
theorem integrityGate_some {input : OutcomeDecisionInput} {decision : OutcomeDecision}
    (h : integrityGate input = some decision) :
    decision = settled .verificationFailed "HARD_INTEGRITY_OR_GOVERNANCE_FAILURE" := by
  unfold integrityGate at h
  split at h
  · exact (Option.some.inj h).symm
  · exact nomatch h

/-- More findings only close the integrity gate. -/
theorem integrityGate_assessed {input : OutcomeDecisionInput} {decision : OutcomeDecision}
    (h : integrityGate input = some decision) (assessment : ContextualOutcomeAssessment) :
    integrityGate (input.assessed assessment) = some decision := by
  rw [integrityGate_some h]
  unfold integrityGate at h ⊢
  split at h
  next hclosed =>
    have hmore : 0 < (input.findings.filter isHardFailure).length →
        0 < ((input.findings ++ assessment.findings).filter isHardFailure).length := by
      rw [List.filter_append, List.length_append]
      omega
    simp only [Bool.or_eq_true, decide_eq_true_eq] at hclosed
    simp only [OutcomeDecisionInput.assessed, Bool.or_eq_true]
    refine if_pos (hclosed.imp_left (Or.imp_left (Or.imp_left (Or.imp_left fun h => ?_))))
    exact decide_eq_true (hmore h)
  · exact nomatch h

theorem criteriaGate_ne_contained {input : OutcomeDecisionInput} {decision : OutcomeDecision}
    (h : criteriaGate input = some decision) : decision.outcome ≠ .contained := by
  unfold criteriaGate at h
  split at h
  · split at h <;> (rw [← Option.some.inj h]; exact nofun)
  · split at h
    · rw [← Option.some.inj h]
      exact nofun
    · split at h
      · rw [← Option.some.inj h]
        exact nofun
      · exact nomatch h

theorem postconditionGate_ne_contained {input : OutcomeDecisionInput}
    {decision : OutcomeDecision} (h : postconditionGate input = some decision) :
    decision.outcome ≠ .contained := by
  unfold postconditionGate at h
  split at h
  · rw [← Option.some.inj h]
    show (if _ then _ else _) ≠ OutcomeVerdict.contained
    split <;> exact nofun
  · split at h
    · rw [← Option.some.inj h]
      exact nofun
    · split at h
      · rw [← Option.some.inj h]
        exact nofun
      · exact nomatch h

theorem bindingGate_ne_contained {input : OutcomeDecisionInput} {decision : OutcomeDecision}
    (h : bindingGate input = some decision) : decision.outcome ≠ .contained := by
  unfold bindingGate at h
  split at h
  · rw [← Option.some.inj h]
    exact nofun
  · exact nomatch h

/-- Only the first gate contains a run. -/
theorem evidenceGates_ne_contained {input : OutcomeDecisionInput} {decision : OutcomeDecision}
    (h : evidenceGates input = some decision) : decision.outcome ≠ .contained := by
  unfold evidenceGates at h
  simp only [Option.orElse_eq_orElse, Option.orElse_eq_or, Option.or_eq_some_iff] at h
  rcases h with h | ⟨_, h | ⟨_, h⟩⟩
  · exact criteriaGate_ne_contained h
  · exact postconditionGate_ne_contained h
  · exact bindingGate_ne_contained h

/-- Without an assessment, a run past all gates is a success. -/
theorem contextualDecision_none {input : OutcomeDecisionInput} (hnone : input.contextual = none)
    (hintegrity : integrityGate input = none) (hevidence : evidenceGates input = none) :
    (contextualDecision input).outcome = .verifiedSuccess := by
  unfold contextualDecision
  rw [hnone, successGate_open hintegrity hevidence]
  rfl

/-- An assessment never moves the outcome up. -/
theorem decide_assessed_le (input : OutcomeDecisionInput) (hnone : input.contextual = none)
    (assessment : ContextualOutcomeAssessment) :
    (OutcomeDecisionEngine.decide (input.assessed assessment)).outcome ≤
      (OutcomeDecisionEngine.decide input).outcome := by
  have hcontainment : containmentGate (input.assessed assessment) = containmentGate input := rfl
  have hevidence : evidenceGates (input.assessed assessment) = evidenceGates input := rfl
  unfold OutcomeDecisionEngine.decide
  rw [hcontainment, hevidence]
  cases hcontained : containmentGate input with
  | some decision => exact OutcomeVerdict.le_refl _
  | none =>
    cases hintegrity : integrityGate input with
    | some decision =>
      rw [integrityGate_assessed hintegrity]
      exact OutcomeVerdict.le_refl _
    | none =>
      cases hgates : evidenceGates input with
      | none =>
        -- every gate is open, so that the outcome without the assessment is the highest one
        show _ ≤ (contextualDecision input).outcome
        rw [contextualDecision_none hnone hintegrity hgates]
        exact OutcomeVerdict.le_success _
      | some decision =>
        cases hassessed : integrityGate (input.assessed assessment) with
        | none => exact OutcomeVerdict.le_refl _
        | some failure =>
          -- a finding of the assessment is a hard failure
          rw [integrityGate_some hassessed]
          exact OutcomeVerdict.failed_le (evidenceGates_ne_contained hgates)

/-- Success with an assessment is success without it, and an assessment leaves an outcome where
it is or moves it down. -/
theorem assessment_only_downgrades (input : OutcomeDecisionInput) (hnone : input.contextual = none)
    (assessment : ContextualOutcomeAssessment) :
    ((OutcomeDecisionEngine.decide (input.assessed assessment)).outcome = .verifiedSuccess →
      (OutcomeDecisionEngine.decide input).outcome = .verifiedSuccess) ∧
    (OutcomeDecisionEngine.decide (input.assessed assessment)).outcome ≤
      (OutcomeDecisionEngine.decide input).outcome := by
  have hle := decide_assessed_le input hnone assessment
  refine ⟨fun hsuccess => ?_, hle⟩
  rw [hsuccess] at hle
  exact OutcomeVerdict.eq_success hle

/-- A run with one satisfied criterion. -/
def satisfiedRun : OutcomeDecisionInput :=
  { contained := false
    unresolvedSideEffectUncertainty := false
    criterionResults := [⟨"c1", .satisfied, ["e1"], "EVIDENCE_BOUND"⟩]
    postconditionResults := [⟨.satisfied⟩]
    findings := []
    coverageComplete := true
    artifactIntegrityOk := true
    historicalAuthorityOk := true
    boundaryOk := true
    governanceOk := true
    allCriteriaHaveApprovedBindings := true
    allBindingsFulfilled := true
    contextual := none }

/-- An assessment that misses some evidence. -/
def missingEvidence : ContextualOutcomeAssessment :=
  { recommendedOutcome := .verifiedSuccess
    unsupportedClaims := []
    contradictions := []
    missingEvidence := ["coverage report"]
    findings := [⟨.contextual, "CONTEXTUAL_GAP", false⟩] }

/-- The assessment takes the success of the run away. -/
theorem assessment_downgrades_satisfiedRun :
    (OutcomeDecisionEngine.decide satisfiedRun).outcome = .verifiedSuccess ∧
    (OutcomeDecisionEngine.decide (satisfiedRun.assessed missingEvidence)).outcome =
      .inconclusive ∧
    (OutcomeDecisionEngine.decide (satisfiedRun.assessed missingEvidence)).outcome ≤
      (OutcomeDecisionEngine.decide satisfiedRun).outcome :=
  ⟨by decide, by decide, (assessment_only_downgrades satisfiedRun rfl missingEvidence).2⟩

/-! ## The call of the decision -/

/-- What `verify` reads of a `DeterministicVerificationResult`. -/
structure DeterministicVerificationResult where
  findings : List VerificationFinding
  criterionResults : List AcceptanceCriterionResult
  postconditionResults : List StepPostconditionResult
  coverageComplete : Bool
  artifactIntegrityOk : Bool
  historicalAuthorityOk : Bool
  boundaryOk : Bool
  governanceOk : Bool
  unresolvedSideEffectUncertainty : Bool
  deriving DecidableEq, Repr

/-- What `verify` has read of the run, of its objective and of its plan. -/
structure VerifiedRun where
  contained : Bool
  acceptanceCriteria : List String
  /-- The criteria of the plan's approved bindings. -/
  approvedBindings : List String
  deriving DecidableEq, Repr

/-- A deterministic failure after which the model is not asked. -/
def hardBlocked (deterministic : DeterministicVerificationResult) : Bool :=
  !deterministic.artifactIntegrityOk || !deterministic.historicalAuthorityOk ||
    !deterministic.boundaryOk ||
    deterministic.findings.any fun f => f.blocksVerifiedSuccess && f.category ∈
      [VerificationFindingCategory.binding, .artifactIntegrity, .boundary, .authority]

/-- The assessment that `verify` goes on with, where `answer` is what asking the model gives. -/
def contextualAssessment (enableContextualModel : Bool) (run : VerifiedRun)
    (deterministic : DeterministicVerificationResult)
    (answer : Option ContextualOutcomeAssessment) : Option ContextualOutcomeAssessment :=
  if enableContextualModel && !hardBlocked deterministic && !run.contained &&
      !deterministic.unresolvedSideEffectUncertainty then answer
  else none

def allCriteriaHaveApprovedBindings (run : VerifiedRun)
    (deterministic : DeterministicVerificationResult) : Bool :=
  run.approvedBindings.length = run.acceptanceCriteria.length &&
    deterministic.criterionResults.all fun c => run.approvedBindings.any (· = c.criterionId)

def allBindingsFulfilled (deterministic : DeterministicVerificationResult) : Bool :=
  deterministic.criterionResults.all fun c =>
    c.verdict = .satisfied && 0 < c.evidenceRefs.length &&
      !c.verificationMethod.startsWith "KEYWORD_" && c.verificationMethod ≠ "UNBOUND" &&
      c.verificationMethod ≠ "UNMAPPED"

def decisionInput (run : VerifiedRun) (deterministic : DeterministicVerificationResult)
    (contextual : Option ContextualOutcomeAssessment) : OutcomeDecisionInput :=
  { contained := run.contained
    unresolvedSideEffectUncertainty := deterministic.unresolvedSideEffectUncertainty
    criterionResults := deterministic.criterionResults
    postconditionResults := deterministic.postconditionResults
    findings := deterministic.findings ++ ((contextual.map (·.findings)).getD [])
    coverageComplete := deterministic.coverageComplete
    artifactIntegrityOk := deterministic.artifactIntegrityOk
    historicalAuthorityOk := deterministic.historicalAuthorityOk
    boundaryOk := deterministic.boundaryOk
    governanceOk := deterministic.governanceOk
    allCriteriaHaveApprovedBindings := allCriteriaHaveApprovedBindings run deterministic
    allBindingsFulfilled := allBindingsFulfilled deterministic
    contextual }

/-- The outcome that `verify` records. -/
def verifiedOutcome (enableContextualModel : Bool) (run : VerifiedRun)
    (deterministic : DeterministicVerificationResult)
    (answer : Option ContextualOutcomeAssessment) : OutcomeVerdict :=
  if run.contained then .contained
  else (OutcomeDecisionEngine.decide (decisionInput run deterministic
    (contextualAssessment enableContextualModel run deterministic answer))).outcome

theorem decisionInput_some (run : VerifiedRun) (deterministic : DeterministicVerificationResult)
    (assessment : ContextualOutcomeAssessment) :
    decisionInput run deterministic (some assessment) =
      (decisionInput run deterministic none).assessed assessment := by
  simp [decisionInput, OutcomeDecisionInput.assessed]

/-- Whatever the model answers, the recorded outcome is at most the one without a model. -/
theorem verifiedOutcome_le (enableContextualModel : Bool) (run : VerifiedRun)
    (deterministic : DeterministicVerificationResult)
    (answer : Option ContextualOutcomeAssessment) :
    verifiedOutcome enableContextualModel run deterministic answer ≤
      verifiedOutcome false run deterministic none := by
  have hdisabled : contextualAssessment false run deterministic none = none := rfl
  unfold verifiedOutcome
  rw [hdisabled]
  split
  · exact OutcomeVerdict.le_refl _
  · cases contextualAssessment enableContextualModel run deterministic answer with
    | none => exact OutcomeVerdict.le_refl _
    | some assessment =>
      rw [decisionInput_some]
      exact decide_assessed_le _ rfl assessment

end Orchestrator.Verification
