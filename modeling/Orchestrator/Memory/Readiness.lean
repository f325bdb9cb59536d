import Orchestrator.Memory.Stores

/-!
# The readiness of candidates

Whether a candidate may be promoted: a ladder of checks, of which the first that fails decides.

* `PrecedentPromotionPolicy`, `PromotionReadinessResult`: what is read and what is decided;
* `assess`: the ladder;
* `autoPromotionReadiness`: `assess` as `tryAutoPromote` calls it;
* `Undecided`: no check before that of the contradictions decides.
-/

namespace Orchestrator.Memory

open Collections

/-! ## Policies and results -/

structure PrecedentPromotionPolicy where
  minimumOutcomeQuality : List HistoricalOutcome
  minimumEvidenceCount : ℕ := 0
  allowedCandidateTypes : List LearningCandidateType
  maximumRiskClassForAutoPromotion : RiskClass := .low
  requiresHumanReviewForScopeClasses : List ScopeClass := [.projectClass, .globalAdvisory]
  requireNoUnresolvedContradictions : Bool := true
  allowAutoPromotion : Bool := true
  deriving DecidableEq

/-- `DEFAULT_PROMOTION_POLICY`. -/
def defaultPromotionPolicy : PrecedentPromotionPolicy where
  minimumOutcomeQuality := [.verifiedSuccess, .partialSuccess, .verificationFailed, .inconclusive,
    .contained, .blocked, .rejected, .expired, .escalated]
  allowedCandidateTypes := [.successPattern, .failurePattern, .containmentPattern,
    .resourcePattern, .verificationPattern, .dependencyPattern, .securityPattern, .processPattern,
    .evidenceGapPattern]

/-- `PrecedentPromotionReadinessStatusSchema`. -/
inductive ReadinessStatus where
  | readyForAutoPromotion
  | readyForHumanReview
  | notEligible
  | contradicted
  | insufficientEvidence
  | invalidProvenance
  | promotionGroundingInsufficient
  deriving DecidableEq, Repr

/-- The category and the severity of a `MemoryQualityFinding`. -/
inductive FindingCategory where
  | weakProvenance
  | authorityLikeLanguage
  | overgeneralizedScope
  | contradicted
  deriving DecidableEq, Repr

inductive FindingSeverity where
  | blocking
  | warning
  deriving DecidableEq, Repr

/-- A `MemoryQualityFinding`, less its id; it relates to the candidate that is assessed. -/
structure MemoryQualityFinding where
  category : FindingCategory
  severity : FindingSeverity
  message : String
  deriving DecidableEq, Repr

structure PromotionReadinessResult where
  status : ReadinessStatus
  reasons : List String
  findings : List MemoryQualityFinding := []
  deriving DecidableEq, Repr

/-! ## The ladder -/

section

variable (X : MemoryExternal) (candidate : LearningCandidate)

/-- The checks of where the candidate comes from. -/
def assessProvenance (run : HistoricalRunRecord) : Option PromotionReadinessResult :=
  if provenanceHash X candidate.provenance ≠ candidate.provenance.provenanceHash then
    some ⟨.invalidProvenance, ["tampered provenance hash"],
      [⟨.weakProvenance, .blocking, "Provenance hash mismatch"⟩]⟩
  else if candidateHash X candidate ≠ candidate.candidateHash then
    some ⟨.notEligible, ["candidate hash mismatch"], []⟩
  else if candidate.provenance.sourceHistoricalRunRecordId ≠ run.historicalRunRecordId then
    some ⟨.invalidProvenance, ["provenance source mismatch"], []⟩
  else none

/-- The checks of the evidence; the first reference that is missing counts. -/
def assessEvidence (evidence : Option (List String)) (policy : PrecedentPromotionPolicy) :
    Option PromotionReadinessResult :=
  match evidence.bind fun ids => candidate.supportingEvidenceRefs.find? (!ids.contains ·) with
  | some ref =>
    some ⟨.insufficientEvidence, ["missing evidence " ++ ref],
      [⟨.weakProvenance, .blocking, "Missing evidence ref: " ++ ref⟩]⟩
  | none =>
    if candidate.supportingEvidenceRefs.length < policy.minimumEvidenceCount then
      some ⟨.insufficientEvidence, ["below minimum evidence count"], []⟩
    else none

/-- The checks of the type against the outcome and the policy. -/
def assessType (policy : PrecedentPromotionPolicy) : Option PromotionReadinessResult :=
  if !isCandidateTypeEligibleForOutcome candidate.candidateType candidate.sourceOutcome then
    some ⟨.notEligible, ["candidate type incompatible with outcome"], []⟩
  else if candidate.candidateType = .successPattern ∧
      candidate.sourceOutcome ≠ .verifiedSuccess then
    some ⟨.notEligible, ["SUCCESS_PATTERN requires VERIFIED_SUCCESS"], []⟩
  else if !policy.allowedCandidateTypes.contains candidate.candidateType ||
      !policy.minimumOutcomeQuality.contains candidate.sourceOutcome then
    some ⟨.notEligible, ["outside promotion policy"], []⟩
  else none

/-- The checks of the grounding of the claim. -/
def assessGrounding (grounding : ClaimGroundingResult) : Option PromotionReadinessResult :=
  if isNeverPromotableGrounding grounding.verdict then
    some ⟨.promotionGroundingInsufficient,
      ["UNGROUNDED is never promotable"] ++ grounding.reasons,
      [⟨.weakProvenance, .blocking,
        "UNGROUNDED claims are never promotable; human review is not factual evidence"⟩]⟩
  else if !isAutoPromotableGrounding grounding.verdict then
    some ⟨.readyForHumanReview, ["claim grounding " ++ grounding.verdict.text] ++ grounding.reasons,
      [⟨.weakProvenance, .warning,
        "Claim grounding " ++ grounding.verdict.text ++ " is not auto-promotable"⟩]⟩
  else none

/-- The checks of the statement and of the scope. -/
def assessScope (policy : PrecedentPromotionPolicy) : Option PromotionReadinessResult :=
  let scope := candidate.applicabilityProposal.scopeClass
  if candidate.containsAuthorityLikeLanguage ||
      containsAuthorityLikeLanguage candidate.statement then
    some ⟨.readyForHumanReview, ["authority-like language"],
      [⟨.authorityLikeLanguage, .blocking, "Authority-like language blocks auto-promotion"⟩]⟩
  else if scope = .globalAdvisory ∨ scope = .projectClass then
    some ⟨.readyForHumanReview, ["scope " ++ scope.text ++ " requires review"],
      [⟨.overgeneralizedScope, .warning, "Scope " ++ scope.text ++ " requires human review"⟩]⟩
  else if policy.requiresHumanReviewForScopeClasses.contains scope then
    some ⟨.readyForHumanReview, ["policy requires review for " ++ scope.text], []⟩
  else none

/-- An open hard contradiction that counts against the candidate. -/
def countsAgainst (c : PrecedentContradictionRecord) : Bool :=
  c.classification = .hardContradiction && c.resolutionStatus = .open &&
    (c.candidateIds.contains candidate.learningCandidateId || 0 < c.precedentIds.length)

/-- The check of the open contradictions. -/
def assessContradictions (policy : PrecedentPromotionPolicy)
    (openContradictions : List PrecedentContradictionRecord) : Option PromotionReadinessResult :=
  let hard := openContradictions.filter (countsAgainst candidate)
  if policy.requireNoUnresolvedContradictions ∧ 0 < hard.length then
    some ⟨.contradicted, ["hard contradiction"],
      [⟨.contradicted, .blocking, "Unresolved hard contradiction"⟩]⟩
  else none

/-- The checks that decide between a review and a promotion without one. -/
def assessRisk (policy : PrecedentPromotionPolicy) : PromotionReadinessResult :=
  if policy.maximumRiskClassForAutoPromotion.rank < candidate.riskClass.rank then
    ⟨.readyForHumanReview,
      ["risk " ++ candidate.riskClass.text ++ " exceeds auto-promote max"], []⟩
  else if candidate.riskClass = .high ∨ candidate.riskClass = .critical then
    ⟨.readyForHumanReview, ["high/critical risk"], []⟩
  else if candidate.candidateType = .securityPattern then
    ⟨.readyForHumanReview, ["security pattern requires review"], []⟩
  else if candidate.origin ≠ .deterministicExtraction then
    ⟨.readyForHumanReview, ["MODEL_SUGGESTION requires human review"],
      [⟨.weakProvenance, .warning, "MODEL_SUGGESTION is not auto-promotable; " ++
        "valid provenance is not claim grounding"⟩]⟩
  else if !policy.allowAutoPromotion then
    ⟨.readyForHumanReview, ["auto-promotion disabled"], []⟩
  else if candidate.applicabilityProposal.scopeClass = .projectLocal ∧
      candidate.riskClass.rank ≤ RiskClass.low.rank ∧
      candidate.sourceOutcome ∈ [.verifiedSuccess, .verificationFailed, .contained, .inconclusive,
        .partialSuccess] then
    ⟨.readyForAutoPromotion, [], []⟩
  else ⟨.readyForHumanReview, ["conservative default: human review"], []⟩

/-- `PrecedentPromotionReadinessService.assess`. -/
def assess (historicalRun : Option HistoricalRunRecord) (evidence : Option (List String))
    (policy : PrecedentPromotionPolicy) (openContradictions : List PrecedentContradictionRecord)
    (verification : Option OutcomeVerificationRecord)
    (resourceLedger : Option (List (String × ObservedValue))) : PromotionReadinessResult :=
  match historicalRun with
  | none =>
    ⟨.invalidProvenance, ["missing historical run"],
      [⟨.weakProvenance, .blocking, "Missing source historical run record"⟩]⟩
  | some run =>
    ((assessProvenance X candidate run).or <|
      (assessEvidence candidate evidence policy).or <|
      (assessType candidate policy).or <|
      (assessGrounding
        (ground candidate.claim historicalRun verification resourceLedger)).or <|
      (assessScope candidate policy).or <|
      assessContradictions candidate policy openContradictions).getD
        (assessRisk candidate policy)

/-- The readiness by which `tryAutoPromote` decides. -/
def autoPromotionReadiness (policy : PrecedentPromotionPolicy) (s : MemoryStores) :
    PromotionReadinessResult :=
  let historicalRun := s.historicalRuns.get candidate.sourceHistoricalRunRecordId
  assess X candidate historicalRun s.evidence policy s.contradictions.listOpen
    (s.loadVerification historicalRun) none

end

end Orchestrator.Memory
