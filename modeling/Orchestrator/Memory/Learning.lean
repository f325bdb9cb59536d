import Orchestrator.Memory.World

/-!
# Learning and promotion

How candidates become precedents: by themselves when a run is learned from, or by a review.

* `detectForCandidate`: the contradictions of a candidate;
* `promoteWithinTransaction`, `tryAutoPromote`, `applyHumanDecision`: the promotion service;
* `learn`, `reviewCandidate`: the calls of the memory service.
-/

namespace Orchestrator.Memory

open Atomic Collections

variable (X : MemoryExternal) (policy : PrecedentPromotionPolicy)

/-! ## Contradictions -/

/-- `claimIdentityKey`. -/
def claimIdentityKey (c : LearningClaim) : String :=
  X.hashCanonical [
    ("candidateType", .string c.candidateType.text),
    ("observedOutcome", .string c.observedOutcome.text),
    ("polarity", .string c.polarity.text),
    ("planHash", stringOrNull c.planHash),
    ("actionTypes", sortedValues c.actionTypes),
    ("capabilityIds", sortedValues c.capabilityIds),
    ("verificationMethods", sortedValues c.verificationMethods),
    ("criterionIds", sortedValues c.criterionIds),
    ("criterionVerdicts", sortedValues c.criterionVerdicts),
    ("findingIds", sortedValues c.findingIds),
    ("containmentReason", stringOrNull c.containmentReason),
    ("resourceObservation", observationOrNull c.resourceObservation)]

/-- Two lists of what something is for overlap; an empty one is for everything. -/
def overlaps (xs ys : List String) : Bool := xs.isEmpty || ys.isEmpty || xs.any ys.contains

def applicabilityOverlaps (candidate : LearningCandidate) (p : PromotedPrecedent) : Bool :=
  let a := candidate.applicabilityProposal
  let b := p.applicability
  a.projectIds.any b.projectIds.contains && overlaps a.environments b.environments &&
    overlaps a.actionTypes b.actionTypes

def ContradictionClassification.text : ContradictionClassification → String
  | noContradiction => "NO_CONTRADICTION"
  | potentialContradiction => "POTENTIAL_CONTRADICTION"
  | hardContradiction => "HARD_CONTRADICTION"

/-- `classify`. -/
def classify (candidate : LearningCandidate) (p : PromotedPrecedent) :
    ContradictionClassification :=
  let incompatible := (candidate.claim.polarity, p.claim.polarity) ∈
    [(ClaimPolarity.positive, .negative), (.negative, .positive)]
  let actionsA := candidate.claim.actionTypes ++ candidate.applicabilityProposal.actionTypes
  let actionsB := p.claim.actionTypes ++ p.applicability.actionTypes
  let subjectOverlap := actionsA.any actionsB.contains || (actionsA.isEmpty && actionsB.isEmpty)
  if claimIdentityKey X candidate.claim = claimIdentityKey X p.claim then .noContradiction
  else if incompatible ∧ subjectOverlap then .hardContradiction
  else if incompatible then .potentialContradiction
  else .noContradiction

/-- The id under which a contradiction is recorded. -/
def contradictionIdFor (candidate : LearningCandidate) (p : PromotedPrecedent)
    (classification : ContradictionClassification) : String :=
  let digest := X.hashCanonical [
    ("candidateId", .string candidate.learningCandidateId),
    ("precedentId", .string p.precedentId),
    ("classification", .string classification.text)]
  "contradiction_" ++ String.ofList (digest.toList.take 16)

/-- One turn of the loop of `detectForCandidate`. -/
def detectForPrecedent (candidate : LearningCandidate) (p : PromotedPrecedent) :
    MemoryProg Unit := do
  let classification := classify X candidate p
  if classification = .noContradiction then
    return ()
  else
    let contradictionId := contradictionIdFor X candidate p classification
    match ← call (.getContradiction contradictionId) with
    | some _ => return ()
    | none => call (.appendContradiction {
        contradictionId := contradictionId
        precedentIds := [p.precedentId]
        candidateIds := [candidate.learningCandidateId]
        classification := classification
        resolutionStatus := .open })

/-- `PrecedentContradictionService.detectForCandidate`, less the list of what was found. -/
def detectForCandidate (candidate : LearningCandidate)
    (activePrecedents : List PromotedPrecedent) : MemoryProg Unit :=
  if candidate.grounding.verdict = .ungrounded then pure ()
  else Async.forEach (detectForPrecedent X candidate)
    (activePrecedents.filter (applicabilityOverlaps candidate))

/-! ## Promotion -/

/-- `loadVerification`. -/
def loadVerification (historicalRun : Option HistoricalRunRecord) :
    MemoryProg (Option OutcomeVerificationRecord) :=
  match historicalRun.bind (·.outcomeVerificationId) with
  | none => pure none
  | some verificationId => call (.getOutcome verificationId)

/-- The references that are there. -/
def loadEvidence : List String → MemoryProg (List String)
  | [] => pure []
  | ref :: refs => do
    let found : Bool ← call (.hasEvidence ref)
    let rest ← loadEvidence refs
    return if found then ref :: rest else rest

/-- `assess`, with the evidence it reads. -/
def assessCandidate (candidate : LearningCandidate) (historicalRun : Option HistoricalRunRecord)
    (verification : Option OutcomeVerificationRecord) : MemoryProg PromotionReadinessResult := do
  let openContradictions ← call .listOpenContradictions
  let evidence ← loadEvidence candidate.supportingEvidenceRefs
  return assess X candidate historicalRun (some evidence) policy openContradictions verification none

/-- How a candidate is promoted. -/
structure PromotionOptions where
  method : PromotionMethod
  trustClass : PrecedentTrustClass
  applicability : PrecedentApplicability
  promotionDecisionId : Option String := none

/-- The checks of the two groundings of a candidate that is promoted. -/
def checkGroundings (method : PromotionMethod) (frozen live : ClaimGroundingVerdict) :
    Except MemoryError Unit :=
  if isNeverPromotableGrounding frozen || isNeverPromotableGrounding live then
    .error .promotionGroundingInsufficient
  else
    match method with
    | .autoPromote =>
      if !isAutoPromotableGrounding frozen || !isAutoPromotableGrounding live then
        .error .promotionNotEligible
      else .ok ()
    | .humanReview =>
      if !isHumanPromotableGrounding frozen || !isHumanPromotableGrounding live ||
          isHumanPromoteBlockedByPartialGrounding frozen ||
          isHumanPromoteBlockedByPartialGrounding live then
        .error .promotionGroundingInsufficient
      else .ok ()

/-- The precedent that a candidate becomes. -/
def precedentOf (candidate : LearningCandidate) (options : PromotionOptions)
    (precedentId : String) : PromotedPrecedent :=
  let draft : PromotedPrecedent := {
    precedentId := precedentId
    version := 1
    candidateId := candidate.learningCandidateId
    candidateHash := candidate.candidateHash
    projectId := candidate.projectId
    candidateType := candidate.candidateType
    origin := candidate.origin
    claim := candidate.claim
    grounding := candidate.grounding
    statement := candidate.statement
    applicability := options.applicability
    provenance := candidate.provenance
    sourceOutcome := candidate.sourceOutcome
    trustClass :=
      if options.method = .humanReview then .humanReviewed else options.trustClass
    promotionMethod := options.method
    promotionDecisionId := options.promotionDecisionId
    supersedesPrecedentIds := []
    precedentHash := ""
    status := .active }
  { draft with precedentHash := precedentHash X draft }

/-- The decision is bound to the candidate and its hash. -/
def PrecedentPromotionDecision.binds (decision : PrecedentPromotionDecision)
    (candidate : LearningCandidate) : Bool :=
  decision.learningCandidateId = candidate.learningCandidateId &&
    decision.candidateHash = candidate.candidateHash

/-- A decision that promotes is looked up again, and must be bound to the candidate. -/
def checkDecision (candidate : LearningCandidate) (promotionDecisionId : Option String) :
    MemoryProg Unit :=
  match promotionDecisionId with
  | none => pure ()
  | some id => do
    let bound ← call (.getDecision id)
    if bound.any (·.binds candidate) then pure () else throw .invalidPromotionDecision

/-- The precedent is active, and comes from the candidate. -/
def PromotedPrecedent.isActiveFor (p : PromotedPrecedent) (candidateId candidateHash : String) :
    Bool :=
  p.candidateId = candidateId && p.candidateHash = candidateHash && p.status = .active

/-- `promoteWithinTransaction`. -/
def promoteWithinTransaction (candidate : LearningCandidate) (options : PromotionOptions) :
    MemoryProg PromotedPrecedent := do
  if options.method = .autoPromote ∧ candidate.origin ≠ .deterministicExtraction then
    throw .promotionNotEligible
  else
    let historicalRun ← call (.getHistoricalRun candidate.sourceHistoricalRunRecordId)
    let verification ← loadVerification historicalRun
    let liveGrounding := ground candidate.claim historicalRun verification none
    Async.ofExcept
      (checkGroundings options.method candidate.grounding.verdict liveGrounding.verdict)
    checkDecision candidate options.promotionDecisionId
    let records ← call (.listPrecedents candidate.projectId)
    match records.find? (·.isActiveFor candidate.learningCandidateId candidate.candidateHash) with
    | some existing => return existing
    | none =>
      let precedentId ← call .nextPrecedentId
      let precedent := precedentOf X candidate options precedentId
      call (.appendPrecedent precedent)
      call (.updateCandidateStatus candidate.learningCandidateId .promoted)
      return precedent

/-- `tryAutoPromote`, less what it tells its caller. -/
def tryAutoPromote (candidate : LearningCandidate) : MemoryProg Unit := do
  let historicalRun ← call (.getHistoricalRun candidate.sourceHistoricalRunRecordId)
  let verification ← loadVerification historicalRun
  let readiness ← assessCandidate X policy candidate historicalRun verification
  if readiness.status = .readyForAutoPromotion then
    let _ ← promoteWithinTransaction X candidate {
      method := .autoPromote
      trustClass := .evidenceBackedLocal
      applicability := candidate.applicabilityProposal }
    return ()
  else return ()

/-! ## Reviews -/

/-- What a reviewer asks for. -/
structure ReviewInput where
  learningCandidateId : String
  reviewerId : String
  decision : PromotionDecisionKind
  approvedApplicability : Option PrecedentApplicability := none

/-- The checks of a review before anything is written. -/
def checkReview (kind : PromotionDecisionKind) (frozen live : ClaimGroundingVerdict)
    (readiness : ReadinessStatus) : Except MemoryError Unit :=
  match kind with
  | .promote =>
    if isNeverPromotableGrounding frozen || isNeverPromotableGrounding live ||
        isHumanPromoteBlockedByPartialGrounding frozen ||
        isHumanPromoteBlockedByPartialGrounding live ||
        !isHumanPromotableGrounding frozen || !isHumanPromotableGrounding live then
      .error .promotionGroundingInsufficient
    else if readiness ∈ [.invalidProvenance, .insufficientEvidence, .notEligible,
        .promotionGroundingInsufficient] then
      .error .promotionNotEligible
    else .ok ()
  | .requestNarrowerScope =>
    if isNeverPromotableGrounding frozen || isNeverPromotableGrounding live then
      .error .promotionGroundingInsufficient
    else .ok ()
  | .reject => .ok ()

/-- The writes of a review that passed its checks. -/
def recordReview (input : ReviewInput) (candidate : LearningCandidate) : MemoryProg Unit := do
  let promotionDecisionId ← call .nextPromotionDecisionId
  call (.appendDecision {
    promotionDecisionId := promotionDecisionId
    learningCandidateId := input.learningCandidateId
    candidateHash := candidate.candidateHash
    groundingVerdict := candidate.grounding.verdict
    reviewerId := input.reviewerId
    decision := input.decision
    approvedApplicability := input.approvedApplicability })
  match input.decision with
  | .reject => call (.updateCandidateStatus candidate.learningCandidateId .rejected)
  | .requestNarrowerScope => return ()
  | .promote =>
    let _ ← promoteWithinTransaction X candidate {
      method := .humanReview
      trustClass := .humanReviewed
      applicability := input.approvedApplicability.getD candidate.applicabilityProposal
      promotionDecisionId := some promotionDecisionId }
    return ()

/-- `applyHumanDecision`, less what it tells its caller. -/
def applyHumanDecision (input : ReviewInput) : MemoryProg Unit := do
  match ← call (.getCandidate input.learningCandidateId) with
  | none => throw .candidateNotFound
  | some candidate =>
    let historicalRun ← call (.getHistoricalRun candidate.sourceHistoricalRunRecordId)
    let verification ← loadVerification historicalRun
    let liveGrounding := ground candidate.claim historicalRun verification none
    let readiness ← assessCandidate X policy candidate historicalRun verification
    Async.ofExcept (checkReview input.decision candidate.grounding.verdict liveGrounding.verdict
      readiness.status)
    recordReview X input candidate

/-- `reviewCandidate`. -/
def reviewCandidate (input : ReviewInput) : MemoryProg Unit := applyHumanDecision X policy input

/-! ## Learning -/

/-- A candidate as it is extracted. -/
def extracted (draft : LearningCandidate) : LearningCandidate := { draft with status := .candidate }

/-- The candidates as they are stored, each id once. -/
def persistCandidates : List LearningCandidate → List LearningCandidate →
    MemoryProg (List LearningCandidate)
  | [], persisted => pure persisted
  | candidate :: candidates, persisted => do
    let saved : LearningCandidate ← call (.appendCandidate candidate)
    persistCandidates candidates
      (if persisted.any fun p => p.learningCandidateId = saved.learningCandidateId then persisted
        else persisted ++ [saved])

/-- One turn of the loop of `learn` over the stored candidates. -/
def learnCandidate (activePrecedents : List PromotedPrecedent) (candidate : LearningCandidate) :
    MemoryProg Unit := do
  if candidate.status = .promoted ∨ candidate.status = .rejected then
    return ()
  else
    detectForCandidate X candidate activePrecedents
    tryAutoPromote X policy candidate

/-- `ensureHistoricalRunRecord`, for the record that the run would get. -/
def ensureHistoricalRunRecord (record : HistoricalRunRecord) : MemoryProg HistoricalRunRecord := do
  match ← call (.findHistoricalRun record.outcomeKey) with
  | some existing => return existing
  | none => call (.appendHistoricalRun record)

/-- `learn`, behind its fence and less its result. What is extracted from the run and suggested by
the model may be any list of candidates. -/
def learn (record : HistoricalRunRecord) (drafts : List LearningCandidate) : MemoryProg Unit := do
  let historical : HistoricalRunRecord ← ensureHistoricalRunRecord record
  let persisted ← persistCandidates (drafts.map extracted) []
  let activePrecedents ← call (.listActivePrecedents historical.projectId)
  Async.forEach (learnCandidate X policy activePrecedents) persisted

end Orchestrator.Memory
