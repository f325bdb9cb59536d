import Orchestrator.Collections.JsMap
import Orchestrator.Domain.PlanHasher
import Orchestrator.Domain.Run

/-!
# The records of the memory

What is learned from a run: claims, the candidates that make them, and the precedents that
candidates become.

* `LearningClaim`, `ClaimGroundingResult`: a claim, and how far records bear it out;
* `LearningCandidate`, `PromotedPrecedent`: what carries a claim;
* `PrecedentContradictionRecord`: that a candidate contradicts precedents;
* `provenanceHash`, `candidateHash`, `precedentHash`: their hashes.

Times are left out: no decision of the memory reads one.
-/

namespace Orchestrator.Memory

open Collections Numbers

/-- What the memory uses of `node:crypto` and of the language's own strings. -/
structure MemoryExternal where
  /-- The hex SHA-256 digest of a UTF-8 string. -/
  sha256 : String → String
  /-- `a.localeCompare(b) <= 0`. -/
  localeLe : String → String → Bool
  /-- `s.toLowerCase()`. -/
  toLowerCase : String → String

/-! ## Classifications -/

/-- `HistoricalOutcomeSchema`. -/
inductive HistoricalOutcome where
  | verifiedSuccess
  | partialSuccess
  | verificationFailed
  | inconclusive
  | contained
  | blocked
  | rejected
  | expired
  | escalated
  deriving DecidableEq, Repr

def HistoricalOutcome.text : HistoricalOutcome → String
  | verifiedSuccess => "VERIFIED_SUCCESS"
  | partialSuccess => "PARTIAL_SUCCESS"
  | verificationFailed => "VERIFICATION_FAILED"
  | inconclusive => "INCONCLUSIVE"
  | contained => "CONTAINED"
  | blocked => "BLOCKED"
  | rejected => "REJECTED"
  | expired => "EXPIRED"
  | escalated => "ESCALATED"

/-- `LearningCandidateTypeSchema`. -/
inductive LearningCandidateType where
  | successPattern
  | failurePattern
  | containmentPattern
  | resourcePattern
  | verificationPattern
  | dependencyPattern
  | securityPattern
  | processPattern
  | evidenceGapPattern
  deriving DecidableEq, Repr

def LearningCandidateType.text : LearningCandidateType → String
  | successPattern => "SUCCESS_PATTERN"
  | failurePattern => "FAILURE_PATTERN"
  | containmentPattern => "CONTAINMENT_PATTERN"
  | resourcePattern => "RESOURCE_PATTERN"
  | verificationPattern => "VERIFICATION_PATTERN"
  | dependencyPattern => "DEPENDENCY_PATTERN"
  | securityPattern => "SECURITY_PATTERN"
  | processPattern => "PROCESS_PATTERN"
  | evidenceGapPattern => "EVIDENCE_GAP_PATTERN"

/-- `CandidateOriginSchema`. -/
inductive CandidateOrigin where
  | deterministicExtraction
  | modelSuggestion
  deriving DecidableEq, Repr

def CandidateOrigin.text : CandidateOrigin → String
  | deterministicExtraction => "DETERMINISTIC_EXTRACTION"
  | modelSuggestion => "MODEL_SUGGESTION"

/-- `ClaimGroundingVerdictSchema`. -/
inductive ClaimGroundingVerdict where
  | deterministicallyGrounded
  | partiallyGrounded
  | ungrounded
  | requiresHumanReview
  deriving DecidableEq, Repr

def ClaimGroundingVerdict.text : ClaimGroundingVerdict → String
  | deterministicallyGrounded => "DETERMINISTICALLY_GROUNDED"
  | partiallyGrounded => "PARTIALLY_GROUNDED"
  | ungrounded => "UNGROUNDED"
  | requiresHumanReview => "REQUIRES_HUMAN_REVIEW"

/-- `ClaimPolaritySchema`. -/
inductive ClaimPolarity where
  | positive
  | negative
  | uncertain
  | process
  deriving DecidableEq, Repr

def ClaimPolarity.text : ClaimPolarity → String
  | positive => "POSITIVE"
  | negative => "NEGATIVE"
  | uncertain => "UNCERTAIN"
  | process => "PROCESS"

/-- `ScopeClassSchema`. -/
inductive ScopeClass where
  | runLocal
  | projectLocal
  | projectClass
  | globalAdvisory
  deriving DecidableEq, Repr

def ScopeClass.text : ScopeClass → String
  | runLocal => "RUN_LOCAL"
  | projectLocal => "PROJECT_LOCAL"
  | projectClass => "PROJECT_CLASS"
  | globalAdvisory => "GLOBAL_ADVISORY"

/-- `RiskClassSchema`. -/
inductive RiskClass where
  | low
  | medium
  | high
  | critical
  deriving DecidableEq, Repr

def RiskClass.text : RiskClass → String
  | low => "LOW"
  | medium => "MEDIUM"
  | high => "HIGH"
  | critical => "CRITICAL"

/-- `RISK_ORDER.indexOf(risk)`. -/
def RiskClass.rank : RiskClass → ℕ
  | low => 0
  | medium => 1
  | high => 2
  | critical => 3

/-- `ConfidenceClassSchema`. -/
inductive ConfidenceClass where
  | low
  | medium
  | high
  deriving DecidableEq, Repr

def ConfidenceClass.text : ConfidenceClass → String
  | low => "LOW"
  | medium => "MEDIUM"
  | high => "HIGH"

/-- `LearningCandidateStatusSchema`. -/
inductive LearningCandidateStatus where
  | observed
  | candidate
  | promoted
  | rejected
  | superseded
  | retired
  deriving DecidableEq, Repr

/-- `PrecedentTrustClassSchema`. -/
inductive PrecedentTrustClass where
  | evidenceBackedLocal
  | humanReviewed
  | multiRunCorroborated
  deriving DecidableEq, Repr

def PrecedentTrustClass.text : PrecedentTrustClass → String
  | evidenceBackedLocal => "EVIDENCE_BACKED_LOCAL"
  | humanReviewed => "HUMAN_REVIEWED"
  | multiRunCorroborated => "MULTI_RUN_CORROBORATED"

/-- `PrecedentStatusSchema`. -/
inductive PrecedentStatus where
  | active
  | superseded
  | retired
  deriving DecidableEq, Repr

def PrecedentStatus.text : PrecedentStatus → String
  | active => "ACTIVE"
  | superseded => "SUPERSEDED"
  | retired => "RETIRED"

/-- `PrecedentPromotionMethodSchema`. -/
inductive PromotionMethod where
  | autoPromote
  | humanReview
  deriving DecidableEq, Repr

def PromotionMethod.text : PromotionMethod → String
  | autoPromote => "AUTO_PROMOTE"
  | humanReview => "HUMAN_REVIEW"

/-! ## Claims -/

/-- A value of a resource observation. -/
inductive ObservedValue where
  | string (s : String)
  | number (n : JsNumber)
  | bool (b : Bool)
  deriving DecidableEq

/-- `a === b`. -/
def ObservedValue.strictEquals : ObservedValue → ObservedValue → Bool
  | string s, string s' => s = s'
  | number n, number n' => n ≠ .nan && n.unsignedZero = n'.unsignedZero
  | bool b, bool b' => b = b'
  | _, _ => false

def ObservedValue.toValue : ObservedValue → JsValue
  | string s => .string s
  | number n => .number n
  | bool b => .bool b

structure LearningClaim where
  candidateType : LearningCandidateType
  observedOutcome : HistoricalOutcome
  polarity : ClaimPolarity
  planHash : Option String := none
  actionTypes : List String := []
  capabilityIds : List String := []
  verificationMethods : List String := []
  criterionIds : List String := []
  criterionVerdicts : List String := []
  findingIds : List String := []
  evidenceRefs : List String := []
  containmentReason : Option String := none
  resourceObservation : Option (List (String × ObservedValue)) := none
  deriving DecidableEq

structure ClaimGroundingResult where
  verdict : ClaimGroundingVerdict
  reasons : List String
  matchedFactKeys : List String := []
  deriving DecidableEq

/-! ## Candidates and precedents -/

structure PrecedentApplicability where
  scopeClass : ScopeClass
  projectIds : List String
  objectiveClasses : List String := []
  repositoryCharacteristics : List String := []
  actionTypes : List String := []
  capabilityIds : List String := []
  environments : List String := []
  executionModes : List String := []
  riskClasses : List RiskClass := [.low]
  outcomeTypes : List String := []
  policyBundleCompatibility : List String := []
  technologyTags : List String := []
  deriving DecidableEq

structure PrecedentProvenance where
  sourceHistoricalRunRecordId : String
  runId : String
  planHash : Option String := none
  outcomeVerificationId : Option String := none
  outcome : HistoricalOutcome
  repositoryFingerprint : Option String := none
  policyBundleHash : Option String := none
  capabilitySetFingerprint : Option String := none
  supportingEvidenceRefs : List String := []
  supportingFindingRefs : List String := []
  provenanceHash : String
  deriving DecidableEq

structure LearningCandidate where
  learningCandidateId : String
  sourceHistoricalRunRecordId : String
  projectId : String
  candidateType : LearningCandidateType
  origin : CandidateOrigin
  claim : LearningClaim
  grounding : ClaimGroundingResult
  statement : String
  applicabilityProposal : PrecedentApplicability
  provenance : PrecedentProvenance
  supportingEvidenceRefs : List String := []
  supportingFindingRefs : List String := []
  sourceOutcome : HistoricalOutcome
  confidenceClass : ConfidenceClass := .medium
  riskClass : RiskClass := .low
  candidateHash : String
  status : LearningCandidateStatus := .candidate
  containsAuthorityLikeLanguage : Bool := false
  deriving DecidableEq

structure PromotedPrecedent where
  precedentId : String
  version : ℕ
  candidateId : String
  candidateHash : String
  projectId : String
  candidateType : LearningCandidateType
  origin : CandidateOrigin
  claim : LearningClaim
  grounding : ClaimGroundingResult
  statement : String
  applicability : PrecedentApplicability
  provenance : PrecedentProvenance
  sourceOutcome : HistoricalOutcome
  trustClass : PrecedentTrustClass
  promotionMethod : PromotionMethod
  promotionDecisionId : Option String := none
  supersedesPrecedentIds : List String := []
  precedentHash : String
  status : PrecedentStatus
  deriving DecidableEq

/-! ## Contradictions -/

/-- `ContradictionClassificationSchema`. -/
inductive ContradictionClassification where
  | noContradiction
  | potentialContradiction
  | hardContradiction
  deriving DecidableEq, Repr

/-- `ContradictionResolutionStatusSchema`. -/
inductive ContradictionResolutionStatus where
  | open
  | resolvedBySupersession
  | resolvedByScopeNarrowing
  | acceptedContextualDifference
  deriving DecidableEq, Repr

structure PrecedentContradictionRecord where
  contradictionId : String
  precedentIds : List String
  candidateIds : List String
  classification : ContradictionClassification
  resolutionStatus : ContradictionResolutionStatus
  deriving DecidableEq

/-! ## Runs and their verification -/

structure HistoricalRunRecord where
  historicalRunRecordId : String
  runId : String
  projectId : String
  planHash : Option String := none
  outcomeVerificationId : Option String := none
  outcome : HistoricalOutcome
  actionTypes : List String := []
  capabilityIds : List String := []
  deriving DecidableEq

/-- A criterion result of an `OutcomeVerificationRecord`. -/
structure VerifiedCriterion where
  criterionId : String
  verdict : CriterionVerdict
  verificationMethod : Option String
  deriving DecidableEq

/-- `OutcomeVerificationRecord`, the part that claims are about; a finding is its id. -/
structure OutcomeVerificationRecord where
  verificationId : String
  criterionResults : List VerifiedCriterion
  findingIds : List String
  deriving DecidableEq

/-! ## Hashes -/

/-- `hashCanonical`. What is undefined is not written anyway. -/
def MemoryExternal.hashCanonical (X : MemoryExternal) (fields : List (String × JsValue)) : String :=
  X.sha256 ((canonicalizeValue (.object fields)).stringify.getD "")

def jsStrings (xs : List String) : JsValue := .array (xs.map .string)

/-- `[...xs].sort()`. -/
def sortedValues (xs : List String) : JsValue := jsStrings (xs.insertionSort UpTo)

/-- `value ?? null`. -/
def stringOrNull : Option String → JsValue
  | some s => .string s
  | none => .null

/-- `ProvenanceHasher.hash`. -/
def provenanceHash (X : MemoryExternal) (p : PrecedentProvenance) : String :=
  X.hashCanonical [
    ("sourceHistoricalRunRecordId", .string p.sourceHistoricalRunRecordId),
    ("runId", .string p.runId),
    ("planHash", stringOrNull p.planHash),
    ("outcomeVerificationId", stringOrNull p.outcomeVerificationId),
    ("outcome", .string p.outcome.text),
    ("repositoryFingerprint", stringOrNull p.repositoryFingerprint),
    ("policyBundleHash", stringOrNull p.policyBundleHash),
    ("capabilitySetFingerprint", stringOrNull p.capabilitySetFingerprint),
    ("supportingEvidenceRefs", sortedValues p.supportingEvidenceRefs),
    ("supportingFindingRefs", sortedValues p.supportingFindingRefs)]

/-- The hash kept in a provenance is not hashed. -/
theorem provenanceHash_stored (X : MemoryExternal) (p : PrecedentProvenance) (hash : String) :
    provenanceHash X { p with provenanceHash := hash } = provenanceHash X p :=
  rfl

/-- `value.resourceObservation ?? null`. -/
def observationOrNull : Option (List (String × ObservedValue)) → JsValue
  | some fields => .object (fields.map fun f => (f.1, f.2.toValue))
  | none => .null

/-- The claim as the hashers of candidates and precedents write it. -/
def LearningClaim.toValue (c : LearningClaim) : JsValue := .object [
  ("candidateType", .string c.candidateType.text),
  ("observedOutcome", .string c.observedOutcome.text),
  ("polarity", .string c.polarity.text),
  ("planHash", stringOrNull c.planHash),
  ("actionTypes", sortedValues c.actionTypes),
  ("capabilityIds", sortedValues c.capabilityIds),
  ("verificationMethods", sortedValues c.verificationMethods),
  ("criterionIds", sortedValues c.criterionIds),
  ("criterionVerdicts", sortedValues c.criterionVerdicts),
  ("findingIds", sortedValues c.findingIds),
  ("evidenceRefs", sortedValues c.evidenceRefs),
  ("containmentReason", stringOrNull c.containmentReason),
  ("resourceObservation", observationOrNull c.resourceObservation)]

def PrecedentApplicability.toValue (a : PrecedentApplicability) : JsValue := .object [
  ("scopeClass", .string a.scopeClass.text),
  ("projectIds", jsStrings a.projectIds),
  ("objectiveClasses", jsStrings a.objectiveClasses),
  ("repositoryCharacteristics", jsStrings a.repositoryCharacteristics),
  ("actionTypes", jsStrings a.actionTypes),
  ("capabilityIds", jsStrings a.capabilityIds),
  ("environments", jsStrings a.environments),
  ("executionModes", jsStrings a.executionModes),
  ("riskClasses", jsStrings (a.riskClasses.map RiskClass.text)),
  ("outcomeTypes", jsStrings a.outcomeTypes),
  ("policyBundleCompatibility", jsStrings a.policyBundleCompatibility),
  ("technologyTags", jsStrings a.technologyTags)]

/-- `CandidateHasher.hash`. -/
def candidateHash (X : MemoryExternal) (c : LearningCandidate) : String :=
  X.hashCanonical [
    ("learningCandidateId", .string c.learningCandidateId),
    ("sourceHistoricalRunRecordId", .string c.sourceHistoricalRunRecordId),
    ("projectId", .string c.projectId),
    ("candidateType", .string c.candidateType.text),
    ("origin", .string c.origin.text),
    ("claim", c.claim.toValue),
    ("statement", .string c.statement),
    ("applicabilityProposal", c.applicabilityProposal.toValue),
    ("provenanceHash", .string c.provenance.provenanceHash),
    ("supportingEvidenceRefs", sortedValues c.supportingEvidenceRefs),
    ("supportingFindingRefs", sortedValues c.supportingFindingRefs),
    ("sourceOutcome", .string c.sourceOutcome.text),
    ("confidenceClass", .string c.confidenceClass.text),
    ("riskClass", .string c.riskClass.text),
    ("containsAuthorityLikeLanguage", .bool c.containsAuthorityLikeLanguage)]

/-- The hash kept in a candidate is not hashed. -/
theorem candidateHash_stored (X : MemoryExternal) (c : LearningCandidate) (hash : String) :
    candidateHash X { c with candidateHash := hash } = candidateHash X c :=
  rfl

/-- The number of a version, in a hash. -/
def versionNumber (n : ℕ) : JsValue := .number (JsNumber.round false n)

/-- `PrecedentHasher.hash`. -/
def precedentHash (X : MemoryExternal) (p : PromotedPrecedent) : String :=
  X.hashCanonical [
    ("precedentId", .string p.precedentId),
    ("version", versionNumber p.version),
    ("candidateId", .string p.candidateId),
    ("candidateHash", .string p.candidateHash),
    ("projectId", .string p.projectId),
    ("candidateType", .string p.candidateType.text),
    ("origin", .string p.origin.text),
    ("claim", p.claim.toValue),
    ("groundingVerdict", .string p.grounding.verdict.text),
    ("groundingReasons", sortedValues p.grounding.reasons),
    ("groundingMatchedFactKeys", sortedValues p.grounding.matchedFactKeys),
    ("statement", .string p.statement),
    ("applicability", p.applicability.toValue),
    ("provenanceHash", .string p.provenance.provenanceHash),
    ("sourceOutcome", .string p.sourceOutcome.text),
    ("trustClass", .string p.trustClass.text),
    ("promotionMethod", .string p.promotionMethod.text),
    ("promotionDecisionId", stringOrNull p.promotionDecisionId),
    ("supersedesPrecedentIds", sortedValues p.supersedesPrecedentIds)]

end Orchestrator.Memory
