import Orchestrator.Memory.Records

/-!
# The grounding of claims

How far the records of a run bear out a claim about it, and what may be promoted.

* `ground`: the grounding of a claim, by its type;
* `isAutoPromotableGrounding` and its likes: what a verdict allows;
* `eligibleCandidateTypesForOutcome`: the types of claims an outcome supports;
* `containsAuthorityLikeLanguage`: statements that read like an authorization.
-/

namespace Orchestrator.Memory

open Collections Numbers

/-! ## Grounding -/

def isSubset (claimed actual : List String) : Bool := claimed.all actual.contains

/-- A grounding without matched facts. -/
def ungrounded (reason : String) : ClaimGroundingResult := ⟨.ungrounded, [reason], []⟩

def grounded (matchedFactKeys : List String) : ClaimGroundingResult :=
  ⟨.deterministicallyGrounded, [], matchedFactKeys⟩

def groundSuccess (claim : LearningClaim) (run : HistoricalRunRecord) (matched : List String) :
    ClaimGroundingResult :=
  if run.outcome ≠ .verifiedSuccess ∨ claim.observedOutcome ≠ .verifiedSuccess then
    ungrounded "SUCCESS_PATTERN requires VERIFIED_SUCCESS"
  else grounded matched

/-- The ids of the verified criteria, if there is a verification. -/
def knownCriteria (verification : Option OutcomeVerificationRecord) : List String :=
  match verification with
  | some v => v.criterionResults.map (·.criterionId)
  | none => []

def groundFailure (claim : LearningClaim) (run : HistoricalRunRecord)
    (verification : Option OutcomeVerificationRecord) (matched : List String) :
    ClaimGroundingResult :=
  if run.outcome ∉ [.partialSuccess, .verificationFailed, .contained, .blocked, .rejected,
      .expired, .escalated] then
    ungrounded ("FAILURE_PATTERN is not entailed by " ++ run.outcome.text)
  else if claim.findingIds ≠ [] ∧
      ¬isSubset claim.findingIds (verification.map (·.findingIds) |>.getD []) then
    ungrounded "failure claim references a finding that does not exist"
  else if claim.criterionIds ≠ [] ∧ ¬isSubset claim.criterionIds (knownCriteria verification) then
    ungrounded "failure claim references a criterion that does not exist"
  else
    grounded (matched ++ (if claim.findingIds ≠ [] then ["findingIds"] else []) ++
      if claim.criterionIds ≠ [] then ["criterionIds"] else [])

def groundContainment (claim : LearningClaim) (run : HistoricalRunRecord) (matched : List String) :
    ClaimGroundingResult :=
  if run.outcome ≠ .contained then ungrounded "CONTAINMENT_PATTERN requires CONTAINED outcome"
  else
    match claim.containmentReason with
    | none => ungrounded "containment claim missing containmentReason"
    | some reason =>
      if reason = "" then ungrounded "containment claim missing containmentReason"
      else if reason ≠ "CONTAINED" then
        ungrounded "containment reason does not match the containment record"
      else grounded (matched ++ ["containmentReason"])

def groundResource (claim : LearningClaim)
    (resourceLedger : Option (List (String × ObservedValue))) (matched : List String) :
    ClaimGroundingResult :=
  match claim.resourceObservation, resourceLedger with
  | none, _ => ungrounded "resource claim missing resourceObservation"
  | some _, none => ungrounded "resource claim has no ledger evidence"
  | some observation, some ledger =>
    match observation.find? fun f =>
        !((ledger.lookup f.1).map f.2.strictEquals).getD false with
    | some f => ungrounded ("resource observation " ++ f.1 ++ " does not match ledger evidence")
    | none => grounded (matched ++ ["resourceObservation"])

def groundVerification (claim : LearningClaim) (verification : Option OutcomeVerificationRecord)
    (matched : List String) : ClaimGroundingResult :=
  match verification with
  | none => ungrounded "verification claim missing verification record"
  | some v =>
    let methods := (v.criterionResults.filterMap (·.verificationMethod)).filter (· ≠ "")
    if claim.criterionIds ≠ [] ∧ ¬isSubset claim.criterionIds (knownCriteria verification) then
      ungrounded "verification claim references a criterion that does not exist"
    else if claim.verificationMethods ≠ [] ∧ ¬isSubset claim.verificationMethods methods then
      ungrounded "verification claim references a method that does not exist"
    else if claim.criterionIds = [] ∧ claim.verificationMethods = [] then
      ⟨.partiallyGrounded, ["verification claim has no criterion or method facts to prove"], []⟩
    else
      grounded (matched ++ (if claim.criterionIds ≠ [] then ["criterionIds"] else []) ++
        if claim.verificationMethods ≠ [] then ["verificationMethods"] else [])

def groundEvidenceGap (claim : LearningClaim) (run : HistoricalRunRecord)
    (verification : Option OutcomeVerificationRecord) (matched : List String) :
    ClaimGroundingResult :=
  if run.outcome ≠ .inconclusive then
    ungrounded "EVIDENCE_GAP_PATTERN requires INCONCLUSIVE outcome"
  else if claim.criterionIds ≠ [] ∧ ¬isSubset claim.criterionIds (knownCriteria verification) then
    ungrounded "evidence-gap claim references a criterion that does not exist"
  else grounded (matched ++ if claim.criterionIds ≠ [] then ["criterionIds"] else [])

def groundProcess (run : HistoricalRunRecord) (matched : List String) : ClaimGroundingResult :=
  if run.outcome ∉ [.blocked, .rejected, .expired, .escalated, .contained, .verifiedSuccess,
      .partialSuccess, .verificationFailed] then
    ungrounded ("PROCESS_PATTERN is not entailed by " ++ run.outcome.text)
  else grounded matched

/-- `LearningClaimGroundingService.ground`. -/
def ground (claim : LearningClaim) (historicalRun : Option HistoricalRunRecord)
    (verification : Option OutcomeVerificationRecord)
    (resourceLedger : Option (List (String × ObservedValue))) : ClaimGroundingResult :=
  match historicalRun with
  | none => ungrounded "missing historical run"
  | some run =>
    if claim.observedOutcome ≠ run.outcome then
      ungrounded ("claimed outcome " ++ claim.observedOutcome.text ++ " != historical " ++
        run.outcome.text)
    else if claim.planHash ≠ none ∧ claim.planHash ≠ run.planHash then
      ungrounded "claimed planHash is not the historical planHash"
    else if ¬isSubset claim.actionTypes run.actionTypes then
      ungrounded "hallucinated action type not present on historical run"
    else if ¬isSubset claim.capabilityIds run.capabilityIds then
      ungrounded "hallucinated capability id not present on historical run"
    else
      let matched := ["observedOutcome", "actionTypes", "capabilityIds"] ++
        if claim.planHash ≠ none then ["planHash"] else []
      match claim.candidateType with
      | .successPattern => groundSuccess claim run matched
      | .failurePattern => groundFailure claim run verification matched
      | .containmentPattern => groundContainment claim run matched
      | .resourcePattern => groundResource claim resourceLedger matched
      | .verificationPattern => groundVerification claim verification matched
      | .evidenceGapPattern => groundEvidenceGap claim run verification matched
      | .processPattern => groundProcess run matched
      | .securityPattern =>
        ⟨.requiresHumanReview, ["security claims require human review"], matched⟩
      | .dependencyPattern =>
        ⟨.partiallyGrounded,
          ["dependency claims are only partially entailed by historical action indexes"], matched⟩

/-! ## What a verdict allows -/

def isAutoPromotableGrounding (verdict : ClaimGroundingVerdict) : Bool :=
  verdict = .deterministicallyGrounded

def isHumanPromotableGrounding (verdict : ClaimGroundingVerdict) : Bool :=
  verdict = .deterministicallyGrounded || verdict = .requiresHumanReview

def isNeverPromotableGrounding (verdict : ClaimGroundingVerdict) : Bool := verdict = .ungrounded

def isHumanPromoteBlockedByPartialGrounding (verdict : ClaimGroundingVerdict) : Bool :=
  verdict = .partiallyGrounded

/-! ## Types and statements -/

def eligibleCandidateTypesForOutcome : HistoricalOutcome → List LearningCandidateType
  | .verifiedSuccess =>
    [.successPattern, .resourcePattern, .verificationPattern, .dependencyPattern, .processPattern]
  | .partialSuccess =>
    [.failurePattern, .verificationPattern, .processPattern, .resourcePattern, .evidenceGapPattern]
  | .verificationFailed =>
    [.failurePattern, .verificationPattern, .securityPattern, .processPattern]
  | .contained => [.containmentPattern, .failurePattern, .securityPattern, .processPattern]
  | .inconclusive => [.evidenceGapPattern, .verificationPattern]
  | .blocked | .rejected | .expired | .escalated => [.processPattern, .failurePattern]

def isCandidateTypeEligibleForOutcome (candidateType : LearningCandidateType)
    (outcome : HistoricalOutcome) : Bool :=
  (eligibleCandidateTypesForOutcome outcome).contains candidateType

/-- `\w`. -/
def isWordChar (c : Char) : Bool := c.isAlphanum || c = '_'

/-- `\b`, between what was read last and what comes next. -/
def isWordBoundary (last : Option Char) (text : List Char) : Bool :=
  (last.any isWordChar) != (text.head?.any isWordChar)

/-- The rest of a text after a word, in any case. -/
def afterWord (word : List Char) (text : List Char) : Option (List Char) :=
  if (text.take word.length).map Char.toLower = word then some (text.drop word.length) else none

/-- The pattern of words, each one of several, with `\s+` between them and `\b` at the end. -/
def matchesWords : List (List String) → Option Char → List Char → Bool
  | [], last, text => isWordBoundary last text
  | words :: pattern, _, text => words.any fun word =>
    match afterWord word.toList text with
    | none => false
    | some rest =>
      if pattern = [] then matchesWords pattern word.toList.getLast? rest
      else rest.head?.any isWhiteSpace &&
        matchesWords pattern (some ' ') (rest.dropWhile isWhiteSpace)

/-- `pattern.test(text)`, where the pattern starts with `\b`. -/
def testPattern (pattern : List (List String)) : Option Char → List Char → Bool
  | last, [] => isWordBoundary last [] && matchesWords pattern last []
  | last, c :: cs =>
    (isWordBoundary last (c :: cs) && matchesWords pattern last (c :: cs)) ||
      testPattern pattern (some c) cs

/-- `AUTHORITY_LIKE_PATTERNS`. -/
def authorityLikePatterns : List (List (List String)) := [
  [["always"], ["deploy"], ["without"], ["approval"]],
  [["policy"], ["can"], ["be"], ["ignored"]],
  [["budget"], ["may"], ["be"], ["exceeded"]],
  [["without"], ["approval"]],
  [["ignore"], ["policy"]],
  [["bypass"], ["policy", "approval", "budget", "capability"]],
  [["grant"], ["capability"]],
  [["authorize"], ["execution"]]]

def containsAuthorityLikeLanguage (statement : String) : Bool :=
  authorityLikePatterns.any fun pattern => testPattern pattern none statement.toList

example : containsAuthorityLikeLanguage "Please BYPASS  budget." = true := by decide

end Orchestrator.Memory
