import Orchestrator.Authorization.World
import Orchestrator.Domain.Objective

/-!
# Human authorization

The services that route a run to a human, decide its approval request, replace a request that cannot
be decided any more, and expire requests.

* `decide`: `HumanAuthorizationService.decide`;
* `route`: `AuthorizationRoutingService.route`;
* `reissueApprovalRequest`, `recoverUnreachableApprovalDelivery`: replacements;
* `expireDueRequests`: `ApprovalExpiryService.expireDueRequests`;
* `authorizationPool`: any number of calls of these at work on the same repositories.
-/

namespace Orchestrator.Authorization

open Atomic Collections

/-! ## Results -/

inductive AuthorizationResultKind where
  | approved
  | rejected
  | modificationRequested
  | expired
  | blocked
  | alreadyDecided
  | pendingApproval
  deriving DecidableEq, Repr

structure AuthorizationResult where
  runId : String
  approvalRequestId : String
  planId : String
  planVersion : ℕ
  planHash : String
  result : AuthorizationResultKind
  authorizationRecordId : Option String
  requiresFurtherAction : Bool
  runState : RunState
  modificationRequestId : Option String
  deriving DecidableEq, Repr

inductive RoutingOutcomeKind where
  | blocked
  | pendingApproval
  | alreadyRouted
  deriving DecidableEq, Repr

structure AuthorizationRoutingOutcome where
  outcome : RoutingOutcomeKind
  runId : String
  planId : String
  planVersion : ℕ
  planHash : String
  validationDecisionId : String
  approvalRequestId : Option String
  decisionCardHash : Option String
  runState : RunState
  replacesApprovalRequestId : Option String
  deriving DecidableEq, Repr

structure ApprovalReissueResult where
  runId : String
  replacedApprovalRequestId : String
  approvalRequestId : String
  decisionCardHash : String
  planId : String
  planVersion : ℕ
  planHash : String
  deriving DecidableEq, Repr

/-- `ApprovalDeliveryRecoveryResult`; `reissued` says whether this call made the replacement. -/
structure ApprovalDeliveryRecoveryResult where
  reissued : Bool
  runId : String
  originalApprovalRequestId : String
  replacementApprovalRequestId : String
  deriving DecidableEq, Repr

/-- The result that names a request. -/
def resultOf (request : ApprovalRequest) (result : AuthorizationResultKind)
    (authorizationRecordId : Option String) (requiresFurtherAction : Bool) (runState : RunState)
    (modificationRequestId : Option String) : AuthorizationResult :=
  { runId := request.runId
    approvalRequestId := request.approvalRequestId
    planId := request.planId
    planVersion := request.planVersion
    planHash := request.planHash
    result, authorizationRecordId, requiresFurtherAction, runState, modificationRequestId }

/-! ## Checks -/

/-- Throws unless the condition holds. -/
def require (holds : Bool) (code : AuthorizationErrorCode) (message : String) :
    AuthorizationAsync Unit :=
  if holds then Async.pure () else Async.throw (.authorization code message)

/-- Throws where there is nothing. -/
def orThrow {α : Type} (found : Option α) (code : AuthorizationErrorCode) (message : String) :
    AuthorizationAsync α :=
  match found with
  | some a => Async.pure a
  | none => Async.throw (.authorization code message)

def isExpired (expiresAt nowIso : ℕ) : Bool := nowIso ≥ expiresAt

/-- `assertTransition`, in an async function. -/
def assertRunTransition (current requested : RunState) : AuthorizationAsync Unit :=
  Async.ofExcept ((assertTransition current requested).mapError .other)

def commitRunTransition (run : RunRecord) (next : RunState) (updatedAt : ℕ) :
    AuthorizationAsync Unit := do
  assertRunTransition run.state next
  let _ ← (AuthorizationOp.transition run next updatedAt).await
  return ()

def assertValidationApprovalEligible (decision : ValidationDecision) : AuthorizationAsync Unit := do
  require (decision.decision = .pass ∨ decision.decision = .humanApprovalRequired)
    .validationNotApprovalEligible
    s!"Validation decision {decision.decision.text} cannot be approved"
  require (nonApprovalEligibleBlockingFindings decision.findings = [])
    .validationNotApprovalEligible
    "Validation decision has unresolved blocking findings that are not approval-eligible"

def assertBoundValidationApprovalEligible (request : ApprovalRequest) :
    AuthorizationAsync Unit := do
  let validation ← orThrow (← (AuthorizationOp.getDecision request.validationDecisionId).await)
    .authorizationBindingMismatch "Validation decision binding no longer matches"
  require (validation.runId = request.runId ∧ validation.planHash = request.planHash)
    .authorizationBindingMismatch "Validation decision binding no longer matches"
  assertValidationApprovalEligible validation

/-- An approval needs the validation decision. -/
def assertEligibleToApprove (decision : HumanAuthorizationDecision) (request : ApprovalRequest) :
    AuthorizationAsync Unit :=
  if decision.decision = .approve then assertBoundValidationApprovalEligible request
  else Async.pure ()

/-- The capabilities that the plan's actions need. -/
def planCapabilities (plan : PlanUnderApproval) (available : List Capability) : List Capability :=
  uniqueCapabilitiesForPlanActions (plan.plan.steps.map (·.actionType)) available

/-- Some capability allows the action of the step. -/
def permitsStep (available : List Capability) (step : ExecutionStep) : Bool :=
  available.any fun c => step.actionType ∈ c.allowedActions

section Services

variable (deps : AuthorizationDeps)

/-- The part of `verifyBindingFreshness` about the plan. -/
def verifyPlanFreshness (request : ApprovalRequest) : AuthorizationAsync PlanUnderApproval := do
  let plan ← orThrow (← (AuthorizationOp.getPlan request.planId).await) .planSuperseded
    "Bound plan is missing or superseded"
  require (plan.status ≠ .superseded) .planSuperseded "Bound plan is missing or superseded"
  require (plan.planVersion = request.planVersion ∧ plan.planHash = request.planHash)
    .authorizationBindingMismatch "Stored plan identity does not match approval binding"
  require (deps.planHash plan = request.planHash ∧ deps.planHash plan = plan.plan.planHash)
    .authorizationBindingStale "Plan hash no longer matches the approved candidate"
  let latest ← (AuthorizationOp.getPlanByRun request.runId).await
  require (latest.all fun latest =>
      latest.planId = request.planId ∧ latest.planVersion = request.planVersion)
    .planSuperseded "A newer plan version supersedes this approval request"
  return plan

/-- The part of `verifyBindingFreshness` about the locked repository. -/
def verifyRepositoryFreshness (request : ApprovalRequest) : AuthorizationAsync Unit := do
  let lock ← orThrow (← (AuthorizationOp.getLock request.runId).await)
    .repositoryChangedDuringApproval "Repository lock is missing or INVALID"
  require (lock.status ≠ .invalid) .repositoryChangedDuringApproval
    "Repository lock is missing or INVALID"
  require (lock.status ≠ .stale) .authorizationBindingStale
    "Repository became STALE while awaiting approval"
  require (lock.commitSha = request.repositoryCommitSha) .repositoryChangedDuringApproval
    "Repository commit SHA changed during approval"

/-- The part of `verifyBindingFreshness` about the control plane. -/
def verifyAuthorityFreshness (request : ApprovalRequest) (plan : PlanUnderApproval) :
    AuthorizationAsync Unit := do
  let run ← orThrow (← (AuthorizationOp.getRun request.runId).await)
    .authorizationBindingMismatch "Run missing during approval"
  let resolved ← (AuthorizationOp.resolve run.projectId run.requestedEnvironment).await
  require (resolved.policyHash = request.policyBundleHash) .policyChangedDuringApproval
    "Active policy bundle hash changed during approval"
  let denied := plan.plan.steps.find? fun step => !permitsStep resolved.availableCapabilities step
  let actionType := (denied.map (·.actionType)).getD ""
  require denied.isNone .capabilityChangedDuringApproval
    s!"Capability for {actionType} unavailable during approval"
  require (capabilitySetFingerprint deps.external
      (planCapabilities plan resolved.availableCapabilities) = request.capabilitySetFingerprint)
    .capabilityChangedDuringApproval "Capability set fingerprint changed during approval review"

/-- The part of `verifyBindingFreshness` about the decision card. -/
def verifyCardFreshness (request : ApprovalRequest) : AuthorizationAsync Unit := do
  let card ← orThrow (← (AuthorizationOp.getCard request.approvalRequestId).await)
    .decisionCardHashMismatch "Decision card missing for approval request"
  require (deps.cardHash card = request.decisionCardHash) .decisionCardHashMismatch
    "Stored decision card does not match decisionCardHash"
  require (card.planHash = request.planHash ∧ card.planVersion = request.planVersion ∧
      card.validationDecisionId = request.validationDecisionId ∧
      card.policyBundleHash = request.policyBundleHash ∧
      card.repositoryFingerprint = request.repositoryFingerprint ∧
      card.capabilitySetFingerprint = request.capabilitySetFingerprint)
    .authorizationBindingStale "Decision card binding fields no longer match the approval request"

def verifyBindingFreshness (request : ApprovalRequest) : AuthorizationAsync Unit := do
  let plan ← verifyPlanFreshness deps request
  verifyRepositoryFreshness request
  verifyAuthorityFreshness deps request plan
  let validation ← orThrow (← (AuthorizationOp.getDecision request.validationDecisionId).await)
    .authorizationBindingMismatch "Validation decision binding no longer matches"
  require (validation.planHash = request.planHash ∧
      validation.validationDecisionId = request.validationDecisionId)
    .authorizationBindingMismatch "Validation decision binding no longer matches"
  let objective ← orThrow (← (AuthorizationOp.getObjective request.runId).await)
    .authorizationBindingMismatch "Objective binding no longer matches"
  require (objective.objectiveId = request.objectiveId ∧
      objective.objectiveVersion = request.objectiveVersion)
    .authorizationBindingMismatch "Objective binding no longer matches"
  verifyCardFreshness deps request

/-! ## Decisions -/

/-- `assertInstitutionalRequirements`, where it applies. -/
def checkInstitution (decision : HumanAuthorizationDecision) (request : ApprovalRequest) :
    AuthorizationAsync Unit :=
  if deps.institutionalGovernance = true ∧ decision.decision = .approve then do
    let run ← (AuthorizationOp.getRun request.runId).await
    match run with
    | none => return ()
    | some run =>
      let now ← AuthorizationOp.nowIso.await
      (AuthorizationOp.institutionalRequirements decision run request now).await
  else pure ()

/-- An expired request is closed, and its run expires. -/
def expireRequest (request : ApprovalRequest) (now : ℕ) :
    AuthorizationAsync (ApprovalRequest × Option RunState) := do
  let updated ← (AuthorizationOp.updateStatus request.approvalRequestId .expired
    (.because (some "APPROVAL_REQUEST_EXPIRED"))).await
  (AuthorizationOp.invalidateNonce request.approvalRequestId).await
  let run ← (AuthorizationOp.getRun request.runId).await
  match run with
  | none => return (updated, none)
  | some run =>
    if run.state = .awaitingApproval then do
      assertRunTransition run.state .expired
      commitRunTransition run .expired now
      return (updated, some .expired)
    else return (updated, some run.state)

/-- `beginDecision`. -/
def beginDecision (approvalRequestId decisionNonce : String) : AuthorizationAsync String := do
  let request ← orThrow (← (AuthorizationOp.peekDecision approvalRequestId).await)
    .approvalRequestNotFound s!"Unknown approval request: {approvalRequestId}"
  require (!request.status.isTerminal) .approvalRequestNotPending
    s!"Approval request is {request.status.text}; nonce is invalid"
  require (request.status = .pending) .approvalRequestNotPending
    s!"Approval request is {request.status.text}, expected PENDING"
  (AuthorizationOp.consumeNonce request decisionNonce).await

/-- The record of a decision on a request. -/
def decisionRecord (decision : HumanAuthorizationDecision) (request : ApprovalRequest)
    (authorizationRecordId nonceHash : String) (now : ℕ) : HumanAuthorizationRecord where
  authorizationRecordId := authorizationRecordId
  approvalRequestId := request.approvalRequestId
  runId := request.runId
  projectId := request.projectId
  objectiveId := request.objectiveId
  objectiveVersion := request.objectiveVersion
  planId := request.planId
  planVersion := request.planVersion
  planHash := request.planHash
  repositoryFingerprint := request.repositoryFingerprint
  policyBundleHash := request.policyBundleHash
  validationDecisionId := request.validationDecisionId
  approverId := decision.approverId
  decision := decision.decision
  decisionTimestamp := decision.submittedAt
  decisionCardHash := request.decisionCardHash
  capabilitySetFingerprint := request.capabilitySetFingerprint
  nonceHash := nonceHash
  createdAt := now
  note := decision.note

/-- What a decision does to the run. -/
def decidedRunState : HumanDecisionKind → RunState
  | .approve => .approved
  | .reject => .rejected
  | .requestModification => .escalated

def decidedResult : HumanDecisionKind → AuthorizationResultKind
  | .approve => .approved
  | .reject => .rejected
  | .requestModification => .modificationRequested

/-- The modification request of a decision that asks for one. -/
def saveModification (decision : HumanAuthorizationDecision) (request : ApprovalRequest) :
    AuthorizationAsync (Option String) :=
  if decision.decision = .requestModification then do
    let modificationRequestId ← AuthorizationOp.nextId.await
    (AuthorizationOp.saveModification
      { modificationRequestId
        runId := request.runId
        approvalRequestId := request.approvalRequestId
        sourcePlanId := request.planId
        sourcePlanVersion := request.planVersion
        requestedBy := decision.approverId
        requestedAt := decision.submittedAt
        modificationNote := trim (decision.note.getD "") }).await
    return some modificationRequestId
  else pure none

/-- The transaction of `decide`. -/
def settleDecision (decision : HumanAuthorizationDecision) (request : ApprovalRequest)
    (run : RunRecord) (record : HumanAuthorizationRecord) (now : ℕ) :
    AuthorizationAsync AuthorizationResult := do
  let _ ← (AuthorizationOp.append record).await
  let modificationRequestId ← saveModification decision request
  let _ ← (AuthorizationOp.updateStatus request.approvalRequestId decision.decision.status
    (.because none)).await
  assertRunTransition run.state (decidedRunState decision.decision)
  commitRunTransition run (decidedRunState decision.decision) now
  (AuthorizationOp.completeDecision request.approvalRequestId).await
  return resultOf request (decidedResult decision.decision) (some record.authorizationRecordId)
    (decide (decision.decision ≠ .approve)) (decidedRunState decision.decision)
    modificationRequestId

/-- What `decide` tries once the nonce is spent. -/
def takeDecision (decision : HumanAuthorizationDecision) (request : ApprovalRequest)
    (nonceHash : String) (now : ℕ) : AuthorizationAsync AuthorizationResult := do
  let run ← orThrow (← (AuthorizationOp.getRun request.runId).await)
    .invalidAuthorizationState "Run is not AWAITING_APPROVAL"
  require (run.state = .awaitingApproval) .invalidAuthorizationState
    "Run is not AWAITING_APPROVAL"
  let outcome ← (AuthorizationOp.authorize decision.approverId request.projectId
    run.requestedEnvironment request).await
  require (outcome ≠ .unknownApprover) .unknownApprover s!"Unknown approver: {decision.approverId}"
  require (outcome = .authorized) .approverUnauthorized
    s!"Approver {decision.approverId} is not authorized"
  verifyBindingFreshness deps request
  assertEligibleToApprove decision request
  require (decision.decision ≠ .requestModification ∨ trim (decision.note.getD "") ≠ "")
    .modificationRequestInvalid "modificationNote is required for REQUEST_MODIFICATION"
  let authorizationRecordId ← AuthorizationOp.nextId.await
  settleDecision decision request run
    (decisionRecord decision request authorizationRecordId nonceHash now) now

/-- What `decide` does with a request that has no record. -/
def decideRequest (decision : HumanAuthorizationDecision) (request : ApprovalRequest) :
    AuthorizationAsync AuthorizationResult := do
  checkInstitution deps decision request
  require (request.status ≠ .expired) .approvalRequestExpired "Approval request has expired"
  require (request.status = .pending) .approvalRequestNotPending
    s!"Approval request is {request.status.text}, expected PENDING"
  let now ← AuthorizationOp.nowIso.await
  if isExpired request.expiresAt decision.submittedAt || isExpired request.expiresAt now then do
    let _ ← expireRequest request now
    Async.throw (.authorization .approvalRequestExpired "Approval request has expired")
  else do
    assertEligibleToApprove decision request
    let nonceHash ← beginDecision request.approvalRequestId decision.decisionNonce
    tryCatch (takeDecision deps decision request nonceHash now) fun e => do
      (AuthorizationOp.failDecision request.approvalRequestId).await
      throw e

/-- `HumanAuthorizationService.decide`. -/
def decide (decision : HumanAuthorizationDecision) : AuthorizationAsync AuthorizationResult := do
  let request ← orThrow (← (AuthorizationOp.getRequest decision.approvalRequestId).await)
    .approvalRequestNotFound s!"Unknown approval request: {decision.approvalRequestId}"
  let existing ← (AuthorizationOp.getByApprovalRequest request.approvalRequestId).await
  match existing with
  | some record =>
    let run ← (AuthorizationOp.getRun request.runId).await
    return resultOf request .alreadyDecided (some record.authorizationRecordId) false
      ((run.map (·.state)).getD .awaitingApproval) none
  | none => decideRequest deps decision request

/-! ## Expiry -/

/-- The body of the loop of `expireDueRequests`. -/
def expireIfDue (now : ℕ) (request : ApprovalRequest) :
    AuthorizationAsync (Option (ApprovalRequest × AuthorizationResult)) :=
  if request.status = .pending ∧ isExpired request.expiresAt now = true then do
    let (updated, runState) ← expireRequest request now
    return some (updated, resultOf request .expired none true (runState.getD .expired) none)
  else pure none

def expireDueRequests (nowIso : Option ℕ) :
    AuthorizationAsync (List (ApprovalRequest × AuthorizationResult)) := do
  let clock ← AuthorizationOp.nowIso.await
  let all ← AuthorizationOp.listAll.await
  let expired ← Async.collect (expireIfDue (nowIso.getD clock)) all
  return expired.reduceOption

/-! ## Decision cards -/

/-- `buildApprovalDecisionCard`. -/
def buildApprovalDecisionCard (objective : BoundObjective) (plan : PlanUnderApproval)
    (decision : ValidationDecision) (resolved : ApprovalControlContext) (createdAt expiresAt : ℕ) :
    Except AuthorizationFailure ApprovalDecisionCard :=
  let unique := planCapabilities plan resolved.availableCapabilities
  if unique = [] then
    .error (.other (.error
      "Cannot build approval decision card: no capabilities permit plan actions"))
  else
    match plan.plan.steps.find? fun step => !permitsStep resolved.availableCapabilities step with
    | some step => .error (.other (.error
        s!"Cannot build approval decision card: no capability permits {step.actionType}"))
    | none => .ok
      { planHash := plan.plan.planHash
        planVersion := plan.planVersion
        validationDecisionId := decision.validationDecisionId
        policyBundleHash := plan.plan.policyBundleHash
        repositoryFingerprint := plan.plan.repositoryFingerprint
        capabilitySetFingerprint := capabilitySetFingerprint deps.external unique
        createdAt, expiresAt
        display := deps.cardDisplay objective plan decision resolved }

/-- The body of the loop of `supersedePendingForRun`. -/
def supersede (exceptRequestId : Option String) (reasonCode : String) (request : ApprovalRequest) :
    AuthorizationAsync (Option ApprovalRequest) :=
  if request.status ≠ .pending ∨ exceptRequestId = some request.approvalRequestId then pure none
  else do
    let updated ← (AuthorizationOp.updateStatus request.approvalRequestId .superseded
      (.because (some reasonCode))).await
    (AuthorizationOp.invalidateNonce request.approvalRequestId).await
    (AuthorizationOp.releaseBinding request.bindingKey request.approvalRequestId).await
    return some updated

def supersedePendingForRun (runId : String) (exceptRequestId : Option String)
    (reasonCode : String) : AuthorizationAsync (List ApprovalRequest) := do
  let list ← (AuthorizationOp.listByRun runId).await
  let superseded ← Async.collect (supersede exceptRequestId reasonCode) list
  return superseded.reduceOption

/-- A request that cannot be delivered is cancelled for good. -/
def cancelUndelivered (request : ApprovalRequest) : AuthorizationAsync Unit := do
  let now ← AuthorizationOp.nowIso.await
  let _ ← (AuthorizationOp.updateStatus request.approvalRequestId .cancelled
    ⟨some now, some "APPROVAL_DELIVERY_FAILED", some "APPROVAL_DELIVERY_FAILED"⟩).await
  (AuthorizationOp.invalidateNonce request.approvalRequestId).await

/-! ## Replacements -/

def getReissueReplacementId (replacedApprovalRequestId : String) :
    AuthorizationAsync (Option String) := do
  let mapped ← (AuthorizationOp.reissueReplacement replacedApprovalRequestId).await
  match mapped with
  | none => return none
  | some (mapped, request) =>
    if request.any (·.status = .pending) then return some mapped
    else do
      (AuthorizationOp.forgetReplacement replacedApprovalRequestId).await
      return none

/-- `beginReissue`: the replacement that there is already, or nothing, and then the claim. -/
def beginReissue (replacedApprovalRequestId : String) : AuthorizationAsync (Option String) := do
  let existing ← getReissueReplacementId replacedApprovalRequestId
  match existing with
  | some existing => return some existing
  | none =>
    let inFlight ← (AuthorizationOp.claimReissue replacedApprovalRequestId).await
    match inFlight with
    | some promise =>
      let approvalRequestId ← (AuthorizationOp.awaitReissue promise).await
      return some approvalRequestId
    | none => return none

/-- The pending request under an id. -/
def getPending (approvalRequestId : String) : AuthorizationAsync (Option ApprovalRequest) := do
  let request ← (AuthorizationOp.getRequest approvalRequestId).await
  return request.filter (·.status = .pending)

/-- The pending replacement that is known of a request. -/
def mappedReplacement (replacedApprovalRequestId : String) :
    AuthorizationAsync (Option ApprovalRequest) := do
  let mappedId ← getReissueReplacementId replacedApprovalRequestId
  match mappedId with
  | some mappedId => getPending mappedId
  | none => return none

def findLiveReplacement (runId replacedApprovalRequestId : String) :
    AuthorizationAsync (Option ApprovalRequest) := do
  let mapped ← mappedReplacement replacedApprovalRequestId
  match mapped with
  | some mapped => return some mapped
  | none =>
    let history ← (AuthorizationOp.listByRun runId).await
    return history.find? fun request =>
      request.status = .pending ∧
        request.replacesApprovalRequestId = some replacedApprovalRequestId

/-- The claim of another caller is settled: its replacement, if it is still pending. -/
def afterConcurrentReissue (runId replacedApprovalRequestId approvalRequestId : String) :
    AuthorizationAsync ApprovalRequest := do
  let already ← getPending approvalRequestId
  match already with
  | some already => return already
  | none =>
    let afterWait ← findLiveReplacement runId replacedApprovalRequestId
    orThrow afterWait .approvalReissueNotEligible
      "Concurrent reissue completed without a live replacement"

def createReplacementRequest (run : RunRecord) (replaced : ApprovalRequest) :
    AuthorizationAsync ApprovalRequest := do
  let objective ← orThrow (← (AuthorizationOp.getObjective run.runId).await)
    .authorizationBindingMismatch "Objective missing for approval reissue"
  let plan ← orThrow (← (AuthorizationOp.getPlan replaced.planId).await) .planSuperseded
    "Bound plan missing for approval reissue"
  require (plan.planVersion = replaced.planVersion ∧ plan.planHash = replaced.planHash)
    .authorizationBindingMismatch "Plan identity diverged from replaced approval request"
  let decision ← orThrow (← (AuthorizationOp.getDecisionByPlan run.runId replaced.planId
    replaced.planVersion).await) .authorizationBindingMismatch
    "Validation decision diverged from replaced approval request"
  require (decision.validationDecisionId = replaced.validationDecisionId)
    .authorizationBindingMismatch "Validation decision diverged from replaced approval request"
  assertValidationApprovalEligible decision
  let resolved ← (AuthorizationOp.resolve run.projectId run.requestedEnvironment).await
  let now ← AuthorizationOp.nowIso.await
  let expiresAt := now + deps.approvalWindowMs
  let card ← Async.ofExcept
    (buildApprovalDecisionCard deps objective plan decision resolved now expiresAt)
  let _ ← supersedePendingForRun run.runId none "APPROVAL_REISSUED"
  let nonce ← AuthorizationOp.generateNonce.await
  let approvalRequestId ← AuthorizationOp.nextId.await
  let request ← (AuthorizationOp.saveRequest
    { approvalRequestId
      runId := run.runId
      projectId := run.projectId
      objectiveId := objective.objectiveId
      objectiveVersion := objective.objectiveVersion
      planId := plan.planId
      planVersion := plan.planVersion
      planHash := plan.planHash
      repositoryCommitSha := replaced.repositoryCommitSha
      repositoryFingerprint := replaced.repositoryFingerprint
      policyBundleId := replaced.policyBundleId
      policyBundleHash := replaced.policyBundleHash
      validationDecisionId := decision.validationDecisionId
      validationDecision := decision.decision
      requestReason := replaced.requestReason
      requestedApproverIds := replaced.requestedApproverIds
      createdAt := now
      expiresAt
      status := .pending
      decisionCardHash := deps.cardHash card
      capabilitySetFingerprint := card.capabilitySetFingerprint
      decisionNonceHash := deps.hashDecisionNonce nonce
      replacesApprovalRequestId := some replaced.approvalRequestId
      deliveryFailedAt := none
      deliveryFailureCode := none
      failureReasonCode := none }).await
  (AuthorizationOp.saveCard request.approvalRequestId card).await
  tryCatch (AuthorizationOp.deliver request).await fun _ => do
    cancelUndelivered request
    Async.throw (.authorization .approvalDeliveryFailed "Replacement approval delivery failed")
  (AuthorizationOp.registerPending request.approvalRequestId request.bindingKey).await
  let refreshed ← (AuthorizationOp.getRun run.runId).await
  require (refreshed.any (·.state = .awaitingApproval)) .invalidAuthorizationState
    "Run left AWAITING_APPROVAL during approval reissue"
  return request

/-- What a claimant does once the replaced request is closed: it takes the replacement that there is
by now, or makes one. The flag says that it made one. -/
def replaceClosed (run : RunRecord) (replaced : ApprovalRequest) :
    AuthorizationAsync (ApprovalRequest × Bool) := do
  let afterCancel ← findLiveReplacement run.runId replaced.approvalRequestId
  match afterCancel with
  | some afterCancel =>
    (AuthorizationOp.completeReissue replaced.approvalRequestId afterCancel.approvalRequestId).await
    return (afterCancel, false)
  | none =>
    let live ← (AuthorizationOp.getPendingByRun run.runId).await
    match live with
    | some live =>
      require (live.replacesApprovalRequestId = some replaced.approvalRequestId)
        .approvalRequestAlreadyExists
        "A different PENDING approval request already exists for this run"
      (AuthorizationOp.completeReissue replaced.approvalRequestId live.approvalRequestId).await
      return (live, false)
    | none =>
      let created ← createReplacementRequest deps run replaced
      (AuthorizationOp.completeReissue replaced.approvalRequestId created.approvalRequestId).await
      return (created, true)

/-- A claim that fails is given up. -/
def failingReissue {α : Type} (replacedApprovalRequestId : String) (body : AuthorizationAsync α) :
    AuthorizationAsync α :=
  tryCatch body fun e => do
    (AuthorizationOp.failReissue replacedApprovalRequestId).await
    throw e

def toReissueResult (request : ApprovalRequest) (replacedApprovalRequestId : String) :
    ApprovalReissueResult where
  runId := request.runId
  replacedApprovalRequestId := replacedApprovalRequestId
  approvalRequestId := request.approvalRequestId
  decisionCardHash := request.decisionCardHash
  planId := request.planId
  planVersion := request.planVersion
  planHash := request.planHash

/-- A request whose nonce is spent is closed before it is replaced. -/
def closeSpent (replaced : ApprovalRequest) : AuthorizationAsync Unit :=
  if replaced.status = .pending then do
    let _ ← (AuthorizationOp.updateStatus replaced.approvalRequestId .cancelled
      (.because (some "APPROVAL_NONCE_CONSUMED"))).await
    (AuthorizationOp.invalidateNonce replaced.approvalRequestId).await
  else pure ()

/-- A request may be reissued: pending with a spent nonce, cancelled or superseded. -/
def assertReissueEligible (replaced : ApprovalRequest) (nonceConsumed : Bool) :
    AuthorizationAsync Unit :=
  if replaced.status = .pending then
    require nonceConsumed .approvalReissueNotEligible
      "Pending approval request still has a usable nonce; reissue not required"
  else
    require (replaced.status = .cancelled ∨ replaced.status = .superseded)
      .approvalReissueNotEligible
      s!"Cannot reissue from approval request status {replaced.status.text}"

/-- `reissueApprovalRequest`. -/
def reissueApprovalRequest (runId replacedApprovalRequestId : String) :
    AuthorizationAsync ApprovalReissueResult := do
  let run ← orThrow (← (AuthorizationOp.getRun runId).await) .invalidAuthorizationState
    "Approval reissue requires run state AWAITING_APPROVAL"
  require (run.state = .awaitingApproval) .invalidAuthorizationState
    "Approval reissue requires run state AWAITING_APPROVAL"
  let replaced ← orThrow (← (AuthorizationOp.getRequest replacedApprovalRequestId).await)
    .approvalRequestNotFound s!"Unknown approval request: {replacedApprovalRequestId}"
  require (replaced.runId = runId) .authorizationBindingMismatch
    "Replaced approval request does not belong to this run"
  let existingLive ← findLiveReplacement runId replaced.approvalRequestId
  match existingLive with
  | some existingLive => return toReissueResult existingLive replaced.approvalRequestId
  | none =>
    let nonceConsumed ← (AuthorizationOp.isNonceConsumed replaced.approvalRequestId).await
    assertReissueEligible replaced nonceConsumed
    assertBoundValidationApprovalEligible replaced
    let claim ← beginReissue replaced.approvalRequestId
    match claim with
    | some approvalRequestId =>
      let live ← afterConcurrentReissue runId replaced.approvalRequestId approvalRequestId
      return toReissueResult live replaced.approvalRequestId
    | none =>
      failingReissue replaced.approvalRequestId do
        closeSpent replaced
        let (live, _) ← replaceClosed deps run replaced
        return toReissueResult live replaced.approvalRequestId

/-- `assertUnreachableDeliveryRecoveryEligible`. -/
def assertUnreachableDeliveryRecoveryEligible (request : ApprovalRequest) :
    AuthorizationAsync Unit := do
  require (request.status ≠ .approved ∧ request.status ≠ .rejected) .approvalReissueNotEligible
    s!"Cannot reissue from approval request status {request.status.text}"
  require (request.status ≠ .expired) .approvalRequestExpired
    "Expired approval request cannot use unreachable-delivery recovery"
  require (request.status = .pending ∨ (request.status = .cancelled ∧
      request.deliveryFailureCode = some "APPROVAL_DELIVERY_FAILED")) .approvalReissueNotEligible
    s!"Cannot reissue from approval request status {request.status.text}"
  let run ← orThrow (← (AuthorizationOp.getRun request.runId).await) .invalidAuthorizationState
    s!"Run not found for approval request {request.approvalRequestId}"
  require (run.state = .awaitingApproval) .invalidAuthorizationState
    "Approval reissue requires run state AWAITING_APPROVAL"
  let now ← AuthorizationOp.nowIso.await
  require (request.status ≠ .pending ∨ isExpired request.expiresAt now = false)
    .approvalRequestExpired "Expired approval request cannot use unreachable-delivery recovery"
  let existing ← (AuthorizationOp.getByApprovalRequest request.approvalRequestId).await
  require existing.isNone .authorizationAlreadyDecided
    "Approval request already has an AuthorizationRecord"
  verifyBindingFreshness deps request
  assertBoundValidationApprovalEligible request

/-- `invalidateUnreachablePendingRequest`, for a request that is pending. -/
def invalidateUnreachable (request : ApprovalRequest) : AuthorizationAsync Unit :=
  if request.status = .pending then do
    (AuthorizationOp.invalidateNonce request.approvalRequestId).await
    let _ ← (AuthorizationOp.updateStatus request.approvalRequestId .cancelled
      (.because (some "APPROVAL_DELIVERY_UNREACHABLE"))).await
    return ()
  else pure ()

/-- `recoverUnreachableApprovalDelivery`. -/
def recoverUnreachableApprovalDelivery (approvalRequestId reason : String) :
    AuthorizationAsync ApprovalDeliveryRecoveryResult := do
  require (reason ∈ ["DELIVERY_UNREACHABLE"]) .approvalReissueNotEligible
    s!"Unsupported approval reissue reason: {reason}"
  let original ← orThrow (← (AuthorizationOp.getRequest approvalRequestId).await)
    .approvalRequestNotFound s!"Unknown approval request: {approvalRequestId}"
  let existingLive ← findLiveReplacement original.runId original.approvalRequestId
  match existingLive with
  | some live =>
    return ⟨false, original.runId, original.approvalRequestId, live.approvalRequestId⟩
  | none =>
    assertUnreachableDeliveryRecoveryEligible deps original
    let claim ← beginReissue original.approvalRequestId
    match claim with
    | some approvalRequestId =>
      let live ← afterConcurrentReissue original.runId original.approvalRequestId approvalRequestId
      return ⟨false, original.runId, original.approvalRequestId, live.approvalRequestId⟩
    | none =>
      failingReissue original.approvalRequestId do
        let run ← orThrow (← (AuthorizationOp.getRun original.runId).await)
          .invalidAuthorizationState "Approval reissue requires run state AWAITING_APPROVAL"
        require (run.state = .awaitingApproval) .invalidAuthorizationState
          "Approval reissue requires run state AWAITING_APPROVAL"
        invalidateUnreachable original
        let (live, created) ← replaceClosed deps run original
        return ⟨created, original.runId, original.approvalRequestId, live.approvalRequestId⟩

/-! ## Routing -/

/-- `requestReasonFor`. -/
def requestReasonFor (decision : ValidationDecision) : ApprovalRequestReason :=
  if decision.decision = .pass then .executionAuthorization
  else if decision.findings.any fun f => f.ruleId = "REQUIRE_APPROVAL" ∨ f.category = "policy" then
    .policyRequireApproval
  else .humanApprovalRequired

/-- Throws `AUTHORIZATION_NOT_READY` unless the condition holds. -/
def requireReadiness (holds : Bool) (message : String) : AuthorizationAsync Unit :=
  require holds .authorizationNotReady message

/-- The part of `assess` about the plan and its validation decision. -/
def assessDecision (runId : String) :
    AuthorizationAsync (PlanUnderApproval × ValidationDecision) := do
  let plan ← orThrow (← (AuthorizationOp.getPlanByRun runId).await) .authorizationNotReady
    s!"No plan for run {runId}"
  requireReadiness (plan.status ≠ .superseded) s!"Latest plan {plan.planId} is SUPERSEDED"
  requireReadiness (plan.status ∈ [.validatedPass, .validatedBlock, .validatedApprovalRequired])
    s!"Plan {plan.planId} status is {plan.status.text}, expected terminal validated status"
  let decision ← orThrow (← (AuthorizationOp.getLatestDecision runId).await)
    .authorizationNotReady s!"No validation decision for run {runId}"
  requireReadiness (decision.decision ∈ [.pass, .block, .humanApprovalRequired])
    s!"Validation decision {decision.decision.text} is not terminal for authorization"
  let bound ← (AuthorizationOp.getDecisionByPlan runId plan.planId plan.planVersion).await
  requireReadiness (bound.any (·.validationDecisionId = decision.validationDecisionId))
    "Latest validation decision does not bind to the latest plan"
  requireReadiness (decision.planId = plan.planId ∧ decision.planVersion = plan.planVersion ∧
      decision.planHash = plan.planHash ∧ decision.planHash = plan.plan.planHash)
    "Validation decision does not match final plan identity"
  let allPlans ← (AuthorizationOp.listPlansByRun runId).await
  requireReadiness (!allPlans.any fun candidate =>
      candidate.planVersion > plan.planVersion ∧ candidate.status ≠ .superseded)
    "A newer plan version supersedes the candidate"
  return (plan, decision)

/-- `AuthorizationReadinessService.requireReady`. -/
def requireReady (runId : String) :
    AuthorizationAsync (PlanUnderApproval × ValidationDecision) := do
  let run ← orThrow (← (AuthorizationOp.getRun runId).await) .authorizationNotReady
    s!"Run not found: {runId}"
  requireReadiness (run.state = .validating)
    s!"Run {runId} is in {run.state.text}, expected VALIDATING"
  let (plan, decision) ← assessDecision runId
  let objective ← orThrow (← (AuthorizationOp.getObjective runId).await)
    .authorizationNotReady s!"No objective bound to run {runId}"
  let named ← (AuthorizationOp.objectiveOfRun runId).await
  requireReadiness (objective.objectiveId = named.1 ∧ objective.objectiveVersion = named.2 ∧
      objective.projectId = run.projectId ∧ objective.objectiveId = plan.objectiveId ∧
      objective.objectiveVersion = plan.objectiveVersion)
    "Objective identity does not match run/plan"
  let resolved ← tryCatch (AuthorizationOp.resolve run.projectId run.requestedEnvironment).await
    fun _ => Async.throw (.authorization .authorizationNotReady
      "Control Plane context unavailable")
  requireReadiness (resolved.policyHash = decision.policyBundleHash ∧
      resolved.policyHash = plan.plan.policyBundleHash ∧
      resolved.policyBundleId = plan.policyBundleId)
    "Active policy bundle hash does not match plan/decision"
  let lock ← orThrow (← (AuthorizationOp.getLock runId).await) .authorizationNotReady
    "No locked repository state for authorization"
  requireReadiness (lock.status ≠ .stale) "Live locked repository state is STALE"
  requireReadiness (lock.status ≠ .invalid) "Live locked repository state is INVALID"
  requireReadiness (lock.commitSha = plan.plan.repositoryCommitSha ∧
      decision.repositoryFingerprint = plan.plan.repositoryFingerprint)
    "Repository lock/fingerprint does not match plan"
  return (plan, decision)

/-- `routeBlock`. -/
def routeBlock (runId : String) (plan : PlanUnderApproval) (decision : ValidationDecision) :
    AuthorizationAsync AuthorizationRoutingOutcome := do
  let run ← orThrow (← (AuthorizationOp.getRun runId).await) .authorizationNotReady
    s!"Run not found: {runId}"
  let routed (outcome : RoutingOutcomeKind) : AuthorizationRoutingOutcome :=
    { outcome, runId
      planId := plan.planId
      planVersion := plan.planVersion
      planHash := plan.planHash
      validationDecisionId := decision.validationDecisionId
      approvalRequestId := none
      decisionCardHash := none
      runState := .blocked
      replacesApprovalRequestId := none }
  if run.state = .blocked then return routed .alreadyRouted
  else do
    assertRunTransition run.state .blocked
    let now ← AuthorizationOp.nowIso.await
    commitRunTransition run .blocked now
    return routed .blocked

/-- A binding whose request is not pending any more is forgotten. -/
def pendingOrForget (bindingKey : String) (request : Option ApprovalRequest) :
    AuthorizationAsync (Option ApprovalRequest) :=
  match request.filter (·.status = .pending) with
  | some request => pure (some request)
  | none => do
    (AuthorizationOp.forgetBinding bindingKey).await
    return none

/-- `findActiveByBinding`. -/
def findActiveByBinding (bindingKey : String) : AuthorizationAsync (Option ApprovalRequest) := do
  let active ← (AuthorizationOp.activeByBinding bindingKey).await
  match active with
  | none => return none
  | some request => pendingOrForget bindingKey request

/-- A request of the plan whose delivery failed, the latest first. -/
def priorCancelled (history : List ApprovalRequest) (plan : PlanUnderApproval)
    (decision : ValidationDecision) : Option ApprovalRequest :=
  history.reverse.find? fun request =>
    request.status = .cancelled ∧
      request.deliveryFailureCode = some "APPROVAL_DELIVERY_FAILED" ∧
      request.planId = plan.planId ∧ request.planVersion = plan.planVersion ∧
      request.planHash = plan.planHash ∧
      request.validationDecisionId = decision.validationDecisionId

/-- The run waits for its approval, unless it does already. -/
def awaitApproval (run : RunRecord) : AuthorizationAsync Unit :=
  if run.state = .awaitingApproval then Async.pure ()
  else do
    let now ← AuthorizationOp.nowIso.await
    commitRunTransition run .awaitingApproval now

/-- The end of `routeForApproval`: the new request is stored, delivered and registered. -/
def routeNewRequest (run : RunRecord) (objective : BoundObjective) (plan : PlanUnderApproval)
    (decision : ValidationDecision) (resolved : ApprovalControlContext)
    (card : ApprovalDecisionCard) : AuthorizationAsync AuthorizationRoutingOutcome := do
  let history ← (AuthorizationOp.listByRun run.runId).await
  let prior := (priorCancelled history plan decision).map (·.approvalRequestId)
  let _ ← supersedePendingForRun run.runId none "PLAN_SUPERSEDED"
  let nonce ← AuthorizationOp.generateNonce.await
  let approvalRequestId ← AuthorizationOp.nextId.await
  let request ← (AuthorizationOp.saveRequest
    { approvalRequestId
      runId := run.runId
      projectId := run.projectId
      objectiveId := objective.objectiveId
      objectiveVersion := objective.objectiveVersion
      planId := plan.planId
      planVersion := plan.planVersion
      planHash := plan.planHash
      repositoryCommitSha := plan.plan.repositoryCommitSha
      repositoryFingerprint := plan.plan.repositoryFingerprint
      policyBundleId := plan.policyBundleId
      policyBundleHash := plan.plan.policyBundleHash
      validationDecisionId := decision.validationDecisionId
      validationDecision := decision.decision
      requestReason := requestReasonFor decision
      requestedApproverIds := resolved.authorizedApproverIds
      createdAt := card.createdAt
      expiresAt := card.expiresAt
      status := .pending
      decisionCardHash := deps.cardHash card
      capabilitySetFingerprint := card.capabilitySetFingerprint
      decisionNonceHash := deps.hashDecisionNonce nonce
      replacesApprovalRequestId := prior
      deliveryFailedAt := none
      deliveryFailureCode := none
      failureReasonCode := none }).await
  (AuthorizationOp.saveCard request.approvalRequestId card).await
  tryCatch (AuthorizationOp.deliver request).await fun e => do
    cancelUndelivered request
    match e with
    | .authorization _ _ => throw e
    | .other error => Async.throw (.authorization .approvalDeliveryFailed
        (error.messageOr "Delivery failed"))
  (AuthorizationOp.registerPending request.approvalRequestId request.bindingKey).await
  awaitApproval run
  return {
    outcome := .pendingApproval
    runId := run.runId
    planId := plan.planId
    planVersion := plan.planVersion
    planHash := plan.planHash
    validationDecisionId := decision.validationDecisionId
    approvalRequestId := some request.approvalRequestId
    decisionCardHash := some request.decisionCardHash
    runState := .awaitingApproval
    replacesApprovalRequestId := prior }

/-- `routeForApproval`. -/
def routeForApproval (runId : String) (plan : PlanUnderApproval) (decision : ValidationDecision) :
    AuthorizationAsync AuthorizationRoutingOutcome := do
  let run ← orThrow (← (AuthorizationOp.getRun runId).await) .authorizationNotReady
    s!"Run not found: {runId}"
  let objective ← orThrow (← (AuthorizationOp.getObjective runId).await)
    .authorizationNotReady "Objective missing for authorization routing"
  let resolved ← (AuthorizationOp.resolve run.projectId run.requestedEnvironment).await
  let now ← AuthorizationOp.nowIso.await
  let card ← Async.ofExcept (buildApprovalDecisionCard deps objective plan decision resolved now
    (now + deps.approvalWindowMs))
  let existing ← findActiveByBinding (approvalBindingKey runId plan.planId plan.planVersion
    plan.planHash decision.validationDecisionId (deps.cardHash card))
  match existing with
  | some existing =>
    require (run.state = .awaitingApproval) .invalidAuthorizationState
      "PENDING approval request exists while run is not AWAITING_APPROVAL"
    return {
      outcome := .alreadyRouted
      runId
      planId := plan.planId
      planVersion := plan.planVersion
      planHash := plan.planHash
      validationDecisionId := decision.validationDecisionId
      approvalRequestId := some existing.approvalRequestId
      decisionCardHash := none
      runState := .awaitingApproval
      replacesApprovalRequestId := none }
  | none => routeNewRequest deps run objective plan decision resolved card

/-- The answer for a run that was blocked before. -/
def alreadyBlocked (runId : String) : AuthorizationAsync AuthorizationRoutingOutcome := do
  let decision ← (AuthorizationOp.getLatestDecision runId).await
  let plan ← (AuthorizationOp.getPlanByRun runId).await
  return {
    outcome := .alreadyRouted
    runId
    planId := (plan.map (·.planId) <|> decision.map (·.planId)).getD "unknown"
    planVersion := (plan.map (·.planVersion) <|> decision.map (·.planVersion)).getD 1
    planHash := (plan.map (·.planHash) <|> decision.map (·.planHash)).getD "unknown"
    validationDecisionId := (decision.map (·.validationDecisionId)).getD "unknown"
    approvalRequestId := none
    decisionCardHash := none
    runState := .blocked
    replacesApprovalRequestId := none }

/-- What `route` does with a run that is ready. -/
def routeReady (runId : String) : AuthorizationAsync AuthorizationRoutingOutcome := do
  let (plan, decision) ← requireReady runId
  if decision.decision = .block then routeBlock runId plan decision
  else if decision.decision = .pass ∨ decision.decision = .humanApprovalRequired then do
    assertValidationApprovalEligible decision
    routeForApproval deps runId plan decision
  else Async.throw (.authorization .authorizationDecisionNotTerminal
    s!"Cannot route authorization for decision {decision.decision.text}")

/-- The pending request of a run that was routed before. -/
def pendingOf (runId : String) (existingRun : Option RunRecord) :
    AuthorizationAsync (Option ApprovalRequest) :=
  if existingRun.any (·.state = .awaitingApproval) then
    (AuthorizationOp.getPendingByRun runId).await
  else pure none

/-- `AuthorizationRoutingService.route`. -/
def route (runId : String) : AuthorizationAsync AuthorizationRoutingOutcome := do
  let existingRun ← (AuthorizationOp.getRun runId).await
  let pending ← pendingOf runId existingRun
  match pending with
  | some pending =>
    return {
      outcome := .alreadyRouted
      runId
      planId := pending.planId
      planVersion := pending.planVersion
      planHash := pending.planHash
      validationDecisionId := pending.validationDecisionId
      approvalRequestId := some pending.approvalRequestId
      decisionCardHash := none
      runState := .awaitingApproval
      replacesApprovalRequestId := none }
  | none =>
    if existingRun.any (·.state = .blocked) then alreadyBlocked runId
    else routeReady deps runId

/-! ## The system -/

/-- A call of one of the services. -/
inductive AuthorizationCall where
  | decide (decision : HumanAuthorizationDecision)
  | route (runId : String)
  | reissue (runId replacedApprovalRequestId : String)
  | recover (approvalRequestId reason : String)
  | expire (nowIso : Option ℕ)
  deriving DecidableEq

inductive AuthorizationAnswer where
  | decided (result : AuthorizationResult)
  | routed (outcome : AuthorizationRoutingOutcome)
  | reissued (result : ApprovalReissueResult)
  | recovered (result : ApprovalDeliveryRecoveryResult)
  | expired (results : List (ApprovalRequest × AuthorizationResult))

def AuthorizationCall.run (call : AuthorizationCall) : AuthorizationAsync AuthorizationAnswer :=
  match call with
  | .decide decision => do return .decided (← Authorization.decide deps decision)
  | .route runId => do return .routed (← Authorization.route deps runId)
  | .reissue runId replaced => do return .reissued (← reissueApprovalRequest deps runId replaced)
  | .recover id reason => do return .recovered (← recoverUnreachableApprovalDelivery deps id reason)
  | .expire nowIso => do return .expired (← expireDueRequests nowIso)

/-- The calls, about to be made on the repositories. -/
def authorizationPool {ι : Type} (w : AuthorizationWorld) (calls : ι → AuthorizationCall) :
    Pool AuthorizationSig ι AuthorizationWorld
      (Except AuthorizationFailure AuthorizationAnswer) :=
  Pool.init w fun i => ((calls i).run deps).prog

end Services

end Orchestrator.Authorization
