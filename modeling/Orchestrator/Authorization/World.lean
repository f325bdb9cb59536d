import Mathlib.Data.Finset.Basic
import Orchestrator.Atomic.Async
import Orchestrator.Atomic.Pool
import Orchestrator.Authorization.Records
import Orchestrator.Execution.CapabilityFingerprint
import Orchestrator.Execution.RunRepository
import Orchestrator.Validation.Stores

/-!
# What human authorization works on

* `Coordinator`: `InMemoryAuthorizationCoordinator`, the fence against replayed decisions and
  repeated replacements;
* `AuthorizationSurroundings`: what authorization reads and others change;
* `AuthorizationOp`, `AuthorizationWorld.call`: the calls, and what each of them does;
* `authorizationSystem`: the repositories, while other services move runs.
-/

namespace Orchestrator

open Atomic Collections

/-! ## What is read -/

/-- A stored plan, with what authorization reads of it beyond what execution reads. -/
structure PlanUnderApproval extends StoredPlanRecord where
  objectiveId : String
  objectiveVersion : ℕ
  policyBundleId : String

inductive Authorization.LockedRepositoryStatus where
  | locked
  | verified
  | stale
  | invalid
  deriving DecidableEq, Repr

structure Authorization.LockedRepositoryState where
  commitSha : String
  status : Authorization.LockedRepositoryStatus
  deriving DecidableEq, Repr

/-- The resolved control context, as far as authorization reads it. -/
structure ApprovalControlContext where
  projectId : String
  authorizedApproverIds : List String
  policyBundleId : String
  policyHash : String
  availableCapabilities : List Capability

/-- The objective that a run is bound to. -/
structure BoundObjective where
  objectiveId : String
  objectiveVersion : ℕ
  projectId : String
  deriving DecidableEq, Repr

/-- The fields of a decision card that authorization compares; `display` stands for the rest. -/
structure ApprovalDecisionCard where
  planHash : String
  planVersion : ℕ
  validationDecisionId : String
  policyBundleHash : String
  repositoryFingerprint : String
  capabilitySetFingerprint : String
  createdAt : ℕ
  expiresAt : ℕ
  display : String
  deriving DecidableEq, Repr

structure ModificationRequest where
  modificationRequestId : String
  runId : String
  approvalRequestId : String
  sourcePlanId : String
  sourcePlanVersion : ℕ
  requestedBy : String
  requestedAt : ℕ
  modificationNote : String
  deriving DecidableEq, Repr

inductive ApproverAuthorizationOutcome where
  | authorized
  | unknownApprover
  | approverNotAllowed
  | projectAccessDenied
  deriving DecidableEq, Repr

/-- `HumanAuthorizationDecision`. -/
structure HumanAuthorizationDecision where
  approvalRequestId : String
  approverId : String
  decision : HumanDecisionKind
  submittedAt : ℕ
  decisionNonce : String
  note : Option String
  institutionalProofId : Option String
  deriving DecidableEq, Repr

/-- What authorization reads and others change: clocks, generators, the repositories of the phases
before it, the control plane, and whether deliveries arrive. -/
structure AuthorizationSurroundings where
  nowIso : ℕ
  nextId : String
  generateNonce : String
  plan : String → Option PlanUnderApproval
  latestPlan : String → Option PlanUnderApproval
  plansOfRun : String → List PlanUnderApproval
  lockedState : String → Option Authorization.LockedRepositoryState
  resolve : String → String → Except AuthorizationFailure ApprovalControlContext
  validationDecision : String → Option ValidationDecision
  decisionOfPlan : String → String → ℕ → Option ValidationDecision
  latestDecision : String → Option ValidationDecision
  objective : String → Option BoundObjective
  /-- The objective that the run record names. -/
  objectiveOfRun : String → String × ℕ
  knownApprover : String → Bool
  institutionalRequirements :
    HumanAuthorizationDecision → RunRecord → ApprovalRequest → ℕ → Except AuthorizationFailure Unit
  deliver : ApprovalRequest → Except AuthorizationFailure Unit

/-! ## The coordinator -/

/-- `InMemoryAuthorizationCoordinator`; a claim of a replacement is a promise, which is settled with
the replacement or with a rejection. -/
structure Coordinator where
  pendingByBinding : JsMap String String
  decisionLocks : Finset String
  consumedNonces : Finset String
  invalidatedNonces : Finset String
  reissueInFlight : JsMap String ℕ
  promises : List (Option (Option String))
  reissueReplacementByReplaced : JsMap String String

namespace Coordinator

def empty : Coordinator := ⟨.empty, ∅, ∅, ∅, .empty, [], .empty⟩

/-- The coordinator without the bindings of a request. -/
def unbound (c : Coordinator) (approvalRequestId : String) : JsMap String String :=
  (c.pendingByBinding.entries.filter (·.2 = approvalRequestId)).foldl (fun m e => m.delete e.1)
    c.pendingByBinding

def registerPending (c : Coordinator) (approvalRequestId bindingKey : String) :
    Except AuthorizationFailure Unit × Coordinator :=
  if (c.pendingByBinding.get bindingKey).any (· ≠ approvalRequestId) then
    (.error (.authorization .approvalRequestAlreadyExists
      "A PENDING approval request already exists for this exact binding"), c)
  else
    (.ok (), { c with pendingByBinding := c.pendingByBinding.set bindingKey approvalRequestId })

/-- The second half of `beginDecision`, once the request is read: the nonce is checked and spent. -/
def consumeNonce (hashDecisionNonce : String → String) (c : Coordinator)
    (request : ApprovalRequest) (decisionNonce : String) :
    Except AuthorizationFailure String × Coordinator :=
  if request.approvalRequestId ∈ c.invalidatedNonces ∨
      request.approvalRequestId ∈ c.consumedNonces then
    (.error (.authorization .authorizationDecisionReplayed
      "Decision nonce was already consumed or invalidated"), c)
  else if hashDecisionNonce decisionNonce ≠ request.decisionNonceHash then
    (.error (.authorization .invalidDecisionNonce
      "Submitted decision nonce does not match the system-issued nonce for this request"), c)
  else
    (.ok (hashDecisionNonce decisionNonce), { c with
      decisionLocks := insert request.approvalRequestId c.decisionLocks
      consumedNonces := insert request.approvalRequestId c.consumedNonces })

def completeDecision (c : Coordinator) (approvalRequestId : String) : Coordinator :=
  { c with
    decisionLocks := c.decisionLocks.erase approvalRequestId
    pendingByBinding := c.unbound approvalRequestId }

def failDecision (c : Coordinator) (approvalRequestId : String) : Coordinator :=
  { c with decisionLocks := c.decisionLocks.erase approvalRequestId }

def invalidateNonce (c : Coordinator) (approvalRequestId : String) : Coordinator :=
  { c with
    invalidatedNonces := insert approvalRequestId c.invalidatedNonces
    decisionLocks := c.decisionLocks.erase approvalRequestId
    pendingByBinding := c.unbound approvalRequestId }

def isNonceConsumed (c : Coordinator) (approvalRequestId : String) : Bool :=
  approvalRequestId ∈ c.consumedNonces ∨ approvalRequestId ∈ c.invalidatedNonces

/-- The end of a turn of `supersedePendingForRun`. -/
def releaseBinding (c : Coordinator) (bindingKey approvalRequestId : String) : Coordinator :=
  if c.pendingByBinding.get bindingKey = some approvalRequestId then
    { c with pendingByBinding := c.pendingByBinding.delete bindingKey }
  else c

/-- The second half of `beginReissue`: the promise of the claim that is in flight, or a claim. -/
def claimReissue (c : Coordinator) (replacedApprovalRequestId : String) : Option ℕ × Coordinator :=
  match c.reissueInFlight.get replacedApprovalRequestId with
  | some promise => (some promise, c)
  | none => (none, { c with
      reissueInFlight := c.reissueInFlight.set replacedApprovalRequestId c.promises.length
      promises := c.promises ++ [none] })

/-- The promise of a claim, settled. -/
def settled (c : Coordinator) (replacedApprovalRequestId : String) (outcome : Option String) :
    List (Option (Option String)) :=
  match c.reissueInFlight.get replacedApprovalRequestId with
  | some promise => c.promises.set promise (some outcome)
  | none => c.promises

def completeReissue (c : Coordinator)
    (replacedApprovalRequestId replacementApprovalRequestId : String) : Coordinator :=
  { c with
    reissueReplacementByReplaced :=
      c.reissueReplacementByReplaced.set replacedApprovalRequestId replacementApprovalRequestId
    promises := c.settled replacedApprovalRequestId (some replacementApprovalRequestId)
    reissueInFlight := c.reissueInFlight.delete replacedApprovalRequestId }

def failReissue (c : Coordinator) (replacedApprovalRequestId : String) : Coordinator :=
  { c with
    promises := c.settled replacedApprovalRequestId none
    reissueInFlight := c.reissueInFlight.delete replacedApprovalRequestId }

/-- What a promise is settled with. A wait that goes on before the promise is settled is rejected
here; the code waits. -/
def outcome (c : Coordinator) (promise : ℕ) : Except AuthorizationFailure String :=
  match c.promises[promise]? with
  | some (some (some approvalRequestId)) => .ok approvalRequestId
  | _ => .error (.authorization .approvalReissueNotEligible "Approval request reissue failed")

end Coordinator

/-! ## The repositories -/

structure AuthorizationWorld where
  requests : ApprovalRequests
  records : AuthorizationRecords
  modifications : JsMap String ModificationRequest
  cards : JsMap String ApprovalDecisionCard
  coordinator : Coordinator
  runs : RunRepository
  surroundings : AuthorizationSurroundings

/-- What stays the same while authorization is at work. -/
structure AuthorizationDeps where
  external : External
  /-- `planHasher.hash` of the stored plan. -/
  planHash : PlanUnderApproval → String
  /-- `cardHasher.hash`. -/
  cardHash : ApprovalDecisionCard → String
  /-- The display part of `buildApprovalDecisionCard`. -/
  cardDisplay : BoundObjective → PlanUnderApproval → ValidationDecision → ApprovalControlContext →
    String
  approvalWindowMs : ℕ
  /-- `institutionalGovernance` is there. -/
  institutionalGovernance : Bool

/-- `hashDecisionNonce`. -/
def AuthorizationDeps.hashDecisionNonce (deps : AuthorizationDeps) (nonce : String) : String :=
  deps.external.sha256 nonce

namespace AuthorizationWorld

/-- `modifications.save`. -/
def saveModification (w : AuthorizationWorld) (modification : ModificationRequest) :
    Except AuthorizationFailure Unit × AuthorizationWorld :=
  if w.modifications.has modification.modificationRequestId then
    (.error (.authorization .modificationRequestInvalid
      s!"Modification request already exists: {modification.modificationRequestId}"), w)
  else (.ok (), { w with
    modifications := w.modifications.set modification.modificationRequestId modification })

/-- `runs.transition`, from the record that was read. -/
def transition (w : AuthorizationWorld) (run : RunRecord) (next : RunState) (updatedAt : ℕ) :
    Except AuthorizationFailure RunRecord × AuthorizationWorld :=
  match w.runs.transition run.runId run.state run.recordRevision next updatedAt with
  | (.ok moved, runs) => (.ok moved, { w with runs })
  | (.error e, runs) => (.error (.other e), { w with runs })

/-- `InMemoryApproverAuthorizationService.authorize`. -/
def authorize (w : AuthorizationWorld) (approverId projectId requestedEnvironment : String)
    (request : ApprovalRequest) : ApproverAuthorizationOutcome :=
  if !w.surroundings.knownApprover approverId then .unknownApprover
  else
    match w.surroundings.resolve projectId requestedEnvironment with
    | .error _ => .projectAccessDenied
    | .ok resolved =>
      if resolved.projectId ≠ request.projectId then .projectAccessDenied
      else if approverId ∉ resolved.authorizedApproverIds then .approverNotAllowed
      else if request.requestedApproverIds ≠ [] ∧ approverId ∉ request.requestedApproverIds then
        .approverNotAllowed
      else .authorized

/-- The first half of `beginDecision`: the lock, and the request that is read. -/
def peekDecision (w : AuthorizationWorld) (approvalRequestId : String) :
    Except AuthorizationFailure (Option ApprovalRequest) :=
  if approvalRequestId ∈ w.coordinator.decisionLocks then
    .error (.authorization .invalidAuthorizationState
      s!"A decision is already in progress for {approvalRequestId}")
  else .ok (w.requests.getById approvalRequestId)

/-- The read of `findActiveByBinding`. -/
def activeByBinding (w : AuthorizationWorld) (bindingKey : String) :
    Option (Option ApprovalRequest) :=
  (w.coordinator.pendingByBinding.get bindingKey).map w.requests.getById

/-- The read of `getReissueReplacementId`. -/
def reissueReplacement (w : AuthorizationWorld) (replacedApprovalRequestId : String) :
    Option (String × Option ApprovalRequest) :=
  (w.coordinator.reissueReplacementByReplaced.get replacedApprovalRequestId).map fun mapped =>
    (mapped, w.requests.getById mapped)

end AuthorizationWorld

/-! ## Calls -/

inductive AuthorizationOp where
  | getRequest (approvalRequestId : String)
  | listAll
  | listByRun (runId : String)
  | getPendingByRun (runId : String)
  | saveRequest (request : ApprovalRequest)
  | updateStatus (approvalRequestId : String) (status : ApprovalRequestStatus)
      (extras : ApprovalRequestStatusExtras)
  | getByApprovalRequest (approvalRequestId : String)
  | append (record : HumanAuthorizationRecord)
  | saveModification (modification : ModificationRequest)
  | getCard (approvalRequestId : String)
  | saveCard (approvalRequestId : String) (card : ApprovalDecisionCard)
  | getRun (runId : String)
  | transition (run : RunRecord) (next : RunState) (updatedAt : ℕ)
  | activeByBinding (bindingKey : String)
  | forgetBinding (bindingKey : String)
  | registerPending (approvalRequestId bindingKey : String)
  | peekDecision (approvalRequestId : String)
  | consumeNonce (request : ApprovalRequest) (decisionNonce : String)
  | completeDecision (approvalRequestId : String)
  | failDecision (approvalRequestId : String)
  | isNonceConsumed (approvalRequestId : String)
  | invalidateNonce (approvalRequestId : String)
  | releaseBinding (bindingKey approvalRequestId : String)
  | reissueReplacement (replacedApprovalRequestId : String)
  | forgetReplacement (replacedApprovalRequestId : String)
  | claimReissue (replacedApprovalRequestId : String)
  | awaitReissue (promise : ℕ)
  | completeReissue (replacedApprovalRequestId replacementApprovalRequestId : String)
  | failReissue (replacedApprovalRequestId : String)
  | nowIso
  | nextId
  | generateNonce
  | getPlan (planId : String)
  | getPlanByRun (runId : String)
  | listPlansByRun (runId : String)
  | getLock (runId : String)
  | resolve (projectId requestedEnvironment : String)
  | getDecision (validationDecisionId : String)
  | getDecisionByPlan (runId planId : String) (planVersion : ℕ)
  | getLatestDecision (runId : String)
  | getObjective (runId : String)
  | objectiveOfRun (runId : String)
  | authorize (approverId projectId requestedEnvironment : String) (request : ApprovalRequest)
  | institutionalRequirements (decision : HumanAuthorizationDecision) (run : RunRecord)
      (request : ApprovalRequest) (now : ℕ)
  | deliver (request : ApprovalRequest)

abbrev AuthorizationOp.Res : AuthorizationOp → Type
  | .getRequest _ | .getPendingByRun _ | .peekDecision _ => Option ApprovalRequest
  | .listAll | .listByRun _ => List ApprovalRequest
  | .saveRequest _ | .updateStatus _ _ _ => ApprovalRequest
  | .getByApprovalRequest _ => Option HumanAuthorizationRecord
  | .append _ => HumanAuthorizationRecord
  | .getCard _ => Option ApprovalDecisionCard
  | .getRun _ => Option RunRecord
  | .transition _ _ _ => RunRecord
  | .activeByBinding _ => Option (Option ApprovalRequest)
  | .consumeNonce _ _ | .awaitReissue _ | .nextId | .generateNonce => String
  | .isNonceConsumed _ => Bool
  | .reissueReplacement _ => Option (String × Option ApprovalRequest)
  | .claimReissue _ => Option ℕ
  | .nowIso => ℕ
  | .getPlan _ | .getPlanByRun _ => Option PlanUnderApproval
  | .listPlansByRun _ => List PlanUnderApproval
  | .getLock _ => Option Authorization.LockedRepositoryState
  | .resolve _ _ => ApprovalControlContext
  | .getDecision _ | .getDecisionByPlan _ _ _ | .getLatestDecision _ => Option ValidationDecision
  | .getObjective _ => Option BoundObjective
  | .objectiveOfRun _ => String × ℕ
  | .authorize _ _ _ _ => ApproverAuthorizationOutcome
  | .saveModification _ | .saveCard _ _ | .forgetBinding _ | .registerPending _ _
  | .completeDecision _ | .failDecision _ | .invalidateNonce _ | .releaseBinding _ _
  | .forgetReplacement _ | .completeReissue _ _ | .failReissue _
  | .institutionalRequirements _ _ _ _ | .deliver _ => Unit

abbrev AuthorizationSig : Sig := Sig.throwing AuthorizationOp AuthorizationOp.Res
  AuthorizationFailure

/-- What a call answers, and what it does to the repositories. -/
def AuthorizationWorld.call (deps : AuthorizationDeps) (w : AuthorizationWorld) :
    (o : AuthorizationOp) → Except AuthorizationFailure o.Res × AuthorizationWorld
  | .getRequest id => (.ok (w.requests.getById id), w)
  | .listAll => (.ok w.requests.list, w)
  | .listByRun runId => (.ok (w.requests.listByRun runId), w)
  | .getPendingByRun runId => (.ok (w.requests.getPendingByRun runId), w)
  | .saveRequest request =>
    ((w.requests.store request).1, { w with requests := (w.requests.store request).2 })
  | .updateStatus id status extras =>
    ((w.requests.updateStatus id status extras).1,
      { w with requests := (w.requests.updateStatus id status extras).2 })
  | .getByApprovalRequest id => (.ok (w.records.getByApprovalRequest id), w)
  | .append record =>
    ((w.records.append record).1, { w with records := (w.records.append record).2 })
  | .saveModification modification => w.saveModification modification
  | .getCard id => (.ok (w.cards.get id), w)
  | .saveCard id card => (.ok (), { w with cards := w.cards.set id card })
  | .getRun runId => (.ok (w.runs.getById runId), w)
  | .transition run next updatedAt => w.transition run next updatedAt
  | .activeByBinding key => (.ok (w.activeByBinding key), w)
  | .forgetBinding key => (.ok (), { w with coordinator := { w.coordinator with
      pendingByBinding := w.coordinator.pendingByBinding.delete key } })
  | .registerPending id key =>
    ((w.coordinator.registerPending id key).1,
      { w with coordinator := (w.coordinator.registerPending id key).2 })
  | .peekDecision id => (w.peekDecision id, w)
  | .consumeNonce request nonce =>
    ((w.coordinator.consumeNonce deps.hashDecisionNonce request nonce).1, { w with
      coordinator := (w.coordinator.consumeNonce deps.hashDecisionNonce request nonce).2 })
  | .completeDecision id => (.ok (), { w with coordinator := w.coordinator.completeDecision id })
  | .failDecision id => (.ok (), { w with coordinator := w.coordinator.failDecision id })
  | .isNonceConsumed id => (.ok (w.coordinator.isNonceConsumed id), w)
  | .invalidateNonce id => (.ok (), { w with coordinator := w.coordinator.invalidateNonce id })
  | .releaseBinding key id =>
    (.ok (), { w with coordinator := w.coordinator.releaseBinding key id })
  | .reissueReplacement id => (.ok (w.reissueReplacement id), w)
  | .forgetReplacement id => (.ok (), { w with coordinator := { w.coordinator with
      reissueReplacementByReplaced := w.coordinator.reissueReplacementByReplaced.delete id } })
  | .claimReissue id =>
    (.ok (w.coordinator.claimReissue id).1,
      { w with coordinator := (w.coordinator.claimReissue id).2 })
  | .awaitReissue promise => (w.coordinator.outcome promise, w)
  | .completeReissue replaced replacement =>
    (.ok (), { w with coordinator := w.coordinator.completeReissue replaced replacement })
  | .failReissue id => (.ok (), { w with coordinator := w.coordinator.failReissue id })
  | .nowIso => (.ok w.surroundings.nowIso, w)
  | .nextId => (.ok w.surroundings.nextId, w)
  | .generateNonce => (.ok w.surroundings.generateNonce, w)
  | .getPlan id => (.ok (w.surroundings.plan id), w)
  | .getPlanByRun runId => (.ok (w.surroundings.latestPlan runId), w)
  | .listPlansByRun runId => (.ok (w.surroundings.plansOfRun runId), w)
  | .getLock runId => (.ok (w.surroundings.lockedState runId), w)
  | .resolve projectId environment => (w.surroundings.resolve projectId environment, w)
  | .getDecision id => (.ok (w.surroundings.validationDecision id), w)
  | .getDecisionByPlan runId planId planVersion =>
    (.ok (w.surroundings.decisionOfPlan runId planId planVersion), w)
  | .getLatestDecision runId => (.ok (w.surroundings.latestDecision runId), w)
  | .getObjective runId => (.ok (w.surroundings.objective runId), w)
  | .objectiveOfRun runId => (.ok (w.surroundings.objectiveOfRun runId), w)
  | .authorize approverId projectId environment request =>
    (.ok (w.authorize approverId projectId environment request), w)
  | .institutionalRequirements decision run request now =>
    (w.surroundings.institutionalRequirements decision run request now, w)
  | .deliver request => (w.surroundings.deliver request, w)

/-- The calls that leave requests, records and runs alone. -/
def AuthorizationOp.harmless : AuthorizationOp → Bool
  | .saveRequest _ | .updateStatus _ _ _ | .append _ | .transition _ _ _ => false
  | _ => true

/-- The calls that decide nothing. -/
def AuthorizationOp.Ordinary : AuthorizationOp → Prop
  | .saveRequest request => request.status = .pending
  | .updateStatus _ status _ => ∀ kind : HumanDecisionKind, status ≠ kind.status
  | .append _ => False
  | .transition _ next _ => next ≠ .approved
  | _ => True

theorem AuthorizationWorld.call_harmless (deps : AuthorizationDeps) {o : AuthorizationOp}
    (ho : o.harmless = true) (w : AuthorizationWorld) : (w.call deps o).2.requests = w.requests ∧
      (w.call deps o).2.records = w.records ∧ (w.call deps o).2.runs = w.runs := by
  cases o with
  | saveRequest | updateStatus | append | transition => cases ho
  | saveModification modification =>
    simp only [AuthorizationWorld.call, AuthorizationWorld.saveModification]
    split <;> exact ⟨rfl, rfl, rfl⟩
  | _ => exact ⟨rfl, rfl, rfl⟩

/-! ## Others -/

/-- What others do: the surroundings change, or another service moves a run. Only authorization
moves runs to `approved`. -/
inductive AuthorizationStep where
  | surroundings (surroundings : AuthorizationSurroundings)
  | moveRun (runId : String) (expected : RunState) (expectedRecordRevision : ℕ) (next : RunState)
      (updatedAt : ℕ)
  | admitRun (run : RunRecord)

def AuthorizationWorld.step (w : AuthorizationWorld) : AuthorizationStep → AuthorizationWorld
  | .surroundings surroundings => { w with surroundings }
  | .moveRun runId expected revision next updatedAt =>
    if next = .approved then w
    else { w with runs := (w.runs.transition runId expected revision next updatedAt).2 }
  | .admitRun run =>
    if (w.runs.getById run.runId).isSome ∨ run.state = .approved then w
    else { w with runs := w.runs.save run }

/-- The repositories, while other services are at work. -/
def authorizationSystem (deps : AuthorizationDeps) :
    System AuthorizationSig AuthorizationWorld AuthorizationStep where
  handler o w := w.call deps o
  env e w := w.step e

/-- An async function of authorization. -/
abbrev AuthorizationAsync (α : Type) : Type := Async AuthorizationSig AuthorizationFailure α

def AuthorizationOp.await (o : AuthorizationOp) : AuthorizationAsync o.Res := Async.await o

end Orchestrator
