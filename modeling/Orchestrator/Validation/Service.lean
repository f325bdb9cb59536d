import Orchestrator.Admission.Stores
import Orchestrator.Atomic.Async
import Orchestrator.Validation.Stores

/-!
# The validation service

`ValidationService.validate` over the calls it makes on its dependencies.

* `ValidationOp`: the calls, and what they answer;
* `ValidationWorld`, `validation`: the state they act on, and what each does;
* `ValidationService.validate`: the service, with its loop cut into rounds.

The validators, the models and the compiler of plans are answers of the surroundings. Any call
may throw: `ValidationSurroundings.fails` says which do.
-/

namespace Orchestrator

open Atomic Collections

/-! ## Findings -/

/-- `ValidationFindingDraft`, less its metadata. -/
structure ValidationFindingDraft where
  validatorType : ValidationValidatorType
  category : String
  severity : ValidationFindingSeverity
  ruleId : String
  message : String
  repairable : Bool
  approvalEligible : Bool
  blocking : Bool
  evidenceRefs : List String
  affectedStepIds : List String
  subject : List (String × List String)
  deriving DecidableEq, Repr

/-- The digests: of a finding, of its id and of an owner's token. -/
structure ValidationExternal where
  fingerprint : ValidationFindingDraft → String
  findingId : String → String → String
  digest : String → String

/-- `ValidationFindingFactory.create`, with the schema's refusal of empty texts. -/
def createFinding (X : ValidationExternal) (draft : ValidationFindingDraft) :
    Except ValidationFailure ValidationFinding :=
  if draft.category = "" ∨ draft.ruleId = "" ∨ draft.message = "" then
    .error (.other "String must contain at least 1 character(s)")
  else
    .ok
      { findingId := X.findingId (X.fingerprint draft) draft.message
        validatorType := draft.validatorType
        category := draft.category
        severity := draft.severity
        ruleId := draft.ruleId
        message := draft.message
        evidenceRefs := draft.evidenceRefs
        affectedStepIds := draft.affectedStepIds
        repairable := draft.repairable
        approvalEligible := draft.approvalEligible
        blocking := draft.blocking
        semanticFingerprint := X.fingerprint draft }

/-- What a created finding takes from its draft. -/
theorem createFinding_ok {X : ValidationExternal} {draft : ValidationFindingDraft}
    {finding : ValidationFinding} (h : createFinding X draft = .ok finding) :
    finding.blocking = draft.blocking ∧ finding.approvalEligible = draft.approvalEligible := by
  rw [createFinding] at h
  split at h
  · cases h
  · cases h
    exact ⟨rfl, rfl⟩

/-- `ContextualValidationObservation`, less its rationale. -/
structure ContextualValidationObservation where
  ruleId : String
  category : String
  severity : ValidationFindingSeverity
  message : String
  affectedStepIds : List String
  evidenceRefs : List String
  repairable : Bool
  deriving DecidableEq, Repr

/-- `ContextualValidationAssessment`, the part that findings are made of. -/
structure ContextualValidationAssessment where
  recommendation : ValidationDecisionClass
  observations : List ContextualValidationObservation
  unsupportedClaims : List String
  deriving DecidableEq, Repr

def observationDraft (observation : ContextualValidationObservation) :
    ValidationFindingDraft where
  validatorType := .contextual
  category := observation.category
  severity := observation.severity
  ruleId := observation.ruleId
  message := observation.message
  repairable := observation.repairable
  approvalEligible := false
  blocking := observation.severity = .error || observation.severity = .critical
  evidenceRefs := observation.evidenceRefs
  affectedStepIds := observation.affectedStepIds
  subject := [("ruleId", [observation.ruleId]), ("stepIds", observation.affectedStepIds)]

def unsupportedClaimsDraft (unsupportedClaims : List String) : ValidationFindingDraft where
  validatorType := .contextual
  category := "evidence-grounding"
  severity := .info
  ruleId := "CONTEXTUAL_UNSUPPORTED_CLAIMS"
  message := "Contextual validator reported unsupported plan claims"
  repairable := true
  approvalEligible := false
  blocking := false
  evidenceRefs := []
  affectedStepIds := []
  subject := [("count", [toString unsupportedClaims.length])]

def recommendationDraft (recommendation : ValidationDecisionClass) : ValidationFindingDraft where
  validatorType := .contextual
  category := "advisory-recommendation"
  severity := .info
  ruleId := "CONTEXTUAL_RECOMMENDATION"
  message := s!"Contextual validator recommended {recommendation.text} (advisory only; not " ++
    "authoritative)"
  repairable := false
  approvalEligible := false
  blocking := false
  evidenceRefs := []
  affectedStepIds := []
  subject := [("recommendation", [recommendation.text])]

/-- The drafts of `contextualFindings`. -/
def contextualDrafts (assessment : ContextualValidationAssessment) :
    List ValidationFindingDraft :=
  assessment.observations.map observationDraft ++
    (if assessment.unsupportedClaims = [] then []
      else [unsupportedClaimsDraft assessment.unsupportedClaims]) ++
    if assessment.recommendation = .pass then []
      else [recommendationDraft assessment.recommendation]

/-- `contextualFindings`. -/
def contextualFindings (X : ValidationExternal) (assessment : ContextualValidationAssessment) :
    Except ValidationFailure (List ValidationFinding) :=
  (contextualDrafts assessment).mapM (createFinding X)

/-! ## The calls -/

/-- The control context that validation reads: the policy bundle that is in force. -/
structure ActiveControlContext extends ProjectControlContext where
  policyHash : String
  deriving DecidableEq, Repr

structure VerifiedRepositoryContext where
  repositoryFingerprint : String
  deriving DecidableEq, Repr

structure LockedRepositoryState where
  commitSha : String
  deriving DecidableEq, Repr

/-- `ValidationRunContext`. -/
structure ValidationRunContext where
  projectId : String
  environment : String
  control : ActiveControlContext
  repositoryContext : Option VerifiedRepositoryContext
  liveLock : Option LockedRepositoryState
  objective : Objective
  deriving DecidableEq, Repr

/-- `DeterministicValidationResult`, the part that the service reads. -/
structure DeterministicValidationResult where
  findings : List ValidationFinding
  plan : Option ExecutionPlan
  contextualEligible : Bool
  deriving DecidableEq, Repr

structure PlanningContext where
  planningContextFingerprint : String
  deriving DecidableEq, Repr

/-- `RevisionEnvelope` and the plan it comes with, less what names and dates it. -/
structure RevisionEnvelope where
  runId : String
  plan : ExecutionPlan
  targetPlanVersion : ℕ
  revisionAttempt : ℕ
  control : ActiveControlContext
  environment : String
  repairableFindings : List ValidationFinding
  advisoryFindings : List ValidationFinding
  priorSemanticFingerprints : List String
  deriving DecidableEq, Repr

/-- A proposal, as the revision model wrote it. -/
structure PlanProposal where
  body : String
  deriving DecidableEq, Repr

/-- A compiled revision: the plan, under its own id. -/
structure RevisedPlan where
  planId : String
  plan : ExecutionPlan
  deriving DecidableEq, Repr

inductive ValidationOp where
  | getPlan (runId : String)
  | getPlanVersion (runId : String) (planVersion : ℕ)
  | listPlans (runId : String)
  | savePlan (record : StoredPlanRecord)
  | markSuperseded (planId : String)
  | getFence (key : ValidationFenceKey)
  | beginFence (key : ValidationFenceKey) (now : ℕ)
  | markDecided (key : ValidationFenceKey) (ownerToken : String) (now : ℕ)
      (validationDecisionId : String) (decision : ValidationDecisionClass)
  | markFailed (key : ValidationFenceKey) (ownerToken : String)
      (failureCode : ValidationErrorCode) (failedAt : ℕ) (retryable : Bool)
  | getDecision (validationDecisionId : String)
  | listDecisions (runId : String)
  | saveDecision (decision : ValidationDecision)
  | getRun (runId : String)
  | getObjective (objectiveId : String) (objectiveVersion : ℕ)
  | getByRunBinding (runId : String)
  | resolve (projectId environment : String)
  | getContext (runId : String)
  | getLock (runId : String)
  | nowIso
  | nextValidationDecisionId
  | nextExceptionId
  | evaluate (runId : String) (record : StoredPlanRecord) (runContext : ValidationRunContext)
  | compilePlanningContext (runId : String) (runContext : ValidationRunContext)
  | validatePlan (plan : ExecutionPlan) (context : PlanningContext)
      (deterministicFindings : List ValidationFinding)
  | revisePlan (envelope : RevisionEnvelope) (context : PlanningContext)
  | compileRevision (proposal : PlanProposal) (context : PlanningContext)
      (targetPlanVersion : ℕ)
  deriving DecidableEq

/-- What each call answers with when it does not throw. -/
abbrev ValidationOp.Res : ValidationOp → Type
  | getPlan _ => Option StoredPlanRecord
  | getPlanVersion .. => Option StoredPlanRecord
  | listPlans _ => List StoredPlanRecord
  | savePlan _ => StoredPlanRecord
  | markSuperseded _ => StoredPlanRecord
  | getFence _ => Option ValidationFence
  | beginFence .. => BeginValidationResult
  | markDecided .. => Unit
  | markFailed .. => Unit
  | getDecision _ => Option ValidationDecision
  | listDecisions _ => List ValidationDecision
  | saveDecision _ => ValidationDecision
  | getRun _ => Option StoredRun
  | getObjective .. => Option Objective
  | getByRunBinding _ => Option Objective
  | resolve .. => ActiveControlContext
  | getContext _ => Option VerifiedRepositoryContext
  | getLock _ => Option LockedRepositoryState
  | nowIso => ℕ
  | nextValidationDecisionId => String
  | nextExceptionId => String
  | evaluate .. => DeterministicValidationResult
  | compilePlanningContext .. => PlanningContext
  | validatePlan .. => ContextualValidationAssessment
  | revisePlan .. => PlanProposal
  | compileRevision .. => RevisedPlan

abbrev ValidationSig : Sig := Sig.throwing ValidationOp ValidationOp.Res ValidationFailure

/-! ## The world -/

/-- What the rest of the system answers. -/
structure ValidationSurroundings where
  now : ℕ
  run : String → Option StoredRun
  objective : String → ℕ → Option Objective
  boundObjective : String → Option Objective
  resolve : String → String → Except ValidationFailure ActiveControlContext
  context : String → Option VerifiedRepositoryContext
  lock : String → Option LockedRepositoryState
  evaluate : String → StoredPlanRecord → ValidationRunContext →
    Except ValidationFailure DeterministicValidationResult
  compilePlanningContext : String → ValidationRunContext →
    Except ValidationFailure PlanningContext
  validatePlan : ExecutionPlan → PlanningContext → List ValidationFinding →
    Except ValidationFailure ContextualValidationAssessment
  revisePlan : RevisionEnvelope → PlanningContext → Except ValidationFailure PlanProposal
  /-- The plan a proposal compiles to, once it has an id. -/
  compileRevision : PlanProposal → PlanningContext → ℕ →
    Except ValidationFailure (String → ExecutionPlan)
  /-- The calls that throw, whatever they would do. -/
  fails : ValidationOp → Option ValidationFailure

/-- The identities that the generators will give out. -/
structure ValidationIdentities where
  plan : ℕ → String
  decision : ℕ → String
  exception : ℕ → String

/-- How many identities of each kind were given out. -/
structure GivenIdentities where
  plans : ℕ
  decisions : ℕ
  exceptions : ℕ

structure ValidationWorld where
  plans : PlanStore
  fences : FenceStore
  decisions : DecisionStore
  surroundings : ValidationSurroundings
  identities : ValidationIdentities
  given : GivenIdentities

namespace ValidationWorld

variable (w : ValidationWorld)

def setPlans (s : PlanStore) : ValidationWorld := { w with plans := s }

def setFences (s : FenceStore) : ValidationWorld := { w with fences := s }

def setDecisions (s : DecisionStore) : ValidationWorld := { w with decisions := s }

def setGiven (g : GivenIdentities) : ValidationWorld := { w with given := g }

/-- What a call does that does not fail. -/
def answer (X : ValidationExternal) (w : ValidationWorld) :
    (o : ValidationOp) → Except ValidationFailure o.Res × ValidationWorld
  | .getPlan runId => (.ok (w.plans.getByRunId runId), w)
  | .getPlanVersion runId planVersion => (.ok (w.plans.getVersion runId planVersion), w)
  | .listPlans runId => (.ok (w.plans.listByRunId runId), w)
  | .savePlan record => ((w.plans.save record).1, w.setPlans (w.plans.save record).2)
  | .markSuperseded planId =>
    ((w.plans.markSuperseded planId).1, w.setPlans (w.plans.markSuperseded planId).2)
  | .getFence key => (.ok (w.fences.get key), w)
  | .beginFence key now =>
    ((w.fences.begin key X.digest now).1, w.setFences (w.fences.begin key X.digest now).2)
  | .markDecided key ownerToken now validationDecisionId decision =>
    ((w.fences.markDecided key ownerToken now validationDecisionId decision).1,
      w.setFences (w.fences.markDecided key ownerToken now validationDecisionId decision).2)
  | .markFailed key ownerToken failureCode failedAt retryable =>
    ((w.fences.markFailed key ownerToken failureCode failedAt retryable).1,
      w.setFences (w.fences.markFailed key ownerToken failureCode failedAt retryable).2)
  | .getDecision validationDecisionId => (.ok (w.decisions.get validationDecisionId), w)
  | .listDecisions runId => (.ok (DecisionStore.listByRunId w.decisions runId), w)
  | .saveDecision decision =>
    ((DecisionStore.save w.decisions decision).1,
      w.setDecisions (DecisionStore.save w.decisions decision).2)
  | .getRun runId => (.ok (w.surroundings.run runId), w)
  | .getObjective objectiveId objectiveVersion =>
    (.ok (w.surroundings.objective objectiveId objectiveVersion), w)
  | .getByRunBinding runId => (.ok (w.surroundings.boundObjective runId), w)
  | .resolve projectId environment => (w.surroundings.resolve projectId environment, w)
  | .getContext runId => (.ok (w.surroundings.context runId), w)
  | .getLock runId => (.ok (w.surroundings.lock runId), w)
  | .nowIso => (.ok w.surroundings.now, w)
  | .nextValidationDecisionId =>
    (.ok (w.identities.decision w.given.decisions),
      w.setGiven { w.given with decisions := w.given.decisions + 1 })
  | .nextExceptionId =>
    (.ok (w.identities.exception w.given.exceptions),
      w.setGiven { w.given with exceptions := w.given.exceptions + 1 })
  | .evaluate runId record runContext => (w.surroundings.evaluate runId record runContext, w)
  | .compilePlanningContext runId runContext =>
    (w.surroundings.compilePlanningContext runId runContext, w)
  | .validatePlan plan context deterministicFindings =>
    (w.surroundings.validatePlan plan context deterministicFindings, w)
  | .revisePlan envelope context => (w.surroundings.revisePlan envelope context, w)
  | .compileRevision proposal context targetPlanVersion =>
    ((w.surroundings.compileRevision proposal context targetPlanVersion).map fun plan =>
        ⟨w.identities.plan w.given.plans, plan (w.identities.plan w.given.plans)⟩,
      w.setGiven { w.given with plans := w.given.plans + 1 })

end ValidationWorld

/-- The calls on the in-memory stores. -/
def validation (X : ValidationExternal) : Handler ValidationSig ValidationWorld := fun o w =>
  match w.surroundings.fails o with
  | some e => (.error e, w)
  | none => w.answer X o

/-! ## Results -/

/-- `PlanningExceptionTypeSchema`. -/
inductive PlanningExceptionType where
  | unrepairableViolation
  | repeatedSemanticViolation
  | revisionAttemptsExhausted
  | revisionFailed
  | revisionBudgetExceeded
  | authorityUnavailable
  deriving DecidableEq, Repr

/-- `PlanningException`, which hands a plan over to a human. -/
structure PlanningException where
  exceptionId : String
  runId : String
  planId : String
  planVersion : ℕ
  planHash : String
  exceptionType : PlanningExceptionType
  decisionClass : ValidationDecisionClass
  reasonCodes : List ValidationReasonCode
  findings : List ValidationFinding
  validationAttempt : ℕ
  revisionAttemptsUsed : ℕ
  raisedAt : ℕ
  deriving DecidableEq, Repr

structure ValidationResult where
  runId : String
  planId : String
  planVersion : ℕ
  planHash : String
  decision : ValidationDecisionClass
  validationDecisionId : String
  validationAttempt : ℕ
  reasonCodes : List ValidationReasonCode
  requiresHumanAction : Bool
  findings : List ValidationFinding
  planStatus : StoredPlanStatus
  revisionAttemptsUsed : ℕ
  supersededPlanIds : List String
  contextualAssessmentUsed : Bool
  exception : Option PlanningException
  deriving DecidableEq, Repr

/-! ## The service -/

/-- `MAX_SEMANTIC_REVISION_ATTEMPTS`. -/
def maxSemanticRevisionAttempts : ℕ := 2

/-- `MAX_REVISED_PLAN_VERSION`. -/
def maxRevisedPlanVersion : ℕ := maxSemanticRevisionAttempts + 1

/-- `VALIDATOR_ID`. -/
def validatorId : String := "validator_phase5_v1"

/-- What the service is configured with. -/
structure ValidationDeps where
  maxRevisionAttempts : ℕ
  revisionProvider : String
  revisionModelId : String

namespace ValidationService

abbrev Call := Async ValidationSig ValidationFailure

def call (o : ValidationOp) : Call o.Res := Async.await o

/-- A `try` block whose exceptions become a `ValidationError`. -/
def orThrow {α : Type} (p : Call α) (code : ValidationErrorCode) (message : String) : Call α :=
  tryCatch p fun _ => throw (.validation code message)

/-- The fence key of a plan. -/
def fenceKey (runId : String) (record : StoredPlanRecord) : ValidationFenceKey where
  runId := runId
  planId := record.planId
  planVersion := record.planVersion
  planHash := record.planHash

/-- `toResult`. -/
def toResult (decision : ValidationDecision) (record : StoredPlanRecord)
    (reasonCodes : List ValidationReasonCode) (supersededPlanIds : List String)
    (revisionAttemptsUsed : ℕ) (contextualAssessmentUsed : Bool)
    (exception : Option PlanningException) : ValidationResult where
  runId := decision.runId
  planId := decision.planId
  planVersion := decision.planVersion
  planHash := decision.planHash
  decision := decision.decision
  validationDecisionId := decision.validationDecisionId
  validationAttempt := decision.validationAttempt
  reasonCodes := reasonCodes
  requiresHumanAction := decision.requiresHumanAction
  findings := decision.findings
  planStatus := record.status
  revisionAttemptsUsed := revisionAttemptsUsed
  supersededPlanIds := supersededPlanIds
  contextualAssessmentUsed := contextualAssessmentUsed
  exception := exception

/-! ### Replay -/

/-- The decision that a fence names, where it is decided and names one. -/
def replayedDecision (fence : Option ValidationFence) : Option String :=
  match fence with
  | some fence => if fence.status = .decided then fence.validationDecisionId else none
  | none => none

/-- The result of a decision that is replayed. -/
def replay (runId : String) (record : StoredPlanRecord) (decision : ValidationDecision) :
    Call ValidationResult := do
  let plans ← call (.listPlans runId)
  let superseded := plans.filter fun entry => entry.status = .superseded
  pure (toResult decision record [] (superseded.map fun entry => entry.planId)
    (record.planVersion - 1) false none)

/-- `settledResult`. -/
def settledResult (runId : String) : Call (Option ValidationResult) := do
  let record ← call (.getPlan runId)
  match (record : Option StoredPlanRecord) with
  | none => pure none
  | some record => do
    let fence ← call (.getFence (fenceKey runId record))
    match replayedDecision fence with
    | none => pure none
    | some validationDecisionId => do
      let decision ← call (.getDecision validationDecisionId)
      match (decision : Option ValidationDecision) with
      | none => pure none
      | some decision =>
        if decision.decision = .revise then pure none
        else do
          let result ← replay runId record decision
          pure (some result)

/-! ### Readiness -/

/-- `ValidationReadinessCodeSchema`, less `READY`. -/
inductive ReadinessRefusal where
  | runNotValidating
  | planNotFound
  | planNotValidatable
  | planRunMismatch
  | objectiveMismatch
  | controlContextUnavailable
  deriving DecidableEq, Repr

/-- The error code that a refusal is thrown under. -/
def ReadinessRefusal.errorCode : ReadinessRefusal → ValidationErrorCode
  | .planNotFound => .planNotFound
  | .planNotValidatable => .planNotValidatable
  | .planRunMismatch => .planNotValidatable
  | _ => .validationNotReady

/-- The message of an error. -/
def failureMessage : ValidationFailure → String
  | .validation _ message => message
  | .other message => message

abbrev Readiness := Except (ReadinessRefusal × String) StoredPlanRecord

/-- The control plane's part of `assess`. -/
def assessControl (run : StoredRun) (plan : StoredPlanRecord) : Call Readiness :=
  tryCatch
    (do
      let _ ← call (.resolve run.projectId run.requestedEnvironment)
      pure (.ok plan))
    fun error => pure (.error (.controlContextUnavailable, failureMessage error))

/-- The objective's part of `assess`. -/
def assessObjective (runId : String) (run : StoredRun) (plan : StoredPlanRecord) :
    Call Readiness := do
  let objective ← call (.getByRunBinding runId)
  match (objective : Option Objective) with
  | none => pure (.error (.objectiveMismatch, s!"No objective bound to run {runId}"))
  | some objective =>
    if objective.objectiveId ≠ run.objectiveId ∨
        objective.objectiveVersion ≠ run.objectiveVersion ∨
        objective.projectId ≠ run.projectId then
      pure (.error (.objectiveMismatch, "Bound objective does not match run identity"))
    else assessControl run plan

/-- The plan's part of `assess`. -/
def assessPlan (runId : String) (run : StoredRun) : Call Readiness := do
  let plan ← call (.getPlan runId)
  match (plan : Option StoredPlanRecord) with
  | none => pure (.error (.planNotFound, s!"No plan for run {runId}"))
  | some plan =>
    if plan.runId ≠ runId then
      pure (.error (.planRunMismatch, "Latest plan is not bound to this run"))
    else if plan.status ≠ .readyForValidation ∧ plan.status ≠ .underValidation then
      pure (.error (.planNotValidatable,
        s!"Plan {plan.planId} status is {plan.status.text}"))
    else assessObjective runId run plan

/-- `ValidationReadinessService.assess`. -/
def assess (runId : String) : Call Readiness := do
  let run ← call (.getRun runId)
  match (run : Option StoredRun) with
  | none => pure (.error (.runNotValidating, s!"Run not found: {runId}"))
  | some run =>
    if run.state ≠ .validating then
      pure (.error (.runNotValidating,
        s!"Run {runId} is in {run.state.text}, expected VALIDATING"))
    else assessPlan runId run

/-- `assertReady`. -/
def assertReady (runId : String) : Call StoredPlanRecord := do
  let readiness ← assess runId
  match readiness with
  | .ok plan => pure plan
  | .error (refusal, message) => throw (.validation refusal.errorCode message)

/-- `loadRunContext`. -/
def loadRunContext (runId : String) : Call ValidationRunContext := do
  let run ← call (.getRun runId)
  match (run : Option StoredRun) with
  | none => throw (.validation .validationNotReady s!"Run not found: {runId}")
  | some run => do
    let objective ← call (.getObjective run.objectiveId run.objectiveVersion)
    match (objective : Option Objective) with
    | none => throw (.validation .validationNotReady s!"Objective not found for run {runId}")
    | some objective => do
      let control ← call (.resolve run.projectId run.requestedEnvironment)
      let repositoryContext ← call (.getContext runId)
      let liveLock ← call (.getLock runId)
      pure
        { projectId := run.projectId
          environment := run.requestedEnvironment
          control := control
          repositoryContext := repositoryContext
          liveLock := liveLock
          objective := objective }

/-! ### Examination -/

/-- What the loop of `validate` carries from round to round. -/
structure LoopState where
  record : StoredPlanRecord
  seenFingerprints : List String
  supersededPlanIds : List String
  attempt : ℕ
  contextualAssessmentUsed : Bool

def markUnderValidation (record : StoredPlanRecord) : Call StoredPlanRecord :=
  if record.status = .underValidation then pure record
  else call (.savePlan (record.withStatus .underValidation))

/-- `compileContext`. -/
def compileContext (runId : String) (runContext : ValidationRunContext) :
    Call PlanningContext := do
  let run ← call (.getRun runId)
  let objective ← call (.getByRunBinding runId)
  match (run : Option StoredRun), (objective : Option Objective) with
  | none, _ => throw (.validation .validationNotReady s!"Run not found: {runId}")
  | some _, none =>
    throw (.validation .objectiveNotFound s!"No objective bound to run {runId}")
  | some _, some _ =>
    if runContext.repositoryContext = none ∨ runContext.liveLock = none then
      throw (.validation .validationNotReady "Verified repository context/lock missing")
    else call (.compilePlanningContext runId runContext)

/-- What the validators found about a plan, and what a revision of it would need. -/
structure Examination where
  findings : List ValidationFinding
  plan : Option ExecutionPlan
  compiledContext : Option PlanningContext

/-- The assessment of a plan by the contextual model. -/
def assessContextually (X : ValidationExternal) (runId : String)
    (runContext : ValidationRunContext) (deterministicFindings : List ValidationFinding)
    (plan : ExecutionPlan) : Call Examination := do
  let context ← compileContext runId runContext
  let assessment ← call (.validatePlan plan context deterministicFindings)
  let contextual ← Async.ofExcept (contextualFindings X assessment)
  pure ⟨deterministicFindings ++ contextual, some plan, some context⟩

/-- The validators on a plan: the deterministic ladder, and the contextual model where nothing
is beyond repair. -/
def examine (X : ValidationExternal) (runId : String) (runContext : ValidationRunContext)
    (record : StoredPlanRecord) : Call Examination := do
  let result ← call (.evaluate runId record runContext)
  match (result.contextualEligible : Bool), (result.plan : Option ExecutionPlan) with
  | true, some plan => assessContextually X runId runContext result.findings plan
  | _, plan => pure ⟨result.findings, plan, none⟩

/-- The fingerprints of the findings that block. -/
def blockingFingerprints (findings : List ValidationFinding) : List String :=
  (findings.filter fun finding => finding.blocking).map fun finding => finding.semanticFingerprint

/-- `ViolationFingerprintService.repeated`, in the order of `current`. -/
def repeated (previous current : List String) : List String :=
  current.filter fun fingerprint => previous.contains fingerprint

def remainingRevisionAttempts (deps : ValidationDeps) (record : StoredPlanRecord) : ℕ :=
  min (deps.maxRevisionAttempts - (record.planVersion - 1))
    (maxRevisedPlanVersion - record.planVersion)

/-! ### Revision -/

/-- `RevisionEnvelopeBuilder.build`. -/
def buildEnvelope (runId : String) (record : StoredPlanRecord) (plan : ExecutionPlan)
    (runContext : ValidationRunContext) (findings : List ValidationFinding)
    (priorSemanticFingerprints : List String) : Except ValidationFailure RevisionEnvelope :=
  if findings.any isUnrepairableBlocking then
    .error (.validation .revisionNotPermitted
      "Cannot build a revision envelope while unrepairable blocking findings exist")
  else if ¬findings.any fun finding => finding.blocking && finding.repairable then
    .error (.validation .revisionNotPermitted
      "Cannot build a revision envelope without repairable blocking findings")
  else
    .ok
      { runId := runId
        plan := plan
        targetPlanVersion := record.planVersion + 1
        revisionAttempt := record.planVersion
        control := runContext.control
        environment := runContext.environment
        repairableFindings :=
          findings.filter fun finding => finding.blocking && finding.repairable
        advisoryFindings := findings.filter fun finding => !finding.blocking
        priorSemanticFingerprints := priorSemanticFingerprints }

/-- The record of a revised plan. -/
def revisedRecord (deps : ValidationDeps) (runId : String) (record : StoredPlanRecord)
    (context : PlanningContext) (revised : RevisedPlan) (now : ℕ) : StoredPlanRecord where
  planId := revised.planId
  planVersion := record.planVersion + 1
  planHash := revised.plan.planHash
  plan := revised.plan
  runId := runId
  status := .readyForValidation
  origin :=
    { planningContextFingerprint := context.planningContextFingerprint
      planningPromptVersion := "1.0.0"
      modelProvider := deps.revisionProvider
      modelId := deps.revisionModelId
      createdAt := now
      supersedesPlanId := some record.planId
      lineageRootPlanId := some (record.origin.lineageRootPlanId.getD record.planId) }
  planVersion_pos := Nat.succ_pos _

/-- The call that compiles a proposal, its exceptions under the message of their cause. -/
def compileProposal (proposal : PlanProposal) (context : PlanningContext)
    (targetPlanVersion : ℕ) : Call RevisedPlan :=
  tryCatch (call (.compileRevision proposal context targetPlanVersion)) fun error =>
    throw (.validation .revisionCompilationFailed (failureMessage error))

/-- `revise`. -/
def revise (deps : ValidationDeps) (runId : String) (record : StoredPlanRecord)
    (plan : ExecutionPlan) (context : PlanningContext) (runContext : ValidationRunContext)
    (findings : List ValidationFinding) (priorSemanticFingerprints : List String) :
    Call StoredPlanRecord :=
  if maxRevisedPlanVersion < record.planVersion + 1 then
    throw (.validation .revisionLimitExceeded
      s!"Automated revision may not produce plan version {record.planVersion + 1}")
  else do
    let envelope ← Async.ofExcept
      (buildEnvelope runId record plan runContext findings priorSemanticFingerprints)
    let proposal ← call (.revisePlan envelope context)
    let revised ← compileProposal proposal context (record.planVersion + 1)
    let now ← call .nowIso
    orThrow (call (.savePlan (revisedRecord deps runId record context revised now)))
      .revisionPersistenceFailed "Failed to persist the revised plan"

/-- A revision, or the `ValidationError` that it failed with; other errors go on. -/
def tryRevise (deps : ValidationDeps) (runId : String) (record : StoredPlanRecord)
    (plan : ExecutionPlan) (context : PlanningContext) (runContext : ValidationRunContext)
    (findings : List ValidationFinding) (priorSemanticFingerprints : List String) :
    Call (Except (ValidationErrorCode × String) StoredPlanRecord) :=
  tryCatch
    (do
      let revised ← revise deps runId record plan context runContext findings
        priorSemanticFingerprints
      pure (.ok revised))
    fun error =>
      match error with
      | .validation code message => pure (.error (code, message))
      | error => throw error

/-- The finding that a revision failed. -/
def revisionFailureDraft (code : ValidationErrorCode) (message : String) :
    ValidationFindingDraft where
  validatorType := .state
  category := "revision"
  severity := .error
  ruleId :=
    if code = .revisionBudgetExceeded then "REVISION_BUDGET_EXCEEDED" else "REVISION_FAILED"
  message := message
  repairable := false
  approvalEligible := true
  blocking := true
  evidenceRefs := []
  affectedStepIds := []
  subject := [("code", [code.text])]

/-! ### Decisions -/

def planStatusFor : ValidationDecisionClass → StoredPlanStatus
  | .pass => .validatedPass
  | .block => .validatedBlock
  | .humanApprovalRequired => .validatedApprovalRequired
  | .revise => .superseded

def exceptionTypeFor (decision : ValidationDecisionClass)
    (reasonCodes : List ValidationReasonCode) : Option PlanningExceptionType :=
  if reasonCodes.contains .repeatedSemanticViolation then some .repeatedSemanticViolation
  else if reasonCodes.contains .revisionAttemptsExhausted then some .revisionAttemptsExhausted
  else if reasonCodes.contains .revisionFailed then some .revisionFailed
  else if decision = .block then some .unrepairableViolation
  else none

/-- `persistDecision`. -/
def persistDecision (runId : String) (record : StoredPlanRecord)
    (runContext : ValidationRunContext) (findings : List ValidationFinding)
    (decision : ValidationDecisionClass) (requiresHumanAction : Bool)
    (validationAttempt : ℕ) : Call ValidationDecision := do
  let validationDecisionId ← call .nextValidationDecisionId
  let now ← call .nowIso
  orThrow
    (call (.saveDecision
      { validationDecisionId := validationDecisionId
        decision := decision
        findings := findings
        decidedAt := now
        validatorId := validatorId
        runId := runId
        planId := record.planId
        planVersion := record.planVersion
        planHash := record.planHash
        policyBundleHash := runContext.control.policyHash
        repositoryFingerprint :=
          (runContext.repositoryContext.map fun context => context.repositoryFingerprint).getD
            record.plan.repositoryFingerprint
        validationAttempt := validationAttempt
        requiresHumanAction := requiresHumanAction }))
    .validationDecisionPersistenceFailed "Failed to persist the validation decision"

def assertRunStaysValidating (runId : String) : Call Unit := do
  let run ← call (.getRun runId)
  match (run : Option StoredRun) with
  | none => throw (.validation .invalidValidationState "Run disappeared during validation")
  | some run =>
    if run.state ≠ .validating then
      throw (.validation .invalidValidationState
        s!"Run left VALIDATING during validation (now {run.state.text})")
    else pure ()

/-- What `finalize` is given, besides the fence. -/
structure FinalVerdict where
  record : StoredPlanRecord
  findings : List ValidationFinding
  decision : ValidationDecisionClass
  reasonCodes : List ValidationReasonCode
  requiresHumanAction : Bool
  exceptionType : Option PlanningExceptionType
  validationAttempt : ℕ
  supersededPlanIds : List String
  contextualAssessmentUsed : Bool

/-- The exception that hands a plan over, where there is one. -/
def raiseException (runId : String) (verdict : FinalVerdict) (record : StoredPlanRecord) :
    Call (Option PlanningException) :=
  match verdict.exceptionType with
  | none => pure none
  | some exceptionType => do
    let exceptionId ← call .nextExceptionId
    let now ← call .nowIso
    pure (some
      { exceptionId := exceptionId
        runId := runId
        planId := record.planId
        planVersion := record.planVersion
        planHash := record.planHash
        exceptionType := exceptionType
        decisionClass :=
          if verdict.decision = .block then .block else .humanApprovalRequired
        reasonCodes := verdict.reasonCodes
        findings := verdict.findings
        validationAttempt := verdict.validationAttempt
        revisionAttemptsUsed := verdict.record.planVersion - 1
        raisedAt := now })

/-- `finalize`. -/
def finalize (runId : String) (runContext : ValidationRunContext) (key : ValidationFenceKey)
    (ownerToken : String) (verdict : FinalVerdict) : Call ValidationResult := do
  let decision ← persistDecision runId verdict.record runContext verdict.findings
    verdict.decision verdict.requiresHumanAction verdict.validationAttempt
  let now ← call .nowIso
  call (.markDecided key ownerToken now decision.validationDecisionId verdict.decision)
  let record ← call (.savePlan (verdict.record.withStatus (planStatusFor verdict.decision)))
  assertRunStaysValidating runId
  let exception ← raiseException runId verdict record
  pure (toResult decision record verdict.reasonCodes verdict.supersededPlanIds
    (verdict.record.planVersion - 1) verdict.contextualAssessmentUsed exception)

/-! ### The loop -/

/-- How the adjudication of a plan goes on: with another plan, or to a final decision. -/
inductive Adjudication where
  | next (state : LoopState)
  | final (verdict : FinalVerdict)

/-- The verdict on a plan that no revision will be asked for. -/
def finalVerdict (st : LoopState) (record : StoredPlanRecord) (examination : Examination)
    (outcome : ValidationDecisionOutcome) (exceptionType : Option PlanningExceptionType) :
    FinalVerdict where
  record := record
  findings := examination.findings
  decision := outcome.decision
  reasonCodes := outcome.reasonCodes
  requiresHumanAction := outcome.requiresHumanAction
  exceptionType := exceptionType
  validationAttempt := st.attempt
  supersededPlanIds := st.supersededPlanIds
  contextualAssessmentUsed := st.contextualAssessmentUsed

/-- The verdict where a revision failed. -/
def revisionFailedVerdict (st : LoopState) (record : StoredPlanRecord)
    (examination : Examination) (code : ValidationErrorCode) (failureFinding : ValidationFinding) :
    FinalVerdict :=
  let findings := examination.findings ++ [failureFinding]
  { finalVerdict st record { examination with findings := findings }
      (boundedHumanEscalation findings .revisionFailed [failureFinding.findingId])
      (some (if code = .revisionBudgetExceeded then .revisionBudgetExceeded
        else .revisionFailed)) with
    requiresHumanAction := true }

/-- The loop once the revised plan is saved: the decision on the plan it replaces. -/
def supersede (runId : String) (runContext : ValidationRunContext) (key : ValidationFenceKey)
    (ownerToken : String) (st : LoopState) (record revised : StoredPlanRecord)
    (findings : List ValidationFinding) : Call LoopState := do
  let decision ← persistDecision runId record runContext findings .revise false st.attempt
  let now ← call .nowIso
  call (.markDecided key ownerToken now decision.validationDecisionId .revise)
  let _ ← call (.markSuperseded record.planId)
  pure
    { st with
      record := revised
      seenFingerprints := st.seenFingerprints ++ blockingFingerprints findings
      supersededPlanIds := st.supersededPlanIds ++ [record.planId] }

/-- The adjudication once a revision is due. -/
def adjudicateRevision (X : ValidationExternal) (deps : ValidationDeps) (runId : String)
    (runContext : ValidationRunContext) (key : ValidationFenceKey) (ownerToken : String)
    (st : LoopState) (record : StoredPlanRecord) (examination : Examination)
    (plan : ExecutionPlan) (context : PlanningContext) : Call Adjudication := do
  let revision ← tryRevise deps runId record plan context runContext examination.findings
    st.seenFingerprints
  match revision with
  | .ok revised => do
    let st ← supersede runId runContext key ownerToken st record revised examination.findings
    pure (.next st)
  | .error (code, message) => do
    let failureFinding ← Async.ofExcept (createFinding X (revisionFailureDraft code message))
    pure (.final (revisionFailedVerdict st record examination code failureFinding))

/-- What the engine decides on an examined plan. -/
def outcomeOn (deps : ValidationDeps) (st : LoopState) (record : StoredPlanRecord)
    (examination : Examination) : ValidationDecisionOutcome :=
  ValidationDecisionEngine.decide
    { findings := examination.findings
      repeatedFingerprints :=
        repeated st.seenFingerprints (blockingFingerprints examination.findings)
      remainingRevisionAttempts := remainingRevisionAttempts deps record }

/-- The loop state once a plan was examined. -/
def LoopState.examined (st : LoopState) (examination : Examination) : LoopState :=
  { st with
    contextualAssessmentUsed :=
      st.contextualAssessmentUsed || examination.compiledContext.isSome }

/-- The `try` block of a round, up to `finalize`. -/
def adjudicate (X : ValidationExternal) (deps : ValidationDeps) (runId : String)
    (runContext : ValidationRunContext) (key : ValidationFenceKey) (ownerToken : String)
    (st : LoopState) : Call Adjudication := do
  let record ← markUnderValidation st.record
  let examination ← examine X runId runContext record
  let outcome := outcomeOn deps st record examination
  let st := st.examined examination
  match outcome.decision, examination.plan, examination.compiledContext with
  | .revise, some plan, some context =>
    adjudicateRevision X deps runId runContext key ownerToken st record examination plan context
  | .revise, _, _ =>
    let terminal := boundedHumanEscalation examination.findings .revisionFailed
      outcome.decidingFindingIds
    pure (.final (finalVerdict st record examination terminal
      (exceptionTypeFor terminal.decision terminal.reasonCodes)))
  | _, _, _ =>
    pure (.final (finalVerdict st record examination outcome
      (exceptionTypeFor outcome.decision outcome.reasonCodes)))

/-- How a round of the loop ends. -/
inductive RoundEnd where
  | next (state : LoopState)
  | done (result : ValidationResult)

/-- A round whose fence was started, with its `catch` block. -/
def startedRound (X : ValidationExternal) (deps : ValidationDeps) (runId : String)
    (runContext : ValidationRunContext) (key : ValidationFenceKey) (ownerToken : String)
    (st : LoopState) : Call RoundEnd :=
  tryCatch
    (do
      let adjudication ← adjudicate X deps runId runContext key ownerToken st
      match adjudication with
      | .next st => pure (.next st)
      | .final verdict => do
        let result ← finalize runId runContext key ownerToken verdict
        pure (.done result))
    fun error => do
      let failureCode := match error with
        | .validation code _ => code
        | .other _ => .invalidValidationState
      let now ← call .nowIso
      tryCatch (call (.markFailed key ownerToken failureCode now true)) fun _ => pure ()
      throw error

/-- The decision that a decided fence names. -/
def decisionOf (fence : ValidationFence) : Call (Option ValidationDecision) :=
  match fence.validationDecisionId with
  | some validationDecisionId => call (.getDecision validationDecisionId)
  | none => pure none

/-- A round whose fence was already decided. -/
def decidedRound (runId : String) (st : LoopState) (key : ValidationFenceKey)
    (fence : ValidationFence) : Call RoundEnd := do
  let decided ← decisionOf fence
  match (decided : Option ValidationDecision) with
  | none => throw (.validation .validationReconciliationFailed
      "Validation fence is DECIDED but no decision record exists")
  | some decided =>
    if decided.decision ≠ .revise then
      pure (.done (toResult decided st.record [] st.supersededPlanIds (st.record.planVersion - 1)
        st.contextualAssessmentUsed none))
    else do
      let next ← call (.getPlanVersion runId (key.planVersion + 1))
      match (next : Option StoredPlanRecord) with
      | none => throw (.validation .validationReconciliationFailed
          "A revision was decided but the revised plan version is missing")
      | some next => pure (.next { st with record := next })

/-- One round of the loop. -/
def round (X : ValidationExternal) (deps : ValidationDeps) (runId : String)
    (runContext : ValidationRunContext) (st : LoopState) : Call RoundEnd := do
  let st := { st with attempt := st.attempt + 1 }
  let key := fenceKey runId st.record
  let now ← call .nowIso
  let begun ← call (.beginFence key now)
  match (begun : BeginValidationResult) with
  | .alreadyDecided fence => decidedRound runId st key fence
  | .started _ ownerToken => startedRound X deps runId runContext key ownerToken st

/-- The loop, for a number of rounds; `none` where they did not suffice. -/
def loop (X : ValidationExternal) (deps : ValidationDeps) (runId : String)
    (runContext : ValidationRunContext) : ℕ → LoopState → Call (Option ValidationResult)
  | 0, _ => pure none
  | rounds + 1, st => do
    let roundEnd ← round X deps runId runContext st
    match roundEnd with
    | .done result => pure (some result)
    | .next st => loop X deps runId runContext rounds st

/-- The fingerprints that block in earlier decisions. -/
def seenFingerprints (decisions : List ValidationDecision) : List String :=
  decisions.flatMap fun decision => blockingFingerprints decision.findings

/-- `validate`, with a number of rounds for its loop. -/
def validate (X : ValidationExternal) (deps : ValidationDeps) (rounds : ℕ) (runId : String) :
    Call (Option ValidationResult) := do
  let settled ← settledResult runId
  match settled with
  | some result => pure (some result)
  | none => do
    let record ← assertReady runId
    let runContext ← loadRunContext runId
    let decisions ← call (.listDecisions runId)
    loop X deps runId runContext rounds
      { record := record
        seenFingerprints := seenFingerprints decisions
        supersededPlanIds := []
        attempt := 0
        contextualAssessmentUsed := false }

end ValidationService

end Orchestrator
