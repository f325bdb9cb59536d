import Orchestrator.Execution.Pipeline
import Orchestrator.Execution.Rollback
import Orchestrator.Planning.DependencyGraph

/-!
# The execution service

`ExecutionService.execute`, from the replay of a finished execution to the final result. One
call goes through these parts, in the order of the source:

* `replayFinished`, `beginExecution`: what an earlier call left behind, and the fence;
* `prepare`: the preflight, the dry run, the authority checks, the attempt and the move of the
  run to `EXECUTING`;
* `executeStep` for each step of `executionOrder`, with `executeAuthorizedRollback` after a
  failure and `contain` where execution must stop;
* `finish`: the status, the result and the fence.

The locals of the source's loop are `ExecuteLocals`.
-/

namespace Orchestrator

open Atomic Collections

/-- What a service is built with besides its repositories. -/
structure ExecutionConfig where
  external : External
  grammar : ArgumentGrammar
  testProfiles : TestProfileRegistry

/-- The variables that the loop of `execute` assigns to. -/
structure ExecuteLocals where
  completedByStepId : JsMap String StepExecutionResult
  stepResults : List StepExecutionResult
  failureSummary : Option String
  containmentRequired : Bool
  failed : Bool
  runContained : Bool

/-- The variables that `execute` sets once, before its loop. -/
structure AttemptContext where
  runId : String
  plan : PlanRecord
  authorizationRecordId : String
  attempt : ExecutionAttempt
  control : ProjectControlContext
  capabilityIdsByAction : JsMap String String
  expectedCapabilityFingerprint : String

namespace AttemptContext

def executionAttemptId (ctx : AttemptContext) : String := ctx.attempt.executionAttemptId

end AttemptContext

namespace ExecuteLocals

def initial : ExecuteLocals where
  completedByStepId := .empty
  stepResults := []
  failureSummary := none
  containmentRequired := false
  failed := false
  runContained := false

/-- `stepResults.push(result)`. -/
def push (l : ExecuteLocals) (result : StepExecutionResult) : ExecuteLocals :=
  { l with stepResults := l.stepResults ++ [result] }

/-- `stepResults.push(result); completedByStepId.set(stepId, result)`. -/
def complete (l : ExecuteLocals) (stepId : String) (result : StepExecutionResult) :
    ExecuteLocals :=
  { l.push result with completedByStepId := l.completedByStepId.set stepId result }

/-- The failure summary so far, and the reason that comes after it. -/
def addSummary (l : ExecuteLocals) (reason : String) : ExecuteLocals :=
  { l with failureSummary := some (l.failureSummary.getD "undefined" ++ "; " ++ reason) }

end ExecuteLocals

/-- A method of the execution service, with the locals of `execute`. -/
abbrev ExecMethod (α : Type) := Method ExecutionSig ExecuteLocals JsError α

namespace ExecutionService

variable (C : ExecutionConfig)

/-! ## Order -/

/-- `executionOrder`: the steps in the order of the graph's groups. -/
def executionOrder (X : External) (compiled : List CompiledExecutionStep) :
    Except JsError (List CompiledExecutionStep) :=
  match DependencyGraphService.validate X (compiled.map fun s => ⟨s.stepId, s.dependsOn⟩) with
  | .error e => .error e
  | .ok groups =>
    .ok (groups.flatten.filterMap (JsMap.ofList (compiled.map fun s => (s.stepId, s))).get)

/-- The compiled steps that are not compensating only. -/
def primarySteps (plan : ExecutionPlan) (compiled : List CompiledExecutionStep) :
    List CompiledExecutionStep :=
  compiled.filter fun s => s.stepId ∉ RollbackService.compensatingOnlyStepIds plan

/-! ## Runs -/

/-- `commitRunTransition`, at the clock's time. -/
def commitRunTransition (run : RunRecord) (next : RunState) : Exec Unit := do
  let now ← call .nowIso
  Async.ofExcept (assertTransition run.state next)
  let _ ← call (.transitionRun run.runId run.state run.recordRevision next now)

/-- `transitionToContained`. -/
def transitionToContained (runId : String) : Exec Bool := do
  let run ← call (.getRun runId)
  match run with
  | none => pure false
  | some run =>
    if run.state = .contained then pure true
    else do
      commitRunTransition run .contained
      pure true

/-! ## The parts of one turn of the loop -/

def skippedResult (ctx : AttemptContext) (step : CompiledExecutionStep) (reason : String)
    (nowIso : ℕ) : StepExecutionResult where
  stepId := step.stepId
  idempotencyKey := step.idempotencyKey
  capabilityId := step.capabilityId
  actionType := step.actionType.text
  status := .skipped
  startedAt := nowIso
  completedAt := some nowIso
  outputArtifactRefs := []
  outputHashes := []
  affectedTargets := []
  verificationMetadata := none
  errorCode := some .executionPreconditionFailed
  errorMessage := some reason
  executionAttemptId := ctx.executionAttemptId
  runId := ctx.runId

/-- `assertBeforeStep`, for a step whose commit is the plan's own. -/
def assertBeforeStep (step : CompiledExecutionStep)
    (completedByStepId : JsMap String StepExecutionResult) (capabilityStillEnabled : Bool)
    (ledger : ExecutionResourceLedger) : Except JsError Unit :=
  match step.dependsOn.find? fun depId =>
      (completedByStepId.get depId).map (·.status) ≠ some .succeeded with
  | some depId =>
    .error (.execution .executionPreconditionFailed s!"Dependency {depId} has not succeeded")
  | none =>
    if !capabilityStillEnabled then
      .error (.execution .executionCapabilityChanged
        s!"Capability {step.capabilityId} is no longer enabled")
    else
      match (if step.actionType = .createLocalPatch then
          C.grammar.revalidate step.validatedTargets else .ok ()) with
      | .error e => .error e
      | .ok () => ledger.assertWithinBudget C.external

/-- The containment of an attempt, with what it preserves. -/
def containment (ctx : AttemptContext) (l : ExecuteLocals) (reasonCode : ExecutionErrorCode)
    (reasonMessage : String) (containedAt : ℕ) : ContainmentResult where
  runId := ctx.runId
  executionAttemptId := ctx.executionAttemptId
  reasonCode := reasonCode
  reasonMessage := reasonMessage
  preservedStepIds := (l.stepResults.filter (·.status = .succeeded)).map (·.stepId)
  preservedArtifactRefs := l.stepResults.flatMap (·.outputArtifactRefs)
  containedAt := containedAt

/-- What the source does wherever execution must stop: the run moves to `CONTAINED`, and the
containment is recorded as an event. -/
def contain (ctx : AttemptContext) (reasonCode : ExecutionErrorCode) (reasonMessage : String) :
    ExecMethod Unit := do
  let contained ← Method.lift (transitionToContained ctx.runId)
  Method.assign fun l => { l with runContained := contained }
  let l ← Method.read
  let now ← Method.lift (call .nowIso)
  let result ← Method.lift
    (call (.buildContainmentResult (containment ctx l reasonCode reasonMessage now)))
  Method.lift (appendEvent ctx.runId (.executionContained result))

def stepTask (ctx : AttemptContext) (step : CompiledExecutionStep) : StepTask :=
  ⟨step, ctx.runId, ctx.executionAttemptId⟩

/-- A step of the attempt as the pipeline's input. -/
def stepInput (ctx : AttemptContext) (step : CompiledExecutionStep) (capability : Capability) :
    StepInput := ⟨stepTask ctx step, capability⟩

/-- The pipeline's result for a primary step. -/
def recordPipelineResult (ctx : AttemptContext) (step : CompiledExecutionStep) :
    PipelineResult → ExecMethod Unit
  | .replay result => Method.assign (·.complete step.stepId result)
  | .unknown result message => do
    Method.assign fun l => { l with
      failed := true
      containmentRequired := true
      failureSummary := some message }
    Method.assign (·.complete step.stepId result)
    Method.lift (appendEvent ctx.runId
      (.stepExecutionFailed step.stepId .stepExecutionStateUnknown))
    contain ctx .stepExecutionStateUnknown message
  | .succeeded result => do
    Method.assign (·.complete step.stepId result)
    Method.lift (appendEvent ctx.runId (.stepExecutionSucceeded step.stepId))

/-- The `try` block of a turn: the capability, the preconditions and the pipeline. -/
def runPrimaryStep (ctx : AttemptContext) (step : CompiledExecutionStep) : ExecMethod Unit := do
  let capability ← Method.lift
    (Async.ofExcept (requireCapability ctx.control step.capabilityId step.actionType.text))
  let l ← Method.read
  let ledger ← Method.lift (call (.readLedger ctx.executionAttemptId))
  Method.lift (Async.ofExcept
    (assertBeforeStep C step l.completedByStepId capability.enabled ledger))
  let result ← Method.lift
    (runBoundedStepPipeline C.external C.testProfiles (stepInput ctx step capability))
  recordPipelineResult ctx step result

/-! ## Rollback -/

/-- `Rollback compilation failed` and `Rollback actuation failed` errors. -/
def rollbackFailed (what : String) (error : JsError) : JsError :=
  .execution .rollbackFailed
    (match error with
      | .nonError => s!"Rollback {what} failed"
      | error => "Rollback " ++ what ++ " failed: " ++ error.messageOr "")

/-- The compiled compensating step, under the key of this rollback. -/
def compileCompensating (ctx : AttemptContext) (rollbackPlan : RollbackPlan)
    (compensatingStepId : String) : Except JsError CompiledExecutionStep :=
  match ctx.plan.plan.steps.find? (·.stepId = compensatingStepId) with
  | none =>
    .error (.execution .rollbackNotAuthorized
      s!"Compensating step {compensatingStepId} missing from approved plan")
  | some planStep =>
    match DryRunCompiler.compileStep C.external C.grammar ctx.plan.plan.planHash
        ctx.capabilityIdsByAction planStep with
    | .error e => .error (rollbackFailed "compilation" e)
    | .ok compiled => .ok { compiled with
        idempotencyKey := rollbackIdempotencyKey C.external ctx.plan.planHash
          rollbackPlan.sourceStepId rollbackPlan.rollbackPlanId compiled.stepId
          compiled.capabilityId (fingerprintTargets C.external compiled.validatedTargets)
          (fingerprintArguments C.external compiled.normalizedArguments) }

/-- One compensating step, through the full pipeline. -/
def compensate (ctx : AttemptContext) (rollbackPlan : RollbackPlan)
    (liveControl : ProjectControlContext) (compensatingStepId : String) : ExecMethod Unit := do
  let compiled ← Method.lift
    (Async.ofExcept (compileCompensating C ctx rollbackPlan compensatingStepId))
  let capability ← Method.lift (Async.ofExcept
    (requireCapability liveControl compiled.capabilityId compiled.actionType.text))
  tryCatch
    (do
      let result ← Method.lift
        (runBoundedStepPipeline C.external C.testProfiles (stepInput ctx compiled capability))
      match result with
      | .unknown _ message => throw (.execution .stepExecutionStateUnknown message)
      | .succeeded result => Method.assign (·.push result)
      | .replay result => Method.assign (·.push result))
    fun error =>
      if error.isStateUnknown then throw error else throw (rollbackFailed "actuation" error)

/-- A rollback that the gate let through: it is counted and announced, and the live capability
authority is checked. -/
def startRollback (ctx : AttemptContext) (failedStepId : String) (rollbackPlan : RollbackPlan) :
    Exec ProjectControlContext := do
  call .recordAutomaticRollback
  appendEvent ctx.runId (.rollbackStarted failedStepId rollbackPlan.compensatingStepIds
    rollbackPlan.rollbackPlanId)
  let run ← call (.getRun ctx.runId)
  match run with
  | none => throw (.execution .rollbackFailed "Run disappeared during rollback")
  | some run => do
    let liveControl ← call (.resolveControl run.projectId run.requestedEnvironment)
    let liveFingerprint := capabilitySetFingerprint C.external (uniqueCapabilitiesForPlanActions
      (ctx.plan.plan.steps.map (·.actionType)) liveControl.availableCapabilities)
    throwIf (liveFingerprint ≠ ctx.expectedCapabilityFingerprint)
      (.execution .executionCapabilityChanged
        "Capability set fingerprint changed at rollback; refusing automatic rollback")
    pure liveControl

/-- The checks of a rollback before its first compensating step, from the gate on. -/
def authorizeRollback (ctx : AttemptContext) (failedStepId : String) :
    Exec (RollbackPlan × ProjectControlContext) := do
  let rollbackPlan ← call (.assertCanRollback ctx.plan.plan failedStepId)
  let liveControl ← startRollback C ctx failedStepId rollbackPlan
  pure (rollbackPlan, liveControl)

/-- `executeAuthorizedRollback`. -/
def executeAuthorizedRollback (ctx : AttemptContext) (failedStepId : String) :
    ExecMethod Unit := do
  let authorized ← Method.lift (authorizeRollback C ctx failedStepId)
  Method.forEach (compensate C ctx authorized.1 authorized.2) authorized.1.compensatingStepIds
  Method.lift
    (appendEvent ctx.runId (.rollbackCompleted failedStepId authorized.1.rollbackPlanId))

/-! ## Failures -/

/-- The `catch` block of a turn for an error that leaves the step's state unknown. -/
def containUnknownStep (ctx : AttemptContext) (step : CompiledExecutionStep) (message : String) :
    ExecMethod Unit := do
  let result ← Method.lift
    (existingOrContained (stepTask ctx step) .stepExecutionStateUnknown message)
  Method.assign (·.complete step.stepId result)
  Method.lift (appendEvent ctx.runId
    (.stepExecutionFailed step.stepId .stepExecutionStateUnknown))
  Method.assign fun l => { l with containmentRequired := true }
  contain ctx .stepExecutionStateUnknown message

/-- The rollback after a failed step; where it throws, the execution is contained. -/
def rollbackOrContain (ctx : AttemptContext) (failedStepId : String) : ExecMethod Unit :=
  tryCatch (executeAuthorizedRollback C ctx failedStepId) fun rollbackError => do
    Method.assign fun l => { l with containmentRequired := true }
    let reasonMessage := rollbackError.messageOr "Rollback failed"
    Method.assign (·.addSummary reasonMessage)
    contain ctx (rollbackError.codeOr .rollbackFailed) reasonMessage

/-- The `catch` block of a turn. -/
def handleStepError (ctx : AttemptContext) (step : CompiledExecutionStep) (error : JsError) :
    ExecMethod Unit := do
  let message := error.messageOr "Step execution failed"
  Method.assign fun l => { l with failed := true, failureSummary := some message }
  if error.isStateUnknown then containUnknownStep ctx step message
  else do
    let result ← Method.lift (failStep (stepTask ctx step) error)
    Method.assign (·.complete step.stepId result)
    Method.lift (appendEvent ctx.runId
      (.stepExecutionFailed step.stepId (error.codeOr .stepExecutionFailed)))
    rollbackOrContain C ctx step.stepId

/-- `depsFailed`: some dependency has no `SUCCEEDED` result in this attempt. -/
def depsFailed (completedByStepId : JsMap String StepExecutionResult)
    (step : CompiledExecutionStep) : Bool :=
  step.dependsOn.any fun depId =>
    (completedByStepId.get depId).map (·.status) ≠ some .succeeded

/-- One turn of the loop. -/
def executeStep (ctx : AttemptContext) (step : CompiledExecutionStep) : ExecMethod Unit := do
  let l ← Method.read
  if l.failed || l.containmentRequired then do
    let now ← Method.lift (call .nowIso)
    Method.assign (·.push (skippedResult ctx step
      (if l.containmentRequired then "Skipped because execution was contained"
        else "Skipped because a prior dependency failed") now))
  else if depsFailed l.completedByStepId step then do
    let now ← Method.lift (call .nowIso)
    Method.assign (·.complete step.stepId
      (skippedResult ctx step "Dependency did not succeed" now))
  else tryCatch (runPrimaryStep C ctx step) (handleStepError C ctx step)

/-! ## The end of an execution -/

/-- The status of the result and of the attempt, from the counts of the step results. -/
def finalStatus (l : ExecuteLocals) (orderLength : ℕ) :
    ExecutionResultStatus × ExecutionAttemptStatus :=
  let succeeded := l.stepResults.filter (·.status = .succeeded)
  let failedSteps := l.stepResults.filter (·.status = .failed)
  if l.containmentRequired then (.executionContained, .contained)
  else if failedSteps.length = 0 ∧ succeeded.length = orderLength then
    (.executionSucceeded, .succeeded)
  else if succeeded.length > 0 ∧ failedSteps.length > 0 then (.executionPartial, .partialSuccess)
  else (.executionFailed, .failed)

/-- The result that `execute` returns. -/
def executionResult (ctx : AttemptContext) (l : ExecuteLocals) (status : ExecutionResultStatus)
    (completedAt : ℕ) : ExecutionResult where
  executionAttemptId := ctx.executionAttemptId
  runId := ctx.runId
  planId := ctx.plan.planId
  planVersion := ctx.plan.planVersion
  planHash := ctx.plan.planHash
  authorizationRecordId := ctx.authorizationRecordId
  status := status
  stepResults := l.stepResults
  startedAt := ctx.attempt.startedAt
  completedAt := completedAt
  artifactRefs := l.stepResults.flatMap (·.outputArtifactRefs)
  failureSummary := l.failureSummary
  containmentRequired := l.containmentRequired

/-- The fence's last transition, and the run's where containment has not moved it yet. -/
def closeFence (ctx : AttemptContext) (fenceKey : ExecutionFenceKey) (ownerToken : String)
    (runContained : Bool) (status : ExecutionResultStatus) (completedAt : ℕ) : Exec Unit :=
  match status with
  | .executionContained => do
    let _ ← call (.transitionFence fenceKey ownerToken completedAt .contained
      ⟨some (.status .executionContained), none, none⟩)
    if runContained then pure ()
    else do
      let _ ← transitionToContained ctx.runId
  | .executionFailed => do
    let _ ← call (.transitionFence fenceKey ownerToken completedAt .failed
      ⟨some (.status .executionFailed), none, none⟩)
  | .executionPartial => do
    let _ ← call (.transitionFence fenceKey ownerToken completedAt .failed
      ⟨some (.status .executionPartial), none, none⟩)
  | .executionSucceeded => do
    let _ ← call (.transitionFence fenceKey ownerToken completedAt .completed
      ⟨none, some ctx.executionAttemptId, some .executionSucceeded⟩)

/-- The end of `execute`, after its loop. -/
def finish (ctx : AttemptContext) (fenceKey : ExecutionFenceKey) (ownerToken : String)
    (orderLength : ℕ) (l : ExecuteLocals) : Exec ExecutionResult := do
  let status := finalStatus l orderLength
  let completedAt ← call .nowIso
  let result ← call (.parseExecutionResult (executionResult ctx l status.1 completedAt))
  let _ ← call (.saveAttempt { ctx.attempt with
    completedAt := some completedAt
    status := status.2 })
  call (.cacheResult ctx.runId result)
  call (.storeFenceResult fenceKey result)
  closeFence ctx fenceKey ownerToken l.runContained status.1 completedAt
  appendEvent ctx.runId (.executionFinished status.1 ctx.executionAttemptId)
  pure result

/-! ## The start of an execution -/

def fenceKeyOf (runId : String) (plan : PlanRecord) (authorizationRecordId : String) :
    ExecutionFenceKey where
  runId := runId
  planId := plan.planId
  planVersion := plan.planVersion
  planHash := plan.planHash
  authorizationRecordId := authorizationRecordId

def executionInProgress : JsError :=
  .execution .executionInProgress "Execution is already in progress for this authorization"

/-- The result stored for a fence, or the one this service remembers for the run. -/
def priorResult (runId : String) (stored : Option ExecutionResult) :
    Exec (Option ExecutionResult) := do
  match stored with
  | some prior => do
    call (.cacheResult runId prior)
    pure (some prior)
  | none => call (.cachedResult runId)

/-- The replay of a finished execution, for a run that is `EXECUTING` or `CONTAINED`. -/
def replayFinished (run : RunRecord) (runId : String) : Exec (Option ExecutionResult) := do
  let plan ← call (.getPlan runId)
  let authorizationRecord ← call (.getLatestAuthorization runId)
  match plan, authorizationRecord with
  | some plan, some authorizationRecord => do
    let fenceKey := fenceKeyOf runId plan authorizationRecord.authorizationRecordId
    let fence : Option ExecutionFence ← call (.getFence fenceKey)
    match (fence.map (·.status) : Option ExecutionFenceStatus) with
    | some .completed | some .failed | some .contained => do
      let stored ← call (.getFenceResult fenceKey)
      priorResult runId stored
    | some .inProgress =>
      if run.state = .executing then throw executionInProgress else pure none
    | some .notStarted | none => pure none
  | _, _ => pure none

/-- What `execute` does with its fence: it returns an earlier result, or it owns the fence. -/
inductive Begun where
  | replay (result : ExecutionResult)
  | started (fence : ExecutionFence) (ownerToken : String)

def beginExecution (runId : String) (fenceKey : ExecutionFenceKey) (nowIso : ℕ) : Exec Begun := do
  let begun ← call (.beginFence fenceKey nowIso)
  match begun with
  | .inProgress _ => throw executionInProgress
  | .alreadyCompleted _ result => do
    let stored ←
      match result with
      | some result => pure (some result)
      | none => call (.getFenceResult fenceKey)
    let prior ← priorResult runId stored
    match prior with
    | some prior => pure (.replay prior)
    | none => throw (.execution .executionAlreadyCompleted
        "Execution fence is terminal but result is missing")
  | .started fence ownerToken => pure (.started fence ownerToken)

/-- The run, where the source asserts that there is one. -/
def requireRun (runId : String) (error : JsError) : Exec RunRecord := do
  let run ← call (.getRun runId)
  match run with
  | none => throw error
  | some run => pure run

/-- The authority snapshot of an attempt. -/
def authoritySnapshot (runId snapshotId : String) (ready : Readiness)
    (control : ProjectControlContext) (liveFingerprint : String) (nowIso : ℕ) :
    ExecutionAuthoritySnapshot where
  authoritySnapshotId := snapshotId
  runId := runId
  planId := ready.plan.planId
  planVersion := ready.plan.planVersion
  planHash := ready.plan.planHash
  authorizationRecordId := ready.authorizationRecord.authorizationRecordId
  repositoryCommitSha := ready.plan.plan.repositoryCommitSha
  repositoryFingerprint := ready.plan.plan.repositoryFingerprint
  policyBundleHash := ready.plan.plan.policyBundleHash
  authorizedCapabilitySetFingerprint := ready.authorizationRecord.capabilitySetFingerprint
  liveCapabilitySetFingerprint := liveFingerprint
  capabilitySetFingerprint := ready.authorizationRecord.capabilitySetFingerprint
  executionMode := control.executionMode
  capturedAt := nowIso

/-- The attempt as it is first saved. -/
def newAttempt (runId attemptId snapshotId : String) (ready : Readiness) (attemptNumber : ℕ)
    (nowIso : ℕ) : ExecutionAttempt where
  executionAttemptId := attemptId
  runId := runId
  planId := ready.plan.planId
  planVersion := ready.plan.planVersion
  planHash := ready.plan.planHash
  authorizationRecordId := ready.authorizationRecord.authorizationRecordId
  attemptNumber := attemptNumber
  startedAt := nowIso
  completedAt := none
  status := .inProgress
  authoritySnapshotId := some snapshotId

/-- The preflight, the control context and the dry run: what is checked before there is an
attempt. -/
def checkAuthority (runId : String) (ready : Readiness) :
    Exec (ProjectControlContext × List CompiledExecutionStep) := do
  call (.assertFresh runId ready.plan)
  let missing : JsError := .error "Cannot read properties of null"
  let run ← requireRun runId missing
  let run' ← requireRun runId missing
  let control ← call (.resolveControl run.projectId run'.requestedEnvironment)
  let compiled ← Async.ofExcept (DryRunCompiler.compile C.external C.grammar ready.plan.plan
    (capabilityIdsByAction control.availableCapabilities))
  pure (control, compiled)

/-- The fingerprints, the authority snapshot and the attempt, saved as `IN_PROGRESS`. -/
def openAttempt (runId : String) (ready : Readiness) (control : ProjectControlContext)
    (attemptNumber : ℕ) (nowIso : ℕ) : Exec ExecutionAttempt := do
  let attemptId ← call .nextExecutionAttemptId
  let authorized := ready.authorizationRecord.capabilitySetFingerprint
  throwIf (authorized ≠ ready.capabilitySetFingerprint) (.execution .executionCapabilityChanged
    "Readiness fingerprint does not match AuthorizationRecord")
  let live := capabilitySetFingerprint C.external (uniqueCapabilitiesForPlanActions
    (ready.plan.plan.steps.map (·.actionType)) control.availableCapabilities)
  throwIf (live ≠ authorized) (.execution .executionCapabilityChanged
    "Live capability authority does not match AuthorizationRecord fingerprint")
  let snapshotId ← call .nextAuthoritySnapshotId
  let snapshot ← Async.ofExcept (parseExecutionAuthoritySnapshot C.external
    (authoritySnapshot runId snapshotId ready control live nowIso))
  call (.saveSnapshot snapshot attemptId)
  let attempt ← Async.ofExcept (parseExecutionAttempt C.external
    (newAttempt runId attemptId snapshotId ready attemptNumber nowIso))
  let _ ← call (.saveAttempt attempt)
  pure attempt

/-- The move of the run to `EXECUTING`, announced by an event. -/
def startRun (runId : String) (attempt : ExecutionAttempt) (planHash : String) : Exec Unit := do
  appendEvent runId (.executionStarted attempt.executionAttemptId planHash)
  let run ← requireRun runId (.execution .executionNotReady "Run disappeared")
  Async.ofExcept (assertTransition run.state .executing)
  commitRunTransition run .executing

/-- The part of `execute` before its loop. -/
def prepare (runId : String) (ready : Readiness) (attemptNumber nowIso : ℕ) :
    Exec (AttemptContext × List CompiledExecutionStep) := do
  let checked ← checkAuthority C runId ready
  let attempt ← openAttempt C runId ready checked.1 attemptNumber nowIso
  startRun runId attempt ready.plan.planHash
  pure (
    { runId := runId
      plan := ready.plan
      authorizationRecordId := ready.authorizationRecord.authorizationRecordId
      attempt := attempt
      control := checked.1
      capabilityIdsByAction := capabilityIdsByAction checked.1.availableCapabilities
      expectedCapabilityFingerprint := ready.capabilitySetFingerprint }, checked.2)

/-- The part of `execute` once the run is `EXECUTING`: the ledger, the order, the loop and the
end. -/
def runAttempt (ctx : AttemptContext) (compiled : List CompiledExecutionStep)
    (fenceKey : ExecutionFenceKey) (ownerToken : String) : Exec ExecutionResult := do
  call (.createLedger ctx.executionAttemptId ctx.control.resourceBudget)
  let order ← Async.ofExcept
    (executionOrder C.external (primarySteps ctx.plan.plan compiled))
  (do
    Method.forEach (executeStep C ctx) order
    let l ← Method.read
    Method.lift (finish ctx fenceKey ownerToken order.length l)
    : ExecMethod ExecutionResult).asAsync .initial

/-- The `try` block of `execute`, and the `catch` that fails the fence. -/
def executeOwned (runId : String) (ready : Readiness) (fenceKey : ExecutionFenceKey)
    (fence : ExecutionFence) (ownerToken : String) (nowIso : ℕ) : Exec ExecutionResult :=
  tryCatch
    (do
      let prepared ← prepare C runId ready fence.attempt nowIso
      runAttempt C prepared.1 prepared.2 fenceKey ownerToken)
    fun error => do
      let now ← call .nowIso
      let _ ← call (.transitionFence fenceKey ownerToken now .failed
        ⟨some (.error (error.codeOr .executionFenceFailed)), none, none⟩)
      throw error

/-- The part of `execute` that a finished execution does not answer. -/
def executeReady (runId : String) : Exec ExecutionResult := do
  let ready ← call (.requireReady runId)
  let fenceKey := fenceKeyOf runId ready.plan ready.authorizationRecord.authorizationRecordId
  let nowIso ← call .nowIso
  let begun ← beginExecution runId fenceKey nowIso
  match begun with
  | .replay result => pure result
  | .started fence ownerToken => executeOwned C runId ready fenceKey fence ownerToken nowIso

/-- `execute`. -/
def execute (runId : String) : Exec ExecutionResult := do
  let run ← requireRun runId (.execution .executionNotReady s!"Run not found: {runId}")
  let prior ←
    if run.state = .executing ∨ run.state = .contained then replayFinished run runId
    else pure none
  match prior with
  | some result => pure result
  | none => executeReady C runId

end ExecutionService

end Orchestrator
