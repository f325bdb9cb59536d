import Orchestrator.Execution.World

/-!
# The bounded step pipeline

`runBoundedStepPipeline` takes one compiled step through the store and the ledger to the
actuator:

```text
RESERVED → (runtime reserve) → RUNNING → SafeActuator → SUCCEEDED|FAILED
```

`RUNNING` is stored before the actuator is called. `failStep` is what a caller does with an
error that escapes the pipeline.
-/

namespace Orchestrator

open Atomic

/-- An async function of the execution service. -/
abbrev Exec (α : Type) := Async ExecutionSig JsError α

namespace ExecutionService

/-- One awaited call of a dependency. -/
def call (o : ExecutionOp) : Exec o.Res := Async.await o

/-- `if (c) throw error`. -/
def throwIf (c : Prop) [Decidable c] (error : JsError) : Exec Unit :=
  if c then throw error else pure ()

/-- `appendEvent`: nothing happens for a run that does not exist. -/
def appendEvent (runId : String) (data : ExecutionEventData) : Exec Unit := do
  let run ← call (.getRun runId)
  match run with
  | none => pure ()
  | some run => do
    let now ← call .nowIso
    let eventId ← call .nextEventId
    let keyId ← call .nextEventId
    call (.appendEvent
      { eventId := eventId
        runId := runId
        idempotencyKey := s!"{data.eventType}:{runId}:{keyId}"
        projectId := run.projectId
        createdAt := now
        data := data })

/-! ## Actuating -/

/-- A step within the attempt it belongs to. -/
structure StepTask where
  step : CompiledExecutionStep
  runId : String
  executionAttemptId : String
  deriving DecidableEq, Repr

/-- The input of the pipeline: the step, its attempt and its capability. -/
structure StepInput extends StepTask where
  capability : Capability
  deriving DecidableEq, Repr

/-- `artifacts.save` and `persistArtifactBytes`, with the new artifact's id. -/
def saveStepArtifact (input : StepInput) (artifactType : ArtifactType)
    (relativePath contentHash : String) (size nowIso : ℕ) : Exec String := do
  let artifactId ← call .nextArtifactId
  let artifact : ExecutionArtifact :=
    { artifactId := artifactId
      runId := input.runId
      executionAttemptId := input.executionAttemptId
      stepId := input.step.stepId
      artifactType := artifactType
      relativePath := relativePath
      contentHash := contentHash
      size := size
      createdAt := nowIso }
  call (.saveArtifact artifact)
  let run ← call (.getRun input.runId)
  match run with
  | none => pure artifactId
  | some _ => do
    call (.putBlob artifact)
    pure artifactId

/-- The result of a step whose actuation went through. -/
def succeededResult (input : StepInput) (startedAt : ℕ) (refs hashes targets : List String)
    (metadata : Option (List (String × MetadataValue))) : Exec StepExecutionResult := do
  let completedAt ← call .nowIso
  pure
    { stepId := input.step.stepId
      idempotencyKey := input.step.idempotencyKey
      capabilityId := input.step.capabilityId
      actionType := input.step.actionType.text
      status := .succeeded
      startedAt := startedAt
      completedAt := some completedAt
      outputArtifactRefs := refs
      outputHashes := hashes
      affectedTargets := targets
      verificationMetadata := metadata
      errorCode := none
      errorMessage := none
      executionAttemptId := input.executionAttemptId
      runId := input.runId }

/-- `finalizeRecoveryOutreachStep`. -/
def finalizeRecoveryOutreachStep (input : StepInput) (nowIso : ℕ)
    (result : RecoveryOutreachActuatorResult) : Exec StepExecutionResult := do
  let artifactId ← saveStepArtifact input .recoveryAttempt result.artifactRelativePath
    result.contentHash result.size nowIso
  succeededResult input nowIso [artifactId] [result.contentHash] [result.attemptId]
    (some ([("channel", .text result.channel), ("deliveryOutcome", .text result.deliveryOutcome),
        ("replayed", .flag result.replayed)] ++
      match result.providerMessageId with
      | none => []
      | some id => if id = "" then [] else [("providerMessageId", .text id)]))

variable (X : External) (profiles : TestProfileRegistry)

/-- The outcome of a `RUN_TESTS` actuation, checked after its artifact has been saved. -/
def checkTestOutcome (testProfileId : String) (timeoutMs : ℚ)
    (result : RegisteredTestActuatorResult) : Except JsError Unit :=
  if result.timedOut then
    .error (.execution .stepExecutionFailed
      s!"Test profile {testProfileId} timed out after {X.numberToString timeoutMs}ms")
  else if result.exitCode ≠ 0 then
    .error (.execution .stepExecutionFailed
      s!"Test profile {testProfileId} exited with {result.exitCode}")
  else .ok ()

/-- The artifact of a test run, saved where the actuator left one. -/
def saveTestArtifact (input : StepInput) (nowIso : ℕ) (result : RegisteredTestActuatorResult) :
    Exec (List String) :=
  let path := result.artifactRelativePath.getD ""
  let hash := result.contentHash.getD ""
  let size := jsLength result.stdoutSummary + jsLength result.stderrSummary
  if path ≠ "" ∧ hash ≠ "" then
    (fun id => [id]) <$> saveStepArtifact input .testResult path hash size nowIso
  else pure []

/-- The `RUN_TESTS` case of `actuateStep`: the artifact is saved whatever the outcome. -/
def finalizeTestRun (input : StepInput) (testProfileId : String) (timeoutMs : ℚ) (nowIso : ℕ)
    (result : RegisteredTestActuatorResult) : Exec StepExecutionResult := do
  let refs ← saveTestArtifact input nowIso result
  Async.ofExcept (checkTestOutcome X testProfileId timeoutMs result)
  succeededResult input nowIso refs (if refs = [] then [] else [result.contentHash.getD ""])
    [testProfileId]
    (some [("exitCode", .number result.exitCode), ("argv", .texts result.argv),
      ("durationMs", .number result.durationMs), ("shell", .flag false),
      ("timeoutMs", .number timeoutMs)])

/-- `actuateStep`: one call of the actuator, and what is kept of its answer. -/
def actuateStep (input : StepInput) (timeoutMs : ℚ) : Exec StepExecutionResult := do
  let nowIso ← call .nowIso
  match input.step.actionType with
  | .createLocalPatch => do
    let result ← call (.actuate .createLocalPatch input.step input.executionAttemptId timeoutMs)
    let artifactId ← saveStepArtifact input .patch result.artifactRelativePath
      result.contentHash result.size nowIso
    succeededResult input nowIso [artifactId] [result.contentHash] result.affectedPaths none
  | .runTests =>
    match input.step.normalizedArguments.testProfileId with
    | none => throw (X.zodError ["testProfileId"])
    | some testProfileId => do
      let result ← call (.actuate .runTests input.step input.executionAttemptId timeoutMs)
      finalizeTestRun X input testProfileId timeoutMs nowIso result
  | .createTask => do
    let result ← call (.actuate .createTask input.step input.executionAttemptId timeoutMs)
    let artifactId ← saveStepArtifact input .task result.artifactRelativePath
      result.contentHash (jsLength result.description) nowIso
    succeededResult input nowIso [artifactId] [result.contentHash] [result.taskId] none
  | .preparePullRequest => do
    let result ← call (.actuate .preparePullRequest input.step input.executionAttemptId timeoutMs)
    throwIf (result.githubWritePerformed = true) (.execution .executionArtifactFailed
      "PR preparation must not perform GitHub writes")
    let artifactId ← saveStepArtifact input .prPreparation result.artifactRelativePath
      result.contentHash result.size nowIso
    succeededResult input nowIso [artifactId] [result.contentHash]
      [result.proposedHeadBranchName]
      (some [("githubWritePerformed", .flag false), ("title", .text result.title),
        ("baseBranch", .text result.baseBranch)])
  | .sendRecoverySms => do
    let result ← call (.actuate .sendRecoverySms input.step input.executionAttemptId timeoutMs)
    finalizeRecoveryOutreachStep input nowIso result
  | .sendRecoveryEmail => do
    let result ← call (.actuate .sendRecoveryEmail input.step input.executionAttemptId timeoutMs)
    finalizeRecoveryOutreachStep input nowIso result
  | .createCallbackTask => do
    let result ← call (.actuate .createCallbackTask input.step input.executionAttemptId timeoutMs)
    finalizeRecoveryOutreachStep input nowIso result

/-! ## The pipeline -/

inductive PipelineResult where
  | succeeded (result : StepExecutionResult)
  | replay (result : StepExecutionResult)
  | unknown (result : StepExecutionResult) (message : String)
  deriving DecidableEq, Repr

/-- What the pipeline has after it tried to reserve: an early result, or a reservation. -/
inductive Reservation where
  | early (result : PipelineResult)
  | outcome (outcome : ReserveOutcome)
  deriving DecidableEq, Repr

/-- The result reported for a step that is not in the store and must not be run. -/
def containedResult (task : StepTask) (startedAt completedAt : ℕ) (code : ExecutionErrorCode)
    (message : String) : StepExecutionResult where
  stepId := task.step.stepId
  idempotencyKey := task.step.idempotencyKey
  capabilityId := task.step.capabilityId
  actionType := task.step.actionType.text
  status := .contained
  startedAt := startedAt
  completedAt := some completedAt
  outputArtifactRefs := []
  outputHashes := []
  affectedTargets := task.step.validatedTargets
  verificationMetadata := none
  errorCode := some code
  errorMessage := some message
  executionAttemptId := task.executionAttemptId
  runId := task.runId

/-- The record in the store, or a contained result in its place. -/
def existingOrContained (task : StepTask) (code : ExecutionErrorCode) (message : String) :
    Exec StepExecutionResult := do
  let existing ← call (.getByIdempotencyKey task.step.idempotencyKey)
  match existing with
  | some result => pure result
  | none => do
    let startedAt ← call .nowIso
    let completedAt ← call .nowIso
    pure (containedResult task startedAt completedAt code message)

/-- `tryReconcileRunningStep`. -/
def tryReconcileRunningStep (input : StepInput) : Exec (Option StepExecutionResult) := do
  let proven ← call (.reconcileRunningStep input.step.idempotencyKey input.step.stepId
    input.step.actionType.text input.runId input.executionAttemptId)
  match proven with
  | none => pure none
  | some proven => some <$> call (.reconcileSucceeded input.step.idempotencyKey proven)

/-- What `reserve` is asked for a step. -/
def reserveInput (input : StepInput) (startedAt : ℕ) : ReserveInput where
  idempotencyKey := input.step.idempotencyKey
  runId := input.runId
  executionAttemptId := input.executionAttemptId
  stepId := input.step.stepId
  capabilityId := input.step.capabilityId
  actionType := input.step.actionType.text
  startedAt := startedAt

/-- The first part of the pipeline: a step that is already running is reconciled, or reported as
unknown; every other refusal escapes. -/
def reserveStep (input : StepInput) : Exec Reservation :=
  tryCatch
    (do
      let startedAt ← call .nowIso
      Reservation.outcome <$> call (.reserve (reserveInput input startedAt)))
    fun error =>
      if error.isStateUnknown then do
        let reconciled ← tryReconcileRunningStep input
        match reconciled with
        | some result => pure (.early (.replay result))
        | none => do
          let message := error.messageOr ""
          let result ← existingOrContained input.toStepTask .stepExecutionStateUnknown message
          pure (.early (.unknown result message))
      else throw error

/-- The timeout of a `RUN_TESTS` step's profile; other steps have none. -/
def testProfileTimeoutSeconds (step : CompiledExecutionStep) : Except JsError (Option ℕ) :=
  if step.actionType = .runTests then
    some <$> requireTestProfile profiles (step.normalizedArguments.testProfileId.getD "")
  else .ok none

/-- What a step that went through adds to the usage. -/
def stepUsage (step : CompiledExecutionStep) (actuated : StepExecutionResult) : StepUsage where
  testExecutions := if step.actionType = .runTests then 1 else 0
  taskCreations := if step.actionType = .createTask then 1 else 0
  artifactBytes := actuated.outputHashes.length
  stepsExecuted := 1

/-- What follows an actuation that went through: complete, settle, record. -/
def settleStep (input : StepInput) (timeoutMs : ℚ) (startedMs : ℕ)
    (actuated : StepExecutionResult) : Exec PipelineResult := do
  let completed ← call (.complete input.step.idempotencyKey actuated)
  let nowMs ← call .dateNow
  call (.settleReservedDuration input.executionAttemptId timeoutMs
    (max 1 ((nowMs : ℚ) - (startedMs : ℚ))))
  call (.recordStep input.executionAttemptId (stepUsage input.step actuated))
  pure (.succeeded completed)

/-- The `try` block of the pipeline. -/
def actuateAndSettle (input : StepInput) (timeoutMs : ℚ) (startedMs : ℕ) :
    Exec PipelineResult := do
  let actuated ← actuateStep X input timeoutMs
  settleStep input timeoutMs startedMs actuated

/-- The second part of the pipeline, from a reservation on. -/
def runReservedStep (input : StepInput) : Exec PipelineResult := do
  let testTimeout ← Async.ofExcept (testProfileTimeoutSeconds profiles input.step)
  let ledger ← call (.readLedger input.executionAttemptId)
  let timeoutMs := ledger.allowedRuntimeMs input.capability.maximumRuntimeSeconds testTimeout
  throwIf (timeoutMs ≤ 0) (.execution .executionResourceBudgetExceeded
    "Insufficient execution time remains to safely start this operation")
  Async.ofExcept (ledger.assertDiscreteBudgetAvailable X 1 0)
  call (.reserveDurationMs input.executionAttemptId timeoutMs)
  appendEvent input.runId
    (.stepExecutionStarted input.step.stepId input.step.idempotencyKey)
  -- the side-effect boundary: RUNNING before the actuator
  let _ ← call (.markRunning input.step.idempotencyKey)
  let startedMs ← call .dateNow
  tryCatch (actuateAndSettle X input timeoutMs startedMs) fun error => do
    call (.releaseReservation input.executionAttemptId timeoutMs)
    throw error

/-- `runBoundedStepPipeline`. -/
def runBoundedStepPipeline (input : StepInput) : Exec PipelineResult := do
  let reservation ← reserveStep input
  match reservation with
  | .early result => pure result
  | .outcome (.replay result) => pure (.replay result)
  | .outcome (.reserved _) => runReservedStep X profiles input

/-! ## A failed step -/

/-- The result recorded for a step that failed with an error. -/
def failedResult (task : StepTask) (startedAt completedAt : ℕ) (error : JsError) :
    StepExecutionResult :=
  { containedResult task startedAt completedAt (error.codeOr .stepExecutionFailed)
      (error.messageOr "Step execution failed") with status := .failed }

/-- The failure recorded for an error of the pipeline that leaves no doubt about the step. -/
def failStep (task : StepTask) (error : JsError) : Exec StepExecutionResult := do
  let startedAt ← call .nowIso
  let completedAt ← call .nowIso
  let result := failedResult task startedAt completedAt error
  let _ ← call (.fail task.step.idempotencyKey result)
  pure result

/-- The pipeline as `execute` calls it for a primary step: an error that leaves no doubt about
the step is recorded before it goes on. -/
def attemptStep (input : StepInput) : Exec PipelineResult :=
  tryCatch (runBoundedStepPipeline X profiles input) fun error =>
    if error.isStateUnknown then throw error
    else do
      let _ ← failStep input.toStepTask error
      throw error

end ExecutionService

end Orchestrator
