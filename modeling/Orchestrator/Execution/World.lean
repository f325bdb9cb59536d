import Orchestrator.Atomic.Async
import Orchestrator.Execution.DryRun
import Orchestrator.Execution.ResourceLedger
import Orchestrator.Execution.Rollback
import Orchestrator.Execution.RunRepository
import Orchestrator.Execution.StepRepository

/-!
# The world of the execution service

The calls `ExecutionService` makes on its dependencies, each one atomic, and the state they act
on: the in-memory repositories, the fields of the service object, the clocks, and the answers
of everything outside (`Surroundings`).

* `ExecutionOp`, `ExecutionOp.Res`: the calls and what they answer;
* `World`, the shared state;
* `execution`, the handler: what each call does.
-/

namespace Orchestrator

open Atomic Collections

/-! ## Records -/

inductive ExecutionFenceStatus where
  | notStarted
  | inProgress
  | completed
  | failed
  | contained
  deriving DecidableEq, Repr

def ExecutionFenceStatus.text : ExecutionFenceStatus → String
  | .notStarted => "NOT_STARTED"
  | .inProgress => "IN_PROGRESS"
  | .completed => "COMPLETED"
  | .failed => "FAILED"
  | .contained => "CONTAINED"

structure ExecutionFenceKey where
  runId : String
  planId : String
  planVersion : ℕ
  planHash : String
  authorizationRecordId : String
  deriving DecidableEq, Repr

/-- `executionFenceKey`. -/
def executionFenceKey (key : ExecutionFenceKey) : String :=
  ":".intercalate
    [key.runId, key.planId, toString key.planVersion, key.planHash, key.authorizationRecordId]

/-- What a failed or contained fence names as the cause: the code of the error that escaped, or
the status the execution ended with. -/
inductive FenceFailureCode where
  | error (code : ExecutionErrorCode)
  | status (status : ExecutionResultStatus)
  deriving DecidableEq, Repr

structure ExecutionFence where
  key : ExecutionFenceKey
  status : ExecutionFenceStatus
  attempt : ℕ
  lastUpdatedAt : ℕ
  ownerToken : Option String
  failureCode : Option FenceFailureCode
  executionAttemptId : Option String
  resultStatus : Option ExecutionResultStatus
  deriving DecidableEq, Repr

inductive BeginExecutionResult where
  | started (fence : ExecutionFence) (ownerToken : String)
  | alreadyCompleted (fence : ExecutionFence) (result : Option ExecutionResult)
  | inProgress (fence : ExecutionFence)
  deriving DecidableEq, Repr

/-- What a fence transition records besides the status. -/
structure FenceExtras where
  failureCode : Option FenceFailureCode
  executionAttemptId : Option String
  resultStatus : Option ExecutionResultStatus
  deriving DecidableEq, Repr

/-- What `requireReady` answers. -/
structure Readiness where
  plan : PlanRecord
  authorizationRecord : AuthorizationRecord
  capabilitySetFingerprint : String
  deriving DecidableEq, Repr

/-- The type and the data of an execution event. -/
inductive ExecutionEventData where
  | executionStarted (executionAttemptId planHash : String)
  | stepExecutionStarted (stepId idempotencyKey : String)
  | stepExecutionSucceeded (stepId : String)
  | stepExecutionFailed (stepId : String) (errorCode : ExecutionErrorCode)
  | executionContained (result : ContainmentResult)
  | rollbackStarted (sourceStepId : String) (compensatingStepIds : List String)
      (rollbackPlanId : String)
  | rollbackCompleted (sourceStepId rollbackPlanId : String)
  | executionFinished (status : ExecutionResultStatus) (executionAttemptId : String)
  deriving DecidableEq, Repr

/-- The event's type in the source. -/
def ExecutionEventData.eventType : ExecutionEventData → String
  | .executionStarted .. => "EXECUTION_STARTED"
  | .stepExecutionStarted .. => "STEP_EXECUTION_STARTED"
  | .stepExecutionSucceeded _ => "STEP_EXECUTION_SUCCEEDED"
  | .stepExecutionFailed .. => "STEP_EXECUTION_FAILED"
  | .executionContained _ => "EXECUTION_CONTAINED"
  | .rollbackStarted .. => "ROLLBACK_STARTED"
  | .rollbackCompleted .. => "ROLLBACK_COMPLETED"
  | .executionFinished .. => "EXECUTION_FINISHED"

structure ExecutionEvent where
  eventId : String
  runId : String
  idempotencyKey : String
  projectId : String
  createdAt : ℕ
  data : ExecutionEventData
  deriving DecidableEq, Repr

inductive ArtifactType where
  | patch
  | testResult
  | task
  | prPreparation
  | recoveryAttempt
  deriving DecidableEq, Repr

structure ExecutionArtifact where
  artifactId : String
  runId : String
  executionAttemptId : String
  stepId : String
  artifactType : ArtifactType
  relativePath : String
  contentHash : String
  size : ℕ
  createdAt : ℕ
  deriving DecidableEq, Repr

/-! ## The actuator -/

structure LocalPatchActuatorResult where
  artifactRelativePath : String
  contentHash : String
  size : ℕ
  affectedPaths : List String
  deriving DecidableEq, Repr

structure RegisteredTestActuatorResult where
  argv : List String
  exitCode : ℤ
  stdoutSummary : String
  stderrSummary : String
  durationMs : ℚ
  timedOut : Bool
  artifactRelativePath : Option String
  contentHash : Option String
  deriving DecidableEq, Repr

structure LocalTaskActuatorResult where
  taskId : String
  description : String
  artifactRelativePath : String
  contentHash : String
  deriving DecidableEq, Repr

structure PullRequestPreparationResult where
  artifactRelativePath : String
  contentHash : String
  size : ℕ
  title : String
  baseBranch : String
  proposedHeadBranchName : String
  githubWritePerformed : Bool
  deriving DecidableEq, Repr

structure RecoveryOutreachActuatorResult where
  artifactRelativePath : String
  contentHash : String
  size : ℕ
  attemptId : String
  channel : String
  deliveryOutcome : String
  providerMessageId : Option String
  replayed : Bool
  deriving DecidableEq, Repr

/-- What the actuator answers to each action. -/
abbrev ActuatorResult : Phase7ActionType → Type
  | .createLocalPatch => LocalPatchActuatorResult
  | .runTests => RegisteredTestActuatorResult
  | .createTask => LocalTaskActuatorResult
  | .preparePullRequest => PullRequestPreparationResult
  | .sendRecoverySms => RecoveryOutreachActuatorResult
  | .sendRecoveryEmail => RecoveryOutreachActuatorResult
  | .createCallbackTask => RecoveryOutreachActuatorResult

/-! ## The calls -/

/-- The calls of the execution service on its dependencies, and the schema checks that stand
between a failed step and the end of an execution. `actuate` stands for the actuator's method for
the action; it is tagged with the whole compiled step, of which each method is passed the part it
needs. -/
inductive ExecutionOp where
  | nowIso
  | dateNow
  | nextExecutionAttemptId
  | nextAuthoritySnapshotId
  | nextArtifactId
  | nextEventId
  | getRun (runId : String)
  | transitionRun (runId : String) (expected : RunState) (expectedRecordRevision : ℕ)
      (next : RunState) (updatedAt : ℕ)
  | getPlan (runId : String)
  | getLatestAuthorization (runId : String)
  | requireReady (runId : String)
  | assertFresh (runId : String) (plan : PlanRecord)
  | resolveControl (projectId environment : String)
  | getFence (key : ExecutionFenceKey)
  | getFenceResult (key : ExecutionFenceKey)
  | beginFence (key : ExecutionFenceKey) (nowIso : ℕ)
  | storeFenceResult (key : ExecutionFenceKey) (result : ExecutionResult)
  | transitionFence (key : ExecutionFenceKey) (ownerToken : String) (nowIso : ℕ)
      (status : ExecutionFenceStatus) (extras : FenceExtras)
  | cachedResult (runId : String)
  | cacheResult (runId : String) (result : ExecutionResult)
  | saveSnapshot (snapshot : ExecutionAuthoritySnapshot) (executionAttemptId : String)
  | saveAttempt (attempt : ExecutionAttempt)
  | appendEvent (event : ExecutionEvent)
  | createLedger (executionAttemptId : String) (budget : ResourceBudgetProfile)
  | readLedger (executionAttemptId : String)
  | reserveDurationMs (executionAttemptId : String) (ms : ℚ)
  | settleReservedDuration (executionAttemptId : String) (reservedMs actualMs : ℚ)
  | releaseReservation (executionAttemptId : String) (reservedMs : ℚ)
  | recordStep (executionAttemptId : String) (delta : StepUsage)
  | assertCanRollback (plan : ExecutionPlan) (failedStepId : String)
  | recordAutomaticRollback
  | reserve (input : ReserveInput)
  | markRunning (idempotencyKey : String)
  | getByIdempotencyKey (idempotencyKey : String)
  | complete (idempotencyKey : String) (result : StepExecutionResult)
  | fail (idempotencyKey : String) (result : StepExecutionResult)
  | reconcileSucceeded (idempotencyKey : String) (result : StepExecutionResult)
  | actuate (action : Phase7ActionType) (step : CompiledExecutionStep)
      (executionAttemptId : String) (timeoutMs : ℚ)
  | reconcileRunningStep (idempotencyKey stepId actionType runId executionAttemptId : String)
  | saveArtifact (artifact : ExecutionArtifact)
  | putBlob (artifact : ExecutionArtifact)
  | buildContainmentResult (containment : ContainmentResult)
  | parseExecutionResult (result : ExecutionResult)

/-- What each call answers when it does not throw. -/
abbrev ExecutionOp.Res : ExecutionOp → Type
  | .nowIso => ℕ
  | .dateNow => ℕ
  | .nextExecutionAttemptId => String
  | .nextAuthoritySnapshotId => String
  | .nextArtifactId => String
  | .nextEventId => String
  | .getRun _ => Option RunRecord
  | .transitionRun .. => RunRecord
  | .getPlan _ => Option PlanRecord
  | .getLatestAuthorization _ => Option AuthorizationRecord
  | .requireReady _ => Readiness
  | .assertFresh .. => Unit
  | .resolveControl .. => ProjectControlContext
  | .getFence _ => Option ExecutionFence
  | .getFenceResult _ => Option ExecutionResult
  | .beginFence .. => BeginExecutionResult
  | .storeFenceResult .. => Unit
  | .transitionFence .. => ExecutionFence
  | .cachedResult _ => Option ExecutionResult
  | .cacheResult .. => Unit
  | .saveSnapshot .. => Unit
  | .saveAttempt _ => ExecutionAttempt
  | .appendEvent _ => Unit
  | .createLedger .. => Unit
  | .readLedger _ => ExecutionResourceLedger
  | .reserveDurationMs .. => Unit
  | .settleReservedDuration .. => Unit
  | .releaseReservation .. => Unit
  | .recordStep .. => Unit
  | .assertCanRollback .. => RollbackPlan
  | .recordAutomaticRollback => Unit
  | .reserve _ => ReserveOutcome
  | .markRunning _ => StepExecutionResult
  | .getByIdempotencyKey _ => Option StepExecutionResult
  | .complete .. => StepExecutionResult
  | .fail .. => StepExecutionResult
  | .reconcileSucceeded .. => StepExecutionResult
  | .actuate action .. => ActuatorResult action
  | .reconcileRunningStep .. => Option StepExecutionResult
  | .saveArtifact _ => Unit
  | .putBlob _ => Unit
  | .buildContainmentResult _ => ContainmentResult
  | .parseExecutionResult _ => ExecutionResult

/-- The signature of the execution service. -/
abbrev ExecutionSig : Sig := Sig.throwing ExecutionOp ExecutionOp.Res JsError

/-! ## The state -/

/-- The state the calls act on: the repositories, the service object's own fields
(`resultsByRun`, `snapshotsByAttempt`, the rollback count), the ledgers of the attempts in
progress, the identity sequences, the clocks, and how often the surroundings were asked. -/
structure World where
  clock : ℕ
  wallClock : ℕ
  attemptSequence : ℕ
  snapshotSequence : ℕ
  artifactSequence : ℕ
  eventSequence : ℕ
  fenceSequence : ℕ
  runs : RunRepository
  plans : JsMap String PlanRecord
  authorizations : JsMap String AuthorizationRecord
  fences : JsMap String ExecutionFence
  fenceResults : JsMap String ExecutionResult
  resultsByRun : JsMap String ExecutionResult
  snapshotsByAttempt : JsMap String ExecutionAuthoritySnapshot
  attempts : JsMap String ExecutionAttempt
  events : List ExecutionEvent
  ledgers : JsMap String ExecutionResourceLedger
  automaticRollbacks : ℕ
  steps : StepExecutionRepository
  artifacts : List ExecutionArtifact
  asked : ℕ

/-- The answers of what lies outside: the readiness gate, the preflight, the control plane, the
actuator with the time each call takes, and the artifact stores. The argument counts the
questions put to the surroundings so far, so any sequence of answers can occur. -/
structure Surroundings where
  ready : ℕ → String → Except JsError Readiness
  fresh : ℕ → String → Except JsError Unit
  control : ℕ → String → String → Except JsError ProjectControlContext
  actuator : ℕ → (action : Phase7ActionType) → CompiledExecutionStep →
    Except JsError (ActuatorResult action)
  elapsedMs : ℕ → ℕ
  reconcile : ℕ → String → Except JsError (Option StepExecutionResult)
  saveArtifact : ℕ → ExecutionArtifact → Except JsError Unit
  putBlob : ℕ → ExecutionArtifact → Except JsError Unit

namespace World

/-- The world of a freshly built service over empty repositories. -/
def empty : World where
  clock := 0
  wallClock := 0
  attemptSequence := 0
  snapshotSequence := 0
  artifactSequence := 0
  eventSequence := 0
  fenceSequence := 0
  runs := .empty
  plans := .empty
  authorizations := .empty
  fences := .empty
  fenceResults := .empty
  resultsByRun := .empty
  snapshotsByAttempt := .empty
  attempts := .empty
  events := []
  ledgers := .empty
  automaticRollbacks := 0
  steps := .empty
  artifacts := []
  asked := 0

/-- The world after one more question to the surroundings. -/
def ask (w : World) : World := { w with asked := w.asked + 1 }

/-- The ledger of an attempt; one that was never created has nothing to spend. -/
def ledger (w : World) (executionAttemptId : String) : ExecutionResourceLedger :=
  (w.ledgers.get executionAttemptId).getD (.create ⟨0, 0, 0⟩)

def setLedger (w : World) (executionAttemptId : String) (l : ExecutionResourceLedger) : World :=
  { w with ledgers := w.ledgers.set executionAttemptId l }

def setSteps (w : World) (steps : StepExecutionRepository) : World := { w with steps := steps }

/-- `InMemoryExecutionCoordinator.begin`: a new or failed fence starts, one in progress or
finished does not. -/
def beginFence (w : World) (key : ExecutionFenceKey) (nowIso : ℕ) :
    BeginExecutionResult × World :=
  let fenceKey := executionFenceKey key
  let start (attempt : ℕ) : BeginExecutionResult × World :=
    let ownerToken := s!"exec_owner_{w.fenceSequence + 1}"
    let fence : ExecutionFence :=
      { key := key
        status := .inProgress
        attempt := attempt + 1
        lastUpdatedAt := nowIso
        ownerToken := some ownerToken
        failureCode := none
        executionAttemptId := none
        resultStatus := none }
    (.started fence ownerToken,
      { w with fenceSequence := w.fenceSequence + 1, fences := w.fences.set fenceKey fence })
  match w.fences.get fenceKey with
  | none => start 0
  | some existing =>
    match existing.status with
    | .inProgress => (.inProgress existing, w)
    | .completed | .contained => (.alreadyCompleted existing (w.fenceResults.get fenceKey), w)
    | .failed | .notStarted => start existing.attempt

def fenceFailed (message : String) : JsError := .execution .executionFenceFailed message

/-- `InMemoryExecutionCoordinator.transition`: only the owner of a fence in progress may move it. -/
def transitionFence (w : World) (key : ExecutionFenceKey) (ownerToken : String) (nowIso : ℕ)
    (status : ExecutionFenceStatus) (extras : FenceExtras) : Except JsError ExecutionFence × World :=
  match w.fences.get (executionFenceKey key) with
  | none => (.error (fenceFailed "No fence to transition"), w)
  | some existing =>
    if existing.ownerToken ≠ some ownerToken then
      (.error (fenceFailed "Fence owner token mismatch"), w)
    else if existing.status ≠ .inProgress then
      (.error (fenceFailed s!"Fence is {existing.status.text}, expected IN_PROGRESS"), w)
    else
      let next := { existing with
        status := status
        lastUpdatedAt := nowIso
        failureCode := extras.failureCode <|> existing.failureCode
        executionAttemptId := extras.executionAttemptId <|> existing.executionAttemptId
        resultStatus := extras.resultStatus <|> existing.resultStatus }
      (.ok next, { w with fences := w.fences.set (executionFenceKey key) next })

end World

/-- An actuation that goes well, for each action. -/
def smoothResult : (action : Phase7ActionType) → ActuatorResult action
  | .createLocalPatch => ⟨"out.patch", "hash", 1, ["a.ts"]⟩
  | .runTests => ⟨["npm", "test"], 0, "", "", 1, false, none, none⟩
  | .createTask => ⟨"task_1", "description", "task.json", "hash"⟩
  | .preparePullRequest => ⟨"pr.json", "hash", 1, "title", "main", "branch", false⟩
  | .sendRecoverySms => ⟨"sms.json", "hash", 1, "attempt", "SMS", "SENT", none, false⟩
  | .sendRecoveryEmail => ⟨"mail.json", "hash", 1, "attempt", "EMAIL", "SENT", none, false⟩
  | .createCallbackTask => ⟨"call.json", "hash", 1, "attempt", "CALL_TASK", "SENT", none, false⟩

/-- Surroundings in which every actuation goes well and takes a millisecond, for a project with
this readiness and this control context. -/
def Surroundings.smooth (ready : Readiness) (control : ProjectControlContext) : Surroundings where
  ready _ _ := .ok ready
  fresh _ _ := .ok ()
  control _ _ _ := .ok control
  actuator _ action _ := .ok (smoothResult action)
  elapsedMs _ := 1
  reconcile _ _ := .ok none
  saveArtifact _ _ := .ok ()
  putBlob _ _ := .ok ()

/-! ## What each call does -/

/-- The calls on the in-memory implementations. -/
def execution (X : External) (U : Surroundings) : Handler ExecutionSig World
  | .nowIso, w => (.ok w.clock, w)
  | .dateNow, w => (.ok w.wallClock, w)
  | .nextExecutionAttemptId, w =>
    (.ok s!"exec_attempt_{w.attemptSequence + 1}",
      { w with attemptSequence := w.attemptSequence + 1 })
  | .nextAuthoritySnapshotId, w =>
    (.ok s!"exec_auth_snap_{w.snapshotSequence + 1}",
      { w with snapshotSequence := w.snapshotSequence + 1 })
  | .nextArtifactId, w =>
    (.ok s!"exec_artifact_{w.artifactSequence + 1}",
      { w with artifactSequence := w.artifactSequence + 1 })
  | .nextEventId, w =>
    (.ok s!"exec_event_{w.eventSequence + 1}", { w with eventSequence := w.eventSequence + 1 })
  | .getRun runId, w => (.ok (w.runs.getById runId), w)
  | .transitionRun runId expected revision next updatedAt, w =>
    ((w.runs.transition runId expected revision next updatedAt).1,
      { w with runs := (w.runs.transition runId expected revision next updatedAt).2 })
  | .getPlan runId, w => (.ok (w.plans.get runId), w)
  | .getLatestAuthorization runId, w => (.ok (w.authorizations.get runId), w)
  | .requireReady runId, w => (U.ready w.asked runId, w.ask)
  | .assertFresh runId _, w => (U.fresh w.asked runId, w.ask)
  | .resolveControl projectId environment, w => (U.control w.asked projectId environment, w.ask)
  | .getFence key, w => (.ok (w.fences.get (executionFenceKey key)), w)
  | .getFenceResult key, w => (.ok (w.fenceResults.get (executionFenceKey key)), w)
  | .beginFence key nowIso, w => (.ok (w.beginFence key nowIso).1, (w.beginFence key nowIso).2)
  | .storeFenceResult key result, w =>
    (.ok (), { w with fenceResults := w.fenceResults.set (executionFenceKey key) result })
  | .transitionFence key ownerToken nowIso status extras, w =>
    w.transitionFence key ownerToken nowIso status extras
  | .cachedResult runId, w => (.ok (w.resultsByRun.get runId), w)
  | .cacheResult runId result, w =>
    (.ok (), { w with resultsByRun := w.resultsByRun.set runId result })
  | .saveSnapshot snapshot executionAttemptId, w =>
    (.ok (), { w with snapshotsByAttempt := w.snapshotsByAttempt.set executionAttemptId snapshot })
  | .saveAttempt attempt, w =>
    match parseExecutionAttempt X attempt with
    | .error e => (.error e, w)
    | .ok parsed =>
      (.ok parsed, { w with attempts := w.attempts.set parsed.executionAttemptId parsed })
  | .appendEvent event, w => (.ok (), { w with events := w.events ++ [event] })
  | .createLedger executionAttemptId budget, w =>
    (.ok (), w.setLedger executionAttemptId (.create budget))
  | .readLedger executionAttemptId, w => (.ok (w.ledger executionAttemptId), w)
  | .reserveDurationMs executionAttemptId ms, w =>
    (((w.ledger executionAttemptId).reserveDurationMs X ms).1,
      w.setLedger executionAttemptId ((w.ledger executionAttemptId).reserveDurationMs X ms).2)
  | .settleReservedDuration executionAttemptId reservedMs actualMs, w =>
    (((w.ledger executionAttemptId).settleReservedDuration X reservedMs actualMs).1,
      w.setLedger executionAttemptId ((w.ledger executionAttemptId).settled reservedMs actualMs))
  | .releaseReservation executionAttemptId reservedMs, w =>
    (.ok (), w.setLedger executionAttemptId
      ((w.ledger executionAttemptId).releaseReservation reservedMs))
  | .recordStep executionAttemptId delta, w =>
    (((w.ledger executionAttemptId).recordStep X delta).1,
      w.setLedger executionAttemptId ((w.ledger executionAttemptId).recorded delta))
  | .assertCanRollback plan failedStepId, w =>
    (RollbackService.assertCanRollback X w.automaticRollbacks plan failedStepId, w)
  | .recordAutomaticRollback, w =>
    (.ok (), { w with automaticRollbacks := w.automaticRollbacks + 1 })
  | .reserve input, w => ((w.steps.reserve X input).1, w.setSteps (w.steps.reserve X input).2)
  | .markRunning k, w => ((w.steps.markRunning X k).1, w.setSteps (w.steps.markRunning X k).2)
  | .getByIdempotencyKey k, w => (.ok (w.steps.getByIdempotencyKey k), w)
  | .complete k result, w =>
    ((w.steps.complete X k result).1, w.setSteps (w.steps.complete X k result).2)
  | .fail k result, w => ((w.steps.fail X k result).1, w.setSteps (w.steps.fail X k result).2)
  | .reconcileSucceeded k result, w =>
    ((w.steps.reconcileSucceeded X k result).1,
      w.setSteps (w.steps.reconcileSucceeded X k result).2)
  | .actuate action step _ _, w =>
    (U.actuator w.asked action step,
      { w.ask with
        clock := w.clock + U.elapsedMs w.asked
        wallClock := w.wallClock + U.elapsedMs w.asked })
  | .reconcileRunningStep k _ _ _ _, w => (U.reconcile w.asked k, w.ask)
  | .saveArtifact artifact, w =>
    (U.saveArtifact w.asked artifact, { w.ask with artifacts := w.artifacts ++ [artifact] })
  | .putBlob artifact, w => (U.putBlob w.asked artifact, w.ask)
  | .buildContainmentResult containment, w => (buildContainmentResult X containment, w)
  | .parseExecutionResult result, w => (parseExecutionResult X result, w)

/-! ## What the calls leave alone -/

/-- The calls on the step store that may change it. -/
def ExecutionOp.WritesSteps : ExecutionOp → Prop
  | .reserve _ => True
  | .markRunning _ => True
  | .complete .. => True
  | .fail .. => True
  | .reconcileSucceeded .. => True
  | _ => False

variable {X : External} {U : Surroundings} {w : World}

theorem World.steps_beginFence (key : ExecutionFenceKey) (t : ℕ) :
    (w.beginFence key t).2.steps = w.steps := by
  rw [World.beginFence]
  split
  · rfl
  · split <;> rfl

theorem World.steps_transitionFence (key : ExecutionFenceKey) (owner : String) (t : ℕ)
    (status : ExecutionFenceStatus) (extras : FenceExtras) :
    (w.transitionFence key owner t status extras).2.steps = w.steps := by
  rw [World.transitionFence]
  split
  · rfl
  · split
    · rfl
    · split <;> rfl

/-- Every other call leaves the step store as it is. -/
theorem execution_steps {o : ExecutionOp} (h : ¬o.WritesSteps) :
    (execution X U o w).2.steps = w.steps := by
  cases o with
  | reserve => exact absurd trivial h
  | markRunning => exact absurd trivial h
  | complete => exact absurd trivial h
  | fail => exact absurd trivial h
  | reconcileSucceeded => exact absurd trivial h
  | beginFence => exact World.steps_beginFence _ _
  | transitionFence => exact World.steps_transitionFence _ _ _ _ _
  | saveAttempt attempt =>
    simp only [execution]
    split <;> rfl
  | _ => rfl

end Orchestrator
