import Orchestrator.Admission.Stores
import Orchestrator.Atomic.Async

/-!
# The admission service

`ObjectiveAdmissionService.admit` over the calls it makes on its dependencies.

* `AdmissionOp`: the calls, and what they answer;
* `AdmissionWorld`, `admission`: the state they act on, and what each does;
* `ObjectiveAdmissionService.admit`: the service, statement by statement.

A transaction manager is either the in-memory one, which only runs its function, or one that
puts the stores back as the transaction found them when the function throws.
-/

namespace Orchestrator

open Atomic Collections

/-! ## The calls -/

structure AdmissionIdentity where
  runId : String
  eventId : String
  correlationId : String
  traceId : String
  runId_ne : runId ≠ ""

instance : DecidableEq AdmissionIdentity := fun a b =>
  decidable_of_iff (a.runId = b.runId ∧ a.eventId = b.eventId ∧
    a.correlationId = b.correlationId ∧ a.traceId = b.traceId) (by cases a; cases b; simp)

structure ControlContextReference where
  projectId : String
  environment : String
  policyBundleId : String
  budgetProfileId : String
  resolvedAt : ℕ
  deriving DecidableEq, Repr

/-- `AUTHORIZATION_DECISIONS`. -/
inductive AuthorizationDecision where
  | authorized
  | unauthorized
  | unknownRequester
  | projectAccessDenied
  | environmentAccessDenied
  deriving DecidableEq, Repr

/-- The decision's name in the source. -/
def AuthorizationDecision.text : AuthorizationDecision → String
  | .authorized => "AUTHORIZED"
  | .unauthorized => "UNAUTHORIZED"
  | .unknownRequester => "UNKNOWN_REQUESTER"
  | .projectAccessDenied => "PROJECT_ACCESS_DENIED"
  | .environmentAccessDenied => "ENVIRONMENT_ACCESS_DENIED"

inductive AdmissionOp where
  | resolve (projectId environment : String)
  | authorize (projectId requesterId requestedEnvironment : String)
  | getByKey (key : String)
  | nextIdentity
  | nowIso
  | reserve (key fingerprint : String) (reservedAt : ℕ)
  | acquire (command : ProjectLock)
  | createRun (record : StoredRun)
  | transitionRun (runId : String) (expected : RunState) (expectedRecordRevision : ℕ)
      (next : RunState) (updatedAt : ℕ) (extras : RunExtras)
  | appendEvent (event : EventEnvelope)
  | completeKey (key runId : String) (updatedAt : ℕ)
  | saveObjective (objective : Objective)
  | bindRun (runId objectiveId : String) (objectiveVersion : ℕ)
  | releaseLock (projectId runId : String)
  | releaseKey (key : String)
  | getRun (runId : String)
  | beginTransaction
  | commitTransaction
  | rollbackTransaction
  deriving DecidableEq

/-- What each call answers with when it does not throw. -/
abbrev AdmissionOp.Res : AdmissionOp → Type
  | resolve .. => ControlContextReference
  | authorize .. => AuthorizationDecision
  | getByKey _ => Option IdempotencyRecord
  | nextIdentity => AdmissionIdentity
  | nowIso => ℕ
  | reserve .. => IdempotencyReserveResult
  | acquire _ => LockAcquireResult
  | createRun _ => StoredRun
  | transitionRun .. => StoredRun
  | appendEvent _ => EventEnvelope
  | completeKey .. => Unit
  | saveObjective _ => Objective
  | bindRun .. => Unit
  | releaseLock .. => Unit
  | releaseKey _ => Unit
  | getRun _ => Option StoredRun
  | beginTransaction => Unit
  | commitTransaction => Unit
  | rollbackTransaction => Unit

abbrev AdmissionSig : Sig := Sig.throwing AdmissionOp AdmissionOp.Res AdmissionFailure

/-! ## The world -/

/-- What admission writes. -/
structure AdmissionStores where
  idempotency : IdempotencyStore
  locks : ProjectLocks
  runs : RunStore
  events : List EventEnvelope
  objectives : ObjectiveRepository

/-- The answers of the control plane, of the authorization service and of the clock. -/
structure AdmissionSurroundings where
  resolve : String → String → Except AdmissionFailure ControlContextReference
  authorize : String → String → String → Except AdmissionFailure AuthorizationDecision
  now : ℕ

structure AdmissionWorld where
  stores : AdmissionStores
  /-- The stores as the open transaction found them. -/
  opened : Option AdmissionStores
  surroundings : AdmissionSurroundings
  /-- The identities the generator will give out. -/
  identities : ℕ → AdmissionIdentity
  sequence : ℕ

def AdmissionStores.empty : AdmissionStores where
  idempotency := .empty
  locks := .empty
  runs := .empty
  events := []
  objectives := .empty

/-- The world before any call. -/
def AdmissionWorld.initial (surroundings : AdmissionSurroundings)
    (identities : ℕ → AdmissionIdentity) : AdmissionWorld where
  stores := .empty
  opened := none
  surroundings := surroundings
  identities := identities
  sequence := 0

/-- `SequenceAdmissionIdentityGenerator`. -/
def sequenceIdentity (n : ℕ) : AdmissionIdentity where
  runId := "run_" ++ toString (n + 1)
  eventId := "evt_" ++ toString (n + 1)
  correlationId := "corr_" ++ toString (n + 1)
  traceId := "trace_" ++ toString (n + 1)
  runId_ne h := by
    have hlist := congrArg String.toList h
    simp at hlist

namespace AdmissionWorld

variable (w : AdmissionWorld)

def setIdempotency (s : IdempotencyStore) : AdmissionWorld :=
  { w with stores := { w.stores with idempotency := s } }

def setLocks (s : ProjectLocks) : AdmissionWorld :=
  { w with stores := { w.stores with locks := s } }

def setRuns (s : RunStore) : AdmissionWorld :=
  { w with stores := { w.stores with runs := s } }

def setObjectives (s : ObjectiveRepository) : AdmissionWorld :=
  { w with stores := { w.stores with objectives := s } }

end AdmissionWorld

/-- The calls on the in-memory stores. -/
def admission : Handler AdmissionSig AdmissionWorld
  | .resolve projectId environment, w => (w.surroundings.resolve projectId environment, w)
  | .authorize projectId requesterId environment, w =>
    (w.surroundings.authorize projectId requesterId environment, w)
  | .getByKey key, w => (.ok (w.stores.idempotency.get key), w)
  | .nextIdentity, w => (.ok (w.identities w.sequence), { w with sequence := w.sequence + 1 })
  | .nowIso, w => (.ok w.surroundings.now, w)
  | .reserve key fingerprint reservedAt, w =>
    (.ok (w.stores.idempotency.reserve key fingerprint reservedAt).1,
      w.setIdempotency (w.stores.idempotency.reserve key fingerprint reservedAt).2)
  | .acquire command, w =>
    (.ok (w.stores.locks.acquire command).1, w.setLocks (w.stores.locks.acquire command).2)
  | .createRun record, w =>
    ((w.stores.runs.create record).1, w.setRuns (w.stores.runs.create record).2)
  | .transitionRun runId expected revision next updatedAt extras, w =>
    ((w.stores.runs.transition runId expected revision next updatedAt extras).1,
      w.setRuns (w.stores.runs.transition runId expected revision next updatedAt extras).2)
  | .appendEvent event, w =>
    (.ok event, { w with stores := { w.stores with events := w.stores.events ++ [event] } })
  | .completeKey key runId updatedAt, w =>
    ((w.stores.idempotency.complete key runId updatedAt).1,
      w.setIdempotency (w.stores.idempotency.complete key runId updatedAt).2)
  | .saveObjective objective, w =>
    (.ok objective, w.setObjectives (w.stores.objectives.save objective))
  | .bindRun runId objectiveId objectiveVersion, w =>
    (.ok (), w.setObjectives (w.stores.objectives.bindRun runId objectiveId objectiveVersion))
  | .releaseLock projectId runId, w =>
    (.ok (), w.setLocks (w.stores.locks.release projectId runId))
  | .releaseKey key, w => (.ok (), w.setIdempotency (w.stores.idempotency.release key))
  | .getRun runId, w => (.ok (w.stores.runs.get runId), w)
  | .beginTransaction, w => (.ok (), { w with opened := some w.stores })
  | .commitTransaction, w => (.ok (), { w with opened := none })
  | .rollbackTransaction, w => (.ok (), { w with stores := w.opened.getD w.stores, opened := none })

/-! ## The service -/

/-- The `TransactionManager` of the service. -/
inductive TransactionManager where
  | inMemory
  | rollingBack
  deriving DecidableEq, Repr

/-- The optional dependencies: whether there is an objective repository, and the transaction
manager. -/
structure AdmissionDeps where
  objectives : Bool
  transactions : Option TransactionManager
  deriving DecidableEq, Repr

inductive AdmissionResult where
  | admitted (runId : String) (eventEnvelope : EventEnvelope)
      (controlContextReference : ControlContextReference)
      (idempotencyKey correlationId traceId : String)
  | activeDuplicate (runId : String) (state : RunState) (idempotencyKey : String)
  | completedDuplicate (runId : String) (state : RunState) (idempotencyKey : String)
  | rejected (reasonCode : AdmissionErrorCode) (message : String)
  | conflict (reasonCode : AdmissionErrorCode) (message : String)
  deriving DecidableEq, Repr

/-- The run that a result admits. -/
def AdmissionResult.admittedRun : AdmissionResult → Option String
  | .admitted runId .. => some runId
  | _ => none

/-- The run that a result names as the run of the request. -/
def AdmissionResult.acceptedRun : AdmissionResult → Option String
  | .admitted runId .. => some runId
  | .activeDuplicate runId .. => some runId
  | .completedDuplicate runId .. => some runId
  | _ => none

theorem acceptedRun_of_admittedRun {result : AdmissionResult} {runId : String}
    (h : result.admittedRun = some runId) : result.acceptedRun = some runId := by
  cases result <;> first | exact h | cases h

namespace ObjectiveAdmissionService

/-- The local variables of `admitValidated`. -/
structure Locals where
  reserved : Bool
  locked : Bool
  created : Option StoredRun
  bound : Bool

/-- What the local variables start as. -/
def Locals.initial : Locals := ⟨false, false, none, false⟩

abbrev Call := Async AdmissionSig AdmissionFailure

abbrev Body := Method AdmissionSig Locals AdmissionFailure

def call (o : AdmissionOp) : Call o.Res := Async.await o

/-- `EVENT_TTL_MS`. -/
def eventTtlMs : ℕ := 24 * 60 * 60 * 1000

/-- `LOCK_TTL_MS`. -/
def lockTtlMs : ℕ := 60 * 60 * 1000

def eligibilityRejection (code : ControlPlaneErrorCode) (message : String) : AdmissionResult :=
  match code with
  | .environmentNotAllowed => .rejected .environmentNotAllowed message
  | .projectNotFound => .rejected .projectNotFound message
  | _ => .rejected .projectNotEligible message

/-- The answer to content that changed under one identity. -/
def versionConflict : AdmissionResult :=
  .conflict .objectiveVersionConflict
    "Objective content changed under the same identity (project, objective, version, environment)"

/-- The control context of the request, or the answer to one that is not eligible. -/
def resolveContext (request : AdmissionRequest) :
    Call (Except AdmissionResult ControlContextReference) :=
  tryCatch
    (do
      let context ← call (.resolve request.projectId request.requestedEnvironment)
      pure (.ok context))
    fun error =>
      match error with
      | .controlPlane code message => pure (.error (eligibilityRejection code message))
      | error => throw error

/-- The answer to a requester who is not authorized. -/
def unauthorized (decision : AuthorizationDecision) : AdmissionResult :=
  .rejected (if decision = .unknownRequester then .unknownRequester else .requesterUnauthorized)
    s!"Requester is not authorized to submit objectives ({decision.text})"

/-- `duplicateResult`: an unbound reservation is no duplicate yet. -/
def duplicateResult (status : IdempotencyRecordStatus) (runId : Option String)
    (idempotencyKey : String) : Call (Option AdmissionResult) :=
  match runId with
  | none =>
    if status = .reserved then pure none
    else pure (some (.conflict
      (if status = .completed then .completedDuplicate else .activeDuplicate)
      "Duplicate idempotency record is missing runId"))
  | some runId => do
    let run ← call (.getRun runId)
    match (run : Option StoredRun) with
    | none => pure (some (.conflict .idempotencyReservationFailed
        "Idempotency record references a missing run"))
    | some run =>
      if status = .completed then
        pure (some (.completedDuplicate run.runId run.state idempotencyKey))
      else pure (some (.activeDuplicate run.runId run.state idempotencyKey))

/-- A `try` block whose exceptions become an `AdmissionError`. -/
def orThrow {α : Type} (p : Call α) (code : AdmissionErrorCode) (message : String) : Call α :=
  tryCatch p fun _ => throw (.admission code message)

/-- `assertTransition`, with the error it throws. -/
def assertAdmissionTransition (current requested : RunState) : Except AdmissionFailure Unit :=
  if requested ∈ current.transitions then .ok ()
  else .error (.other s!"Illegal run-state transition: {current.text} → {requested.text}")

/-- `commitRunTransition`. -/
def commitRunTransition (record : StoredRun) (next : RunState) (updatedAt : ℕ)
    (extras : RunExtras) : Call StoredRun := do
  Async.ofExcept (assertAdmissionTransition record.state next)
  call (.transitionRun record.runId record.state record.recordRevision next updatedAt extras)

/-- The run as it is created. -/
def receivedRun (request : AdmissionRequest) (identity : AdmissionIdentity)
    (idempotencyKey : String) (now : ℕ) : StoredRun where
  runId := identity.runId
  projectId := request.projectId
  objectiveId := request.objectiveId
  objectiveVersion := request.objectiveVersion
  runAttempt := 1
  idempotencyKey := idempotencyKey
  requesterId := request.requesterId
  requestedEnvironment := request.requestedEnvironment
  state := .received
  recordRevision := 1
  createdAt := now
  updatedAt := now
  correlationId := identity.correlationId
  traceId := identity.traceId
  admittedAt := none
  failureReasonCode := none

def buildEvent (request : AdmissionRequest) (run : StoredRun) (identity : AdmissionIdentity)
    (now : ℕ) (idempotencyKey : String) : EventEnvelope where
  eventId := identity.eventId
  eventType := "PROJECT_OBJECTIVE_SUBMITTED"
  eventVersion := "1"
  runId := run.runId
  correlationId := identity.correlationId
  causationId := identity.eventId
  idempotencyKey := idempotencyKey
  projectId := request.projectId
  objectiveId := request.objectiveId
  objectiveVersion := request.objectiveVersion
  traceId := identity.traceId
  createdAt := now
  expiresAt := now + eventTtlMs
  schemaVersion := "1.0.0"
  data :=
    { requesterId := request.requesterId
      requestedEnvironment := request.requestedEnvironment
      priority := request.content.priority
      submittedAt := request.submittedAt }

/-- The run created and moved to `ADMITTED`. -/
def createRun (request : AdmissionRequest) (identity : AdmissionIdentity)
    (idempotencyKey : String) (now : ℕ) : Body StoredRun := do
  let received ← orThrow (call (.createRun (receivedRun request identity idempotencyKey now)))
    .runCreationFailed "Failed to persist RECEIVED run"
  Method.assign fun l => { l with created := some received }
  orThrow (Async.ofExcept (assertAdmissionTransition received.state .admitted))
    .invalidRunTransition "Illegal run transition"
  let admitted ← commitRunTransition received .admitted now ⟨some now, none⟩
  Method.assign fun l => { l with created := some admitted }
  pure admitted

/-- The objective saved and bound to its run, where there is a repository for it. -/
def saveObjective (deps : AdmissionDeps) (request : AdmissionRequest) (run : StoredRun) :
    Body Unit :=
  if deps.objectives then do
    let _ ← call (.saveObjective (parseObjective request))
    call (.bindRun run.runId request.objectiveId request.objectiveVersion)
  else pure ()

/-- What the transaction of `admitValidated` does. -/
def persist (deps : AdmissionDeps) (request : AdmissionRequest) (identity : AdmissionIdentity)
    (idempotencyKey : String) (now : ℕ) : Body EventEnvelope := do
  let run ← createRun request identity idempotencyKey now
  let eventEnvelope ← orThrow
    (call (.appendEvent (buildEvent request run identity now idempotencyKey)))
    .eventCreationFailed "Failed to persist admission event envelope"
  orThrow (call (.completeKey idempotencyKey run.runId now))
    .idempotencyReservationFailed "Failed to bind idempotency key to run"
  Method.assign fun l => { l with bound := true }
  saveObjective deps request run
  pure eventEnvelope

/-- `withOptionalTransaction`. -/
def withOptionalTransaction {α : Type} (transactions : Option TransactionManager)
    (p : Body α) : Body α :=
  match transactions with
  | some .rollingBack => do
    call .beginTransaction
    tryCatch
      (do
        let a ← p
        call .commitTransaction
        pure a)
      fun error => do
        call .rollbackTransaction
        throw error
  | _ => p

/-- The part of `admitValidated` that holds the lock of the project, and its release. -/
def admitLocked (deps : AdmissionDeps) (request : AdmissionRequest)
    (context : ControlContextReference) (identity : AdmissionIdentity) (idempotencyKey : String)
    (now : ℕ) : Body AdmissionResult := do
  Method.assign fun l => { l with locked := true }
  let eventEnvelope ← withOptionalTransaction deps.transactions
    (persist deps request identity idempotencyKey now)
  let l ← Method.read
  match l.created with
  | none => throw (.other "Cannot read properties of null")
  | some created => do
    orThrow (call (.releaseLock request.projectId created.runId))
      .admissionCompensationFailed "Failed to release admission-scoped project lock"
    Method.assign fun l => { l with locked := false }
    pure (.admitted created.runId eventEnvelope context idempotencyKey created.correlationId
      created.traceId)

/-- The part of `admitValidated` that owns the reservation of the key. -/
def admitReserved (deps : AdmissionDeps) (request : AdmissionRequest)
    (context : ControlContextReference) (identity : AdmissionIdentity) (idempotencyKey : String)
    (now : ℕ) : Body AdmissionResult := do
  let lockResult ← call (.acquire
    { projectId := request.projectId
      runId := identity.runId
      lockOwner := request.requesterId
      acquiredAt := now
      expiresAt := now + lockTtlMs })
  match (lockResult : LockAcquireResult) with
  | .resourceConflict _ =>
    throw (.admission .projectLockConflict
      s!"Project {request.projectId} is locked by another run")
  | _ => admitLocked deps request context identity idempotencyKey now

/-- The compensation of a created run: it leaves `RECEIVED` or `ADMITTED`. -/
def compensateRun (created : StoredRun) (now : ℕ) : Call Unit :=
  if created.state ≠ .admissionRejected ∧ created.state ≠ .cancelled then do
    let next : RunState := if created.state = .admitted then .cancelled else .admissionRejected
    Async.ofExcept (assertAdmissionTransition created.state next)
    let _ ← commitRunTransition created next now ⟨none, some "ADMISSION_COMPENSATED"⟩
    pure ()
  else pure ()

/-- `if (created && !skipRunCompensation)`. -/
def compensateCreated (l : Locals) (now : ℕ) : Call Unit :=
  match l.created with
  | some created => if l.bound then pure () else compensateRun created now
  | none => pure ()

/-- `if (locked)`. -/
def releaseLocked (l : Locals) (projectId runId : String) : Call Unit :=
  if l.locked then call (.releaseLock projectId runId) else pure ()

/-- `if (reserved && !bound)`. -/
def releaseReserved (l : Locals) (idempotencyKey : String) : Call Unit :=
  if l.reserved ∧ ¬l.bound then call (.releaseKey idempotencyKey) else pure ()

/-- `compensate`, by what the local variables say was done. -/
def compensate (l : Locals) (idempotencyKey projectId runId : String) (now : ℕ) : Call Unit :=
  orThrow
    (do
      compensateCreated l now
      releaseLocked l projectId runId
      releaseReserved l idempotencyKey)
    .admissionCompensationFailed "Failed to compensate a partial admission"

/-- The answer to a reservation that is not new. -/
def answerDuplicate (status : IdempotencyRecordStatus) (runId : Option String)
    (idempotencyKey : String) : Call AdmissionResult := do
  let duplicate ← duplicateResult status runId idempotencyKey
  pure (duplicate.getD (.conflict .idempotencyReservationFailed
    "Idempotency key is reserved without a bound run"))

/-- The `try` block of `admitValidated`. -/
def admitUnderKey (deps : AdmissionDeps) (request : AdmissionRequest)
    (context : ControlContextReference) (identity : AdmissionIdentity)
    (idempotencyKey fingerprint : String) (now : ℕ) : Body AdmissionResult := do
  let reservedResult ← call (.reserve idempotencyKey fingerprint now)
  match (reservedResult : IdempotencyReserveResult) with
  | .objectiveVersionConflict _ _ => pure versionConflict
  | .completedDuplicate runId _ => answerDuplicate .completed runId idempotencyKey
  | .activeDuplicate runId _ => answerDuplicate .active runId idempotencyKey
  | .new => do
    Method.assign fun l => { l with reserved := true }
    admitReserved deps request context identity idempotencyKey now

/-- The part of `admitValidated` once the key is known to be free, with its `catch` block. -/
def admitNew (deps : AdmissionDeps) (request : AdmissionRequest)
    (context : ControlContextReference) (idempotencyKey fingerprint : String) :
    Call AdmissionResult := do
  let identity ← call .nextIdentity
  let now ← call .nowIso
  (tryCatch (admitUnderKey deps request context identity idempotencyKey fingerprint now)
    fun error => do
      let l ← Method.read
      compensate l idempotencyKey request.projectId identity.runId now
      match error with
      | .admission .projectLockConflict message =>
        pure (.conflict .projectLockConflict message)
      | error => throw error
    : Body AdmissionResult).asAsync .initial

/-- The key of the request, as the idempotency store has it. -/
def admitAuthorized (X : External) (deps : AdmissionDeps) (request : AdmissionRequest)
    (context : ControlContextReference) : Call AdmissionResult := do
  let fingerprint := objectiveFingerprint X request.content
  let idempotencyKey := objectiveIdempotencyKey X request.identity
  let existing ← call (.getByKey idempotencyKey)
  match (existing : Option IdempotencyRecord) with
  | none => admitNew deps request context idempotencyKey fingerprint
  | some existing =>
    if existing.fingerprint ≠ fingerprint then pure versionConflict
    else do
      let duplicate ← duplicateResult existing.status existing.runId idempotencyKey
      match duplicate with
      | some result => pure result
      | none => admitNew deps request context idempotencyKey fingerprint

/-- `admitValidated`. -/
def admitValidated (X : External) (deps : AdmissionDeps) (request : AdmissionRequest) :
    Call AdmissionResult := do
  let context ← resolveContext request
  match context with
  | .error result => pure result
  | .ok context => do
    let decision ← call
      (.authorize request.projectId request.requesterId request.requestedEnvironment)
    if decision ≠ .authorized then pure (unauthorized decision)
    else admitAuthorized X deps request context

/-- `admit`: the input as the request schema reads it, or the message of its error. -/
def admitObjective (X : External) (deps : AdmissionDeps) (parsed : Except String AdmissionRequest) :
    Call AdmissionResult :=
  match parsed with
  | .error message => pure (.rejected .invalidAdmissionRequest message)
  | .ok request => admitValidated X deps request

end ObjectiveAdmissionService

end Orchestrator
