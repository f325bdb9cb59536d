import Orchestrator.Domain.Objective
import Orchestrator.Execution.RunRepository

/-!
# The admission stores

The in-memory stores that admission writes: idempotency keys, project locks, runs, events and
objectives.

* `IdempotencyStore`: `reserve`, `complete`, `release`;
* `ProjectLocks`: `acquire`, `release`;
* `RunStore`: `create`, `transition`, on whole run records (`StoredRun`);
* `ObjectiveRepository`: `save`, `bindRun`, `getByRunBinding`.
-/

namespace Orchestrator

open Collections

/-! ## Errors -/

/-- The `ADMISSION_ERROR_CODES` that admission answers or throws. -/
inductive AdmissionErrorCode where
  | invalidAdmissionRequest
  | requesterUnauthorized
  | unknownRequester
  | projectNotEligible
  | projectNotFound
  | environmentNotAllowed
  | activeDuplicate
  | completedDuplicate
  | idempotencyReservationFailed
  | objectiveVersionConflict
  | projectLockConflict
  | runCreationFailed
  | invalidRunTransition
  | eventCreationFailed
  | admissionCompensationFailed
  deriving DecidableEq, Repr

/-- `CONTROL_PLANE_ERROR_CODES`. -/
inductive ControlPlaneErrorCode where
  | projectNotFound
  | projectInactive
  | policyBundleNotFound
  | policyConflict
  | capabilityNotFound
  | capabilityDisabled
  | environmentNotAllowed
  | budgetProfileNotFound
  | budgetExceeded
  | unestimatedResource
  deriving DecidableEq, Repr

/-- What admission code may throw: an `AdmissionError`, a `ControlPlaneError`, or another
error. -/
inductive AdmissionFailure where
  | admission (code : AdmissionErrorCode) (message : String)
  | controlPlane (code : ControlPlaneErrorCode) (message : String)
  | other (message : String)
  deriving DecidableEq, Repr

/-! ## Idempotency keys -/

inductive IdempotencyRecordStatus where
  | reserved
  | active
  | completed
  deriving DecidableEq, Repr

structure IdempotencyRecord where
  key : String
  fingerprint : String
  status : IdempotencyRecordStatus
  runId : Option String
  reservedAt : ℕ
  updatedAt : ℕ
  deriving DecidableEq, Repr

inductive IdempotencyReserveResult where
  | new
  | activeDuplicate (runId : Option String) (fingerprint : String)
  | completedDuplicate (runId : Option String) (fingerprint : String)
  | objectiveVersionConflict (runId : Option String) (fingerprint : String)
  deriving DecidableEq, Repr

/-- `InMemoryIdempotencyStore`. -/
abbrev IdempotencyStore := JsMap String IdempotencyRecord

namespace IdempotencyStore

variable (s : IdempotencyStore) (key : String)

/-- The record of a fresh reservation. -/
def reservation (fingerprint : String) (reservedAt : ℕ) : IdempotencyRecord where
  key := key
  fingerprint := fingerprint
  status := .reserved
  runId := none
  reservedAt := reservedAt
  updatedAt := reservedAt

def reserve (fingerprint : String) (reservedAt : ℕ) :
    IdempotencyReserveResult × IdempotencyStore :=
  match s.get key with
  | some existing =>
    (if existing.fingerprint ≠ fingerprint then
      .objectiveVersionConflict existing.runId existing.fingerprint
    else if existing.status = .completed then
      .completedDuplicate existing.runId existing.fingerprint
    else .activeDuplicate existing.runId existing.fingerprint, s)
  | none => (.new, s.set key (reservation key fingerprint reservedAt))

/-- The record of a key bound to a run. -/
def bound (record : IdempotencyRecord) (runId : String) (updatedAt : ℕ) : IdempotencyRecord :=
  { record with status := .active, runId := some runId, updatedAt := updatedAt }

def complete (runId : String) (updatedAt : ℕ) :
    Except AdmissionFailure Unit × IdempotencyStore :=
  match s.get key with
  | none => (.error (.other s!"Cannot complete idempotency key {key}"), s)
  | some existing =>
    if existing.status = .reserved then (.ok (), s.set key (bound existing runId updatedAt))
    else (.error (.other s!"Cannot complete idempotency key {key}"), s)

/-- Only a reservation is dropped. -/
def release : IdempotencyStore :=
  match s.get key with
  | none => s
  | some existing => if existing.status = .reserved then s.delete key else s

end IdempotencyStore

/-! ## Project locks -/

structure ProjectLock where
  projectId : String
  runId : String
  lockOwner : String
  acquiredAt : ℕ
  expiresAt : ℕ
  deriving DecidableEq, Repr

/-- `isWellFormedLock`; a time is never an empty text. -/
def isWellFormedLock (lock : ProjectLock) : Bool :=
  lock.projectId ≠ "" && lock.runId ≠ "" && lock.lockOwner ≠ ""

inductive LockAcquireResult where
  | lockAcquired (lock : ProjectLock)
  | lockAlreadyOwned (lock : ProjectLock)
  | resourceConflict (lock : Option ProjectLock)
  deriving DecidableEq, Repr

/-- `InMemoryProjectLockService`. -/
abbrev ProjectLocks := JsMap String ProjectLock

namespace ProjectLocks

variable (s : ProjectLocks)

/-- `acquire`: the command has the fields of the lock it asks for. -/
def acquire (command : ProjectLock) : LockAcquireResult × ProjectLocks :=
  match s.get command.projectId with
  | some existing =>
    (if !isWellFormedLock existing then .resourceConflict (some existing)
    else if existing.runId = command.runId then .lockAlreadyOwned existing
    else .resourceConflict (some existing), s)
  | none =>
    if !isWellFormedLock command then (.resourceConflict none, s)
    else (.lockAcquired command, s.set command.projectId command)

/-- A lock is released for the run that holds it only. -/
def release (projectId runId : String) : ProjectLocks :=
  match s.get projectId with
  | none => s
  | some existing => if existing.runId = runId then s.delete projectId else s

end ProjectLocks

/-! ## Runs -/

/-- A whole `RunRecord`. -/
structure StoredRun extends RunRecord where
  objectiveId : String
  objectiveVersion : ℕ
  runAttempt : ℕ
  idempotencyKey : String
  requesterId : String
  createdAt : ℕ
  correlationId : String
  traceId : String
  admittedAt : Option ℕ
  failureReasonCode : Option String
  deriving DecidableEq, Repr

/-- The identity of the objective version that the run carries out. -/
def StoredRun.identity (r : StoredRun) : ObjectiveIdempotencyIdentity where
  projectId := r.projectId
  objectiveId := r.objectiveId
  objectiveVersion := r.objectiveVersion
  requestedEnvironment := r.requestedEnvironment

/-- What a run transition records besides the state. -/
structure RunExtras where
  admittedAt : Option ℕ
  failureReasonCode : Option String
  deriving DecidableEq, Repr

/-- `InMemoryRunRepository`, with whole records. -/
abbrev RunStore := JsMap String StoredRun

namespace RunStore

variable (s : RunStore)

/-- Why the store refuses a new run because of one it has. -/
def refusal (record existing : StoredRun) : Option String :=
  if existing.idempotencyKey = record.idempotencyKey then
    some s!"idempotency key already exists: {record.idempotencyKey}"
  else if existing.identity = record.identity ∧ existing.runAttempt = record.runAttempt then
    some s!"logical run identity already exists for attempt {record.runAttempt}"
  else none

def create (record : StoredRun) : Except AdmissionFailure StoredRun × RunStore :=
  if (s.get record.runId).isSome then
    (.error (.other s!"Run already exists: {record.runId}"), s)
  else
    match s.values.findSome? (refusal record) with
    | some message => (.error (.other message), s)
    | none => (.ok record, s.set record.runId record)

/-- The record after a transition: `withRunState`, and the next revision. -/
def moved (r : StoredRun) (next : RunState) (updatedAt : ℕ) (extras : RunExtras) : StoredRun :=
  { r with
    toRunRecord := RunRepository.moved r.toRunRecord next updatedAt
    admittedAt := extras.admittedAt.orElse fun _ => r.admittedAt
    failureReasonCode := extras.failureReasonCode.orElse fun _ => r.failureReasonCode }

def transition (runId : String) (expected : RunState) (expectedRecordRevision : ℕ)
    (next : RunState) (updatedAt : ℕ) (extras : RunExtras) :
    Except AdmissionFailure StoredRun × RunStore :=
  match s.get runId with
  | none => (.error (.other
      (RunRepository.casMessage runId expected expectedRecordRevision none)), s)
  | some current =>
    if current.state = expected ∧ current.recordRevision = expectedRecordRevision then
      (.ok (moved current next updatedAt extras),
        s.set current.runId (moved current next updatedAt extras))
    else (.error (.other (RunRepository.casMessage runId expected expectedRecordRevision
      (some current.toRunRecord))), s)

end RunStore

/-! ## Events -/

structure ObjectiveSubmitted where
  requesterId : String
  requestedEnvironment : String
  priority : ObjectivePriority
  submittedAt : String
  deriving DecidableEq, Repr

/-- An `EventEnvelope` of the event `PROJECT_OBJECTIVE_SUBMITTED`. -/
structure EventEnvelope where
  eventId : String
  eventType : String
  eventVersion : String
  runId : String
  correlationId : String
  causationId : String
  idempotencyKey : String
  projectId : String
  objectiveId : String
  objectiveVersion : ℕ
  traceId : String
  createdAt : ℕ
  expiresAt : ℕ
  schemaVersion : String
  data : ObjectiveSubmitted
  deriving DecidableEq, Repr

/-! ## Objectives -/

/-- `InMemoryObjectiveRepository`. -/
structure ObjectiveRepository where
  byIdentity : JsMap String Objective
  byRun : JsMap String String

/-- `key`: the project is no part of it. -/
def objectiveKey (objectiveId : String) (objectiveVersion : ℕ) : String :=
  objectiveId ++ "::" ++ toString objectiveVersion

namespace ObjectiveRepository

variable (s : ObjectiveRepository)

def empty : ObjectiveRepository := ⟨.empty, .empty⟩

/-- `save` overwrites. -/
def save (objective : Objective) : ObjectiveRepository :=
  { s with
    byIdentity :=
      s.byIdentity.set (objectiveKey objective.objectiveId objective.objectiveVersion) objective }

def bindRun (runId objectiveId : String) (objectiveVersion : ℕ) : ObjectiveRepository :=
  { s with byRun := s.byRun.set runId (objectiveKey objectiveId objectiveVersion) }

def getById (objectiveId : String) (objectiveVersion : ℕ) : Option Objective :=
  s.byIdentity.get (objectiveKey objectiveId objectiveVersion)

def getByRunBinding (runId : String) : Option Objective :=
  (s.byRun.get runId).bind s.byIdentity.get

end ObjectiveRepository

end Orchestrator
