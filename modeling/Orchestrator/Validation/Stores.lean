import Orchestrator.Collections.JsMap
import Orchestrator.Domain.Plan
import Orchestrator.Domain.Validation

/-!
# The validation stores

The in-memory stores that validation writes: plan versions, validation fences and decisions.

* `PlanStore`: `save`, `getByRunId`, `getVersion`, `listByRunId`, `markSuperseded`;
* `FenceStore`: `begin`, `markDecided`, `markFailed`;
* `DecisionStore`: `save`, `getById`, `listByRunId`, on decisions that are only ever added.
-/

namespace Orchestrator

open Collections

/-! ## Errors -/

/-- `VALIDATION_ERROR_CODES`. -/
inductive ValidationErrorCode where
  | validationNotReady
  | validationInProgress
  | validationContextStale
  | planNotFound
  | planNotValidatable
  | objectiveNotFound
  | policyBundleUnavailable
  | validationModelUnavailable
  | validationModelTimeout
  | validationModelRefused
  | validationModelInvalidOutput
  | validationModelBudgetExceeded
  | validationModelBudgetInvariantViolation
  | validationDecisionPersistenceFailed
  | validationReconciliationFailed
  | invalidValidationState
  | revisionNotPermitted
  | revisionLimitExceeded
  | revisionBudgetExceeded
  | revisionModelInvalidOutput
  | revisionCompilationFailed
  | revisionPersistenceFailed
  deriving DecidableEq, Repr

/-- The code's name in the source. -/
def ValidationErrorCode.text : ValidationErrorCode → String
  | .validationNotReady => "VALIDATION_NOT_READY"
  | .validationInProgress => "VALIDATION_IN_PROGRESS"
  | .validationContextStale => "VALIDATION_CONTEXT_STALE"
  | .planNotFound => "PLAN_NOT_FOUND"
  | .planNotValidatable => "PLAN_NOT_VALIDATABLE"
  | .objectiveNotFound => "OBJECTIVE_NOT_FOUND"
  | .policyBundleUnavailable => "POLICY_BUNDLE_UNAVAILABLE"
  | .validationModelUnavailable => "VALIDATION_MODEL_UNAVAILABLE"
  | .validationModelTimeout => "VALIDATION_MODEL_TIMEOUT"
  | .validationModelRefused => "VALIDATION_MODEL_REFUSED"
  | .validationModelInvalidOutput => "VALIDATION_MODEL_INVALID_OUTPUT"
  | .validationModelBudgetExceeded => "VALIDATION_MODEL_BUDGET_EXCEEDED"
  | .validationModelBudgetInvariantViolation => "VALIDATION_MODEL_BUDGET_INVARIANT_VIOLATION"
  | .validationDecisionPersistenceFailed => "VALIDATION_DECISION_PERSISTENCE_FAILED"
  | .validationReconciliationFailed => "VALIDATION_RECONCILIATION_FAILED"
  | .invalidValidationState => "INVALID_VALIDATION_STATE"
  | .revisionNotPermitted => "REVISION_NOT_PERMITTED"
  | .revisionLimitExceeded => "REVISION_LIMIT_EXCEEDED"
  | .revisionBudgetExceeded => "REVISION_BUDGET_EXCEEDED"
  | .revisionModelInvalidOutput => "REVISION_MODEL_INVALID_OUTPUT"
  | .revisionCompilationFailed => "REVISION_COMPILATION_FAILED"
  | .revisionPersistenceFailed => "REVISION_PERSISTENCE_FAILED"

/-- What validation code may throw: a `ValidationError`, or another error. -/
inductive ValidationFailure where
  | validation (code : ValidationErrorCode) (message : String)
  | other (message : String)
  deriving DecidableEq, Repr

/-! ## Plans -/

inductive StoredPlanStatus where
  | candidate
  | readyForValidation
  | underValidation
  | validatedPass
  | validatedBlock
  | validatedApprovalRequired
  | superseded
  deriving DecidableEq, Repr

/-- The status's name in the source. -/
def StoredPlanStatus.text : StoredPlanStatus → String
  | .candidate => "CANDIDATE"
  | .readyForValidation => "READY_FOR_VALIDATION"
  | .underValidation => "UNDER_VALIDATION"
  | .validatedPass => "VALIDATED_PASS"
  | .validatedBlock => "VALIDATED_BLOCK"
  | .validatedApprovalRequired => "VALIDATED_APPROVAL_REQUIRED"
  | .superseded => "SUPERSEDED"

/-- What a stored plan says of its origin. -/
structure PlanOrigin where
  planningContextFingerprint : String
  planningPromptVersion : String
  modelProvider : String
  modelId : String
  createdAt : ℕ
  supersedesPlanId : Option String
  lineageRootPlanId : Option String
  deriving DecidableEq, Repr

structure StoredPlanRecord extends PlanRecord where
  runId : String
  status : StoredPlanStatus
  origin : PlanOrigin
  planVersion_pos : 0 < planVersion
  deriving DecidableEq

/-- The record with another status. -/
def StoredPlanRecord.withStatus (record : StoredPlanRecord) (status : StoredPlanStatus) :
    StoredPlanRecord :=
  { record with status := status }

@[simp] theorem StoredPlanRecord.withStatus_planId (record : StoredPlanRecord)
    (status : StoredPlanStatus) : (record.withStatus status).planId = record.planId := rfl

@[simp] theorem StoredPlanRecord.withStatus_runId (record : StoredPlanRecord)
    (status : StoredPlanStatus) : (record.withStatus status).runId = record.runId := rfl

@[simp] theorem StoredPlanRecord.withStatus_planVersion (record : StoredPlanRecord)
    (status : StoredPlanStatus) : (record.withStatus status).planVersion = record.planVersion := rfl

@[simp] theorem StoredPlanRecord.withStatus_self (record : StoredPlanRecord) :
    record.withStatus record.status = record := rfl

/-- `InMemoryPlanRepository`. -/
structure PlanStore where
  byId : JsMap String StoredPlanRecord
  latestByRun : JsMap String String
  versionsByRun : JsMap String (JsMap ℕ String)

namespace PlanStore

variable (s : PlanStore)

def empty : PlanStore := ⟨.empty, .empty, .empty⟩

/-- The plan that a run has under a version. -/
def holder (runId : String) (planVersion : ℕ) : Option String :=
  (s.versionsByRun.get runId).bind fun versionMap => versionMap.get planVersion

/-- The store with the record under its id, its run's version and as its run's latest. -/
def put (record : StoredPlanRecord) : PlanStore where
  byId := s.byId.set record.planId record
  latestByRun := s.latestByRun.set record.runId record.planId
  versionsByRun := s.versionsByRun.set record.runId
    (((s.versionsByRun.get record.runId).getD .empty).set record.planVersion record.planId)

/-- A version of a run is one plan's for good. -/
def save (record : StoredPlanRecord) :
    Except ValidationFailure StoredPlanRecord × PlanStore :=
  match s.holder record.runId record.planVersion with
  | some existing =>
    if existing ≠ record.planId then
      (.error (.other
        s!"Run {record.runId} already has planVersion {record.planVersion} ({existing})"), s)
    else (.ok record, s.put record)
  | none => (.ok record, s.put record)

def getByRunId (runId : String) : Option StoredPlanRecord :=
  (s.latestByRun.get runId).bind s.byId.get

def getVersion (runId : String) (planVersion : ℕ) : Option StoredPlanRecord :=
  (s.holder runId planVersion).bind s.byId.get

/-- The plans of a run by version. -/
def listByRunId (runId : String) : List StoredPlanRecord :=
  match s.versionsByRun.get runId with
  | none => []
  | some versionMap =>
    (versionMap.entries.mergeSort fun a b => a.1 ≤ b.1).filterMap fun entry => s.byId.get entry.2

/-- The store with the record under its id, and nothing else changed. -/
def replace (record : StoredPlanRecord) : PlanStore :=
  { s with byId := s.byId.set record.planId record }

def markSuperseded (planId : String) : Except ValidationFailure StoredPlanRecord × PlanStore :=
  match s.byId.get planId with
  | none => (.error (.other s!"Unknown planId: {planId}"), s)
  | some existing =>
    (.ok (existing.withStatus .superseded), s.replace (existing.withStatus .superseded))

variable {s} {record : StoredPlanRecord}

theorem holder_put (runId : String) (planVersion : ℕ) :
    (s.put record).holder runId planVersion =
      if record.runId = runId ∧ record.planVersion = planVersion then some record.planId
      else s.holder runId planVersion := by
  rw [holder, put]
  simp only [JsMap.get_set]
  by_cases hrun : record.runId = runId
  · rw [if_pos hrun, Option.bind_some, JsMap.get_set]
    by_cases hversion : record.planVersion = planVersion
    · rw [if_pos hversion, if_pos ⟨hrun, hversion⟩]
    · rw [if_neg hversion, if_neg fun h => hversion h.2, holder, ← hrun]
      cases s.versionsByRun.get record.runId <;> rfl
  · rw [if_neg hrun, if_neg fun h => hrun h.1, holder]

/-- What a save that went through did. -/
theorem save_ok {record' : StoredPlanRecord} (h : (s.save record).1 = .ok record') :
    record' = record ∧ (s.save record).2 = s.put record ∧
      ∀ id, s.holder record.runId record.planVersion = some id → id = record.planId := by
  rw [save] at h ⊢
  cases hholder : s.holder record.runId record.planVersion with
  | none =>
    simp only [hholder] at h ⊢
    exact ⟨(Except.ok.inj h).symm, trivial, fun id hid => nomatch hid⟩
  | some existing =>
    simp only [hholder] at h ⊢
    split at h
    · cases h
    · next hne =>
      rw [if_neg hne]
      refine ⟨(Except.ok.inj h).symm, rfl, fun id hid => ?_⟩
      cases hid
      exact not_not.mp hne

/-- A save that threw changed nothing. -/
theorem save_error {e : ValidationFailure} (h : (s.save record).1 = .error e) :
    (s.save record).2 = s := by
  rw [save] at h ⊢
  split
  · split
    · rfl
    · simp_all
  · simp_all

/-- A save goes through where no other plan has the version. -/
theorem save_of_holder
    (h : ∀ id, s.holder record.runId record.planVersion = some id → id = record.planId) :
    s.save record = (.ok record, s.put record) := by
  rw [save]
  cases hholder : s.holder record.runId record.planVersion with
  | none => rfl
  | some existing => exact if_neg (not_not.mpr (h existing hholder))

@[simp] theorem getByRunId_put_self : (s.put record).getByRunId record.runId = some record := by
  rw [getByRunId, put]
  simp only [JsMap.get_set_self, Option.bind_some]

end PlanStore

/-! ## Fences -/

/-- `ValidationFenceKey`. -/
structure ValidationFenceKey where
  runId : String
  planId : String
  planVersion : ℕ
  planHash : String
  deriving DecidableEq, Repr

/-- `validationFenceKey`. -/
def ValidationFenceKey.text (key : ValidationFenceKey) : String :=
  s!"{key.runId}:{key.planId}:{key.planVersion}:{key.planHash}"

/-- `ValidationFenceStatusSchema`; a plan that was not begun has no fence. -/
inductive ValidationFenceStatus where
  | inProgress
  | decided
  | failed
  deriving DecidableEq, Repr

structure ValidationFence where
  key : ValidationFenceKey
  status : ValidationFenceStatus
  attempt : ℕ
  lastUpdatedAt : ℕ
  ownerToken : Option String
  failureCode : Option ValidationErrorCode
  failedAt : Option ℕ
  retryable : Bool
  decidedAt : Option ℕ
  validationDecisionId : Option String
  decision : Option ValidationDecisionClass
  deriving DecidableEq, Repr

inductive BeginValidationResult where
  | started (fence : ValidationFence) (ownerToken : String)
  | alreadyDecided (fence : ValidationFence)
  deriving DecidableEq, Repr

/-- `InMemoryValidationCoordinator`. -/
structure FenceStore where
  byKey : JsMap String ValidationFence
  tokenCounter : ℕ

namespace FenceStore

variable (s : FenceStore) (key : ValidationFenceKey)

def empty : FenceStore := ⟨.empty, 0⟩

def get : Option ValidationFence := s.byKey.get key.text

def set (fence : ValidationFence) : FenceStore := { s with byKey := s.byKey.set key.text fence }

/-- The attempt that a new start is. -/
def nextAttempt (current : Option ValidationFence) : ℕ :=
  match current with
  | some fence => if fence.status = .failed then fence.attempt + 1 else 1
  | none => 1

/-- The fence of a started validation. -/
def startedFence (attempt now : ℕ) (ownerToken : String) : ValidationFence where
  key := key
  status := .inProgress
  attempt := attempt
  lastUpdatedAt := now
  ownerToken := some ownerToken
  failureCode := none
  failedAt := none
  retryable := true
  decidedAt := none
  validationDecisionId := none
  decision := none

/-- The text whose digest is the token of a start. -/
def tokenText (counter now : ℕ) : String := s!"{key.text}:validate:{counter}:{now}"

/-- A validation started. -/
def start (digest : String → String) (now : ℕ) : BeginValidationResult × FenceStore :=
  let ownerToken := digest (tokenText key (s.tokenCounter + 1) now)
  let fence := startedFence key (nextAttempt (s.get key)) now ownerToken
  (.started fence ownerToken,
    { byKey := s.byKey.set key.text fence, tokenCounter := s.tokenCounter + 1 })

def begin (digest : String → String) (now : ℕ) :
    Except ValidationFailure BeginValidationResult × FenceStore :=
  match s.get key with
  | some current =>
    match current.status with
    | .inProgress =>
      (.error (.validation .validationInProgress
        s!"Validation is already in progress for plan {key.planId} v{key.planVersion}"), s)
    | .decided => (.ok (.alreadyDecided current), s)
    | .failed =>
      if current.retryable then (.ok (s.start key digest now).1, (s.start key digest now).2)
      else
        (.error (.validation .invalidValidationState
          s!"Validation for plan {key.planId} failed and is not retryable"), s)
  | none => (.ok (s.start key digest now).1, (s.start key digest now).2)

/-- `requireOwnedInProgress`. -/
def requireOwnedInProgress (ownerToken : String) : Except ValidationFailure ValidationFence :=
  match s.get key with
  | none => .error (.validation .invalidValidationState
      s!"Validation fence for plan {key.planId} is not IN_PROGRESS")
  | some current =>
    if current.status ≠ .inProgress then
      .error (.validation .invalidValidationState
        s!"Validation fence for plan {key.planId} is not IN_PROGRESS")
    else if current.ownerToken ≠ some ownerToken then
      .error (.validation .invalidValidationState
        s!"Validation ownership mismatch for plan {key.planId}")
    else .ok current

/-- The fence of a decided validation. -/
def decidedFence (attempt now : ℕ) (validationDecisionId : String)
    (decision : ValidationDecisionClass) : ValidationFence where
  key := key
  status := .decided
  attempt := attempt
  lastUpdatedAt := now
  ownerToken := none
  failureCode := none
  failedAt := none
  retryable := false
  decidedAt := some now
  validationDecisionId := some validationDecisionId
  decision := some decision

def markDecided (ownerToken : String) (now : ℕ) (validationDecisionId : String)
    (decision : ValidationDecisionClass) : Except ValidationFailure Unit × FenceStore :=
  match s.requireOwnedInProgress key ownerToken with
  | .error e => (.error e, s)
  | .ok current =>
    (.ok (), s.set key (decidedFence key current.attempt now validationDecisionId decision))

/-- The fence of a failed validation. -/
def failedFence (attempt : ℕ) (failureCode : ValidationErrorCode) (failedAt : ℕ)
    (retryable : Bool) : ValidationFence where
  key := key
  status := .failed
  attempt := attempt
  lastUpdatedAt := failedAt
  ownerToken := none
  failureCode := some failureCode
  failedAt := some failedAt
  retryable := retryable
  decidedAt := none
  validationDecisionId := none
  decision := none

def markFailed (ownerToken : String) (failureCode : ValidationErrorCode) (failedAt : ℕ)
    (retryable : Bool) : Except ValidationFailure Unit × FenceStore :=
  match s.requireOwnedInProgress key ownerToken with
  | .error e => (.error e, s)
  | .ok current => (.ok (), s.set key (failedFence key current.attempt failureCode failedAt retryable))

end FenceStore

/-! ## Decisions -/

/-- `InMemoryValidationDecisionRepository`: the decisions in the order in which they were
saved. -/
abbrev DecisionStore := JsMap String ValidationDecision

namespace DecisionStore

variable (s : DecisionStore)

def save (decision : ValidationDecision) :
    Except ValidationFailure ValidationDecision × DecisionStore :=
  if (s.get decision.validationDecisionId).isSome then
    (.error (.other s!"Validation decision already exists: {decision.validationDecisionId}"), s)
  else (.ok decision, s.set decision.validationDecisionId decision)

def listByRunId (runId : String) : List ValidationDecision :=
  s.values.filter fun decision => decision.runId = runId

end DecisionStore

end Orchestrator
