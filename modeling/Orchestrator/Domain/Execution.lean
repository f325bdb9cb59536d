import Orchestrator.Domain.Plan

/-!
# Execution records

The records execution writes (step results, attempts, results, authority snapshots,
containment results) with the schema checks their `parse` functions make, and `External`, the
functions execution takes from libraries.

Times are milliseconds of the service's clock.
-/

namespace Orchestrator

/-- What execution uses of `node:crypto`, of `zod` and of the language's own formatting. -/
structure External where
  /-- The hex SHA-256 digest of a UTF-8 string. -/
  sha256 : String → String
  /-- `JSON.stringify(canonicalizeValue(o))` for an object of strings. -/
  canonicalObject : List (String × String) → String
  /-- `JSON.stringify(canonicalizeValue(xs))` for an array of strings. -/
  canonicalArray : List String → String
  /-- The canonical JSON of a list of capability authority fields. -/
  canonicalCapabilities : List Capability → String
  /-- The message of a `ZodError` whose issues are at these paths. -/
  zodMessage : List String → String
  /-- `String(n)` for a number. -/
  numberToString : ℚ → String
  /-- `a.localeCompare(b) <= 0`. -/
  localeLe : String → String → Bool

/-- A simple instance: digests are the texts themselves. -/
def plainExternal : External where
  sha256 s := s
  canonicalObject fields := ";".intercalate (fields.map fun f => f.1 ++ "=" ++ f.2)
  canonicalArray xs := ",".intercalate xs
  canonicalCapabilities cs := ",".intercalate (cs.map (·.capabilityId))
  zodMessage paths := "invalid: " ++ ",".intercalate paths
  numberToString q := toString q.num
  localeLe a b := decide (a ≤ b)

/-- A `ZodError` with issues at these paths. -/
def External.zodError (X : External) (paths : List String) : JsError := .error (X.zodMessage paths)

/-- The outcome of a schema check: the value, or a `ZodError` at the paths that fail. -/
def External.parse {α : Type} (X : External) (issues : α → List String) (a : α) :
    Except JsError α :=
  if issues a = [] then .ok a else .error (X.zodError (issues a))

/-- The issue of a `z.string().min(1)` field. -/
def minOne (path value : String) : List String := if value = "" then [path] else []

/-- The issue of a `z.string().max(4000).optional()` field. -/
def maxText (path : String) (value : Option String) : List String :=
  match value with
  | none => []
  | some text => if 4000 < jsLength text then [path] else []

theorem External.parse_ok {α : Type} (X : External) {issues : α → List String} {a : α}
    (h : issues a = []) : X.parse issues a = .ok a := if_pos h

theorem External.parse_error {α : Type} (X : External) {issues : α → List String} {a : α}
    (h : issues a ≠ []) : X.parse issues a = .error (X.zodError (issues a)) := if_neg h

/-- What a schema accepts has no issues, and is returned as it is. -/
theorem External.of_parse {α : Type} (X : External) {issues : α → List String} {a b : α}
    (h : X.parse issues a = .ok b) : b = a ∧ issues a = [] := by
  rw [External.parse] at h
  split at h
  · next hissues =>
    cases h
    exact ⟨rfl, hissues⟩
  · cases h

/-! ## Capability sets -/

/-- The hash of the authority fields; sorting them is part of the canonical form. -/
def capabilitySetFingerprint (X : External) (capabilities : List Capability) : String :=
  X.sha256 (X.canonicalCapabilities capabilities)

/-! ## Step results -/

inductive StepExecutionStatus where
  | reserved
  | running
  | succeeded
  | failed
  | skipped
  | compensated
  | contained
  deriving DecidableEq, Repr

/-- The status's name in the source. -/
def StepExecutionStatus.text : StepExecutionStatus → String
  | .reserved => "RESERVED"
  | .running => "RUNNING"
  | .succeeded => "SUCCEEDED"
  | .failed => "FAILED"
  | .skipped => "SKIPPED"
  | .compensated => "COMPENSATED"
  | .contained => "CONTAINED"

/-- The values of a `verificationMetadata` record. -/
inductive MetadataValue where
  | number (n : ℚ)
  | flag (b : Bool)
  | text (s : String)
  | texts (ss : List String)
  deriving DecidableEq, Repr

/-- `StepExecutionResult`. -/
structure StepExecutionResult where
  stepId : String
  idempotencyKey : String
  capabilityId : String
  actionType : String
  status : StepExecutionStatus
  startedAt : ℕ
  completedAt : Option ℕ
  outputArtifactRefs : List String
  outputHashes : List String
  affectedTargets : List String
  verificationMetadata : Option (List (String × MetadataValue))
  errorCode : Option ExecutionErrorCode
  errorMessage : Option String
  executionAttemptId : String
  runId : String
  deriving DecidableEq, Repr

/-- The paths at which `StepExecutionResultSchema` rejects a record. -/
def StepExecutionResult.issues (r : StepExecutionResult) : List String :=
  minOne "stepId" r.stepId ++ minOne "idempotencyKey" r.idempotencyKey ++
    minOne "capabilityId" r.capabilityId ++ minOne "actionType" r.actionType ++
    maxText "errorMessage" r.errorMessage ++ minOne "executionAttemptId" r.executionAttemptId ++
    minOne "runId" r.runId

def parseStepExecutionResult (X : External) (r : StepExecutionResult) :
    Except JsError StepExecutionResult :=
  X.parse StepExecutionResult.issues r

/-- `{ ...r, status }`. -/
def StepExecutionResult.withStatus (r : StepExecutionResult) (status : StepExecutionStatus) :
    StepExecutionResult := { r with status := status }

@[simp] theorem StepExecutionResult.status_withStatus (r : StepExecutionResult)
    (status : StepExecutionStatus) : (r.withStatus status).status = status := rfl

@[simp] theorem StepExecutionResult.idempotencyKey_withStatus (r : StepExecutionResult)
    (status : StepExecutionStatus) : (r.withStatus status).idempotencyKey = r.idempotencyKey := rfl

/-- The schema does not look at the status, so a checked record passes with any other. -/
@[simp] theorem StepExecutionResult.issues_withStatus (r : StepExecutionResult)
    (status : StepExecutionStatus) : (r.withStatus status).issues = r.issues := rfl

/-! ## Results and attempts -/

inductive ExecutionResultStatus where
  | executionSucceeded
  | executionFailed
  | executionPartial
  | executionContained
  deriving DecidableEq, Repr

/-- `ExecutionResult`. -/
structure ExecutionResult where
  executionAttemptId : String
  runId : String
  planId : String
  planVersion : ℕ
  planHash : String
  authorizationRecordId : String
  status : ExecutionResultStatus
  stepResults : List StepExecutionResult
  startedAt : ℕ
  completedAt : ℕ
  artifactRefs : List String
  failureSummary : Option String
  containmentRequired : Bool
  deriving DecidableEq, Repr

/-- The paths at which `ExecutionResultSchema` rejects a result. -/
def ExecutionResult.issues (r : ExecutionResult) : List String :=
  minOne "executionAttemptId" r.executionAttemptId ++ minOne "runId" r.runId ++
    minOne "planId" r.planId ++ (if r.planVersion = 0 then ["planVersion"] else []) ++
    minOne "planHash" r.planHash ++ minOne "authorizationRecordId" r.authorizationRecordId ++
    r.stepResults.flatMap (fun s => s.issues.map ("stepResults." ++ ·)) ++
    maxText "failureSummary" r.failureSummary

def parseExecutionResult (X : External) (r : ExecutionResult) : Except JsError ExecutionResult :=
  X.parse ExecutionResult.issues r

inductive ExecutionAttemptStatus where
  | inProgress
  | succeeded
  | failed
  | partialSuccess
  | contained
  deriving DecidableEq, Repr

/-- `ExecutionAttempt`. -/
structure ExecutionAttempt where
  executionAttemptId : String
  runId : String
  planId : String
  planVersion : ℕ
  planHash : String
  authorizationRecordId : String
  attemptNumber : ℕ
  startedAt : ℕ
  completedAt : Option ℕ
  status : ExecutionAttemptStatus
  authoritySnapshotId : Option String
  deriving DecidableEq, Repr

/-- The paths at which `ExecutionAttemptSchema` rejects an attempt. -/
def ExecutionAttempt.issues (a : ExecutionAttempt) : List String :=
  minOne "executionAttemptId" a.executionAttemptId ++ minOne "runId" a.runId ++
    minOne "planId" a.planId ++ (if a.planVersion = 0 then ["planVersion"] else []) ++
    minOne "planHash" a.planHash ++ minOne "authorizationRecordId" a.authorizationRecordId ++
    (if a.attemptNumber = 0 then ["attemptNumber"] else []) ++
    (match a.authoritySnapshotId with
      | none => []
      | some id => minOne "authoritySnapshotId" id)

def parseExecutionAttempt (X : External) (a : ExecutionAttempt) : Except JsError ExecutionAttempt :=
  X.parse ExecutionAttempt.issues a

/-- The schema does not look at how an attempt ended. -/
@[simp] theorem ExecutionAttempt.issues_end (a : ExecutionAttempt) (t : Option ℕ)
    (status : ExecutionAttemptStatus) :
    { a with completedAt := t, status := status }.issues = a.issues := rfl

/-- `ExecutionAuthoritySnapshot`. -/
structure ExecutionAuthoritySnapshot where
  authoritySnapshotId : String
  runId : String
  planId : String
  planVersion : ℕ
  planHash : String
  authorizationRecordId : String
  repositoryCommitSha : String
  repositoryFingerprint : String
  policyBundleHash : String
  authorizedCapabilitySetFingerprint : String
  liveCapabilitySetFingerprint : String
  capabilitySetFingerprint : String
  executionMode : ExecutionMode
  capturedAt : ℕ
  deriving DecidableEq, Repr

/-- The paths at which `ExecutionAuthoritySnapshotSchema` rejects a snapshot; the refinement
on the fingerprints reports at the root. -/
def ExecutionAuthoritySnapshot.issues (s : ExecutionAuthoritySnapshot) : List String :=
  minOne "authoritySnapshotId" s.authoritySnapshotId ++ minOne "runId" s.runId ++
    minOne "planId" s.planId ++ (if s.planVersion = 0 then ["planVersion"] else []) ++
    minOne "planHash" s.planHash ++ minOne "authorizationRecordId" s.authorizationRecordId ++
    minOne "repositoryCommitSha" s.repositoryCommitSha ++
    minOne "repositoryFingerprint" s.repositoryFingerprint ++
    minOne "policyBundleHash" s.policyBundleHash ++
    minOne "authorizedCapabilitySetFingerprint" s.authorizedCapabilitySetFingerprint ++
    minOne "liveCapabilitySetFingerprint" s.liveCapabilitySetFingerprint ++
    minOne "capabilitySetFingerprint" s.capabilitySetFingerprint ++
    (if s.authorizedCapabilitySetFingerprint ≠ s.liveCapabilitySetFingerprint ∨
        s.capabilitySetFingerprint ≠ s.authorizedCapabilitySetFingerprint then [""] else [])

def parseExecutionAuthoritySnapshot (X : External) (s : ExecutionAuthoritySnapshot) :
    Except JsError ExecutionAuthoritySnapshot :=
  X.parse ExecutionAuthoritySnapshot.issues s

/-! ## Containment and rollback -/

/-- `ContainmentResult`; `contained` is always true. -/
structure ContainmentResult where
  runId : String
  executionAttemptId : String
  reasonCode : ExecutionErrorCode
  reasonMessage : String
  preservedStepIds : List String
  preservedArtifactRefs : List String
  containedAt : ℕ
  deriving DecidableEq, Repr

/-- The paths at which `ContainmentResultSchema` rejects a containment result. -/
def ContainmentResult.issues (c : ContainmentResult) : List String :=
  minOne "runId" c.runId ++ minOne "executionAttemptId" c.executionAttemptId ++
    minOne "reasonMessage" c.reasonMessage

def buildContainmentResult (X : External) (c : ContainmentResult) : Except JsError ContainmentResult :=
  X.parse ContainmentResult.issues c

/-- `RollbackPlan`; it is always authorized in the plan. -/
structure RollbackPlan where
  rollbackPlanId : String
  sourceStepId : String
  compensatingStepIds : List String
  strategy : RollbackStrategy
  instructions : Option (List String)
  deriving DecidableEq, Repr

/-- The paths at which `RollbackPlanSchema` rejects a rollback plan. -/
def RollbackPlan.issues (r : RollbackPlan) : List String :=
  minOne "rollbackPlanId" r.rollbackPlanId ++ minOne "sourceStepId" r.sourceStepId ++
    (if r.compensatingStepIds = [] then ["compensatingStepIds"] else []) ++
    r.compensatingStepIds.flatMap (minOne "compensatingStepIds" ·) ++
    (if r.strategy = .none then ["strategy"] else [])

def parseRollbackPlan (X : External) (r : RollbackPlan) : Except JsError RollbackPlan :=
  X.parse RollbackPlan.issues r

/-- Architecture invariant of the source: at most one autonomous rollback per execution
attempt. -/
def MAX_AUTOMATIC_ROLLBACKS : ℕ := 1

end Orchestrator
