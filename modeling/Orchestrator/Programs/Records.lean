import Orchestrator.Domain.Budget
import Orchestrator.Domain.Objective
import Orchestrator.Domain.Run

/-!
# Programs

A program is an objective that is too large for one run: it is decomposed into a plan of child
objectives, and a person approves the plan before any child is admitted.

* `ProgramState`, `canTransitionProgram`: the states and the transitions between them;
* `DelegationEnvelope`, `Program`: the records of a program, with the checks of their schemas;
* the fingerprints that an admitted program freezes.
-/

namespace Orchestrator

open Collections

/-! ## Errors -/

/-- The `ProgramErrorCode`s that are thrown. -/
inductive ProgramErrorCode where
  | programNotFound
  | programStateConflict
  | programCasConflict
  | invalidProgramTransition
  | programPlanInvalid
  | programBudgetOverAllocation
  | projectOutsideEnvelope
  | materializationApprovalRequired
  | materializationApprovalInvalid
  | materializationApprovalExpired
  | authorityDrift
  | programPaused
  | childAdmissionFailed
  deriving DecidableEq, Repr

/-- The `PortfolioErrorCode`s that are thrown. -/
inductive PortfolioErrorCode where
  | portfolioNotFound
  | portfolioStateConflict
  | portfolioCasConflict
  | invalidPortfolioTransition
  | portfolioPlanInvalid
  | portfolioBudgetOverAllocation
  | portfolioAuthorizationRequired
  | portfolioAuthorizationInvalid
  | portfolioAuthorizationExpired
  | projectOutsideEnvelope
  | repositoryOutsideEnvelope
  | environmentOutsideEnvelope
  | capabilityExpansionRejected
  | authorityDrift
  | portfolioPaused
  | programAdmissionFailed
  deriving DecidableEq, Repr

/-- What orchestration throws: a `ProgramError`, a `PortfolioError`, the `ZodError` of a record
whose fields at these paths do not pass its schema, or what a service it calls throws. -/
inductive ProgramFailure where
  | program (code : ProgramErrorCode) (message : String)
  | portfolio (code : PortfolioErrorCode) (message : String)
  | invalid (paths : List String)
  | other (message : String)
  deriving DecidableEq, Repr

/-- A record that its schema accepts, or the paths at which it does not. -/
def parseProgramRecord {α : Type} (issues : α → List String) (a : α) : Except ProgramFailure α :=
  if issues a = [] then .ok a else .error (.invalid (issues a))

theorem parseProgramRecord_ok {α : Type} {issues : α → List String} {a b : α}
    (h : parseProgramRecord issues a = .ok b) : b = a ∧ issues a = [] := by
  unfold parseProgramRecord at h
  split_ifs at h with hissues
  cases h
  exact ⟨rfl, hissues⟩

/-- What programs use of `node:crypto` and of the language's own case mapping. -/
structure ProgramExternal extends External where
  /-- The first hex digits of the SHA-256 digest of a string. -/
  digest : ℕ → String → String
  /-- `s.toLowerCase()`. -/
  toLowerCase : String → String

/-- A hash of a value: the digest of its text. -/
def ProgramExternal.hash (X : ProgramExternal) (json : Json) : String := X.sha256 json.stringify

/-- `[...xs].sort()`. -/
def sortStrings (xs : List String) : List String := xs.insertionSort SortsBefore

/-! ## States -/

/-- `PROGRAM_STATES`. -/
inductive ProgramState where
  | admitted
  | decomposing
  | decomposed
  | validating
  | awaitingMaterializationApproval
  | materializing
  | active
  | verifying
  | completed
  | blocked
  | escalated
  | cancelled
  | paused
  deriving DecidableEq, Repr

namespace ProgramState

/-- The state's name in the source. -/
def text : ProgramState → String
  | admitted => "ADMITTED"
  | decomposing => "DECOMPOSING"
  | decomposed => "DECOMPOSED"
  | validating => "VALIDATING"
  | awaitingMaterializationApproval => "AWAITING_MATERIALIZATION_APPROVAL"
  | materializing => "MATERIALIZING"
  | active => "ACTIVE"
  | verifying => "VERIFYING"
  | completed => "COMPLETED"
  | blocked => "BLOCKED"
  | escalated => "ESCALATED"
  | cancelled => "CANCELLED"
  | paused => "PAUSED"

/-- `PROGRAM_TRANSITIONS`. -/
def transitions : ProgramState → List ProgramState
  | admitted => [decomposing, cancelled, blocked]
  | decomposing => [decomposed, blocked, escalated, cancelled]
  | decomposed => [validating, cancelled]
  | validating => [awaitingMaterializationApproval, decomposing, blocked, escalated, cancelled]
  | awaitingMaterializationApproval => [materializing, decomposing, blocked, cancelled]
  | materializing => [active, blocked, escalated, cancelled]
  | active => [verifying, paused, blocked, escalated, cancelled]
  | paused => [active, cancelled]
  | verifying => [completed, active, escalated, blocked]
  | completed => []
  | blocked => [decomposing, validating, active, cancelled]
  | escalated => [decomposing, validating, active, cancelled]
  | cancelled => []

end ProgramState

def canTransitionProgram (fromState next : ProgramState) : Bool :=
  fromState.transitions.contains next

/-- Only a program that is being verified can be completed. -/
theorem canTransitionProgram_completed {s : ProgramState} :
    canTransitionProgram s .completed = true ↔ s = .verifying := by
  cases s <;> decide

/-! ## Records -/

/-- A `ProgramRootIntent`. -/
structure ProgramRootIntent where
  requestedOutcome : String
  acceptanceCriteria : List String
  nonGoals : List String
  constraints : List String
  priority : ObjectivePriority
  deadline : Option String
  deriving DecidableEq, Repr

def ProgramRootIntent.issues (i : ProgramRootIntent) : List String :=
  minOne "rootIntent.requestedOutcome" i.requestedOutcome ++
  someTextItems "rootIntent.acceptanceCriteria" i.acceptanceCriteria

/-- A `DelegationEnvelope`. -/
structure DelegationEnvelope where
  allowedProjectIds : List String
  allowedEnvironments : List String
  allowedRepositoryIdentities : List String
  allowedCapabilityIds : List String
  maximumProgramBudget : BudgetResourceEstimate
  maximumChildBudget : BudgetResourceEstimate
  maximumChildren : ℕ
  maximumDepth : ℕ
  maximumFanOut : ℕ
  maximumConcurrentChildren : ℕ
  maximumModelCalls : ℕ
  maximumTotalTokens : ℕ
  deadline : Option String
  crossProjectDelegationAllowed : Bool
  materializationApprovalRequired : Bool
  deriving DecidableEq

/-- The paths at which `DelegationEnvelopeSchema` rejects an envelope. -/
def DelegationEnvelope.issues (e : DelegationEnvelope) : List String :=
  someTextItems "allowedProjectIds" e.allowedProjectIds ++
  someTextItems "allowedEnvironments" e.allowedEnvironments ++
  textItems "allowedRepositoryIdentities" e.allowedRepositoryIdentities ++
  textItems "allowedCapabilityIds" e.allowedCapabilityIds ++
  e.maximumProgramBudget.issues "maximumProgramBudget" ++
  e.maximumChildBudget.issues "maximumChildBudget" ++
  positiveUpTo "maximumChildren" 100 e.maximumChildren ++
  positiveUpTo "maximumDepth" 10 e.maximumDepth ++
  positiveUpTo "maximumFanOut" 50 e.maximumFanOut ++
  positiveUpTo "maximumConcurrentChildren" 50 e.maximumConcurrentChildren

def parseDelegationEnvelope (e : DelegationEnvelope) : Except ProgramFailure DelegationEnvelope :=
  parseProgramRecord DelegationEnvelope.issues e

/-- `delegationEnvelopeHash`. -/
def delegationEnvelopeHash (X : ProgramExternal) (e : DelegationEnvelope) : String :=
  X.hash (.object [
    ("allowedCapabilityIds", jsonStrings (sortStrings e.allowedCapabilityIds)),
    ("allowedEnvironments", jsonStrings (sortStrings e.allowedEnvironments)),
    ("allowedProjectIds", jsonStrings (sortStrings e.allowedProjectIds)),
    ("allowedRepositoryIdentities", jsonStrings (sortStrings e.allowedRepositoryIdentities)),
    ("crossProjectDelegationAllowed", Json.ofText e.crossProjectDelegationAllowed),
    ("deadline", Json.orNull .string e.deadline),
    ("materializationApprovalRequired", Json.ofText e.materializationApprovalRequired),
    ("maximumChildBudget", e.maximumChildBudget.json),
    ("maximumChildren", .number e.maximumChildren),
    ("maximumConcurrentChildren", .number e.maximumConcurrentChildren),
    ("maximumDepth", .number e.maximumDepth),
    ("maximumFanOut", .number e.maximumFanOut),
    ("maximumModelCalls", .number e.maximumModelCalls),
    ("maximumProgramBudget", e.maximumProgramBudget.json),
    ("maximumTotalTokens", .number e.maximumTotalTokens)])

/-- A `ProgramAuthorityFreeze`. -/
structure ProgramAuthorityFreeze where
  policyBundleId : String
  policyBundleHash : String
  capabilitySetFingerprint : String
  projectConfigurationFingerprint : String
  budgetProfileId : String
  budgetConfigurationFingerprint : String
  repositoryAllowlistFingerprint : String
  delegationEnvelopeHash : String
  frozenAt : ℕ
  deriving DecidableEq, Repr

def ProgramAuthorityFreeze.issues (f : ProgramAuthorityFreeze) : List String :=
  minOne "authorityFreeze.policyBundleId" f.policyBundleId ++
  minOne "authorityFreeze.policyBundleHash" f.policyBundleHash ++
  minOne "authorityFreeze.capabilitySetFingerprint" f.capabilitySetFingerprint ++
  minOne "authorityFreeze.projectConfigurationFingerprint" f.projectConfigurationFingerprint ++
  minOne "authorityFreeze.budgetProfileId" f.budgetProfileId ++
  minOne "authorityFreeze.budgetConfigurationFingerprint" f.budgetConfigurationFingerprint ++
  minOne "authorityFreeze.repositoryAllowlistFingerprint" f.repositoryAllowlistFingerprint ++
  minOne "authorityFreeze.delegationEnvelopeHash" f.delegationEnvelopeHash

def INITIAL_PROGRAM_VERSION : ℕ := 1

/-- A `Program`. -/
structure Program where
  programId : String
  programVersion : ℕ
  projectId : String
  requesterId : String
  requestedEnvironment : String
  rootIntent : ProgramRootIntent
  status : ProgramState
  delegationEnvelope : DelegationEnvelope
  authorityFreeze : ProgramAuthorityFreeze
  programPlanVersion : Option ℕ
  programPlanHash : Option String
  decompositionRevisionCount : ℕ
  maximumDecompositionRevisions : ℕ
  paused : Bool
  failureReasonCode : Option String
  createdAt : ℕ
  updatedAt : ℕ
  recordRevision : ℕ
  correlationId : String
  traceId : String
  idempotencyKey : String
  contentFingerprint : String
  deriving DecidableEq

/-- The paths at which `ProgramSchema` rejects a program. -/
def Program.issues (p : Program) : List String :=
  minOne "programId" p.programId ++ positive "programVersion" p.programVersion ++
  minOne "projectId" p.projectId ++ minOne "requesterId" p.requesterId ++
  minOne "requestedEnvironment" p.requestedEnvironment ++ p.rootIntent.issues ++
  (p.delegationEnvelope.issues.map fun path => "delegationEnvelope." ++ path) ++
  p.authorityFreeze.issues ++
  positiveOption "programPlanVersion" p.programPlanVersion ++
  minOneOption "programPlanHash" p.programPlanHash ++
  minOneOption "failureReasonCode" p.failureReasonCode ++
  positive "recordRevision" p.recordRevision ++ minOne "correlationId" p.correlationId ++
  minOne "traceId" p.traceId ++ minOne "idempotencyKey" p.idempotencyKey ++
  minOne "contentFingerprint" p.contentFingerprint

def parseProgram (p : Program) : Except ProgramFailure Program :=
  parseProgramRecord Program.issues p

/-! ## Fingerprints -/

/-- `projectConfigurationFingerprint`. -/
def projectConfigurationFingerprint (X : ProgramExternal)
    (projectId activePolicyBundleId budgetProfileId : String) (allowedEnvironments : List String)
    (executionMode : String) : String :=
  X.hash (.object [
    ("activePolicyBundleId", .string activePolicyBundleId),
    ("allowedEnvironments", jsonStrings (sortStrings allowedEnvironments)),
    ("budgetProfileId", .string budgetProfileId),
    ("executionMode", .string executionMode),
    ("projectId", .string projectId)])

/-- `repositoryAllowlistFingerprint`. -/
def repositoryAllowlistFingerprint (X : ProgramExternal) (identities : List String) : String :=
  X.hash (jsonStrings (sortStrings identities))

/-- `budgetConfigurationFingerprint`. -/
def budgetConfigurationFingerprint (X : ProgramExternal) (profileId : String)
    (estimate : BudgetResourceEstimate) : String :=
  X.hash (.object [("estimate", estimate.json), ("profileId", .string profileId)])

/-- `programIdempotencyKey`. -/
def programIdempotencyKey (X : ProgramExternal) (projectId programId : String) (programVersion : ℕ)
    (requestedEnvironment : String) : String :=
  X.hash (.object [
    ("programId", .string programId),
    ("programVersion", .number programVersion),
    ("projectId", .string projectId),
    ("requestedEnvironment", .string requestedEnvironment)])

/-- `programContentFingerprint`. -/
def programContentFingerprint (X : ProgramExternal) (rootIntent : ProgramRootIntent)
    (requesterId delegationEnvelopeHash : String) : String :=
  X.hash (.object [
    ("acceptanceCriteria", jsonStrings rootIntent.acceptanceCriteria),
    ("constraints", jsonStrings rootIntent.constraints),
    ("deadline", Json.orNull .string rootIntent.deadline),
    ("delegationEnvelopeHash", .string delegationEnvelopeHash),
    ("nonGoals", jsonStrings rootIntent.nonGoals),
    ("priority", .string rootIntent.priority.text),
    ("requestedOutcome", .string rootIntent.requestedOutcome),
    ("requesterId", .string requesterId)])

end Orchestrator
