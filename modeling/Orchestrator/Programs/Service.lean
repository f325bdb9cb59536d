import Orchestrator.Programs.CriterionProof

/-!
# The program orchestration service

`ProgramOrchestrationService` over the calls it makes, statement by statement.

* `ProgramDeps`, the dependencies that are configured;
* `admitProgram`, `decompose`, `validate`: from a request to a plan;
* `routeMaterializationApproval`, `decideMaterialization`: the approval of a plan;
* `materializeNext`: the admission of the children;
* `verify`, `pause`, `resume`.
-/

namespace Orchestrator

open Atomic Collections

/-- Which of the optional dependencies are configured. -/
structure ProgramDeps where
  materializationNonceStore : Bool
  isProgramMaterializer : Bool
  objectiveAdmission : Bool
  runs : Bool
  runCompletions : Bool
  outcomeVerifications : Bool
  scheduler : Bool
  authorizedRepositoryIdentities : Bool
  deriving DecidableEq, Repr

/-- All of them. -/
def ProgramDeps.full : ProgramDeps := ⟨true, true, true, true, true, true, true, true⟩

namespace ProgramService

abbrev Call (α : Type) := Async ProgramSig ProgramFailure α

/-- One call. -/
def call (o : ProgramOp) : Call o.Res := Async.await o

/-! ## Common steps -/

def requireProgram (programId : String) : Call Program := do
  let found ← call (.getProgram programId)
  match (found : Option Program) with
  | none => throw (.program .programNotFound s!"Program {programId} not found")
  | some program => pure program

def requireLatestPlan (X : ProgramExternal) (program : Program) : Call ProgramPlan := do
  let found ← call (.getLatestPlan program.programId)
  match (found : Option ProgramPlan) with
  | none => throw (.program .programPlanInvalid "Program plan missing")
  | some plan =>
    Async.ofExcept (assertValidProgramPlan X program plan)
    pure plan

/-- The transition of a program as it was read. -/
def transition (program : Program) (next : ProgramState) (extras : ProgramExtras) : Call Program :=
  if !canTransitionProgram program.status next then
    throw (.program .invalidProgramTransition
      ("Illegal transition " ++ program.status.text ++ " → " ++ next.text))
  else do
    let now ← call .nowIso
    call (.transitionProgram program.programId program.status program.recordRevision next now
      extras)

/-- An error `AUTHORITY_DRIFT`, unless the check holds. -/
def drifted (message : String) (ok : Bool) : Except ProgramFailure Unit :=
  if ok then .ok () else .error (.program .authorityDrift message)

/-- The checks of the frozen authority against the control plane as it answers now. -/
def checkAuthorityFreeze (X : ProgramExternal) (program : Program) (nodes : List ChildProgramNode)
    (context : ProgramControlContext) : Except ProgramFailure Unit := do
  let freeze := program.authorityFreeze
  drifted "Policy bundle hash drifted since program admission"
    (context.policyHash = freeze.policyBundleHash)
  drifted "Capability set fingerprint drifted since program admission"
    (capabilitySetFingerprint X.toExternal context.availableCapabilities =
      freeze.capabilitySetFingerprint)
  drifted "Project configuration fingerprint drifted since program admission"
    (projectConfigurationFingerprint X program.projectId context.activePolicyBundleId
      context.resourceBudgetProfileId context.allowedEnvironments context.executionMode.text =
      freeze.projectConfigurationFingerprint)
  (program.requestedEnvironment :: nodes.map (·.requestedEnvironment)).eraseDups.forM fun env =>
    drifted s!"Environment {env} no longer authorized for project"
      (context.allowedEnvironments.contains env)
  drifted "Budget configuration fingerprint drifted since program admission"
    (budgetConfigurationFingerprint X context.budgetProfileId
      program.delegationEnvelope.maximumProgramBudget = freeze.budgetConfigurationFingerprint)
  drifted "Budget profile drifted since program admission"
    (context.budgetProfileId = freeze.budgetProfileId)

/-- The checks of the approved repositories against those authorized now. -/
def checkRepositories (X : ProgramExternal) (program : Program) (approvedRepos current : List String) :
    Except ProgramFailure Unit := do
  approvedRepos.forM fun id =>
    drifted s!"Repository {id} no longer authorized; stale approval cannot preserve revoked scope"
      (current.contains id)
  drifted "Repository allowlist fingerprint drifted on program record"
    (repositoryAllowlistFingerprint X program.delegationEnvelope.allowedRepositoryIdentities =
      program.authorityFreeze.repositoryAllowlistFingerprint)

/-- `recheckAuthorityFreeze`, with the nodes of the plan in hand, if any. -/
def recheckAuthorityFreeze (X : ProgramExternal) (deps : ProgramDeps) (program : Program)
    (nodes : List ChildProgramNode) : Call Unit := do
  let context ← call (.resolve program.projectId program.requestedEnvironment)
  Async.ofExcept (checkAuthorityFreeze X program nodes context)
  let approvedRepos := (program.delegationEnvelope.allowedRepositoryIdentities ++
    nodes.flatMap (·.requestedRepositoryIdentities)).eraseDups
  if approvedRepos = [] then pure ()
  else if !deps.authorizedRepositoryIdentities then
    throw (.program .authorityDrift "Repository authority recheck not configured")
  else
    let current ← call (.authorizedRepositoryIdentities program.projectId)
    Async.ofExcept (checkRepositories X program approvedRepos current)

/-! ## Admission -/

/-- A `ProgramAdmissionRequest`. -/
structure ProgramAdmissionRequest where
  programId : Option String
  programVersion : Option ℕ
  projectId : String
  requesterId : String
  requestedEnvironment : String
  rootIntent : ProgramRootIntent
  delegationEnvelope : DelegationEnvelope
  submittedAt : ℕ
  correlationId : Option String
  traceId : Option String
  deriving DecidableEq

/-- A `ProgramAdmissionOutcome`. -/
inductive ProgramAdmissionOutcome where
  | admitted (program : Program)
  | duplicate (program : Program)
  | versionConflict (existing : Program) (message : String)
  deriving DecidableEq

/-- The program that a request is admitted as. -/
def newProgram (X : ProgramExternal) (request : ProgramAdmissionRequest)
    (context : ProgramControlContext) (programId : String) (programVersion : ℕ)
    (idempotencyKey contentFingerprint : String) : Program :=
  let envelope := request.delegationEnvelope
  { programId := programId
    programVersion := programVersion
    projectId := request.projectId
    requesterId := request.requesterId
    requestedEnvironment := request.requestedEnvironment
    rootIntent := request.rootIntent
    status := .admitted
    delegationEnvelope := envelope
    authorityFreeze := {
      policyBundleId := context.policyBundleId
      policyBundleHash := context.policyHash
      capabilitySetFingerprint :=
        capabilitySetFingerprint X.toExternal context.availableCapabilities
      projectConfigurationFingerprint := projectConfigurationFingerprint X request.projectId
        context.activePolicyBundleId context.resourceBudgetProfileId context.allowedEnvironments
        context.executionMode.text
      budgetProfileId := context.budgetProfileId
      budgetConfigurationFingerprint := budgetConfigurationFingerprint X context.budgetProfileId
        envelope.maximumProgramBudget
      repositoryAllowlistFingerprint :=
        repositoryAllowlistFingerprint X envelope.allowedRepositoryIdentities
      delegationEnvelopeHash := delegationEnvelopeHash X envelope
      frozenAt := request.submittedAt }
    programPlanVersion := none
    programPlanHash := none
    decompositionRevisionCount := 0
    maximumDecompositionRevisions := 2
    paused := false
    failureReasonCode := none
    createdAt := request.submittedAt
    updatedAt := request.submittedAt
    recordRevision := 1
    correlationId := request.correlationId.getD s!"corr_{programId}"
    traceId := request.traceId.getD s!"trace_{programId}"
    idempotencyKey := idempotencyKey
    contentFingerprint := contentFingerprint }

/-- `admit`, for a program that is not stored yet. -/
def admitNew (program : Program) : Call ProgramAdmissionOutcome := do
  let program ← Async.ofExcept (parseProgram program)
  let created ← call (.createProgram program)
  let _ ← call (.budget (.createLedger {
    ownerId := created.programId
    ownerVersion := created.programVersion
    ceiling := program.delegationEnvelope.maximumProgramBudget
    reserved := emptyBudgetEstimate
    settled := emptyBudgetEstimate
    released := emptyBudgetEstimate
    recordRevision := 1
    updatedAt := program.createdAt }))
  pure (.admitted created)

/-- The id of a request, or a new one. -/
def programIdOf (request : ProgramAdmissionRequest) : Call String :=
  match request.programId with
  | some id => pure id
  | none => do
    let uuid ← call .randomUUID
    pure ("prog_" ++ uuid)

/-- `ProgramOrchestrationService.admit`. -/
def admitProgram (X : ProgramExternal) (request : ProgramAdmissionRequest) :
    Call ProgramAdmissionOutcome := do
  let envelope ← Async.ofExcept (parseDelegationEnvelope request.delegationEnvelope)
  if !envelope.allowedProjectIds.contains request.projectId then
    throw (.program .projectOutsideEnvelope
      "Program projectId must be listed in delegation envelope")
  else
    let context ← call (.resolve request.projectId request.requestedEnvironment)
    let programId ← programIdOf request
    let programVersion := request.programVersion.getD INITIAL_PROGRAM_VERSION
    let idempotencyKey := programIdempotencyKey X request.projectId programId programVersion
      request.requestedEnvironment
    let contentFingerprint := programContentFingerprint X request.rootIntent request.requesterId
      (delegationEnvelopeHash X envelope)
    let existing ← call (.getProgramByKey idempotencyKey)
    match (existing : Option Program) with
    | some existing =>
      if existing.contentFingerprint ≠ contentFingerprint then
        pure (.versionConflict existing "Same program identity with different semantic content")
      else pure (.duplicate existing)
    | none =>
      let program :=
        newProgram X request context programId programVersion idempotencyKey contentFingerprint
      admitNew program

/-! ## Decomposition -/

/-- What `decompose` returns. -/
structure DecomposeResult where
  program : Program
  plan : Option ProgramPlan
  findings : List ProgramValidationFinding
  deriving DecidableEq

/-- A plan with findings is not saved: the program is blocked, or may be decomposed again. -/
def rejectPlan (current : Program) (now : ℕ) (findings : List ProgramValidationFinding) :
    Call DecomposeResult :=
  let revisionAttempt := current.decompositionRevisionCount
  if current.maximumDecompositionRevisions ≤ revisionAttempt then do
    let blocked ← call (.transitionProgram current.programId current.status current.recordRevision
      .blocked now {
        decompositionRevisionCount := some (revisionAttempt + 1)
        failureReasonCode := some "PROGRAM_PLAN_INVALID" })
    pure ⟨blocked, none, findings⟩
  else do
    let retrying ← call (.saveProgram
      { current with decompositionRevisionCount := revisionAttempt + 1, updatedAt := now }
      current.recordRevision)
    pure ⟨retrying, none, findings⟩

/-- `decompose`, from `DECOMPOSING`. -/
def decomposeFrom (X : ProgramExternal) (current : Program) : Call DecomposeResult := do
  let revisionAttempt := current.decompositionRevisionCount
  if current.maximumDecompositionRevisions < revisionAttempt then
    let blocked ← transition current .blocked
      { failureReasonCode := some "DECOMPOSITION_BUDGET_EXCEEDED" }
    pure ⟨blocked, none, []⟩
  else
    let proposal ← call (.proposeDecomposition current revisionAttempt)
    let now ← call .nowIso
    let planVersion := current.programPlanVersion.getD (INITIAL_PROGRAM_PLAN_VERSION - 1) + 1
    let compiled := compileProgramPlan X current proposal
      (max planVersion INITIAL_PROGRAM_PLAN_VERSION) revisionAttempt now
    let findings := validateProgramPlan X current compiled
    if findings ≠ [] then rejectPlan current now findings
    else
      let savedPlan ← call (.savePlan compiled)
      let decomposed ← call (.transitionProgram current.programId current.status
        current.recordRevision .decomposed now {
          plan := some (savedPlan.programPlanVersion, savedPlan.programPlanHash)
          decompositionRevisionCount := some (revisionAttempt + 1) })
      pure ⟨decomposed, some savedPlan, []⟩

def decompose (X : ProgramExternal) (programId : String) : Call DecomposeResult := do
  let program ← requireProgram programId
  if program.paused then throw (.program .programPaused "Program is paused")
  else if program.status = .admitted ∨ program.status = .validating then
    let current ← transition program .decomposing {}
    decomposeFrom X current
  else if program.status ≠ .decomposing then
    throw (.program .invalidProgramTransition ("Cannot decompose from " ++ program.status.text))
  else decomposeFrom X program

/-- A decomposed program is moved to `VALIDATING`. -/
def beginValidating (program : Program) : Call Program :=
  if program.status = .decomposed then transition program .validating {} else pure program

/-- `validate`; the flag says whether the plan was found valid. -/
def validate (X : ProgramExternal) (deps : ProgramDeps) (programId : String) :
    Call (Program × Bool) := do
  let found ← requireProgram programId
  let program ← beginValidating found
  let plan ← requireLatestPlan X program
  if validateProgramPlan X program plan ≠ [] then
    let blocked ← transition program .blocked { failureReasonCode := some "PROGRAM_PLAN_INVALID" }
    pure (blocked, false)
  else
    recheckAuthorityFreeze X deps program []
    let awaiting ← transition program .awaitingMaterializationApproval {}
    pure (awaiting, true)

/-! ## The materialization approval -/

def budgetAllocationFingerprint (X : ProgramExternal)
    (allocations : List (String × BudgetResourceEstimate)) : String :=
  let sorted := allocations.insertionSort fun a b => X.localeLe a.1 b.1
  X.hash (.array (sorted.map fun a =>
    .object [("nodeId", .string a.1), ("amount", a.2.json)]))

/-- The id of the approval of a plan. -/
def approvalIdFor (programId : String) (programPlanVersion : ℕ) : String :=
  s!"pma_{programId}_{programPlanVersion}"

/-- The approval that a person is asked for. -/
def newApproval (X : ProgramExternal) (program : Program) (plan : ProgramPlan) (now : ℕ)
    (decisionNonceHash : String) : ProgramMaterializationApproval :=
  let allocations := plan.nodes.map fun n => (n.nodeId, n.requestedBudget)
  let expiresAt := now + 24 * 60 * 60 * 1000
  let subjectHash := X.hash (.object [
    ("budgetAllocationFingerprint", .string (budgetAllocationFingerprint X allocations)),
    ("capabilitySetFingerprint", .string program.authorityFreeze.capabilitySetFingerprint),
    ("delegationEnvelopeHash", .string program.authorityFreeze.delegationEnvelopeHash),
    ("environmentScope", .string program.requestedEnvironment),
    ("expiresAt", .number expiresAt),
    ("policyBundleHash", .string program.authorityFreeze.policyBundleHash),
    ("programId", .string program.programId),
    ("programPlanHash", .string plan.programPlanHash),
    ("programPlanVersion", .number plan.programPlanVersion),
    ("programVersion", .number program.programVersion),
    ("repositoryAllowlistFingerprint",
      .string program.authorityFreeze.repositoryAllowlistFingerprint)])
  { approvalId := approvalIdFor program.programId plan.programPlanVersion
    programId := program.programId
    programVersion := program.programVersion
    programPlanVersion := plan.programPlanVersion
    programPlanHash := plan.programPlanHash
    delegationEnvelopeHash := program.authorityFreeze.delegationEnvelopeHash
    policyBundleHash := program.authorityFreeze.policyBundleHash
    capabilitySetFingerprint := program.authorityFreeze.capabilitySetFingerprint
    budgetAllocationFingerprint := budgetAllocationFingerprint X allocations
    subjectHash := subjectHash
    decisionNonceHash := decisionNonceHash
    status := .pending
    approverId := none
    decidedAt := none
    expiresAt := expiresAt
    createdAt := now
    recordRevision := 1 }

/-- An approval with the nonce that decides it. -/
abbrev RoutedApproval := ProgramMaterializationApproval × String

/-- A fresh approval, and its nonce put away for delivery. -/
def issueApproval (X : ProgramExternal) (deps : ProgramDeps) (program : Program)
    (plan : ProgramPlan) : Call RoutedApproval := do
  let now ← call .nowIso
  let plaintext ← call .generateNonce
  let saved ← call (.saveApproval (newApproval X program plan now (X.sha256 plaintext)))
  if deps.materializationNonceStore then
    call (.putNonce saved.approvalId plaintext)
    pure (saved, plaintext)
  else pure (saved, plaintext)

/-- The pending approval, if its nonce is still in the store. -/
def pendingWithNonce (deps : ProgramDeps) (existing : Option ProgramMaterializationApproval) :
    Call (Option RoutedApproval) :=
  match existing with
  | none => pure none
  | some existing =>
    if !deps.materializationNonceStore then pure none
    else do
      let stored ← call (.takeNonce existing.approvalId)
      match (stored : Option String).filter (· ≠ "") with
      | none => pure none
      | some stored =>
        call (.putNonce existing.approvalId stored)
        pure (some (existing, stored))

def routeMaterializationApproval (X : ProgramExternal) (deps : ProgramDeps) (programId : String) :
    Call RoutedApproval := do
  let program ← requireProgram programId
  if program.status ≠ .awaitingMaterializationApproval then
    throw (.program .invalidProgramTransition
      "Materialization routing requires AWAITING_MATERIALIZATION_APPROVAL")
  else
    let plan ← requireLatestPlan X program
    let existing ← call (.getPendingApproval programId)
    let routed ← pendingWithNonce deps existing
    match routed with
    | some routed => pure routed
    | none => issueApproval X deps program plan

inductive MaterializationDecision where
  | approve
  | reject
  deriving DecidableEq, Repr

/-- What `decideMaterialization` is given. -/
structure DecideInput where
  approvalId : String
  approverId : String
  decision : MaterializationDecision
  decisionNonce : String
  submittedAt : ℕ
  deriving DecidableEq, Repr

/-- The approval with the decision on it. -/
def decidedApproval (approval : ProgramMaterializationApproval) (input : DecideInput) :
    ProgramMaterializationApproval :=
  { approval with
    status := if input.decision = .approve then .approved else .rejected
    approverId := some input.approverId
    decidedAt := some input.submittedAt
    recordRevision := approval.recordRevision + 1 }

/-- The approval once its time is over. -/
def expiredApproval (approval : ProgramMaterializationApproval) : ProgramMaterializationApproval :=
  { approval with status := .expired, recordRevision := approval.recordRevision + 1 }

/-- `decideMaterialization`, on an approval that is pending and in time. -/
def decidePending (X : ProgramExternal) (deps : ProgramDeps) (input : DecideInput)
    (approval : ProgramMaterializationApproval) : Call ProgramMaterializationApproval := do
  if X.sha256 input.decisionNonce ≠ approval.decisionNonceHash then
    throw (.program .materializationApprovalInvalid "Decision nonce mismatch")
  else
    let program ← requireProgram approval.programId
    if !deps.isProgramMaterializer then
      throw (.program .materializationApprovalInvalid
        "PROGRAM_MATERIALIZER authority check not configured")
    else
      let allowed ← call (.isProgramMaterializer input.approverId program.projectId)
      if !allowed then
        throw (.program .materializationApprovalInvalid
          "Principal lacks PROGRAM_MATERIALIZER authority")
      else
        recheckAuthorityFreeze X deps program []
        let decided ← call (.saveApproval (decidedApproval approval input))
        if input.decision = .approve ∧ program.status = .awaitingMaterializationApproval then
          let _ ← transition program .materializing {}
          pure decided
        else pure decided

def decideMaterialization (X : ProgramExternal) (deps : ProgramDeps) (input : DecideInput) :
    Call ProgramMaterializationApproval := do
  let found ← call (.getApproval input.approvalId)
  match (found : Option ProgramMaterializationApproval).filter (·.status = .pending) with
  | none =>
    throw (.program .materializationApprovalInvalid "No pending materialization approval")
  | some approval =>
    if approval.expiresAt < input.submittedAt then
      let _ ← call (.saveApproval (expiredApproval approval))
      throw (.program .materializationApprovalExpired "Materialization approval expired")
    else decidePending X deps input approval

/-! ## Materialization -/

/-- The approval of the program's latest plan, if it is approved. -/
def findApprovedMaterialization (program : Program) :
    Call (Option ProgramMaterializationApproval) := do
  let plan ← call (.getLatestPlan program.programId)
  match (plan : Option ProgramPlan) with
  | none => pure none
  | some plan =>
    let approval ← call (.getApproval (approvalIdFor program.programId plan.programPlanVersion))
    pure ((approval : Option ProgramMaterializationApproval).filter (·.status = .approved))

def reservationIdFor (X : ProgramExternal) (programId : String) (programPlanVersion : ℕ)
    (nodeId : String) : String :=
  "pbr_" ++ X.digest 32 (Json.object [
    ("nodeId", .string nodeId),
    ("planVersion", .number programPlanVersion),
    ("programId", .string programId)]).stringify

def childObjectiveId (X : ProgramExternal) (programId : String) (programPlanVersion : ℕ)
    (nodeId : String) : String :=
  "obj_prog_" ++ X.digest 28 (Json.object [
    ("nodeId", .string nodeId),
    ("planVersion", .number programPlanVersion),
    ("programId", .string programId)]).stringify

def reserveNodeBudget (X : ProgramExternal) (program : Program) (plan : ProgramPlan)
    (nodeId : String) (amount : BudgetResourceEstimate) : Call Unit :=
  @reserveBudget ProgramOp ProgramOp.Res .program (fun o => call (.budget o)) (call .nowIso)
    (reservationIdFor X program.programId plan.programPlanVersion nodeId) program.programId
    plan.programPlanVersion nodeId amount

/-- The objective that a node's child is admitted as. -/
def childRequest (X : ProgramExternal) (program : Program) (plan : ProgramPlan)
    (node : ChildProgramNode) (now : ℕ) : ChildObjectiveRequest where
  projectId := node.requestedProjectId
  objectiveId := childObjectiveId X program.programId plan.programPlanVersion node.nodeId
  objectiveVersion := plan.programPlanVersion
  requestedOutcome := node.requestedOutcome
  acceptanceCriteria := node.acceptanceCriteria
  nonGoals := node.nonGoals
  constraints := node.constraints
  priority := node.priority
  requesterId := program.requesterId
  requestedEnvironment := node.requestedEnvironment
  submittedAt := now

end ProgramService

/-- The status of a child after the answer to its request. -/
def ChildAdmission.status : ChildAdmission → MaterializationStatus
  | .admitted _ => .admitted
  | .activeDuplicate _ | .completedDuplicate _ => .duplicate
  | .rejected _ | .conflict _ => .failed

/-- The run of a child that was admitted. -/
def ChildAdmission.runId : ChildAdmission → Option String
  | .admitted runId | .activeDuplicate runId | .completedDuplicate runId => some runId
  | .rejected _ | .conflict _ => none

/-- The reason why a child was not admitted. -/
def ChildAdmission.failureReasonCode : ChildAdmission → Option String
  | .rejected reasonCode | .conflict reasonCode => some reasonCode
  | _ => none

namespace ProgramService

/-- The lineage record of a node whose request was answered. -/
def newLineage (X : ProgramExternal) (program : Program) (plan : ProgramPlan)
    (node : ChildProgramNode) (existing : Option ProgramLineageRecord) (result : ChildAdmission)
    (now : ℕ) : ProgramLineageRecord where
  lineageId := lineageIdFor program.programId plan.programPlanVersion node.nodeId
  programId := program.programId
  programVersion := program.programVersion
  programPlanVersion := plan.programPlanVersion
  programPlanHash := plan.programPlanHash
  nodeId := node.nodeId
  childObjectiveId := childObjectiveId X program.programId plan.programPlanVersion node.nodeId
  childObjectiveVersion := plan.programPlanVersion
  childRunId := result.runId
  materializationStatus := result.status
  failureReasonCode := result.failureReasonCode
  createdAt := (existing.map (·.createdAt)).getD now
  updatedAt := now
  recordRevision := (existing.map (·.recordRevision)).getD 0 + 1

/-- One turn of the loop over the nodes: the child is admitted unless it was before. -/
def materializeNode (X : ProgramExternal) (program : Program) (plan : ProgramPlan)
    (node : ChildProgramNode) : Call ProgramLineageRecord := do
  let found ← call (.getLineage (lineageIdFor program.programId plan.programPlanVersion
    node.nodeId))
  match (found : Option ProgramLineageRecord).filter (·.materializationStatus.isDone) with
  | some existing => pure existing
  | none =>
    reserveNodeBudget X program plan node.nodeId node.requestedBudget
    let now ← call .nowIso
    let result ← call (.admitObjective (childRequest X program plan node now))
    call (.saveLineage (newLineage X program plan node found result now))

/-- The loop over the nodes. -/
def materializeNodes (X : ProgramExternal) (program : Program) (plan : ProgramPlan) :
    List ChildProgramNode → Call (List ProgramLineageRecord)
  | [] => pure []
  | node :: nodes => do
    let record ← materializeNode X program plan node
    let records ← materializeNodes X program plan nodes
    pure (record :: records)

/-- One turn of the loop over the edges: an error of the scheduler is passed over. -/
def compileDependency (program : Program) (runByNode : JsMap String String)
    (edge : ProgramPlanEdge) : Call Unit :=
  match (runByNode.get edge.fromNodeId).filter (· ≠ ""),
      (runByNode.get edge.toNodeId).filter (· ≠ "") with
  | some prerequisiteRunId, some dependentRunId =>
    tryCatch (do
      let _ ← call (.registerDependency {
        projectId := program.projectId
        dependentRunId := dependentRunId
        prerequisiteRunId := prerequisiteRunId
        requiredMilestone := edge.requiredMilestone })
      pure ()) fun _ => pure ()
  | _, _ => pure ()

/-- The runs of the children, by node. -/
def runsByNode (lineage : List ProgramLineageRecord) : JsMap String String :=
  .ofList (lineage.filterMap fun l =>
    (l.childRunId.filter (· ≠ "")).map fun runId => (l.nodeId, runId))

def compileDependencies (deps : ProgramDeps) (program : Program) (plan : ProgramPlan)
    (lineage : List ProgramLineageRecord) : Call Unit :=
  if !deps.scheduler then pure ()
  else Async.forEach (compileDependency program (runsByNode lineage)) plan.edges

/-- What `materializeNext` returns. -/
abbrev MaterializeResult := Program × List ProgramLineageRecord

/-- `materializeNext`, once the plan is approved. -/
def materializePlan (X : ProgramExternal) (deps : ProgramDeps) (programId : String)
    (program : Program) (plan : ProgramPlan) : Call MaterializeResult := do
  recheckAuthorityFreeze X deps program plan.nodes
  if !deps.objectiveAdmission then
    throw (.program .childAdmissionFailed "Objective admission service not configured")
  else
    let materialized ← materializeNodes X program plan plan.nodes
    compileDependencies deps program plan materialized
    let allDone := materialized.all (·.materializationStatus.isDone)
    let live ← requireProgram programId
    if allDone ∧ live.status = .materializing then
      let active ← transition live .active {}
      pure (active, materialized)
    else pure (live, materialized)

def materializeNext (X : ProgramExternal) (deps : ProgramDeps) (programId : String) :
    Call MaterializeResult := do
  let program ← requireProgram programId
  if program.paused then throw (.program .programPaused "Program is paused")
  else if program.status = .awaitingMaterializationApproval then
    throw (.program .materializationApprovalRequired "Human materialization approval required")
  else if program.status ≠ .materializing ∧ program.status ≠ .active then
    throw (.program .invalidProgramTransition ("Cannot materialize from " ++ program.status.text))
  else
    let _ ← call (.getPendingApproval programId)
    let approved ← findApprovedMaterialization program
    match (approved : Option ProgramMaterializationApproval) with
    | none =>
      throw (.program .materializationApprovalRequired
        "No approved materialization for current plan")
    | some approved =>
      let plan ← requireLatestPlan X program
      if plan.programPlanHash ≠ approved.programPlanHash ∨
          plan.programPlanVersion ≠ approved.programPlanVersion then
        throw (.program .materializationApprovalInvalid
          "Approval does not bind current program plan")
      else materializePlan X deps programId program plan

/-! ## Verification -/

/-- The run of a child. -/
def gatherRun (deps : ProgramDeps) (evidence : ProgramEvidence) (runId : String) :
    Call ProgramEvidence :=
  if !deps.runs then pure evidence
  else do
    let run ← call (.getRun runId)
    pure { evidence with runsById := evidence.runsById.set runId run }

/-- The completion record of a child's run, and the verification it points to. -/
def gatherCompletion (deps : ProgramDeps) (evidence : ProgramEvidence) (runId : String) :
    Call ProgramEvidence :=
  if !deps.runCompletions then pure evidence
  else do
    let completion ← call (.getRunCompletion runId)
    let evidence :=
      { evidence with completionsByRunId := evidence.completionsByRunId.set runId completion }
    match (completion : Option RunCompletionRecord) with
    | none => pure evidence
    | some completion =>
      if !deps.outcomeVerifications then pure evidence
      else
        let outcome ← call (.getOutcome completion.outcomeVerificationId)
        pure { evidence with
          outcomesById := evidence.outcomesById.set completion.outcomeVerificationId outcome }

/-- One turn of the loop that reads the records of a child. -/
def gatherChild (deps : ProgramDeps) (evidence : ProgramEvidence) (link : ProgramLineageRecord) :
    Call ProgramEvidence :=
  match link.childRunId.filter (· ≠ "") with
  | none => pure evidence
  | some runId => do
    let evidence ← gatherRun deps evidence runId
    gatherCompletion deps evidence runId

/-- The records of the children. -/
def gatherEvidence (deps : ProgramDeps) :
    ProgramEvidence → List ProgramLineageRecord → Call ProgramEvidence
  | evidence, [] => pure evidence
  | evidence, link :: links => do
    let evidence ← gatherChild deps evidence link
    gatherEvidence deps evidence links

/-- The proofs of the root criteria from the `i`-th on, up to the first that fails. -/
def proveCriteria (program : Program) (plan : ProgramPlan) (evidence : ProgramEvidence) :
    List ℕ → Except (UnprovenOutcome × String) (List ProgramCriterionResult)
  | [] => .ok []
  | i :: is =>
    match proveRootCriterion program plan i evidence with
    | .unsatisfied outcome reasonCode _ => .error (outcome, reasonCode)
    | .satisfied evidenceRefs => do
      let results ← proveCriteria program plan evidence is
      .ok (⟨i, evidenceRefs⟩ :: results)

/-- The outcomes that `verify` returns. -/
inductive ProgramOutcome where
  | verifiedSuccess
  | programFailed
  | inconclusive
  deriving DecidableEq, Repr

/-- What `verify` returns. -/
structure VerifyResult where
  program : Program
  outcome : ProgramOutcome
  completion : Option ProgramCompletionRecord
  deriving DecidableEq

/-- The completion record of a program whose criteria are proven. -/
def newCompletion (program : Program) (plan : ProgramPlan) (results : List ProgramCriterionResult)
    (now : ℕ) : ProgramCompletionRecord where
  programCompletionRecordId := s!"pcr_{program.programId}"
  programId := program.programId
  programVersion := program.programVersion
  programPlanVersion := plan.programPlanVersion
  programPlanHash := plan.programPlanHash
  criterionResults := results
  createdAt := now

/-- The program, if it is completed and its record is stored. -/
def completedAlready (programId : String) : Call (Option Program) := do
  let raced ← call (.getCompletion programId)
  match (raced : Option ProgramCompletionRecord) with
  | none => pure none
  | some _ =>
    let live ← requireProgram programId
    pure (if live.status = .completed then some live else none)

/-- The completion record is saved and the program completed, unless it is already. -/
def commitCompletion (programId : String) (completion : ProgramCompletionRecord) :
    Call Program := do
  let done ← completedAlready programId
  match done with
  | some live => pure live
  | none =>
    let _ ← call (.saveCompletion completion)
    let live ← requireProgram programId
    if live.status = .completed then pure live
    else transition live .completed {}

/-- A criterion that is not proven escalates the program. -/
def escalate (program : Program) (failure : UnprovenOutcome × String) : Call VerifyResult := do
  let escalated ← transition program .escalated { failureReasonCode := some failure.2 }
  let outcome := if failure.1 = .programFailed then ProgramOutcome.programFailed else .inconclusive
  pure ⟨escalated, outcome, none⟩

/-- `verify`, once the program is being verified. -/
def verifyLive (X : ProgramExternal) (deps : ProgramDeps) (programId : String)
    (program : Program) : Call VerifyResult := do
  let plan ← requireLatestPlan X program
  let lineage ← call (.listLineageByPlan program.programId plan.programPlanVersion)
  let evidence ← gatherEvidence deps ⟨lineage, .empty, .empty, .empty⟩ lineage
  let indices := List.range program.rootIntent.acceptanceCriteria.length
  match proveCriteria program plan evidence indices with
  | .error failure => escalate program failure
  | .ok results =>
    let now ← call .nowIso
    let completion := newCompletion program plan results now
    let completed ← commitCompletion programId completion
    let saved ← call (.getCompletion programId)
    pure ⟨completed, .verifiedSuccess,
      some ((saved : Option ProgramCompletionRecord).getD completion)⟩

/-- The completion record of a program that is completed. -/
def completionOf (programId : String) (live : Program) : Call (Option ProgramCompletionRecord) :=
  if live.status = .completed then call (.getCompletion programId) else pure none

/-- The program is moved to `VERIFYING`, or found there, or found completed. -/
def beginVerifying (programId : String) (program : Program) : Call (Except VerifyResult Program) :=
  tryCatch (do
    let moved ← transition program .verifying {}
    pure (.ok moved)) fun _ => do
    let live ← requireProgram programId
    let done ← completionOf programId live
    match done with
    | some done => pure (.error ⟨live, .verifiedSuccess, some done⟩)
    | none =>
      if live.status ≠ .verifying then
        throw (.program .invalidProgramTransition ("Cannot verify from " ++ live.status.text))
      else pure (.ok live)

def verify (X : ProgramExternal) (deps : ProgramDeps) (programId : String) : Call VerifyResult := do
  let program ← requireProgram programId
  let existingCompletion ← call (.getCompletion programId)
  match (existingCompletion : Option ProgramCompletionRecord), program.status with
  | some completion, .completed => pure ⟨program, .verifiedSuccess, some completion⟩
  | _, .active =>
    let begun ← beginVerifying programId program
    match begun with
    | .error result => pure result
    | .ok program => verifyLive X deps programId program
  | _, _ => verifyLive X deps programId program

/-! ## Pausing -/

def pause (programId : String) : Call Program := do
  let program ← requireProgram programId
  let now ← call .nowIso
  if program.status = .active then
    call (.transitionProgram program.programId .active program.recordRevision .paused now
      { paused := some true })
  else
    call (.saveProgram { program with paused := true, updatedAt := now } program.recordRevision)

def resume (programId : String) : Call Program := do
  let program ← requireProgram programId
  let now ← call .nowIso
  if program.status = .paused then
    call (.transitionProgram program.programId .paused program.recordRevision .active now
      { paused := some false })
  else
    call (.saveProgram { program with paused := false, updatedAt := now } program.recordRevision)

end ProgramService

end Orchestrator
