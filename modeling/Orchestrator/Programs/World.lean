import Orchestrator.Programs.BudgetLedger
import Orchestrator.Programs.Plan

/-!
# The program stores

What a program leaves behind while it runs: plans, approvals, the lineage of its children and its
completion, beside the services that program orchestration calls.

* `ProgramLineageRecord`, `ProgramMaterializationApproval`, `ProgramCompletionRecord`: the records;
* `ProgramStore`, `ProgramPlanStore`: programs, saved over the revision that was read, and plans, saved
  once;
* `CrossRunDependency`, `DependencyStore.registerDependency`: the scheduler's dependencies;
* `ProgramOp`, `ProgramWorld`, `orchestration`: the calls, and what each does.
-/

namespace Orchestrator

open Atomic Collections

/-! ## Text -/

/-- The longest prefix of at most `n` UTF-16 code units. -/
def sliceUnits : ℕ → List Char → List Char
  | _, [] => []
  | n, c :: t =>
    let units := if c.toNat < 0x10000 then 1 else 2
    if units ≤ n then c :: sliceUnits (n - units) t else []

/-- `s.slice(0, n)`. -/
def jsSlice (n : ℕ) (s : String) : String := String.ofList (sliceUnits n s.toList)

/-! ## Lineage -/

inductive MaterializationStatus where
  | pending
  | admitted
  | duplicate
  | failed
  deriving DecidableEq, Repr

/-- The child exists: `ADMITTED` or `DUPLICATE`. -/
def MaterializationStatus.isDone : MaterializationStatus → Bool
  | admitted | duplicate => true
  | _ => false

/-- A `ProgramLineageRecord`. -/
structure ProgramLineageRecord where
  lineageId : String
  programId : String
  programVersion : ℕ
  programPlanVersion : ℕ
  programPlanHash : String
  nodeId : String
  childObjectiveId : String
  childObjectiveVersion : ℕ
  childRunId : Option String
  materializationStatus : MaterializationStatus
  failureReasonCode : Option String
  createdAt : ℕ
  updatedAt : ℕ
  recordRevision : ℕ
  deriving DecidableEq, Repr

/-- The paths at which `ProgramLineageRecordSchema` rejects a record. -/
def ProgramLineageRecord.issues (l : ProgramLineageRecord) : List String :=
  minOne "lineageId" l.lineageId ++ minOne "programId" l.programId ++
  positive "programVersion" l.programVersion ++
  positive "programPlanVersion" l.programPlanVersion ++
  minOne "programPlanHash" l.programPlanHash ++ minOne "nodeId" l.nodeId ++
  minOne "childObjectiveId" l.childObjectiveId ++
  positive "childObjectiveVersion" l.childObjectiveVersion ++
  minOneOption "childRunId" l.childRunId ++
  minOneOption "failureReasonCode" l.failureReasonCode ++
  positive "recordRevision" l.recordRevision

def lineageIdFor (programId : String) (programPlanVersion : ℕ) (nodeId : String) : String :=
  jsSlice 120 s!"pln_{programId}_{programPlanVersion}_{nodeId}"

/-! ## Approvals -/

inductive MaterializationApprovalStatus where
  | pending
  | approved
  | rejected
  | expired
  deriving DecidableEq, Repr

/-- A `ProgramMaterializationApproval`. -/
structure ProgramMaterializationApproval where
  approvalId : String
  programId : String
  programVersion : ℕ
  programPlanVersion : ℕ
  programPlanHash : String
  delegationEnvelopeHash : String
  policyBundleHash : String
  capabilitySetFingerprint : String
  budgetAllocationFingerprint : String
  subjectHash : String
  decisionNonceHash : String
  status : MaterializationApprovalStatus
  approverId : Option String
  decidedAt : Option ℕ
  expiresAt : ℕ
  createdAt : ℕ
  recordRevision : ℕ
  deriving DecidableEq, Repr

/-- The paths at which `ProgramMaterializationApprovalSchema` rejects an approval. -/
def ProgramMaterializationApproval.issues (a : ProgramMaterializationApproval) : List String :=
  minOne "approvalId" a.approvalId ++ minOne "programId" a.programId ++
  positive "programVersion" a.programVersion ++
  positive "programPlanVersion" a.programPlanVersion ++
  minOne "programPlanHash" a.programPlanHash ++
  minOne "delegationEnvelopeHash" a.delegationEnvelopeHash ++
  minOne "policyBundleHash" a.policyBundleHash ++
  minOne "capabilitySetFingerprint" a.capabilitySetFingerprint ++
  minOne "budgetAllocationFingerprint" a.budgetAllocationFingerprint ++
  minOne "subjectHash" a.subjectHash ++ minOne "decisionNonceHash" a.decisionNonceHash ++
  minOneOption "approverId" a.approverId ++ positive "recordRevision" a.recordRevision

/-! ## Completion -/

/-- A proven root criterion, in a completion record. -/
structure ProgramCriterionResult where
  rootCriterionIndex : ℕ
  evidenceRefs : List String
  deriving DecidableEq, Repr

/-- A `ProgramCompletionRecord`; its outcome is always `VERIFIED_SUCCESS`. -/
structure ProgramCompletionRecord where
  programCompletionRecordId : String
  programId : String
  programVersion : ℕ
  programPlanVersion : ℕ
  programPlanHash : String
  criterionResults : List ProgramCriterionResult
  createdAt : ℕ
  deriving DecidableEq, Repr

/-- The paths at which `ProgramCompletionRecordSchema` rejects a record. -/
def ProgramCompletionRecord.issues (c : ProgramCompletionRecord) : List String :=
  minOne "programCompletionRecordId" c.programCompletionRecordId ++
  minOne "programId" c.programId ++ positive "programVersion" c.programVersion ++
  positive "programPlanVersion" c.programPlanVersion ++
  minOne "programPlanHash" c.programPlanHash ++
  c.criterionResults.flatMap fun r => someTextItems "criterionResults.evidenceRefs" r.evidenceRefs

/-! ## Programs and plans -/

/-- The programs, by id and by idempotency key. -/
structure ProgramStore where
  byId : Repository Program.programId
  byIdem : JsMap String String

/-- What a transition sets beside the status. -/
structure ProgramExtras where
  plan : Option (ℕ × String) := none
  decompositionRevisionCount : Option ℕ := none
  failureReasonCode : Option String := none
  paused : Option Bool := none
  deriving DecidableEq, Repr

/-- `{ ...program, ...extras }`. -/
def ProgramExtras.onto (extras : ProgramExtras) (p : Program) : Program :=
  { p with
    programPlanVersion := (extras.plan.map Prod.fst).or p.programPlanVersion
    programPlanHash := (extras.plan.map Prod.snd).or p.programPlanHash
    decompositionRevisionCount :=
      extras.decompositionRevisionCount.getD p.decompositionRevisionCount
    failureReasonCode := extras.failureReasonCode.or p.failureReasonCode
    paused := extras.paused.getD p.paused }

namespace ProgramStore

def empty : ProgramStore := ⟨.empty, .empty⟩

def getByIdempotencyKey (s : ProgramStore) (key : String) : Option Program :=
  ((s.byIdem.get key).filter (· ≠ "")).bind s.byId.getById

def create (s : ProgramStore) (program : Program) : Except ProgramFailure Program × ProgramStore :=
  match parseProgram program with
  | .error e => (.error e, s)
  | .ok p =>
    if (s.byId.getById p.programId).isSome then
      (.error (.program .programCasConflict s!"Program {p.programId} already exists"), s)
    else
      (.ok p, { byId := s.byId.save p, byIdem := s.byIdem.set p.idempotencyKey p.programId })

def save (s : ProgramStore) (program : Program) (expectedRevision : ℕ) :
    Except ProgramFailure Program × ProgramStore :=
  match s.byId.getById program.programId with
  | none =>
    (.error (.program .programCasConflict s!"CAS conflict for program {program.programId}"), s)
  | some existing =>
    if existing.recordRevision ≠ expectedRevision then
      (.error (.program .programCasConflict s!"CAS conflict for program {program.programId}"), s)
    else
      match parseProgram { program with recordRevision := expectedRevision + 1 } with
      | .error e => (.error e, s)
      | .ok next => (.ok next, { s with byId := s.byId.save next })

/-- The program after a transition. -/
def moved (existing : Program) (next : ProgramState) (updatedAt : ℕ) (extras : ProgramExtras) :
    Program :=
  { extras.onto existing with
    status := next
    updatedAt := updatedAt
    recordRevision := existing.recordRevision + 1 }

def transition (s : ProgramStore) (programId : String) (expected : ProgramState)
    (expectedRevision : ℕ) (next : ProgramState) (updatedAt : ℕ) (extras : ProgramExtras) :
    Except ProgramFailure Program × ProgramStore :=
  match s.byId.getById programId with
  | none => (.error (.program .programNotFound s!"Program {programId} missing"), s)
  | some existing =>
    if existing.status ≠ expected ∨ existing.recordRevision ≠ expectedRevision then
      (.error (.program .programStateConflict s!"Program {programId} state/revision mismatch"), s)
    else if !canTransitionProgram expected next then
      (.error (.program .invalidProgramTransition
        s!"Illegal transition {expected.text} → {next.text}"), s)
    else
      match parseProgram (moved existing next updatedAt extras) with
      | .error e => (.error e, s)
      | .ok updated => (.ok updated, { s with byId := s.byId.save updated })

/-- A transition moves the program as it was read, or changes nothing. -/
theorem transition_cases (s : ProgramStore) (programId : String) (expected : ProgramState)
    (expectedRevision : ℕ) (next : ProgramState) (updatedAt : ℕ) (extras : ProgramExtras) :
    (∃ e, s.transition programId expected expectedRevision next updatedAt extras = (.error e, s)) ∨
    ∃ existing, s.byId.getById programId = some existing ∧ existing.status = expected ∧
      existing.recordRevision = expectedRevision ∧ canTransitionProgram expected next = true ∧
      s.transition programId expected expectedRevision next updatedAt extras =
        (.ok (moved existing next updatedAt extras),
          { s with byId := s.byId.save (moved existing next updatedAt extras) }) := by
  unfold transition
  cases hstored : s.byId.getById programId with
  | none => exact .inl ⟨_, rfl⟩
  | some existing =>
    dsimp only
    split
    · exact .inl ⟨_, rfl⟩
    · next hread =>
      rw [not_or, not_not, not_not] at hread
      split
      · exact .inl ⟨_, rfl⟩
      · next hlegal =>
        cases hparse : parseProgram (moved existing next updatedAt extras) with
        | error e => exact .inl ⟨e, rfl⟩
        | ok updated =>
          obtain ⟨rfl, -⟩ := parseProgramRecord_ok hparse
          exact .inr ⟨existing, rfl, hread.1, hread.2, by simpa using hlegal, rfl⟩

end ProgramStore

/-- The key of a plan: `${programId}:${version}`. -/
def ProgramPlan.key (p : ProgramPlan) : String := s!"{p.programId}:{p.programPlanVersion}"

/-- The plans; each is saved once. -/
abbrev ProgramPlanStore := Repository ProgramPlan.key

namespace ProgramPlanStore

def savePlan (s : ProgramPlanStore) (plan : ProgramPlan) : Except ProgramFailure ProgramPlan × ProgramPlanStore :=
  match parseProgramPlan plan with
  | .error e => (.error e, s)
  | .ok p =>
    if (s.getById p.key).isSome then
      (.error (.program .programCasConflict s!"Plan {p.key} already immutable"), s)
    else (.ok p, s.save p)

/-- The program's plan of the highest version. -/
def getLatest (s : ProgramPlanStore) (programId : String) : Option ProgramPlan :=
  let versions := (s.list.filter fun p => p.programId = programId).insertionSort
    fun a b => b.programPlanVersion ≤ a.programPlanVersion
  versions.head?

end ProgramPlanStore

/-! ## The scheduler's dependencies -/

/-- A `CrossRunDependency`. -/
structure CrossRunDependency where
  dependencyId : String
  projectId : String
  dependentRunId : String
  prerequisiteRunId : String
  requiredMilestone : DependencyMilestone
  createdAt : ℕ
  dependencyHash : String
  deriving DecidableEq, Repr

/-- What `registerDependency` is given. -/
structure DependencyInput where
  projectId : String
  dependentRunId : String
  prerequisiteRunId : String
  requiredMilestone : DependencyMilestone
  deriving DecidableEq, Repr

abbrev DependencyStore := Repository CrossRunDependency.dependencyId

/-- `detectDependencyCycle` on pairs of a dependent and its prerequisite. -/
def detectDependencyCycle (edges : List (String × String)) : Bool :=
  let succ (id : String) : List String := (edges.filter fun e => e.1 = id).map Prod.snd
  match Graph.dfsAll succ (2 * edges.length + 1) [] (edges.map Prod.fst).eraseDups with
  | .ok _ => false
  | .error _ => true

namespace DependencyStore

/-- The record of a dependency. -/
def newDependency (X : ProgramExternal) (now : ℕ) (input : DependencyInput) :
    CrossRunDependency :=
  let json := Json.object [
    ("dependentRunId", .string input.dependentRunId),
    ("prerequisiteRunId", .string input.prerequisiteRunId),
    ("requiredMilestone", .string input.requiredMilestone.text)]
  { dependencyId := "sdep_" ++ X.digest 24 json.stringify
    projectId := input.projectId
    dependentRunId := input.dependentRunId
    prerequisiteRunId := input.prerequisiteRunId
    requiredMilestone := input.requiredMilestone
    createdAt := now
    dependencyHash := X.hash json }

/-- `PortfolioSchedulerService.registerDependency`. -/
def registerDependency (X : ProgramExternal) (runs : String → Option RunRecord) (now : ℕ)
    (s : DependencyStore) (input : DependencyInput) :
    Except ProgramFailure CrossRunDependency × DependencyStore :=
  if input.dependentRunId = input.prerequisiteRunId then
    (.error (.other "Run cannot depend on itself"), s)
  else
    match runs input.dependentRunId, runs input.prerequisiteRunId with
    | some dependent, some prerequisite =>
      if dependent.projectId ≠ input.projectId ∨ prerequisite.projectId ≠ input.projectId then
        (.error (.other "Cross-project dependencies are forbidden in Phase 13"), s)
      else
        let existing := s.list.filter fun d => d.projectId = input.projectId
        let tentative := existing.map (fun d => (d.dependentRunId, d.prerequisiteRunId)) ++
          [(input.dependentRunId, input.prerequisiteRunId)]
        if detectDependencyCycle tentative then
          (.error (.other "Dependency cycle detected"), s)
        else
          let dependency := newDependency X now input
          (.ok dependency, s.save dependency)
    | _, _ => (.error (.other "Dependency references unknown run"), s)

end DependencyStore

/-! ## Other services -/

/-- The mode's name in the source. -/
def ExecutionMode.text : ExecutionMode → String
  | .planOnly => "PLAN_ONLY"
  | .supervised => "SUPERVISED"
  | .patchOnly => "PATCH_ONLY"

/-- What program orchestration reads of the control plane's answer. -/
structure ProgramControlContext where
  policyBundleId : String
  policyHash : String
  availableCapabilities : List Capability
  activePolicyBundleId : String
  resourceBudgetProfileId : String
  allowedEnvironments : List String
  executionMode : ExecutionMode
  budgetProfileId : String
  deriving DecidableEq, Repr

/-- The request that submits a child objective. -/
structure ChildObjectiveRequest where
  projectId : String
  objectiveId : String
  objectiveVersion : ℕ
  requestedOutcome : String
  acceptanceCriteria : List String
  nonGoals : List String
  constraints : List String
  priority : ObjectivePriority
  requesterId : String
  requestedEnvironment : String
  submittedAt : ℕ
  deriving DecidableEq, Repr

/-- What program orchestration reads of the answer to it. -/
inductive ChildAdmission where
  | admitted (runId : String)
  | activeDuplicate (runId : String)
  | completedDuplicate (runId : String)
  | rejected (reasonCode : String)
  | conflict (reasonCode : String)
  deriving DecidableEq, Repr

/-- What program verification reads of an `AcceptanceCriterionResult`. -/
structure AcceptanceCriterionResult where
  criterionText : String
  verdict : CriterionVerdict
  deriving DecidableEq, Repr

/-- What program verification reads of an `OutcomeVerificationRecord`. -/
structure OutcomeVerificationRecord where
  outcomeVerificationId : String
  runId : String
  verifiedSuccess : Bool
  criterionResults : List AcceptanceCriterionResult
  deriving DecidableEq, Repr

/-- What program verification reads of a run's `CompletionRecord`. -/
structure RunCompletionRecord where
  completionRecordId : String
  runId : String
  outcomeVerificationId : String
  deriving DecidableEq, Repr

/-! ## Calls -/

/-- The calls that program orchestration makes. -/
inductive ProgramOp where
  | nowIso
  | randomUUID
  | resolve (projectId environment : String)
  | authorizedRepositoryIdentities (projectId : String)
  | isProgramMaterializer (principalId projectId : String)
  | proposeDecomposition (program : Program) (revisionAttempt : ℕ)
  | generateNonce
  | takeNonce (approvalId : String)
  | putNonce (approvalId plaintext : String)
  | admitObjective (request : ChildObjectiveRequest)
  | registerDependency (input : DependencyInput)
  | getRun (runId : String)
  | getRunCompletion (runId : String)
  | getOutcome (outcomeVerificationId : String)
  | createProgram (program : Program)
  | getProgram (programId : String)
  | getProgramByKey (key : String)
  | saveProgram (program : Program) (expectedRevision : ℕ)
  | transitionProgram (programId : String) (expected : ProgramState) (expectedRevision : ℕ)
      (next : ProgramState) (updatedAt : ℕ) (extras : ProgramExtras)
  | savePlan (plan : ProgramPlan)
  | getLatestPlan (programId : String)
  | budget (o : BudgetOp)
  | saveLineage (record : ProgramLineageRecord)
  | getLineage (lineageId : String)
  | listLineageByPlan (programId : String) (programPlanVersion : ℕ)
  | saveApproval (approval : ProgramMaterializationApproval)
  | getApproval (approvalId : String)
  | getPendingApproval (programId : String)
  | saveCompletion (record : ProgramCompletionRecord)
  | getCompletion (programId : String)
  deriving DecidableEq

/-- What each call answers with when it does not throw. -/
abbrev ProgramOp.Res : ProgramOp → Type
  | nowIso => ℕ
  | randomUUID => String
  | resolve .. => ProgramControlContext
  | authorizedRepositoryIdentities _ => List String
  | isProgramMaterializer .. => Bool
  | proposeDecomposition .. => DecompositionProposal
  | generateNonce => String
  | takeNonce _ => Option String
  | putNonce .. => Unit
  | admitObjective _ => ChildAdmission
  | registerDependency _ => CrossRunDependency
  | getRun _ => Option RunRecord
  | getRunCompletion _ => Option RunCompletionRecord
  | getOutcome _ => Option OutcomeVerificationRecord
  | createProgram _ => Program
  | getProgram _ => Option Program
  | getProgramByKey _ => Option Program
  | saveProgram .. => Program
  | transitionProgram .. => Program
  | savePlan _ => ProgramPlan
  | getLatestPlan _ => Option ProgramPlan
  | budget o => o.Res
  | saveLineage _ => ProgramLineageRecord
  | getLineage _ => Option ProgramLineageRecord
  | listLineageByPlan .. => List ProgramLineageRecord
  | saveApproval _ => ProgramMaterializationApproval
  | getApproval _ => Option ProgramMaterializationApproval
  | getPendingApproval _ => Option ProgramMaterializationApproval
  | saveCompletion _ => ProgramCompletionRecord
  | getCompletion _ => Option ProgramCompletionRecord

abbrev ProgramSig : Sig := Sig.throwing ProgramOp ProgramOp.Res ProgramFailure

/-! ## The world -/

/-- What program orchestration writes. -/
structure ProgramStores where
  programs : ProgramStore
  plans : ProgramPlanStore
  budgets : BudgetStores
  lineage : Repository ProgramLineageRecord.lineageId
  approvals : Repository ProgramMaterializationApproval.approvalId
  nonces : JsMap String String
  completions : Repository ProgramCompletionRecord.programId
  dependencies : DependencyStore

def ProgramStores.empty : ProgramStores where
  programs := .empty
  plans := .empty
  budgets := .empty
  lineage := .empty
  approvals := .empty
  nonces := .empty
  completions := .empty
  dependencies := .empty

/-- How the other services answer, the clock, and what the generators give out. -/
structure ProgramSurroundings where
  now : ℕ
  resolve : String → String → Except ProgramFailure ProgramControlContext
  authorizedRepositoryIdentities : String → Except ProgramFailure (List String)
  isProgramMaterializer : String → String → Except ProgramFailure Bool
  proposeDecomposition : Program → ℕ → Except ProgramFailure DecompositionProposal
  admitObjective : ChildObjectiveRequest → Except ProgramFailure ChildAdmission
  runs : String → Option RunRecord
  runCompletions : String → Option RunCompletionRecord
  outcomes : String → Option OutcomeVerificationRecord
  /-- The scheduler's answer, where it is out of order. -/
  schedulerFailure : Option ProgramFailure
  nextNonce : String
  nextUUID : String

structure ProgramWorld where
  stores : ProgramStores
  surroundings : ProgramSurroundings

namespace ProgramWorld

def setPrograms (w : ProgramWorld) (programs : ProgramStore) : ProgramWorld :=
  { w with stores := { w.stores with programs := programs } }

def setPlans (w : ProgramWorld) (plans : ProgramPlanStore) : ProgramWorld :=
  { w with stores := { w.stores with plans := plans } }

def setBudgets (w : ProgramWorld) (budgets : BudgetStores) : ProgramWorld :=
  { w with stores := { w.stores with budgets := budgets } }

def setDependencies (w : ProgramWorld) (dependencies : DependencyStore) : ProgramWorld :=
  { w with stores := { w.stores with dependencies := dependencies } }

def setNonces (w : ProgramWorld) (nonces : JsMap String String) : ProgramWorld :=
  { w with stores := { w.stores with nonces := nonces } }

end ProgramWorld

/-- The answer of a store, put back into the world. -/
def onStore {α β : Type} (set : β → ProgramWorld) (r : α × β) : α × ProgramWorld := (r.1, set r.2)

/-- What each call does. -/
def orchestration (X : ProgramExternal) : Handler ProgramSig ProgramWorld
  | .nowIso, w => (.ok w.surroundings.now, w)
  | .randomUUID, w => (.ok w.surroundings.nextUUID, w)
  | .resolve projectId environment, w => (w.surroundings.resolve projectId environment, w)
  | .authorizedRepositoryIdentities projectId, w =>
    (w.surroundings.authorizedRepositoryIdentities projectId, w)
  | .isProgramMaterializer principalId projectId, w =>
    (w.surroundings.isProgramMaterializer principalId projectId, w)
  | .proposeDecomposition program revisionAttempt, w =>
    (w.surroundings.proposeDecomposition program revisionAttempt, w)
  | .generateNonce, w => (.ok w.surroundings.nextNonce, w)
  | .takeNonce approvalId, w =>
    (.ok (w.stores.nonces.get approvalId), w.setNonces (w.stores.nonces.delete approvalId))
  | .putNonce approvalId plaintext, w =>
    (.ok (), w.setNonces (w.stores.nonces.set approvalId plaintext))
  | .admitObjective request, w => (w.surroundings.admitObjective request, w)
  | .registerDependency input, w =>
    match w.surroundings.schedulerFailure with
    | some e => (.error e, w)
    | none =>
      onStore w.setDependencies (w.stores.dependencies.registerDependency X w.surroundings.runs
        w.surroundings.now input)
  | .getRun runId, w => (.ok (w.surroundings.runs runId), w)
  | .getRunCompletion runId, w => (.ok (w.surroundings.runCompletions runId), w)
  | .getOutcome id, w => (.ok (w.surroundings.outcomes id), w)
  | .createProgram program, w => onStore w.setPrograms (w.stores.programs.create program)
  | .getProgram programId, w => (.ok (w.stores.programs.byId.getById programId), w)
  | .getProgramByKey key, w => (.ok (w.stores.programs.getByIdempotencyKey key), w)
  | .saveProgram program expectedRevision, w =>
    onStore w.setPrograms (w.stores.programs.save program expectedRevision)
  | .transitionProgram programId expected expectedRevision next updatedAt extras, w =>
    onStore w.setPrograms
      (w.stores.programs.transition programId expected expectedRevision next updatedAt extras)
  | .savePlan plan, w => onStore w.setPlans (w.stores.plans.savePlan plan)
  | .getLatestPlan programId, w => (.ok (w.stores.plans.getLatest programId), w)
  | .budget o, w => onStore w.setBudgets (w.stores.budgets.answer .program o)
  | .saveLineage record, w =>
    match parseProgramRecord ProgramLineageRecord.issues record with
    | .error e => (.error e, w)
    | .ok l => (.ok l, { w with stores := { w.stores with lineage := w.stores.lineage.save l } })
  | .getLineage lineageId, w => (.ok (w.stores.lineage.getById lineageId), w)
  | .listLineageByPlan programId programPlanVersion, w =>
    (.ok (w.stores.lineage.list.filter fun l =>
      l.programId = programId ∧ l.programPlanVersion = programPlanVersion), w)
  | .saveApproval approval, w =>
    match parseProgramRecord ProgramMaterializationApproval.issues approval with
    | .error e => (.error e, w)
    | .ok a =>
      (.ok a, { w with stores := { w.stores with approvals := w.stores.approvals.save a } })
  | .getApproval approvalId, w => (.ok (w.stores.approvals.getById approvalId), w)
  | .getPendingApproval programId, w =>
    (.ok (w.stores.approvals.list.find? fun a =>
      a.programId = programId ∧ a.status = .pending), w)
  | .saveCompletion record, w =>
    match parseProgramRecord ProgramCompletionRecord.issues record with
    | .error e => (.error e, w)
    | .ok c =>
      match w.stores.completions.getById c.programId with
      | some stored => (.ok stored, w)
      | none =>
        (.ok c, { w with stores := { w.stores with completions := w.stores.completions.save c } })
  | .getCompletion programId, w => (.ok (w.stores.completions.getById programId), w)

end Orchestrator
