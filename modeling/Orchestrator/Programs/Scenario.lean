import Orchestrator.Atomic.Exec
import Orchestrator.Programs.Calls

/-!
# A program scenario

A request for a program with one root criterion, a model that decomposes it into one child, and
the program as it goes from its admission to the approval of its plan.
-/

namespace Orchestrator.ProgramScenario

open Atomic Collections ProgramService

/-- Digests that keep what they digest. -/
def external : ProgramExternal where
  sha256 text := "#" ++ text
  canonicalObject fields := ";".intercalate (fields.map fun f => f.1 ++ "=" ++ f.2)
  canonicalArray xs := ",".intercalate xs
  canonicalCapabilities cs := ",".intercalate (cs.map (·.capabilityId))
  zodMessage paths := "invalid: " ++ ",".intercalate paths
  numberToString q := toString q
  localeLe a b := decide (a ≤ b)
  digest _ text := text
  toLowerCase s := String.ofList (s.toList.map Char.toLower)

/-- As much of every dimension. -/
def units (n : ℚ) : BudgetResourceEstimate := fun _ => n

/-- The projects, and ten units for five units a child. -/
def envelopeFor (allowedProjectIds : List String) : DelegationEnvelope where
  allowedProjectIds := allowedProjectIds
  allowedEnvironments := ["local"]
  allowedRepositoryIdentities := []
  allowedCapabilityIds := []
  maximumProgramBudget := units 10
  maximumChildBudget := units 5
  maximumChildren := 5
  maximumDepth := 2
  maximumFanOut := 5
  maximumConcurrentChildren := 2
  maximumModelCalls := 1
  maximumTotalTokens := 1
  deadline := none
  crossProjectDelegationAllowed := false
  materializationApprovalRequired := true

def context : ProgramControlContext where
  policyBundleId := "bundle_1"
  policyHash := "policy_1"
  availableCapabilities := []
  activePolicyBundleId := "bundle_1"
  resourceBudgetProfileId := "profile_1"
  allowedEnvironments := ["local"]
  executionMode := .supervised
  budgetProfileId := "profile_1"

/-- A child that satisfies the root criterion, for two units. -/
def child : DecompositionChildProposal where
  title := "build"
  requestedOutcome := "built"
  acceptanceCriteria := ["it works"]
  nonGoals := []
  constraints := []
  priority := .medium
  requirement := .required
  requestedProjectId := none
  requestedEnvironment := none
  requestedCapabilityIds := []
  requestedRepositoryIdentities := []
  requestedBudget := units 2
  dependsOnTitles := []
  parentTitle := none
  criterionBindings := [⟨0, 0, .satisfies, .completionRecord⟩]

/-- A model that proposes these children; every other service agrees. -/
def surroundings (children : List DecompositionChildProposal) : ProgramSurroundings where
  now := 10
  resolve _ _ := .ok context
  authorizedRepositoryIdentities _ := .ok []
  isProgramMaterializer _ _ := .ok true
  proposeDecomposition _ _ := .ok ⟨children, "model", none⟩
  admitObjective request := .ok (.admitted ("run_" ++ request.requestedOutcome))
  runs _ := none
  runCompletions _ := none
  outcomes _ := none
  schedulerFailure := none
  nextNonce := "nonce_1"
  nextUUID := "uuid_1"

def request (allowedProjectIds : List String) : ProgramAdmissionRequest where
  programId := some "prog_1"
  programVersion := none
  projectId := "project_1"
  requesterId := "rita"
  requestedEnvironment := "local"
  rootIntent := ⟨"all done", ["it works"], [], [], .medium, none⟩
  delegationEnvelope := envelopeFor allowedProjectIds
  submittedAt := 5
  correlationId := none
  traceId := none

/-- The world that a call leaves, run alone. -/
def afterCall {α : Type} (p : Call α) (w : ProgramWorld) : ProgramWorld :=
  (p.exec (orchestration external) w).2

/-- A program for these projects and children, whose plan awaits its approval. -/
def awaiting (allowedProjectIds : List String) (children : List DecompositionChildProposal) :
    ProgramWorld :=
  afterCall (validate external .full "prog_1")
    (afterCall (decompose external "prog_1")
      (afterCall (admitProgram external (request allowedProjectIds))
        ⟨.empty, surroundings children⟩))

set_option maxRecDepth 10000 in
example : ((awaiting ["project_1"] [child]).stores.programs.byId.getById "prog_1").map (·.status) =
    some .awaitingMaterializationApproval := by
  decide +kernel

/-- What a person decides on the approval of the first plan. -/
def decision (approverId : String) (decision : MaterializationDecision) : DecideInput where
  approvalId := "pma_prog_1_1"
  approverId := approverId
  decision := decision
  decisionNonce := "nonce_1"
  submittedAt := 20

end Orchestrator.ProgramScenario
