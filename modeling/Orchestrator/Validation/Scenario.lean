import Orchestrator.Validation.Service

/-!
# A run under validation

The parts of concrete validations: a run whose first plan is ready, and surroundings given by what
the validators find on each version of the plan.
-/

namespace Orchestrator.ValidationScenario

open Collections

/-- Digests that keep what they digest. -/
def plainDigests : ValidationExternal where
  fingerprint draft := draft.ruleId
  findingId fingerprint _ := "vf_" ++ fingerprint
  digest text := text

/-- Two revisions at most, by a named model. -/
def deps : ValidationDeps := ⟨maxSemanticRevisionAttempts, "provider_1", "model_1"⟩

def run : StoredRun where
  runId := "run_1"
  projectId := "project_1"
  requestedEnvironment := "dev"
  state := .validating
  recordRevision := 1
  updatedAt := 0
  objectiveId := "objective_1"
  objectiveVersion := 1
  runAttempt := 1
  idempotencyKey := "key_1"
  requesterId := "requester_1"
  createdAt := 0
  correlationId := "corr_1"
  traceId := "trace_1"
  admittedAt := some 0
  failureReasonCode := none

def objective : Objective where
  objectiveId := "objective_1"
  objectiveVersion := 1
  projectId := "project_1"
  requestedOutcome := "it works"
  acceptanceCriteria := ["it works"]
  nonGoals := []
  constraints := []
  priority := .high
  requesterId := "requester_1"
  deadline := none
  createdAt := "2026-01-01T00:00:00Z"

def control : ActiveControlContext where
  executionMode := .supervised
  resourceBudget := ⟨100, 100, 10⟩
  availableCapabilities := []
  environment := "dev"
  policyHash := "policy_1"

def plan (planHash : String) : ExecutionPlan where
  repositoryCommitSha := "commit_1"
  repositoryFingerprint := "repository_1"
  policyBundleHash := "policy_1"
  workstreams := []
  steps := []
  planHash := planHash

/-- The first plan of the run, as planning leaves it. -/
def firstPlan : StoredPlanRecord where
  planId := "plan_1"
  planVersion := 1
  planHash := "hash_1"
  plan := plan "hash_1"
  runId := "run_1"
  status := .readyForValidation
  origin := ⟨"context_1", "1.0.0", "provider_1", "model_1", 0, none, none⟩
  planVersion_pos := Nat.one_pos

/-- A finding that blocks and that a revision may repair. -/
def repairable (ruleId : String) (approvalEligible : Bool) : ValidationFinding where
  findingId := "vf_" ++ ruleId
  validatorType := .contextual
  category := "context"
  severity := .error
  ruleId := ruleId
  message := "Missing verification"
  evidenceRefs := []
  affectedStepIds := []
  repairable := true
  approvalEligible := approvalEligible
  blocking := true
  semanticFingerprint := ruleId

/-- Surroundings in which the validators find `findings v` on version `v`, the contextual model
has nothing to add, and every revision compiles. -/
def surroundings (findings : ℕ → List ValidationFinding) : ValidationSurroundings where
  now := 0
  run runId := if runId = "run_1" then some run else none
  objective _ _ := some objective
  boundObjective _ := some objective
  resolve _ _ := .ok control
  context _ := some ⟨"repository_1"⟩
  lock _ := some ⟨"commit_1"⟩
  evaluate _ record _ := .ok ⟨findings record.planVersion, some record.plan, true⟩
  compilePlanningContext _ _ := .ok ⟨"context_1"⟩
  validatePlan _ _ _ := .ok ⟨.pass, [], []⟩
  revisePlan _ _ := .ok ⟨"proposal"⟩
  compileRevision _ _ _ := .ok plan
  fails _ := none

/-- Ids with a number. -/
def numbered (name : String) (n : ℕ) : String := name ++ toString (n + 1)

theorem numbered_injective (name : String) : Function.Injective (numbered name) := by
  intro m n h
  have hlist := congrArg String.toList h
  simp only [numbered, String.toList_append, List.append_cancel_left_eq] at hlist
  have hdigits : Nat.toDigits 10 (m + 1) = Nat.toDigits 10 (n + 1) := by
    simpa [toString, Nat.repr] using hlist
  have hvalue := congrArg (Nat.ofDigitChars 10 · 0) hdigits
  simp only [Nat.ofDigitChars_ten_toDigits] at hvalue
  omega

/-- The run before its first validation. -/
def world (findings : ℕ → List ValidationFinding) : ValidationWorld where
  plans := PlanStore.empty.put firstPlan
  fences := .empty
  decisions := .empty
  surroundings := surroundings findings
  identities := ⟨numbered "plan_", numbered "vd_", numbered "pex_"⟩
  given := ⟨1, 0, 0⟩

end Orchestrator.ValidationScenario
