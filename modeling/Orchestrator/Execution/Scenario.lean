import Orchestrator.Execution.Service

/-!
# A small project

The parts of concrete runs: a project with one capability for local patches, a plan made of
local patches, and a world with approved runs. Surroundings are given by what the actuator
answers and how long it takes.
-/

namespace Orchestrator.Scenario

open Collections

/-- A grammar that takes every argument and every target. -/
def lenient : ArgumentGrammar where
  normalize step _ := .ok (⟨none, "{}"⟩, step.targetIds)
  revalidate _ := .ok ()

def config : ExecutionConfig := ⟨plainExternal, lenient, defaultTestProfiles⟩

/-- The capability of the project, with the actions it forbids. -/
def patches (forbidden : List String) : Capability where
  capabilityId := "cap_patch"
  version := "1"
  allowedActions := ["CREATE_LOCAL_PATCH"]
  forbiddenActions := forbidden
  allowedEnvironments := ["dev"]
  approvalRequirement := .none
  maximumRuntimeSeconds := 60
  enabled := true

/-- The control context of the project, with a budget in minutes. -/
def control (capability : Capability) (minutes : ℚ) : ProjectControlContext where
  executionMode := .supervised
  resourceBudget := ⟨100, minutes, 10⟩
  availableCapabilities := [capability]
  environment := "dev"

/-- A step that patches one file, undone by the steps in `compensating`. -/
def patch (stepId : String) (dependsOn compensating : List String) : ExecutionStep where
  stepId := stepId
  actionType := "CREATE_LOCAL_PATCH"
  description := "patch"
  targetIds := ["a.ts"]
  dependsOn := dependsOn
  preconditions := []
  expectedPostconditions := []
  validationChecks := []
  rollback :=
    if compensating = [] then ⟨.none, none, none⟩
    else ⟨.compensatingAction, some compensating, none⟩

/-- A run's plan, with one workstream. -/
def plan (runId : String) (steps : List ExecutionStep) (workstream : List String) :
    PlanRecord where
  planId := "plan_" ++ runId
  planVersion := 1
  planHash := "hash_" ++ runId
  plan :=
    { repositoryCommitSha := "sha"
      repositoryFingerprint := "fingerprint"
      policyBundleHash := "bundle"
      workstreams := [workstream]
      steps := steps
      planHash := "hash_" ++ runId }

/-- Surroundings in which every run has these steps. A step may have an error that its actuation
ends with, and every actuation takes `elapsedMs`. -/
def surroundings (steps : List ExecutionStep) (workstream : List String)
    (control : ProjectControlContext) (error : String → Option JsError) (elapsedMs : ℕ) :
    Surroundings where
  ready _ runId := .ok
    { plan := plan runId steps workstream
      authorizationRecord := ⟨"auth_" ++ runId, "cap_patch"⟩
      capabilitySetFingerprint := "cap_patch" }
  fresh _ _ := .ok ()
  control _ _ _ := .ok control
  actuator _ action step :=
    match error step.stepId with
    | some e => .error e
    | none => .ok (smoothResult action)
  elapsedMs _ := elapsedMs
  reconcile _ _ := .ok none
  saveArtifact _ _ := .ok ()
  putBlob _ _ := .ok ()

/-- The world of a fresh service with these approved runs. -/
def world (runIds : List String) : World :=
  { World.empty with
    runs := runIds.foldl (fun runs runId => runs.save
      { runId := runId
        projectId := "project_1"
        requestedEnvironment := "dev"
        state := .approved
        updatedAt := 0
        recordRevision := 1 }) .empty }

end Orchestrator.Scenario
