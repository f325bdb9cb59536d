import Orchestrator.Collections.JsMap
import Orchestrator.Domain.Execution

/-!
# Compiling plan steps

`DryRunCompiler` turns the steps of an approved plan into actuator instructions, each bound to
the capability that the control context offers for its action; `requireCapability` is the
check made again before a step runs.

The grammar of step arguments (the screening of free text, the argument schemas, the target
paths) is a parameter, `ArgumentGrammar`: nothing proved here depends on which arguments it
accepts.
-/

namespace Orchestrator

open Collections

inductive Phase7ActionType where
  | createLocalPatch
  | runTests
  | createTask
  | preparePullRequest
  | sendRecoverySms
  | sendRecoveryEmail
  | createCallbackTask
  deriving DecidableEq, Repr

namespace Phase7ActionType

/-- The action's name in the source. -/
def text : Phase7ActionType → String
  | .createLocalPatch => "CREATE_LOCAL_PATCH"
  | .runTests => "RUN_TESTS"
  | .createTask => "CREATE_TASK"
  | .preparePullRequest => "PREPARE_PULL_REQUEST"
  | .sendRecoverySms => "SEND_RECOVERY_SMS"
  | .sendRecoveryEmail => "SEND_RECOVERY_EMAIL"
  | .createCallbackTask => "CREATE_CALLBACK_TASK"

def all : List Phase7ActionType :=
  [.createLocalPatch, .runTests, .createTask, .preparePullRequest, .sendRecoverySms,
    .sendRecoveryEmail, .createCallbackTask]

/-- `isPhase7ActionType`, with the action it recognises. -/
def ofText? (s : String) : Option Phase7ActionType := all.find? (·.text = s)

theorem text_of_ofText? {s : String} {a : Phase7ActionType} (h : ofText? s = some a) :
    a.text = s := by
  simpa using List.find?_some h

end Phase7ActionType

/-- The arguments of a compiled step: the test profile, which execution reads back, and the
canonical JSON of all of them. -/
structure NormalizedArguments where
  testProfileId : Option String
  canonical : String
  deriving DecidableEq, Repr

structure CompiledExecutionStep where
  stepId : String
  capabilityId : String
  actionType : Phase7ActionType
  validatedTargets : List String
  normalizedArguments : NormalizedArguments
  preconditions : List String
  expectedPostconditions : List String
  verificationRequirements : List String
  rollbackReference : StepRollbackSpec
  idempotencyKey : String
  dependsOn : List String
  deriving DecidableEq, Repr

/-- The paths at which `CompiledExecutionStepSchema` rejects a step. -/
def CompiledExecutionStep.issues (s : CompiledExecutionStep) : List String :=
  minOne "stepId" s.stepId ++ minOne "capabilityId" s.capabilityId ++
    minOne "idempotencyKey" s.idempotencyKey

/-- The grammar of step arguments and targets. -/
structure ArgumentGrammar where
  /-- `rejectForbiddenFreeForm`, `normalizeArguments`, the action's schema and the validation of
  its targets: the arguments and the targets, or the error they throw. -/
  normalize : ExecutionStep → Phase7ActionType → Except JsError (NormalizedArguments × List String)
  /-- `validateTargets`, made again before a local patch runs. -/
  revalidate : List String → Except JsError Unit

/-! ## Idempotency keys -/

section Keys

variable (X : External)

def stepIdempotencyKey (planHash stepId capabilityId targetFingerprint argumentFingerprint :
    String) : String :=
  X.sha256 (X.canonicalObject [("planHash", planHash), ("stepId", stepId),
    ("capabilityId", capabilityId), ("targetFingerprint", targetFingerprint),
    ("argumentFingerprint", argumentFingerprint)])

def rollbackIdempotencyKey (planHash sourceStepId rollbackPlanId compensatingStepId capabilityId
    targetFingerprint argumentFingerprint : String) : String :=
  X.sha256 (X.canonicalObject [("kind", "AUTOMATIC_ROLLBACK"), ("planHash", planHash),
    ("sourceStepId", sourceStepId), ("rollbackPlanId", rollbackPlanId),
    ("compensatingStepId", compensatingStepId), ("capabilityId", capabilityId),
    ("targetFingerprint", targetFingerprint), ("argumentFingerprint", argumentFingerprint)])

/-- `fingerprintValue` of a list of targets. -/
def fingerprintTargets (targets : List String) : String := X.sha256 (X.canonicalArray targets)

/-- `fingerprintValue` of normalized arguments. -/
def fingerprintArguments (args : NormalizedArguments) : String := X.sha256 args.canonical

end Keys

/-! ## Compiling -/

namespace DryRunCompiler

variable (X : External) (grammar : ArgumentGrammar)

def compileStep (planHash : String) (capabilityIdsByAction : JsMap String String)
    (step : ExecutionStep) : Except JsError CompiledExecutionStep :=
  match Phase7ActionType.ofText? step.actionType with
  | none =>
    .error (.execution .executionUnsupportedAction
      s!"Action type {step.actionType} is not supported in Phase 7")
  | some actionType =>
    let capabilityId := (capabilityIdsByAction.get step.actionType).getD step.actionType
    match grammar.normalize step actionType with
    | .error e => .error e
    | .ok (args, targets) =>
      X.parse CompiledExecutionStep.issues
        { stepId := step.stepId
          capabilityId := capabilityId
          actionType := actionType
          validatedTargets := targets
          normalizedArguments := args
          preconditions := step.preconditions
          expectedPostconditions := step.expectedPostconditions
          verificationRequirements := step.validationChecks
          rollbackReference := step.rollback
          idempotencyKey := stepIdempotencyKey X planHash step.stepId capabilityId
            (fingerprintTargets X targets) (fingerprintArguments X args)
          dependsOn := step.dependsOn }

def compile (plan : ExecutionPlan) (capabilityIdsByAction : JsMap String String) :
    Except JsError (List CompiledExecutionStep) :=
  plan.steps.mapM (compileStep X grammar plan.planHash capabilityIdsByAction)

end DryRunCompiler

/-! ## Capabilities -/

/-- For each action, the first available capability that lists it as allowed. -/
def capabilityIdsByAction (available : List Capability) : JsMap String String :=
  available.foldl (fun m cap => cap.allowedActions.foldl (fun m action =>
    if m.has action then m else m.set action cap.capabilityId) m) .empty

/-- `uniqueCapabilitiesForPlanActions`: the capabilities that list one of the actions, one for
each id, a later one in the place of an earlier one. -/
def uniqueCapabilitiesForPlanActions (actions : List String) (available : List Capability) :
    List Capability :=
  (JsMap.ofList ((actions.flatMap fun action =>
    available.filter fun cap => action ∈ cap.allowedActions).map
      fun cap => (cap.capabilityId, cap))).values

/-- `requireCapability`: the capability with this id is available, enabled, allows the action and
is allowed in the environment. -/
def requireCapability (control : ProjectControlContext) (capabilityId actionType : String) :
    Except JsError Capability :=
  match control.availableCapabilities.find? (·.capabilityId = capabilityId) with
  | none =>
    .error (.execution .executionCapabilityChanged
      s!"Capability {capabilityId} is not available or disabled")
  | some capability =>
    if !capability.enabled then
      .error (.execution .executionCapabilityChanged
        s!"Capability {capabilityId} is not available or disabled")
    else if actionType ∉ capability.allowedActions then
      .error (.execution .executionCapabilityChanged
        s!"Capability {capabilityId} does not allow {actionType}")
    else if control.environment ∉ capability.allowedEnvironments then
      .error (.execution .executionModeDenied
        s!"Capability {capabilityId} is not allowed in environment {control.environment}")
    else .ok capability

/-- `requireCapability` makes every check of `evaluateActionAllowance` but the one on forbidden
actions. -/
theorem requireCapability_ok {control : ProjectControlContext} {capabilityId actionType : String}
    {capability : Capability} (h : requireCapability control capabilityId actionType = .ok capability) :
    control.availableCapabilities.find? (·.capabilityId = capabilityId) = some capability ∧
      capability.enabled = true ∧ actionType ∈ capability.allowedActions ∧
      control.environment ∈ capability.allowedEnvironments := by
  rw [requireCapability] at h
  split at h
  · cases h
  · next c hfind =>
    split_ifs at h with h₁ h₂ h₃
    cases h
    exact ⟨hfind, by simpa using h₁, h₂, h₃⟩

/-! ## Test profiles -/

/-- `TestProfileRegistry`, by profile id: the timeout in seconds. -/
abbrev TestProfileRegistry := JsMap String ℕ

/-- `DEFAULT_PROFILES`. -/
def defaultTestProfiles : TestProfileRegistry :=
  JsMap.ofList [("TYPECHECK", 120), ("UNIT_TESTS", 600), ("BUILD", 300)]

/-- `TestProfileRegistry.require`, the timeout of a profile. -/
def requireTestProfile (profiles : TestProfileRegistry) (testProfileId : String) :
    Except JsError ℕ :=
  match profiles.get testProfileId with
  | none => .error (.error s!"Unregistered test profile: {testProfileId}")
  | some seconds => .ok seconds

end Orchestrator
