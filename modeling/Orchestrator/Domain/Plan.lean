import Orchestrator.Domain.Errors
import Mathlib.Data.Rat.Defs

/-!
# Plans, capabilities and the control context

What execution reads of an approved plan, of the control plane's capabilities and of the
project's control context. `evaluateActionAllowance` is the control plane's own answer to
whether a capability allows an action.
-/

namespace Orchestrator

/-! ## Plans -/

inductive RollbackStrategy where
  | none
  | compensatingAction
  | manual
  deriving DecidableEq, Repr

/-- `StepRollbackSpec`. -/
structure StepRollbackSpec where
  strategy : RollbackStrategy
  compensatingStepIds : Option (List String)
  instructions : Option (List String)
  deriving DecidableEq, Repr

/-- `ExecutionStep`, less the evidence, the estimates and the risk, which execution ignores. -/
structure ExecutionStep where
  stepId : String
  actionType : String
  description : String
  targetIds : List String
  dependsOn : List String
  preconditions : List String
  expectedPostconditions : List String
  validationChecks : List String
  rollback : StepRollbackSpec
  deriving DecidableEq, Repr

/-- `ExecutionPlan`, the part execution reads; a workstream is its list of step ids. -/
structure ExecutionPlan where
  repositoryCommitSha : String
  repositoryFingerprint : String
  policyBundleHash : String
  workstreams : List (List String)
  steps : List ExecutionStep
  planHash : String
  deriving DecidableEq, Repr

/-- A stored plan with the identity it is stored under. -/
structure PlanRecord where
  planId : String
  planVersion : ℕ
  planHash : String
  plan : ExecutionPlan
  deriving DecidableEq, Repr

/-- `AuthorizationRecord`, the part execution reads. -/
structure AuthorizationRecord where
  authorizationRecordId : String
  capabilitySetFingerprint : String
  deriving DecidableEq, Repr

/-! ## Capabilities -/

inductive CapabilityApprovalRequirement where
  | none
  | conditional
  | required
  deriving DecidableEq, Repr

/-- `Capability`, less its description and timestamps. -/
structure Capability where
  capabilityId : String
  version : String
  allowedActions : List String
  forbiddenActions : List String
  allowedEnvironments : List String
  approvalRequirement : CapabilityApprovalRequirement
  maximumRuntimeSeconds : ℕ
  enabled : Bool
  deriving DecidableEq, Repr

/-- `ActionAllowanceReason`. -/
inductive ActionAllowanceReason where
  | allowed
  | capabilityNotFound
  | capabilityDisabled
  | environmentNotAllowed
  | actionForbidden
  | actionNotPermitted
  deriving DecidableEq, Repr

/-- `evaluateActionAllowance`; the action is allowed exactly when the reason is `allowed`. -/
def evaluateActionAllowance (capability : Option Capability) (action environment : String) :
    ActionAllowanceReason :=
  match capability with
  | none => .capabilityNotFound
  | some capability =>
    if !capability.enabled then .capabilityDisabled
    else if environment ∉ capability.allowedEnvironments then .environmentNotAllowed
    else if action ∈ capability.forbiddenActions then .actionForbidden
    else if action ∉ capability.allowedActions then .actionNotPermitted
    else .allowed

theorem evaluateActionAllowance_eq_allowed (capability : Capability) (action env : String) :
    evaluateActionAllowance (some capability) action env = .allowed ↔
      capability.enabled = true ∧ env ∈ capability.allowedEnvironments ∧
        action ∉ capability.forbiddenActions ∧ action ∈ capability.allowedActions := by
  simp only [evaluateActionAllowance]
  split_ifs <;> simp_all

/-- `ResourceBudgetProfile`, the ceilings the execution ledger enforces. -/
structure ResourceBudgetProfile where
  maximumApiCalls : ℚ
  maximumExecutionMinutes : ℚ
  maximumPlanSteps : ℕ
  deriving DecidableEq, Repr

inductive ExecutionMode where
  | planOnly
  | supervised
  | patchOnly
  deriving DecidableEq, Repr

/-- `ProjectControlContext`, the part execution reads. -/
structure ProjectControlContext where
  executionMode : ExecutionMode
  resourceBudget : ResourceBudgetProfile
  availableCapabilities : List Capability
  environment : String
  deriving DecidableEq, Repr

end Orchestrator
