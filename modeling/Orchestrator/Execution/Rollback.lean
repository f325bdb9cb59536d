import Orchestrator.Domain.Execution

/-!
# The rollback gate

`RollbackService`: which compensating steps the approved plan authorizes after a failed step,
and the limit on automatic rollbacks. The service counts the rollbacks it has recorded since
it was built; the count is an argument here.
-/

namespace Orchestrator

namespace RollbackService

/-- `parseRollbackPlan` of what the plan says about a step. -/
def rollbackPlanOf (step : ExecutionStep) (compensating : List String) : RollbackPlan where
  rollbackPlanId := s!"rollback_{step.stepId}"
  sourceStepId := step.stepId
  compensatingStepIds := compensating
  strategy := .compensatingAction
  instructions := step.rollback.instructions

def extractAuthorizedRollback (X : External) (step : ExecutionStep) :
    Except JsError (Option RollbackPlan) :=
  if step.rollback.strategy ≠ .compensatingAction then .ok none
  else
    match step.rollback.compensatingStepIds with
    | none => .ok none
    | some [] => .ok none
    | some compensating =>
      match parseRollbackPlan X (rollbackPlanOf step compensating) with
      | .error e => .error e
      | .ok r => .ok (some r)

/-- The gate's loop: each compensating step is in the plan, and none is the failed step. -/
def checkCompensating (plan : ExecutionPlan) (failedStepId : String) :
    List String → Except JsError Unit
  | [] => .ok ()
  | id :: ids =>
    if id ∉ plan.steps.map (·.stepId) then
      .error (.execution .rollbackNotAuthorized
        s!"Compensating step {id} is not in the approved plan")
    else if id = failedStepId then
      .error (.execution .rollbackNotAuthorized
        "Compensating step cannot be the failed step itself")
    else checkCompensating plan failedStepId ids

/-- What the plan itself says: `assertCanRollback` after the limit has been checked. -/
def authorizedRollback (X : External) (plan : ExecutionPlan) (failedStepId : String) :
    Except JsError RollbackPlan :=
  match plan.steps.find? (·.stepId = failedStepId) with
  | none => .error (.execution .rollbackNotAuthorized s!"Unknown failed step {failedStepId}")
  | some step =>
    match extractAuthorizedRollback X step with
    | .error e => .error e
    | .ok none =>
      .error (.execution .rollbackNotAuthorized
        s!"No authorized compensating rollback for step {failedStepId}")
    | .ok (some rollback) =>
      match checkCompensating plan failedStepId rollback.compensatingStepIds with
      | .error e => .error e
      | .ok () => .ok rollback

def limitExceeded : JsError :=
  .execution .rollbackLimitExceeded
    s!"Automatic rollback limit of {MAX_AUTOMATIC_ROLLBACKS} exceeded"

/-- `assertCanRollback`, with the service's count of automatic rollbacks. -/
def assertCanRollback (X : External) (automaticRollbacks : ℕ) (plan : ExecutionPlan)
    (failedStepId : String) : Except JsError RollbackPlan :=
  if automaticRollbacks ≥ MAX_AUTOMATIC_ROLLBACKS then .error limitExceeded
  else authorizedRollback X plan failedStepId

/-- Steps named as compensating by some step and listed in no workstream: they run only as part
of a rollback. -/
def compensatingOnlyStepIds (plan : ExecutionPlan) : List String :=
  plan.steps.flatMap fun step =>
    (step.rollback.compensatingStepIds.getD []).filter fun id => id ∉ plan.workstreams.flatten

/-- A service that has recorded no rollback answers with what the plan says. -/
@[simp] theorem assertCanRollback_zero (X : External) (plan : ExecutionPlan) (id : String) :
    assertCanRollback X 0 plan id = authorizedRollback X plan id := rfl

/-- Once a rollback has been recorded, the gate refuses whatever the plan says. -/
theorem assertCanRollback_pos (X : External) {n : ℕ} (hn : n ≠ 0) (plan : ExecutionPlan)
    (id : String) : assertCanRollback X n plan id = .error limitExceeded :=
  if_pos (Nat.one_le_iff_ne_zero.mpr hn)

/-- What the plan says never is that the limit is exceeded. -/
theorem authorizedRollback_ne_limitExceeded (X : External) (plan : ExecutionPlan) (id : String) :
    authorizedRollback X plan id ≠ .error limitExceeded := by
  have hcheck : ∀ ids, checkCompensating plan id ids ≠ .error limitExceeded := by
    intro ids
    induction ids with
    | nil => simp [checkCompensating]
    | cons i ids ih =>
      rw [checkCompensating]
      split
      · simp [limitExceeded]
      · split
        · simp [limitExceeded]
        · exact ih
  have hextract : ∀ step, extractAuthorizedRollback X step ≠ .error limitExceeded := by
    intro step
    rw [extractAuthorizedRollback]
    split_ifs
    · simp
    · split
      · simp
      · simp
      · next compensating _ =>
        rw [parseRollbackPlan, External.parse]
        split_ifs <;> simp [External.zodError, limitExceeded]
  rw [authorizedRollback]
  split
  · simp [limitExceeded]
  · next step _ =>
    have hne := hextract step
    split
    · next e he =>
      rw [he] at hne
      simpa using hne
    · simp [limitExceeded]
    · next rollback _ =>
      have hne' := hcheck rollback.compensatingStepIds
      split
      · next e he =>
        rw [he] at hne'
        simpa using hne'
      · simp

end RollbackService

end Orchestrator
