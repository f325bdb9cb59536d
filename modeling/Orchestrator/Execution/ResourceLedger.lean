import Orchestrator.Domain.Execution

/-!
# The execution resource ledger

`ExecutionResourceLedger`: what an attempt has used of its budget, and the runtime it has
reserved and not yet settled. Durations are exact rationals of milliseconds.

Settling and recording change the usage first and check the ceilings afterwards, so a call
that throws has still been recorded.
-/

namespace Orchestrator

structure ExecutionResourceUsage where
  apiCalls : ℕ
  durationMs : ℚ
  reservedDurationMs : ℚ
  testExecutions : ℕ
  taskCreations : ℕ
  artifactBytes : ℕ
  stepsExecuted : ℕ
  deriving DecidableEq, Repr

structure ExecutionResourceLedger where
  budget : ResourceBudgetProfile
  usage : ExecutionResourceUsage
  deriving DecidableEq, Repr

/-- What a step adds to the usage when it is recorded. -/
structure StepUsage where
  testExecutions : ℕ
  taskCreations : ℕ
  artifactBytes : ℕ
  stepsExecuted : ℕ
  deriving DecidableEq, Repr

namespace ExecutionResourceLedger

/-- `ExecutionResourceLedger.create`. -/
def create (budget : ResourceBudgetProfile) : ExecutionResourceLedger where
  budget := budget
  usage := ⟨0, 0, 0, 0, 0, 0, 0⟩

variable (X : External) (l : ExecutionResourceLedger)

def ceilingDurationMs : ℚ := l.budget.maximumExecutionMinutes * 60000

def remainingExecutionMs : ℚ :=
  max 0 (l.ceilingDurationMs - l.usage.durationMs - l.usage.reservedDurationMs)

def allowedRuntimeMs (capabilityMaximumRuntimeSeconds : ℕ)
    (testProfileTimeoutSeconds : Option ℕ) : ℚ :=
  let bound := min (capabilityMaximumRuntimeSeconds * 1000 : ℚ) l.remainingExecutionMs
  max 0 (match testProfileTimeoutSeconds with
    | none => bound
    | some seconds => min bound (seconds * 1000))

def budgetExceeded (message : String) : JsError :=
  .execution .executionResourceBudgetExceeded message

def assertDiscreteBudgetAvailable (stepsExecuted apiCalls : ℕ) : Except JsError Unit :=
  if l.usage.stepsExecuted + stepsExecuted > l.budget.maximumPlanSteps then
    .error (budgetExceeded s!"Executed steps would exceed ceiling of {l.budget.maximumPlanSteps}")
  else if ((l.usage.apiCalls + apiCalls : ℕ) : ℚ) > l.budget.maximumApiCalls then
    .error (budgetExceeded
      s!"API calls would exceed ceiling of {X.numberToString l.budget.maximumApiCalls}")
  else .ok ()

/-- No ceiling is exceeded by what has been used and reserved. -/
def WithinBudget : Prop :=
  l.usage.durationMs + l.usage.reservedDurationMs ≤ l.ceilingDurationMs ∧
    (l.usage.apiCalls : ℚ) ≤ l.budget.maximumApiCalls ∧
    l.usage.stepsExecuted ≤ l.budget.maximumPlanSteps

instance : Decidable l.WithinBudget := by unfold WithinBudget; infer_instance

def assertWithinBudget : Except JsError Unit :=
  if l.usage.durationMs + l.usage.reservedDurationMs > l.ceilingDurationMs then
    .error (budgetExceeded s!"Execution duration exceeds ceiling of {
      X.numberToString l.budget.maximumExecutionMinutes} minutes")
  else if (l.usage.apiCalls : ℚ) > l.budget.maximumApiCalls then
    .error (budgetExceeded
      s!"API calls exceed ceiling of {X.numberToString l.budget.maximumApiCalls}")
  else if l.usage.stepsExecuted > l.budget.maximumPlanSteps then
    .error (budgetExceeded s!"Executed steps exceed ceiling of {l.budget.maximumPlanSteps}")
  else .ok ()

/-- The usage with `ms` more reserved, and the reservation never below zero. -/
def addReserved (ms : ℚ) : ExecutionResourceLedger :=
  { l with usage := { l.usage with reservedDurationMs := l.usage.reservedDurationMs + ms } }

def releaseReservation (reservedMs : ℚ) : ExecutionResourceLedger :=
  { l with usage :=
    { l.usage with reservedDurationMs := max 0 (l.usage.reservedDurationMs - reservedMs) } }

def reserveDurationMs (ms : ℚ) : Except JsError Unit × ExecutionResourceLedger :=
  if ms ≤ 0 then
    (.error (budgetExceeded
      "Insufficient execution time remains to safely start this operation"), l)
  else if ms > l.remainingExecutionMs then
    (.error (budgetExceeded s!"Insufficient execution time remains (need {
      X.numberToString ms}ms, have {X.numberToString l.remainingExecutionMs}ms)"), l)
  else (.ok (), l.addReserved ms)

/-- The ledger after a settlement, before the ceilings are checked. -/
def settled (reservedMs actualMs : ℚ) : ExecutionResourceLedger :=
  { l with usage :=
    { l.usage with
      reservedDurationMs := max 0 (l.usage.reservedDurationMs - reservedMs)
      durationMs := l.usage.durationMs + max 0 actualMs } }

def settleReservedDuration (reservedMs actualMs : ℚ) :
    Except JsError Unit × ExecutionResourceLedger :=
  ((l.settled reservedMs actualMs).assertWithinBudget X, l.settled reservedMs actualMs)

/-- The ledger after a step is recorded, before the ceilings are checked. -/
def recorded (delta : StepUsage) : ExecutionResourceLedger :=
  { l with usage :=
    { l.usage with
      testExecutions := l.usage.testExecutions + delta.testExecutions
      taskCreations := l.usage.taskCreations + delta.taskCreations
      artifactBytes := l.usage.artifactBytes + delta.artifactBytes
      stepsExecuted := l.usage.stepsExecuted + delta.stepsExecuted } }

def recordStep (delta : StepUsage) : Except JsError Unit × ExecutionResourceLedger :=
  ((l.recorded delta).assertWithinBudget X, l.recorded delta)

/-! ## When the checks pass -/

variable {X l}

/-- The check passes exactly within the budget, and throws a budget error otherwise. -/
theorem assertWithinBudget_cases (X : External) (l : ExecutionResourceLedger) :
    (l.WithinBudget ∧ l.assertWithinBudget X = .ok ()) ∨
      (¬l.WithinBudget ∧ ∃ m, l.assertWithinBudget X = .error (budgetExceeded m)) := by
  simp only [assertWithinBudget, WithinBudget]
  split_ifs with h₁ h₂ h₃
  · exact .inr ⟨fun h => absurd h.1 (not_le.mpr h₁), _, rfl⟩
  · exact .inr ⟨fun h => absurd h.2.1 (not_le.mpr h₂), _, rfl⟩
  · exact .inr ⟨fun h => absurd h.2.2 (not_le.mpr h₃), _, rfl⟩
  · exact .inl ⟨⟨not_lt.mp h₁, not_lt.mp h₂, not_lt.mp h₃⟩, rfl⟩

theorem assertDiscreteBudgetAvailable_ok {steps apis : ℕ}
    (h : l.assertDiscreteBudgetAvailable X steps apis = .ok ()) :
    l.usage.stepsExecuted + steps ≤ l.budget.maximumPlanSteps ∧
      ((l.usage.apiCalls + apis : ℕ) : ℚ) ≤ l.budget.maximumApiCalls := by
  simp only [assertDiscreteBudgetAvailable] at h
  split_ifs at h with h₁ h₂
  exact ⟨not_lt.mp h₁, not_lt.mp h₂⟩

end ExecutionResourceLedger

end Orchestrator
