import Orchestrator.Admission.Service

/-!
# Admission scenarios

Surroundings that let every request through, and requests for one objective of a given project,
environment and outcome.
-/

namespace Orchestrator

/-- The control plane resolves every project, and everyone is authorized. -/
def openSurroundings : AdmissionSurroundings where
  resolve projectId environment := .ok
    { projectId := projectId
      environment := environment
      policyBundleId := "policy_1"
      budgetProfileId := "budget_1"
      resolvedAt := 0 }
  authorize _ _ _ := .ok .authorized
  now := 0

/-- An empty world with these surroundings. -/
def openWorld : AdmissionWorld := .initial openSurroundings sequenceIdentity

/-- A request for version 1 of `objective_1`. -/
def exampleRequest (projectId environment outcome : String)
    (h : projectId ≠ "" ∧ environment ≠ "" ∧ outcome ≠ "") : AdmissionRequest where
  identity := ⟨projectId, "objective_1", 1, environment⟩
  content :=
    { requestedOutcome := outcome
      acceptanceCriteria := ["it works"]
      nonGoals := []
      constraints := []
      priority := .high
      deadline := none }
  requesterId := "requester_1"
  submittedAt := "2026-01-01T00:00:00Z"
  projectId_ne := h.1
  objectiveId_ne := by simp
  objectiveVersion_pos := Nat.one_pos
  requestedOutcome_ne := h.2.2
  acceptanceCriteria_ne := by simp
  requesterId_ne := by simp
  requestedEnvironment_ne := h.2.1

end Orchestrator
