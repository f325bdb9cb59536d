import Orchestrator.Domain.Errors

/-!
# Runs

The states of a run, the legal transitions between them (`RUN_TRANSITIONS`), the run record, and
the verdicts on its acceptance criteria.
-/

namespace Orchestrator

inductive RunState where
  | received
  | admitted
  | ingesting
  | planning
  | validating
  | awaitingApproval
  | approved
  | executing
  | verifying
  | completed
  | admissionRejected
  | blocked
  | revising
  | escalated
  | rejected
  | expired
  | superseded
  | failed
  | contained
  | rollbackRequired
  | cancelled
  deriving DecidableEq, Repr

namespace RunState

/-- The state's name in the source. -/
def text : RunState → String
  | .received => "RECEIVED"
  | .admitted => "ADMITTED"
  | .ingesting => "INGESTING"
  | .planning => "PLANNING"
  | .validating => "VALIDATING"
  | .awaitingApproval => "AWAITING_APPROVAL"
  | .approved => "APPROVED"
  | .executing => "EXECUTING"
  | .verifying => "VERIFYING"
  | .completed => "COMPLETED"
  | .admissionRejected => "ADMISSION_REJECTED"
  | .blocked => "BLOCKED"
  | .revising => "REVISING"
  | .escalated => "ESCALATED"
  | .rejected => "REJECTED"
  | .expired => "EXPIRED"
  | .superseded => "SUPERSEDED"
  | .failed => "FAILED"
  | .contained => "CONTAINED"
  | .rollbackRequired => "ROLLBACK_REQUIRED"
  | .cancelled => "CANCELLED"

/-- `RUN_TRANSITIONS`: anything not listed is illegal. -/
def transitions : RunState → List RunState
  | .received => [.admitted, .admissionRejected, .expired, .cancelled]
  | .admitted => [.ingesting, .blocked, .expired, .cancelled, .superseded]
  | .ingesting => [.planning, .blocked, .failed, .expired, .cancelled, .superseded]
  | .planning => [.validating, .blocked, .failed, .expired, .cancelled, .superseded]
  | .validating =>
    [.awaitingApproval, .blocked, .revising, .rejected, .failed, .expired, .cancelled]
  | .awaitingApproval =>
    [.approved, .rejected, .revising, .escalated, .expired, .cancelled, .superseded]
  | .approved => [.executing, .cancelled, .expired, .superseded, .blocked]
  | .executing =>
    [.verifying, .failed, .blocked, .contained, .rollbackRequired, .cancelled, .escalated]
  | .verifying => [.completed, .failed, .rollbackRequired, .contained, .escalated, .blocked]
  | .completed => []
  | .admissionRejected => []
  | .blocked => [.revising, .escalated, .rejected, .cancelled, .expired, .superseded]
  | .revising =>
    [.planning, .validating, .blocked, .rejected, .cancelled, .expired, .superseded]
  | .escalated =>
    [.awaitingApproval, .revising, .rejected, .cancelled, .expired, .superseded, .contained]
  | .rejected => []
  | .expired => []
  | .superseded => []
  | .failed => [.rollbackRequired, .contained]
  | .contained => []
  | .rollbackRequired => [.failed, .contained, .cancelled, .escalated]
  | .cancelled => []

end RunState

/-- `assertTransition`: an illegal transition throws `IllegalRunTransitionError`. -/
def assertTransition (current requested : RunState) : Except JsError Unit :=
  if requested ∈ current.transitions then .ok ()
  else .error (.error s!"Illegal run-state transition: {current.text} → {requested.text}")

/-- The part of a `RunRecord` that execution reads. -/
structure RunRecord where
  runId : String
  projectId : String
  requestedEnvironment : String
  state : RunState
  recordRevision : ℕ
  updatedAt : ℕ
  deriving DecidableEq, Repr

/-! ## Verdicts on criteria -/

inductive CriterionVerdict where
  | satisfied
  | partiallySatisfied
  | unsatisfied
  | inconclusive
  deriving DecidableEq, Repr

def CriterionVerdict.text : CriterionVerdict → String
  | .satisfied => "SATISFIED"
  | .partiallySatisfied => "PARTIALLY_SATISFIED"
  | .unsatisfied => "UNSATISFIED"
  | .inconclusive => "INCONCLUSIVE"

end Orchestrator
