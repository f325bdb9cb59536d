import Orchestrator.Programs.World

/-!
# Proofs of root criteria

A root criterion is proven by a child that is bound to satisfy it, when the child's run completed
and the verification of its outcome found the same text satisfied.

* `ProgramEvidence`, the records that a proof reads;
* `binderVerdict`, what one bound child shows;
* `proveRootCriterion`, what all of them show together.
-/

namespace Orchestrator

open Collections

/-- The records read for the children of a plan. -/
structure ProgramEvidence where
  lineage : List ProgramLineageRecord
  runsById : JsMap String (Option RunRecord)
  completionsByRunId : JsMap String (Option RunCompletionRecord)
  outcomesById : JsMap String (Option OutcomeVerificationRecord)

/-- What one bound child shows of a root criterion. -/
inductive BinderVerdict where
  | proven (evidenceRefs : List String)
  | requiredFailure
  | optionalFailure
  | missingEvidence
  | falseContribution
  deriving DecidableEq, Repr

inductive UnprovenOutcome where
  | inconclusive
  | programFailed
  | notProven
  deriving DecidableEq, Repr

/-- A `CriterionProofResult`. -/
inductive CriterionProofResult where
  | satisfied (evidenceRefs : List String)
  | unsatisfied (outcome : UnprovenOutcome) (reasonCode message : String)
  deriving DecidableEq, Repr

/-- The binding of a node that satisfies the root criterion, if it has one. -/
def ChildProgramNode.satisfiesBinding (n : ChildProgramNode) (rootCriterionIndex : ℕ) :
    Option ProgramCriterionContributionBinding :=
  n.criterionBindings.find? fun b =>
    b.rootCriterionIndex = rootCriterionIndex && b.contributionKind = .satisfies

/-- The nodes that are bound to satisfy the root criterion, each with its binding. -/
def bindersOf (nodes : List ChildProgramNode) (rootCriterionIndex : ℕ) :
    List (ChildProgramNode × ProgramCriterionContributionBinding) :=
  nodes.filterMap fun n => (n.satisfiesBinding rootCriterionIndex).map fun b => (n, b)

/-- The run of a node's child, by the first lineage record of the node. -/
def childRunOf (lineage : List ProgramLineageRecord) (nodeId : String) : Option String :=
  ((lineage.find? fun l => l.nodeId = nodeId).bind (·.childRunId)).filter (· ≠ "")

/-- What a completed child shows: the verification that its completion record points to. -/
def completedVerdict (evidence : ProgramEvidence) (rootText : String) (node : ChildProgramNode)
    (binding : ProgramCriterionContributionBinding) (runId : String) : BinderVerdict :=
  match (evidence.completionsByRunId.get runId).join with
  | none => .missingEvidence
  | some completion =>
    match (evidence.outcomesById.get completion.outcomeVerificationId).join with
    | none => .missingEvidence
    | some outcome =>
      if !outcome.verifiedSuccess then .missingEvidence
      else
        match outcome.criterionResults[binding.childCriterionIndex]? with
        | none => .missingEvidence
        | some childResult =>
          if childResult.criterionText ≠ rootText ∨ childResult.verdict ≠ .satisfied then
            .falseContribution
          else if binding.evidenceRequirement = .completionAndVerification ∧
              completion.outcomeVerificationId = "" then .missingEvidence
          else .proven [
            s!"completion:{completion.completionRecordId}",
            s!"outcomeVerification:{outcome.outcomeVerificationId}",
            s!"childCriterion:{node.nodeId}:{binding.childCriterionIndex}",
            s!"childCriterionVerdict:{childResult.verdict.text}"]

/-- The ladder of checks for one bound child. -/
def binderVerdict (evidence : ProgramEvidence) (rootText : String)
    (binder : ChildProgramNode × ProgramCriterionContributionBinding) : BinderVerdict :=
  let (node, binding) := binder
  if node.acceptanceCriteria[binding.childCriterionIndex]? ≠ some rootText then .falseContribution
  else
    match childRunOf evidence.lineage node.nodeId with
    | none => .missingEvidence
    | some runId =>
      match (evidence.runsById.get runId).join with
      | none => .missingEvidence
      | some run =>
        if run.state = .failed ∨ run.state = .contained ∨ run.state = .cancelled then
          if node.requirement = .required then .requiredFailure else .optionalFailure
        else if run.state ≠ .completed then .missingEvidence
        else completedVerdict evidence rootText node binding runId

/-- The evidence of a verdict. -/
def BinderVerdict.evidenceRefs : BinderVerdict → List String
  | .proven refs => refs
  | _ => []

/-- What the verdicts on all bound children come to. -/
def concludeCriterion (rootCriterionIndex : ℕ) (verdicts : List BinderVerdict) :
    CriterionProofResult :=
  let evidenceRefs := verdicts.flatMap (·.evidenceRefs)
  if 0 < evidenceRefs.length then .satisfied evidenceRefs
  else if verdicts.contains .requiredFailure then
    .unsatisfied .programFailed "REQUIRED_CHILD_FAILED"
      s!"Required contribution failed for criterion {rootCriterionIndex}"
  else if verdicts.contains .falseContribution && !verdicts.contains .missingEvidence then
    .unsatisfied .notProven "FALSE_CONTRIBUTION_BINDING"
      s!"Contribution binding does not prove root criterion {rootCriterionIndex}"
  else
    .unsatisfied .inconclusive "MISSING_CONTRIBUTION_EVIDENCE"
      s!"Missing durable evidence for root criterion {rootCriterionIndex}"

def proveRootCriterion (program : Program) (plan : ProgramPlan) (rootCriterionIndex : ℕ)
    (evidence : ProgramEvidence) : CriterionProofResult :=
  match program.rootIntent.acceptanceCriteria[rootCriterionIndex]? with
  | none =>
    .unsatisfied .inconclusive "ROOT_CRITERION_MISSING"
      s!"Root criterion {rootCriterionIndex} missing"
  | some rootText =>
    let binders := bindersOf plan.nodes rootCriterionIndex
    if binders.length = 0 then
      .unsatisfied .inconclusive "NO_SATISFIES_BINDING"
        s!"No SATISFIES binding for root criterion {rootCriterionIndex}"
    else concludeCriterion rootCriterionIndex (binders.map (binderVerdict evidence rootText))

end Orchestrator
