import Orchestrator.Atomic.Throws
import Orchestrator.Programs.Service

/-!
# The calls of the program service

Which calls each part of the service makes, and which stores a call leaves alone.

* `ProgramOp.Reads`, the calls that change nothing, and the parts that only read;
* `transition_only`, `requireProgram_reads`, ...: the calls of the common steps.
-/

namespace Orchestrator

open Atomic Collections ProgramService

/-- The calls that change nothing. -/
def ProgramOp.Reads : ProgramOp → Prop
  | .nowIso | .randomUUID | .resolve .. | .authorizedRepositoryIdentities _ => True
  | .isProgramMaterializer .. | .proposeDecomposition .. | .generateNonce => True
  | .getRun _ | .getRunCompletion _ | .getOutcome _ => True
  | .getProgram _ | .getProgramByKey _ | .getLatestPlan _ => True
  | .budget (.getLedger _) | .budget (.getReservation _) => True
  | .getLineage _ | .listLineageByPlan .. => True
  | .getApproval _ | .getPendingApproval _ | .getCompletion _ => True
  | _ => False

variable {X : ProgramExternal} {deps : ProgramDeps}

theorem orchestration_reads {o : ProgramOp} (h : o.Reads) (w : ProgramWorld) :
    (orchestration X o w).2 = w := by
  cases o with
  | budget o =>
    cases o with
    | getLedger ownerId => rfl
    | getReservation reservationId => rfl
    | createLedger ledger => exact h.elim
    | saveLedgerCas ledger expectedRevision => exact h.elim
    | saveReservation reservation => exact h.elim
  | takeNonce approvalId => exact h.elim
  | putNonce approvalId plaintext => exact h.elim
  | admitObjective request => exact h.elim
  | registerDependency input => exact h.elim
  | createProgram program => exact h.elim
  | saveProgram program expectedRevision => exact h.elim
  | transitionProgram programId expected expectedRevision next updatedAt extras => exact h.elim
  | savePlan plan => exact h.elim
  | saveLineage record => exact h.elim
  | saveApproval approval => exact h.elim
  | saveCompletion record => exact h.elim
  | _ => rfl

namespace ProgramService

variable {C : ProgramOp → Prop}

theorem only_call {o : ProgramOp} (h : C o) : (call o).Only C := Async.only_await h

section Reads

variable (hreads : ∀ o : ProgramOp, o.Reads → C o)
include hreads

theorem requireProgram_only (programId : String) : (requireProgram programId).Only C := by
  refine (only_call (hreads _ (by trivial))).bind fun found => ?_
  cases (found : Option Program) with
  | none => exact Async.only_throw _
  | some program => exact Async.only_pure _

theorem requireLatestPlan_only (program : Program) : (requireLatestPlan X program).Only C := by
  refine (only_call (hreads _ (by trivial))).bind fun found => ?_
  cases (found : Option ProgramPlan) with
  | none => exact Async.only_throw _
  | some plan => exact (Async.only_ofExcept _).bind fun _ => Async.only_pure _

theorem recheckAuthorityFreeze_only (program : Program) (nodes : List ChildProgramNode) :
    (recheckAuthorityFreeze X deps program nodes).Only C := by
  refine (only_call (hreads _ (by trivial))).bind fun context => ?_
  refine (Async.only_ofExcept _).bind fun _ => ?_
  refine .ite (Async.only_pure _) (.ite (Async.only_throw _) ?_)
  exact (only_call (hreads _ (by trivial))).bind fun _ => Async.only_ofExcept _

theorem findApprovedMaterialization_only (program : Program) :
    (findApprovedMaterialization program).Only C := by
  refine (only_call (hreads _ (by trivial))).bind fun plan => ?_
  cases (plan : Option ProgramPlan) with
  | none => exact Async.only_pure _
  | some plan => exact (only_call (hreads _ (by trivial))).bind fun _ => Async.only_pure _

theorem transition_only {program : Program} {next : ProgramState} {extras : ProgramExtras}
    (hmove : ∀ now, C (.transitionProgram program.programId program.status
      program.recordRevision next now extras)) : (transition program next extras).Only C := by
  refine .ite (Async.only_throw _) ?_
  exact (only_call (hreads _ (by trivial))).bind fun now => only_call (hmove now)

theorem gatherChild_only (evidence : ProgramEvidence) (link : ProgramLineageRecord) :
    (gatherChild deps evidence link).Only C := by
  unfold gatherChild
  cases link.childRunId.filter (· ≠ "") with
  | none => exact Async.only_pure _
  | some runId =>
    refine Async.Only.bind ?_ fun evidence => ?_
    · refine .ite (Async.only_pure _) ?_
      exact (only_call (hreads _ (by trivial))).bind fun _ => Async.only_pure _
    · refine .ite (Async.only_pure _) ?_
      refine (only_call (hreads _ (by trivial))).bind fun completion => ?_
      cases (completion : Option RunCompletionRecord) with
      | none => exact Async.only_pure _
      | some completion =>
        refine .ite (Async.only_pure _) ?_
        exact (only_call (hreads _ (by trivial))).bind fun _ => Async.only_pure _

theorem gatherEvidence_only (evidence : ProgramEvidence) (links : List ProgramLineageRecord) :
    (gatherEvidence deps evidence links).Only C := by
  induction links generalizing evidence with
  | nil => exact Async.only_pure _
  | cons link links ih =>
    exact (gatherChild_only hreads evidence link).bind fun evidence => ih evidence

end Reads

/-! ## Materialization -/

section Materialize

variable (hreads : ∀ o : ProgramOp, o.Reads → C o) (hbudget : ∀ o, C (.budget o))
include hreads hbudget

theorem reserveNodeBudget_only (program : Program) (plan : ProgramPlan) (nodeId : String)
    (amount : BudgetResourceEstimate) :
    (reserveNodeBudget X program plan nodeId amount).Only C := by
  refine Async.Only.bind (only_call (hbudget _)) fun existing => .ite (Async.only_pure _) ?_
  refine Async.Only.bind (only_call (hbudget _)) fun ledger => ?_
  cases (ledger : Option BudgetLedger) with
  | none => exact Async.only_throw _
  | some ledger =>
    refine .ite (Async.only_throw _) ?_
    refine Async.Only.bind (only_call (hreads _ (by trivial))) fun now => ?_
    refine Async.Only.bind (only_call (hbudget _)) fun _ => ?_
    exact Async.Only.bind (only_call (hbudget _)) fun _ => Async.only_pure _

theorem materializeNode_only (hlineage : ∀ record, C (.saveLineage record)) (program : Program)
    (plan : ProgramPlan) (node : ChildProgramNode)
    (hsubmit : ∀ now, C (.admitObjective (childRequest X program plan node now))) :
    (materializeNode X program plan node).Only C := by
  refine Async.Only.bind (only_call (hreads _ (by trivial))) fun found => ?_
  cases (found : Option ProgramLineageRecord).filter (·.materializationStatus.isDone) with
  | some existing => exact Async.only_pure _
  | none =>
    refine Async.Only.bind (reserveNodeBudget_only hreads hbudget _ _ _ _) fun _ => ?_
    refine Async.Only.bind (only_call (hreads _ (by trivial))) fun now => ?_
    exact Async.Only.bind (only_call (hsubmit now)) fun _ => only_call (hlineage _)

theorem materializeNodes_only (hlineage : ∀ record, C (.saveLineage record)) (program : Program)
    (plan : ProgramPlan) (nodes : List ChildProgramNode)
    (hsubmit : ∀ node ∈ nodes, ∀ now, C (.admitObjective (childRequest X program plan node now))) :
    (materializeNodes X program plan nodes).Only C := by
  induction nodes with
  | nil => exact Async.only_pure _
  | cons node nodes ih =>
    refine Async.Only.bind (materializeNode_only hreads hbudget hlineage program plan node
      (hsubmit node (by simp))) fun record => ?_
    exact Async.Only.bind (ih fun n hn => hsubmit n (by simp [hn])) fun _ => Async.only_pure _

omit hreads hbudget in
theorem compileDependencies_only (hdependency : ∀ input, C (.registerDependency input))
    (program : Program) (plan : ProgramPlan) (lineage : List ProgramLineageRecord) :
    (compileDependencies deps program plan lineage).Only C := by
  refine .ite (Async.only_pure _) ?_
  induction plan.edges with
  | nil => exact Async.only_pure _
  | cons edge edges ih =>
    refine Async.Only.bind ?_ fun _ => ih
    unfold compileDependency
    split
    · refine Async.Only.tryCatch ?_ fun _ => Async.only_pure _
      exact Async.Only.bind (only_call (hdependency _)) fun _ => Async.only_pure _
    · exact Async.only_pure _

/-- The calls of `materializeNext` once the plan is approved. -/
theorem materializePlan_only (hlineage : ∀ record, C (.saveLineage record))
    (hdependency : ∀ input, C (.registerDependency input))
    (hmove : ∀ id s revision next now extras, C (.transitionProgram id s revision next now extras))
    (programId : String) (program : Program) (plan : ProgramPlan)
    (hsubmit : ∀ node ∈ plan.nodes, ∀ now,
      C (.admitObjective (childRequest X program plan node now))) :
    (materializePlan X deps programId program plan).Only C := by
  refine Async.Only.bind (recheckAuthorityFreeze_only hreads _ _) fun _ => ?_
  refine .ite (Async.only_throw _) ?_
  refine Async.Only.bind (materializeNodes_only hreads hbudget hlineage program plan plan.nodes
    hsubmit) fun materialized => ?_
  refine Async.Only.bind (compileDependencies_only hdependency _ _ _) fun _ => ?_
  refine Async.Only.bind (requireProgram_only hreads _) fun live => ?_
  refine .ite ?_ (Async.only_pure _)
  refine Async.Only.bind (transition_only hreads fun now => hmove _ _ _ _ _ _) fun _ => ?_
  exact Async.only_pure _

end Materialize

end ProgramService

end Orchestrator
