import Orchestrator.Domain.Run
import Orchestrator.Graph.Reachability
import Orchestrator.Programs.World

/-!
# The verdict on a run's dependencies

`areDependenciesSatisfied`, the milestones of prerequisite runs that it looks at, and the states
of a run from which a milestone can still be reached.

* `milestoneSatisfied`, `areDependenciesSatisfied`: what the scheduler computes;
* `Attainable`: the milestone of a dependency holds, or a path of `RUN_TRANSITIONS` leads to it;
* `Exact`: a verdict that says which dependencies hold and whether one is out of reach;
* `dependencies_exact_iff`: when the scheduler's verdict is exact in every order.
-/

namespace Orchestrator.Scheduling

open Graph

/-! ## What the scheduler reads -/

/-- The repositories and probes of the scheduler, at the time of a call. -/
structure SchedulerView where
  /-- `dependencies.listByDependentRun`. -/
  listByDependentRun : String → List CrossRunDependency
  /-- `runs.getById`. -/
  getById : String → Option RunRecord
  hasVerifiedRepository : String → Bool
  hasValidationPassOrApprovalRequired : String → Bool
  /-- There is a `completionRecord` of the run. -/
  completionRecord : String → Bool

inductive MilestoneStatus where
  | satisfied
  | pending
  | unsatisfiable
  deriving DecidableEq, Repr

structure DependencyAnswer where
  satisfied : Bool
  unsatisfiable : Bool
  deriving DecidableEq, Repr

/-- `milestoneSatisfied`. -/
def milestoneSatisfied (view : SchedulerView) (dep : CrossRunDependency) : MilestoneStatus :=
  match view.getById dep.prerequisiteRunId with
  | none => .unsatisfiable
  | some run =>
    match dep.requiredMilestone with
    | .repositoryVerified =>
      if view.hasVerifiedRepository run.runId then .satisfied
      else if run.state = .failed ∨ run.state = .cancelled ∨ run.state = .rejected ∨
          run.state = .contained then .unsatisfiable
      else .pending
    | .planValidated =>
      if view.hasValidationPassOrApprovalRequired run.runId then .satisfied
      else if run.state = .failed ∨ run.state = .cancelled ∨ run.state = .rejected then
        .unsatisfiable
      else .pending
    | .approved =>
      if run.state = .approved ∨ run.state = .executing ∨ run.state = .verifying ∨
          run.state = .completed then .satisfied
      else if run.state = .rejected ∨ run.state = .cancelled ∨ run.state = .failed ∨
          run.state = .contained then .unsatisfiable
      else .pending
    | .completed =>
      if run.state ≠ .completed then
        if run.state = .failed ∨ run.state = .cancelled ∨ run.state = .rejected ∨
            run.state = .contained then .unsatisfiable
        else .pending
      else if view.completionRecord run.runId then .satisfied
      else .pending

/-- The loop of `areDependenciesSatisfied`. -/
def dependencyLoop (view : SchedulerView) : List CrossRunDependency → Bool → DependencyAnswer
  | [], _ => ⟨true, false⟩
  | dep :: rest, unsatisfiable =>
    let ok := milestoneSatisfied view dep
    let unsatisfiable := if ok = .unsatisfiable then true else unsatisfiable
    if ok ≠ .satisfied then ⟨false, unsatisfiable⟩ else dependencyLoop view rest unsatisfiable

/-- `areDependenciesSatisfied`. -/
def areDependenciesSatisfied (view : SchedulerView) (dependentRunId : String) :
    DependencyAnswer :=
  let deps := view.listByDependentRun dependentRunId
  if deps.length = 0 then ⟨true, false⟩ else dependencyLoop view deps false

/-! ## Milestones -/

/-- The states in which a milestone comes about: ingestion verifies the repository of a run that
is `INGESTING`, validation decides on the plan of one that is `VALIDATING`. -/
def attainedIn : DependencyMilestone → List RunState
  | .repositoryVerified => [.ingesting]
  | .planValidated => [.validating]
  | .approved => [.approved, .executing, .verifying, .completed]
  | .completed => [.completed]

/-- A run has come to a milestone. -/
def HasMilestone (view : SchedulerView) (run : RunRecord) : DependencyMilestone → Prop
  | .repositoryVerified => view.hasVerifiedRepository run.runId
  | .planValidated => view.hasValidationPassOrApprovalRequired run.runId
  | .approved => run.state ∈ attainedIn .approved
  | .completed => run.state = .completed ∧ view.completionRecord run.runId

/-- The milestone that a dependency asks for holds of its prerequisite. -/
def Holds (view : SchedulerView) (dep : CrossRunDependency) : Prop :=
  ∃ run, view.getById dep.prerequisiteRunId = some run ∧ HasMilestone view run dep.requiredMilestone

/-- A path of `RUN_TRANSITIONS` leads from a state to a milestone. -/
def CanReach (milestone : DependencyMilestone) (state : RunState) : Prop :=
  ∃ target ∈ attainedIn milestone, Graph.Reaches RunState.transitions state target

/-- The prerequisite has come to the milestone, or a path leads there from its state. -/
def Attainable (view : SchedulerView) (dep : CrossRunDependency) : Prop :=
  ∃ run, view.getById dep.prerequisiteRunId = some run ∧
    (HasMilestone view run dep.requiredMilestone ∨ CanReach dep.requiredMilestone run.state)

/-- A verdict says whether each dependency holds, and whether one of them is out of reach. -/
def Exact (view : SchedulerView) (deps : List CrossRunDependency) (answer : DependencyAnswer) :
    Prop :=
  (answer.satisfied = true ↔ ∀ dep ∈ deps, Holds view dep) ∧
  (answer.unsatisfiable = true ↔ ∃ dep ∈ deps, ¬Attainable view dep)

/-! ## The states with a path to a milestone -/

/-- The states from which a run can still be validated. -/
def revivableStates : List RunState :=
  [.received, .admitted, .ingesting, .planning, .validating, .awaitingApproval, .approved,
    .executing, .verifying, .blocked, .revising, .escalated, .failed, .rollbackRequired]

/-- The states with a path to a milestone. -/
def sourceStates : DependencyMilestone → List RunState
  | .repositoryVerified => [.received, .admitted, .ingesting]
  | .planValidated => revivableStates
  | .approved => .completed :: revivableStates
  | .completed => .completed :: revivableStates

/-- How many transitions to a milestone a state is away. -/
def distance : DependencyMilestone → RunState → ℕ
  | .planValidated, .validating => 0
  | .planValidated, .planning => 1
  | .planValidated, .revising => 1
  | .planValidated, .awaitingApproval => 2
  | .planValidated, .blocked => 2
  | .planValidated, .escalated => 2
  | .planValidated, .ingesting => 2
  | .planValidated, .admitted => 3
  | .planValidated, .approved => 3
  | .planValidated, .executing => 3
  | .planValidated, .verifying => 3
  | .planValidated, .rollbackRequired => 3
  | _, .completed => 0
  | _, .verifying => 1
  | _, .executing => 2
  | _, .approved => 3
  | _, .awaitingApproval => 4
  | _, .validating => 5
  | _, .escalated => 5
  | _, .planning => 6
  | _, .revising => 6
  | _, .blocked => 6
  | _, .rollbackRequired => 6
  | _, .ingesting => 7
  | _, .failed => 7
  | _, .admitted => 8
  | _, _ => 9

theorem canReach_iff_mem (milestone : DependencyMilestone) (state : RunState) :
    CanReach milestone state ↔ state ∈ sourceStates milestone := by
  apply canReach_iff (distance milestone)
  · cases milestone <;> decide
  · intro v
    cases milestone <;> cases v <;> decide
  · cases milestone <;> decide

instance (milestone : DependencyMilestone) (state : RunState) :
    Decidable (CanReach milestone state) := decidable_of_iff _ (canReach_iff_mem _ _).symm

/-! ## What the scheduler reports -/

/-- The prerequisite is in a state that the scheduler takes for an end, or there is none. -/
def WrittenOff (view : SchedulerView) (dep : CrossRunDependency) : Prop :=
  ∀ run, view.getById dep.prerequisiteRunId = some run →
    run.state = .failed ∨ run.state = .cancelled ∨ run.state = .rejected ∨
      (run.state = .contained ∧ dep.requiredMilestone ≠ .planValidated)

/-- The prerequisite has failed. -/
def Failed (view : SchedulerView) (dep : CrossRunDependency) : Prop :=
  ∃ run, view.getById dep.prerequisiteRunId = some run ∧ run.state = .failed

section

variable {view : SchedulerView} {dep : CrossRunDependency}

theorem milestoneSatisfied_none (hnone : view.getById dep.prerequisiteRunId = none) :
    milestoneSatisfied view dep = .unsatisfiable := by
  unfold milestoneSatisfied
  rw [hnone]

theorem milestoneSatisfied_eq_satisfied :
    milestoneSatisfied view dep = .satisfied ↔ Holds view dep := by
  unfold Holds milestoneSatisfied
  cases hrun : view.getById dep.prerequisiteRunId with
  | none => simp
  | some run =>
    cases hmilestone : dep.requiredMilestone with
    | repositoryVerified =>
      by_cases hverified : view.hasVerifiedRepository run.runId = true
      · simp [HasMilestone, hverified]
      · simp only [HasMilestone, if_neg hverified]
        split <;> simp [hverified]
    | planValidated =>
      by_cases hvalidated : view.hasValidationPassOrApprovalRequired run.runId = true
      · simp [HasMilestone, hvalidated]
      · simp only [HasMilestone, if_neg hvalidated]
        split <;> simp [hvalidated]
    | approved =>
      by_cases happroved : run.state = .approved ∨ run.state = .executing ∨
          run.state = .verifying ∨ run.state = .completed
      · simp [HasMilestone, attainedIn, happroved]
      · simp only [HasMilestone, attainedIn, if_neg happroved]
        split <;> simpa using happroved
    | completed =>
      by_cases hcompleted : run.state = .completed
      · by_cases hrecord : view.completionRecord run.runId = true <;>
          simp [HasMilestone, hcompleted, hrecord]
      · simp only [HasMilestone, ne_eq, hcompleted, not_false_eq_true, if_true]
        split <;> simp [hcompleted]

/-- What does not hold is reported as unsatisfiable where it is written off. -/
theorem milestoneSatisfied_eq_unsatisfiable (hholds : ¬Holds view dep) :
    milestoneSatisfied view dep = .unsatisfiable ↔ WrittenOff view dep := by
  have hstatus := mt milestoneSatisfied_eq_satisfied.mp hholds
  unfold WrittenOff
  unfold milestoneSatisfied at hstatus ⊢
  cases hrun : view.getById dep.prerequisiteRunId with
  | none => simp
  | some run =>
    rw [hrun] at hstatus
    simp only [Option.some.injEq, forall_eq'] at hstatus ⊢
    generalize run.state = state at hstatus ⊢
    cases hmilestone : dep.requiredMilestone <;> simp only [hmilestone] at hstatus ⊢ <;>
      cases state <;> simp at hstatus ⊢ <;> simp_all

/-- From a state with a path to the milestone, only failure is taken for an end. -/
theorem writtenOff_states {milestone : DependencyMilestone} {state : RunState}
    (h : CanReach milestone state) :
    (state = .failed ∨ state = .cancelled ∨ state = .rejected ∨
      (state = .contained ∧ milestone ≠ .planValidated)) ↔ state = .failed := by
  rw [canReach_iff_mem] at h
  revert h
  cases milestone <;> cases state <;> decide

theorem Holds.attainable (h : Holds view dep) : Attainable view dep := by
  obtain ⟨run, hrun, hmilestone⟩ := h
  exact ⟨run, hrun, Or.inl hmilestone⟩

/-- Of what is within reach, the scheduler gives up what has failed. -/
theorem writtenOff_iff_failed (hattainable : Attainable view dep) (hholds : ¬Holds view dep) :
    WrittenOff view dep ↔ Failed view dep := by
  obtain ⟨run, hrun, hmilestone | hpath⟩ := hattainable
  · exact absurd ⟨run, hrun, hmilestone⟩ hholds
  · constructor
    · intro hwritten
      exact ⟨run, hrun, (writtenOff_states hpath).mp (hwritten run hrun)⟩
    · rintro ⟨run', hrun', hfailed⟩ run'' hrun''
      obtain rfl := Option.some.inj (hrun'.symm.trans hrun'')
      exact Or.inl hfailed

end

/-! ## The loop -/

section

variable (view : SchedulerView)

/-- The loop stops at the first dependency that does not hold. -/
theorem dependencyLoop_eq (deps : List CrossRunDependency) :
    dependencyLoop view deps false =
      match deps.find? fun dep => milestoneSatisfied view dep ≠ .satisfied with
      | none => ⟨true, false⟩
      | some dep => ⟨false, milestoneSatisfied view dep = .unsatisfiable⟩ := by
  induction deps with
  | nil => rfl
  | cons dep rest ih =>
    unfold dependencyLoop
    rw [List.find?_cons]
    by_cases hstatus : milestoneSatisfied view dep = .satisfied
    · simp only [hstatus, ne_eq, not_true_eq_false, decide_false, if_false]
      exact ih
    · simp [hstatus]

/-- The view in which the dependencies of a run come in some order. -/
def SchedulerView.listing (deps : List CrossRunDependency) : SchedulerView :=
  { view with listByDependentRun := fun _ => deps }

theorem areDependenciesSatisfied_eq (dependentRunId : String) :
    areDependenciesSatisfied view dependentRunId =
      dependencyLoop view (view.listByDependentRun dependentRunId) false := by
  unfold areDependenciesSatisfied
  cases view.listByDependentRun dependentRunId with
  | nil => rfl
  | cons dep rest => rfl

theorem dependencyLoop_listing (order deps : List CrossRunDependency) (unsatisfiable : Bool) :
    dependencyLoop (view.listing order) deps unsatisfiable =
      dependencyLoop view deps unsatisfiable := by
  induction deps generalizing unsatisfiable with
  | nil => rfl
  | cons dep rest ih =>
    have hstatus : milestoneSatisfied (view.listing order) dep = milestoneSatisfied view dep := rfl
    unfold dependencyLoop
    simp only [hstatus, ih]

theorem areDependenciesSatisfied_listing (deps : List CrossRunDependency)
    (dependentRunId : String) :
    areDependenciesSatisfied (view.listing deps) dependentRunId =
      dependencyLoop view deps false := by
  rw [areDependenciesSatisfied_eq, dependencyLoop_listing]
  rfl

/-! ## When the verdict is exact -/

/-- The dependencies that do not hold yet are all within reach and have not failed, or they are
all written off, and one of them is out of reach. -/
def Alike (deps : List CrossRunDependency) : Prop :=
  (∀ dep ∈ deps, ¬Holds view dep → Attainable view dep ∧ ¬Failed view dep) ∨
  ((∀ dep ∈ deps, ¬Holds view dep → WrittenOff view dep) ∧
    ∃ dep ∈ deps, ¬Attainable view dep)

variable {view}

/-- Where the dependencies are alike, the loop's verdict is exact. -/
theorem exact_of_alike {deps : List CrossRunDependency} (h : Alike view deps) :
    Exact view deps (dependencyLoop view deps false) := by
  rw [dependencyLoop_eq]
  cases hfind : deps.find? fun dep => milestoneSatisfied view dep ≠ .satisfied with
  | none =>
    have hall : ∀ dep ∈ deps, Holds view dep := by
      intro dep hdep
      have hstatus := List.find?_eq_none.mp hfind dep hdep
      exact milestoneSatisfied_eq_satisfied.mp (by simpa using hstatus)
    refine ⟨by simpa using hall, ?_⟩
    simp only [Bool.false_eq_true, false_iff, not_exists, not_and, not_not]
    exact fun dep hdep => (hall dep hdep).attainable
  | some dep =>
    have hdep : dep ∈ deps := List.mem_of_find?_eq_some hfind
    have hholds : ¬Holds view dep := by
      have hstatus := List.find?_some hfind
      rw [← milestoneSatisfied_eq_satisfied]
      simpa using hstatus
    refine ⟨?_, ?_⟩
    · simp only [Bool.false_eq_true, false_iff, not_forall]
      exact ⟨dep, hdep, hholds⟩
    · rw [decide_eq_true_eq, milestoneSatisfied_eq_unsatisfiable hholds]
      rcases h with hreach | ⟨hwritten, hdead⟩
      · -- nothing is written off, and nothing is out of reach
        obtain ⟨hattainable, hfailed⟩ := hreach dep hdep hholds
        rw [writtenOff_iff_failed hattainable hholds]
        refine iff_of_false hfailed ?_
        rintro ⟨dead, hmem, hdead⟩
        by_cases hdeadHolds : Holds view dead
        · exact hdead hdeadHolds.attainable
        · exact hdead (hreach dead hmem hdeadHolds).1
      · exact iff_of_true (hwritten dep hdep hholds) hdead

/-- A dependency that does not hold decides the verdict where it comes first. -/
theorem unsatisfiable_of_first {dep : CrossRunDependency} {rest : List CrossRunDependency}
    (hholds : ¬Holds view dep) :
    (dependencyLoop view (dep :: rest) false).unsatisfiable = true ↔ WrittenOff view dep := by
  have hstatus := mt milestoneSatisfied_eq_satisfied.mp hholds
  rw [dependencyLoop_eq, List.find?_cons]
  simp only [ne_eq, hstatus, not_false_eq_true, decide_true, decide_eq_true_eq]
  exact milestoneSatisfied_eq_unsatisfiable hholds

/-- Where the verdict is exact and the same in every order, the dependencies are alike. -/
theorem alike_of_exact {deps : List CrossRunDependency} {answer : DependencyAnswer}
    (hexact : Exact view deps answer)
    (hsame : ∀ order : List CrossRunDependency, order.Perm deps →
      dependencyLoop view order false = answer) : Alike view deps := by
  have hfirst : ∀ dep ∈ deps, ¬Holds view dep →
      (WrittenOff view dep ↔ ∃ dead ∈ deps, ¬Attainable view dead) := by
    intro dep hdep hholds
    obtain ⟨rest, hperm⟩ : ∃ rest, (dep :: rest).Perm deps := by
      classical
      exact ⟨deps.erase dep, (List.perm_cons_erase hdep).symm⟩
    have hflag : (dependencyLoop view (dep :: rest) false).unsatisfiable = true ↔
        WrittenOff view dep := unsatisfiable_of_first hholds
    rw [← hflag, hsame _ hperm]
    exact hexact.2
  by_cases hdead : ∃ dead ∈ deps, ¬Attainable view dead
  · exact Or.inr ⟨fun dep hdep hholds => (hfirst dep hdep hholds).mpr hdead, hdead⟩
  · refine Or.inl fun dep hdep hholds => ?_
    have hattainable : Attainable view dep := by
      by_contra hout
      exact hdead ⟨dep, hdep, hout⟩
    refine ⟨hattainable, ?_⟩
    rw [← writtenOff_iff_failed hattainable hholds, hfirst dep hdep hholds]
    exact hdead

end

/-- The verdict is exact, and the same in every order of the dependencies, where those that do
not hold are alike. -/
theorem dependencies_exact_iff (view : SchedulerView) (dependentRunId : String) :
    (Exact view (view.listByDependentRun dependentRunId)
        (areDependenciesSatisfied view dependentRunId) ∧
      ∀ deps : List CrossRunDependency, deps.Perm (view.listByDependentRun dependentRunId) →
        areDependenciesSatisfied (view.listing deps) dependentRunId =
          areDependenciesSatisfied view dependentRunId) ↔
    Alike view (view.listByDependentRun dependentRunId) := by
  simp only [areDependenciesSatisfied_listing]
  constructor
  · rintro ⟨hexact, hsame⟩
    exact alike_of_exact hexact hsame
  · intro halike
    have hexact := exact_of_alike halike
    rw [areDependenciesSatisfied_eq]
    refine ⟨hexact, fun deps hperm => ?_⟩
    have halike' : Alike view deps := by
      unfold Alike at halike ⊢
      simpa only [hperm.mem_iff] using halike
    have hexact' := exact_of_alike halike'
    unfold Exact at hexact hexact'
    simp only [hperm.mem_iff] at hexact'
    have hsatisfied := hexact'.1.trans hexact.1.symm
    have hunsatisfiable := hexact'.2.trans hexact.2.symm
    rw [DependencyAnswer.mk.injEq]
    exact ⟨Bool.eq_iff_iff.mpr hsatisfied, Bool.eq_iff_iff.mpr hunsatisfiable⟩

/-! ## Two prerequisites -/

/-- A run in a state. -/
def runIn (runId : String) (state : RunState) : RunRecord :=
  { runId, projectId := "p1", requestedEnvironment := "development", state, recordRevision := 1,
    updatedAt := 0 }

/-- `c` waits for a run to complete. -/
def waitsFor (prerequisiteRunId : String) : CrossRunDependency :=
  { dependencyId := "sdep_" ++ prerequisiteRunId, projectId := "p1", dependentRunId := "c",
    prerequisiteRunId, requiredMilestone := .completed, createdAt := 0, dependencyHash := "" }

/-- `c` waits for `a`, which is executing, and for `b`, which was cancelled. -/
def halfCancelled : SchedulerView :=
  { listByDependentRun := fun _ => [waitsFor "a", waitsFor "b"]
    getById := fun id =>
      if id = "a" then some (runIn "a" .executing)
      else if id = "b" then some (runIn "b" .cancelled)
      else none
    hasVerifiedRepository := fun _ => true
    hasValidationPassOrApprovalRequired := fun _ => true
    completionRecord := fun _ => false }

/-- The cancelled prerequisite is seen only where it comes first. -/
theorem cancelled_prerequisite_missed :
    ¬∀ (view : SchedulerView) (dependentRunId : String),
      Exact view (view.listByDependentRun dependentRunId)
          (areDependenciesSatisfied view dependentRunId) ∧
        ∀ deps : List CrossRunDependency, deps.Perm (view.listByDependentRun dependentRunId) →
          areDependenciesSatisfied (view.listing deps) dependentRunId =
            areDependenciesSatisfied view dependentRunId := by
  intro hclaim
  have hsame := (hclaim halfCancelled "c").2 [waitsFor "b", waitsFor "a"] (List.Perm.swap _ _ _)
  exact absurd hsame (by decide)

end Orchestrator.Scheduling
