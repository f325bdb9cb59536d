import Orchestrator.Atomic.Pool
import Orchestrator.Programs.Verification

/-!
# The dependencies of a plan

The edges of a plan are registered with the scheduler once its children are admitted; an edge that
the scheduler refuses is passed over.

* `DependenciesStored`: what an active program should have registered;
* `Registers`: a step that registers what it should, and keeps the lineage of children apart;
* `dependencies_stored`: in every run of such steps the active programs have their dependencies.
-/

namespace Orchestrator

open Atomic Collections ProgramService

/-! ## Statements -/

/-- The scheduler has the dependency of a run on another. -/
def DependencyStored (w : ProgramWorld) (dependentRunId prerequisiteRunId : String)
    (milestone : DependencyMilestone) : Prop :=
  ∃ d ∈ w.stores.dependencies.list, d.dependentRunId = dependentRunId ∧
    d.prerequisiteRunId = prerequisiteRunId ∧ d.requiredMilestone = milestone

instance (w : ProgramWorld) (r r' : String) (m : DependencyMilestone) :
    Decidable (DependencyStored w r r' m) := by
  unfold DependencyStored
  infer_instance

/-- The scheduler has the dependencies of the edges between children with runs. -/
def EdgesStored (w : ProgramWorld) (programId : String) (plan : ProgramPlan) : Prop :=
  ∀ edge ∈ plan.edges, ∀ r ∈ childRunOf (lineageOf w plan programId) edge.fromNodeId,
    ∀ r' ∈ childRunOf (lineageOf w plan programId) edge.toNodeId,
      DependencyStored w r' r edge.requiredMilestone

instance (w : ProgramWorld) (programId : String) (plan : ProgramPlan) :
    Decidable (EdgesStored w programId plan) := by
  unfold EdgesStored
  infer_instance

/-- While the program is active, the scheduler has the dependencies of its plan. -/
def DependenciesStored (w : ProgramWorld) (programId : String) : Prop :=
  ∀ program ∈ w.stores.programs.byId.getById programId, program.status = .active →
    ∀ plan ∈ w.stores.plans.getLatest programId, EdgesStored w programId plan

instance (w : ProgramWorld) (programId : String) : Decidable (DependenciesStored w programId) := by
  unfold DependenciesStored
  infer_instance

/-- No program is active. -/
def NoneActive (w : ProgramWorld) : Prop :=
  ∀ programId program, w.stores.programs.byId.getById programId = some program →
    program.status ≠ .active

instance (w : ProgramWorld) : Decidable (NoneActive w) :=
  decidable_of_iff (∀ p ∈ w.stores.programs.byId.list, p.status ≠ .active)
    ⟨fun h _ p hp => h p (Repository.mem_list_of_getById hp),
      fun h p hp => h _ p (Repository.mem_list.mp hp)⟩

/-- A lineage record has the id of its child. -/
def ProgramLineageRecord.Named (l : ProgramLineageRecord) : Prop :=
  l.lineageId = lineageIdFor l.programId l.programPlanVersion l.nodeId

instance (l : ProgramLineageRecord) : Decidable l.Named := inferInstanceAs (Decidable (_ = _))

/-- A record is of the same child as an earlier one, with the same run. -/
@[mk_iff]
structure SameChild (old new : ProgramLineageRecord) : Prop where
  programId : new.programId = old.programId
  programPlanVersion : new.programPlanVersion = old.programPlanVersion
  nodeId : new.nodeId = old.nodeId
  childRunId : new.childRunId = old.childRunId
  isDone : new.materializationStatus.isDone = true

instance (old new : ProgramLineageRecord) : Decidable (SameChild old new) :=
  decidable_of_iff _ (sameChild_iff old new).symm

/-- The scheduler accepts a dependency: it is in order, both runs are known and of the program's
project, no cycle arises, and no other dependency has the new one's id. -/
@[mk_iff]
structure Registrable (X : ProgramExternal) (w : ProgramWorld) (input : DependencyInput) : Prop where
  working : w.surroundings.schedulerFailure.isNone = true
  distinct : input.dependentRunId ≠ input.prerequisiteRunId
  dependent : (w.surroundings.runs input.dependentRunId).any (·.projectId = input.projectId) = true
  prerequisite :
    (w.surroundings.runs input.prerequisiteRunId).any (·.projectId = input.projectId) = true
  acyclic : detectDependencyCycle
    ((w.stores.dependencies.list.filter fun d => d.projectId = input.projectId).map
      (fun d => (d.dependentRunId, d.prerequisiteRunId)) ++
      [(input.dependentRunId, input.prerequisiteRunId)]) = false
  own : ∀ d ∈ w.stores.dependencies.getById
      (DependencyStore.newDependency X w.surroundings.now input).dependencyId,
    d.dependentRunId = input.dependentRunId ∧ d.prerequisiteRunId = input.prerequisiteRunId ∧
      d.requiredMilestone = input.requiredMilestone

instance (X : ProgramExternal) (w : ProgramWorld) (input : DependencyInput) :
    Decidable (Registrable X w input) :=
  decidable_of_iff _ (registrable_iff X w input).symm

/-- The stored records of a plan's nodes are their own. -/
def OwnRecords (w : ProgramWorld) (programId : String) : Prop :=
  ∀ plan ∈ w.stores.plans.getLatest programId, ∀ node ∈ plan.nodes,
    ∀ l ∈ w.stores.lineage.getById (lineageIdFor programId plan.programPlanVersion node.nodeId),
      l.programId = programId ∧ l.programPlanVersion = plan.programPlanVersion ∧
        l.nodeId = node.nodeId

/-- What a step should meet: a dependency is accepted, the record of a child that was admitted is
saved over with the same child and run, and a program becomes active over records of its own. -/
def Registers (X : ProgramExternal) (w : ProgramWorld) : ProgramOp → Prop
  | .registerDependency input => Registrable X w input
  | .saveLineage record => ∀ old ∈ w.stores.lineage.getById record.lineageId,
      old.materializationStatus.isDone = true → SameChild old record
  | .transitionProgram programId _ _ _ _ _ => OwnRecords w programId
  | _ => True

instance (X : ProgramExternal) (w : ProgramWorld) (o : ProgramOp) :
    Decidable (Registers X w o) := by
  apply ProgramOp.casesOn (motive := fun o => Decidable (Registers X w o)) o <;> intros <;>
    unfold Registers <;> (try unfold OwnRecords) <;> infer_instance

/-! ## Runs -/

/-- `materializeNext` on the programs, beside moves of the other services. -/
def materializationSystem (X : ProgramExternal) :
    System ProgramSig ProgramWorld ProgramSurroundings where
  handler := orchestration X
  env s w := { w with surroundings := s }

/-- The calls, before any is made. -/
def materializationPool {ι : Type} (X : ProgramExternal) (deps : ProgramDeps) (w₀ : ProgramWorld)
    (programIds : ι → String) :
    Pool ProgramSig ι ProgramWorld (Except ProgramFailure MaterializeResult) :=
  .init w₀ fun i => (materializeNext X deps (programIds i)).prog

/-! ## Moves -/

/-- How the calls move the state: plans stay, children that were admitted keep their runs, and
dependencies stay. -/
structure RunsKept (w w' : ProgramWorld) : Prop where
  plans : w'.stores.plans = w.stores.plans
  lineage : ∀ id l, w.stores.lineage.getById id = some l →
    l.materializationStatus.isDone = true →
      ∃ l', w'.stores.lineage.getById id = some l' ∧ SameChild l l'
  dependencies : ∀ r r' m, DependencyStored w r r' m → DependencyStored w' r r' m

theorem SameChild.refl {l : ProgramLineageRecord} (h : l.materializationStatus.isDone = true) :
    SameChild l l := ⟨rfl, rfl, rfl, rfl, h⟩

theorem SameChild.trans {l l' l'' : ProgramLineageRecord} (h : SameChild l l')
    (h' : SameChild l' l'') : SameChild l l'' :=
  ⟨h'.programId.trans h.programId, h'.programPlanVersion.trans h.programPlanVersion,
    h'.nodeId.trans h.nodeId, h'.childRunId.trans h.childRunId, h'.isDone⟩

theorem RunsKept.refl (w : ProgramWorld) : RunsKept w w :=
  ⟨rfl, fun _ l hl hdone => ⟨l, hl, .refl hdone⟩, fun _ _ _ h => h⟩

theorem RunsKept.trans {w w' w'' : ProgramWorld} (h : RunsKept w w') (h' : RunsKept w' w'') :
    RunsKept w w'' := by
  refine ⟨h'.plans.trans h.plans, fun id l hl hdone => ?_,
    fun r r' m hd => h'.dependencies r r' m (h.dependencies r r' m hd)⟩
  obtain ⟨l', hl', hsame⟩ := h.lineage id l hl hdone
  obtain ⟨l'', hl'', hsame'⟩ := h'.lineage id l' hl' hsame.isDone
  exact ⟨l'', hl'', hsame.trans hsame'⟩

/-- Every stored lineage record has the id of its child. -/
def LineageNamed (w : ProgramWorld) : Prop :=
  ∀ id l, w.stores.lineage.getById id = some l → l.Named

theorem lineageNamed_iff {w : ProgramWorld} :
    LineageNamed w ↔ ∀ l ∈ w.stores.lineage.list, l.Named :=
  ⟨fun h l hl => h _ l (Repository.mem_list.mp hl),
    fun h _ l hl => h l (Repository.mem_list_of_getById hl)⟩

instance (w : ProgramWorld) : Decidable (LineageNamed w) :=
  decidable_of_iff _ lineageNamed_iff.symm

variable {X : ProgramExternal} {deps : ProgramDeps} {w w' : ProgramWorld}

/-- The run of a node's child is that of the record under the node's id. -/
theorem childRunOf_iff (hnamed : LineageNamed w) {programId nodeId runId : String}
    {plan : ProgramPlan} :
    childRunOf (lineageOf w plan programId) nodeId = some runId ↔
      ∃ l, w.stores.lineage.getById
          (lineageIdFor programId plan.programPlanVersion nodeId) = some l ∧
        l.programId = programId ∧ l.programPlanVersion = plan.programPlanVersion ∧
        l.nodeId = nodeId ∧ l.childRunId.filter (· ≠ "") = some runId := by
  have hstored : ∀ l, l ∈ lineageOf w plan programId → l.nodeId = nodeId →
      w.stores.lineage.getById (lineageIdFor programId plan.programPlanVersion nodeId) = some l ∧
        l.programId = programId ∧ l.programPlanVersion = plan.programPlanVersion := by
    intro l hl hnode
    obtain ⟨hlist, hfields⟩ := List.mem_filter.mp hl
    obtain ⟨rfl, hversion⟩ := of_decide_eq_true hfields
    have hget := Repository.mem_list.mp hlist
    rw [hnamed _ l hget, hversion, hnode] at hget
    exact ⟨hget, rfl, hversion⟩
  unfold childRunOf
  constructor
  · intro h
    cases hfind : (lineageOf w plan programId).find? fun l => l.nodeId = nodeId with
    | none => simp [hfind] at h
    | some l =>
      rw [hfind, Option.bind_some] at h
      have hnode : l.nodeId = nodeId := by simpa using List.find?_some hfind
      obtain ⟨hget, hprogram, hversion⟩ := hstored l (List.mem_of_find?_eq_some hfind) hnode
      exact ⟨l, hget, hprogram, hversion, hnode, h⟩
  · rintro ⟨l, hget, hprogram, hversion, hnode, hrun⟩
    have hmem : l ∈ lineageOf w plan programId :=
      List.mem_filter.mpr ⟨Repository.mem_list_of_getById hget,
        decide_eq_true ⟨hprogram, hversion⟩⟩
    cases hfind : (lineageOf w plan programId).find? fun l => l.nodeId = nodeId with
    | none => exact absurd (by simpa using hnode) (List.find?_eq_none.mp hfind l hmem)
    | some l' =>
      have hnode' : l'.nodeId = nodeId := by simpa using List.find?_some hfind
      obtain ⟨hget', -⟩ := hstored l' (List.mem_of_find?_eq_some hfind) hnode'
      rw [hget] at hget'
      cases hget'
      exact hrun

/-- The plan of a program is compiled: its children are admitted, and the dependencies of its edges
are registered. -/
structure Compiled (w : ProgramWorld) (programId : String) (plan : ProgramPlan) : Prop where
  done : ∀ node ∈ plan.nodes, ∃ l, w.stores.lineage.getById
      (lineageIdFor programId plan.programPlanVersion node.nodeId) = some l ∧
    l.materializationStatus.isDone = true
  endpoints : ∀ edge ∈ plan.edges, (∃ node ∈ plan.nodes, node.nodeId = edge.fromNodeId) ∧
    ∃ node ∈ plan.nodes, node.nodeId = edge.toNodeId
  edges : EdgesStored w programId plan

/-- A child that was admitted keeps its run. -/
theorem RunsKept.childRunOf (h : RunsKept w w') (hnamed : LineageNamed w) (hnamed' : LineageNamed w')
    {programId : String} {plan : ProgramPlan} {node : ChildProgramNode}
    (hdone : ∃ l, w.stores.lineage.getById
        (lineageIdFor programId plan.programPlanVersion node.nodeId) = some l ∧
      l.materializationStatus.isDone = true) {runId : String}
    (hrun : Orchestrator.childRunOf (lineageOf w' plan programId) node.nodeId = some runId) :
    Orchestrator.childRunOf (lineageOf w plan programId) node.nodeId = some runId := by
  obtain ⟨l, hl, hldone⟩ := hdone
  obtain ⟨l', hl', hsame⟩ := h.lineage _ l hl hldone
  obtain ⟨l'', hget, hprogram, hversion, hnode, hrun⟩ := (childRunOf_iff hnamed').mp hrun
  obtain rfl : l'' = l' := Option.some.inj (hget.symm.trans hl')
  exact (childRunOf_iff hnamed).mpr ⟨l, hl, hsame.programId.symm.trans hprogram,
    hsame.programPlanVersion.symm.trans hversion, hsame.nodeId.symm.trans hnode,
    hsame.childRunId ▸ hrun⟩

/-- A compiled plan stays compiled. -/
theorem Compiled.mono {programId : String} {plan : ProgramPlan} (h : Compiled w programId plan)
    (hmoved : RunsKept w w') (hnamed : LineageNamed w) (hnamed' : LineageNamed w') :
    Compiled w' programId plan := by
  refine ⟨fun node hnode => ?_, h.endpoints, fun edge hedge r hr r' hr' => ?_⟩
  · obtain ⟨l, hl, hdone⟩ := h.done node hnode
    obtain ⟨l', hl', hsame⟩ := hmoved.lineage _ l hl hdone
    exact ⟨l', hl', hsame.isDone⟩
  · obtain ⟨⟨source, hsource, hfrom⟩, target, htarget, hto⟩ := h.endpoints edge hedge
    rw [← hfrom] at hr
    rw [← hto] at hr'
    refine hmoved.dependencies _ _ _ (h.edges edge hedge r ?_ r' ?_)
    · rw [← hfrom]
      exact hmoved.childRunOf hnamed hnamed' (h.done source hsource) hr
    · rw [← hto]
      exact hmoved.childRunOf hnamed hnamed' (h.done target htarget) hr'

/-! ## What the calls do -/

/-- The calls that leave programs, plans, lineage and dependencies. -/
def ProgramOp.Still : ProgramOp → Prop
  | .createProgram _ | .saveProgram .. | .transitionProgram .. | .savePlan _ => False
  | .saveLineage _ | .registerDependency _ => False
  | _ => True

theorem ProgramOp.Reads.still {o : ProgramOp} (h : o.Reads) : o.Still := by
  cases o with
  | createProgram program => exact h.elim
  | saveProgram program revision => exact h.elim
  | transitionProgram programId expected revision next updatedAt extras => exact h.elim
  | savePlan plan => exact h.elim
  | saveLineage record => exact h.elim
  | registerDependency input => exact h.elim
  | _ => trivial

/-- What those calls leave. -/
structure SameStores (w w' : ProgramWorld) : Prop where
  programs : w'.stores.programs = w.stores.programs
  plans : w'.stores.plans = w.stores.plans
  lineage : w'.stores.lineage = w.stores.lineage
  dependencies : w'.stores.dependencies = w.stores.dependencies

theorem SameStores.moved (h : SameStores w w') : RunsKept w w' := by
  refine ⟨h.plans, fun id l hl hdone => ⟨l, h.lineage ▸ hl, .refl hdone⟩, fun r r' m hd => ?_⟩
  unfold DependencyStored
  rw [h.dependencies]
  exact hd

theorem orchestration_still {o : ProgramOp} (h : o.Still) (w : ProgramWorld) :
    SameStores w (orchestration X o w).2 := by
  cases o with
  | createProgram program => exact h.elim
  | saveProgram program revision => exact h.elim
  | transitionProgram programId expected revision next updatedAt extras => exact h.elim
  | savePlan plan => exact h.elim
  | saveLineage record => exact h.elim
  | registerDependency input => exact h.elim
  | budget o =>
    simp only [orchestration, onStore, ProgramWorld.setBudgets]
    exact ⟨rfl, rfl, rfl, rfl⟩
  | saveApproval approval =>
    unfold orchestration
    dsimp only
    split <;> exact ⟨rfl, rfl, rfl, rfl⟩
  | saveCompletion record =>
    unfold orchestration
    dsimp only
    split
    · exact ⟨rfl, rfl, rfl, rfl⟩
    · split <;> exact ⟨rfl, rfl, rfl, rfl⟩
  | _ => exact ⟨rfl, rfl, rfl, rfl⟩

/-- A dependency that the scheduler accepts is stored. -/
theorem orchestration_registerDependency {input : DependencyInput} (h : Registrable X w input) :
    orchestration X (.registerDependency input) w =
      (.ok (DependencyStore.newDependency X w.surroundings.now input),
        w.setDependencies (w.stores.dependencies.save
          (DependencyStore.newDependency X w.surroundings.now input))) := by
  obtain ⟨hworking, hdistinct, hdependent, hprerequisite, hacyclic, -⟩ := h
  rw [Option.isNone_iff_eq_none] at hworking
  cases hrun : w.surroundings.runs input.dependentRunId with
  | none => simp [hrun] at hdependent
  | some dependent =>
    cases hrun' : w.surroundings.runs input.prerequisiteRunId with
    | none => simp [hrun'] at hprerequisite
    | some prerequisite =>
      rw [hrun, Option.any_some, decide_eq_true_eq] at hdependent
      rw [hrun', Option.any_some, decide_eq_true_eq] at hprerequisite
      simp only [orchestration, hworking, DependencyStore.registerDependency, hrun, hrun',
        hdistinct, hdependent, hprerequisite, hacyclic, if_false, ne_eq, not_true_eq_false,
        or_self, Bool.false_eq_true, onStore]

/-- A saved lineage record is stored as it is, or nothing changes. -/
theorem orchestration_saveLineage (record : ProgramLineageRecord) (w : ProgramWorld) :
    (∃ e, orchestration X (.saveLineage record) w = (.error e, w)) ∨
    orchestration X (.saveLineage record) w = (.ok record,
      { w with stores := { w.stores with lineage := w.stores.lineage.save record } }) := by
  unfold orchestration
  dsimp only
  cases h : parseProgramRecord ProgramLineageRecord.issues record with
  | error e => exact .inl ⟨e, rfl⟩
  | ok b =>
    obtain ⟨rfl, -⟩ := parseProgramRecord_ok h
    exact .inr rfl

/-- The calls that `materializeNext` makes. -/
def ProgramOp.Materializes : ProgramOp → Prop
  | .createProgram _ | .saveProgram .. | .savePlan _ => False
  | _ => True

/-- A call that registers what it should moves the state as the others expect. -/
theorem orchestration_runsKept {o : ProgramOp} (ho : o.Materializes) (h : Registers X w o) :
    RunsKept w (orchestration X o w).2 := by
  by_cases hstill : o.Still
  · exact (orchestration_still hstill w).moved
  · cases o with
    | createProgram program => exact ho.elim
    | saveProgram program revision => exact ho.elim
    | savePlan plan => exact ho.elim
    | transitionProgram programId expected revision next updatedAt extras =>
      simp only [orchestration, onStore, ProgramWorld.setPrograms]
      exact ⟨rfl, fun _ l hl hdone => ⟨l, hl, .refl hdone⟩, fun _ _ _ hd => hd⟩
    | saveLineage record =>
      rcases orchestration_saveLineage (X := X) record w with ⟨e, hsave⟩ | hsave
      · rw [hsave]
        exact .refl w
      · rw [hsave]
        refine ⟨rfl, fun id l hl hdone => ?_, fun _ _ _ hd => hd⟩
        by_cases hid : record.lineageId = id
        · subst hid
          exact ⟨record, Repository.getById_save_self _ record, h l hl hdone⟩
        · exact ⟨l, (Repository.getById_save_ne _ hid).trans hl, .refl hdone⟩
    | registerDependency input =>
      rw [orchestration_registerDependency h]
      refine ⟨rfl, fun _ l hl hdone => ⟨l, hl, .refl hdone⟩, ?_⟩
      rintro r r' m ⟨d, hd, rfl, rfl, rfl⟩
      by_cases hid : (DependencyStore.newDependency X w.surroundings.now input).dependencyId =
          d.dependencyId
      · obtain ⟨hr, hr', hm⟩ := h.own d (hid ▸ Repository.mem_list.mp hd)
        exact ⟨_, Repository.mem_list_save.mpr (.inl rfl), hr.symm, hr'.symm, hm.symm⟩
      · exact ⟨d, Repository.mem_list_save.mpr (.inr ⟨hd, hid⟩), rfl, rfl, rfl⟩
    | _ => exact absurd trivial hstill

/-! ## What the calls rely on -/

/-- The plans of active programs are compiled. -/
def ActiveCompiled (w : ProgramWorld) : Prop :=
  ∀ programId program, w.stores.programs.byId.getById programId = some program →
    program.status = .active → ∀ plan, w.stores.plans.getLatest programId = some plan →
      Compiled w programId plan

/-- The calls that `materializeNext` makes: a lineage record is saved under the id of its child, and
a program is moved when its plan is compiled. -/
structure Licit (w : ProgramWorld) (o : ProgramOp) : Prop where
  materializes : o.Materializes
  named : ∀ record, o = .saveLineage record → record.Named
  compiled : ∀ programId s revision next now extras,
    o = .transitionProgram programId s revision next now extras → OwnRecords w programId →
      ∀ plan, w.stores.plans.getLatest programId = some plan → Compiled w programId plan

theorem ProgramOp.Still.licit {o : ProgramOp} (h : o.Still) (w : ProgramWorld) : Licit w o := by
  refine ⟨?_, ?_, ?_⟩
  · cases o <;> first | exact h | trivial
  · rintro record rfl
    exact h.elim
  · rintro programId s revision next now extras rfl
    exact h.elim

theorem orchestration_lineageNamed {o : ProgramOp} (h : Licit w o) (hnamed : LineageNamed w) :
    LineageNamed (orchestration X o w).2 := by
  by_cases hstill : o.Still
  · unfold LineageNamed
    rw [(orchestration_still hstill w).lineage]
    exact hnamed
  · cases o with
    | createProgram program => exact h.materializes.elim
    | saveProgram program revision => exact h.materializes.elim
    | savePlan plan => exact h.materializes.elim
    | transitionProgram programId expected revision next updatedAt extras =>
      simp only [orchestration, onStore, ProgramWorld.setPrograms]
      exact hnamed
    | registerDependency input =>
      unfold orchestration
      dsimp only
      split <;> exact hnamed
    | saveLineage record =>
      rcases orchestration_saveLineage (X := X) record w with ⟨e, hsave⟩ | hsave
      · rw [hsave]
        exact hnamed
      · rw [hsave]
        intro id l hl
        replace hl : (w.stores.lineage.save record).getById id = some l := hl
        rw [Repository.getById_save] at hl
        split_ifs at hl
        · cases hl
          exact h.named _ rfl
        · exact hnamed id l hl
    | _ => exact absurd trivial hstill

/-- Programs that are not moved stay compiled. -/
theorem ActiveCompiled.mono (h : ActiveCompiled w) (hmoved : RunsKept w w') (hnamed : LineageNamed w)
    (hnamed' : LineageNamed w') (hprograms : w'.stores.programs = w.stores.programs) :
    ActiveCompiled w' := by
  intro programId program hprogram hactive plan hplan
  rw [hprograms] at hprogram
  rw [hmoved.plans] at hplan
  exact (h programId program hprogram hactive plan hplan).mono hmoved hnamed hnamed'

/-- A call that registers what it should keeps the active programs compiled. -/
theorem orchestration_activeCompiled {o : ProgramOp} (ho : Licit w o) (hregisters : Registers X w o)
    (hnamed : LineageNamed w) (h : ActiveCompiled w) : ActiveCompiled (orchestration X o w).2 := by
  have hmoved := orchestration_runsKept ho.materializes hregisters
  have hnamed' := orchestration_lineageNamed (X := X) ho hnamed
  by_cases hstill : o.Still
  · exact h.mono hmoved hnamed hnamed' (orchestration_still hstill w).programs
  · cases o with
    | createProgram program => exact ho.materializes.elim
    | saveProgram program revision => exact ho.materializes.elim
    | savePlan plan => exact ho.materializes.elim
    | registerDependency input =>
      refine h.mono hmoved hnamed hnamed' ?_
      rw [orchestration_registerDependency hregisters]
      rfl
    | saveLineage record =>
      refine h.mono hmoved hnamed hnamed' ?_
      rcases orchestration_saveLineage (X := X) record w with ⟨e, hsave⟩ | hsave <;> rw [hsave]
    | transitionProgram programId expected revision next updatedAt extras =>
      have hstep : (orchestration X (.transitionProgram programId expected revision next updatedAt
          extras) w).2 = w.setPrograms (w.stores.programs.transition programId expected revision next
            updatedAt extras).2 := by
        simp only [orchestration, onStore]
      rcases w.stores.programs.transition_cases programId expected revision next updatedAt extras with
        ⟨e, htransition⟩ | ⟨existing, hexisting, -, -, -, htransition⟩
      · refine h.mono hmoved hnamed hnamed' ?_
        rw [hstep, htransition]
        rfl
      · intro id program hprogram hactive plan hplan
        rw [hmoved.plans] at hplan
        rw [hstep, htransition] at hprogram
        replace hprogram : (w.stores.programs.byId.save
          (ProgramStore.moved existing next updatedAt extras)).getById id = some program := hprogram
        rw [Repository.getById_save] at hprogram
        refine Compiled.mono ?_ hmoved hnamed hnamed'
        split_ifs at hprogram with hid
        · -- the program that moves: its plan is compiled
          obtain rfl : programId = id := (Repository.id_of_getById hexisting).symm.trans hid
          exact ho.compiled _ _ _ _ _ _ rfl hregisters plan hplan
        · exact h id program hprogram hactive plan hplan
    | _ => exact absurd trivial hstill

/-- What a call may rely on between its own calls. -/
def Respected (w w' : ProgramWorld) : Prop := RunsKept w w' ∧ (LineageNamed w → LineageNamed w')

theorem Respected.refl (w : ProgramWorld) : Respected w w := ⟨.refl w, id⟩

theorem Respected.trans {w w' w'' : ProgramWorld} (h : Respected w w') (h' : Respected w' w'') :
    Respected w w'' := ⟨h.1.trans h'.1, fun hnamed => h'.2 (h.2 hnamed)⟩

theorem orchestration_respected {o : ProgramOp} (ho : Licit w o) (h : Registers X w o) :
    Respected w (orchestration X o w).2 :=
  ⟨orchestration_runsKept ho.materializes h, orchestration_lineageNamed ho⟩

/-- The calls rely on the plans, the lineage and the dependencies. -/
def scheduling (X : ProgramExternal) (ι : Type) [DecidableEq ι] :
    Contract (materializationSystem X) ι where
  env _ :=
    { rely := Respected
      step := fun _ w o r w' => LineageNamed w ∧ Registers X w o ∧ (r, w') = orchestration X o w }
  spec _ _ w o _ _ := Licit w o
  inv w := LineageNamed w ∧ ActiveCompiled w
  cond _ := Registers X
  envCond _ _ := True
  rely_refl _ := .refl
  rely_trans _ _ _ _ h h' := h.trans h'
  answers _ _ _ _ hinv hcond := ⟨hinv.1, hcond, rfl⟩
  keeps _ _ _ _ hinv hcond hspec :=
    ⟨orchestration_lineageNamed hspec hinv.1,
      orchestration_activeCompiled hspec hcond hinv.1 hinv.2⟩
  guards _ _ _ _ _ _ _ hcond hspec := orchestration_respected hspec hcond
  env_keeps e w hinv _ := by
    have hmoved : RunsKept w ((materializationSystem X).env e w) := ⟨rfl, fun _ l hl hdone => ⟨l, hl, .refl hdone⟩, fun _ _ _ h => h⟩
    exact ⟨hinv.1, hinv.2.mono hmoved hinv.1 hinv.1 rfl⟩
  env_guards _ _ _ _ _ := ⟨⟨rfl, fun _ l hl hdone => ⟨l, hl, .refl hdone⟩, fun _ _ _ h => h⟩, id⟩

section Sat

variable {ι : Type} [DecidableEq ι] {i : ι} {log : Log ProgramSig}

/-- Whatever a judged function does, it leaves the state where others may rely on it. -/
theorem sat_respected {α : Type} {p : Call α}
    {Q : Log ProgramSig → ProgramWorld → Except ProgramFailure α → Prop}
    (h : p.Sat ((scheduling X ι).env i) ((scheduling X ι).spec i) Q log w) :
    p.Sat ((scheduling X ι).env i) ((scheduling X ι).spec i)
      (fun log w' r => Q log w' r ∧ Respected w w') log w := by
  have hprog : ∀ (p : Prog ProgramSig (Except ProgramFailure α)) (log : Log ProgramSig)
      (w : ProgramWorld), p.Sat ((scheduling X ι).env i) ((scheduling X ι).spec i) Q log w →
      p.Sat ((scheduling X ι).env i) ((scheduling X ι).spec i)
        (fun log w' r => Q log w' r ∧ Respected w w') log w := by
    intro p
    induction p with
    | pure r => exact fun log w h => ⟨h, .refl w⟩
    | call o k ih =>
      intro log w h m r m' hm hstep
      obtain ⟨hlicit, hk⟩ := h m r m' hm hstep
      obtain ⟨-, hregisters, heq⟩ := hstep
      obtain rfl : m' = (orchestration X o m).2 := congrArg Prod.snd heq
      refine ⟨hlicit, (ih r _ _ hk).post fun log w' r hr => ⟨hr.1, ?_⟩⟩
      exact hm.trans ((orchestration_respected hlicit hregisters).trans hr.2)
  exact hprog p.prog log w h

/-- Calls that leave the stores alone keep what is steady. -/
theorem still_sat {α : Type} {p : Call α} (hp : p.Only ProgramOp.Still) :
    p.Sat ((scheduling X ι).env i) ((scheduling X ι).spec i) (fun _ _ _ => True) log w :=
  hp.sat ⟨fun _ _ _ _ _ => trivial, fun _ m _ _ _ ho _ _ => ⟨ho.licit m, trivial⟩⟩ trivial

/-- A part that leaves the stores alone comes first. -/
theorem Sat.after_still {α β : Type} {p : Call α} {f : α → Call β}
    {Q : Log ProgramSig → ProgramWorld → Except ProgramFailure β → Prop}
    (hp : p.Only ProgramOp.Still)
    (hf : ∀ log w' a, Respected w w' →
      (f a).Sat ((scheduling X ι).env i) ((scheduling X ι).spec i) Q log w')
    (herr : ∀ log w' e, Q log w' (.error e)) :
    (p.bind f).Sat ((scheduling X ι).env i) ((scheduling X ι).spec i) Q log w :=
  Async.Sat.bind (sat_respected (still_sat hp)) (fun log w a h => hf log w a h.2)
    fun log w e _ => herr log w e

/-! ## The children -/

/-- The record of a node: once it is done it is what the store has. -/
def RecordOf (w : ProgramWorld) (lineageId : String) (record : ProgramLineageRecord) : Prop :=
  record.materializationStatus.isDone = true →
    ∃ l, w.stores.lineage.getById lineageId = some l ∧ SameChild record l

theorem RecordOf.mono {id : String} {record : ProgramLineageRecord} (h : RecordOf w id record)
    (hsteady : Respected w w') : RecordOf w' id record := by
  intro hdone
  obtain ⟨l, hl, hsame⟩ := h hdone
  obtain ⟨l', hl', hsame'⟩ := hsteady.1.lineage id l hl hsame.isDone
  exact ⟨l', hl', hsame.trans hsame'⟩

/-- The id of a node's lineage record. -/
abbrev lineageIdOf (program : Program) (plan : ProgramPlan) (node : ChildProgramNode) : String :=
  lineageIdFor program.programId plan.programPlanVersion node.nodeId

theorem materializeNode_sat (program : Program) (plan : ProgramPlan) (node : ChildProgramNode) :
    (materializeNode X program plan node).Sat ((scheduling X ι).env i) ((scheduling X ι).spec i)
      (fun _ w r => ∀ record, r = .ok record → RecordOf w (lineageIdOf program plan node) record)
      log w := by
  have hreads : ∀ o : ProgramOp, o.Reads → o.Still := fun _ h => h.still
  unfold materializeNode
  refine Async.Sat.bind (R := fun _ w r => ∀ found, r = .ok found →
    ∀ l ∈ (found : Option ProgramLineageRecord), RecordOf w (lineageIdOf program plan node) l) ?_
    (fun log w found hfound => ?_) fun _ _ _ _ => fun _ h => (nomatch h)
  · intro m r m' _ hstep
    obtain ⟨-, -, heq⟩ := hstep
    obtain rfl : m' = m := congrArg Prod.snd heq
    obtain rfl : r = .ok (m'.stores.lineage.getById (lineageIdOf program plan node)) :=
      congrArg Prod.fst heq
    refine ⟨(hreads _ (by trivial)).licit m', ?_⟩
    rintro _ ⟨⟩ l hl hdone
    exact ⟨l, hl, .refl hdone⟩
  · cases hdone : (found : Option ProgramLineageRecord).filter (·.materializationStatus.isDone) with
    | some existing =>
      rintro record ⟨⟩
      exact hfound found rfl existing (Option.filter_eq_some_iff.mp hdone).1
    | none =>
      refine Sat.after_still (reserveNodeBudget_only hreads (fun _ => trivial) _ _ _ _)
        (fun log w _ _ => ?_) fun _ _ _ _ h => (nomatch h)
      refine Sat.after_still (only_call (hreads _ (by trivial))) (fun log w now _ => ?_)
        fun _ _ _ _ h => (nomatch h)
      refine Sat.after_still (only_call trivial) (fun log w result _ => ?_)
        fun _ _ _ _ h => (nomatch h)
      intro m r m' _ hstep
      obtain ⟨-, -, heq⟩ := hstep
      refine ⟨⟨trivial, ?_, fun _ _ _ _ _ _ h => (nomatch h)⟩, ?_⟩
      · rintro record ⟨⟩
        rfl
      · rintro record rfl hdone
        rcases orchestration_saveLineage (X := X) (newLineage X program plan node found result now) m
          with ⟨e, hsave⟩ | hsave
        · cases heq.trans hsave
        · cases heq.trans hsave
          exact ⟨_, Repository.getById_save_self _ _, .refl hdone⟩

/-- The records of the nodes are those of the store. -/
def RecordsOf (w : ProgramWorld) (program : Program) (plan : ProgramPlan)
    (nodes : List ChildProgramNode) (records : List ProgramLineageRecord) : Prop :=
  List.Forall₂ (fun node record => RecordOf w (lineageIdOf program plan node) record) nodes records

theorem RecordsOf.mono {program : Program} {plan : ProgramPlan} {nodes : List ChildProgramNode}
    {records : List ProgramLineageRecord} (h : RecordsOf w program plan nodes records)
    (hsteady : Respected w w') : RecordsOf w' program plan nodes records :=
  h.imp fun _ _ hrecord => hrecord.mono hsteady

theorem materializeNodes_sat (program : Program) (plan : ProgramPlan)
    (nodes : List ChildProgramNode) :
    (materializeNodes X program plan nodes).Sat ((scheduling X ι).env i) ((scheduling X ι).spec i)
      (fun _ w r => ∀ records, r = .ok records → RecordsOf w program plan nodes records) log w := by
  induction nodes generalizing log w with
  | nil =>
    rintro records ⟨⟩
    exact .nil
  | cons node nodes ih =>
    unfold materializeNodes
    refine Async.Sat.bind (materializeNode_sat program plan node) (fun log w record hrecord => ?_)
      fun _ _ _ _ => fun _ h => (nomatch h)
    refine Async.Sat.bind (sat_respected ih) (fun log w' records hrecords => ?_)
      fun _ _ _ _ => fun _ h => (nomatch h)
    rintro _ ⟨⟩
    exact .cons ((hrecord record rfl).mono hrecords.2) (hrecords.1 records rfl)

/-! ## The edges -/

/-- The dependency of an edge is stored, where both children have runs. -/
def EdgeRegistered (w : ProgramWorld) (runs : JsMap String String) (edge : ProgramPlanEdge) : Prop :=
  ∀ r r', (runs.get edge.fromNodeId).filter (· ≠ "") = some r →
    (runs.get edge.toNodeId).filter (· ≠ "") = some r' →
      DependencyStored w r' r edge.requiredMilestone

theorem EdgeRegistered.mono {runs : JsMap String String} {edge : ProgramPlanEdge}
    (h : EdgeRegistered w runs edge) (hsteady : Respected w w') : EdgeRegistered w' runs edge :=
  fun r r' hr hr' => hsteady.1.dependencies _ _ _ (h r r' hr hr')

theorem compileDependency_sat (program : Program) (runs : JsMap String String)
    (edge : ProgramPlanEdge) :
    (compileDependency program runs edge).Sat ((scheduling X ι).env i) ((scheduling X ι).spec i)
      (fun _ w r => r = .ok () ∧ EdgeRegistered w runs edge) log w := by
  unfold compileDependency
  split
  · next prerequisite dependent hfrom hto =>
    refine (Async.sat_tryCatch _ _).mpr ?_
    refine Async.Sat.bind (R := fun _ w r => ∃ d, r = .ok d ∧
      DependencyStored w dependent prerequisite edge.requiredMilestone) ?_
      (fun log w d hd => ?_) fun _ _ _ h => by obtain ⟨_, h, -⟩ := h; cases h
    · intro m r m' _ hstep
      obtain ⟨-, hregisters, heq⟩ := hstep
      rw [orchestration_registerDependency hregisters] at heq
      cases heq
      refine ⟨⟨trivial, fun _ h => (nomatch h), fun _ _ _ _ _ _ h => (nomatch h)⟩, _, rfl, ?_⟩
      exact ⟨_, Repository.mem_list_save.mpr (.inl rfl), rfl, rfl, rfl⟩
    · obtain ⟨_, -, hstored⟩ := hd
      refine ⟨rfl, fun r r' hr hr' => ?_⟩
      rw [hfrom, Option.some.injEq] at hr
      rw [hto, Option.some.injEq] at hr'
      subst hr hr'
      exact hstored
  · next hnone =>
    refine ⟨rfl, fun r r' hr hr' => absurd hr' (hnone r r' hr)⟩

theorem compileDependencies_sat (hscheduler : deps.scheduler = true) (program : Program)
    (plan : ProgramPlan) (lineage : List ProgramLineageRecord) :
    (compileDependencies deps program plan lineage).Sat ((scheduling X ι).env i)
      ((scheduling X ι).spec i)
      (fun _ w _ => ∀ edge ∈ plan.edges, EdgeRegistered w (runsByNode lineage) edge) log w := by
  unfold compileDependencies
  rw [hscheduler]
  have hedges : ∀ (edges : List ProgramPlanEdge) (log : Log ProgramSig) (w : ProgramWorld),
      (Async.forEach (compileDependency program (runsByNode lineage)) edges).Sat
        ((scheduling X ι).env i) ((scheduling X ι).spec i)
        (fun _ w _ => ∀ edge ∈ edges, EdgeRegistered w (runsByNode lineage) edge) log w := by
    intro edges
    induction edges with
    | nil => exact fun _ _ _ h => nomatch h
    | cons edge edges ih =>
      intro log w
      refine Async.Sat.bind (compileDependency_sat program _ edge) (fun log w _ hedge => ?_)
        fun _ _ _ h => nomatch h.1
      refine (sat_respected (ih log w)).mono fun log w' _ hrest => ?_
      intro e he
      rcases List.mem_cons.mp he with rfl | he
      · exact hedge.2.mono hrest.2
      · exact hrest.1 e he
  exact hedges plan.edges log w

/-! ## The plan -/

theorem forall₂_mem_left {α β : Type} {R : α → β → Prop} {as : List α} {bs : List β}
    (h : List.Forall₂ R as bs) {a : α} (ha : a ∈ as) : ∃ b ∈ bs, R a b := by
  induction h with
  | nil => cases ha
  | @cons a' b as bs hab _ ih =>
    rcases List.mem_cons.mp ha with rfl | ha
    · exact ⟨b, List.mem_cons_self, hab⟩
    · obtain ⟨b', hb', hR⟩ := ih ha
      exact ⟨b', List.mem_cons_of_mem _ hb', hR⟩

theorem forall₂_mem_right {α β : Type} {R : α → β → Prop} {as : List α} {bs : List β}
    (h : List.Forall₂ R as bs) {b : β} (hb : b ∈ bs) : ∃ a ∈ as, R a b :=
  forall₂_mem_left h.flip hb

/-- Both ends of every edge are nodes of the plan. -/
def EndsAtNodes (plan : ProgramPlan) : Prop :=
  ∀ edge ∈ plan.edges, (∃ node ∈ plan.nodes, node.nodeId = edge.fromNodeId) ∧
    ∃ node ∈ plan.nodes, node.nodeId = edge.toNodeId

/-- The edges of a valid plan end at its nodes. -/
theorem endsAtNodes_of_valid {program : Program} {plan : ProgramPlan}
    (h : assertValidProgramPlan X program plan = .ok ()) : EndsAtNodes plan := by
  intro edge hedge
  unfold assertValidProgramPlan at h
  split at h
  · next hvalid =>
    simp only [validateProgramPlan, graphFindings, List.append_eq_nil_iff, List.flatMap_eq_nil_iff,
      ite_eq_right_iff, reduceCtorEq, imp_false, Bool.or_eq_true, not_or, Bool.not_eq_true',
      Bool.not_eq_false, List.contains_iff_mem, List.mem_map] at hvalid
    obtain ⟨⟨⟨⟨⟨-, hedges⟩, -⟩, -⟩, -⟩, -⟩ := hvalid
    exact (hedges edge hedge).1
  · cases h

theorem requireLatestPlan_sat (program : Program) :
    (requireLatestPlan X program).Sat ((scheduling X ι).env i) ((scheduling X ι).spec i)
      (fun _ w r => ∀ plan, r = .ok plan →
        w.stores.plans.getLatest program.programId = some plan ∧ EndsAtNodes plan) log w := by
  unfold requireLatestPlan
  refine Async.Sat.bind (R := fun _ w r => r = .ok (w.stores.plans.getLatest program.programId)) ?_
    (fun log w found hfound => ?_) fun _ _ _ _ => fun _ h => (nomatch h)
  · intro m r m' _ hstep
    obtain ⟨-, -, heq⟩ := hstep
    obtain rfl : m' = m := congrArg Prod.snd heq
    exact ⟨(ProgramOp.Reads.still (by trivial)).licit m', congrArg Prod.fst heq⟩
  · cases hfound
    cases hlatest : w.stores.plans.getLatest program.programId with
    | none => exact fun _ h => nomatch h
    | some plan =>
      refine Async.Sat.bind_ofExcept (fun _ hvalid => ?_) fun e _ => fun _ h => (nomatch h)
      rintro _ ⟨⟩
      exact ⟨hlatest, endsAtNodes_of_valid hvalid⟩

/-- The run of a record, in the map of runs. -/
theorem mem_runsByNode {records : List ProgramLineageRecord} {nodeId runId : String} :
    (nodeId, runId) ∈ (records.filterMap fun l =>
        (l.childRunId.filter (· ≠ "")).map fun runId => (l.nodeId, runId)) ↔
      ∃ record ∈ records, record.nodeId = nodeId ∧
        record.childRunId.filter (· ≠ "") = some runId := by
  simp only [List.mem_filterMap, Option.map_eq_some_iff, Prod.mk.injEq]
  constructor
  · rintro ⟨record, hrecord, r, hr, hnode, rfl⟩
    exact ⟨record, hrecord, hnode, hr⟩
  · rintro ⟨record, hrecord, hnode, hr⟩
    exact ⟨record, hrecord, runId, hr, hnode, rfl⟩

/-- Where the records of a plan's nodes are their own, the map of runs has the runs of the
children. -/
theorem runsByNode_get {program : Program} {plan : ProgramPlan}
    {records : List ProgramLineageRecord} (hnamed : LineageNamed w)
    (hlatest : w.stores.plans.getLatest program.programId = some plan)
    (hown : OwnRecords w program.programId) (hrecords : RecordsOf w program plan plan.nodes records)
    (hdone : ∀ record ∈ records, record.materializationStatus.isDone = true)
    {node : ChildProgramNode} (hnode : node ∈ plan.nodes) {runId : String}
    (hrun : childRunOf (lineageOf w plan program.programId) node.nodeId = some runId) :
    (runsByNode records).get node.nodeId = some runId := by
  obtain ⟨l, hl, -, -, hlnode, hlrun⟩ := (childRunOf_iff hnamed).mp hrun
  obtain ⟨record, hrecord, hrecordOf⟩ := forall₂_mem_left hrecords hnode
  obtain ⟨l', hl', hsame⟩ := hrecordOf (hdone record hrecord)
  obtain rfl : l' = l := Option.some.inj (hl'.symm.trans hl)
  refine JsMap.get_ofList_of_forall (mem_runsByNode.mpr ⟨record, hrecord,
    hsame.nodeId.symm.trans hlnode, hsame.childRunId ▸ hlrun⟩) fun runId' hmem => ?_
  -- another record of the same node is the same record of the store
  obtain ⟨other, hother, hotherNode, hotherRun⟩ := mem_runsByNode.mp hmem
  obtain ⟨node', hnode', hotherOf⟩ := forall₂_mem_right hrecords hother
  obtain ⟨k, hk, hksame⟩ := hotherOf (hdone other hother)
  have hids : node'.nodeId = node.nodeId :=
    (hown plan hlatest node' hnode' k hk).2.2.symm.trans (hksame.nodeId.trans hotherNode)
  obtain rfl : k = l' := by
    unfold lineageIdOf at hk
    rw [hids, hl] at hk
    exact (Option.some.inj hk).symm
  rw [← hksame.childRunId, hlrun] at hotherRun
  exact (Option.some.inj hotherRun).symm

/-- A plan whose children are admitted, and whose edges are registered, is compiled. -/
theorem compiled_of_records {program : Program} {plan : ProgramPlan}
    {records : List ProgramLineageRecord} (hnamed : LineageNamed w)
    (hlatest : w.stores.plans.getLatest program.programId = some plan)
    (hown : OwnRecords w program.programId) (hends : EndsAtNodes plan)
    (hrecords : RecordsOf w program plan plan.nodes records)
    (hdone : ∀ record ∈ records, record.materializationStatus.isDone = true)
    (hedges : ∀ edge ∈ plan.edges, EdgeRegistered w (runsByNode records) edge) :
    Compiled w program.programId plan := by
  refine ⟨fun node hnode => ?_, hends, fun edge hedge r hr r' hr' => ?_⟩
  · obtain ⟨record, hrecord, hrecordOf⟩ := forall₂_mem_left hrecords hnode
    obtain ⟨l, hl, hsame⟩ := hrecordOf (hdone record hrecord)
    exact ⟨l, hl, hsame.isDone⟩
  · obtain ⟨⟨source, hsource, hfrom⟩, target, htarget, hto⟩ := hends edge hedge
    have hne : ∀ {nodeId runId : String},
        childRunOf (lineageOf w plan program.programId) nodeId = some runId → runId ≠ "" := by
      intro nodeId runId h
      exact of_decide_eq_true (Option.filter_eq_some_iff.mp h).2
    refine hedges edge hedge r r' ?_ ?_
    · rw [← hfrom] at hr ⊢
      rw [runsByNode_get hnamed hlatest hown hrecords hdone hsource hr]
      simp [hne hr]
    · rw [← hto] at hr' ⊢
      rw [runsByNode_get hnamed hlatest hown hrecords hdone htarget hr']
      simp [hne hr']

/-! ## The call -/

theorem requireProgram_still (programId : String) :
    (requireProgram programId).Only ProgramOp.Still :=
  requireProgram_only (fun _ h => h.still) programId

/-- The program that is required has the id that was asked for. -/
theorem requireProgram_sat (programId : String) :
    (requireProgram programId).Sat ((scheduling X ι).env i) ((scheduling X ι).spec i)
      (fun _ _ r => ∀ program, r = .ok program → program.programId = programId) log w := by
  unfold requireProgram
  refine Async.Sat.bind (R := fun _ _ r => ∀ found, r = .ok found →
    ∀ program ∈ (found : Option Program), program.programId = programId) ?_
    (fun log w found hfound => ?_) fun _ _ _ _ => fun _ h => (nomatch h)
  · intro m r m' _ hstep
    obtain ⟨-, -, heq⟩ := hstep
    obtain rfl : r = .ok (m.stores.programs.byId.getById programId) := congrArg Prod.fst heq
    refine ⟨(ProgramOp.Reads.still (by trivial)).licit m, ?_⟩
    rintro _ ⟨⟩ program hprogram
    exact Repository.id_of_getById hprogram
  · cases found with
    | none => exact fun _ h => nomatch h
    | some program =>
      rintro _ ⟨⟩
      exact hfound _ rfl program rfl

/-- Once the plan is approved: the program becomes active over a compiled plan. -/
theorem materializePlan_sat (hscheduler : deps.scheduler = true) {programId : String}
    {program : Program} {plan : ProgramPlan} (hid : program.programId = programId)
    (hlatest : w.stores.plans.getLatest programId = some plan) (hends : EndsAtNodes plan) :
    (materializePlan X deps programId program plan).Sat ((scheduling X ι).env i)
      ((scheduling X ι).spec i) (fun _ _ _ => True) log w := by
  have hreads : ∀ o : ProgramOp, o.Reads → o.Still := fun _ h => h.still
  unfold materializePlan
  refine Sat.after_still (recheckAuthorityFreeze_only hreads _ _) (fun log w₁ _ h₁ => ?_)
    fun _ _ _ => trivial
  refine (Async.sat_ite _ _ _).mpr ⟨fun _ => trivial, fun _ => ?_⟩
  refine Async.Sat.bind (sat_respected (materializeNodes_sat program plan plan.nodes))
    (fun log w₂ records h₂ => ?_) fun _ _ _ _ => trivial
  refine Async.Sat.bind (sat_respected (compileDependencies_sat hscheduler program plan records))
    (fun log w₃ _ h₃ => ?_) fun _ _ _ _ => trivial
  refine Async.Sat.bind (sat_respected (requireProgram_sat programId)) (fun log w₄ live h₄ => ?_)
    fun _ _ _ _ => trivial
  refine (Async.sat_ite _ _ _).mpr ⟨fun hdone => ?_, fun _ => trivial⟩
  have hmoves : Respected w₂ w₄ := h₃.2.trans h₄.2
  refine Async.Sat.bind (R := fun _ _ _ => True) ?_ (fun _ _ _ _ => trivial) fun _ _ _ _ => trivial
  unfold transition
  refine (Async.sat_ite _ _ _).mpr ⟨fun _ => trivial, fun _ => ?_⟩
  refine Sat.after_still (only_call (hreads _ (by trivial))) (fun log w₅ now h₅ => ?_)
    fun _ _ _ => trivial
  intro m r m' hrely hstep
  obtain ⟨hnamed, -, -⟩ := hstep
  have hmoves' : Respected w₂ m := hmoves.trans (h₅.trans hrely)
  refine ⟨⟨trivial, fun _ h => (nomatch h), ?_⟩, trivial⟩
  rintro _ _ _ _ _ _ ⟨⟩ hown plan' hplan'
  have hplans : m.stores.plans = w.stores.plans := (h₁.trans (h₂.2.trans hmoves')).1.plans
  have hliveId : live.programId = program.programId := (h₄.1 live rfl).trans hid.symm
  rw [hliveId] at hown hplan' ⊢
  obtain rfl : plan' = plan := by
    rw [hplans, hid, hlatest] at hplan'
    exact (Option.some.inj hplan').symm
  refine compiled_of_records hnamed hplan' hown hends ((h₂.1 records rfl).mono hmoves')
    (List.all_eq_true.mp hdone.1) fun edge hedge => ?_
  exact (h₃.1 edge hedge).mono (h₄.2.trans (h₅.trans hrely))

theorem materializeNext_sat (hscheduler : deps.scheduler = true) (programId : String) :
    (materializeNext X deps programId).Sat ((scheduling X ι).env i) ((scheduling X ι).spec i)
      (fun _ _ _ => True) log w := by
  have hreads : ∀ o : ProgramOp, o.Reads → o.Still := fun _ h => h.still
  unfold materializeNext
  refine Async.Sat.bind (requireProgram_sat programId) (fun log w program hid => ?_)
    fun _ _ _ _ => trivial
  replace hid := hid program rfl
  refine (Async.sat_ite _ _ _).mpr ⟨fun _ => trivial, fun _ => ?_⟩
  refine (Async.sat_ite _ _ _).mpr ⟨fun _ => trivial, fun _ => ?_⟩
  refine (Async.sat_ite _ _ _).mpr ⟨fun _ => trivial, fun _ => ?_⟩
  refine Sat.after_still (only_call (hreads _ (by trivial))) (fun log w _ _ => ?_)
    fun _ _ _ => trivial
  refine Sat.after_still (findApprovedMaterialization_only hreads _) (fun log w approved _ => ?_)
    fun _ _ _ => trivial
  cases (approved : Option ProgramMaterializationApproval) with
  | none => exact trivial
  | some approved =>
    refine Async.Sat.bind (requireLatestPlan_sat program) (fun log w plan hplan => ?_)
      fun _ _ _ _ => trivial
    obtain ⟨hlatest, hends⟩ := hplan plan rfl
    refine (Async.sat_ite _ _ _).mpr ⟨fun _ => trivial, fun _ => ?_⟩
    exact materializePlan_sat hscheduler hid (hid ▸ hlatest) hends

end Sat

/-- Whatever the calls and their order: while every step registers what it should, every program
that becomes active has the dependencies of its plan. -/
theorem dependencies_stored {ι : Type} [DecidableEq ι] (X : ProgramExternal) (deps : ProgramDeps)
    (hscheduler : deps.scheduler = true) (w₀ : ProgramWorld) (hnamed : LineageNamed w₀)
    (hinactive : NoneActive w₀)
    (programIds : ι → String) (acts : List (Action ι ProgramSurroundings))
    (hregisters : (materializationPool X deps w₀ programIds).Along (materializationSystem X)
      (fun _ => Registers X) (fun _ _ => True) acts) (programId : String) :
    DependenciesStored ((materializationPool X deps w₀ programIds).exec (materializationSystem X)
      acts).state programId := by
  have hinit : (scheduling X ι).Holds (fun _ _ _ _ => True)
      (materializationPool X deps w₀ programIds) :=
    .init ⟨hnamed, fun id program hprogram hactive => absurd hactive (hinactive id program hprogram)⟩
      fun i => materializeNext_sat hscheduler (programIds i)
  obtain ⟨hpool, -⟩ := hinit.exec_keeps (I := fun _ => True) (fun _ _ _ _ _ => trivial) acts
    hregisters trivial
  intro program hprogram hactive plan hplan
  exact (hpool.inv.2 programId program hprogram hactive plan hplan).edges

/-! ## Children in two projects -/

namespace ProgramScenario

/-- A child of this project that waits for the first one. -/
def dependent (projectId : String) : DecompositionChildProposal :=
  { docs with requestedProjectId := some projectId, dependsOnTitles := ["build"] }

/-- A program whose children may be in either project. -/
def acrossRequest : ProgramAdmissionRequest :=
  { request ["project_1", "project_2"] with
    delegationEnvelope :=
      { envelopeFor ["project_1", "project_2"] with crossProjectDelegationAllowed := true } }

/-- A service whose hashes are only compared where they are of the same text, and whose ids are
told apart by the lengths of what they digest. -/
def brief : ProgramExternal :=
  { external with
    sha256 := fun _ => "#"
    digest := fun _ text => toString text.utf8ByteSize }

/-- The program, its plan of two children approved: the second is in this project. -/
def approvedAcross (projectId : String) : ProgramWorld :=
  let w₀ : ProgramWorld := ⟨.empty, surroundings [child, dependent projectId]⟩
  let w₁ := ((admitProgram brief acrossRequest).exec (orchestration brief) w₀).2
  let w := ((decompose brief "prog_1").exec (orchestration brief) w₁).2
  let programs := w.stores.programs.byId.list
  let approvals := programs.flatMap fun program => w.stores.plans.list.map fun plan =>
    { newApproval brief program plan 10 "#" with status := .approved }
  { stores := { w.stores with
      programs := { w.stores.programs with
        byId := (programs.map fun p => { p with status := .materializing }).foldl
          Repository.save w.stores.programs.byId }
      approvals := approvals.foldl Repository.save w.stores.approvals }
    surroundings := { w.surroundings with
      runs := fun id =>
        some ⟨id, if id = "run_built" then "project_1" else projectId, "local", .admitted, 1, 10⟩ } }

/-- Each action of one call of `materializeNext`. -/
def oneCall : List (Action (Fin 1) ProgramSurroundings) := List.replicate 28 (.run 0)

end ProgramScenario

open ProgramScenario

set_option maxRecDepth 10000 in
/-- Both children in the program's project: the theorem on one call. -/
theorem dependencies_stored_within :
    DependenciesStored ((materializationPool brief .full (approvedAcross "project_1")
      fun _ => "prog_1").exec (materializationSystem brief) oneCall).state "prog_1" :=
  dependencies_stored brief .full rfl (approvedAcross "project_1") (by decide +kernel)
    (by decide +kernel) (fun _ => "prog_1") oneCall (by decide +kernel) "prog_1"

set_option maxRecDepth 10000 in
/-- The second child is in another project: the program becomes active without the dependency. -/
theorem dependency_passed_over :
    ¬∀ (w₀ : ProgramWorld), LineageNamed w₀ → NoneActive w₀ → ∀ (programIds : Fin 1 → String) acts
        programId, DependenciesStored ((materializationPool brief .full w₀ programIds).exec
          (materializationSystem brief) acts).state programId := by
  intro h
  have hstored := h (approvedAcross "project_2") (by decide +kernel) (by decide +kernel)
    (fun _ => "prog_1") oneCall "prog_1"
  exact absurd hstored (by decide +kernel)

end Orchestrator
