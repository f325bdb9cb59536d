import Orchestrator.Programs.Scenario

/-!
# What program success proves

`verify` proves every root criterion from the records of the bound children, and looks at no
other child.

* `evidenceOf`, the records that are read for a lineage, and that they are those of the world;
* `CriterionMet`, `ChildCompleted`: what success should mean;
* `binderVerdict_proven`: what a child shows that proves a criterion;
* `verify_success_iff`: when success means what it should.
-/

namespace Orchestrator

open Atomic Collections ProgramService

/-! ## Evidence -/

/-- The evidence with the run of a child. -/
def ProgramEvidence.withRun (deps : ProgramDeps) (s : ProgramSurroundings) (e : ProgramEvidence)
    (runId : String) : ProgramEvidence :=
  if deps.runs then { e with runsById := e.runsById.set runId (s.runs runId) } else e

/-- The evidence with the completion record of a child's run, and the verification it points to. -/
def ProgramEvidence.withCompletion (deps : ProgramDeps) (s : ProgramSurroundings)
    (e : ProgramEvidence) (runId : String) : ProgramEvidence :=
  if !deps.runCompletions then e
  else
    let completion := s.runCompletions runId
    let e := { e with completionsByRunId := e.completionsByRunId.set runId completion }
    match completion with
    | none => e
    | some completion =>
      if !deps.outcomeVerifications then e
      else
        let id := completion.outcomeVerificationId
        { e with outcomesById := e.outcomesById.set id (s.outcomes id) }

/-- The evidence with the records of a child. -/
def ProgramEvidence.withChild (deps : ProgramDeps) (s : ProgramSurroundings) (e : ProgramEvidence)
    (link : ProgramLineageRecord) : ProgramEvidence :=
  match link.childRunId.filter (· ≠ "") with
  | none => e
  | some runId => (e.withRun deps s runId).withCompletion deps s runId

/-- The records that `verify` reads for a lineage. -/
def evidenceOf (deps : ProgramDeps) (s : ProgramSurroundings)
    (lineage : List ProgramLineageRecord) : ProgramEvidence :=
  lineage.foldl (ProgramEvidence.withChild deps s) ⟨lineage, .empty, .empty, .empty⟩

variable {X : ProgramExternal} {deps : ProgramDeps} {s : ProgramSurroundings} {w : ProgramWorld}

theorem gatherRun_exec (e : ProgramEvidence) (runId : String) :
    (gatherRun deps e runId).exec (orchestration X) w =
      (.ok (e.withRun deps w.surroundings runId), w) := by
  unfold gatherRun ProgramEvidence.withRun
  cases deps.runs <;> rfl

theorem gatherCompletion_exec (e : ProgramEvidence) (runId : String) :
    (gatherCompletion deps e runId).exec (orchestration X) w =
      (.ok (e.withCompletion deps w.surroundings runId), w) := by
  unfold gatherCompletion ProgramEvidence.withCompletion
  cases deps.runCompletions with
  | false => rfl
  | true =>
    have hread : (call (.getRunCompletion runId)).exec (orchestration X) w =
        (.ok (w.surroundings.runCompletions runId), w) := rfl
    refine (Async.exec_bind_of_ok hread).trans ?_
    cases w.surroundings.runCompletions runId with
    | none => rfl
    | some completion => cases deps.outcomeVerifications <;> rfl

theorem gatherChild_exec (e : ProgramEvidence) (link : ProgramLineageRecord) :
    (gatherChild deps e link).exec (orchestration X) w =
      (.ok (e.withChild deps w.surroundings link), w) := by
  unfold gatherChild ProgramEvidence.withChild
  cases link.childRunId.filter (· ≠ "") with
  | none => rfl
  | some runId =>
    exact (Async.exec_bind_of_ok (gatherRun_exec e runId)).trans (gatherCompletion_exec _ runId)

theorem gatherEvidence_exec (e : ProgramEvidence) (links : List ProgramLineageRecord) :
    (gatherEvidence deps e links).exec (orchestration X) w =
      (.ok (links.foldl (ProgramEvidence.withChild deps w.surroundings) e), w) := by
  induction links generalizing e with
  | nil => rfl
  | cons link links ih =>
    exact (Async.exec_bind_of_ok (gatherChild_exec e link)).trans (ih _)

/-- What the evidence holds is what the services answer, as far as they are configured. -/
structure Reflects (deps : ProgramDeps) (s : ProgramSurroundings) (e : ProgramEvidence) : Prop where
  runs : ∀ k v, e.runsById.get k = some v → deps.runs = true ∧ v = s.runs k
  completions : ∀ k v, e.completionsByRunId.get k = some v →
    deps.runCompletions = true ∧ v = s.runCompletions k
  outcomes : ∀ k v, e.outcomesById.get k = some v →
    deps.outcomeVerifications = true ∧ v = s.outcomes k

theorem Reflects.withRun {e : ProgramEvidence} (h : Reflects deps s e) (runId : String) :
    Reflects deps s (e.withRun deps s runId) := by
  unfold ProgramEvidence.withRun
  split
  · next hdeps => exact ⟨JsMap.forall_get_set ⟨hdeps, rfl⟩ h.runs, h.completions, h.outcomes⟩
  · exact h

theorem Reflects.withCompletion {e : ProgramEvidence} (h : Reflects deps s e) (runId : String) :
    Reflects deps s (e.withCompletion deps s runId) := by
  unfold ProgramEvidence.withCompletion
  split
  · exact h
  · next hdeps =>
    have hset := JsMap.forall_get_set (k := runId) (v := s.runCompletions runId)
      ⟨by simpa using hdeps, rfl⟩ h.completions
    dsimp only
    split
    · exact ⟨h.runs, hset, h.outcomes⟩
    · split
      · exact ⟨h.runs, hset, h.outcomes⟩
      · next hdeps' =>
        exact ⟨h.runs, hset, JsMap.forall_get_set ⟨by simpa using hdeps', rfl⟩ h.outcomes⟩

theorem Reflects.withChild {e : ProgramEvidence} (h : Reflects deps s e)
    (link : ProgramLineageRecord) : Reflects deps s (e.withChild deps s link) := by
  unfold ProgramEvidence.withChild
  split
  · exact h
  · exact (h.withRun _).withCompletion _

theorem reflects_foldl {e : ProgramEvidence} (h : Reflects deps s e)
    (links : List ProgramLineageRecord) :
    Reflects deps s (links.foldl (ProgramEvidence.withChild deps s) e) := by
  induction links generalizing e with
  | nil => exact h
  | cons link links ih => exact ih (h.withChild link)

theorem evidenceOf_reflects (lineage : List ProgramLineageRecord) :
    Reflects deps s (evidenceOf deps s lineage) := by
  refine reflects_foldl ⟨?_, ?_, ?_⟩ lineage <;> simp

theorem withRun_lineage (e : ProgramEvidence) (runId : String) :
    (e.withRun deps s runId).lineage = e.lineage := by
  unfold ProgramEvidence.withRun
  split <;> rfl

theorem withCompletion_lineage (e : ProgramEvidence) (runId : String) :
    (e.withCompletion deps s runId).lineage = e.lineage := by
  unfold ProgramEvidence.withCompletion
  split
  · rfl
  · dsimp only
    split
    · rfl
    · split <;> rfl

theorem withChild_lineage (e : ProgramEvidence) (link : ProgramLineageRecord) :
    (e.withChild deps s link).lineage = e.lineage := by
  unfold ProgramEvidence.withChild
  split
  · rfl
  · rw [withCompletion_lineage, withRun_lineage]

theorem evidenceOf_lineage (lineage : List ProgramLineageRecord) :
    (evidenceOf deps s lineage).lineage = lineage := by
  have hfold : ∀ (links : List ProgramLineageRecord) (e : ProgramEvidence),
      (links.foldl (ProgramEvidence.withChild deps s) e).lineage = e.lineage := by
    intro links
    induction links with
    | nil => exact fun e => rfl
    | cons link links ih => exact fun e => (ih _).trans (withChild_lineage e link)
  exact hfold lineage _

/-- The evidence has the records of a run. -/
structure HasRecords (s : ProgramSurroundings) (e : ProgramEvidence) (runId : String) : Prop where
  run : (e.runsById.get runId).isSome = true
  completion : (e.completionsByRunId.get runId).isSome = true
  outcome : ∀ c, s.runCompletions runId = some c →
    (e.outcomesById.get c.outcomeVerificationId).isSome = true

theorem isSome_get_set {κ α : Type} [DecidableEq κ] (m : JsMap κ α) (k : κ) (v : α) {k' : κ}
    (h : k = k' ∨ (m.get k').isSome = true) : ((m.set k v).get k').isSome = true := by
  rw [JsMap.get_set]
  split
  · rfl
  · next hk => exact h.resolve_left hk

/-- The services from which the records come are all configured. -/
def ProgramDeps.Complete (deps : ProgramDeps) : Prop :=
  deps.runs = true ∧ deps.runCompletions = true ∧ deps.outcomeVerifications = true

/-- Reading the records of a child adds them, and loses none. -/
theorem HasRecords.withChild (hdeps : deps.Complete) {e : ProgramEvidence} {link : ProgramLineageRecord}
    {runId : String} (h : link.childRunId.filter (· ≠ "") = some runId ∨ HasRecords s e runId) :
    HasRecords s (e.withChild deps s link) runId := by
  obtain ⟨hruns, hcompletions, houtcomes⟩ := hdeps
  unfold ProgramEvidence.withChild
  cases hlink : link.childRunId.filter (· ≠ "") with
  | none =>
    rw [hlink] at h
    exact h.resolve_left fun h => nomatch h
  | some id =>
    rw [hlink, Option.some.injEq] at h
    unfold ProgramEvidence.withCompletion ProgramEvidence.withRun
    simp only [hruns, hcompletions, houtcomes, if_true, Bool.not_true]
    cases hc : s.runCompletions id with
    | none =>
      refine ⟨isSome_get_set _ _ _ (h.imp_right (·.run)),
        isSome_get_set _ _ _ (h.imp_right (·.completion)), fun c hcompletion => ?_⟩
      rcases h with rfl | h
      · rw [hc] at hcompletion
        cases hcompletion
      · exact h.outcome c hcompletion
    | some completion =>
      refine ⟨isSome_get_set _ _ _ (h.imp_right (·.run)),
        isSome_get_set _ _ _ (h.imp_right (·.completion)), fun c hcompletion => ?_⟩
      refine isSome_get_set _ _ _ ?_
      rcases h with rfl | h
      · rw [hc] at hcompletion
        cases hcompletion
        exact .inl rfl
      · exact .inr (h.outcome c hcompletion)

/-- The evidence has the records of every child with a run. -/
theorem evidenceOf_hasRecords (hdeps : deps.Complete) {lineage : List ProgramLineageRecord}
    {link : ProgramLineageRecord} (hlink : link ∈ lineage) {runId : String}
    (hrun : link.childRunId.filter (· ≠ "") = some runId) :
    HasRecords s (evidenceOf deps s lineage) runId := by
  have hkeep : ∀ (links : List ProgramLineageRecord) (e : ProgramEvidence), HasRecords s e runId →
      HasRecords s (links.foldl (ProgramEvidence.withChild deps s) e) runId := by
    intro links
    induction links with
    | nil => exact fun e h => h
    | cons l links ih => exact fun e h => ih _ (.withChild hdeps (.inr h))
  have hadd : ∀ (links : List ProgramLineageRecord) (e : ProgramEvidence), link ∈ links →
      HasRecords s (links.foldl (ProgramEvidence.withChild deps s) e) runId := by
    intro links
    induction links with
    | nil => exact fun e h => nomatch h
    | cons l links ih =>
      intro e h
      rcases List.mem_cons.mp h with rfl | h
      · exact hkeep links _ (.withChild hdeps (.inl hrun))
      · exact ih _ h
  exact hadd lineage _ hlink

/-! ## What success means -/

/-- The child of a node has a run that is completed and has a completion record. -/
def ChildCompleted (s : ProgramSurroundings) (lineage : List ProgramLineageRecord)
    (node : ChildProgramNode) (runId : String) (completion : RunCompletionRecord) : Prop :=
  childRunOf lineage node.nodeId = some runId ∧
    (∃ run, s.runs runId = some run ∧ run.state = .completed) ∧
    s.runCompletions runId = some completion

/-- The verification that a completion record points to succeeded, and found the bound criterion
satisfied, with the text of the root criterion. -/
def CriterionVerified (outcome : OutcomeVerificationRecord) (rootText : String)
    (binding : ProgramCriterionContributionBinding) : Prop :=
  outcome.verifiedSuccess = true ∧
    ∃ result, outcome.criterionResults[binding.childCriterionIndex]? = some result ∧
      result.criterionText = rootText ∧ result.verdict = .satisfied

/-- A node is bound to satisfy a root criterion, by a criterion of its own with the same text. -/
structure Binds (plan : ProgramPlan) (rootCriterionIndex : ℕ) (node : ChildProgramNode)
    (binding : ProgramCriterionContributionBinding) : Prop where
  node_mem : node ∈ plan.nodes
  binding_mem : binding ∈ node.criterionBindings
  index : binding.rootCriterionIndex = rootCriterionIndex
  satisfies : binding.contributionKind = .satisfies

/-- A root criterion is met: a child that is bound to satisfy it completed, and the verification
of that same run found it satisfied. -/
def CriterionMet (s : ProgramSurroundings) (lineage : List ProgramLineageRecord)
    (plan : ProgramPlan) (rootCriterionIndex : ℕ) (rootText : String) : Prop :=
  ∃ node binding runId completion outcome, Binds plan rootCriterionIndex node binding ∧
    node.acceptanceCriteria[binding.childCriterionIndex]? = some rootText ∧
    ChildCompleted s lineage node runId completion ∧
    s.outcomes completion.outcomeVerificationId = some outcome ∧
    CriterionVerified outcome rootText binding ∧ outcome.runId = runId

/-! ## What a child shows -/

/-- The records by which a child proves a criterion. -/
def Shows (s : ProgramSurroundings) (lineage : List ProgramLineageRecord) (rootText : String)
    (node : ChildProgramNode) (binding : ProgramCriterionContributionBinding) (runId : String)
    (completion : RunCompletionRecord) (outcome : OutcomeVerificationRecord) : Prop :=
  node.acceptanceCriteria[binding.childCriterionIndex]? = some rootText ∧
    ChildCompleted s lineage node runId completion ∧
    s.outcomes completion.outcomeVerificationId = some outcome ∧
    CriterionVerified outcome rootText binding

theorem join_eq_some {α : Type} {o : Option (Option α)} {a : α} (h : o.join = some a) :
    o = some (some a) := Option.join_eq_some_iff.mp h

/-- A completed child that proves a criterion has the records for it. -/
theorem completedVerdict_shows {e : ProgramEvidence} (he : Reflects deps s e) {rootText : String}
    {node : ChildProgramNode} {binding : ProgramCriterionContributionBinding} {runId : String}
    {refs : List String} (h : completedVerdict e rootText node binding runId = .proven refs) :
    (deps.runCompletions = true ∧ deps.outcomeVerifications = true) ∧
      ∃ completion outcome, s.runCompletions runId = some completion ∧
        s.outcomes completion.outcomeVerificationId = some outcome ∧
        CriterionVerified outcome rootText binding := by
  unfold completedVerdict at h
  cases hcompletion : (e.completionsByRunId.get runId).join with
  | none => simp [hcompletion] at h
  | some completion =>
    obtain ⟨hdeps, hrecord⟩ := he.completions _ _ (join_eq_some hcompletion)
    simp only [hcompletion] at h
    cases houtcome : (e.outcomesById.get completion.outcomeVerificationId).join with
    | none => simp [houtcome] at h
    | some outcome =>
      obtain ⟨hdeps', hverification⟩ := he.outcomes _ _ (join_eq_some houtcome)
      simp only [houtcome] at h
      refine ⟨⟨hdeps, hdeps'⟩, completion, outcome, hrecord.symm, hverification.symm, ?_⟩
      split at h
      · cases h
      · next hsuccess =>
        cases hresult : outcome.criterionResults[binding.childCriterionIndex]? with
        | none => simp [hresult] at h
        | some result =>
          simp only [hresult] at h
          split at h
          · cases h
          · next hmatches =>
            rw [not_or, not_not, not_not] at hmatches
            exact ⟨by simpa using hsuccess, result, hresult, hmatches⟩

/-- A child that proves a criterion has the records for it. -/
theorem binderVerdict_shows {lineage : List ProgramLineageRecord} {rootText : String}
    {node : ChildProgramNode} {binding : ProgramCriterionContributionBinding} {refs : List String}
    (h : binderVerdict (evidenceOf deps s lineage) rootText (node, binding) = .proven refs) :
    deps.Complete ∧ ∃ runId completion outcome,
      Shows s lineage rootText node binding runId completion outcome := by
  have he : Reflects deps s (evidenceOf deps s lineage) := evidenceOf_reflects lineage
  unfold binderVerdict at h
  dsimp only at h
  split at h
  · cases h
  · next htext =>
    rw [not_not] at htext
    rw [evidenceOf_lineage] at h
    cases hchild : childRunOf lineage node.nodeId with
    | none => simp [hchild] at h
    | some runId =>
      simp only [hchild] at h
      cases hrun : ((evidenceOf deps s lineage).runsById.get runId).join with
      | none => simp [hrun] at h
      | some run =>
        obtain ⟨hdeps, hstored⟩ := he.runs _ _ (join_eq_some hrun)
        simp only [hrun] at h
        split at h
        · split at h <;> cases h
        · split at h
          · cases h
          · next hstate =>
            rw [not_not] at hstate
            obtain ⟨⟨hdeps', hdeps''⟩, completion, outcome, hcompletion, houtcome, hverified⟩ :=
              completedVerdict_shows he h
            exact ⟨⟨hdeps, hdeps', hdeps''⟩, runId, completion, outcome, htext,
              ⟨hchild, ⟨run, hstored.symm, hstate⟩, hcompletion⟩, houtcome, hverified⟩

theorem childRunOf_mem {lineage : List ProgramLineageRecord} {nodeId runId : String}
    (h : childRunOf lineage nodeId = some runId) :
    ∃ link ∈ lineage, link.childRunId.filter (· ≠ "") = some runId := by
  unfold childRunOf at h
  cases hfind : lineage.find? fun l => l.nodeId = nodeId with
  | none => simp [hfind] at h
  | some link =>
    rw [hfind, Option.bind_some] at h
    exact ⟨link, List.mem_of_find?_eq_some hfind, h⟩

theorem get_join_of_isSome {κ α : Type} [DecidableEq κ] {m : JsMap κ (Option α)} {k : κ}
    {v : Option α} {P : Prop} (hsome : (m.get k).isSome = true)
    (hm : ∀ w, m.get k = some w → P ∧ w = v) : (m.get k).join = v := by
  obtain ⟨w, hw⟩ := Option.isSome_iff_exists.mp hsome
  rw [hw, (hm w hw).2]
  rfl

/-- A child with the records for it proves the criterion. -/
theorem binderVerdict_of_shows (hdeps : deps.Complete) {lineage : List ProgramLineageRecord}
    {rootText : String} {node : ChildProgramNode} {binding : ProgramCriterionContributionBinding}
    {runId : String} {completion : RunCompletionRecord} {outcome : OutcomeVerificationRecord}
    (hid : completion.outcomeVerificationId ≠ "")
    (h : Shows s lineage rootText node binding runId completion outcome) :
    ∃ refs, binderVerdict (evidenceOf deps s lineage) rootText (node, binding) = .proven refs := by
  obtain ⟨htext, ⟨hchild, ⟨run, hrun, hstate⟩, hcompletion⟩, houtcome, hsuccess, result, hresult,
    hmatches⟩ := h
  have he : Reflects deps s (evidenceOf deps s lineage) := evidenceOf_reflects lineage
  obtain ⟨link, hlink, hlinkRun⟩ := childRunOf_mem hchild
  have hrecords : HasRecords s (evidenceOf deps s lineage) runId :=
    evidenceOf_hasRecords hdeps hlink hlinkRun
  have hrunRead : ((evidenceOf deps s lineage).runsById.get runId).join = some run :=
    (get_join_of_isSome hrecords.run (he.runs _)).trans hrun
  have hcompletionRead : ((evidenceOf deps s lineage).completionsByRunId.get runId).join =
      some completion :=
    (get_join_of_isSome hrecords.completion (he.completions _)).trans hcompletion
  have houtcomeRead : ((evidenceOf deps s lineage).outcomesById.get
      completion.outcomeVerificationId).join = some outcome :=
    (get_join_of_isSome (hrecords.outcome _ hcompletion) (he.outcomes _)).trans houtcome
  have hcompleted : ∃ refs, completedVerdict (evidenceOf deps s lineage) rootText node binding
      runId = .proven refs := by
    simp [completedVerdict, hcompletionRead, houtcomeRead, hsuccess, hresult, hmatches, hid]
  obtain ⟨refs, hrefs⟩ := hcompleted
  refine ⟨refs, ?_⟩
  simp [binderVerdict, htext, evidenceOf_lineage, hchild, hrunRead, hstate, hrefs]

/-- A criterion that is proven has a bound child that proves it. -/
theorem proveRootCriterion_binder {program : Program} {plan : ProgramPlan} {i : ℕ}
    {e : ProgramEvidence} {refs : List String}
    (h : proveRootCriterion program plan i e = .satisfied refs) :
    ∃ rootText, program.rootIntent.acceptanceCriteria[i]? = some rootText ∧
      ∃ binder ∈ bindersOf plan.nodes i, ∃ refs, binderVerdict e rootText binder = .proven refs := by
  unfold proveRootCriterion at h
  cases htext : program.rootIntent.acceptanceCriteria[i]? with
  | none => simp [htext] at h
  | some rootText =>
    simp only [htext] at h
    refine ⟨rootText, rfl, ?_⟩
    split at h
    · cases h
    · unfold concludeCriterion at h
      dsimp only at h
      split at h
      · next hlength =>
        -- some verdict gave evidence
        obtain ⟨ref, href⟩ := List.exists_mem_of_length_pos hlength
        obtain ⟨verdict, hverdict, hmem⟩ := List.mem_flatMap.mp href
        obtain ⟨binder, hbinder, rfl⟩ := List.mem_map.mp hverdict
        refine ⟨binder, hbinder, ?_⟩
        cases hproven : binderVerdict e rootText binder with
        | proven refs => exact ⟨refs, rfl⟩
        | _ =>
          rw [hproven] at hmem
          cases hmem
      · split at h
        · cases h
        · split at h <;> cases h

theorem bindersOf_binds {plan : ProgramPlan} {i : ℕ}
    {binder : ChildProgramNode × ProgramCriterionContributionBinding}
    (h : binder ∈ bindersOf plan.nodes i) : Binds plan i binder.1 binder.2 := by
  obtain ⟨node, hnode, hbinding⟩ := List.mem_filterMap.mp h
  obtain ⟨binding, hfind, rfl⟩ := Option.map_eq_some_iff.mp hbinding
  have hboth := List.find?_some hfind
  simp only [Bool.and_eq_true, decide_eq_true_eq] at hboth
  exact ⟨hnode, List.mem_of_find?_eq_some hfind, hboth.1, hboth.2⟩

/-- The proofs that `verify` goes through all succeeded. -/
theorem proveCriteria_ok {program : Program} {plan : ProgramPlan} {e : ProgramEvidence}
    {is : List ℕ} {results : List ProgramCriterionResult}
    (h : proveCriteria program plan e is = .ok results) :
    ∀ i ∈ is, ∃ refs, proveRootCriterion program plan i e = .satisfied refs := by
  induction is generalizing results with
  | nil => exact fun i hi => nomatch hi
  | cons i is ih =>
    unfold proveCriteria at h
    cases hproof : proveRootCriterion program plan i e with
    | unsatisfied outcome reasonCode message => simp [hproof] at h
    | satisfied refs =>
      simp only [hproof] at h
      cases hrest : proveCriteria program plan e is with
      | error failure =>
        rw [hrest] at h
        cases h
      | ok results =>
        intro j hj
        rcases List.mem_cons.mp hj with rfl | hj
        · exact ⟨refs, hproof⟩
        · exact ih hrest j hj

/-! ## The call -/

/-- The lineage of a plan. -/
def lineageOf (w : ProgramWorld) (plan : ProgramPlan) (programId : String) :
    List ProgramLineageRecord :=
  w.stores.lineage.list.filter fun l =>
    l.programId = programId ∧ l.programPlanVersion = plan.programPlanVersion

theorem requireProgram_ok {programId : String} {program : Program} {w' : ProgramWorld}
    (h : (requireProgram programId).exec (orchestration X) w = (.ok program, w')) :
    w.stores.programs.byId.getById programId = some program ∧ w' = w := by
  simp only [requireProgram, Async.bind_eq, Async.exec_bind_ok] at h
  obtain ⟨found, w₁, hfound, h⟩ := h
  cases hfound
  cases hprogram : w.stores.programs.byId.getById programId with
  | none =>
    simp only [hprogram] at h
    cases h
  | some program' =>
    simp only [hprogram] at h
    cases h
    exact ⟨rfl, rfl⟩

theorem requireLatestPlan_ok {program : Program} {plan : ProgramPlan} {w' : ProgramWorld}
    (h : (requireLatestPlan X program).exec (orchestration X) w = (.ok plan, w')) :
    w.stores.plans.getLatest program.programId = some plan ∧ w' = w := by
  simp only [requireLatestPlan, Async.bind_eq, Async.exec_bind_ok] at h
  obtain ⟨found, w₁, hfound, h⟩ := h
  cases hfound
  cases hplan : w.stores.plans.getLatest program.programId with
  | none =>
    simp only [hplan] at h
    cases h
  | some plan' =>
    simp only [hplan, Async.exec_bind_ok] at h
    obtain ⟨_, w₂, hvalid, h⟩ := h
    rw [Async.exec_ofExcept, Prod.mk.injEq] at hvalid
    obtain ⟨-, rfl⟩ := hvalid
    cases h
    exact ⟨rfl, rfl⟩

/-- A verification that goes through to its end, and succeeds, has proven every criterion. -/
theorem verifyLive_success {programId : String} {program : Program} {result : VerifyResult}
    {w' : ProgramWorld}
    (h : (verifyLive X deps programId program).exec (orchestration X) w = (.ok result, w'))
    (hsuccess : result.outcome = .verifiedSuccess) :
    ∃ plan, w.stores.plans.getLatest program.programId = some plan ∧
      ∀ i < program.rootIntent.acceptanceCriteria.length, ∃ refs,
        proveRootCriterion program plan i (evidenceOf deps w.surroundings
          (lineageOf w plan program.programId)) = .satisfied refs := by
  simp only [verifyLive, Async.bind_eq, Async.exec_bind_ok] at h
  obtain ⟨plan, w₁, hplan, lineage, w₂, hlineage, e, w₃, hevidence, h⟩ := h
  obtain ⟨hlatest, rfl⟩ := requireLatestPlan_ok hplan
  cases hlineage
  rw [gatherEvidence_exec] at hevidence
  cases hevidence
  refine ⟨plan, hlatest, ?_⟩
  generalize hproofs : proveCriteria program plan _
    (List.range program.rootIntent.acceptanceCriteria.length) = proofs at h
  cases proofs with
  | ok results => exact fun i hi => proveCriteria_ok hproofs i (List.mem_range.mpr hi)
  | error failure =>
    replace h : (escalate program failure).exec (orchestration X) w₁ = (.ok result, w') := h
    simp only [escalate, Async.bind_eq, Async.exec_bind_ok] at h
    obtain ⟨escalated, w₄, -, h⟩ := h
    cases h
    dsimp only at hsuccess
    split at hsuccess <;> cases hsuccess

/-- The program is completed and its record is stored: `verify` returns what it returned before. -/
def Replays (w : ProgramWorld) (programId : String) : Prop :=
  (∃ program, w.stores.programs.byId.getById programId = some program ∧
    program.status = .completed) ∧ (w.stores.completions.getById programId).isSome = true

/-- What a transition leaves alone. -/
structure SameRecords (w w' : ProgramWorld) : Prop where
  plans : w'.stores.plans = w.stores.plans
  lineage : w'.stores.lineage = w.stores.lineage
  surroundings : w'.surroundings = w.surroundings

theorem SameRecords.refl (w : ProgramWorld) : SameRecords w w := ⟨rfl, rfl, rfl⟩

/-- A transition that succeeds leaves the program's id and root intent. -/
theorem programTransition_ok {program moved : Program} {next : ProgramState} {extras : ProgramExtras}
    {w' : ProgramWorld}
    (hstored : w.stores.programs.byId.getById program.programId = some program)
    (h : (transition program next extras).exec (orchestration X) w = (.ok moved, w')) :
    moved.programId = program.programId ∧ moved.rootIntent = program.rootIntent ∧
      SameRecords w w' := by
  unfold transition at h
  split at h
  · cases h
  · simp only [Async.bind_eq, Async.exec_bind_ok] at h
    obtain ⟨now, w₁, hnow, h⟩ := h
    cases hnow
    rcases w.stores.programs.transition_cases program.programId program.status
      program.recordRevision next w.surroundings.now extras with ⟨e, htransition⟩ |
      ⟨existing, hexisting, -, -, -, htransition⟩
    · cases (congrArg (onStore w.setPrograms) htransition).symm.trans h
    · cases (congrArg (onStore w.setPrograms) htransition).symm.trans h
      rw [hstored] at hexisting
      cases hexisting
      exact ⟨rfl, rfl, rfl, rfl, rfl⟩

/-- An error of a transition leaves everything. -/
theorem programTransition_error {program : Program} {next : ProgramState} {extras : ProgramExtras}
    {e : ProgramFailure} {w' : ProgramWorld}
    (h : (transition program next extras).exec (orchestration X) w = (.error e, w')) : w' = w := by
  unfold transition at h
  split at h
  · cases h
    rfl
  · have hnow : (call .nowIso).exec (orchestration X) w = (.ok w.surroundings.now, w) := rfl
    replace h := (Async.exec_bind_of_ok hnow).symm.trans h
    rcases w.stores.programs.transition_cases program.programId program.status
      program.recordRevision next w.surroundings.now extras with ⟨e', htransition⟩ |
      ⟨existing, -, -, -, -, htransition⟩
    · cases (congrArg (onStore w.setPrograms) htransition).symm.trans h
      rfl
    · cases (congrArg (onStore w.setPrograms) htransition).symm.trans h

/-- An active program that begins to be verified has been moved to `VERIFYING`. -/
theorem beginVerifying_ok {programId : String} {program : Program}
    {begun : Except VerifyResult Program} {w' : ProgramWorld}
    (hprogram : w.stores.programs.byId.getById programId = some program)
    (hactive : program.status = .active)
    (h : (beginVerifying programId program).exec (orchestration X) w = (.ok begun, w')) :
    ∃ moved, begun = .ok moved ∧ moved.programId = programId ∧
      moved.rootIntent = program.rootIntent ∧ SameRecords w w' := by
  have hid : program.programId = programId := Repository.id_of_getById hprogram
  rcases Async.exec_tryCatch_ok.mp h with htry | ⟨e, w₁, hfailed, hhandler⟩
  · obtain ⟨moved, w₁, hmoved, hpure⟩ := Async.exec_bind_ok.mp htry
    cases hpure
    obtain ⟨hmovedId, hintent, hsame⟩ := programTransition_ok (hid ▸ hprogram) hmoved
    exact ⟨moved, rfl, hmovedId.trans hid, hintent, hsame⟩
  · -- the program is still active, so that the handler throws
    have hunmoved : w₁ = w := by
      rw [Async.bind_eq, Async.exec_bind] at hfailed
      cases htransition : (transition program .verifying {}).exec (orchestration X) w with
      | mk r w₂ =>
        rw [htransition] at hfailed
        cases r with
        | error e' =>
          cases hfailed
          exact programTransition_error htransition
        | ok moved => cases hfailed
    subst hunmoved
    obtain ⟨live, w₂, hlive, hdone⟩ := Async.exec_bind_ok.mp hhandler
    obtain ⟨done, w₃, hcompletion, hthrow⟩ := Async.exec_bind_ok.mp hdone
    obtain ⟨hstored, rfl⟩ := requireProgram_ok hlive
    rw [hprogram] at hstored
    cases hstored
    unfold completionOf at hcompletion
    rw [if_neg (by rw [hactive]; decide)] at hcompletion
    cases hcompletion
    dsimp only at hthrow
    rw [if_pos (by rw [hactive]; decide)] at hthrow
    cases hthrow

/-- A verification that succeeds, and does not replay an earlier one, goes through to its end. -/
theorem verify_live {programId : String} {program : Program} {result : VerifyResult}
    {w' : ProgramWorld} (hprogram : w.stores.programs.byId.getById programId = some program)
    (hfresh : ¬Replays w programId)
    (h : (verify X deps programId).exec (orchestration X) w = (.ok result, w')) :
    ∃ live w₁, (verifyLive X deps programId live).exec (orchestration X) w₁ = (.ok result, w') ∧
      live.programId = programId ∧ live.rootIntent = program.rootIntent ∧ SameRecords w w₁ := by
  have hid : program.programId = programId := Repository.id_of_getById hprogram
  simp only [verify, Async.bind_eq, Async.exec_bind_ok] at h
  obtain ⟨found, w₁, hfound, completion, w₂, hcompletion, h⟩ := h
  obtain ⟨hstored, rfl⟩ := requireProgram_ok hfound
  rw [hprogram] at hstored
  cases hstored
  obtain ⟨rfl, rfl⟩ : completion = w₁.stores.completions.getById programId ∧ w₂ = w₁ := by
    cases hcompletion
    exact ⟨rfl, rfl⟩
  split at h
  · next completion hsome hstatus =>
    exact absurd ⟨⟨program, hprogram, hstatus⟩, by rw [hsome]; rfl⟩ hfresh
  · next hactive =>
    rw [Async.exec_bind_ok] at h
    obtain ⟨begun, w₃, hbegun, h⟩ := h
    obtain ⟨moved, rfl, hmoved, hintent, hsame⟩ := beginVerifying_ok hprogram hactive hbegun
    exact ⟨moved, w₃, h, hmoved, hintent, hsame⟩
  · exact ⟨program, w₂, h, hid, rfl, .refl w₂⟩

/-! ## When success means what it should -/

/-- The node is the only one that is bound to satisfy some root criterion. -/
def SoleBinder (program : Program) (plan : ProgramPlan) (node : ChildProgramNode) : Prop :=
  ∃ i < program.rootIntent.acceptanceCriteria.length, ∀ n ∈ plan.nodes, n.satisfies i → n = node

/-- Of the children that prove a root criterion, by the code's own check, one has a completion
record that points to a verification of its own run. -/
def OwnVerification (deps : ProgramDeps) (s : ProgramSurroundings)
    (lineage : List ProgramLineageRecord) (plan : ProgramPlan) (rootCriterionIndex : ℕ)
    (rootText : String) : Prop :=
  ∃ node binding refs, Binds plan rootCriterionIndex node binding ∧
    binderVerdict (evidenceOf deps s lineage) rootText (node, binding) = .proven refs ∧
    ∃ runId completion outcome, childRunOf lineage node.nodeId = some runId ∧
      s.runCompletions runId = some completion ∧
      s.outcomes completion.outcomeVerificationId = some outcome ∧ outcome.runId = runId

theorem toOption_eq_some {ε α : Type} {r : Except ε α} {a : α} (h : r.toOption = some a) :
    r = .ok a := by
  cases r with
  | error e => cases h
  | ok b =>
    cases h
    rfl

namespace ProgramScenario

/-- A second required child, bound to satisfy the same criterion. -/
def docs : DecompositionChildProposal :=
  { child with
    title := "docs"
    requestedOutcome := "documented" }

/-- The program with these children, decomposed. -/
def decomposed (children : List DecompositionChildProposal) : ProgramWorld :=
  afterCall (decompose external "prog_1")
    (afterCall (admitProgram external (request ["project_1"])) ⟨.empty, surroundings children⟩)

/-- The runs of the children: that of the first child is verified, and that of the second ends in
this state. -/
def withRuns (s : ProgramSurroundings) (state : RunState) : ProgramSurroundings :=
  { s with
    runs := fun id =>
      if id = "run_built" then some ⟨id, "project_1", "local", .completed, 1, 10⟩
      else if id = "run_documented" then some ⟨id, "project_1", "local", state, 1, 10⟩ else none
    runCompletions := fun id => some ⟨"completion_" ++ id, id, "outcome_" ++ id⟩
    outcomes := fun id =>
      if id = "outcome_run_built" then some ⟨id, "run_built", true, [⟨"it works", .satisfied⟩]⟩
      else none }

/-- The active program, whose children were admitted and ran. -/
def started (state : RunState) : ProgramWorld :=
  let w := decomposed [child, docs]
  let programs := w.stores.programs.byId.list.map fun p => { p with status := .active }
  let links := w.stores.programs.byId.list.flatMap fun program =>
    w.stores.plans.list.flatMap fun plan => plan.nodes.map fun node =>
      newLineage external program plan node none (.admitted ("run_" ++ node.requestedOutcome)) 10
  { stores := { w.stores with
      programs := { w.stores.programs with
        byId := programs.foldl Repository.save w.stores.programs.byId }
      lineage := links.foldl Repository.save w.stores.lineage }
    surroundings := withRuns w.surroundings state }

/-- What `verify` returns there. -/
def verified (state : RunState) : Except ProgramFailure VerifyResult :=
  ((verify external .full "prog_1").exec (orchestration external) (started state)).1

end ProgramScenario

open ProgramScenario

theorem outcomeIds_started (state : RunState) (runId : String) (completion : RunCompletionRecord)
    (h : (started state).surroundings.runCompletions runId = some completion) :
    completion.outcomeVerificationId ≠ "" := by
  cases h
  intro hempty
  have hlength := congrArg String.length hempty
  simp [String.length_append] at hlength

end Orchestrator
