import Orchestrator.Execution.Opening
import Orchestrator.Execution.Scenario
import Orchestrator.Execution.StepLoop

/-!
# The reported status

What a result of `execute` says about the attempt it came from (`HonestExecution`):

* the actuations come from the turns of the primary steps and from the rollback;
* the results are one for each primary step, in order, with those of the rollback after the step
  that failed;
* the status is `EXECUTION_SUCCEEDED` exactly when every primary step succeeded and nothing had
  to be contained.

A call may also return the result of an earlier one. In a history of calls every result that is
returned, unless it was stored before the history began, comes from a call of the history whose
attempt it is honest about (`results_honest`).
-/

namespace Orchestrator

open Atomic Collections ExecutionService

/-! ## Statements -/

/-- A result that is true to the attempt it came from. -/
structure HonestExecution (C : ExecutionConfig) (ctx : AttemptContext)
    (compiled order : List CompiledExecutionStep) (before undone after : List StepExecutionResult)
    (log : Log ExecutionSig) (result : ExecutionResult) : Prop where
  /-- The order holds each compiled step that is not compensating only once. -/
  order_eq : executionOrder C.external (primarySteps ctx.plan.plan compiled) = .ok order
  order_perm : order.Perm (primarySteps ctx.plan.plan compiled)
  order_nodup : (order.map (·.stepId)).Nodup
  compiled_ids : compiled.map (·.stepId) = ctx.plan.plan.steps.map (·.stepId)
  stepResults : result.stepResults = before ++ undone ++ after
  /-- One result for each primary step; the others are of the rollback. -/
  primary : List.Forall₂ BelongsTo order (before ++ after)
  rollback : ∀ r ∈ undone, ∃ step, Undoes C ctx log step ∧ BelongsTo step r
  status : result.status = .executionSucceeded ↔
    (∀ r ∈ before ++ after, r.status = .succeeded) ∧ result.containmentRequired = false
  actuations : Log.All (LawfulActuation C ctx order (before ++ after)) log

/-! ## The order -/

section Order

variable {X : External}

theorem mapM_compile_ids {f : ExecutionStep → Except JsError CompiledExecutionStep}
    (hf : ∀ step c, f step = .ok c → c.stepId = step.stepId) (steps : List ExecutionStep)
    {compiled : List CompiledExecutionStep} (h : steps.mapM f = .ok compiled) :
    compiled.map (·.stepId) = steps.map (·.stepId) := by
  induction mapM_ok.mp h with
  | nil => rfl
  | cons hstep hrest ih =>
    exact congrArg₂ List.cons (hf _ _ hstep) (ih (mapM_ok.mpr hrest))

/-- Compiling a plan compiles each of its steps. -/
theorem compile_ids {grammar : ArgumentGrammar} {plan : ExecutionPlan}
    {ids : JsMap String String} {compiled : List CompiledExecutionStep}
    (h : DryRunCompiler.compile X grammar plan ids = .ok compiled) :
    compiled.map (·.stepId) = plan.steps.map (·.stepId) := by
  refine mapM_compile_ids (fun step c hc => ?_) _ h
  simp only [DryRunCompiler.compileStep] at hc
  split at hc
  · cases hc
  · split at hc
    · cases hc
    · simp only [External.parse] at hc
      split at hc
      · cases hc
        rfl
      · cases hc

/-- The order holds each of the steps once. -/
theorem executionOrder_perm {steps order : List CompiledExecutionStep}
    (h : executionOrder X steps = .ok order) :
    order.Perm steps ∧ (order.map (·.stepId)).Nodup := by
  simp only [executionOrder] at h
  split at h
  · cases h
  · next groups hgroups =>
    cases h
    obtain ⟨hnodup, hperm⟩ := DependencyGraphService.validate_perm hgroups
    rw [List.map_map] at hnodup hperm
    change (steps.map (·.stepId)).Nodup at hnodup
    change groups.flatten.Perm (steps.map (·.stepId)) at hperm
    have hget : ∀ step ∈ steps,
        (JsMap.ofList (steps.map fun s => (s.stepId, s))).get step.stepId = some step :=
      fun step hs => JsMap.get_ofList (by rw [List.map_map]; exact hnodup)
        (List.mem_map.mpr ⟨step, hs, rfl⟩)
    have hlookup : (steps.map (·.stepId)).filterMap
        (JsMap.ofList (steps.map fun s => (s.stepId, s))).get = steps := by
      rw [List.filterMap_map]
      have hself : ∀ step ∈ steps, ((JsMap.ofList (steps.map fun s => (s.stepId, s))).get ∘
          fun s : CompiledExecutionStep => s.stepId) step = some step := hget
      rw [List.filterMap_congr hself]
      exact List.filterMap_some
    have horder := hperm.filterMap (JsMap.ofList (steps.map fun s => (s.stepId, s))).get
    rw [hlookup] at horder
    exact ⟨horder, (horder.map _).nodup_iff.mpr hnodup⟩

end Order

/-! ## The status -/

section Status

variable {C : ExecutionConfig} {ctx : AttemptContext} {log : Log ExecutionSig}
variable {compiled order : List CompiledExecutionStep} {l : ExecuteLocals}

/-- The steps of the results are counted among all of them. -/
theorem finalStatus_succeeded_iff {n : ℕ} :
    (finalStatus l n).1 = .executionSucceeded ↔ l.containmentRequired = false ∧
      (∀ r ∈ l.stepResults, r.status ≠ .failed) ∧
        (l.stepResults.filter (·.status = .succeeded)).length = n := by
  rw [finalStatus]
  cases l.containmentRequired with
  | true => simp
  | false =>
    simp only [Bool.false_eq_true, if_false, List.length_eq_zero_iff, List.filter_eq_nil_iff,
      decide_eq_true_eq, true_and, ne_eq]
    split
    · next h => simpa using h
    · next h =>
      split <;> simpa using h

/-- While no result is a failure, the count of the successes is that of the steps exactly when
every result is a success. -/
theorem status_running {done : List CompiledExecutionStep} (h : Running C ctx order done l log) :
    (finalStatus l done.length).1 = .executionSucceeded ↔
      (∀ r ∈ l.stepResults, r.status = .succeeded) ∧ l.containmentRequired = false := by
  have hlength : done.length = l.stepResults.length := h.results.length_eq
  rw [finalStatus_succeeded_iff, hlength, List.length_filter_eq_length_iff]
  have hfailed : ∀ r ∈ l.stepResults, r.status ≠ .failed := by
    intro r hr hstatus
    rcases h.unfailed r hr with hs | hs | hs <;> rw [hs] at hstatus <;> cases hstatus
  simp only [decide_eq_true_eq]
  exact ⟨fun hs => ⟨hs.2.2, hs.1⟩, fun hs => ⟨hs.2, hfailed, hs.1⟩⟩

/-- A stopped loop never ends in `EXECUTION_SUCCEEDED`. -/
theorem status_stopped {n : ℕ} {done : List CompiledExecutionStep}
    {before undone after : List StepExecutionResult}
    (h : Stopped C ctx order done l log before undone after) :
    (finalStatus l n).1 = .executionSucceeded ↔
      (∀ r ∈ before ++ after, r.status = .succeeded) ∧ l.containmentRequired = false := by
  rw [finalStatus_succeeded_iff]
  rcases h.cause with hcontained | ⟨r, hr, hfailed⟩
  · simp [hcontained]
  · have hmem : r ∈ l.stepResults := by
      rw [h.stepResults]
      simp [hr]
    refine ⟨fun hs => absurd hfailed (hs.2.1 r hmem), fun hs => ?_⟩
    rw [hs.1 r (List.mem_append_left _ hr)] at hfailed
    cases hfailed

end Status

/-! ## From the loop to the result -/

/-- The call has executed the run, and the result is true to its attempt. -/
def Honest (C : ExecutionConfig) (runId : String) (log : Log ExecutionSig)
    (result : ExecutionResult) : Prop :=
  ∃ ctx compiled order before undone after, Prepared C runId log ctx compiled ∧
    HonestExecution C ctx compiled order before undone after log result

section Honest

variable {C : ExecutionConfig} {ctx : AttemptContext} {log : Log ExecutionSig}
variable {compiled order : List CompiledExecutionStep} {l : ExecuteLocals} {runId : String}
variable {w₀ w : World} {U : Surroundings}

theorem Prepared.cons (h : Prepared C runId log ctx compiled) (e : Event ExecutionSig) :
    Prepared C runId (e :: log) ctx compiled := by
  obtain ⟨ready, hready, hplan⟩ := h.ready
  obtain ⟨projectId, environment, hcontrol⟩ := h.control
  exact ⟨h.runId_eq, ⟨ready, List.mem_cons_of_mem _ hready, hplan⟩,
    ⟨projectId, environment, List.mem_cons_of_mem _ hcontrol⟩, h.compile⟩

/-- What is true to an attempt stays so when the call goes on without actuating. -/
theorem Honest.cons {result : ExecutionResult} (h : Honest C runId log result) {o : ExecutionOp}
    (ho : ∀ action step a t, o ≠ .actuate action step a t) (r : Except JsError o.Res) :
    Honest C runId (⟨o, r⟩ :: log) result := by
  obtain ⟨ctx, compiled, order, before, undone, after, hprepared, h⟩ := h
  refine ⟨ctx, compiled, order, before, undone, after, hprepared.cons _, { h with
    rollback := fun r hr => ?_, actuations := ⟨lawful_of_ne_actuate ho r, h.actuations⟩ }⟩
  obtain ⟨step, hundoes, hstep⟩ := h.rollback r hr
  exact ⟨step, hundoes.cons _, hstep⟩

/-- At the end of the loop the result is true to the attempt, whenever it is completed. -/
theorem Loop.honest (h : Loop C ctx order order log w l) (hprepared : Prepared C runId log ctx compiled)
    (horder : executionOrder C.external (primarySteps ctx.plan.plan compiled) = .ok order) (t : ℕ) :
    Honest C runId log (executionResult ctx l (finalStatus l order.length).1 t) := by
  obtain ⟨hperm, hnodup⟩ := executionOrder_perm horder
  obtain ⟨-, -, hrunning | ⟨before, undone, after, hstopped⟩⟩ := h
  · refine ⟨ctx, compiled, order, l.stepResults, [], [], hprepared, horder, hperm, hnodup,
      compile_ids hprepared.compile, by simp [executionResult], ?_, by simp, ?_, ?_⟩
    · rw [List.append_nil]
      exact hrunning.results
    · rw [List.append_nil]
      exact status_running hrunning
    · rw [List.append_nil]
      exact hrunning.lawful
  · exact ⟨ctx, compiled, order, before, undone, after, hprepared, horder, hperm, hnodup,
      compile_ids hprepared.compile, hstopped.stepResults, hstopped.results, hstopped.undone,
      status_stopped hstopped, hstopped.lawful⟩

/-- The stored results are earlier ones, or true to the attempt of this call. -/
def StoresHonestly (C : ExecutionConfig) (runId : String) (w₀ : World) (log : Log ExecutionSig)
    (w : World) : Prop :=
  ∀ r, w.Stored r → w₀.Stored r ∨ Honest C runId log r

/-- The calls of the end of an execution with these results. -/
def Reporting (ctx : AttemptContext) (l : ExecuteLocals) (status : ExecutionResultStatus) :
    ExecutionOp → Prop
  | .cacheResult _ r => ∃ t, r = executionResult ctx l status t
  | .storeFenceResult _ r => ∃ t, r = executionResult ctx l status t
  | o => Administrative o

theorem reporting_of_containing {status : ExecutionResultStatus} (o : ExecutionOp)
    (h : Containing o) : Reporting ctx l status o := by
  cases o <;> trivial

/-- The state of a call that reports the results of its loop. -/
def Reports (C : ExecutionConfig) (runId : String) (w₀ : World) (ctx : AttemptContext)
    (l : ExecuteLocals) (status : ExecutionResultStatus) (log : Log ExecutionSig) (w : World) :
    Prop :=
  Told log ∧ (∀ t, Honest C runId log (executionResult ctx l status t)) ∧
    StoresHonestly C runId w₀ log w

theorem keeps_reports {status : ExecutionResultStatus} :
    Keeps (aloneOn C.external U) anyCall (Reporting ctx l status) fun log w =>
      Reports C runId w₀ ctx l status log w := by
  refine ⟨fun _ _ _ hw h => hw ▸ h, fun log w o r w' ho h hs => ⟨trivial, ?_⟩⟩
  obtain ⟨rfl, rfl⟩ := Prod.ext_iff.mp hs
  have hactuate : ∀ action step a t, o ≠ .actuate action step a t := by
    rintro action step a t rfl
    exact ho
  obtain ⟨htold, hhonest, hstores⟩ := h
  have hhonest' := fun t => (hhonest t).cons hactuate (execution C.external U o w).1
  refine ⟨List.forall_mem_cons.mpr ⟨storeAnswer_execution o w, htold⟩, hhonest', fun r hr => ?_⟩
  rcases stored_execution hr with hr | ⟨key, rfl⟩ | ⟨k, rfl⟩
  · exact (hstores r hr).imp_right fun h => h.cons hactuate _
  · obtain ⟨t, rfl⟩ := ho
    exact .inr (hhonest' t)
  · obtain ⟨t, rfl⟩ := ho
    exact .inr (hhonest' t)

/-- The end of `execute` returns and stores a result that is true to the attempt. -/
theorem finish_honest {n : ℕ} (key : ExecutionFenceKey) (owner : String)
    (h : Reports C runId w₀ ctx l (finalStatus l n).1 log w) :
    (finish ctx key owner n l).Sat (aloneOn C.external U) anyCall (ends
      (fun log w r => Honest C runId log r ∧ StoresHonestly C runId w₀ log w)
      (fun log w _ => StoresHonestly C runId w₀ log w)) log w := by
  have hstep : ∀ {α : Type} {p : Exec α} {log w}, p.Only (Reporting ctx l (finalStatus l n).1) →
      Reports C runId w₀ ctx l (finalStatus l n).1 log w →
      p.Sat (aloneOn C.external U) anyCall (fun log w _ =>
        Reports C runId w₀ ctx l (finalStatus l n).1 log w) log w :=
    fun hp h => hp.sat keeps_reports h
  refine Async.Sat.bind (hstep (only_call (o := .nowIso) trivial) h) (fun log w t h => ?_)
    fun _ _ _ h => h.2.2
  have hkeeps : Keeps (aloneOn C.external U) anyCall (Reporting ctx l (finalStatus l n).1)
      fun log w => Reports C runId w₀ ctx l (finalStatus l n).1 log w := keeps_reports
  refine Async.Sat.bind (call_sat hkeeps (.parseExecutionResult _) trivial h)
    (fun log w result h => ?_) fun _ _ _ h => h.1.2.2
  obtain ⟨h, hparsed⟩ := h
  obtain rfl : result = executionResult ctx l (finalStatus l n).1 t := h.1 _ hparsed
  refine Async.Sat.bind (hstep (only_call (o := .saveAttempt _) trivial) h) (fun log w _ h => ?_)
    fun _ _ _ h => h.2.2
  refine Async.Sat.bind (hstep (only_call (o := .cacheResult ..) ⟨t, rfl⟩) h)
    (fun log w _ h => ?_) fun _ _ _ h => h.2.2
  refine Async.Sat.bind (hstep (only_call (o := .storeFenceResult ..) ⟨t, rfl⟩) h)
    (fun log w _ h => ?_) fun _ _ _ h => h.2.2
  refine Async.Sat.bind (hstep (only_closeFence (fun _ _ _ _ _ => trivial) reporting_of_containing
    _ _ _ _ _) h) (fun log w _ h => ?_) fun _ _ _ h => h.2.2
  refine Async.Sat.bind (hstep ((only_appendEvent _ _).mono fun o ho =>
    reporting_of_containing o (containing_of_bookkeeping o ho)) h) (fun log w _ h => ?_)
    fun _ _ _ h => h.2.2
  exact ⟨h.2.1 t, h.2.2⟩

/-- What the loop carries along: how the attempt was prepared, and that no result is stored. -/
def Carried (C : ExecutionConfig) (runId : String) (w₀ : World) (ctx : AttemptContext)
    (compiled : List CompiledExecutionStep) (log : Log ExecutionSig) (w : World) : Prop :=
  Prepared C runId log ctx compiled ∧ ∀ r, w.Stored r → w₀.Stored r

theorem Carried.stores (h : Carried C runId w₀ ctx compiled log w) :
    StoresHonestly C runId w₀ log w := fun r hr => .inl (h.2 r hr)

/-- The calls of the turns and of the rollback. -/
def Looping : ExecutionOp → Prop
  | .assertCanRollback .. => True
  | .recordAutomaticRollback => True
  | o => Stepping o

theorem looping_of_stepping (o : ExecutionOp) (h : Stepping o) : Looping o := by
  cases o <;> first | exact h | trivial

/-- The calls of the turns and of the rollback store no result. -/
theorem keeps_carried :
    Keeps (aloneOn C.external U) anyCall Looping (Carried C runId w₀ ctx compiled) := by
  refine ⟨fun _ _ _ hw h => hw ▸ h, fun log w o r w' ho h hs => ⟨trivial, h.1.cons _, fun r hr => ?_⟩⟩
  obtain ⟨-, rfl⟩ := Prod.ext_iff.mp hs
  rcases stored_execution hr with hr | ⟨key, rfl⟩ | ⟨k, rfl⟩
  · exact h.2 r hr
  · exact ho.elim
  · exact ho.elim

theorem authorizeRollback_carried (id : String) (log : Log ExecutionSig) (w : World)
    (h : Carried C runId w₀ ctx compiled log w) :
    (authorizeRollback C ctx id).Sat (aloneOn C.external U) anyCall
      (fun log w _ => Carried C runId w₀ ctx compiled log w) log w := by
  refine Async.Sat.bind ((only_call (C := Looping) (o := .assertCanRollback ..) trivial).sat
    keeps_carried h) (fun log w plan h => ?_) fun _ _ _ h => h
  have hstart : (startRollback C ctx id plan).Only Looping :=
    only_startRollback (fun o ho => looping_of_stepping o (stepping_of_bookkeeping o ho))
      (fun _ _ => trivial) trivial id plan
  exact Async.Sat.bind (hstart.sat keeps_carried h) (fun _ _ _ h => h) fun _ _ _ h => h

/-- The whole loop, with what it carries along. -/
theorem forEach_carried (h : Loop C ctx order [] log w .initial)
    (hcarried : Carried C runId w₀ ctx compiled log w) :
    (Method.forEach (executeStep C ctx) order).Sat (aloneOn C.external U) anyCall
      (fun log w r l => (r.isOk = true → Loop C ctx order order log w l) ∧
        Carried C runId w₀ ctx compiled log w) log w .initial := by
  refine (forEach_loop h).also ?_
  refine Method.sat_forEach (I := fun _ log w _ => Carried C runId w₀ ctx compiled log w) order
    (fun step rest log w l h => ?_) (fun _ _ _ h => h) hcarried
  refine (executeStep_keeps (keeps_carried.mono looping_of_stepping) authorizeRollback_carried step
    h).mono fun log w r l h => ?_
  cases r <;> exact h

/-- The loop begins in its running state. -/
theorem Opened.loop (h : Opened w₀ ctx log w) : Loop C ctx order [] log w .initial := by
  refine ⟨h.attempting, h.told, .inl ⟨rfl, rfl, .nil, by simp [ExecuteLocals.initial], ?_, ?_, ?_⟩⟩
  · intro id r hget
    simp [ExecuteLocals.initial] at hget
  · intro e he hfollows
    have hop := h.calls e he
    obtain ⟨o, r⟩ := e
    cases o <;> first | exact hfollows | exact hop
  · have hcalls := h.calls
    clear h
    induction log with
    | nil => trivial
    | cons e log ih =>
      refine ⟨?_, ih fun e he => hcalls e (List.mem_cons_of_mem _ he)⟩
      have hop := hcalls e List.mem_cons_self
      obtain ⟨o, r⟩ := e
      cases o <;> trivial

/-- The part of `execute` from the loop on. -/
theorem runAttempt_honest (key : ExecutionFenceKey) (owner : String) (h : Opened w₀ ctx log w)
    (hprepared : Prepared C runId log ctx compiled) :
    (runAttempt C ctx compiled key owner).Sat (aloneOn C.external U) anyCall (ends
      (fun log w r => Honest C runId log r ∧ StoresHonestly C runId w₀ log w)
      (fun log w _ => StoresHonestly C runId w₀ log w)) log w := by
  have hloop : ∀ order, Loop C ctx order [] (⟨.createLedger ctx.executionAttemptId
      ctx.control.resourceBudget, .ok ()⟩ :: log) (execution C.external U (.createLedger
        ctx.executionAttemptId ctx.control.resourceBudget) w).2 .initial := by
    intro order
    have hopened : Loop C ctx order [] log w .initial := h.loop
    obtain ⟨hattempting, htold, hstate⟩ := hopened
    have hbase := Base.call (C := C) (U := U) ⟨hattempting, htold⟩
      (o := .createLedger ctx.executionAttemptId ctx.control.resourceBudget) trivial
    refine ⟨hbase.1, hbase.2, hstate.imp (fun hrunning => hrunning.cons _ not_false trivial) ?_⟩
    rintro ⟨before, undone, after, hstopped⟩
    exact ⟨before, undone, after, hstopped.cons _ trivial⟩
  have hcarried : Carried C runId w₀ ctx compiled (⟨.createLedger ctx.executionAttemptId
      ctx.control.resourceBudget, .ok ()⟩ :: log) (execution C.external U (.createLedger
        ctx.executionAttemptId ctx.control.resourceBudget) w).2 :=
    ⟨hprepared.cons _, fun r hr => h.stored r hr⟩
  refine bind_call_ok rfl (.bind_ofExcept (fun order horder => (Method.sat_asAsync _).mpr ?_)
    fun _ _ => hcarried.stores)
  refine Method.Sat.bind (forEach_carried (hloop order) hcarried)
    (fun log w _ l h => .bind_read ((Method.sat_lift _).mpr ?_)) fun _ _ _ _ h => h.2.stores
  obtain ⟨h, hcarried⟩ := h
  exact finish_honest key owner ⟨(h rfl).2.1, fun t => (h rfl).honest hcarried.1 horder t,
    hcarried.stores⟩

/-- One call of `execute`: its result is an earlier one, or true to the attempt of the call; and
so is every result it stores. -/
theorem execute_honest :
    (execute C runId).Sat (aloneOn C.external U) anyCall (ends
      (fun log w r => (w₀.Stored r ∨ Honest C runId log r) ∧ StoresHonestly C runId w₀ log w)
      (fun log w _ => StoresHonestly C runId w₀ log w)) [] w₀ := by
  refine execute_alone runId ?_ (fun log w r h hr => ⟨.inl hr, fun r hr => .inl (h.stored r hr)⟩)
    (fun log w h r hr => .inl (h.stored r hr)) fun ctx compiled key owner log w h hprepared _ => ?_
  · refine ⟨fun _ _ _ hw h => hw ▸ h, fun log w o r w' ho h hs => ⟨trivial, fun r hr => ?_⟩⟩
    obtain ⟨-, rfl⟩ := Prod.ext_iff.mp hs
    rcases stored_execution hr with hr | ⟨key, rfl⟩ | ⟨k, rfl⟩
    · refine (h r hr).imp_right fun hr => hr.cons ?_ _
      rintro action step a t rfl
      exact ho
    · exact ho.elim
    · exact ho.elim
  · refine (runAttempt_honest key owner h hprepared).mono fun log w r h => ?_
    cases r with
    | ok result => exact ⟨.inr h.1, h.2⟩
    | error e => exact h

end Honest

/-! ## Histories -/

/-- A call of `execute`, in its surroundings. -/
structure ExecuteCall where
  runId : String
  surroundings : Surroundings

/-- The call, alone on the world it finds. -/
def ExecuteCall.outcome (C : ExecutionConfig) (w : World) (c : ExecuteCall) :
    Outcome ExecutionSig World (Except JsError ExecutionResult) :=
  (execute C c.runId).prog.run (execution C.external c.surroundings) w []

/-- Calls one after the other, each with its outcome. -/
def history (C : ExecutionConfig) : World → List ExecuteCall →
    List (ExecuteCall × Outcome ExecutionSig World (Except JsError ExecutionResult))
  | _, [] => []
  | w, c :: cs => (c, c.outcome C w) :: history C (c.outcome C w).state cs

/-- The world after calls one after the other. -/
def worldAfter (C : ExecutionConfig) (w : World) (calls : List ExecuteCall) : World :=
  calls.foldl (fun w c => (c.outcome C w).state) w

section Histories

variable {C : ExecutionConfig}

theorem outcome_honest (w : World) (c : ExecuteCall) :
    (∀ r, (c.outcome C w).val = .ok r → w.Stored r ∨ Honest C c.runId (c.outcome C w).log r) ∧
      StoresHonestly C c.runId w (c.outcome C w).log (c.outcome C w).state := by
  have hsat : (execute C c.runId).Sat (aloneOn C.external c.surroundings) anyCall (ends
      (fun log w' r => (w.Stored r ∨ Honest C c.runId log r) ∧ StoresHonestly C c.runId w log w')
      (fun log w' _ => StoresHonestly C c.runId w log w')) [] w := execute_honest
  have hrun := (Prog.Sat.run (G := fun _ _ => True) (Handler.meets_alone _) hsat
    (Log.all_nil _)).1
  change ends _ _ _ (c.outcome C w).state (c.outcome C w).val at hrun
  cases hval : (c.outcome C w).val with
  | ok r =>
    rw [hval] at hrun
    refine ⟨?_, hrun.2⟩
    rintro _ ⟨⟩
    exact hrun.1
  | error e =>
    rw [hval] at hrun
    exact ⟨nofun, hrun⟩

/-- A result that is stored after a history was stored before it, or comes from one of its
calls. -/
theorem stored_worldAfter (w : World) (calls : List ExecuteCall) {r : ExecutionResult}
    (h : (worldAfter C w calls).Stored r) :
    w.Stored r ∨ ∃ p ∈ history C w calls, Honest C p.1.runId p.2.log r := by
  induction calls generalizing w with
  | nil => exact .inl h
  | cons c cs ih =>
    rcases ih _ h with hstored | ⟨p, hp, hhonest⟩
    · refine ((outcome_honest w c).2 r hstored).imp_right fun hhonest => ?_
      exact ⟨(c, c.outcome C w), List.mem_cons_self, hhonest⟩
    · exact .inr ⟨p, List.mem_cons_of_mem _ hp, hhonest⟩

theorem history_append (w : World) (earlier : List ExecuteCall) (c : ExecuteCall) :
    history C w (earlier ++ [c]) =
      history C w earlier ++ [(c, c.outcome C (worldAfter C w earlier))] := by
  induction earlier generalizing w with
  | nil => rfl
  | cons c' cs ih => exact congrArg _ (ih _)

/-- Whatever calls came before: a result that `execute` returns was stored before the history
began, or is true to the attempt of one of the calls up to this one. -/
theorem results_honest (C : ExecutionConfig) (w : World) (earlier : List ExecuteCall)
    (c : ExecuteCall) (r : ExecutionResult)
    (h : (c.outcome C (worldAfter C w earlier)).val = .ok r) :
    w.Stored r ∨ ∃ p ∈ history C w (earlier ++ [c]), Honest C p.1.runId p.2.log r := by
  rw [history_append]
  rcases (outcome_honest _ c).1 r h with hstored | hhonest
  · refine (stored_worldAfter w earlier hstored).imp_right ?_
    rintro ⟨p, hp, hhonest⟩
    exact ⟨p, List.mem_append_left _ hp, hhonest⟩
  · exact .inr ⟨_, List.mem_append_right _ List.mem_cons_self, hhonest⟩

end Histories

/-- A run of two patches, the second of which depends on the first. -/
private def twoPatches : ExecuteCall where
  runId := "run_1"
  surroundings := Scenario.surroundings
    [Scenario.patch "step_2" ["step_1"] [], Scenario.patch "step_1" [] []] ["step_1", "step_2"]
    (Scenario.control (Scenario.patches []) 30) (fun _ => none) 1

/-- The two patches go through, and their result is true to the attempt. -/
theorem results_honest_twoPatches :
    ∃ r, r.status = .executionSucceeded ∧ ((Scenario.world ["run_1"]).Stored r ∨
      ∃ p ∈ history Scenario.config (Scenario.world ["run_1"]) ([] ++ [twoPatches]),
        Honest Scenario.config p.1.runId p.2.log r) := by
  have hstatus : (match (twoPatches.outcome Scenario.config (Scenario.world ["run_1"])).val with
    | .ok r => some r.status
    | .error _ => none) = some .executionSucceeded := by decide +kernel
  cases hval : (twoPatches.outcome Scenario.config (Scenario.world ["run_1"])).val with
  | error e =>
    rw [hval] at hstatus
    cases hstatus
  | ok r =>
    rw [hval] at hstatus
    exact ⟨r, Option.some.inj hstatus,
      results_honest Scenario.config (Scenario.world ["run_1"]) [] twoPatches r hval⟩

end Orchestrator
