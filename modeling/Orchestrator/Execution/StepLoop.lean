import Orchestrator.Execution.Alone

/-!
# The loop over the steps

An actuation comes from one of two places:

* the turn of a primary step, after a success of every step it depends on and after no failure
  (`InTurn`);
* the rollback that the gate let through (`Undoes`).

The loop is in one of two states: `Running`, in which every result so far is fine, or `Stopped`
for good after the first failure. One turn takes either to one of them (`executeStep_loop`), and
so does the whole loop (`forEach_loop`).
-/

namespace Orchestrator

open Atomic Collections ExecutionService

/-! ## Statements -/

/-- The result is one of the step: it carries the step's idempotency key. -/
def BelongsTo (step : CompiledExecutionStep) (r : StepExecutionResult) : Prop :=
  r.idempotencyKey = step.idempotencyKey

/-- The result tells of no failure. -/
def Unfailed (r : StepExecutionResult) : Prop :=
  r.status = .succeeded ∨ r.status = .compensated ∨ r.status = .skipped

/-- The store has answered with the result: the step was completed, replayed or reconciled. -/
def Obtained (log : Log ExecutionSig) (r : StepExecutionResult) : Prop :=
  (∃ k actuated, ⟨.complete k actuated, .ok r⟩ ∈ log) ∨
  (∃ input, ⟨.reserve input, .ok (.replay r)⟩ ∈ log) ∨
  ∃ k proven, ⟨.reconcileSucceeded k proven, .ok r⟩ ∈ log

/-- The call records a failure, or asks for the rollback of one. -/
def FollowsFailure : ExecutionOp → Prop
  | .fail .. => True
  | .assertCanRollback .. => True
  | _ => False

/-- The step's turn has come: the primary steps before it have the results before `more`, none
of which is a failure; none has been recorded; and each step it depends on has succeeded. -/
def InTurn (order : List CompiledExecutionStep) (results : List StepExecutionResult)
    (log : Log ExecutionSig) (step : CompiledExecutionStep) : Prop :=
  ∃ done rest doneResults more, order = done ++ step :: rest ∧ results = doneResults ++ more ∧
    List.Forall₂ BelongsTo done doneResults ∧ (∀ r ∈ doneResults, Unfailed r) ∧
    (∀ e ∈ log, ¬FollowsFailure e.op) ∧
    ∀ dep ∈ step.dependsOn, ∃ s r, (s, r) ∈ done.zip doneResults ∧ s.stepId = dep ∧
      r.status = .succeeded ∧ Obtained log r

/-- The step is a compensating one of a rollback that the gate let through. -/
def Undoes (C : ExecutionConfig) (ctx : AttemptContext) (log : Log ExecutionSig)
    (step : CompiledExecutionStep) : Prop :=
  ∃ failedStepId plan id, ⟨.assertCanRollback ctx.plan.plan failedStepId, .ok plan⟩ ∈ log ∧
    id ∈ plan.compensatingStepIds ∧ compileCompensating C ctx plan id = .ok step

/-- The event, if it is an actuation, is of a step in its turn or of the rollback. -/
def LawfulActuation (C : ExecutionConfig) (ctx : AttemptContext)
    (order : List CompiledExecutionStep) (results : List StepExecutionResult)
    (log : Log ExecutionSig) : Event ExecutionSig → Prop
  | ⟨.actuate _ step _ _, _⟩ => InTurn order results log step ∨ Undoes C ctx log step
  | _ => True

/-! ## What stays true -/

section Monotone

variable {C : ExecutionConfig} {ctx : AttemptContext} {log : Log ExecutionSig}
variable {order done : List CompiledExecutionStep} {results : List StepExecutionResult}
variable {step : CompiledExecutionStep} {r : StepExecutionResult}

theorem Obtained.cons (h : Obtained log r) (e : Event ExecutionSig) : Obtained (e :: log) r := by
  rcases h with ⟨k, a, h⟩ | ⟨i, h⟩ | ⟨k, p, h⟩
  · exact .inl ⟨k, a, List.mem_cons_of_mem _ h⟩
  · exact .inr (.inl ⟨i, List.mem_cons_of_mem _ h⟩)
  · exact .inr (.inr ⟨k, p, List.mem_cons_of_mem _ h⟩)

theorem Undoes.cons (h : Undoes C ctx log step) (e : Event ExecutionSig) :
    Undoes C ctx (e :: log) step := by
  obtain ⟨failed, plan, id, hmem, h⟩ := h
  exact ⟨failed, plan, id, List.mem_cons_of_mem _ hmem, h⟩

/-- A turn that has come stays so when later results are added. -/
theorem InTurn.append (h : InTurn order results log step) (more : List StepExecutionResult) :
    InTurn order (results ++ more) log step := by
  obtain ⟨done, rest, doneResults, more', horder, rfl, h⟩ := h
  exact ⟨done, rest, doneResults, more' ++ more, horder, List.append_assoc _ _ _, h⟩

theorem lawful_append (h : Log.All (LawfulActuation C ctx order results) log)
    (more : List StepExecutionResult) :
    Log.All (LawfulActuation C ctx order (results ++ more)) log := by
  induction log with
  | nil => trivial
  | cons e log ih =>
    refine ⟨?_, ih h.2⟩
    obtain ⟨o, r⟩ := e
    cases o with
    | actuate action step a t => exact h.1.imp_left fun hturn => hturn.append more
    | _ => trivial

end Monotone

/-! ## The two states of the loop -/

section Loop

variable {C : ExecutionConfig} {ctx : AttemptContext} {log : Log ExecutionSig}
variable {order done : List CompiledExecutionStep} {step : CompiledExecutionStep}
variable {l : ExecuteLocals} {w : World} {U : Surroundings}

/-- Before the first failure: one result for each step done, none of them a failure. -/
structure Running (C : ExecutionConfig) (ctx : AttemptContext)
    (order done : List CompiledExecutionStep) (l : ExecuteLocals) (log : Log ExecutionSig) :
    Prop where
  failed : l.failed = false
  containmentRequired : l.containmentRequired = false
  results : List.Forall₂ BelongsTo done l.stepResults
  unfailed : ∀ r ∈ l.stepResults, Unfailed r
  completed : ∀ id r, l.completedByStepId.get id = some r → r.status = .succeeded →
    ∃ s, (s, r) ∈ done.zip l.stepResults ∧ s.stepId = id ∧ Obtained log r
  failureFree : ∀ e ∈ log, ¬FollowsFailure e.op
  lawful : Log.All (LawfulActuation C ctx order l.stepResults) log

/-- After the first failure: the results up to it, those of the rollback, and those of the steps
that are skipped. -/
structure Stopped (C : ExecutionConfig) (ctx : AttemptContext)
    (order done : List CompiledExecutionStep) (l : ExecuteLocals) (log : Log ExecutionSig)
    (before undone after : List StepExecutionResult) : Prop where
  stopped : l.failed = true ∨ l.containmentRequired = true
  stepResults : l.stepResults = before ++ undone ++ after
  results : List.Forall₂ BelongsTo done (before ++ after)
  undone : ∀ r ∈ undone, ∃ s, Undoes C ctx log s ∧ BelongsTo s r
  cause : l.containmentRequired = true ∨ ∃ r ∈ before, r.status = .failed
  lawful : Log.All (LawfulActuation C ctx order (before ++ after)) log

/-- The state of the loop after the steps `done`. -/
def Loop (C : ExecutionConfig) (ctx : AttemptContext) (order done : List CompiledExecutionStep)
    (log : Log ExecutionSig) (w : World) (l : ExecuteLocals) : Prop :=
  Attempting ctx w ∧ Told log ∧ (Running C ctx order done l log ∨
    ∃ before undone after, Stopped C ctx order done l log before undone after)

/-- The calls of a turn that the loop's state does not depend on. -/
def Unremarkable (o : ExecutionOp) : Prop :=
  Steady o ∧ ¬FollowsFailure o ∧ ∀ action step a t, o ≠ .actuate action step a t

theorem unremarkable_of_containing (o : ExecutionOp) (h : Containing o) : Unremarkable o := by
  refine ⟨steady_of_containing o h, ?_, ?_⟩
  · cases o <;> first | exact not_false | exact h.elim
  · rintro action step a t rfl
    exact h

theorem unremarkable_of_bookkeeping (o : ExecutionOp) (h : Bookkeeping o) : Unremarkable o :=
  unremarkable_of_containing o (containing_of_bookkeeping o h)

theorem unremarkable_of_reserving {k : String} (o : ExecutionOp) (h : Reserving k o) :
    Unremarkable o := by
  refine ⟨?_, ?_, ?_⟩
  · cases o <;> trivial
  · cases o <;> first | exact not_false | exact h.elim
  · rintro action step a t rfl
    exact h

theorem unremarkable_of_settling (input : StepInput) (o : ExecutionOp) (h : Settling input o) :
    Unremarkable o := by
  refine ⟨?_, ?_, ?_⟩
  · cases o <;> trivial
  · cases o <;> first | exact not_false | exact h.elim
  · rintro action step a t rfl
    exact h

theorem lawful_of_ne_actuate {results : List StepExecutionResult} {o : ExecutionOp}
    (ho : ∀ action step a t, o ≠ .actuate action step a t) (r : Except JsError o.Res) :
    LawfulActuation C ctx order results log ⟨o, r⟩ := by
  cases o with
  | actuate action step a t => exact absurd rfl (ho action step a t)
  | _ => trivial

/-- One more call, which no part of the state looks at. -/
theorem Running.cons (h : Running C ctx order done l log) {o : ExecutionOp}
    (r : Except JsError o.Res) (ho : ¬FollowsFailure o)
    (hlawful : LawfulActuation C ctx order l.stepResults log ⟨o, r⟩) :
    Running C ctx order done l (⟨o, r⟩ :: log) where
  failed := h.failed
  containmentRequired := h.containmentRequired
  results := h.results
  unfailed := h.unfailed
  completed id r hget hr := by
    obtain ⟨s, hs, hid, hobtained⟩ := h.completed id r hget hr
    exact ⟨s, hs, hid, hobtained.cons _⟩
  failureFree := List.forall_mem_cons.mpr ⟨ho, h.failureFree⟩
  lawful := ⟨hlawful, h.lawful⟩

/-- The base facts of an attempt: its run, and the answers so far. -/
abbrev Base (ctx : AttemptContext) (log : Log ExecutionSig) (w : World) : Prop :=
  Attempting ctx w ∧ Told log

theorem Base.call (h : Base ctx log w) {o : ExecutionOp} (ho : Steady o) :
    Base ctx (⟨o, (execution C.external U o w).1⟩ :: log) (execution C.external U o w).2 :=
  ⟨h.1.execution ho, List.forall_mem_cons.mpr ⟨storeAnswer_execution o w, h.2⟩⟩

theorem keeps_running :
    Keeps (aloneOn C.external U) anyCall Unremarkable fun log w =>
      Base ctx log w ∧ Running C ctx order done l log := by
  refine ⟨fun _ _ _ hw h => hw ▸ h, fun log w o r w' ho h hs => ⟨trivial, ?_⟩⟩
  obtain ⟨rfl, rfl⟩ := Prod.ext_iff.mp hs
  exact ⟨h.1.call ho.1, h.2.cons _ ho.2.1 (lawful_of_ne_actuate ho.2.2 _)⟩

/-- A step whose dependencies have all succeeded is next. -/
theorem Running.inTurn (h : Running C ctx order done l log) {rest : List CompiledExecutionStep}
    (horder : order = done ++ step :: rest) (hdeps : ¬depsFailed l.completedByStepId step = true) :
    InTurn order l.stepResults log step := by
  refine ⟨done, rest, l.stepResults, [], horder, (List.append_nil _).symm, h.results, h.unfailed,
    h.failureFree, fun dep hdep => ?_⟩
  have hsucceeded : (l.completedByStepId.get dep).map (·.status) = some .succeeded := by
    by_contra hnot
    exact hdeps (List.any_eq_true.mpr ⟨dep, hdep, decide_eq_true hnot⟩)
  obtain ⟨r, hget, hstatus⟩ := Option.map_eq_some_iff.mp hsucceeded
  obtain ⟨s, hs, hid, hobtained⟩ := h.completed dep r hget hstatus
  exact ⟨s, r, hs, hid, hstatus, hobtained⟩

/-- One more result that is not a failure. -/
theorem Running.complete (h : Running C ctx order done l log) {r : StepExecutionResult}
    (hstep : BelongsTo step r) (hr : Unfailed r)
    (hobtained : r.status = .succeeded → Obtained log r) :
    Running C ctx order (done ++ [step]) (l.complete step.stepId r) log where
  failed := h.failed
  containmentRequired := h.containmentRequired
  results := List.rel_append h.results (.cons hstep .nil)
  unfailed := by
    intro r' hr'
    rcases List.mem_append.mp hr' with hr' | hr'
    · exact h.unfailed r' hr'
    · obtain rfl := List.mem_singleton.mp hr'
      exact hr
  completed id r' hget hr' := by
    have hlength : done.length = l.stepResults.length := h.results.length_eq
    have hzip : (done ++ [step]).zip (l.complete step.stepId r).stepResults =
        done.zip l.stepResults ++ [(step, r)] := List.zip_append hlength
    rw [hzip]
    rw [ExecuteLocals.complete, JsMap.get_set] at hget
    split at hget
    · next hid =>
      cases hget
      exact ⟨step, by simp, hid, hobtained hr'⟩
    · obtain ⟨s, hs, hid, hold⟩ := h.completed id r' hget hr'
      exact ⟨s, List.mem_append_left _ hs, hid, hold⟩
  failureFree := h.failureFree
  lawful := lawful_append h.lawful [r]

/-- The first failure, before anything is undone. -/
theorem Running.stop (h : Running C ctx order done l log) {r : StepExecutionResult}
    {l' : ExecuteLocals} (hstep : BelongsTo step r)
    (hstopped : l'.failed = true ∨ l'.containmentRequired = true)
    (hresults : l'.stepResults = l.stepResults ++ [r])
    (hcause : l'.containmentRequired = true ∨ r.status = .failed) :
    Stopped C ctx order (done ++ [step]) l' log (l.stepResults ++ [r]) [] [] where
  stopped := hstopped
  stepResults := by rw [hresults, List.append_nil, List.append_nil]
  results := by
    rw [List.append_nil]
    exact List.rel_append h.results (.cons hstep .nil)
  undone := fun r hr => absurd hr List.not_mem_nil
  cause := hcause.imp_right fun hr => ⟨r, by simp, hr⟩
  lawful := lawful_append (lawful_append h.lawful [r]) []

/-- A step that is skipped after the loop has stopped. -/
theorem Stopped.skip {before undone after : List StepExecutionResult}
    (h : Stopped C ctx order done l log before undone after) {r : StepExecutionResult}
    (hstep : BelongsTo step r) :
    Stopped C ctx order (done ++ [step]) (l.push r) log before undone (after ++ [r]) where
  stopped := h.stopped
  stepResults := by
    rw [ExecuteLocals.push, h.stepResults, List.append_assoc _ after]
  results := by
    rw [← List.append_assoc]
    exact List.rel_append h.results (.cons hstep .nil)
  undone := h.undone
  cause := h.cause
  lawful := by
    rw [← List.append_assoc]
    exact lawful_append h.lawful [r]

theorem Stopped.cons {before undone after : List StepExecutionResult}
    (h : Stopped C ctx order done l log before undone after) {o : ExecutionOp}
    (r : Except JsError o.Res)
    (hlawful : LawfulActuation C ctx order (before ++ after) log ⟨o, r⟩) :
    Stopped C ctx order done l (⟨o, r⟩ :: log) before undone after where
  stopped := h.stopped
  stepResults := h.stepResults
  results := h.results
  undone r hr := by
    obtain ⟨s, hs, hbelongs⟩ := h.undone r hr
    exact ⟨s, hs.cons _, hbelongs⟩
  cause := h.cause
  lawful := ⟨hlawful, h.lawful⟩

/-- The calls that a stopped loop does not look at. -/
def Idle (o : ExecutionOp) : Prop := Steady o ∧ ∀ action step a t, o ≠ .actuate action step a t

theorem idle_of_unremarkable (o : ExecutionOp) (h : Unremarkable o) : Idle o := ⟨h.1, h.2.2⟩

theorem idle_of_bookkeeping (o : ExecutionOp) (h : Bookkeeping o) : Idle o :=
  idle_of_unremarkable o (unremarkable_of_bookkeeping o h)

theorem keeps_stopped {before undone after : List StepExecutionResult} :
    Keeps (aloneOn C.external U) anyCall Idle fun log w =>
      Base ctx log w ∧ Stopped C ctx order done l log before undone after := by
  refine ⟨fun _ _ _ hw h => hw ▸ h, fun log w o r w' ho h hs => ⟨trivial, ?_⟩⟩
  obtain ⟨rfl, rfl⟩ := Prod.ext_iff.mp hs
  exact ⟨h.1.call ho.1, h.2.cons _ (lawful_of_ne_actuate ho.2 _)⟩

/-- The state of a stopped loop is about the results and the two flags. -/
theorem Stopped.congr {before undone after : List StepExecutionResult} {l' : ExecuteLocals}
    (h : Stopped C ctx order done l log before undone after)
    (hresults : l'.stepResults = l.stepResults) (hfailed : l'.failed = l.failed)
    (hcontained : l.containmentRequired = true → l'.containmentRequired = true) :
    Stopped C ctx order done l' log before undone after where
  stopped := h.stopped.imp (fun hl => hfailed.trans hl) hcontained
  stepResults := hresults.trans h.stepResults
  results := h.results
  undone := h.undone
  cause := h.cause.imp_left hcontained
  lawful := h.lawful

/-- Containment of a stopped loop. -/
theorem contain_stopped {before undone after : List StepExecutionResult}
    (code : ExecutionErrorCode) (message : String) (hbase : Base ctx log w)
    (h : Stopped C ctx order done l log before undone after) :
    (contain ctx code message).Sat (aloneOn C.external U) anyCall (fun log' w' r l' =>
      Base ctx log' w' ∧ Stopped C ctx order done l' log' before undone after ∧
        ∀ e, r = .error e → message = "") log w l := by
  have hkeep : (contain ctx code message).Sat (aloneOn C.external U) anyCall (fun log' w' _ _ =>
      Base ctx log' w' ∧ Stopped C ctx order done l log' before undone after) log w l :=
    (only_contain code message).sat (keeps_stopped.mono fun o ho =>
      idle_of_unremarkable o (unremarkable_of_containing o ho)) ⟨hbase, h⟩
  refine (hkeep.also (contain_alone code message hbase.1)).mono fun log' w' r l' hr => ?_
  obtain ⟨⟨hbase', h'⟩, -, ⟨b, rfl⟩, herr⟩ := hr
  exact ⟨hbase', h'.congr rfl rfl id, fun e he => (herr e he).1⟩

/-! ## One turn -/

/-- The pipeline of a step in its turn. -/
theorem pipeline_running {capability : Capability} {rest : List CompiledExecutionStep}
    (horder : order = done ++ step :: rest) (hdeps : ¬depsFailed l.completedByStepId step = true)
    (hbase : Base ctx log w) (h : Running C ctx order done l log) :
    (runBoundedStepPipeline C.external C.testProfiles (stepInput ctx step capability)).Sat
      (aloneOn C.external U) anyCall (ends
        (fun log w r => (Base ctx log w ∧ Running C ctx order done l log) ∧
          Provenance (stepInput ctx step capability) log r)
        (fun log w _ => Base ctx log w ∧ Running C ctx order done l log)) log w := by
  have hkeeps : Keeps (aloneOn C.external U) anyCall Unremarkable fun log w =>
      Base ctx log w ∧ Running C ctx order done l log := keeps_running
  have hsettling := hkeeps.mono (unremarkable_of_settling (stepInput ctx step capability))
  refine runBoundedStepPipeline_sat (hkeeps.mono unremarkable_of_reserving) hsettling
    (hkeeps.mono unremarkable_of_bookkeeping) hsettling (fun _ _ h => h) (fun _ _ h => h)
    (fun log w h => ?_) (fun t action log w h => ?_) ⟨hbase, h⟩
  · refine call_alone ?_
    have hmark := And.intro (h.1.call (U := U) (C := C) (o := .markRunning step.idempotencyKey)
      trivial) (h.2.cons (execution C.external U (.markRunning step.idempotencyKey) w).1 not_false
        trivial)
    exact match (execution C.external U (.markRunning step.idempotencyKey) w).1, hmark with
      | .ok _, hmark => hmark
      | .error _, hmark => hmark
  · exact call_alone ⟨h.1.call (o := .actuate ..) trivial,
      h.2.cons (o := .actuate ..) _ not_false (.inl (h.2.inTurn horder hdeps))⟩

/-- What the pipeline's result does to the loop: an `unknown` one stops it. -/
theorem recordPipelineResult_loop {input : StepInput} (hinput : input.step = step)
    (p : PipelineResult) (hbase : Base ctx log w) (h : Running C ctx order done l log)
    (hp : Provenance input log p) :
    (recordPipelineResult ctx step p).Sat (aloneOn C.external U) anyCall
      (fun log w r l' => r.isOk = true ∧ Loop C ctx order (done ++ [step]) log w l') log w l := by
  subst hinput
  have htold := told_of_provenance hbase.2 hp
  cases p with
  | replay r =>
    refine ⟨rfl, hbase.1, hbase.2, .inl (h.complete htold.1 ?_ fun _ => .inr ?_)⟩
    · exact htold.2.imp_right .inl
    · exact hp.imp (fun ⟨t, hmem⟩ => ⟨_, hmem⟩) fun ⟨p, hmem⟩ => ⟨_, p, hmem⟩
  | succeeded r =>
    obtain ⟨actuated, -, hmem⟩ := id hp
    have h' := h.complete htold.1 (.inl htold.2) fun _ => .inl ⟨_, actuated, hmem⟩
    refine .bind_assign ((Method.sat_lift _).mpr ((announce_keeps
      (keeps_running.mono unremarkable_of_bookkeeping) _ _ ⟨hbase, h'⟩).mono fun log w r hr => ?_))
    exact ⟨hr.1, hr.2.1.1, hr.2.1.2, .inl hr.2.2⟩
  | unknown r message =>
    have hstop : Stopped C ctx order (done ++ [input.step]) ({ l with
        failed := true, containmentRequired := true, failureSummary := some message }.complete
          input.step.stepId r) log (l.stepResults ++ [r]) [] [] :=
      h.stop htold.1 (.inl rfl) rfl (.inl rfl)
    refine .bind_assign (.bind_assign (.bind_lift (announce_keeps (keeps_stopped.mono
      idle_of_bookkeeping) _ _ ⟨hbase, hstop⟩) (fun log w _ hs => ?_) fun _ _ _ hs => nomatch hs.1))
    refine (contain_stopped .stepExecutionStateUnknown message hs.2.1 hs.2.2).mono
      fun log w r l' hr => ?_
    cases r with
    | ok u => exact ⟨rfl, hr.1.1, hr.1.2, .inr ⟨_, _, _, hr.2.1⟩⟩
    | error e => exact absurd (hr.2.2 e rfl) htold.2

/-- The `try` block of a turn: where it throws, nothing has been recorded yet. -/
theorem runPrimaryStep_loop {rest : List CompiledExecutionStep}
    (horder : order = done ++ step :: rest) (hdeps : ¬depsFailed l.completedByStepId step = true)
    (hbase : Base ctx log w) (h : Running C ctx order done l log) :
    (runPrimaryStep C ctx step).Sat (aloneOn C.external U) anyCall (fun log w r l' =>
      match r with
      | .ok _ => Loop C ctx order (done ++ [step]) log w l'
      | .error _ => Base ctx log w ∧ Running C ctx order done l log ∧ l' = l) log w l := by
  refine .bind_ofExcept (fun capability _ => .bind_read ?_) fun _ _ => ⟨hbase, h, rfl⟩
  refine .bind_lift (R := fun log w _ => Base ctx log w ∧ Running C ctx order done l log)
    (call_alone ⟨hbase.call (o := .readLedger _) trivial,
      h.cons (o := .readLedger _) _ not_false trivial⟩)
    (fun log w ledger h => ?_) fun _ _ _ h => ⟨h.1, h.2, rfl⟩
  refine .bind_ofExcept (fun _ _ => ?_) fun _ _ => ⟨h.1, h.2, rfl⟩
  refine .bind_lift (pipeline_running horder hdeps h.1 h.2) (fun log w p h => ?_)
    fun _ _ _ h => ⟨h.1, h.2, rfl⟩
  refine (recordPipelineResult_loop rfl p h.1.1 h.1.2 h.2).mono fun log w r l' hr => ?_
  cases r with
  | ok u => exact hr.2
  | error e => exact nomatch hr.1

/-! ## After a failure -/

/-- One more result of the rollback. -/
theorem Stopped.undo {before undone : List StepExecutionResult}
    (h : Stopped C ctx order done l log before undone []) {r : StepExecutionResult}
    (hundoes : Undoes C ctx log step) (hstep : BelongsTo step r) :
    Stopped C ctx order done (l.push r) log before (undone ++ [r]) [] where
  stopped := h.stopped
  stepResults := by
    have hresults := h.stepResults
    rw [List.append_nil] at hresults ⊢
    rw [ExecuteLocals.push, hresults, List.append_assoc]
  results := h.results
  undone := by
    intro r' hr'
    rcases List.mem_append.mp hr' with hr' | hr'
    · exact h.undone r' hr'
    · obtain rfl := List.mem_singleton.mp hr'
      exact ⟨step, hundoes, hstep⟩
  cause := h.cause
  lawful := h.lawful

/-- The gate let the rollback of the step through, with this plan. -/
abbrev Granted (ctx : AttemptContext) (failedStepId : String) (plan : RollbackPlan)
    (log : Log ExecutionSig) : Prop :=
  (⟨.assertCanRollback ctx.plan.plan failedStepId, .ok plan⟩ : Event ExecutionSig) ∈ log

/-- The state of the loop during a rollback that the gate let through. -/
def RollingBack (C : ExecutionConfig) (ctx : AttemptContext)
    (order done : List CompiledExecutionStep) (before : List StepExecutionResult)
    (log : Log ExecutionSig) (w : World) (l : ExecuteLocals) : Prop :=
  Base ctx log w ∧ ∃ undone, Stopped C ctx order done l log before undone []

variable {before : List StepExecutionResult}

theorem keeps_rollingBack :
    Keeps (aloneOn C.external U) anyCall Idle fun log w =>
      RollingBack C ctx order done before log w l := by
  refine ⟨fun _ _ _ hw h => hw ▸ h, fun log w o r w' ho h hs => ⟨trivial, ?_⟩⟩
  obtain ⟨hbase, undone, hstopped⟩ := h
  obtain ⟨-, hbase', hstopped'⟩ := keeps_stopped.call log w o r w' ho ⟨hbase, hstopped⟩ hs
  exact ⟨hbase', undone, hstopped'⟩

/-- The pipeline of a compensating step. -/
theorem pipeline_rollingBack {failedStepId id : String} {plan : RollbackPlan}
    {capability : Capability} (hid : id ∈ plan.compensatingStepIds)
    (hcompile : compileCompensating C ctx plan id = .ok step)
    (h : RollingBack C ctx order done before log w l)
    (hgranted : Granted ctx failedStepId plan log) :
    (runBoundedStepPipeline C.external C.testProfiles (stepInput ctx step capability)).Sat
      (aloneOn C.external U) anyCall (ends
        (fun log w p => (RollingBack C ctx order done before log w l ∧
          Granted ctx failedStepId plan log) ∧
          Provenance (stepInput ctx step capability) log p)
        (fun log w _ => RollingBack C ctx order done before log w l ∧
          Granted ctx failedStepId plan log)) log w := by
  have hkeeps : Keeps (aloneOn C.external U) anyCall Idle fun log w =>
      RollingBack C ctx order done before log w l ∧ Granted ctx failedStepId plan log :=
    keeps_rollingBack.mem _
  have hsettling := hkeeps.mono fun o ho => idle_of_unremarkable o
    (unremarkable_of_settling (stepInput ctx step capability) o ho)
  refine runBoundedStepPipeline_sat (hkeeps.mono fun o ho => idle_of_unremarkable o
    (unremarkable_of_reserving o ho)) hsettling (hkeeps.mono idle_of_bookkeeping) hsettling
    (fun _ _ h => h) (fun _ _ h => h) (fun log w h => ?_) (fun t action log w h => ?_) ⟨h, hgranted⟩
  · refine ((only_call (C := Idle) (o := .markRunning _) ⟨trivial, by simp⟩).sat hkeeps h).mono
      fun log w r h => ?_
    cases r <;> exact h
  · obtain ⟨⟨hbase, undone, hstopped⟩, hmem⟩ := h
    exact call_alone ⟨⟨hbase.call (o := .actuate ..) trivial, undone,
      hstopped.cons (o := .actuate ..) _ (.inr ⟨_, plan, id, hmem, hid, hcompile⟩)⟩,
      List.mem_cons_of_mem _ hmem⟩

/-- One compensating step: whatever its end, the loop stays stopped. -/
theorem compensate_rollingBack {failedStepId id : String} {plan : RollbackPlan}
    (live : ProjectControlContext) (hid : id ∈ plan.compensatingStepIds)
    (h : RollingBack C ctx order done before log w l)
    (hgranted : Granted ctx failedStepId plan log) :
    (compensate C ctx plan live id).Sat (aloneOn C.external U) anyCall (fun log w _ l =>
      RollingBack C ctx order done before log w l ∧
        Granted ctx failedStepId plan log) log w l := by
  refine .bind_ofExcept (fun compiled hcompile => ?_) fun _ _ => ⟨h, hgranted⟩
  refine .bind_ofExcept (fun capability _ => ?_) fun _ _ => ⟨h, hgranted⟩
  refine Method.Sat.tryCatch (R := fun log w _ l =>
    RollingBack C ctx order done before log w l ∧
      Granted ctx failedStepId plan log) ?_ (fun _ _ _ _ h => h)
    fun log w error l h => (Method.sat_ite _ _ _).mpr ⟨fun _ => h, fun _ => h⟩
  refine .bind_lift (pipeline_rollingBack hid hcompile h hgranted) (fun log w p h => ?_)
    fun _ _ _ h => h
  obtain ⟨⟨⟨hbase, undone, hstopped⟩, hmem⟩, hp⟩ := h
  have htold := told_of_provenance hbase.2 hp
  have hundoes : Undoes C ctx log compiled := ⟨failedStepId, plan, id, hmem, hid, hcompile⟩
  cases p with
  | unknown r message => exact ⟨⟨hbase, undone, hstopped⟩, hmem⟩
  | succeeded r => exact ⟨⟨hbase, _, hstopped.undo hundoes htold.1⟩, hmem⟩
  | replay r => exact ⟨⟨hbase, _, hstopped.undo hundoes htold.1⟩, hmem⟩

theorem authorizeRollback_rollingBack (failedStepId : String)
    (h : RollingBack C ctx order done before log w l) :
    (authorizeRollback C ctx failedStepId).Sat (aloneOn C.external U) anyCall
      (ends (fun log w authorized => RollingBack C ctx order done before log w l ∧
          Granted ctx failedStepId authorized.1 log)
        (fun log w _ => RollingBack C ctx order done before log w l)) log w := by
  have hkeeps : Keeps (aloneOn C.external U) anyCall Idle fun log w =>
      RollingBack C ctx order done before log w l := keeps_rollingBack
  refine Async.Sat.bind (call_sat hkeeps (.assertCanRollback ..) ⟨trivial, by simp⟩ h)
    (fun log w plan h => ?_) fun _ _ _ h => h.1
  have hstart : (startRollback C ctx failedStepId plan).Only Idle :=
    only_startRollback idle_of_bookkeeping (fun _ _ => ⟨trivial, by simp⟩) ⟨trivial, by simp⟩ _ _
  exact Async.Sat.bind (hstart.sat (hkeeps.mem _) h) (fun _ _ _ h => h) fun _ _ _ h => h.1

/-- The rollback of a failed step, and the containment where it throws. -/
theorem rollbackOrContain_loop (failedStepId : String)
    (h : RollingBack C ctx order done before log w l) :
    (rollbackOrContain C ctx failedStepId).Sat (aloneOn C.external U) anyCall (fun log w r l =>
      r.isOk = true → RollingBack C ctx order done before log w l) log w l := by
  refine Method.Sat.tryCatch (R := fun log w _ l => RollingBack C ctx order done before log w l)
    ?_ (fun _ _ _ _ h _ => h) fun log w error l h => .bind_assign (.bind_assign ?_)
  · refine .bind_lift (authorizeRollback_rollingBack failedStepId h) (fun log w authorized h => ?_)
      fun _ _ _ h => h
    refine Method.Sat.bind (R := fun log w _ l => RollingBack C ctx order done before log w l) ?_
      (fun log w _ l h => (Method.sat_lift _).mpr (((only_appendEvent _ _).mono
        idle_of_bookkeeping).sat keeps_rollingBack h)) fun _ _ _ _ h => h
    refine Method.sat_forEach (I := fun ids log w l =>
      (∀ id ∈ ids, id ∈ authorized.1.compensatingStepIds) ∧
      RollingBack C ctx order done before log w l ∧
        Granted ctx failedStepId authorized.1 log) _
      (fun id ids log w l h => ?_) (fun _ _ _ h => h.2.1) ⟨fun _ h => h, h⟩
    refine (compensate_rollingBack authorized.2 (h.1 id (by simp)) h.2.1 h.2.2).mono
      fun log w r l h' => ?_
    cases r with
    | ok u => exact ⟨fun id hid => h.1 id (by simp [hid]), h'⟩
    | error e => exact h'.1
  · obtain ⟨hbase, undone, hstopped⟩ := h
    have hcontained : Stopped C ctx order done ({ l with containmentRequired := true }.addSummary
        (error.messageOr "Rollback failed")) log before undone [] :=
      hstopped.congr rfl rfl fun _ => rfl
    refine (contain_stopped (error.codeOr .rollbackFailed) _ hbase hcontained).mono
      fun log w r l hr hok => ?_
    exact ⟨hr.1, undone, hr.2.1⟩

/-- The `catch` block of a turn: if it does not throw itself, the loop is stopped. -/
theorem handleStepError_loop (error : JsError) (hbase : Base ctx log w)
    (h : Running C ctx order done l log) :
    (handleStepError C ctx step error).Sat (aloneOn C.external U) anyCall (fun log w r l =>
      r.isOk = true → Loop C ctx order (done ++ [step]) log w l) log w l := by
  have hkeeps : Keeps (aloneOn C.external U) anyCall Unremarkable fun log w =>
      Base ctx log w ∧ Running C ctx order done l log := keeps_running
  refine .bind_assign ((Method.sat_ite _ _ _).mpr ⟨fun _ => ?_, fun _ => ?_⟩)
  · refine .bind_lift (existingOrContained_sat (hkeeps.mono unremarkable_of_bookkeeping) _ _
      ⟨hbase, h⟩) (fun log w r hr => .bind_assign ?_) fun _ _ _ _ hok => nomatch hok
    obtain ⟨⟨hbase, h⟩, hfrom⟩ := hr
    have hstep : BelongsTo step r := by
      rcases hfrom with hmem | ⟨t, t', rfl⟩
      · exact hbase.2 _ hmem
      · rfl
    -- the flag that the source sets after the announcement is set already in the invariant
    refine .bind_lift (announce_keeps (hkeeps.mono unremarkable_of_bookkeeping) _ _ ⟨hbase, h⟩)
      (fun log w _ hs => .bind_assign ?_) fun _ _ _ hs => nomatch hs.1
    have hstop : Stopped C ctx order (done ++ [step]) { { l with
        failed := true, failureSummary := some (error.messageOr "Step execution failed") }.complete
          step.stepId r with containmentRequired := true } log (l.stepResults ++ [r]) [] [] :=
      hs.2.2.stop hstep (.inl rfl) rfl (.inl rfl)
    refine (contain_stopped .stepExecutionStateUnknown _ hs.2.1 hstop).mono
      fun log w r l hr _ => ⟨hr.1.1, hr.1.2, .inr ⟨_, _, _, hr.2.1⟩⟩
  · -- the failure is recorded, and then the results so far are those before the rollback
    let r (t t' : ℕ) := failedResult (stepTask ctx step) t t' error
    refine .bind_lift (R := fun log w res => ∀ a, res = .ok a → ∃ t t', a = r t t' ∧ Base ctx log w ∧
      Stopped C ctx order (done ++ [step]) ({ l with
        failed := true, failureSummary := some (error.messageOr "Step execution failed") }.complete
          step.stepId a) log (l.stepResults ++ [a]) [] []) ?_ (fun log w a hs => .bind_assign ?_)
      fun _ _ _ _ hok => nomatch hok
    · refine Async.Sat.bind ((only_call (C := Unremarkable) (o := .nowIso)
        ⟨trivial, not_false, by simp⟩).sat hkeeps ⟨hbase, h⟩) (fun log w t h => ?_)
        fun _ _ _ _ _ ha => nomatch ha
      refine Async.Sat.bind ((only_call (C := Unremarkable) (o := .nowIso)
        ⟨trivial, not_false, by simp⟩).sat hkeeps h) (fun log w t' h => ?_)
        fun _ _ _ _ _ ha => nomatch ha
      have hstop : Stopped C ctx order (done ++ [step]) ({ l with
          failed := true, failureSummary := some (error.messageOr "Step execution failed") }.complete
            step.stepId (r t t')) log (l.stepResults ++ [r t t']) [] [] :=
        h.2.stop rfl (.inl rfl) rfl (.inr rfl)
      refine Async.Sat.bind ((only_call (C := Idle) (o := .fail ..) ⟨trivial, by simp⟩).sat
        keeps_stopped ⟨h.1, hstop⟩) (fun log w _ h => ?_) fun _ _ _ _ _ ha => nomatch ha
      rintro _ ⟨⟩
      exact ⟨t, t', rfl, h⟩
    · obtain ⟨t, t', -, hbase, hstop⟩ := hs a rfl
      refine .bind_lift (announce_keeps (keeps_stopped.mono idle_of_bookkeeping) _ _
        ⟨hbase, hstop⟩) (fun log w _ hs => ?_) fun _ _ _ hs => nomatch hs.1
      refine (rollbackOrContain_loop step.stepId ⟨hs.2.1, [], hs.2.2⟩).mono fun log w r l hr hok => ?_
      obtain ⟨hbase, undone, hstopped⟩ := hr hok
      exact ⟨hbase.1, hbase.2, .inr ⟨_, undone, [], hstopped⟩⟩

/-! ## The loop -/

/-- One turn of the loop. -/
theorem executeStep_loop {rest : List CompiledExecutionStep}
    (horder : order = done ++ step :: rest) (h : Loop C ctx order done log w l) :
    (executeStep C ctx step).Sat (aloneOn C.external U) anyCall (fun log w r l =>
      r.isOk = true → Loop C ctx order (done ++ [step]) log w l) log w l := by
  obtain ⟨hattempting, htold, hstate⟩ := h
  have hbase : Base ctx (⟨.nowIso, .ok w.clock⟩ :: log) w :=
    Base.call (C := C) (U := U) ⟨hattempting, htold⟩ (o := .nowIso) trivial
  refine .bind_read ((Method.sat_ite _ _ _).mpr ⟨fun hstop => ?_, fun hgo => ?_⟩)
  · -- the loop has stopped: the step is skipped
    rcases hstate with hrunning | ⟨before, undone, after, hstopped⟩
    · simp [hrunning.failed, hrunning.containmentRequired] at hstop
    · refine (Method.sat_bind _ _).mpr ((Method.sat_lift _).mpr (call_alone fun _ => ?_))
      have hcons := hstopped.cons (o := .nowIso) (.ok w.clock) trivial
      exact ⟨hbase.1, hbase.2, .inr ⟨_, _, _, hcons.skip rfl⟩⟩
  · have hrunning : Running C ctx order done l log := by
      rcases hstate with hrunning | ⟨before, undone, after, hstopped⟩
      · exact hrunning
      · exact absurd (by simpa using hstopped.stopped) hgo
    refine (Method.sat_ite _ _ _).mpr ⟨fun _ => ?_, fun hdeps => ?_⟩
    · refine (Method.sat_bind _ _).mpr ((Method.sat_lift _).mpr (call_alone fun _ => ?_))
      have hcons := hrunning.cons (o := .nowIso) (.ok w.clock) not_false trivial
      exact ⟨hbase.1, hbase.2, .inl (hcons.complete rfl (.inr (.inr rfl)) nofun)⟩
    · refine Method.Sat.tryCatch (runPrimaryStep_loop horder hdeps ⟨hattempting, htold⟩ hrunning)
        (fun _ _ _ _ h _ => h) fun log w error l' h => ?_
      obtain ⟨hbase, hrunning, rfl⟩ := h
      exact handleStepError_loop error hbase hrunning

/-- The whole loop, if no turn throws. -/
theorem forEach_loop (h : Loop C ctx order [] log w l) :
    (Method.forEach (executeStep C ctx) order).Sat (aloneOn C.external U) anyCall
      (fun log w r l => r.isOk = true → Loop C ctx order order log w l) log w l := by
  refine Method.sat_forEach
    (I := fun rest log w l => ∃ done, order = done ++ rest ∧ Loop C ctx order done log w l) order
    (fun step rest log w l h => ?_) (fun log w l h _ => ?_) ⟨[], rfl, h⟩
  · obtain ⟨done, horder, h⟩ := h
    refine (executeStep_loop horder h).mono fun log w r l h => ?_
    cases r with
    | ok u => exact ⟨done ++ [step], horder.trans (List.append_cons _ _ _), h rfl⟩
    | error e => exact nofun
  · obtain ⟨done, horder, h⟩ := h
    rw [List.append_nil] at horder
    exact horder ▸ h

end Loop

end Orchestrator
