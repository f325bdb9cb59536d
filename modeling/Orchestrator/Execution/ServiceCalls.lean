import Orchestrator.Execution.Calls
import Orchestrator.Execution.Service

/-!
# Which calls the parts of the execution service make

The parts of `execute` around its pipelines and its rollback gate are administrative: they read
and write runs, fences, attempts and events, and touch neither the step store, the actuator, the
gate nor the control plane.
-/

namespace Orchestrator

open Atomic

/-- The calls on runs, fences, attempts, results and events. -/
def Administrative : ExecutionOp → Prop
  | .nextExecutionAttemptId => True
  | .nextAuthoritySnapshotId => True
  | .transitionRun .. => True
  | .getPlan _ => True
  | .getLatestAuthorization _ => True
  | .requireReady _ => True
  | .assertFresh .. => True
  | .getFence _ => True
  | .getFenceResult _ => True
  | .beginFence .. => True
  | .storeFenceResult .. => True
  | .transitionFence .. => True
  | .cachedResult _ => True
  | .cacheResult .. => True
  | .saveSnapshot .. => True
  | .saveAttempt _ => True
  | .createLedger .. => True
  | .buildContainmentResult _ => True
  | .parseExecutionResult _ => True
  | o => Bookkeeping o

theorem administrative_of_bookkeeping (o : ExecutionOp) (h : Bookkeeping o) :
    Administrative o := by
  cases o <;> trivial

/-- The calls that containing an execution makes. -/
def Containing : ExecutionOp → Prop
  | .transitionRun _ _ _ next _ => next = .contained
  | .buildContainmentResult _ => True
  | o => Bookkeeping o

theorem containing_of_bookkeeping (o : ExecutionOp) (h : Bookkeeping o) : Containing o := by
  cases o <;> trivial

theorem administrative_of_containing (o : ExecutionOp) (h : Containing o) :
    Administrative o := by
  cases o <;> trivial

namespace ExecutionService

variable {C : ExecutionConfig} {ctx : AttemptContext}

/-! ## Runs and containment -/

theorem only_commitRunTransition {C' : ExecutionOp → Prop} (run : RunRecord) (next : RunState)
    (htime : C' .nowIso)
    (hmove : ∀ t, C' (.transitionRun run.runId run.state run.recordRevision next t)) :
    (commitRunTransition run next).Only C' :=
  .bind (only_call htime) fun t => .bind (Async.only_ofExcept _) fun _ =>
    .bind (only_call (hmove t)) fun _ => Async.only_pure _

theorem only_transitionToContained (runId : String) :
    (transitionToContained runId).Only Containing := by
  refine .bind (only_call trivial) fun run => ?_
  cases run with
  | none => exact Async.only_pure _
  | some run =>
    exact .ite (Async.only_pure _) (.bind (only_commitRunTransition _ _ trivial fun _ => rfl)
      fun _ => Async.only_pure _)

theorem only_announce (runId : String) (data : ExecutionEventData) :
    (appendEvent runId data).Only Administrative :=
  (only_appendEvent runId data).mono administrative_of_bookkeeping

theorem only_announceContaining (runId : String) (data : ExecutionEventData) :
    (appendEvent runId data).Only Containing :=
  (only_appendEvent runId data).mono containing_of_bookkeeping

theorem only_contain (code : ExecutionErrorCode) (message : String) :
    (contain ctx code message).Only Containing :=
  .bind (Method.only_lift (only_transitionToContained _)) fun _ =>
    .bind (Method.only_assign _) fun _ => .bind Method.only_read fun _ =>
      .bind (Method.only_lift (only_call trivial)) fun _ =>
        .bind (Method.only_lift (only_call trivial)) fun _ =>
          Method.only_lift (only_announceContaining _ _)

theorem only_containUnknownStep (step : CompiledExecutionStep) (message : String) :
    (containUnknownStep ctx step message).Only Containing :=
  .bind (Method.only_lift
      ((only_existingOrContained _ _).mono containing_of_bookkeeping)) fun _ =>
    .bind (Method.only_assign _) fun _ =>
      .bind (Method.only_lift (only_announceContaining _ _)) fun _ =>
        .bind (Method.only_assign _) fun _ => only_contain _ _

theorem only_recordPipelineResult (step : CompiledExecutionStep) (result : PipelineResult) :
    (recordPipelineResult ctx step result).Only Containing := by
  cases result with
  | replay result => exact Method.only_assign _
  | unknown result message =>
    exact .bind (Method.only_assign _) fun _ => .bind (Method.only_assign _) fun _ =>
      .bind (Method.only_lift (only_announceContaining _ _)) fun _ => only_contain _ _
  | succeeded result =>
    exact .bind (Method.only_assign _) fun _ => Method.only_lift (only_announceContaining _ _)

/-! ## The start and the end -/

theorem only_requireRun (runId : String) (error : JsError) :
    (requireRun runId error).Only Administrative := by
  refine .bind (only_call trivial) fun run => ?_
  cases run with
  | none => exact Async.only_throw _
  | some run => exact Async.only_pure _

theorem only_priorResult (runId : String) (stored : Option ExecutionResult) :
    (priorResult runId stored).Only Administrative := by
  cases stored with
  | none => exact only_call trivial
  | some prior => exact .bind (only_call trivial) fun _ => Async.only_pure _

theorem only_replayFinished (run : RunRecord) (runId : String) :
    (replayFinished run runId).Only Administrative := by
  refine .bind (only_call trivial) fun plan => .bind (only_call trivial) fun authorization => ?_
  cases plan with
  | none => exact Async.only_pure _
  | some plan =>
    cases authorization with
    | none => exact Async.only_pure _
    | some authorization =>
      refine .bind (only_call trivial) fun fence => ?_
      have hstored : ∀ key, (Async.bind (call (.getFenceResult key))
          (priorResult runId)).Only Administrative := fun _ =>
        .bind (only_call trivial) fun _ => only_priorResult _ _
      generalize fence.map (·.status) = status
      rcases status with _ | status
      · exact Async.only_pure _
      · cases status with
        | inProgress => exact .ite (Async.only_throw _) (Async.only_pure _)
        | notStarted => exact Async.only_pure _
        | _ => exact hstored _

theorem only_beginExecution (runId : String) (key : ExecutionFenceKey) (now : ℕ) :
    (beginExecution runId key now).Only Administrative := by
  refine .bind (only_call trivial) fun begun => ?_
  cases begun with
  | started fence ownerToken => exact Async.only_pure _
  | inProgress fence => exact Async.only_throw _
  | alreadyCompleted fence result =>
    have hprior : ∀ {f : Option ExecutionResult → Exec Begun},
        (∀ prior, f (some prior) = Async.pure (.replay prior)) →
        f none = Async.throw (.execution .executionAlreadyCompleted
          "Execution fence is terminal but result is missing") →
        ∀ stored, (Async.bind (priorResult runId stored) f).Only Administrative := by
      intro f hsome hnone stored
      refine .bind (only_priorResult _ _) fun prior => ?_
      cases prior with
      | none =>
        rw [hnone]
        exact Async.only_throw _
      | some prior =>
        rw [hsome]
        exact Async.only_pure _
    cases result with
    | none => exact .bind (only_call trivial) (hprior (fun _ => rfl) rfl)
    | some result => exact .bind (Async.only_pure _) (hprior (fun _ => rfl) rfl)

theorem only_openAttempt (runId : String) (ready : Readiness) (control : ProjectControlContext)
    (attemptNumber now : ℕ) :
    (openAttempt C runId ready control attemptNumber now).Only Administrative :=
  .bind (only_call trivial) fun _ => .bind (only_throwIf _ _) fun _ =>
    .bind (only_throwIf _ _) fun _ => .bind (only_call trivial) fun _ =>
      .bind (Async.only_ofExcept _) fun _ => .bind (only_call trivial) fun _ =>
        .bind (Async.only_ofExcept _) fun _ => .bind (only_call trivial) fun _ =>
          Async.only_pure _

theorem only_startRun (runId : String) (attempt : ExecutionAttempt) (planHash : String) :
    (startRun runId attempt planHash).Only Administrative :=
  .bind (only_announce _ _) fun _ => .bind (only_requireRun _ _) fun _ =>
    .bind (Async.only_ofExcept _) fun _ => only_commitRunTransition _ _ trivial fun _ => trivial

theorem only_closeFence {C' : ExecutionOp → Prop}
    (hfence : ∀ key owner now status extras, C' (.transitionFence key owner now status extras))
    (hcontaining : ∀ o, Containing o → C' o) (key : ExecutionFenceKey) (ownerToken : String)
    (runContained : Bool) (status : ExecutionResultStatus) (now : ℕ) :
    (closeFence ctx key ownerToken runContained status now).Only C' := by
  cases status with
  | executionContained =>
    exact .bind (only_call (hfence _ _ _ _ _)) fun _ => .ite (Async.only_pure _)
      (.bind ((only_transitionToContained _).mono hcontaining) fun _ => Async.only_pure _)
  | _ => exact .bind (only_call (hfence _ _ _ _ _)) fun _ => Async.only_pure _

theorem only_finish (key : ExecutionFenceKey) (ownerToken : String) (orderLength : ℕ)
    (l : ExecuteLocals) : (finish ctx key ownerToken orderLength l).Only Administrative :=
  .bind (only_call trivial) fun _ => .bind (only_call trivial) fun _ =>
    .bind (only_call trivial) fun _ => .bind (only_call trivial) fun _ =>
      .bind (only_call trivial) fun _ => .bind (only_closeFence (fun _ _ _ _ _ => trivial)
        administrative_of_containing _ _ _ _ _) fun _ =>
        .bind (only_announce _ _) fun _ => Async.only_pure _

theorem only_failStep_any {C : ExecutionOp → Prop} {task : StepTask} {error : JsError}
    (hbook : ∀ o, Bookkeeping o → C o) (hfail : ∀ k r, C (.fail k r)) :
    (failStep task error).Only C :=
  .bind (only_call (hbook _ trivial)) fun _ => .bind (only_call (hbook _ trivial)) fun _ =>
    .bind (only_call (hfail _ _)) fun _ => Async.only_pure _

theorem only_startRollback {C' : ExecutionOp → Prop} (hbook : ∀ o, Bookkeeping o → C' o)
    (hcontrol : ∀ projectId environment, C' (.resolveControl projectId environment))
    (hrecord : C' .recordAutomaticRollback) (id : String) (plan : RollbackPlan) :
    (startRollback C ctx id plan).Only C' := by
  refine .bind (only_call hrecord) fun _ =>
    .bind ((only_appendEvent _ _).mono hbook) fun _ =>
      .bind (only_call (hbook _ trivial)) fun run => ?_
  cases run with
  | none => exact Async.only_throw _
  | some run =>
    exact .bind (only_call (hcontrol _ _)) fun _ => .bind (only_throwIf _ _) fun _ =>
      Async.only_pure _

/-! ## Everything but the rollback gate -/

/-- Every call but the two on the rollback service. -/
def Ungated : ExecutionOp → Prop
  | .assertCanRollback .. => False
  | .recordAutomaticRollback => False
  | _ => True

theorem ungated_of_administrative (o : ExecutionOp) (h : Administrative o) : Ungated o := by
  cases o <;> trivial

theorem ungated_of_containing (o : ExecutionOp) (h : Containing o) : Ungated o :=
  ungated_of_administrative o (administrative_of_containing o h)

theorem ungated_of_bookkeeping (o : ExecutionOp) (h : Bookkeeping o) : Ungated o :=
  ungated_of_administrative o (administrative_of_bookkeeping o h)

/-- The calls of the turns of the loop, but for the two on the rollback service: they move the
run to `CONTAINED` only, and write neither attempts nor results. -/
def Stepping : ExecutionOp → Prop
  | .transitionRun _ _ _ next _ => next = .contained
  | .saveAttempt _ => False
  | .cacheResult .. => False
  | .storeFenceResult .. => False
  | .beginFence .. => False
  | .transitionFence .. => False
  | o => Ungated o

theorem ungated_of_stepping (o : ExecutionOp) (h : Stepping o) : Ungated o := by
  cases o <;> trivial

theorem stepping_of_containing (o : ExecutionOp) (h : Containing o) : Stepping o := by
  cases o <;> trivial

theorem stepping_of_bookkeeping (o : ExecutionOp) (h : Bookkeeping o) : Stepping o :=
  stepping_of_containing o (containing_of_bookkeeping o h)

theorem stepping_of_reserving {k : String} (o : ExecutionOp) (h : Reserving k o) :
    Stepping o := by
  cases o <;> trivial

theorem stepping_of_settling {input : StepInput} (o : ExecutionOp) (h : Settling input o) :
    Stepping o := by
  cases o <;> trivial

section Gated

variable {A : Type} {E : Env ExecutionSig A} {P : CallSpec ExecutionSig A}
variable {I : Log ExecutionSig → A → Prop} {log : Log ExecutionSig} {s : A} {l : ExecuteLocals}

theorem sat_ungated {α : Type} {p : Exec α} (hI : Keeps E P Ungated I) (hp : p.Only Administrative)
    (h : I log s) : p.Sat E P (fun log s _ => I log s) log s :=
  (hp.mono ungated_of_administrative).sat hI h

theorem pipeline_keeps {X : External} {profiles : TestProfileRegistry} {input : StepInput}
    (hI : Keeps E P Stepping I) (h : I log s) :
    (runBoundedStepPipeline X profiles input).Sat E P (fun log s _ => I log s) log s := by
  refine (runBoundedStepPipeline_sat (hI.mono stepping_of_reserving) (hI.mono stepping_of_settling)
    (hI.mono stepping_of_bookkeeping) (hI.mono stepping_of_settling) (fun _ _ h => h)
    (fun _ _ h => h) ?_ ?_ h).mono fun log s r h => ?_
  · intro log s h
    refine ((only_call (C := Stepping) (o := .markRunning _) trivial).sat hI h).mono
      fun log s r h => ?_
    cases r <;> exact h
  · exact fun t action log s h => (only_call (C := Stepping) (o := .actuate ..) trivial).sat hI h
  · cases r with
    | ok p => exact h.1
    | error e => exact h

variable (hI : Keeps E P Stepping I)
variable (hgate : ∀ id log s, I log s →
  (authorizeRollback C ctx id).Sat E P (fun log s _ => I log s) log s)
include hI

theorem runPrimaryStep_keeps (step : CompiledExecutionStep) (h : I log s) :
    (runPrimaryStep C ctx step).Sat E P (fun log s _ _ => I log s) log s l := by
  refine .bind_ofExcept (fun capability _ => .bind_read ?_) fun _ _ => h
  refine .bind_lift ((only_call (C := Stepping) (o := .readLedger _) trivial).sat hI h)
    (fun log s ledger h => ?_) fun _ _ _ h => h
  refine .bind_ofExcept (fun _ _ => ?_) fun _ _ => h
  refine .bind_lift (pipeline_keeps hI h) (fun log s result h => ?_) fun _ _ _ h => h
  exact ((only_recordPipelineResult step result).mono stepping_of_containing).sat hI h

theorem compensate_keeps (plan : RollbackPlan) (live : ProjectControlContext) (id : String)
    (h : I log s) :
    (compensate C ctx plan live id).Sat E P (fun log s _ _ => I log s) log s l := by
  refine .bind_ofExcept (fun compiled _ => ?_) fun _ _ => h
  refine .bind_ofExcept (fun capability _ => ?_) fun _ _ => h
  refine Method.Sat.tryCatch (R := fun log s _ _ => I log s) ?_ (fun _ _ _ _ h => h)
    fun log s error l h => (Method.sat_ite _ _ _).mpr ⟨fun _ => h, fun _ => h⟩
  refine .bind_lift (pipeline_keeps hI h) (fun log s result h => ?_) fun _ _ _ h => h
  cases result <;> exact h

include hgate

theorem rollbackOrContain_keeps (id : String) (h : I log s) :
    (rollbackOrContain C ctx id).Sat E P (fun log s _ _ => I log s) log s l := by
  refine Method.Sat.tryCatch (R := fun log s _ _ => I log s) ?_ (fun _ _ _ _ h => h)
    fun log s error l h => .bind_assign (.bind_assign
      (((only_contain _ _).mono stepping_of_containing).sat hI h))
  refine .bind_lift (hgate id _ _ h) (fun log s authorized h => ?_) fun _ _ _ h => h
  refine Method.Sat.bind (R := fun log s _ _ => I log s) ?_ (fun log s _ l h => ?_)
    fun _ _ _ _ h => h
  · refine Method.sat_forEach (I := fun _ log s _ => I log s) _ (fun id ids log s l h => ?_)
      (fun _ _ _ h => h) h
    refine (compensate_keeps hI authorized.1 authorized.2 id h).mono fun log s r l h => ?_
    cases r <;> exact h
  · exact ((Method.only_lift (only_appendEvent _ _)).mono stepping_of_bookkeeping).sat hI h

theorem executeStep_keeps (step : CompiledExecutionStep) (h : I log s) :
    (executeStep C ctx step).Sat E P (fun log s _ _ => I log s) log s l := by
  have hskip : ∀ f : ℕ → ExecuteLocals → ExecuteLocals,
      (Method.bind (Method.lift (call .nowIso)) fun t => Method.assign (f t)).Sat E P
        (fun log s _ _ => I log s) log s l :=
    fun f => (Method.Only.bind (C := Stepping) (Method.only_lift (only_call trivial))
      fun _ => Method.only_assign _).sat hI h
  refine .bind_read ((Method.sat_ite _ _ _).mpr ⟨fun _ => hskip _, fun _ =>
    (Method.sat_ite _ _ _).mpr ⟨fun _ => hskip _, fun _ => ?_⟩⟩)
  refine (runPrimaryStep_keeps hI step h).tryCatch (fun _ _ _ _ h => h) fun log s error l h => ?_
  refine .bind_assign ((Method.sat_ite _ _ _).mpr ⟨fun _ =>
    ((only_containUnknownStep _ _).mono stepping_of_containing).sat hI h, fun _ => ?_⟩)
  refine .bind_lift ((only_failStep_any stepping_of_bookkeeping fun _ _ => trivial).sat hI h)
    (fun log s result h => .bind_assign ?_) fun _ _ _ h => h
  exact .bind_lift (((only_appendEvent _ _).mono stepping_of_bookkeeping).sat hI h)
    (fun log s _ h => rollbackOrContain_keeps hI hgate _ h) fun _ _ _ h => h

omit hI hgate in
/-- The whole call keeps what every call but the rollback gate's keeps, if the gate's part of it
does. -/
theorem execute_keeps (hI : Keeps E P Ungated I)
    (hgate : ∀ ctx id log s, I log s →
      (authorizeRollback C ctx id).Sat E P (fun log s _ => I log s) log s) (runId : String)
    (h : I log s) : (execute C runId).Sat E P (fun log s _ => I log s) log s := by
  have hcheck : ∀ ready {log s}, I log s →
      (checkAuthority C runId ready).Sat E P (fun log s _ => I log s) log s := fun ready _ _ h =>
    (Async.Only.bind (C := Ungated) (only_call trivial) fun _ =>
      .bind ((only_requireRun _ _).mono ungated_of_administrative) fun _ =>
        .bind ((only_requireRun _ _).mono ungated_of_administrative) fun _ =>
          .bind (only_call trivial) fun _ => .bind (Async.only_ofExcept _) fun _ =>
            Async.only_pure _).sat hI h
  have hprepare : ∀ ready n now {log s}, I log s →
      (prepare C runId ready n now).Sat E P (fun log s _ => I log s) log s := fun ready n now _ _ h =>
    Async.Sat.bind (hcheck ready h) (fun _ _ _ h => Async.Sat.bind
      (sat_ungated hI (only_openAttempt _ _ _ _ _) h) (fun _ _ _ h => Async.Sat.bind
        (sat_ungated hI (only_startRun _ _ _) h) (fun _ _ _ h => h) fun _ _ _ h => h)
      fun _ _ _ h => h) fun _ _ _ h => h
  have hattempt : ∀ ctx compiled key owner {log s}, I log s →
      (runAttempt C ctx compiled key owner).Sat E P (fun log s _ => I log s) log s := by
    intro ctx compiled key owner log s h
    refine Async.Sat.bind (sat_ungated hI (only_call trivial) h) (fun log s _ h => ?_)
      fun _ _ _ h => h
    refine .bind_ofExcept (fun order _ => (Method.sat_asAsync _).mpr ?_) fun _ _ => h
    refine Method.Sat.bind (R := fun log s _ _ => I log s) ?_ (fun log s _ l h => .bind_read ?_)
      fun _ _ _ _ h => h
    · refine Method.sat_forEach (I := fun _ log s _ => I log s) _ (fun step steps log s l h => ?_)
        (fun _ _ _ h => h) h
      refine (executeStep_keeps (hI.mono ungated_of_stepping) (hgate ctx) step h).mono fun log s r l h => ?_
      cases r <;> exact h
    · exact ((Method.only_lift (only_finish _ _ _ _)).mono ungated_of_administrative).sat hI h
  have howned : ∀ ready key fence owner now {log s}, I log s →
      (executeOwned C runId ready key fence owner now).Sat E P (fun log s _ => I log s) log s := by
    intro ready key fence owner now log s h
    refine (Async.sat_tryCatch _ _).mpr ((Async.Sat.bind (hprepare ready _ _ h)
      (fun _ _ prepared h => hattempt _ _ _ _ h) fun _ _ _ h => h).mono fun log s r h => ?_)
    cases r with
    | ok result => exact h
    | error e =>
      exact sat_ungated hI (.bind (only_call trivial) fun _ => .bind (only_call trivial) fun _ =>
        Async.only_throw _) h
  have hready : ∀ {log s}, I log s →
      (executeReady C runId).Sat E P (fun log s _ => I log s) log s := by
    intro log s h
    refine Async.Sat.bind (sat_ungated hI (only_call trivial) h) (fun log s ready h => ?_)
      fun _ _ _ h => h
    refine Async.Sat.bind (sat_ungated hI (only_call trivial) h) (fun log s now h => ?_)
      fun _ _ _ h => h
    refine Async.Sat.bind (sat_ungated hI (only_beginExecution _ _ _) h) (fun log s begun h => ?_)
      fun _ _ _ h => h
    cases begun with
    | replay result => exact h
    | started fence owner => exact howned _ _ _ _ _ h
  have hprior : ∀ {f : Option ExecutionResult → Exec ExecutionResult},
      (∀ result, f (some result) = Async.pure result) → f none = executeReady C runId →
      ∀ log s prior, I log s → (f prior).Sat E P (fun log s _ => I log s) log s := by
    intro f hsome hnone log s prior h
    cases prior with
    | some result =>
      rw [hsome]
      exact h
    | none =>
      rw [hnone]
      exact hready h
  refine Async.Sat.bind (sat_ungated hI (only_requireRun _ _) h) (fun log s run h => ?_)
    fun _ _ _ h => h
  refine (Async.sat_ite _ _ _).mpr ⟨fun _ => ?_, fun _ => hready h⟩
  exact Async.Sat.bind (sat_ungated hI (only_replayFinished _ _) h)
    (hprior (fun _ => rfl) rfl) fun _ _ _ h => h

end Gated

end ExecutionService

end Orchestrator
