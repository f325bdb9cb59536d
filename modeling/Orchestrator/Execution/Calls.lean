import Orchestrator.Execution.Pipeline

/-!
# Which calls the parts of the pipeline make

Most parts of the pipeline only keep books: they read the clock, take identities, append events
and save artifacts. Whatever such calls leave alone, these parts leave alone
(`Async.Only.sat`).
-/

namespace Orchestrator

open Atomic

/-- The calls that touch neither runs, fences, attempts, ledgers nor the step store. -/
def Bookkeeping : ExecutionOp → Prop
  | .nowIso => True
  | .dateNow => True
  | .nextArtifactId => True
  | .nextEventId => True
  | .getRun _ => True
  | .appendEvent _ => True
  | .getByIdempotencyKey _ => True
  | .saveArtifact _ => True
  | .putBlob _ => True
  | _ => False

/-- The calls that reserving the step `k` makes. -/
def Reserving (k : String) : ExecutionOp → Prop
  | .reserve input => input.idempotencyKey = k
  | .reconcileRunningStep k' _ _ _ _ => k' = k
  | .reconcileSucceeded k' _ => k' = k
  | o => Bookkeeping o

theorem reserving_of_bookkeeping {k : String} (o : ExecutionOp) (h : Bookkeeping o) :
    Reserving k o := by
  cases o <;> first | exact h | exact h.elim

namespace ExecutionService

variable {X : External} {input : StepInput} {task : StepTask}

theorem only_call {C : ExecutionOp → Prop} {o : ExecutionOp} (h : C o) : (call o).Only C :=
  Async.only_await h

theorem only_throwIf {C : ExecutionOp → Prop} (c : Prop) [Decidable c] (error : JsError) :
    (throwIf c error).Only C :=
  .ite (Async.only_throw _) (Async.only_pure _)

theorem only_appendEvent (runId : String) (data : ExecutionEventData) :
    (appendEvent runId data).Only Bookkeeping := by
  refine .bind (only_call trivial) fun run => ?_
  cases run with
  | none => exact Async.only_pure _
  | some run =>
    exact .bind (only_call trivial) fun _ => .bind (only_call trivial) fun _ =>
      .bind (only_call trivial) fun _ => only_call trivial

theorem only_saveStepArtifact (type : ArtifactType) (path hash : String) (size now : ℕ) :
    (saveStepArtifact input type path hash size now).Only Bookkeeping := by
  refine .bind (only_call trivial) fun id => .bind (only_call trivial) fun _ =>
    .bind (only_call trivial) fun run => ?_
  cases run with
  | none => exact Async.only_pure _
  | some run => exact .bind (only_call trivial) fun _ => Async.only_pure _

theorem only_existingOrContained (code : ExecutionErrorCode) (message : String) :
    (existingOrContained task code message).Only Bookkeeping := by
  refine .bind (only_call trivial) fun existing => ?_
  cases existing with
  | some result => exact Async.only_pure _
  | none =>
    exact .bind (only_call trivial) fun _ => .bind (only_call trivial) fun _ =>
      Async.only_pure _

theorem only_tryReconcileRunningStep :
    (tryReconcileRunningStep input).Only (Reserving input.step.idempotencyKey) := by
  refine .bind (only_call rfl) fun proven => ?_
  cases proven with
  | none => exact Async.only_pure _
  | some proven => exact .map _ (only_call rfl)

theorem only_reserveStep : (reserveStep input).Only (Reserving input.step.idempotencyKey) := by
  refine .tryCatch (.bind (only_call trivial) fun _ => .map _ (only_call rfl))
    fun error => .ite ?_ (Async.only_throw _)
  refine .bind only_tryReconcileRunningStep fun reconciled => ?_
  cases reconciled with
  | some result => exact Async.only_pure _
  | none =>
    exact .bind ((only_existingOrContained _ _).mono reserving_of_bookkeeping) fun _ =>
      Async.only_pure _

/-! ## The shape of an actuation -/

/-- The result of a step that went through, as its actuation leaves it. -/
def ResultOf (input : StepInput) (r : StepExecutionResult) : Prop :=
  r.status = .succeeded ∧ r.idempotencyKey = input.step.idempotencyKey ∧
    r.executionAttemptId = input.executionAttemptId

section Actuation

variable {A : Type} {E : Env ExecutionSig A} {P : CallSpec ExecutionSig A}
variable {I J : Log ExecutionSig → A → Prop} {log : Log ExecutionSig} {s : A}

/-- After the actuation: the invariant, and the result if there is one. -/
abbrev Actuated (input : StepInput) (J : Log ExecutionSig → A → Prop) :
    Log ExecutionSig → A → Except JsError StepExecutionResult → Prop :=
  ends (fun log s r => J log s ∧ ResultOf input r) (fun log s _ => J log s)

theorem succeededResult_sat (hJ : Keeps E P Bookkeeping J) (now : ℕ)
    (refs hashes targets : List String) (metadata : Option (List (String × MetadataValue)))
    (h : J log s) : (succeededResult input now refs hashes targets metadata).Sat E P
      (Actuated input J) log s :=
  Async.Sat.bind ((only_call trivial).sat hJ h) (fun _ _ _ h => ⟨h, rfl, rfl, rfl⟩)
    (fun _ _ _ h => h)

/-- Bookkeeping, and then the result. -/
theorem keep_then_result {α : Type} (hJ : Keeps E P Bookkeeping J) {p : Exec α}
    {f : α → Exec StepExecutionResult} (hp : p.Only Bookkeeping)
    (hf : ∀ a log s, J log s → (f a).Sat E P (Actuated input J) log s) (h : J log s) :
    (p.bind f).Sat E P (Actuated input J) log s :=
  Async.Sat.bind (hp.sat hJ h) (fun log s a h => hf a log s h) (fun _ _ _ h => h)

theorem finalizeRecoveryOutreachStep_sat (hJ : Keeps E P Bookkeeping J) (now : ℕ)
    (result : RecoveryOutreachActuatorResult) (h : J log s) :
    (finalizeRecoveryOutreachStep input now result).Sat E P (Actuated input J) log s :=
  keep_then_result hJ (only_saveStepArtifact _ _ _ _ _)
    (fun _ _ _ h => succeededResult_sat hJ _ _ _ _ _ h) h

/-- `actuateStep` makes one call of the actuator, with its own step, between bookkeeping: `I`
holds up to that call and `J` from it on. -/
theorem actuateStep_sat (hI : Keeps E P Bookkeeping I) (hJ : Keeps E P Bookkeeping J)
    (hIJ : ∀ log s, I log s → J log s) (timeoutMs : ℚ)
    (hact : ∀ action log s, I log s →
      (call (.actuate action input.step input.executionAttemptId timeoutMs)).Sat E P
        (fun log s _ => J log s) log s) (h : I log s) :
    (actuateStep X input timeoutMs).Sat E P (Actuated input J) log s := by
  have hthen : ∀ (action : Phase7ActionType) {log : Log ExecutionSig} {s : A}
      {f : ActuatorResult action → Exec StepExecutionResult},
      (∀ a log s, J log s → (f a).Sat E P (Actuated input J) log s) → I log s →
      ((call (.actuate action input.step input.executionAttemptId timeoutMs)).bind f).Sat E P
        (Actuated input J) log s :=
    fun action _ _ _ hf h => Async.Sat.bind (hact action _ _ h)
      (fun log s a h => hf a log s h) (fun _ _ _ h => h)
  refine Async.Sat.bind ((only_call trivial).sat hI h) (fun log s now h => ?_)
    (fun _ _ _ h => hIJ _ _ h)
  cases input.step.actionType with
  | createLocalPatch =>
    exact hthen .createLocalPatch (fun a log s h => keep_then_result hJ
      (only_saveStepArtifact _ _ _ _ _) (fun _ _ _ h => succeededResult_sat hJ _ _ _ _ _ h) h) h
  | runTests =>
    cases input.step.normalizedArguments.testProfileId with
    | none => exact hIJ _ _ h
    | some id =>
      refine hthen .runTests (fun a log s h => keep_then_result hJ
        (.ite (.map _ (only_saveStepArtifact _ _ _ _ _)) (Async.only_pure _))
        (fun refs log s h => ?_) h) h
      exact keep_then_result hJ (Async.only_ofExcept _)
        (fun _ _ _ h => succeededResult_sat hJ _ _ _ _ _ h) h
  | createTask =>
    exact hthen .createTask (fun a log s h => keep_then_result hJ
      (only_saveStepArtifact _ _ _ _ _) (fun _ _ _ h => succeededResult_sat hJ _ _ _ _ _ h) h) h
  | preparePullRequest =>
    refine hthen .preparePullRequest (fun a log s h => keep_then_result hJ (only_throwIf _ _)
      (fun _ log s h => ?_) h) h
    exact keep_then_result hJ (only_saveStepArtifact _ _ _ _ _)
      (fun _ _ _ h => succeededResult_sat hJ _ _ _ _ _ h) h
  | sendRecoverySms =>
    exact hthen .sendRecoverySms (fun a _ _ h => finalizeRecoveryOutreachStep_sat hJ _ a h) h
  | sendRecoveryEmail =>
    exact hthen .sendRecoveryEmail (fun a _ _ h => finalizeRecoveryOutreachStep_sat hJ _ a h) h
  | createCallbackTask =>
    exact hthen .createCallbackTask (fun a _ _ h => finalizeRecoveryOutreachStep_sat hJ _ a h) h

end Actuation

/-! ## The shape of the pipeline -/

/-- The calls that start a reserved step and settle it, the actuator's aside. -/
def Settling (input : StepInput) : ExecutionOp → Prop
  | .readLedger a => a = input.executionAttemptId
  | .reserveDurationMs a _ => a = input.executionAttemptId
  | .settleReservedDuration a _ _ => a = input.executionAttemptId
  | .releaseReservation a _ => a = input.executionAttemptId
  | .recordStep a _ => a = input.executionAttemptId
  | .complete k result => k = input.step.idempotencyKey ∧ ResultOf input result
  | o => Bookkeeping o

theorem settling_of_bookkeeping (o : ExecutionOp) (h : Bookkeeping o) : Settling input o := by
  cases o <;> first | exact h | exact h.elim

/-- Where a result of the pipeline comes from: the answer of one of its calls. -/
def Provenance (input : StepInput) (log : Log ExecutionSig) : PipelineResult → Prop
  | .succeeded r => ∃ actuated, ResultOf input actuated ∧
      ⟨.complete input.step.idempotencyKey actuated, .ok r⟩ ∈ log
  | .replay r =>
      (∃ startedAt, ⟨.reserve (reserveInput input startedAt), .ok (.replay r)⟩ ∈ log) ∨
      ∃ proven, ⟨.reconcileSucceeded input.step.idempotencyKey proven, .ok r⟩ ∈ log
  | .unknown r message =>
      (∃ error, error.isStateUnknown = true ∧ message = error.messageOr "" ∧
        ((∃ startedAt, ⟨.reserve (reserveInput input startedAt), .error error⟩ ∈ log) ∨
          ⟨.nowIso, .error error⟩ ∈ log)) ∧
      (⟨.getByIdempotencyKey input.step.idempotencyKey, .ok (some r)⟩ ∈ log ∨
        ∃ t t', r = containedResult input.toStepTask t t' .stepExecutionStateUnknown message)

section Pipeline

variable {A : Type} {E : Env ExecutionSig A} {P : CallSpec ExecutionSig A}
variable {I M J : Log ExecutionSig → A → Prop} {log : Log ExecutionSig} {s : A}
variable {profiles : TestProfileRegistry}

/-- The answer of an awaited call is in the log. -/
theorem call_sat {C : ExecutionOp → Prop} (hI : Keeps E P C I) (o : ExecutionOp) (ho : C o)
    (h : I log s) :
    (call o).Sat E P (fun log s r => I log s ∧ ⟨o, r⟩ ∈ log) log s := by
  intro m r s' hm hs
  obtain ⟨hP, hI'⟩ := hI.call log m o r s' ho (hI.rely _ _ _ hm h) hs
  exact ⟨hP, hI', by simp⟩

theorem existingOrContained_sat (hI : Keeps E P Bookkeeping I) (code : ExecutionErrorCode)
    (message : String) (h : I log s) :
    (existingOrContained task code message).Sat E P (ends (fun log s a => I log s ∧
      (⟨.getByIdempotencyKey task.step.idempotencyKey, .ok (some a)⟩ ∈ log ∨
        ∃ t t', a = containedResult task t t' code message)) (fun log s _ => I log s)) log s := by
  refine Async.Sat.bind (call_sat hI (.getByIdempotencyKey _) trivial h) (fun log s existing h => ?_)
    (fun _ _ _ h => h.1)
  cases existing with
  | some result => exact ⟨h.1, .inl h.2⟩
  | none =>
    refine Async.Sat.bind ((only_call trivial).sat hI h.1) (fun log s t h => ?_)
      (fun _ _ _ h => h)
    exact Async.Sat.bind ((only_call trivial).sat hI h)
      (fun log s t' h => ⟨h, .inr ⟨t, t', rfl⟩⟩) (fun _ _ _ h => h)

theorem tryReconcileRunningStep_sat (hI : Keeps E P (Reserving input.step.idempotencyKey) I)
    (h : I log s) : (tryReconcileRunningStep input).Sat E P (ends (fun log s r => I log s ∧
      ∀ a, r = some a →
        ∃ proven, ⟨.reconcileSucceeded input.step.idempotencyKey proven, .ok a⟩ ∈ log)
      (fun log s _ => I log s)) log s := by
  refine Async.Sat.bind (call_sat hI (.reconcileRunningStep ..) rfl h) (fun log s proven h => ?_)
    (fun _ _ _ h => h.1)
  cases proven with
  | none => exact ⟨h.1, fun _ ha => nomatch ha⟩
  | some proven =>
    refine Async.Sat.bind (call_sat hI (.reconcileSucceeded ..) rfl h.1) (fun log s a h => ⟨h.1, ?_⟩) (fun _ _ _ h => h.1)
    rintro _ ⟨⟩
    exact ⟨proven, h.2⟩

/-- What is known after the `try` block of `reserveStep`. -/
abbrev Reserved (input : StepInput) (I : Log ExecutionSig → A → Prop) :
    Log ExecutionSig → A → Except JsError Reservation → Prop :=
  ends (fun log s r => I log s ∧ match r with
      | .early p => Provenance input log p
      | .outcome o => ∃ t, ⟨.reserve (reserveInput input t), .ok o⟩ ∈ log)
    (fun log s _ => I log s)

/-- `reserveStep` keeps what its calls keep; an early result is a replay or an unknown step, and
a reservation is the store's answer. -/
theorem reserveStep_sat (hI : Keeps E P (Reserving input.step.idempotencyKey) I) (h : I log s) :
    (reserveStep input).Sat E P (Reserved input I) log s := by
  have hbook : ∀ {I}, Keeps E P (Reserving input.step.idempotencyKey) I → Keeps E P Bookkeeping I :=
    fun hI => hI.mono reserving_of_bookkeeping
  have hcatch : ∀ event error {f : Option StepExecutionResult → Exec Reservation},
      (∀ result, f (some result) = Async.pure (Reservation.early (.replay result))) →
      (f none = (existingOrContained input.toStepTask .stepExecutionStateUnknown
          (error.messageOr "")).bind fun result =>
            Async.pure (.early (.unknown result (error.messageOr "")))) →
      ∀ log s, I log s → event ∈ log → error.isStateUnknown = true →
      (event = ⟨.nowIso, .error error⟩ ∨
        ∃ t, event = ⟨.reserve (reserveInput input t), .error error⟩) →
      (Async.bind (tryReconcileRunningStep input) f).Sat E P (Reserved input I) log s := by
    intro event error f hsome hnone log s h hmem hunknown hevent
    refine Async.Sat.bind (tryReconcileRunningStep_sat (hI.mem event) ⟨h, hmem⟩)
      (fun log s reconciled h => ?_) (fun _ _ _ h => h.1)
    cases reconciled with
    | some result =>
      rw [hsome]
      exact ⟨h.1.1, .inr (h.2 result rfl)⟩
    | none =>
      rw [hnone]
      refine Async.Sat.bind (existingOrContained_sat (hbook (hI.mem event)) _ _ h.1)
        (fun log s result h => ⟨h.1.1, ⟨error, hunknown, rfl, ?_⟩, h.2⟩) (fun _ _ _ h => h.1)
      rcases hevent with rfl | ⟨t, rfl⟩
      · exact .inr h.1.2
      · exact .inl ⟨t, h.1.2⟩
  refine (Async.sat_tryCatch _ _).mpr ((Async.sat_bind _ _).mpr
    ((call_sat hI .nowIso trivial h).mono fun log s r h => ?_))
  cases r with
  | error e =>
    exact (Async.sat_ite _ _ _).mpr
      ⟨fun hu => hcatch _ e (fun _ => rfl) rfl _ _ h.1 h.2 hu (.inl rfl), fun _ => h.1⟩
  | ok t =>
    refine (Async.sat_bind _ _).mpr ((call_sat hI (.reserve (reserveInput input t)) rfl h.1).mono fun log s r h => ?_)
    cases r with
    | ok o => exact ⟨h.1, t, h.2⟩
    | error e =>
      exact (Async.sat_ite _ _ _).mpr
        ⟨fun hu => hcatch _ e (fun _ => rfl) rfl _ _ h.1 h.2 hu (.inr ⟨t, rfl⟩), fun _ => h.1⟩

/-- What follows an actuation, for what its calls keep. -/
theorem settleStep_sat (hJ : Keeps E P (Settling input) J) (timeoutMs : ℚ) (startedMs : ℕ)
    (actuated : StepExecutionResult) (hactuated : ResultOf input actuated) (h : J log s) :
    (settleStep input timeoutMs startedMs actuated).Sat E P
      (ends (fun log s r => J log s ∧ Provenance input log r) (fun log s _ => J log s)) log s := by
  refine Async.Sat.bind
    (call_sat hJ (.complete input.step.idempotencyKey actuated) ⟨rfl, hactuated⟩ h)
    (fun log s completed hc => ?_) (fun _ _ _ h => h.1)
  -- the answer of `complete` stays in the log through the settlement
  have hJ' := hJ.mem ⟨.complete input.step.idempotencyKey actuated, .ok completed⟩
  refine Async.Sat.bind (call_sat hJ' .dateNow trivial hc) (fun log s now hd => ?_)
    (fun _ _ _ h => h.1.1)
  refine Async.Sat.bind (call_sat hJ' (.settleReservedDuration ..) rfl hd.1)
    (fun log s _ hs => ?_) (fun _ _ _ h => h.1.1)
  refine Async.Sat.bind (call_sat hJ' (.recordStep ..) rfl hs.1)
    (fun log s _ hr => ⟨hr.1.1, actuated, hactuated, hr.1.2⟩) (fun _ _ _ h => h.1.1)

/-- The phases of a pipeline call: `I` holds up to the start, `M` between a start that did not
throw and the actuation, and `K` from the actuation to the settlement. The call ends with `J`, or
with `F` where it throws. -/
structure Phases (E : Env ExecutionSig A) (P : CallSpec ExecutionSig A) (input : StepInput)
    (I M K J F : Log ExecutionSig → A → Prop) : Prop where
  reserving : Keeps E P (Reserving input.step.idempotencyKey) I
  starting : Keeps E P (Settling input) I
  started : Keeps E P Bookkeeping M
  actuated : Keeps E P Bookkeeping K
  early : ∀ log s, I log s → J log s
  unstarted : ∀ log s, I log s → F log s
  unactuated : ∀ log s, M log s → K log s
  unsettled : ∀ log s, K log s → F log s
  start : ∀ log s, I log s → (call (.markRunning input.step.idempotencyKey)).Sat E P
    (ends (fun log s _ => M log s) (fun log s _ => F log s)) log s
  actuate : ∀ timeoutMs action log s, M log s →
    (call (.actuate action input.step input.executionAttemptId timeoutMs)).Sat E P
      (fun log s _ => K log s) log s
  settle : ∀ timeoutMs startedMs actuated log s, K log s → ResultOf input actuated →
    (settleStep input timeoutMs startedMs actuated).Sat E P
      (ends (fun log s r => J log s ∧ Provenance input log r) (fun log s _ => F log s)) log s
  release : ∀ timeoutMs log s, F log s →
    (call (.releaseReservation input.executionAttemptId timeoutMs)).Sat E P
      (fun log s _ => F log s) log s

variable {K F : Log ExecutionSig → A → Prop}

/-- From a reservation on. -/
theorem runReservedStep_phases (hp : Phases E P input I M K J F) (h : I log s) :
    (runReservedStep X profiles input).Sat E P
      (ends (fun log s r => J log s ∧ Provenance input log r) (fun log s _ => F log s)) log s := by
  have hI := hp.starting
  have hbook := hI.mono settling_of_bookkeeping
  have herr : ∀ log s, I log s → F log s := hp.unstarted
  refine Async.Sat.bind ((Async.only_ofExcept _).sat hbook h) (fun log s testTimeout h => ?_)
    (fun _ _ _ h => herr _ _ h)
  refine Async.Sat.bind (call_sat hI (.readLedger _) rfl h) (fun log s ledger h => ?_)
    (fun _ _ _ h => herr _ _ h.1)
  refine Async.Sat.bind ((only_throwIf _ _).sat hbook h.1) (fun log s _ h => ?_)
    (fun _ _ _ h => herr _ _ h)
  refine Async.Sat.bind ((Async.only_ofExcept _).sat hbook h) (fun log s _ h => ?_)
    (fun _ _ _ h => herr _ _ h)
  refine Async.Sat.bind (call_sat hI (.reserveDurationMs ..) rfl h) (fun log s _ h => ?_)
    (fun _ _ _ h => herr _ _ h.1)
  refine Async.Sat.bind ((only_appendEvent _ _).sat hbook h.1) (fun log s _ h => ?_)
    (fun _ _ _ h => herr _ _ h)
  refine Async.Sat.bind (hp.start _ _ h) (fun log s _ h => ?_) (fun _ _ _ h => h)
  refine Async.Sat.bind ((only_call trivial).sat hp.started h) (fun log s startedMs h => ?_)
    (fun _ _ _ h => hp.unsettled _ _ (hp.unactuated _ _ h))
  refine (Async.sat_tryCatch _ _).mpr ((Async.Sat.bind
    (actuateStep_sat hp.started hp.actuated hp.unactuated _ (hp.actuate _) h)
    (fun log s actuated h => hp.settle _ startedMs actuated _ _ h.1 h.2)
    fun _ _ _ h => hp.unsettled _ _ h).mono fun log s r h => ?_)
  cases r with
  | ok p => exact h
  | error e =>
    exact Async.Sat.bind (hp.release _ _ _ h) (fun log s _ h => h) (fun _ _ _ h => h)

/-- The pipeline as its callers see it: the phases it went through, and where its result comes
from. -/
theorem runBoundedStepPipeline_phases (hp : Phases E P input I M K J F) (h : I log s) :
    (runBoundedStepPipeline X profiles input).Sat E P
      (ends (fun log s r => J log s ∧ Provenance input log r) (fun log s _ => F log s)) log s := by
  refine Async.Sat.bind (reserveStep_sat hp.reserving h) (fun log s reservation h => ?_)
    (fun _ _ _ h => hp.unstarted _ _ h)
  cases reservation with
  | early p => exact ⟨hp.early _ _ h.1, h.2⟩
  | outcome o =>
    cases o with
    | replay r => exact ⟨hp.early _ _ h.1, .inl h.2⟩
    | reserved r => exact runReservedStep_phases hp h.1

/-- The pipeline, where nothing changes after the actuation: `J` is kept from there on. -/
theorem runBoundedStepPipeline_sat (hR : Keeps E P (Reserving input.step.idempotencyKey) I)
    (hI : Keeps E P (Settling input) I) (hM : Keeps E P Bookkeeping M)
    (hJ : Keeps E P (Settling input) J) (hIJ : ∀ log s, I log s → J log s)
    (hMJ : ∀ log s, M log s → J log s)
    (hstart : ∀ log s, I log s → (call (.markRunning input.step.idempotencyKey)).Sat E P
      (ends (fun log s _ => M log s) (fun log s _ => J log s)) log s)
    (hact : ∀ timeoutMs action log s, M log s →
      (call (.actuate action input.step input.executionAttemptId timeoutMs)).Sat E P
        (fun log s _ => J log s) log s) (h : I log s) :
    (runBoundedStepPipeline X profiles input).Sat E P
      (ends (fun log s r => J log s ∧ Provenance input log r) (fun log s _ => J log s)) log s :=
  runBoundedStepPipeline_phases
    { reserving := hR
      starting := hI
      started := hM
      actuated := hJ.mono settling_of_bookkeeping
      early := hIJ
      unstarted := hIJ
      unactuated := hMJ
      unsettled := fun _ _ h => h
      start := hstart
      actuate := hact
      settle := fun _ _ _ _ _ h hr => settleStep_sat hJ _ _ _ hr h
      release := fun _ _ _ h => (only_call (C := Settling input)
        (o := .releaseReservation input.executionAttemptId _) rfl).sat hJ h } h

end Pipeline

end ExecutionService

end Orchestrator
