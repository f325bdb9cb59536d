import Orchestrator.Execution.Scenario
import Orchestrator.Execution.ServiceCalls

/-!
# Actuation and the control plane's allowance

Two parts of the source decide whether a capability covers an action: `evaluateActionAllowance`
in the control plane and `requireCapability` in the executor. They differ in one check: an
action that a capability lists both as allowed and as forbidden is forbidden to the first and
fine to the second.

So each actuation of a run is of a step that `requireCapability` let through in the latest
control context, and the control plane allows it exactly when the capability does not also
forbid the action (`allowed_iff_unforbidden`).
-/

namespace Orchestrator

open Atomic ExecutionService

/-- The latest answer of the control plane. -/
def latestControl : Log ExecutionSig → Option ProjectControlContext
  | [] => none
  | ⟨.resolveControl .., .ok control⟩ :: _ => some control
  | _ :: log => latestControl log

/-- The capability recorded on a step, in the latest control context. -/
def recordedCapability (log : Log ExecutionSig) (step : CompiledExecutionStep) :
    Option Capability :=
  (latestControl log).bind fun control =>
    control.availableCapabilities.find? (·.capabilityId = step.capabilityId)

/-- What the control plane says of a step, in the latest control context. -/
def recordedAllowance (log : Log ExecutionSig) (step : CompiledExecutionStep) :
    ActionAllowanceReason :=
  evaluateActionAllowance (recordedCapability log step) step.actionType.text
    (((latestControl log).map (·.environment)).getD "")

/-- The event, if it is a call of the actuator, is of a step that the control plane allows. -/
def AllowedActuation (log : Log ExecutionSig) : Event ExecutionSig → Prop
  | ⟨.actuate _ step _ _, _⟩ => recordedAllowance log step = .allowed
  | _ => True

/-- The event, if it is a call of the actuator, is of a step whose recorded capability does not
list the step's action as forbidden. -/
def UnforbiddenActuation (log : Log ExecutionSig) : Event ExecutionSig → Prop
  | ⟨.actuate _ step _ _, _⟩ =>
    ∀ capability ∈ recordedCapability log step,
      step.actionType.text ∉ capability.forbiddenActions
  | _ => True

instance (log : Log ExecutionSig) (e : Event ExecutionSig) :
    Decidable (AllowedActuation log e) := by
  unfold AllowedActuation
  split <;> infer_instance

/-- The calls that neither actuate nor ask the control plane. -/
def Ruled : ExecutionOp → Prop
  | .actuate .. => False
  | .resolveControl .. => False
  | _ => True

/-- What `requireCapability` lets through is allowed unless it is forbidden. -/
theorem allowed_iff_of_requireCapability {log : Log ExecutionSig}
    {control : ProjectControlContext} {capability : Capability} {step : CompiledExecutionStep}
    (hlatest : latestControl log = some control)
    (h : requireCapability control step.capabilityId step.actionType.text = .ok capability) :
    recordedAllowance log step = .allowed ↔
      ∀ capability ∈ recordedCapability log step,
        step.actionType.text ∉ capability.forbiddenActions := by
  obtain ⟨hfind, henabled, haction, henv⟩ := requireCapability_ok h
  have hrecorded : recordedCapability log step = some capability := by
    rw [recordedCapability, hlatest]
    exact hfind
  rw [recordedAllowance, hrecorded, hlatest, evaluateActionAllowance_eq_allowed]
  constructor
  · rintro ⟨-, -, hforbidden, -⟩ _ ⟨⟩
    exact hforbidden
  · exact fun hforbidden => ⟨henabled, henv, hforbidden capability rfl, haction⟩

/-! ## Following the control context -/

section Following

variable {A : Type} {log : Log ExecutionSig} {s : A} {control : ProjectControlContext}
variable {C : ExecutionConfig} {ctx : AttemptContext}

/-- The property of every call. -/
abbrev AllowanceSpec (A : Type) : CallSpec ExecutionSig A := fun log _ o r _ =>
  AllowedActuation log ⟨o, r⟩ ↔ UnforbiddenActuation log ⟨o, r⟩

theorem latestControl_cons {o : ExecutionOp} (ho : Ruled o) (r : Except JsError o.Res) :
    latestControl (⟨o, r⟩ :: log) = latestControl log := by
  cases o <;> first | rfl | exact ho.elim

theorem keeps_latest (c : Option ProjectControlContext) :
    Keeps (Env.any (A := A)) (AllowanceSpec A) Ruled fun log _ => latestControl log = c := by
  refine ⟨fun _ _ _ _ h => h, fun log m o r s' ho h _ => ⟨?_, (latestControl_cons ho r).trans h⟩⟩
  cases o <;> first | exact Iff.rfl | exact ho.elim

theorem keeps_any :
    Keeps (Env.any (A := A)) (AllowanceSpec A) Ruled fun _ _ => True :=
  ⟨fun _ _ _ _ h => h, fun log m o r s' ho _ hs =>
    ⟨((keeps_latest (latestControl log)).call log m o r s' ho rfl hs).1, trivial⟩⟩

theorem ruled_of_administrative (o : ExecutionOp) (h : Administrative o) : Ruled o := by
  cases o <;> trivial

theorem ruled_of_reserving {k : String} (o : ExecutionOp) (h : Reserving k o) : Ruled o := by
  cases o <;> trivial

theorem ruled_of_settling {input : StepInput} (o : ExecutionOp) (h : Settling input o) :
    Ruled o := by
  cases o <;> trivial

theorem ruled_of_containing (o : ExecutionOp) (h : Containing o) : Ruled o :=
  ruled_of_administrative o (administrative_of_containing o h)

/-- A part that makes administrative calls only leaves the control context as it is. -/
theorem sat_of_administrative {α : Type} {p : Exec α} (hp : p.Only Administrative)
    (h : latestControl log = some control) :
    p.Sat Env.any (AllowanceSpec A) (fun log _ _ => latestControl log = some control) log s :=
  (hp.mono ruled_of_administrative).sat (keeps_latest _) h

/-- The pipeline, for a step that `requireCapability` let through. -/
theorem pipeline_judged {profiles : TestProfileRegistry} {X : External} {input : StepInput}
    {capability : Capability}
    (hrequire : requireCapability control input.step.capabilityId input.step.actionType.text =
      .ok capability) (h : latestControl log = some control) :
    (runBoundedStepPipeline X profiles input).Sat Env.any (AllowanceSpec A)
      (fun log _ _ => latestControl log = some control) log s := by
  have hkeeps := keeps_latest (A := A) (some control)
  have hbook := hkeeps.mono fun o h => ruled_of_administrative o (administrative_of_bookkeeping o h)
  refine (runBoundedStepPipeline_sat (hkeeps.mono ruled_of_reserving)
    (hkeeps.mono ruled_of_settling) hbook (hkeeps.mono ruled_of_settling) (fun _ _ h => h)
    (fun _ _ h => h) ?_ ?_ h).mono fun log s r h => ?_
  · intro log s h
    refine ((only_call (C := Ruled) (o := .markRunning _) trivial).sat hkeeps h).mono fun log s r h => ?_
    cases r <;> exact h
  · intro timeoutMs action log s h m r s' _ _
    exact ⟨allowed_iff_of_requireCapability h hrequire, h⟩
  · cases r with
    | ok p => exact h.1
    | error e => exact h

/-! ## One turn -/

theorem runPrimaryStep_judged (step : CompiledExecutionStep) {l : ExecuteLocals}
    (h : latestControl log = some ctx.control) :
    (runPrimaryStep C ctx step).Sat Env.any (AllowanceSpec A)
      (fun log _ _ _ => latestControl log = some ctx.control) log s l := by
  refine .bind_ofExcept (fun capability hrequire => .bind_read ?_) fun _ _ => h
  refine .bind_lift ((only_call (C := Ruled) (o := .readLedger _) trivial).sat (keeps_latest _) h)
    (fun log s ledger h => ?_) fun _ _ _ h => h
  refine .bind_ofExcept (fun _ _ => ?_) fun _ _ => h
  refine .bind_lift (pipeline_judged hrequire h) (fun log s result h => ?_) fun _ _ _ h => h
  exact ((only_recordPipelineResult step result).mono ruled_of_containing).sat
    (keeps_latest _) h

/-- After the rollback gate, the latest control context is the one the rollback works with. -/
theorem authorizeRollback_judged (failedStepId : String) :
    (authorizeRollback C ctx failedStepId).Sat Env.any (AllowanceSpec A)
      (ends (fun log _ authorized => latestControl log = some authorized.2) (fun _ _ _ => True))
      log s := by
  have hruled : ∀ {log : Log ExecutionSig} {s : A} {α : Type} {p : Exec α}, p.Only Ruled →
      p.Sat Env.any (AllowanceSpec A) (fun _ _ _ => True) log s := fun hp => hp.sat keeps_any trivial
  have hstart : ∀ plan log s, (startRollback C ctx failedStepId plan).Sat Env.any (AllowanceSpec A)
      (ends (fun log _ live => latestControl log = some live) (fun _ _ _ => True)) log s := by
    intro plan log s
    refine Async.Sat.bind (hruled (only_call trivial)) (fun log s _ _ => ?_) fun _ _ _ _ => trivial
    refine Async.Sat.bind (hruled ((only_announce _ _).mono ruled_of_administrative))
      (fun log s _ _ => ?_) fun _ _ _ _ => trivial
    refine Async.Sat.bind (hruled (only_call trivial)) (fun log s run _ => ?_)
      fun _ _ _ _ => trivial
    cases run with
    | none => trivial
    | some run =>
      refine (Async.sat_bind _ _).mpr fun m r s' _ _ => ⟨Iff.rfl, ?_⟩
      cases r with
      | error e => trivial
      | ok live =>
        exact Async.Sat.bind ((only_throwIf (C := Ruled) _ _).sat (keeps_latest (some live)) rfl)
          (fun log s _ h => h) fun _ _ _ _ => trivial
  refine Async.Sat.bind (hruled (only_call trivial)) (fun log s plan _ => ?_) fun _ _ _ _ => trivial
  exact (hstart plan _ _).bind (fun log s live h => h) fun _ _ _ _ => trivial

theorem compensate_judged (plan : RollbackPlan) (liveControl : ProjectControlContext) (id : String)
    {l : ExecuteLocals} (h : latestControl log = some liveControl) :
    (compensate C ctx plan liveControl id).Sat Env.any (AllowanceSpec A)
      (fun log _ _ _ => latestControl log = some liveControl) log s l := by
  refine .bind_ofExcept (fun compiled _ => ?_) fun _ _ => h
  refine .bind_ofExcept (fun capability hrequire => ?_) fun _ _ => h
  refine Method.Sat.tryCatch (R := fun log _ _ _ => latestControl log = some liveControl) ?_
    (fun _ _ _ _ h => h) fun log s error l h => ?_
  · refine .bind_lift (pipeline_judged hrequire h) (fun log s result h => ?_) fun _ _ _ h => h
    cases result <;> exact h
  · exact (Method.sat_ite _ _ _).mpr ⟨fun _ => h, fun _ => h⟩

theorem executeAuthorizedRollback_judged (failedStepId : String) {l : ExecuteLocals} :
    (executeAuthorizedRollback C ctx failedStepId).Sat Env.any (AllowanceSpec A)
      (fun _ _ _ _ => True) log s l := by
  refine .bind_lift (authorizeRollback_judged failedStepId)
    (fun log s authorized h => ?_) fun _ _ _ _ => trivial
  refine Method.Sat.bind (R := fun _ _ _ _ => True) ?_ (fun log s _ l _ => ?_)
    (fun _ _ _ _ _ => trivial)
  · refine Method.sat_forEach (I := fun _ log _ _ => latestControl log = some authorized.2) _
      (fun id ids log s l h => ?_) (fun _ _ _ _ => trivial) h
    refine (compensate_judged authorized.1 authorized.2 id h).mono fun log s r l h => ?_
    cases r with
    | ok u => exact h
    | error e => trivial
  · exact ((Method.only_lift (only_announce _ _)).mono ruled_of_administrative).sat keeps_any trivial

/-- The failure that a turn's `catch` block notes stays noted. -/
theorem handleStepError_failed (step : CompiledExecutionStep) (error : JsError)
    (l : ExecuteLocals) :
    ((handleStepError C ctx step error).body l).Leaves fun r => r.2.failed = true := by
  have hcontain : ∀ code message, (contain ctx code message).Stays (·.failed = true) :=
    fun _ _ => .bind (Method.stays_lift _) fun _ => .bind (Method.stays_assign fun _ h => h)
      fun _ => .bind Method.stays_read fun _ => .bind (Method.stays_lift _) fun _ =>
        .bind (Method.stays_lift _) fun _ => Method.stays_lift _
  have hcompensate : ∀ plan live id, (compensate C ctx plan live id).Stays (·.failed = true) := by
    refine fun plan live id => .bind (Method.stays_lift _) fun _ => .bind (Method.stays_lift _)
      fun _ => .tryCatch (.bind (Method.stays_lift _) fun result => ?_)
        fun _ => .ite (Method.stays_throw _) (Method.stays_throw _)
    cases result with
    | unknown result message => exact Method.stays_throw _
    | _ => exact Method.stays_assign fun _ h => h
  have hrollback : (rollbackOrContain C ctx step.stepId).Stays (·.failed = true) :=
    .tryCatch (.bind (Method.stays_lift _) fun _ =>
        .bind (Method.stays_forEach (fun _ => hcompensate _ _ _) _) fun _ => Method.stays_lift _)
      fun _ => .bind (Method.stays_assign fun _ h => h) fun _ =>
        .bind (Method.stays_assign fun _ h => h) fun _ => hcontain _ _
  have hunknown : ∀ message, (containUnknownStep ctx step message).Stays (·.failed = true) :=
    fun _ => .bind (Method.stays_lift _) fun _ => .bind (Method.stays_assign fun _ h => h) fun _ =>
      .bind (Method.stays_lift _) fun _ => .bind (Method.stays_assign fun _ h => h) fun _ =>
        hcontain _ _
  -- the first assignment notes the failure
  refine Method.Stays.ite (hunknown _) ?_ _ rfl
  exact .bind (Method.stays_lift _) fun _ => .bind (Method.stays_assign fun _ h => h) fun _ =>
    .bind (Method.stays_lift _) fun _ => hrollback

theorem handleStepError_judged (step : CompiledExecutionStep) (error : JsError)
    {l : ExecuteLocals} :
    (handleStepError C ctx step error).Sat Env.any (AllowanceSpec A)
      (fun _ _ _ l => l.failed = true) log s l := by
  have hruled : ∀ {log : Log ExecutionSig} {s : A} {l : ExecuteLocals} {p : ExecMethod Unit},
      p.Only Containing → p.Sat Env.any (AllowanceSpec A) (fun _ _ _ _ => True) log s l :=
    fun hp => (hp.mono ruled_of_containing).sat keeps_any trivial
  have hsat : (handleStepError C ctx step error).Sat Env.any (AllowanceSpec A)
      (fun _ _ _ _ => True) log s l := by
    refine .bind_assign ((Method.sat_ite _ _ _).mpr
      ⟨fun _ => hruled (only_containUnknownStep _ _), fun _ => ?_⟩)
    have hfail : (failStep (stepTask ctx step) error).Only Ruled :=
      .bind (only_call trivial) fun _ => .bind (only_call trivial) fun _ =>
        .bind (only_call trivial) fun _ => Async.only_pure _
    refine .bind_lift (hfail.sat keeps_any trivial) (fun log s result _ => .bind_assign ?_)
      fun _ _ _ _ => trivial
    refine .bind_lift (((only_announce _ _).mono ruled_of_administrative).sat keeps_any trivial)
      (fun log s _ _ => ?_) fun _ _ _ _ => trivial
    refine (executeAuthorizedRollback_judged step.stepId).tryCatch (fun _ _ _ _ _ => trivial)
      fun log s error l _ => ?_
    exact .bind_assign (.bind_assign (hruled (only_contain _ _)))
  exact (Prog.Sat.leaves hsat (handleStepError_failed step error l)).post fun _ _ _ h => h.2

/-- One turn: until a step has failed, the latest control context is the attempt's own. -/
theorem executeStep_judged (step : CompiledExecutionStep) {l : ExecuteLocals}
    (h : l.failed = true ∨ latestControl log = some ctx.control) :
    (executeStep C ctx step).Sat Env.any (AllowanceSpec A)
      (fun log _ _ l => l.failed = true ∨ latestControl log = some ctx.control) log s l := by
  have hskip : ∀ f : ℕ → ExecuteLocals → ExecuteLocals, (∀ t l, (f t l).failed = l.failed) →
      (Method.bind (Method.lift (call .nowIso)) fun t => Method.assign (f t)).Sat Env.any
        (AllowanceSpec A) (fun log _ _ l => l.failed = true ∨ latestControl log = some ctx.control)
        log s l := by
    refine fun f hf => .bind_lift (R := fun log _ _ =>
      l.failed = true ∨ latestControl log = some ctx.control) ?_ (fun log s t h => ?_)
      fun _ _ _ h => h
    · exact fun m r s' _ _ =>
      ⟨Iff.rfl, h.imp_right fun h => (latestControl_cons (o := .nowIso) trivial r).trans h⟩
    · exact h.imp_left fun hl => (hf t l).trans hl
  refine .bind_read ((Method.sat_ite _ _ _).mpr ⟨fun _ => hskip _ fun _ _ => rfl, fun hgo => ?_⟩)
  refine (Method.sat_ite _ _ _).mpr ⟨fun _ => hskip _ fun _ _ => rfl, fun _ => ?_⟩
  have hnot : l.failed ≠ true := fun hl => hgo (by simp [hl])
  refine (runPrimaryStep_judged step (h.resolve_left hnot)).tryCatch (fun _ _ _ _ h => .inr h)
    fun log s error l _ => ?_
  exact (handleStepError_judged step error).mono fun _ _ _ _ h => .inl h

/-! ## The whole call -/

theorem prepare_judged (runId : String) (ready : Readiness) (attemptNumber now : ℕ) :
    (prepare C runId ready attemptNumber now).Sat Env.any (AllowanceSpec A)
      (ends (fun log _ prepared => latestControl log = some prepared.1.control)
        (fun _ _ _ => True)) log s := by
  have hruled : ∀ {log : Log ExecutionSig} {s : A} {α : Type} {p : Exec α}, p.Only Administrative →
      p.Sat Env.any (AllowanceSpec A) (fun _ _ _ => True) log s :=
    fun hp => (hp.mono ruled_of_administrative).sat keeps_any trivial
  have hcheck : (checkAuthority C runId ready).Sat Env.any (AllowanceSpec A)
      (ends (fun log _ checked => latestControl log = some checked.1) (fun _ _ _ => True)) log s := by
    refine Async.Sat.bind (hruled (only_call trivial)) (fun log s _ _ => ?_) fun _ _ _ _ => trivial
    refine Async.Sat.bind (hruled (only_requireRun _ _)) (fun log s run _ => ?_)
      fun _ _ _ _ => trivial
    refine Async.Sat.bind (hruled (only_requireRun _ _)) (fun log s run' _ => ?_)
      fun _ _ _ _ => trivial
    refine (Async.sat_bind _ _).mpr fun m r s' _ _ => ⟨Iff.rfl, ?_⟩
    cases r with
    | error e => trivial
    | ok control => exact .bind_ofExcept (fun compiled _ => rfl) fun _ _ => trivial
  refine hcheck.bind (fun log s checked h => ?_) fun _ _ _ _ => trivial
  refine Async.Sat.bind (sat_of_administrative (only_openAttempt _ _ _ _ _) h)
    (fun log s attempt h => ?_) fun _ _ _ _ => trivial
  exact Async.Sat.bind (sat_of_administrative (only_startRun _ _ _) h) (fun log s _ h => h)
    fun _ _ _ _ => trivial

theorem runAttempt_judged (compiled : List CompiledExecutionStep) (key : ExecutionFenceKey)
    (ownerToken : String) (h : latestControl log = some ctx.control) :
    (runAttempt C ctx compiled key ownerToken).Sat Env.any (AllowanceSpec A)
      (fun _ _ _ => True) log s := by
  refine Async.Sat.bind (sat_of_administrative (only_call trivial) h) (fun log s _ h => ?_)
    fun _ _ _ _ => trivial
  refine .bind_ofExcept (fun order _ => (Method.sat_asAsync _).mpr ?_) fun _ _ => trivial
  refine Method.Sat.bind (R := fun _ _ _ _ => True) ?_ (fun log s _ l _ => .bind_read ?_)
    fun _ _ _ _ _ => trivial
  · refine Method.sat_forEach (I := fun _ log _ l =>
      l.failed = true ∨ latestControl log = some ctx.control) _ (fun step steps log s l h => ?_)
      (fun _ _ _ _ => trivial) (.inr h)
    refine (executeStep_judged step h).mono fun log s r l h => ?_
    cases r with
    | ok u => exact h
    | error e => trivial
  · exact (Method.only_lift ((only_finish _ _ _ _).mono ruled_of_administrative)).sat keeps_any
      trivial

theorem execute_judged (runId : String) :
    (execute C runId).Sat Env.any (AllowanceSpec A) (fun _ _ _ => True) log s := by
  have hruled : ∀ {log : Log ExecutionSig} {s : A} {α : Type} {p : Exec α}, p.Only Administrative →
      p.Sat Env.any (AllowanceSpec A) (fun _ _ _ => True) log s :=
    fun hp => (hp.mono ruled_of_administrative).sat keeps_any trivial
  have howned : ∀ ready key fence owner now {log : Log ExecutionSig} {s : A},
      (executeOwned C runId ready key fence owner now).Sat Env.any (AllowanceSpec A)
        (fun _ _ _ => True) log s := by
    intro ready key fence owner now log s
    refine (Async.sat_tryCatch _ _).mpr ((Async.Sat.bind (prepare_judged _ _ _ _)
      (fun log s prepared h => runAttempt_judged _ _ _ h) fun _ _ _ _ => trivial).mono
      fun log s r _ => ?_)
    cases r with
    | ok result => trivial
    | error e =>
      exact hruled (.bind (only_call trivial) fun _ => .bind (only_call trivial) fun _ =>
        Async.only_throw _)
  have hready : ∀ {log : Log ExecutionSig} {s : A},
      (executeReady C runId).Sat Env.any (AllowanceSpec A) (fun _ _ _ => True) log s := by
    intro log s
    refine Async.Sat.bind (hruled (only_call trivial)) (fun log s ready _ => ?_)
      fun _ _ _ _ => trivial
    refine Async.Sat.bind (hruled (only_call trivial)) (fun log s now _ => ?_)
      fun _ _ _ _ => trivial
    refine Async.Sat.bind (hruled (only_beginExecution _ _ _)) (fun log s begun _ => ?_)
      fun _ _ _ _ => trivial
    cases begun with
    | replay result => trivial
    | started fence owner => exact howned _ _ _ _ _
  have hprior : ∀ {f : Option ExecutionResult → Exec ExecutionResult},
      (∀ result, f (some result) = Async.pure result) → f none = executeReady C runId →
      ∀ (log : Log ExecutionSig) (s : A) prior, True →
        (f prior).Sat Env.any (AllowanceSpec A) (fun _ _ _ => True) log s := by
    intro f hsome hnone log s prior _
    cases prior with
    | some result =>
      rw [hsome]
      trivial
    | none =>
      rw [hnone]
      exact hready
  refine Async.Sat.bind (hruled (only_requireRun _ _)) (fun log s run _ => ?_)
    fun _ _ _ _ => trivial
  refine (Async.sat_ite _ _ _).mpr ⟨fun _ => ?_, fun _ => hready⟩
  exact Async.Sat.bind (hruled (only_replayFinished _ _))
    (hprior (fun _ => rfl) rfl) fun _ _ _ _ => trivial

end Following

/-- Whatever the dependencies of the service answer: each call of the actuator is of a step that
the control plane allows exactly when the step's capability does not forbid its action. -/
theorem allowed_iff_unforbidden {σ : Type} (h : Handler ExecutionSig σ) (s : σ)
    (C : ExecutionConfig) (runId : String) :
    Log.All (fun log e => AllowedActuation log e ↔ UnforbiddenActuation log e)
      ((execute C runId).prog.run h s []).log := by
  have hmeets : h.Meets (Env.any (A := Unit)) fun _ => () :=
    ⟨fun _ => trivial, fun _ _ _ => trivial⟩
  have hsat : (execute C runId).Sat Env.any (AllowanceSpec Unit) (fun _ _ _ => True) [] () :=
    execute_judged runId
  exact (Prog.Sat.run (G := fun log e => AllowedActuation log e ↔ UnforbiddenActuation log e)
    hmeets hsat (Log.all_nil _)).2

/-- A capability that forbids the one action it allows: the plan's step is actuated all the
same. -/
theorem not_allowed_overlapping :
    ¬Log.All AllowedActuation ((execute Scenario.config "run_1").prog.run
      (execution plainExternal (Scenario.surroundings [Scenario.patch "step_1" [] []] ["step_1"]
        (Scenario.control (Scenario.patches ["CREATE_LOCAL_PATCH"]) 30) (fun _ => none) 1))
      (Scenario.world ["run_1"]) []).log := by
  decide +kernel

end Orchestrator
