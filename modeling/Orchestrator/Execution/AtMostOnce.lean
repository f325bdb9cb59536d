import Orchestrator.Atomic.Pool
import Orchestrator.Execution.Calls

/-!
# At-most-once actuation

Any number of pipeline calls run against one step store, in any order, each free to crash
between two calls. The store is meant to let one of them through to the actuator for each
idempotency key. It does when no `markRunning` finds its step already `RUNNING`
(`actuations_le_one`): `markRunning` returns such a step to its caller as if the caller had
started it, and two callers that share a reservation then both go on to the actuator
(`actuations_two`).

The argument counts. Within one call, each actuation comes after a `markRunning` of its own
(`pipeline_credit`); over the whole history, a key leaves `RESERVED` once
(`startedMarks_le`).
-/

namespace Orchestrator

open Atomic ExecutionService

/-! ## Counting actuations and starts -/

/-- The event is a call of the actuator for key `k`. -/
def Actuates (k : String) (e : Event ExecutionSig) : Bool :=
  match e with
  | ⟨.actuate _ step _ _, _⟩ => step.idempotencyKey = k
  | _ => false

/-- The event is a `markRunning` of key `k` that did not throw. -/
def Starts (k : String) (e : Event ExecutionSig) : Bool :=
  match e with
  | ⟨.markRunning k', r⟩ => k' = k && r.isOk
  | _ => false

/-- The call is neither one of the actuator nor a `markRunning`. -/
def Quiet : ExecutionOp → Prop
  | .actuate .. => False
  | .markRunning _ => False
  | .fail _ result => result.status = .failed
  | _ => True

/-- Each actuation for a key comes after a start of its own. -/
def Covered (log : Log ExecutionSig) : Prop :=
  ∀ k, log.countP (Actuates k) ≤ log.countP (Starts k)

/-- There is a start of `k` that no actuation has used yet. -/
def Credit (k : String) (log : Log ExecutionSig) : Prop :=
  log.countP (Actuates k) < log.countP (Starts k)

/-- What a pipeline call guarantees at each of its calls: it actuates on credit only, and a
failure it records has status `FAILED`. -/
def PipelineSpec {A : Type} : CallSpec ExecutionSig A := fun log _ o _ _ =>
  match o with
  | .actuate _ step _ _ => Credit step.idempotencyKey log
  | .fail _ result => result.status = .failed
  | _ => True

theorem actuates_of_quiet {o : ExecutionOp} (h : Quiet o) (k : String)
    (r : Except JsError o.Res) : Actuates k ⟨o, r⟩ = false := by
  cases o <;> first | rfl | exact h.elim

theorem starts_of_quiet {o : ExecutionOp} (h : Quiet o) (k : String)
    (r : Except JsError o.Res) : Starts k ⟨o, r⟩ = false := by
  cases o <;> first | rfl | exact h.elim

theorem spec_of_quiet {A : Type} {o : ExecutionOp} (h : Quiet o) (log : Log ExecutionSig) (m : A)
    (r : Except JsError o.Res) (s : A) : PipelineSpec log m o r s := by
  cases o <;> trivial

theorem quiet_of_bookkeeping (o : ExecutionOp) (h : Bookkeeping o) : Quiet o := by
  cases o <;> trivial

theorem quiet_of_reserving {k : String} (o : ExecutionOp) (h : Reserving k o) : Quiet o := by
  cases o <;> trivial

theorem quiet_of_settling {input : StepInput} (o : ExecutionOp) (h : Settling input o) :
    Quiet o := by
  cases o <;> trivial

/-! ## One pipeline call -/

section Call

variable {X : External} {profiles : TestProfileRegistry} {input : StepInput}
variable {A : Type} {log : Log ExecutionSig} {s : A}

/-- Quiet calls leave the two counts as they are. -/
theorem count_quiet {o : ExecutionOp} (ho : Quiet o) (r : Except JsError o.Res) (k : String) :
    (⟨o, r⟩ :: log : Log ExecutionSig).countP (Actuates k) = log.countP (Actuates k) ∧
      (⟨o, r⟩ :: log : Log ExecutionSig).countP (Starts k) = log.countP (Starts k) := by
  simp [actuates_of_quiet ho k r, starts_of_quiet ho k r]

theorem keeps_covered : Keeps (Env.any (A := A)) PipelineSpec Quiet fun log _ => Covered log := by
  refine ⟨fun _ _ _ _ h => h, fun log m o r s' ho h _ => ⟨spec_of_quiet ho log m r s', ?_⟩⟩
  intro k
  rw [(count_quiet ho r k).1, (count_quiet ho r k).2]
  exact h k

theorem keeps_credit (k : String) :
    Keeps (Env.any (A := A)) PipelineSpec Quiet fun log _ => Covered log ∧ Credit k log := by
  refine ⟨fun _ _ _ _ h => h, fun log m o r s' ho h hs => ?_⟩
  obtain ⟨hspec, hcov⟩ := keeps_covered.call log m o r s' ho h.1 hs
  refine ⟨hspec, hcov, ?_⟩
  rw [Credit, (count_quiet ho r k).1, (count_quiet ho r k).2]
  exact h.2

/-- A call within the specification keeps every actuation covered. -/
theorem covered_cons {o : ExecutionOp} {r : Except JsError o.Res} {m s' : A} (h : Covered log)
    (hspec : PipelineSpec log m o r s') : Covered (⟨o, r⟩ :: log) := by
  intro k
  have hk := h k
  by_cases ho : Actuates k ⟨o, r⟩ = true
  · -- an actuation uses the credit that its specification asks for
    have hcredit : Credit k log := by
      cases o with
      | actuate action step attempt t =>
        have hstep : step.idempotencyKey = k := of_decide_eq_true ho
        exact hstep ▸ hspec
      | _ => exact absurd ho Bool.false_ne_true
    simp only [List.countP_cons, ho, if_true]
    exact (Nat.succ_le_of_lt hcredit).trans (Nat.le_add_right _ _)
  · simp only [List.countP_cons, ho, Bool.false_eq_true, if_false, Nat.add_zero]
    exact hk.trans (Nat.le_add_right _ _)

/-- The actuator may be called on credit. -/
theorem actuate_sat (action : Phase7ActionType) (step : CompiledExecutionStep) (attempt : String)
    (timeoutMs : ℚ) (h : Covered log ∧ Credit step.idempotencyKey log) :
    (call (.actuate action step attempt timeoutMs)).Sat Env.any PipelineSpec
      (fun log' _ _ => Covered log') log s :=
  fun m _ s' _ _ => ⟨h.2, covered_cons h.1 (show PipelineSpec log m _ _ s' from h.2)⟩

/-- A start that did not throw gives credit. -/
theorem markRunning_sat (k : String) (h : Covered log) :
    (call (.markRunning k)).Sat (A := A) Env.any PipelineSpec
      (ends (fun log' _ _ => Covered log' ∧ Credit k log') (fun log' _ _ => Covered log'))
      log s := by
  intro m r s' _ _
  have hcov : Covered (⟨.markRunning k, r⟩ :: log) :=
    covered_cons h (show PipelineSpec log m (.markRunning k) r s' from trivial)
  refine ⟨trivial, ?_⟩
  cases r with
  | error e => exact hcov
  | ok a =>
    refine ⟨hcov, ?_⟩
    have hk := h k
    simp only [Credit, List.countP_cons, Actuates, Starts, Except.isOk, Except.toBool,
      Bool.false_eq_true, if_false, Nat.add_zero, decide_true, Bool.and_self, if_true]
    exact Nat.lt_succ_of_le hk

/-- A pipeline call actuates on credit only, whatever its calls are answered. -/
theorem pipeline_credit (h : Covered log) :
    (runBoundedStepPipeline X profiles input).Sat Env.any PipelineSpec
      (fun log' _ _ => Covered log') log s := by
  have hcov := keeps_covered (A := A)
  refine (runBoundedStepPipeline_sat (M := fun log _ => Covered log ∧
    Credit input.step.idempotencyKey log) (hcov.mono quiet_of_reserving)
    (hcov.mono quiet_of_settling) ((keeps_credit _).mono quiet_of_bookkeeping)
    (hcov.mono quiet_of_settling) (fun _ _ h => h) (fun _ _ h => h.1)
    (fun _ _ h => markRunning_sat _ h) (fun t a _ _ h => actuate_sat a _ _ t h) h).mono
    fun log s r h => ?_
  cases r with
  | ok p => exact h.1
  | error e => exact h

theorem only_failStep (error : JsError) : (failStep input.toStepTask error).Only Quiet :=
  .bind (only_call trivial) fun _ => .bind (only_call trivial) fun _ =>
    .bind (only_call rfl) fun _ => Async.only_pure _

theorem attempt_credit (h : Covered log) :
    (attemptStep X profiles input).Sat Env.any PipelineSpec (fun log' _ _ => Covered log')
      log s := by
  refine (Async.sat_tryCatch _ _).mpr ((pipeline_credit h).mono fun log s r h => ?_)
  cases r with
  | ok p => exact h
  | error e =>
    refine (Async.sat_ite _ _ _).mpr ⟨fun _ => h, fun _ => ?_⟩
    exact Async.Sat.bind ((only_failStep e).sat keeps_covered h) (fun _ _ _ h => h)
      (fun _ _ _ h => h)

end Call

/-! ## The store -/

/-- Whether key `k` has left `RESERVED`, as a number. -/
def spent (s : StepExecutionRepository) (k : String) : ℕ :=
  if s.status k = none ∨ s.status k = some .reserved then 0 else 1

section Store

open StepExecutionRepository

variable {X : External} {s : StepExecutionRepository} {k : String}

theorem spent_le_one : spent s k ≤ 1 := by
  rw [spent]
  split <;> omega

/-- Storing a record that is neither missing nor reserved spends its key. -/
theorem spent_le_put {k' : String} {r : StepExecutionResult} (h : r.idempotencyKey = k')
    (hr : r.status ≠ .reserved) : spent s k ≤ spent (s.put k' r h) k := by
  by_cases hk : k' = k
  · have hput : spent (s.put k' r h) k = 1 := by
      rw [spent, status_put, if_pos hk]
      simp [hr]
    rw [hput]
    exact spent_le_one
  · rw [spent, spent, status_put, if_neg hk]

theorem spent_le_reserve (input : ReserveInput) : spent s k ≤ spent (s.reserve X input).2 k := by
  rcases reserve_cases X s input with ⟨r, -, -, h⟩ | ⟨r, -, -, h⟩ | ⟨r, -, -, h⟩ | ⟨r, -, -, h⟩ |
    ⟨-, -, h⟩ | ⟨hnone, -, h⟩ <;> rw [h]
  -- only a key without a record gets one
  rw [spent, spent, status_list, status_put]
  split_ifs <;> simp_all [status_eq_none, reservation]

theorem spent_le_complete (k' : String) (result : StepExecutionResult) :
    spent s k ≤ spent (s.complete X k' result).2 k := by
  rcases complete_cases X s k' result with ⟨hk, -, hst, h⟩ | ⟨e, -, h⟩ <;> rw [h]
  exact spent_le_put hk (by rcases hst with hst | hst <;> simp [hst])

theorem spent_le_fail (k' : String) (result : StepExecutionResult) (hr : result.status = .failed) :
    spent s k ≤ spent (s.fail X k' result).2 k := by
  rcases fail_cases X s k' result with ⟨hk, -, -, h⟩ | ⟨-, e, -, h⟩ <;> rw [h]
  exact spent_le_put hk (by simp [hr])

theorem spent_le_reconcileSucceeded (k' : String) (result : StepExecutionResult) :
    spent s k ≤ spent (s.reconcileSucceeded X k' result).2 k := by
  rcases reconcileSucceeded_cases X s k' result with ⟨-, h⟩ | ⟨e, h⟩ <;> rw [h]
  exact spent_le_put (idempotencyKey_reconciled k' result) (by simp [reconciled])

/-- A `markRunning` that does not find its step running spends the key when it succeeds. -/
theorem spent_markRunning (h : s.status k ≠ some .running) :
    ((s.markRunning X k).1.isOk = true → spent s k = 0 ∧ spent (s.markRunning X k).2 k = 1) ∧
      spent s k ≤ spent (s.markRunning X k).2 k := by
  rcases markRunning_cases X s k with ⟨r, hget, hrun, -⟩ | ⟨r, hk, hget, hres, -, hmark⟩ |
    ⟨-, e, -, hmark⟩
  · exact absurd (by rw [status_eq_some hget, hrun]) h
  · have hspent : spent s k = 0 := by
      rw [spent, status_eq_some hget, hres]
      simp
    have hput : spent (s.put k (r.withStatus .running) hk) k = 1 := by
      rw [spent, status_put, if_pos rfl]
      simp
    rw [hmark]
    exact ⟨fun _ => ⟨hspent, hput⟩, by rw [hspent]; exact Nat.zero_le _⟩
  · rw [hmark]
    exact ⟨fun hok => absurd hok Bool.false_ne_true, le_rfl⟩

theorem spent_le_markRunning (k' : String) : spent s k ≤ spent (s.markRunning X k').2 k := by
  rcases markRunning_cases X s k' with ⟨r, -, -, h⟩ | ⟨r, hk, -, -, -, h⟩ | ⟨-, e, -, h⟩ <;> rw [h]
  exact spent_le_put hk (by simp)

end Store

/-- One call within the specification: a start of `k` is paid for by `k` leaving `RESERVED`. -/
theorem starts_le_spent {X : External} {U : Surroundings} {A : Type} {w : World} {k : String}
    {log : Log ExecutionSig} {m s' : A} (o : ExecutionOp)
    (hspec : PipelineSpec log m o (execution X U o w).1 s')
    (hcas : o = .markRunning k → w.steps.status k ≠ some .running) :
    (if Starts k ⟨o, (execution X U o w).1⟩ then 1 else 0) + spent w.steps k ≤
      spent (execution X U o w).2.steps k := by
  by_cases hstart : Starts k ⟨o, (execution X U o w).1⟩ = true
  · rw [if_pos hstart]
    cases o with
    | markRunning k' =>
      obtain ⟨hk, hok⟩ := Bool.and_eq_true_iff.mp hstart
      obtain rfl := of_decide_eq_true hk
      obtain ⟨hzero, hone⟩ := (spent_markRunning (hcas rfl)).1 hok
      rw [hzero]
      exact hone.ge
    | _ => exact absurd hstart Bool.false_ne_true
  · rw [if_neg hstart, Nat.zero_add]
    cases o with
    | reserve input => exact spent_le_reserve input
    | markRunning k' => exact spent_le_markRunning k'
    | complete k' result => exact spent_le_complete k' result
    | fail k' result => exact spent_le_fail k' result hspec
    | reconcileSucceeded k' result => exact spent_le_reconcileSucceeded k' result
    | _ => exact (congrArg (spent · k) (execution_steps (by exact id))).ge

/-! ## Every interleaving -/

/-- A caller of the pipeline: `execute` for a primary step, or a rollback for a compensating
one. -/
inductive PipelineCaller where
  | primary (input : StepInput)
  | compensating (input : StepInput)
  deriving DecidableEq, Repr

def PipelineCaller.program (X : External) (profiles : TestProfileRegistry) :
    PipelineCaller → Prog ExecutionSig (Except JsError PipelineResult)
  | .primary input => (attemptStep X profiles input).prog
  | .compensating input => (runBoundedStepPipeline X profiles input).prog

/-- Anything else that happens to the world while it leaves the step store alone. -/
def OutsideMove := { f : World → World // ∀ w, (f w).steps = w.steps }

/-- The world as pipeline callers share it. -/
def sharedWorld (X : External) (U : Surroundings) : System ExecutionSig World OutsideMove where
  handler := execution X U
  env f := f.1

/-- The call, if it is a `markRunning` of `k`, does not find the step already `RUNNING`. -/
def StartsFresh (k : String) (w : World) : ExecutionOp → Prop
  | .markRunning k' => k' = k → w.steps.status k ≠ some .running
  | _ => True

instance (k : String) (w : World) (o : ExecutionOp) : Decidable (StartsFresh k w o) := by
  cases o <;> unfold StartsFresh <;> infer_instance

/-- Pipeline callers promise each other nothing but their own specification. -/
def pipelineContract (X : External) (U : Surroundings) (ι : Type) [DecidableEq ι] (k : String) :
    Contract (sharedWorld X U) ι where
  env _ := Env.any
  spec _ := PipelineSpec
  inv _ := True
  cond _ := StartsFresh k
  envCond _ _ := True
  rely_refl _ _ := trivial
  rely_trans _ _ _ _ _ _ := trivial
  answers _ _ _ _ _ _ := trivial
  keeps _ _ _ _ _ _ _ := trivial
  guards _ _ _ _ _ _ _ _ _ := trivial
  env_keeps _ _ _ _ := trivial
  env_guards _ _ _ _ _ := trivial

section Interleaving

variable {X : External} {U : Surroundings} {profiles : TestProfileRegistry}
variable {ι : Type} [DecidableEq ι] {k : String}

/-- One action of the pool keeps every caller's actuations covered, and the starts of `k` paid
for. -/
theorem pool_step {Q : ι → Log ExecutionSig → World → Except JsError PipelineResult → Prop}
    (pool : Pool ExecutionSig ι World (Except JsError PipelineResult))
    (a : Action ι OutsideMove) (h : (pipelineContract X U ι k).Holds Q pool)
    (hmeets : pool.Meets (fun _ => StartsFresh k) (fun _ _ => True) a)
    (hI : (∀ i, Covered (pool.log i)) ∧
      pool.history.countP (fun e => Starts k e.2) ≤ spent pool.state.steps k) :
    (∀ i, Covered ((pool.act (sharedWorld X U) a).log i)) ∧
      (pool.act (sharedWorld X U) a).history.countP (fun e => Starts k e.2) ≤
        spent (pool.act (sharedWorld X U) a).state.steps k := by
  rcases pool.act_cases (sharedWorld X U) a with ⟨i, o, p, rfl, hp, hcall, hact⟩ | ⟨i, -, hact⟩ |
    ⟨e, -, hact⟩ | hact
  · have hspec : PipelineSpec (pool.log i) pool.state o (execution X U o pool.state).1
        (execution X U o pool.state).2 := (h.call hp (hmeets.call hcall)).1
    rw [hact]
    constructor
    · intro j
      by_cases hij : i = j
      · subst hij
        have hcov := covered_cons (hI.1 i) hspec
        simpa [Pool.log, sharedWorld] using hcov
      · simpa [Pool.log, hij] using hI.1 j
    · have hstep := starts_le_spent o hspec fun ho => by
        have hfresh := hmeets.call hcall
        rw [ho] at hfresh
        exact hfresh rfl
      rw [List.countP_cons, Nat.add_comm]
      exact (Nat.add_le_add_left hI.2 _).trans hstep
  · rw [hact]
    exact hI
  · rw [hact]
    refine ⟨hI.1, ?_⟩
    have hsteps := e.2 pool.state
    simpa [sharedWorld, hsteps] using hI.2
  · rw [hact]
    exact hI

/-- Whatever the callers, the schedule, the crashes and the state they start from: when no
`markRunning` of `k` finds its step already `RUNNING`, the actuator is called for `k` at most
once. -/
theorem actuations_le_one (callers : ι → PipelineCaller) (w : World)
    (acts : List (Action ι OutsideMove))
    (hfresh : (Pool.init w fun i => (callers i).program X profiles).Along (sharedWorld X U)
      (fun _ => StartsFresh k) (fun _ _ => True) acts) :
    ((Pool.init w fun i => (callers i).program X profiles).exec (sharedWorld X U)
      acts).history.countP (fun e => Actuates k e.2) ≤ 1 := by
  have hinit : (pipelineContract X U ι k).Holds (fun _ log _ _ => Covered log)
      (Pool.init w fun i => (callers i).program X profiles) := by
    refine .init trivial fun i => ?_
    have hnil : Covered [] := fun k => le_rfl
    cases hc : callers i with
    | primary input => exact attempt_credit hnil
    | compensating input => exact pipeline_credit hnil
  obtain ⟨-, hcov, hstarts⟩ := hinit.exec_keeps
    (I := fun pool => (∀ i, Covered (pool.log i)) ∧
      pool.history.countP (fun e => Starts k e.2) ≤ spent pool.state.steps k)
    pool_step acts hfresh ⟨fun i k => le_rfl, Nat.zero_le _⟩
  calc _ ≤ _ := Pool.countP_history_le _ (Actuates k) (Starts k) fun i => hcov i k
    _ ≤ _ := hstarts
    _ ≤ 1 := spent_le_one

end Interleaving

/-! ## Two callers on one reservation -/

section TwoCallers

private def patchStep : CompiledExecutionStep where
  stepId := "step_1"
  capabilityId := "cap_patch"
  actionType := .createLocalPatch
  validatedTargets := ["a.ts"]
  normalizedArguments := ⟨none, "{}"⟩
  preconditions := []
  expectedPostconditions := []
  verificationRequirements := []
  rollbackReference := ⟨.none, none, none⟩
  idempotencyKey := "key_1"
  dependsOn := []

private def patchInput : StepInput where
  toStepTask := ⟨patchStep, "run_1", "exec_attempt_1"⟩
  capability :=
    { capabilityId := "cap_patch"
      version := "1"
      allowedActions := ["CREATE_LOCAL_PATCH"]
      forbiddenActions := []
      allowedEnvironments := ["dev"]
      approvalRequirement := .none
      maximumRuntimeSeconds := 60
      enabled := true }

private def smooth : Surroundings :=
  .smooth ⟨⟨"", 1, "", ⟨"", "", "", [], [], ""⟩⟩, ⟨"", ""⟩, ""⟩ ⟨.supervised, ⟨0, 0, 0⟩, [], "dev"⟩

/-- An empty store, a ledger with thirty minutes, and two callers of the same step. -/
private def twoCallers :
    Pool ExecutionSig Bool World (Except JsError PipelineResult) :=
  Pool.init (World.empty.setLedger "exec_attempt_1" (.create ⟨100, 30, 10⟩)) fun _ =>
    (PipelineCaller.primary patchInput).program plainExternal defaultTestProfiles

/-- One caller after the other: the second finds the result of the first. -/
theorem actuations_le_one_sequential :
    (twoCallers.exec (sharedWorld plainExternal smooth)
      (List.replicate 16 (.run false) ++ List.replicate 4 (.run true))).history.countP
        (fun e => Actuates "key_1" e.2) ≤ 1 :=
  actuations_le_one _ _ _ (by decide +kernel)

/-- Both callers reserve before either starts: `reserve` hands the second the reservation of the
first, `markRunning` hands it the running record, and both go on to the actuator. -/
theorem actuations_two :
    ¬(twoCallers.exec (sharedWorld plainExternal smooth)
      (List.replicate 2 (.run false) ++ List.replicate 9 (.run true) ++
        List.replicate 7 (.run false))).history.countP (fun e => Actuates "key_1" e.2) ≤ 1 := by
  decide +kernel

end TwoCallers

end Orchestrator
