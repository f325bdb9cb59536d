import Orchestrator.Execution.ServiceCalls

/-!
# Calls of `execute` that run alone

One call of `execute` on the in-memory implementations, with nothing else acting on them:

* which calls never throw (`Unthrowing`), and what the step store's answers say (`StoreAnswer`);
* `Attempting`, what the world looks like while an attempt is running;
* containment, which then fails for an empty message only (`contain_alone`);
* records that are final stay as they are (`final_execution`).
-/

namespace Orchestrator

open Atomic StepExecutionRepository ExecutionService

variable {X : External} {U : Surroundings} {w : World} {log : Log ExecutionSig}

/-- The environment of a call that runs alone on the in-memory implementations. -/
abbrev aloneOn (X : External) (U : Surroundings) : Env ExecutionSig World :=
  Env.alone (execution X U)

/-! ## Answers -/

/-- The calls that the in-memory implementations answer without fail. -/
def Unthrowing : ExecutionOp → Prop
  | .nowIso => True
  | .dateNow => True
  | .nextArtifactId => True
  | .nextEventId => True
  | .getRun _ => True
  | .appendEvent _ => True
  | .getByIdempotencyKey _ => True
  | .createLedger .. => True
  | .readLedger _ => True
  | .releaseReservation .. => True
  | .recordAutomaticRollback => True
  | .cacheResult .. => True
  | .storeFenceResult .. => True
  | _ => False

theorem exists_ok_of_unthrowing {o : ExecutionOp} (h : Unthrowing o) (w : World) :
    ∃ a, (execution X U o w).1 = .ok a := by
  cases o <;> first | exact ⟨_, rfl⟩ | exact h.elim

/-- What the answers of the clock, the step store and the last schema check say. -/
def StoreAnswer : Event ExecutionSig → Prop
  | ⟨.nowIso, .error _⟩ => False
  | ⟨.reserve input, .ok (.replay r)⟩ =>
    r.idempotencyKey = input.idempotencyKey ∧ (r.status = .succeeded ∨ r.status = .compensated)
  | ⟨.reserve _, .error e⟩ => e.isStateUnknown = true → e.messageOr "" ≠ ""
  | ⟨.complete _ actuated, .ok r⟩ => r = actuated
  | ⟨.reconcileSucceeded k _, .ok r⟩ => r.idempotencyKey = k ∧ r.status = .succeeded
  | ⟨.getByIdempotencyKey k, .ok (some r)⟩ => r.idempotencyKey = k
  | ⟨.parseExecutionResult result, .ok parsed⟩ => parsed = result
  | _ => True

theorem runningMessage_ne (stepId : String) : runningMessage stepId ≠ "" := by
  have hstep : toString "Step " ≠ "" := by decide
  simp [runningMessage, hstep]

theorem storeAnswer_execution (o : ExecutionOp) (w : World) :
    StoreAnswer ⟨o, (execution X U o w).1⟩ := by
  cases o with
  | reserve input =>
    simp only [execution]
    rcases reserve_cases X w.steps input with ⟨r, hget, hst, h⟩ | ⟨r, -, -, h⟩ | ⟨r, -, -, h⟩ |
      ⟨r, -, -, h⟩ | ⟨-, -, h⟩ | ⟨-, -, h⟩ <;> rw [h]
    · exact ⟨w.steps.keyed _ r hget, hst⟩
    · exact fun _ => runningMessage_ne r.stepId
    · trivial
    · exact fun hu => absurd hu (by simp)
    · exact fun hu => absurd hu (by simp [External.zodError])
    · trivial
  | complete k result =>
    simp only [execution]
    rcases complete_cases X w.steps k result with ⟨hk, -, -, h⟩ | ⟨e, -, h⟩ <;> rw [h]
    · rfl
    · trivial
  | reconcileSucceeded k result =>
    simp only [execution]
    rcases reconcileSucceeded_cases X w.steps k result with ⟨-, h⟩ | ⟨e, h⟩ <;> rw [h]
    · exact ⟨rfl, rfl⟩
    · trivial
  | getByIdempotencyKey k =>
    simp only [execution, getByIdempotencyKey]
    cases hget : w.steps.byKey.get k with
    | none => trivial
    | some r => exact w.steps.keyed k r hget
  | parseExecutionResult result =>
    simp only [execution, parseExecutionResult, External.parse]
    split
    · rfl
    · trivial
  | _ => trivial

/-- Every answer so far is one that the in-memory implementations give. -/
def Told (log : Log ExecutionSig) : Prop := ∀ e ∈ log, StoreAnswer e

theorem keeps_told :
    Keeps (aloneOn X U) anyCall (fun _ => True) fun log _ => Told log := by
  refine ⟨fun _ _ _ _ h => h, fun log w o r w' _ h hs => ⟨trivial, ?_⟩⟩
  obtain ⟨rfl, -⟩ := Prod.ext_iff.mp hs
  exact List.forall_mem_cons.mpr ⟨storeAnswer_execution o w, h⟩

/-- What the pipeline's result looks like, its answers being the store's. -/
theorem told_of_provenance {input : StepInput} {p : PipelineResult} (hlog : Told log)
    (h : Provenance input log p) :
    match p with
    | .succeeded r => r.idempotencyKey = input.step.idempotencyKey ∧ r.status = .succeeded
    | .replay r => r.idempotencyKey = input.step.idempotencyKey ∧
        (r.status = .succeeded ∨ r.status = .compensated)
    | .unknown r message => r.idempotencyKey = input.step.idempotencyKey ∧ message ≠ "" := by
  cases p with
  | succeeded r =>
    obtain ⟨actuated, hresult, hmem⟩ := h
    obtain rfl : r = actuated := hlog _ hmem
    exact ⟨hresult.2.1, hresult.1⟩
  | replay r =>
    rcases h with ⟨t, hmem⟩ | ⟨proven, hmem⟩
    · exact hlog _ hmem
    · have hanswer : r.idempotencyKey = input.step.idempotencyKey ∧ r.status = .succeeded :=
        hlog _ hmem
      exact ⟨hanswer.1, .inl hanswer.2⟩
  | unknown r message =>
    obtain ⟨⟨error, hunknown, rfl, hfrom⟩, hresult⟩ := h
    constructor
    · rcases hresult with hmem | ⟨t, t', rfl⟩
      · exact hlog _ hmem
      · rfl
    · rcases hfrom with ⟨t, hmem⟩ | hmem
      · exact hlog _ hmem hunknown
      · exact (hlog _ hmem).elim

/-! ## Calls one after the other -/

section Calls

variable {α : Type} {Q : Log ExecutionSig → World → Except JsError α → Prop}

theorem call_alone {o : ExecutionOp}
    {Q : Log ExecutionSig → World → Except JsError o.Res → Prop}
    (h : Q (⟨o, (execution X U o w).1⟩ :: log) (execution X U o w).2 (execution X U o w).1) :
    (call o).Sat (aloneOn X U) anyCall Q log w :=
  Prog.sat_call_alone trivial h

/-- A call whose answer is known comes first. -/
theorem bind_call_ok {o : ExecutionOp} {f : o.Res → Exec α} {a : o.Res}
    (ha : (execution X U o w).1 = .ok a)
    (hf : (f a).Sat (aloneOn X U) anyCall Q (⟨o, .ok a⟩ :: log) (execution X U o w).2) :
    ((call o).bind f).Sat (aloneOn X U) anyCall Q log w := by
  refine (Async.sat_bind _ _).mpr (call_alone ?_)
  rw [ha]
  exact hf

/-- An event is appended without fail. -/
theorem appendEvent_alone (runId : String) (data : ExecutionEventData) :
    (appendEvent runId data).Sat (aloneOn X U) anyCall
      (ends (fun _ _ _ => True) (fun _ _ _ => False)) log w := by
  refine bind_call_ok (a := w.runs.getById runId) rfl ?_
  cases w.runs.getById runId with
  | none => trivial
  | some run =>
    refine bind_call_ok rfl (bind_call_ok rfl (bind_call_ok rfl (call_alone ?_)))
    trivial

/-- An appended event keeps what bookkeeping keeps. -/
theorem announce_keeps {I : Log ExecutionSig → World → Prop}
    (hI : Keeps (aloneOn X U) anyCall Bookkeeping I) (runId : String) (data : ExecutionEventData)
    (h : I log w) : (appendEvent runId data).Sat (aloneOn X U) anyCall
      (fun log w r => r.isOk = true ∧ I log w) log w := by
  refine (((only_appendEvent runId data).sat hI h).also (appendEvent_alone runId data)).mono
    fun log w r hr => ?_
  cases r with
  | ok u => exact ⟨rfl, hr.1⟩
  | error e => exact hr.2.elim

end Calls

/-! ## While an attempt is running -/

/-- The run of the attempt is stored, and is `EXECUTING` or `CONTAINED`. -/
structure Attempting (ctx : AttemptContext) (w : World) : Prop where
  runId_ne : ctx.runId ≠ ""
  executionAttemptId_ne : ctx.executionAttemptId ≠ ""
  run : ∃ run, w.runs.getById ctx.runId = some run ∧
    (run.state = .executing ∨ run.state = .contained)

/-- The call, if it moves a run, moves it to a state that an attempt may find its run in. -/
def Steady : ExecutionOp → Prop
  | .transitionRun _ _ _ next _ => next = .executing ∨ next = .contained
  | _ => True

theorem steady_of_containing (o : ExecutionOp) (h : Containing o) : Steady o := by
  cases o <;> first | trivial | exact .inr h

/-- Only a transition changes the runs. -/
theorem execution_runs (o : ExecutionOp) (w : World) :
    (execution X U o w).2.runs = w.runs ∨
      ∃ runId expected revision next t, o = .transitionRun runId expected revision next t := by
  cases o with
  | transitionRun => exact .inr ⟨_, _, _, _, _, rfl⟩
  | beginFence =>
    refine .inl ?_
    simp only [execution, World.beginFence]
    split
    · rfl
    · split <;> rfl
  | transitionFence =>
    refine .inl ?_
    simp only [execution, World.transitionFence]
    split
    · rfl
    · split
      · rfl
      · split <;> rfl
  | saveAttempt =>
    refine .inl ?_
    simp only [execution]
    split <;> rfl
  | _ => exact .inl rfl

variable {ctx : AttemptContext}

theorem Attempting.execution (h : Attempting ctx w) {o : ExecutionOp} (ho : Steady o) :
    Attempting ctx (execution X U o w).2 := by
  refine ⟨h.runId_ne, h.executionAttemptId_ne, ?_⟩
  obtain ⟨run, hget, hstate⟩ := h.run
  rcases execution_runs (X := X) (U := U) o w with hsame | ⟨runId, expected, revision, next, t, rfl⟩
  · exact ⟨run, by rw [hsame]; exact hget, hstate⟩
  · rcases RunRepository.getById_transition w.runs runId ctx.runId expected revision next t with
      hsame | ⟨r, -, hmoved⟩
    · exact ⟨run, hsame.trans hget, hstate⟩
    · exact ⟨_, hmoved, ho⟩

theorem keeps_attempting :
    Keeps (aloneOn X U) anyCall Steady fun _ w => Attempting ctx w := by
  refine ⟨fun _ _ _ hw h => hw ▸ h, fun log w o r w' ho h hs => ⟨trivial, ?_⟩⟩
  obtain ⟨-, rfl⟩ := Prod.ext_iff.mp hs
  exact h.execution ho

/-- The run of an attempt is moved to `CONTAINED` without fail. -/
theorem transitionToContained_alone (h : Attempting ctx w) :
    (transitionToContained ctx.runId).Sat (aloneOn X U) anyCall
      (ends (fun _ w' _ => Attempting ctx w') (fun _ _ _ => False)) log w := by
  obtain ⟨run, hget, hstate⟩ := h.run
  refine bind_call_ok (a := some run) (congrArg Except.ok hget) ?_
  refine (Async.sat_ite _ _ _).mpr ⟨fun _ => h, fun hnot => ?_⟩
  have hexecuting : run.state = .executing := hstate.resolve_right hnot
  have hlegal : assertTransition run.state .contained = .ok () := by rw [hexecuting]; rfl
  have hrun : run.runId = ctx.runId := w.runs.keyed _ _ hget
  refine (Async.sat_bind _ _).mpr (bind_call_ok rfl (.bind_ofExcept (fun _ _ => ?_) ?_))
  · rcases RunRepository.transition_cases w.runs run.runId run.state run.recordRevision .contained
      w.clock with ⟨r, -, -, -, hok⟩ | ⟨hcas, -⟩
    · refine bind_call_ok (congrArg Prod.fst hok) ?_
      exact h.execution (o := .transitionRun ..) (.inr rfl)
    · exact absurd ⟨rfl, rfl⟩ (hcas run (hrun ▸ hget))
  · intro e he
    rw [hlegal] at he
    cases he

/-- A containment passes its schema but for an empty message. -/
theorem containment_ok (h : Attempting ctx w) (l : ExecuteLocals) (code : ExecutionErrorCode)
    {message : String} (hmessage : message ≠ "") (t : ℕ) :
    buildContainmentResult X (containment ctx l code message t) =
      .ok (containment ctx l code message t) := by
  refine X.parse_ok ?_
  simp [ContainmentResult.issues, containment, minOne, h.runId_ne, h.executionAttemptId_ne,
    hmessage]

/-- Containing an execution changes no local but `runContained`, and fails for an empty message
only, when the containment's schema refuses it. -/
theorem contain_alone {l : ExecuteLocals} (code : ExecutionErrorCode) (message : String)
    (h : Attempting ctx w) :
    (contain ctx code message).Sat (aloneOn X U) anyCall (fun log' w' r l' =>
      Attempting ctx w' ∧ (∃ b, l' = { l with runContained := b }) ∧
        ∀ e, r = .error e → message = "" ∧
          ∃ c e', ⟨.buildContainmentResult c, .error e'⟩ ∈ log') log w l := by
  refine .bind_lift (transitionToContained_alone h) (fun log w b h => .bind_assign ?_)
    fun _ _ _ h => h.elim
  refine .bind_read (.bind_lift (R := fun _ w r => r.isOk ∧ Attempting ctx w) (call_alone ⟨rfl, h⟩)
    (fun log w now h => ?_) fun _ _ _ h => nomatch h.1)
  refine .bind_lift (R := fun log w r => Attempting ctx w ∧ ∀ e, r = .error e → message = "" ∧
    ∃ c e', ⟨.buildContainmentResult c, .error e'⟩ ∈ log) (call_alone ?_)
    (fun log w result h => ?_) fun log w e h => ⟨h.1, ⟨b, rfl⟩, fun _ _ => h.2 e rfl⟩
  · refine ⟨h.2.execution trivial, fun e he => ⟨?_, _, e, List.mem_cons.mpr (.inl (by rw [he]))⟩⟩
    by_contra hmessage
    have hok := containment_ok (X := X) h.2 { l with runContained := b } code hmessage now
    exact nomatch hok.symm.trans he
  · have hkeeps : Keeps (aloneOn X U) anyCall Bookkeeping fun _ w => Attempting ctx w :=
      keeps_attempting.mono fun o ho => steady_of_containing o (containing_of_bookkeeping o ho)
    refine (Method.sat_lift _).mpr ((announce_keeps hkeeps _ _ h.1).mono
      fun log w r hr => ⟨hr.2, ⟨b, rfl⟩, ?_⟩)
    rintro e rfl
    exact nomatch hr.1

end Orchestrator
