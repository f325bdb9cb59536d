import Orchestrator.Execution.Alone

/-!
# The start of an execution

What a call of `execute` has done when it comes to its loop, or when it ends before that:

* an earlier result is returned, or an error thrown, and no run has been moved (`Unmoved`);
* or the attempt is saved as `IN_PROGRESS` and the run has moved to `EXECUTING` (`Opened`), with
  the context and the compiled steps that the answers so far say (`Prepared`).

`execute_alone` is the rule that the results on whole calls start from.
-/

namespace Orchestrator

open Atomic Collections ExecutionService

/-- The results that are kept for later calls: those of the fences and those of the runs. -/
def World.Stored (w : World) (result : ExecutionResult) : Prop :=
  (∃ key, w.fenceResults.get key = some result) ∨ ∃ runId, w.resultsByRun.get runId = some result

/-- A run has been moved to `EXECUTING`. -/
def Moved (log : Log ExecutionSig) : Prop :=
  ∃ runId expected revision t r, ⟨.transitionRun runId expected revision .executing t, .ok r⟩ ∈ log

/-- The calls before the attempt is saved. -/
def Preliminary : ExecutionOp → Prop
  | .transitionRun .. => False
  | .saveAttempt _ => False
  | .storeFenceResult .. => False
  | .createLedger .. => False
  | .buildContainmentResult _ => False
  | .parseExecutionResult _ => False
  | .resolveControl .. => True
  | o => Administrative o

/-- The calls up to the loop: those before the attempt is saved, and those of its opening. -/
def Opening : ExecutionOp → Prop
  | .transitionRun .. => True
  | .saveAttempt _ => True
  | o => Preliminary o

theorem preliminary_of_bookkeeping (o : ExecutionOp) (h : Bookkeeping o) : Preliminary o := by
  cases o <;> trivial

theorem opening_of_preliminary (o : ExecutionOp) (h : Preliminary o) : Opening o := by
  cases o <;> trivial

/-- The context and the compiled steps of an attempt are what the answers in the log say. -/
structure Prepared (C : ExecutionConfig) (runId : String) (log : Log ExecutionSig)
    (ctx : AttemptContext) (compiled : List CompiledExecutionStep) : Prop where
  runId_eq : ctx.runId = runId
  ready : ∃ ready, ⟨.requireReady runId, .ok ready⟩ ∈ log ∧ ctx.plan = ready.plan
  control : ∃ projectId environment,
    ⟨.resolveControl projectId environment, .ok ctx.control⟩ ∈ log
  compile : DryRunCompiler.compile C.external C.grammar ctx.plan.plan
    (capabilityIdsByAction ctx.control.availableCapabilities) = .ok compiled

/-- The state of a call that has not opened an attempt: `w₀` is the world it started from. -/
structure Early (w₀ : World) (log : Log ExecutionSig) (w : World) : Prop where
  told : Told log
  calls : ∀ e ∈ log, Preliminary e.op
  stored : ∀ r, w.Stored r → w₀.Stored r

/-- The state of a call between the saving of its attempt and the move of its run. -/
structure Saved (w₀ : World) (attempt : ExecutionAttempt) (log : Log ExecutionSig) (w : World) :
    Prop where
  told : Told log
  calls : ∀ e ∈ log, Preliminary e.op ∨ e.op = .saveAttempt attempt
  inProgress : attempt.status = .inProgress
  issues : attempt.issues = []
  attempt : w.attempts.get attempt.executionAttemptId = some attempt
  stored : ∀ r, w.Stored r → w₀.Stored r

/-- The state of a call that ends without having moved a run. -/
structure Unmoved (w₀ : World) (log : Log ExecutionSig) (w : World) : Prop where
  told : Told log
  not_moved : ¬Moved log
  stored : ∀ r, w.Stored r → w₀.Stored r

/-- The state of a call that comes to its loop. -/
structure Opened (w₀ : World) (ctx : AttemptContext) (log : Log ExecutionSig) (w : World) :
    Prop where
  attempting : Attempting ctx w
  told : Told log
  calls : ∀ e ∈ log, Opening e.op
  saved : ∀ a r, ⟨.saveAttempt a, r⟩ ∈ log → a = ctx.attempt
  attempt : w.attempts.get ctx.executionAttemptId = some ctx.attempt
  inProgress : ctx.attempt.status = .inProgress
  issues : ctx.attempt.issues = []
  moved : Moved log
  stored : ∀ r, w.Stored r → w₀.Stored r

/-! ## Stored results -/

section Stored

variable {X : External} {U : Surroundings} {w : World}

/-- Only two calls store a result. -/
theorem stored_execution {o : ExecutionOp} {r : ExecutionResult}
    (h : (execution X U o w).2.Stored r) :
    w.Stored r ∨ (∃ key, o = .storeFenceResult key r) ∨ ∃ runId, o = .cacheResult runId r := by
  cases o with
  | storeFenceResult key r' =>
    rcases h with ⟨k, h⟩ | h
    · rw [execution, JsMap.get_set] at h
      split at h
      · cases h
        exact .inr (.inl ⟨key, rfl⟩)
      · exact .inl (.inl ⟨k, h⟩)
    · exact .inl (.inr h)
  | cacheResult runId r' =>
    rcases h with h | ⟨k, h⟩
    · exact .inl (.inl h)
    · rw [execution, JsMap.get_set] at h
      split at h
      · cases h
        exact .inr (.inr ⟨runId, rfl⟩)
      · exact .inl (.inr ⟨k, h⟩)
  | beginFence =>
    simp only [execution, World.beginFence] at h
    split at h
    · exact .inl h
    · split at h <;> exact .inl h
  | transitionFence =>
    simp only [execution, World.transitionFence] at h
    split at h
    · exact .inl h
    · split at h
      · exact .inl h
      · split at h <;> exact .inl h
  | saveAttempt =>
    simp only [execution] at h
    split at h <;> exact .inl h
  | _ => exact .inl h

end Stored

section Early

variable {C : ExecutionConfig} {U : Surroundings} {w₀ w : World} {log : Log ExecutionSig}

theorem Early.call {X : External} (h : Early w₀ log w) {o : ExecutionOp} (ho : Preliminary o)
    (hstores : ∀ runId r, o = .cacheResult runId r → w₀.Stored r) :
    Early w₀ (⟨o, (execution X U o w).1⟩ :: log) (execution X U o w).2 where
  told := List.forall_mem_cons.mpr ⟨storeAnswer_execution o w, h.told⟩
  calls := List.forall_mem_cons.mpr ⟨ho, h.calls⟩
  stored r hr := by
    rcases stored_execution hr with hr | ⟨key, rfl⟩ | ⟨runId, rfl⟩
    · exact h.stored r hr
    · exact ho.elim
    · exact hstores runId r rfl

/-- The calls before an attempt that do not store a result. -/
def Looking (o : ExecutionOp) : Prop := Preliminary o ∧ ∀ runId r, o ≠ .cacheResult runId r

theorem looking_of_bookkeeping (o : ExecutionOp) (h : Bookkeeping o) : Looking o := by
  refine ⟨preliminary_of_bookkeeping o h, ?_⟩
  rintro runId r rfl
  exact h

theorem keeps_early {X : External} :
    Keeps (aloneOn X U) anyCall Looking fun log w => Early w₀ log w := by
  refine ⟨fun _ _ _ hw h => hw ▸ h, fun log w o r w' ho h hs => ⟨trivial, ?_⟩⟩
  obtain ⟨rfl, rfl⟩ := Prod.ext_iff.mp hs
  exact h.call ho.1 fun runId r heq => absurd heq (ho.2 runId r)

theorem call_early {X : External} (o : ExecutionOp) (ho : Looking o) (h : Early w₀ log w) :
    (call o).Sat (aloneOn X U) anyCall (fun log w _ => Early w₀ log w) log w :=
  (only_call ho).sat keeps_early h

theorem Early.unmoved (h : Early w₀ log w) : Unmoved w₀ log w :=
  ⟨h.told, fun ⟨_, _, _, _, _, hmem⟩ => h.calls _ hmem, h.stored⟩

/-! ## Earlier results -/

/-- What the parts that look for an earlier result establish. -/
def Found (w₀ : World) {α : Type} (result : α → Option ExecutionResult) (log : Log ExecutionSig)
    (w : World) (out : Except JsError α) : Prop :=
  Early w₀ log w ∧ ∀ a r, out = .ok a → result a = some r → w₀.Stored r

theorem Found.of_error {α : Type} {result : α → Option ExecutionResult} {e : JsError}
    (h : Early w₀ log w) : Found w₀ result log w (.error e) :=
  ⟨h, fun _ _ ha => nomatch ha⟩

theorem priorResult_found {X : External} (runId : String) (stored : Option ExecutionResult)
    (hstored : ∀ r, stored = some r → w₀.Stored r) (h : Early w₀ log w) :
    (priorResult runId stored).Sat (aloneOn X U) anyCall (Found w₀ id) log w := by
  cases stored with
  | some prior =>
    have hprior := hstored prior rfl
    refine bind_call_ok (a := ()) rfl ⟨h.call (o := .cacheResult ..) trivial ?_, ?_⟩
    · rintro _ _ ⟨⟩
      exact hprior
    · rintro _ r ⟨⟩ ⟨⟩
      exact hprior
  | none =>
    refine call_alone ⟨h.call (o := .cachedResult _) trivial nofun, ?_⟩
    rintro _ r ⟨⟩ hr
    exact h.stored r (.inr ⟨runId, hr⟩)

/-- The result stored for a fence is asked for and returned. -/
theorem getFenceResult_found {X : External} (runId : String) (key : ExecutionFenceKey)
    (h : Early w₀ log w) :
    ((call (.getFenceResult key)).bind (priorResult runId)).Sat (aloneOn X U) anyCall
      (Found w₀ id) log w := by
  refine bind_call_ok rfl (priorResult_found runId _ (fun r hr => ?_)
    (h.call (o := .getFenceResult key) trivial nofun))
  exact h.stored r (.inl ⟨_, hr⟩)

theorem replayFinished_found {X : External} (run : RunRecord) (runId : String)
    (h : Early w₀ log w) :
    (replayFinished run runId).Sat (aloneOn X U) anyCall (Found w₀ id) log w := by
  have hnone : ∀ {log w}, Early w₀ log w → Found w₀ id log w (.ok none) :=
    fun h => ⟨h, fun _ _ ha hr => by cases ha; cases hr⟩
  refine Async.Sat.bind (call_early (.getPlan runId) ⟨trivial, nofun⟩ h) (fun log w plan h => ?_) fun _ _ _ h => .of_error h
  refine Async.Sat.bind (call_early (.getLatestAuthorization runId) ⟨trivial, nofun⟩ h) (fun log w authorization h => ?_)
    fun _ _ _ h => .of_error h
  cases plan with
  | none => exact hnone h
  | some plan =>
    cases authorization with
    | none => exact hnone h
    | some authorization =>
      refine Async.Sat.bind (call_early (.getFence _) ⟨trivial, nofun⟩ h) (fun log w fence h => ?_)
        fun _ _ _ h => .of_error h
      generalize fence.map (·.status) = status
      rcases status with _ | status
      · exact hnone h
      · cases status with
        | inProgress => exact (Async.sat_ite _ _ _).mpr ⟨fun _ => .of_error h, fun _ => hnone h⟩
        | notStarted => exact hnone h
        | _ => exact getFenceResult_found runId _ h

/-- The earlier result that a call returns instead of owning its fence. -/
def earlierResult : Begun → Option ExecutionResult
  | .replay result => some result
  | .started .. => none

/-- What `beginExecution` establishes. -/
def BeganOrFound (w₀ : World) (key : ExecutionFenceKey) (t : ℕ) (log : Log ExecutionSig)
    (w : World) (out : Except JsError Begun) : Prop :=
  Found w₀ earlierResult log w out ∧ ∀ fence owner, out = .ok (.started fence owner) →
    ⟨.beginFence key t, .ok (.started fence owner)⟩ ∈ log

theorem BeganOrFound.of_error {key : ExecutionFenceKey} {t : ℕ} {e : JsError}
    (h : Early w₀ log w) : BeganOrFound w₀ key t log w (.error e) :=
  ⟨.of_error h, fun _ _ ha => nomatch ha⟩

theorem BeganOrFound.of_replay {key : ExecutionFenceKey} {t : ℕ} {r : ExecutionResult}
    (h : Early w₀ log w) (hr : w₀.Stored r) : BeganOrFound w₀ key t log w (.ok (.replay r)) := by
  refine ⟨⟨h, ?_⟩, fun _ _ ha => nomatch ha⟩
  rintro _ _ ⟨⟩ ⟨⟩
  exact hr

/-- A fence that is finished already answers with a stored result. -/
theorem stored_of_alreadyCompleted {key : ExecutionFenceKey} {t : ℕ} {fence : ExecutionFence}
    {result : Option ExecutionResult} (h : (w.beginFence key t).1 = .alreadyCompleted fence result)
    {r : ExecutionResult} (hr : result = some r) : w.Stored r := by
  rw [World.beginFence] at h
  split at h
  · cases h
  · split at h <;> cases h <;> exact .inl ⟨_, hr⟩

/-- The earlier result of a finished fence is returned. -/
theorem replayPrior_found {X : External} {key : ExecutionFenceKey} {t : ℕ} (runId : String)
    (stored : Option ExecutionResult) (hstored : ∀ r, stored = some r → w₀.Stored r)
    (h : Early w₀ log w) :
    ((priorResult runId stored).bind fun prior =>
      match prior with
      | some prior => Async.pure (Begun.replay prior)
      | none => Async.throw (.execution .executionAlreadyCompleted
          "Execution fence is terminal but result is missing")).Sat (aloneOn X U) anyCall
      (BeganOrFound w₀ key t) log w := by
  refine Async.Sat.bind (priorResult_found runId stored hstored h) (fun log w prior h => ?_)
    fun _ _ _ h => .of_error h.1
  cases prior with
  | none => exact .of_error h.1
  | some prior => exact .of_replay h.1 (h.2 _ prior rfl rfl)

/-- The fence is begun in this call, or stands for an earlier result. -/
theorem beginExecution_found {X : External} (runId : String) (key : ExecutionFenceKey) (t : ℕ)
    (h : Early w₀ log w) :
    (beginExecution runId key t).Sat (aloneOn X U) anyCall (BeganOrFound w₀ key t) log w := by
  refine Async.Sat.bind (R := fun log w out => Early w₀ log w ∧ ∀ begun, out = .ok begun →
    (∀ fence result r, begun = .alreadyCompleted fence result → result = some r → w₀.Stored r) ∧
    ⟨.beginFence key t, .ok begun⟩ ∈ log) (call_alone ⟨?_, ?_⟩) (fun log w begun h => ?_)
    fun _ _ _ h => .of_error h.1
  · exact h.call (o := .beginFence key t) trivial nofun
  · rintro _ ⟨⟩
    exact ⟨fun fence result r hbegun hr => h.stored r (stored_of_alreadyCompleted hbegun hr),
      List.mem_cons_self⟩
  obtain ⟨h, hbegun⟩ := h
  obtain ⟨hstored, hmem⟩ := hbegun begun rfl
  cases begun with
  | started fence owner =>
    refine ⟨⟨h, ?_⟩, ?_⟩
    · rintro _ r ⟨⟩ hr
      cases hr
    · rintro _ _ ⟨⟩
      exact hmem
  | inProgress fence => exact .of_error h
  | alreadyCompleted fence result =>
    cases result with
    | some result =>
      exact replayPrior_found runId (some result) (fun r hr => hstored _ _ r rfl hr) h
    | none =>
      refine Async.Sat.bind (R := fun log w out => Early w₀ log w ∧
        ∀ stored, out = .ok stored → ∀ r, stored = some r → w₀.Stored r) (call_alone ⟨?_, ?_⟩)
        (fun log w stored h => replayPrior_found runId stored (h.2 stored rfl) h.1)
        fun _ _ _ h => .of_error h.1
      · exact h.call (o := .getFenceResult key) trivial nofun
      · rintro stored hstored r hr
        cases hstored
        exact h.stored r (.inl ⟨_, hr⟩)

/-! ## The attempt -/

theorem execution_attempts {X : External} {o : ExecutionOp} (ho : ∀ a, o ≠ .saveAttempt a)
    (w : World) : (execution X U o w).2.attempts = w.attempts := by
  cases o with
  | saveAttempt a => exact absurd rfl (ho a)
  | beginFence =>
    simp only [execution, World.beginFence]
    split
    · rfl
    · split <;> rfl
  | transitionFence =>
    simp only [execution, World.transitionFence]
    split
    · rfl
    · split
      · rfl
      · split <;> rfl
  | _ => rfl

/-- The preflight, the control context and the dry run. -/
theorem checkAuthority_early (runId : String) (ready : Readiness) (h : Early w₀ log w) :
    (checkAuthority C runId ready).Sat (aloneOn C.external U) anyCall (ends
      (fun log w checked => Early w₀ log w ∧ (∃ projectId environment,
          ⟨.resolveControl projectId environment, .ok checked.1⟩ ∈ log) ∧
        DryRunCompiler.compile C.external C.grammar ready.plan.plan
          (capabilityIdsByAction checked.1.availableCapabilities) = .ok checked.2)
      (fun log w _ => Early w₀ log w)) log w := by
  have hrun : ∀ {log w}, Early w₀ log w → ∀ runId error,
      (requireRun runId error).Sat (aloneOn C.external U) anyCall (fun log w _ => Early w₀ log w)
        log w := by
    intro log w h runId error
    refine Async.Sat.bind (call_early (.getRun runId) ⟨trivial, nofun⟩ h) (fun log w run h => ?_)
      fun _ _ _ h => h
    cases run <;> exact h
  refine Async.Sat.bind (call_early (.assertFresh ..) ⟨trivial, nofun⟩ h) (fun log w _ h => ?_)
    fun _ _ _ h => h
  refine Async.Sat.bind (hrun h _ _) (fun log w run h => ?_) fun _ _ _ h => h
  refine Async.Sat.bind (hrun h _ _) (fun log w run' h => ?_) fun _ _ _ h => h
  refine Async.Sat.bind (call_sat keeps_early (.resolveControl ..) ⟨trivial, nofun⟩ h)
    (fun log w control h => ?_) fun _ _ _ h => h.1
  exact .bind_ofExcept (fun compiled hcompile => ⟨h.1, ⟨_, _, h.2⟩, hcompile⟩) fun _ _ => h.1

/-- The attempt is saved, in progress. -/
theorem openAttempt_saved (runId : String) (ready : Readiness) (control : ProjectControlContext)
    (attemptNumber t : ℕ) (h : Early w₀ log w) :
    (openAttempt C runId ready control attemptNumber t).Sat (aloneOn C.external U) anyCall (ends
      (fun log w attempt => Saved w₀ attempt log w ∧ attempt.runId = runId)
      (fun log w _ => Unmoved w₀ log w)) log w := by
  refine Async.Sat.bind (call_early .nextExecutionAttemptId ⟨trivial, nofun⟩ h) (fun log w attemptId h => ?_)
    fun _ _ _ h => h.unmoved
  refine Async.Sat.bind ((only_throwIf (C := Looking) _ _).sat keeps_early h) (fun log w _ h => ?_)
    fun _ _ _ h => h.unmoved
  refine Async.Sat.bind ((only_throwIf (C := Looking) _ _).sat keeps_early h) (fun log w _ h => ?_)
    fun _ _ _ h => h.unmoved
  refine Async.Sat.bind (call_early .nextAuthoritySnapshotId ⟨trivial, nofun⟩ h) (fun log w snapshotId h => ?_)
    fun _ _ _ h => h.unmoved
  refine .bind_ofExcept (fun snapshot _ => ?_) fun _ _ => h.unmoved
  refine Async.Sat.bind (call_early (.saveSnapshot ..) ⟨trivial, nofun⟩ h) (fun log w _ h => ?_) fun _ _ _ h => h.unmoved
  refine .bind_ofExcept (fun attempt hattempt => ?_) fun _ _ => h.unmoved
  obtain ⟨rfl, hissues⟩ := C.external.of_parse hattempt
  have hparse := C.external.parse_ok hissues
  refine bind_call_ok (congrArg Prod.fst (show execution C.external U (.saveAttempt _) w = _ by
    rw [execution, parseExecutionAttempt, hparse])) ⟨⟨?_, ?_, rfl, hissues, ?_, ?_⟩, rfl⟩
  · exact List.forall_mem_cons.mpr ⟨trivial, h.told⟩
  · exact List.forall_mem_cons.mpr ⟨.inr rfl, fun e he => .inl (h.calls e he)⟩
  · rw [execution, parseExecutionAttempt, hparse]
    exact JsMap.get_set_self _ _ _
  · intro r hr
    rcases stored_execution hr with hr | ⟨key, heq⟩ | ⟨runId, heq⟩
    · exact h.stored r hr
    · cases heq
    · cases heq

theorem Saved.call {X : External} {attempt : ExecutionAttempt} (h : Saved w₀ attempt log w)
    {o : ExecutionOp} (ho : Bookkeeping o) :
    Saved w₀ attempt (⟨o, (execution X U o w).1⟩ :: log) (execution X U o w).2 := by
  have hattempts := execution_attempts (X := X) (U := U) (o := o)
    (by rintro a rfl; exact ho) w
  refine ⟨List.forall_mem_cons.mpr ⟨storeAnswer_execution o w, h.told⟩,
    List.forall_mem_cons.mpr ⟨.inl (preliminary_of_bookkeeping o ho), h.calls⟩, h.inProgress,
    h.issues, hattempts ▸ h.attempt, fun r hr => ?_⟩
  rcases stored_execution hr with hr | ⟨key, rfl⟩ | ⟨runId, rfl⟩
  · exact h.stored r hr
  · exact ho.elim
  · exact ho.elim

theorem keeps_saved {X : External} {attempt : ExecutionAttempt} :
    Keeps (aloneOn X U) anyCall Bookkeeping fun log w => Saved w₀ attempt log w := by
  refine ⟨fun _ _ _ hw h => hw ▸ h, fun log w o r w' ho h hs => ⟨trivial, ?_⟩⟩
  obtain ⟨rfl, rfl⟩ := Prod.ext_iff.mp hs
  exact h.call ho

theorem Saved.unmoved {attempt : ExecutionAttempt} (h : Saved w₀ attempt log w) :
    Unmoved w₀ log w := by
  refine ⟨h.told, fun ⟨_, _, _, _, _, hmem⟩ => ?_, h.stored⟩
  rcases h.calls _ hmem with hop | hop
  · exact hop
  · cases hop

/-- The ids that the attempt's schema has checked. -/
theorem Saved.ids_ne {attempt : ExecutionAttempt} (h : Saved w₀ attempt log w) :
    attempt.runId ≠ "" ∧ attempt.executionAttemptId ≠ "" := by
  have hissues := h.issues
  simp only [ExecutionAttempt.issues, List.append_eq_nil_iff, minOne] at hissues
  refine ⟨fun hid => ?_, fun hid => ?_⟩ <;> simp [hid] at hissues

/-- The move of the run to `EXECUTING`, or what an error leaves. -/
theorem moveRun_opened {X : External} {ctx : AttemptContext} {run : RunRecord} (t : ℕ)
    (hid : ctx.attempt.runId = ctx.runId) (hrun : w.runs.getById ctx.runId = some run)
    (h : Saved w₀ ctx.attempt log w) :
    ((call (.transitionRun run.runId run.state run.recordRevision .executing t)).bind fun _ =>
      (Async.pure () : Exec Unit)).Sat (aloneOn X U) anyCall
      (ends (fun log w _ => Opened w₀ ctx log w) (fun log w _ => Unmoved w₀ log w)) log w := by
  have hkey : run.runId = ctx.runId := w.runs.keyed _ _ hrun
  have hids := h.ids_ne
  have hcalls : ∀ e ∈ log, Opening e.op := fun e he => (h.calls e he).elim
    (opening_of_preliminary _) fun hop => hop ▸ trivial
  obtain ⟨r, hget, -, -, hmove⟩ | ⟨hcas, -⟩ := RunRepository.transition_cases w.runs run.runId
    run.state run.recordRevision .executing t
  · have hr : r.runId = ctx.runId := (w.runs.keyed _ _ hget).trans hkey
    have hmoved : (execution X U (.transitionRun run.runId run.state run.recordRevision .executing t)
        w).2.runs.getById ctx.runId = some (RunRepository.moved r .executing t) := by
      rw [execution, hmove, RunRepository.getById, ← hr]
      exact JsMap.get_set_self _ _ _
    refine bind_call_ok (congrArg Prod.fst hmove) ⟨⟨hid ▸ hids.1, hids.2, _, hmoved, .inl rfl⟩, ?_,
      ?_, ?_, h.attempt, h.inProgress, h.issues, ⟨_, _, _, _, _, List.mem_cons_self⟩, ?_⟩
    · exact List.forall_mem_cons.mpr ⟨trivial, h.told⟩
    · exact List.forall_mem_cons.mpr ⟨trivial, hcalls⟩
    · intro a r' ha
      rcases List.mem_cons.mp ha with heq | ha
      · cases heq
      · rcases h.calls _ ha with hop | hop
        · exact hop.elim
        · exact ExecutionOp.saveAttempt.inj hop
    · exact fun r' hr' => h.stored r' hr'
  · exact absurd ⟨rfl, rfl⟩ (hcas run (hkey ▸ hrun))

theorem startRun_opened (ctx : AttemptContext) {X : External} (planHash : String)
    (hid : ctx.attempt.runId = ctx.runId) (h : Saved w₀ ctx.attempt log w) :
    (startRun ctx.runId ctx.attempt planHash).Sat (aloneOn X U) anyCall
      (ends (fun log w _ => Opened w₀ ctx log w) (fun log w _ => Unmoved w₀ log w)) log w := by
  refine Async.Sat.bind ((only_appendEvent _ _).sat keeps_saved h) (fun log w _ h => ?_)
    fun _ _ _ h => h.unmoved
  refine Async.Sat.bind (R := fun log w out => Saved w₀ ctx.attempt log w ∧
    ∀ run, out = .ok run → w.runs.getById ctx.runId = some run) ?_ (fun log w run h => ?_)
    fun _ _ _ h => h.1.unmoved
  · refine Async.Sat.bind (R := fun log w out => Saved w₀ ctx.attempt log w ∧
      ∀ run, out = .ok run → w.runs.getById ctx.runId = run) (call_alone ⟨?_, ?_⟩)
      (fun log w run h => ?_) fun _ _ _ h => ⟨h.1, nofun⟩
    · exact h.call (o := .getRun _) trivial
    · rintro _ ⟨⟩
      rfl
    · cases run with
      | none => exact ⟨h.1, nofun⟩
      | some run =>
        refine ⟨h.1, ?_⟩
        rintro _ ⟨⟩
        exact h.2 _ rfl
  obtain ⟨h, hrun⟩ := h
  refine .bind_ofExcept (fun _ _ => ?_) fun _ _ => h.unmoved
  refine bind_call_ok rfl (.bind_ofExcept (fun _ _ => moveRun_opened _ hid (hrun run rfl) ?_)
    fun _ _ => ?_)
  · exact h.call (X := X) (U := U) (o := .nowIso) trivial
  · exact (h.call (X := X) (U := U) (o := .nowIso) trivial).unmoved

/-- The part of `execute` before its loop. -/
theorem prepare_opened (runId : String) (ready : Readiness) (attemptNumber t : ℕ)
    (hready : ⟨.requireReady runId, .ok ready⟩ ∈ log) (h : Early w₀ log w) :
    (prepare C runId ready attemptNumber t).Sat (aloneOn C.external U) anyCall (ends
      (fun log w prepared => Opened w₀ prepared.1 log w ∧
        Prepared C runId log prepared.1 prepared.2)
      (fun log w _ => Unmoved w₀ log w)) log w := by
  refine Async.Sat.bind ((checkAuthority_early runId ready h).mem hready)
    (fun log w checked h => ?_) fun _ _ _ h => h.1.unmoved
  obtain ⟨⟨h, ⟨projectId, environment, hcontrol⟩, hcompile⟩, hready⟩ := h
  refine Async.Sat.bind (((openAttempt_saved runId ready checked.1 attemptNumber t h).mem
    hready).mem hcontrol) (fun log w attempt h => ?_) fun _ _ _ h => h.1.1
  obtain ⟨⟨⟨h, hid⟩, hready⟩, hcontrol⟩ := h
  let ctx : AttemptContext :=
    { runId := runId
      plan := ready.plan
      authorizationRecordId := ready.authorizationRecord.authorizationRecordId
      attempt := attempt
      control := checked.1
      capabilityIdsByAction := capabilityIdsByAction checked.1.availableCapabilities
      expectedCapabilityFingerprint := ready.capabilitySetFingerprint }
  refine Async.Sat.bind (((startRun_opened ctx ready.plan.planHash hid h).mem
    hready).mem hcontrol) (fun log w _ h => ?_) fun _ _ _ h => h.1.1
  obtain ⟨⟨h, hready⟩, hcontrol⟩ := h
  exact ⟨h, rfl, ⟨ready, hready, rfl⟩, ⟨projectId, environment, hcontrol⟩, hcompile⟩

/-! ## Whole calls -/

/-- The two calls with which `execute` fails its fence before it throws. -/
def Closing : ExecutionOp → Prop
  | .nowIso => True
  | .transitionFence .. => True
  | _ => False

/-- What a whole call establishes: before its loop by `hreturn` and `hthrow`, from its loop on by
`hrun`. An error passes through the two calls that fail the fence. -/
theorem execute_alone {K : Log ExecutionSig → World → ExecutionResult → Prop}
    {F : Log ExecutionSig → World → Prop} (runId : String)
    (hclose : Keeps (aloneOn C.external U) anyCall Closing F)
    (hreturn : ∀ log w r, Unmoved w₀ log w → w₀.Stored r → K log w r)
    (hthrow : ∀ log w, Unmoved w₀ log w → F log w)
    (hrun : ∀ ctx compiled key owner log w, Opened w₀ ctx log w →
      Prepared C runId log ctx compiled →
      (∃ t fence, ⟨.beginFence key t, .ok (.started fence owner)⟩ ∈ log) →
      (runAttempt C ctx compiled key owner).Sat (aloneOn C.external U) anyCall
        (ends K fun log w _ => F log w) log w) :
    (execute C runId).Sat (aloneOn C.external U) anyCall (ends K fun log w _ => F log w) [] w₀ := by
  have hstored : ∀ {log w r}, Early w₀ log w → w₀.Stored r →
      K log w r :=
    fun h hr => hreturn _ _ _ h.unmoved hr
  have howned : ∀ ready key fence owner t {log w}, Early w₀ log w →
      ⟨.requireReady runId, .ok ready⟩ ∈ log →
      ⟨.beginFence key t, .ok (.started fence owner)⟩ ∈ log →
      (executeOwned C runId ready key fence owner t).Sat (aloneOn C.external U) anyCall
        (ends K fun log w _ => F log w) log w := by
    intro ready key fence owner t log w h hready hbegun
    refine (Async.sat_tryCatch _ _).mpr (Async.Sat.mono (Q := ends K fun log w _ => F log w) ?_
      fun log w r h => ?_)
    · refine Async.Sat.bind ((prepare_opened runId ready _ _ hready h).mem hbegun)
        (fun log w prepared h => ?_) fun log w e h => hthrow log w h.1
      exact hrun _ _ key owner log w h.1.1 h.1.2 ⟨t, fence, h.2⟩
    · cases r with
      | ok result => exact h
      | error e =>
        exact Async.Sat.bind ((only_call (C := Closing) (o := .nowIso) trivial).sat hclose h)
          (fun log w now h => Async.Sat.bind ((only_call (C := Closing)
            (o := .transitionFence ..) trivial).sat hclose h) (fun _ _ _ h => h) fun _ _ _ h => h)
          fun _ _ _ h => h
  have hready : ∀ {log w}, Early w₀ log w → (executeReady C runId).Sat (aloneOn C.external U)
      anyCall (ends K fun log w _ => F log w) log w := by
    intro log w h
    refine Async.Sat.bind (call_sat keeps_early (.requireReady runId) ⟨trivial, nofun⟩ h)
      (fun log w ready h => ?_) fun _ _ _ h => hthrow _ _ h.1.unmoved
    refine Async.Sat.bind ((call_early .nowIso ⟨trivial, nofun⟩ h.1).mem h.2)
      (fun log w t h => ?_) fun _ _ _ h => hthrow _ _ h.1.unmoved
    refine Async.Sat.bind ((beginExecution_found runId _ t h.1).mem h.2) (fun log w begun h => ?_)
      fun _ _ _ h => hthrow _ _ h.1.1.1.unmoved
    obtain ⟨⟨⟨h, hfound⟩, hbegun⟩, hready⟩ := h
    cases begun with
    | replay result => exact hstored h (hfound _ result rfl rfl)
    | started fence owner => exact howned ready _ fence owner t h hready (hbegun fence owner rfl)
  have hprior : ∀ prior : Option ExecutionResult, (∀ r, prior = some r → w₀.Stored r) →
      ∀ {log w}, Early w₀ log w →
      (match prior with
        | some result => Async.pure result
        | none => executeReady C runId : Exec ExecutionResult).Sat (aloneOn C.external U) anyCall
          (ends K fun log w _ => F log w) log w := by
    intro prior hprior log w h
    cases prior with
    | some result => exact hstored h (hprior result rfl)
    | none => exact hready h
  have hnil : Early w₀ [] w₀ := ⟨by simp [Told], by simp, fun _ h => h⟩
  refine Async.Sat.bind (R := fun log w _ => Early w₀ log w) ?_ (fun log w run h => ?_)
    fun _ _ _ h => hthrow _ _ h.unmoved
  · refine Async.Sat.bind (call_early (.getRun runId) ⟨trivial, nofun⟩ hnil)
      (fun log w run h => ?_) fun _ _ _ h => h
    cases run <;> exact h
  refine (Async.sat_ite _ _ _).mpr ⟨fun _ => ?_, fun _ => hprior none nofun h⟩
  exact Async.Sat.bind (replayFinished_found run runId h)
    (fun log w prior h => hprior prior (fun r hr => h.2 _ r rfl hr) h.1)
    fun _ _ _ h => hthrow _ _ h.1.unmoved

end Early

end Orchestrator
