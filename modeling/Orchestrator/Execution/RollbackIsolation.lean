import Orchestrator.Execution.Scenario
import Orchestrator.Execution.ServiceCalls

/-!
# Rollback decisions across runs

The limit on automatic rollbacks is meant for one execution attempt, but the count it is compared
with is a field of the service and is never reset. The decisions of the rollback gate in one call
of `execute` are therefore compared with those of the same call on a fresh service over the same
repositories: they agree exactly when no earlier call has recorded a rollback, or the call never
comes to the gate (`decisions_eq_iff`).

The two calls run in lockstep up to the first gate (`Prog.run_congr`), since nothing else reads
the count.
-/

namespace Orchestrator

open Atomic ExecutionService

/-- What the rollback gate decided in a call: the plan, the failed step and the answer. -/
def decisions (log : Log ExecutionSig) : List (ExecutionPlan × String × Except JsError RollbackPlan) :=
  log.filterMap fun
    | ⟨.assertCanRollback plan failedStepId, answer⟩ => some (plan, failedStepId, answer)
    | _ => none

/-- The same repositories under a service that has recorded no rollback. -/
def World.freshService (w : World) : World := { w with automaticRollbacks := 0 }

/-- The call is a question to the rollback gate. -/
def AsksGate : ExecutionOp → Prop
  | .assertCanRollback .. => True
  | _ => False

section Decisions

variable {X : External} {U : Surroundings} {log : Log ExecutionSig}

theorem decisions_cons_of_not_asks {o : ExecutionOp} (ho : ¬AsksGate o)
    (r : Except JsError o.Res) : decisions (⟨o, r⟩ :: log) = decisions log := by
  cases o <;> first | rfl | exact absurd trivial ho

@[simp] theorem decisions_cons_gate (plan : ExecutionPlan) (id : String)
    (r : Except JsError RollbackPlan) :
    decisions (⟨.assertCanRollback plan id, r⟩ :: log) = (plan, id, r) :: decisions log := rfl

/-- A call without decisions never asked the gate. -/
theorem not_asks_of_decisions_eq_nil (h : decisions log = []) :
    ∀ e ∈ log, ¬AsksGate e.op := by
  intro e he hask
  obtain ⟨o, r⟩ := e
  cases o with
  | assertCanRollback plan id =>
    have hmem : (plan, id, r) ∈ decisions log := List.mem_filterMap.mpr ⟨_, he, rfl⟩
    rw [h] at hmem
    exact absurd hmem List.not_mem_nil
  | _ => exact hask

/-! ## The count -/

/-- Apart from the gate, no call tells two services apart by their counts. -/
theorem execution_freshService (o : ExecutionOp) (w w' : World) (ho : ¬AsksGate o)
    (h : w.freshService = w'.freshService) :
    (execution X U o w).1 = (execution X U o w').1 ∧
      (execution X U o w).2.freshService = (execution X U o w').2.freshService := by
  have hw : w' = { w with automaticRollbacks := w'.automaticRollbacks } := by
    cases w
    cases w'
    simp only [World.freshService, World.mk.injEq] at h ⊢
    simp [h]
  rw [hw]
  cases o with
  | assertCanRollback => exact absurd trivial ho
  | beginFence key t =>
    simp only [execution, World.beginFence]
    cases w.fences.get (executionFenceKey key) with
    | none => exact ⟨rfl, rfl⟩
    | some fence =>
      simp only
      cases fence.status <;> exact ⟨rfl, rfl⟩
  | transitionFence key owner t status extras =>
    simp only [execution, World.transitionFence]
    cases w.fences.get (executionFenceKey key) with
    | none => exact ⟨rfl, rfl⟩
    | some fence =>
      simp only
      split
      · exact ⟨rfl, rfl⟩
      · split <;> exact ⟨rfl, rfl⟩
  | saveAttempt attempt =>
    simp only [execution]
    split <;> exact ⟨rfl, rfl⟩
  | _ => exact ⟨rfl, rfl⟩

/-- Only a recorded rollback changes the count, which grows. -/
theorem automaticRollbacks_execution (o : ExecutionOp) (w : World) :
    (execution X U o w).2.automaticRollbacks = w.automaticRollbacks ∨
      o = .recordAutomaticRollback ∧
        (execution X U o w).2.automaticRollbacks = w.automaticRollbacks + 1 := by
  cases o with
  | recordAutomaticRollback => exact .inr ⟨rfl, rfl⟩
  | beginFence =>
    simp only [execution, World.beginFence]
    split
    · exact .inl rfl
    · split <;> exact .inl rfl
  | transitionFence =>
    simp only [execution, World.transitionFence]
    split
    · exact .inl rfl
    · split
      · exact .inl rfl
      · split <;> exact .inl rfl
  | saveAttempt =>
    simp only [execution]
    split <;> exact .inl rfl
  | _ => exact .inl rfl

end Decisions

/-! ## Decisions of one call -/

section OneCall

variable {C : ExecutionConfig} {U : Surroundings} {w : World} {runId : String}

/-- The calls of `execute` on the in-memory implementations. -/
abbrev executeLog (C : ExecutionConfig) (U : Surroundings) (w : World) (runId : String) :
    Log ExecutionSig :=
  ((execute C runId).prog.run (execution C.external U) w []).log

/-- A service that has recorded a rollback refuses every other. -/
theorem decisions_of_pos (h : w.automaticRollbacks ≠ 0) :
    ∀ d ∈ decisions (executeLog C U w runId), d.2.2 = .error RollbackService.limitExceeded := by
  have hkeeps : Keeps (Env.alone (execution C.external U))
      (fun _ _ o r _ => ∀ d ∈ decisions [⟨o, r⟩], d.2.2 = .error RollbackService.limitExceeded)
      (fun _ => True) fun _ w => w.automaticRollbacks ≠ 0 := by
    refine ⟨fun _ _ _ hw h => hw ▸ h, fun log w o r w' _ h hs => ?_⟩
    obtain ⟨rfl, rfl⟩ := Prod.ext_iff.mp hs
    constructor
    · cases o with
      | assertCanRollback plan id =>
        intro d hd
        rw [decisions_cons_gate] at hd
        obtain rfl := List.mem_singleton.mp hd
        exact RollbackService.assertCanRollback_pos _ h plan id
      | _ => exact fun d hd => absurd hd List.not_mem_nil
    · rcases automaticRollbacks_execution o w with hsame | ⟨-, hmore⟩
      · exact hsame ▸ h
      · exact hmore ▸ Nat.succ_ne_zero _
  have hsat : (execute C runId).prog.Sat (Env.alone (execution C.external U)) _
      (fun _ w _ => w.automaticRollbacks ≠ 0) [] w := (Prog.only_true _).sat hkeeps h
  have hall := (Prog.Sat.run (G := fun _ e => ∀ d ∈ decisions [e],
    d.2.2 = .error RollbackService.limitExceeded) (Handler.meets_alone _) hsat (Log.all_nil _)).2
  have hlog : ∀ log, Log.All (fun _ e => ∀ d ∈ decisions [e],
      d.2.2 = .error RollbackService.limitExceeded) log →
      ∀ d ∈ decisions log, d.2.2 = .error RollbackService.limitExceeded := by
    intro log hall
    induction log with
    | nil => exact fun d hd => absurd hd List.not_mem_nil
    | cons e log ih =>
      intro d hd
      have hsplit : decisions (e :: log) = decisions [e] ++ decisions log :=
        (List.filterMap_append : List.filterMap _ ([e] ++ log) = _)
      rcases List.mem_append.mp (hsplit ▸ hd) with hd | hd
      · exact hall.1 d hd
      · exact ih hall.2 d hd
  exact hlog _ hall

/-- The event, if it is the first question to the gate, is answered by what the plan says. -/
def FirstByPlan (X : External) (log : Log ExecutionSig) : Event ExecutionSig → Prop
  | ⟨.assertCanRollback plan id, r⟩ =>
    decisions log = [] → r = RollbackService.authorizedRollback X plan id
  | _ => True

theorem firstByPlan_of_not_asks {X : External} {log : Log ExecutionSig} {o : ExecutionOp}
    (ho : ¬AsksGate o) (r : Except JsError o.Res) : FirstByPlan X log ⟨o, r⟩ := by
  cases o <;> first | trivial | exact absurd trivial ho

theorem not_asks_of_ungated (o : ExecutionOp) (h : Ungated o) : ¬AsksGate o := by
  cases o <;> first | exact not_false | exact absurd h not_false

/-- Up to its first decision, a fresh service has recorded no rollback. -/
def CountsAfterGate (log : Log ExecutionSig) (w : World) : Prop :=
  decisions log = [] → w.automaticRollbacks = 0

theorem authorizeRollback_first (ctx : AttemptContext) (id : String) (log : Log ExecutionSig)
    (w : World) (h : CountsAfterGate log w) :
    (authorizeRollback C ctx id).Sat (Env.alone (execution C.external U))
      (fun log _ o r _ => FirstByPlan C.external log ⟨o, r⟩)
      (fun log w _ => CountsAfterGate log w) log w := by
  -- once the gate has been asked, nothing is left to show
  have hafter : Keeps (Env.alone (execution C.external U))
      (fun log _ o r _ => FirstByPlan C.external log ⟨o, r⟩) (¬AsksGate ·)
      fun log _ => decisions log ≠ [] := by
    refine ⟨fun _ _ _ _ h => h, fun log w o r w' ho h _ => ⟨firstByPlan_of_not_asks ho r, ?_⟩⟩
    rw [decisions_cons_of_not_asks ho]
    exact h
  refine (Async.sat_bind _ _).mpr ?_
  rintro _ r w' rfl hs
  obtain ⟨hr, -⟩ := Prod.ext_iff.mp hs
  have hasked : decisions (⟨.assertCanRollback ctx.plan.plan id, r⟩ :: log) ≠ [] := by simp
  refine ⟨fun hnil => hr.trans ?_, ?_⟩
  · exact congrArg (RollbackService.assertCanRollback C.external · ctx.plan.plan id) (h hnil)
  · cases r with
    | error e => exact fun hnil => absurd hnil hasked
    | ok plan =>
      have hstart : (startRollback C ctx id plan).Only (¬AsksGate ·) := only_startRollback
        (fun o ho => not_asks_of_ungated o (ungated_of_bookkeeping o ho)) (fun _ _ => not_false)
        not_false id plan
      exact Async.Sat.bind (hstart.sat hafter hasked) (fun _ _ _ h hnil => absurd hnil h)
        fun _ _ _ h hnil => absurd hnil h

/-- A fresh service's first decision is the plan's own. -/
theorem firstByPlan_of_fresh (h : w.automaticRollbacks = 0) :
    Log.All (FirstByPlan C.external) (executeLog C U w runId) := by
  have hkeeps : Keeps (Env.alone (execution C.external U))
      (fun log _ o r _ => FirstByPlan C.external log ⟨o, r⟩) Ungated CountsAfterGate := by
    refine ⟨fun _ _ _ hw h => hw ▸ h, fun log w o r w' ho h hs => ?_⟩
    obtain ⟨rfl, rfl⟩ := Prod.ext_iff.mp hs
    have hnot := not_asks_of_ungated o ho
    refine ⟨firstByPlan_of_not_asks hnot _, fun hnil => ?_⟩
    rw [decisions_cons_of_not_asks hnot] at hnil
    rcases automaticRollbacks_execution o w with hsame | ⟨rfl, -⟩
    · exact hsame.trans (h hnil)
    · exact ho.elim
  have hsat : (execute C runId).Sat _ _ (fun log w _ => CountsAfterGate log w) [] w :=
    execute_keeps hkeeps authorizeRollback_first runId fun _ => h
  exact (Prog.Sat.run (G := FirstByPlan C.external) (Handler.meets_alone _) hsat
    (Log.all_nil _)).2

theorem exists_decision_ne_limit {X : External} {log : Log ExecutionSig}
    (hall : Log.All (FirstByPlan X) log) (hne : decisions log ≠ []) :
    ∃ d ∈ decisions log, d.2.2 ≠ .error RollbackService.limitExceeded := by
  induction log with
  | nil => exact absurd rfl hne
  | cons e log ih =>
    by_cases hask : AsksGate e.op
    · obtain ⟨o, r⟩ := e
      cases o with
      | assertCanRollback plan id =>
        by_cases hnil : decisions log = []
        · refine ⟨(plan, id, r), by simp, ?_⟩
          rw [show r = _ from hall.1 hnil]
          exact RollbackService.authorizedRollback_ne_limitExceeded X plan id
        · obtain ⟨d, hd, hlimit⟩ := ih hall.2 hnil
          exact ⟨d, List.mem_cons_of_mem _ hd, hlimit⟩
      | _ => exact hask.elim
    · have hsame : decisions (e :: log) = decisions log := decisions_cons_of_not_asks hask e.ret
      rw [hsame] at hne ⊢
      exact ih hall.2 hne

/-- Whatever the world one call starts from: its rollback decisions are those of a fresh service
exactly when no rollback has been recorded before it, or it never comes to the gate. -/
theorem decisions_eq_fresh_iff :
    decisions (executeLog C U w runId) = decisions (executeLog C U w.freshService runId) ↔
      w.automaticRollbacks = 0 ∨ decisions (executeLog C U w.freshService runId) = [] := by
  constructor
  · intro heq
    by_contra hnot
    obtain ⟨hcount, hne⟩ := not_or.mp hnot
    have hfirst : Log.All (FirstByPlan C.external) (executeLog C U w.freshService runId) :=
      firstByPlan_of_fresh rfl
    obtain ⟨d, hd, hlimit⟩ := exists_decision_ne_limit hfirst hne
    exact hlimit (decisions_of_pos hcount d (heq ▸ hd))
  · rintro (hzero | hnil)
    · have hfresh : w.freshService = w := by
        rw [World.freshService, ← hzero]
      rw [hfresh]
    · have hlock := Prog.run_congr (R := fun w w' => w.freshService = w'.freshService)
        (fun o w w' ho h => execution_freshService (X := C.external) (U := U) o w w' ho h)
        (execute C runId).prog (show w.freshService.freshService = w.freshService from rfl)
        (not_asks_of_decisions_eq_nil hnil)
      rw [executeLog, hlock.1]

end OneCall

/-! ## A sequence of calls -/

/-- The world after calls of `execute` on these runs, one after the other, on one service. -/
def executeAll (C : ExecutionConfig) (U : Surroundings) (runIds : List String) (w : World) : World :=
  runIds.foldl (fun w runId => ((execute C runId).prog.run (execution C.external U) w []).state) w

/-- In any history of calls on one service, the next call decides on rollbacks as a fresh service
would exactly when the service has recorded no rollback so far, or the call never comes to the
gate. -/
theorem decisions_eq_iff (C : ExecutionConfig) (U : Surroundings) (w : World)
    (earlier : List String) (runId : String) :
    decisions (executeLog C U (executeAll C U earlier w) runId) =
        decisions (executeLog C U (executeAll C U earlier w).freshService runId) ↔
      (executeAll C U earlier w).automaticRollbacks = 0 ∨
        decisions (executeLog C U (executeAll C U earlier w).freshService runId) = [] :=
  decisions_eq_fresh_iff

/-- Plans of a step that fails and of a compensating step that undoes it. -/
private def failingStep : Surroundings :=
  Scenario.surroundings [Scenario.patch "step_1" [] ["undo_1"], Scenario.patch "undo_1" [] []]
    ["step_1"] (Scenario.control (Scenario.patches []) 30)
    (fun id => if id = "step_1" then some (.error "disk full") else none) 1

/-- Two runs whose first step fails and is undone by the plan's own compensating step: the first
gets its rollback, the second is refused it. -/
theorem decisions_ne_after_rollback :
    decisions (executeLog Scenario.config failingStep (executeAll Scenario.config failingStep ["run_1"]
        (Scenario.world ["run_1", "run_2"])) "run_2") ≠
      decisions (executeLog Scenario.config failingStep (executeAll Scenario.config failingStep ["run_1"]
        (Scenario.world ["run_1", "run_2"])).freshService "run_2") := by
  decide +kernel

end Orchestrator
