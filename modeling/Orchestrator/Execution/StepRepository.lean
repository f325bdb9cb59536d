import Orchestrator.Collections.JsMap
import Orchestrator.Domain.Execution

/-!
# The step execution store

`InMemoryStepExecutionRepository`: one record for each idempotency key, and the keys of each
attempt in order.

```text
RESERVED  → side-effect boundary NOT crossed (safe to continue)
RUNNING   → side-effect boundary MAY have been crossed
SUCCEEDED | FAILED → terminal
```

That the record stored at a key carries that key is a field. Each operation has one lemma
that says which statuses it accepts and what it leaves.
-/

namespace Orchestrator

open Collections

/-- `InMemoryStepExecutionRepository`. -/
structure StepExecutionRepository where
  byKey : JsMap String StepExecutionResult
  byAttempt : JsMap String (List String)
  keyed : ∀ k r, byKey.get k = some r → r.idempotencyKey = k

/-- The input of `reserve`. -/
structure ReserveInput where
  idempotencyKey : String
  runId : String
  executionAttemptId : String
  stepId : String
  capabilityId : String
  actionType : String
  startedAt : ℕ
  deriving DecidableEq, Repr

inductive ReserveOutcome where
  | reserved (result : StepExecutionResult)
  | replay (result : StepExecutionResult)
  deriving DecidableEq, Repr

namespace StepExecutionRepository

def empty : StepExecutionRepository where
  byKey := .empty
  byAttempt := .empty
  keyed := by simp

/-- The status of the record at `k`. -/
def status (s : StepExecutionRepository) (k : String) : Option StepExecutionStatus :=
  (s.byKey.get k).map (·.status)

/-- The store with `r` at its key. -/
def put (s : StepExecutionRepository) (k : String) (r : StepExecutionResult)
    (h : r.idempotencyKey = k) : StepExecutionRepository where
  byKey := s.byKey.set k r
  byAttempt := s.byAttempt
  keyed := JsMap.forall_get_set h s.keyed

/-- The store with `k` listed under the attempt. -/
def list (s : StepExecutionRepository) (attemptId k : String) : StepExecutionRepository where
  byKey := s.byKey
  byAttempt :=
    let order := (s.byAttempt.get attemptId).getD []
    if k ∈ order then s.byAttempt else s.byAttempt.set attemptId (order ++ [k])
  keyed := s.keyed

theorem get_put (s : StepExecutionRepository) (k k' : String) (r : StepExecutionResult)
    (h : r.idempotencyKey = k) :
    (s.put k r h).byKey.get k' = if k = k' then some r else s.byKey.get k' :=
  s.byKey.get_set k k' r

@[simp] theorem get_list (s : StepExecutionRepository) (attemptId k : String) :
    (s.list attemptId k).byKey = s.byKey := rfl

/-! ## The operations -/

/-- The record that `reserve` creates. -/
def reservation (input : ReserveInput) : StepExecutionResult where
  stepId := input.stepId
  idempotencyKey := input.idempotencyKey
  capabilityId := input.capabilityId
  actionType := input.actionType
  status := .reserved
  startedAt := input.startedAt
  completedAt := none
  outputArtifactRefs := []
  outputHashes := []
  affectedTargets := []
  verificationMetadata := none
  errorCode := none
  errorMessage := none
  executionAttemptId := input.executionAttemptId
  runId := input.runId

theorem idempotencyKey_reservation (input : ReserveInput) :
    (reservation input).idempotencyKey = input.idempotencyKey := rfl

/-- The message of the error a second `reserve` of a `RUNNING` step throws. -/
def runningMessage (stepId : String) : String :=
  s!"Step {stepId} is RUNNING with uncertain side-effect state; refusing blind re-execution"

def reserve (X : External) (s : StepExecutionRepository) (input : ReserveInput) :
    Except JsError ReserveOutcome × StepExecutionRepository :=
  let k := input.idempotencyKey
  match s.byKey.get k with
  | some existing =>
    match existing.status with
    | .succeeded | .compensated => (.ok (.replay existing), s)
    | .running =>
      (.error (.execution .stepExecutionStateUnknown (runningMessage existing.stepId)), s)
    | .reserved => (.ok (.reserved existing), s)
    | .failed | .contained | .skipped =>
      (.error (.execution .executionIdempotencyConflict
        s!"Step previously ended in {existing.status.text}; refusing blind re-execution"), s)
  | none =>
    match parseStepExecutionResult X (reservation input) with
    | .error e => (.error e, s)
    | .ok _ =>
      (.ok (.reserved (reservation input)),
        (s.put k (reservation input) (idempotencyKey_reservation input)).list
          input.executionAttemptId k)

def markRunning (X : External) (s : StepExecutionRepository) (k : String) :
    Except JsError StepExecutionResult × StepExecutionRepository :=
  match h : s.byKey.get k with
  | none => (.error (.execution .stepExecutionFailed s!"Cannot markRunning: unknown key {k}"), s)
  | some existing =>
    if existing.status = .running then (.ok existing, s)
    else if existing.status ≠ .reserved then
      (.error (.execution .executionIdempotencyConflict
        s!"markRunning requires RESERVED, got {existing.status.text}"), s)
    else
      let running := existing.withStatus .running
      match parseStepExecutionResult X running with
      | .error e => (.error e, s)
      | .ok _ => (.ok running, s.put k running (s.keyed k existing h))

def getByIdempotencyKey (s : StepExecutionRepository) (k : String) : Option StepExecutionResult :=
  s.byKey.get k

def complete (X : External) (s : StepExecutionRepository) (k : String)
    (result : StepExecutionResult) : Except JsError StepExecutionResult × StepExecutionRepository :=
  match s.byKey.get k with
  | none => (.error (.execution .stepExecutionFailed s!"Cannot complete unknown key {k}"), s)
  | some existing =>
    if existing.status ≠ .running then
      (.error (.execution .executionIdempotencyConflict
        s!"complete() requires RUNNING, got {existing.status.text}"), s)
    else
      match parseStepExecutionResult X result with
      | .error e => (.error e, s)
      | .ok _ =>
        if h : result.idempotencyKey = k then
          if result.status ≠ .succeeded ∧ result.status ≠ .compensated then
            (.error (.execution .stepExecutionFailed
              s!"complete() requires SUCCEEDED/COMPENSATED, got {result.status.text}"), s)
          else (.ok result, s.put k result h)
        else
          (.error (.execution .executionIdempotencyConflict
            "Idempotency key mismatch on complete"), s)

def fail (X : External) (s : StepExecutionRepository) (k : String) (result : StepExecutionResult) :
    Except JsError StepExecutionResult × StepExecutionRepository :=
  let open? := match s.byKey.get k with
    | none => true
    | some existing => decide (existing.status = .running ∨ existing.status = .reserved)
  if !open? then
    (.error (.execution .executionIdempotencyConflict
      ("fail() requires RESERVED or RUNNING, got " ++ ((s.status k).map (·.text)).getD "")), s)
  else
    match parseStepExecutionResult X result with
    | .error e => (.error e, s)
    | .ok _ =>
      if h : result.idempotencyKey = k then (.ok result, s.put k result h)
      else (.error (.execution .executionIdempotencyConflict "Idempotency key mismatch on fail"), s)

/-- The record that `reconcileSucceeded` stores for the actuator's evidence. -/
def reconciled (k : String) (result : StepExecutionResult) : StepExecutionResult :=
  { result with status := .succeeded, idempotencyKey := k }

theorem idempotencyKey_reconciled (k : String) (result : StepExecutionResult) :
    (reconciled k result).idempotencyKey = k := rfl

def reconcileSucceeded (X : External) (s : StepExecutionRepository) (k : String)
    (result : StepExecutionResult) : Except JsError StepExecutionResult × StepExecutionRepository :=
  if s.status k ≠ some .running then
    (.error (.execution .stepExecutionStateUnknown s!"Cannot reconcile: expected RUNNING for {k}"),
      s)
  else
    match parseStepExecutionResult X (reconciled k result) with
    | .error e => (.error e, s)
    | .ok _ => (.ok (reconciled k result), s.put k (reconciled k result) (idempotencyKey_reconciled k result))

def listByExecutionAttempt (s : StepExecutionRepository) (attemptId : String) :
    List StepExecutionResult :=
  ((s.byAttempt.get attemptId).getD []).filterMap s.byKey.get

/-! ## What each operation accepts and leaves -/

variable {X : External} {s : StepExecutionRepository} {k : String}

theorem status_put (s : StepExecutionRepository) (k k' : String) (r : StepExecutionResult)
    (h : r.idempotencyKey = k) :
    (s.put k r h).status k' = if k = k' then some r.status else s.status k' := by
  rw [status, get_put]
  split <;> rfl

@[simp] theorem status_list (s : StepExecutionRepository) (attemptId k k' : String) :
    (s.list attemptId k).status k' = s.status k' := rfl

theorem status_eq_some {r : StepExecutionResult} (h : s.byKey.get k = some r) :
    s.status k = some r.status := by
  rw [status, h]
  rfl

theorem status_eq_none : s.status k = none ↔ s.byKey.get k = none := by
  rw [status, Option.map_eq_none_iff]

/-- `reserve` replays a finished step, refuses a running or a failed one, returns an existing
reservation, and otherwise makes one; only the last changes the store. -/
theorem reserve_cases (X : External) (s : StepExecutionRepository) (input : ReserveInput) :
    (∃ r, s.byKey.get input.idempotencyKey = some r ∧
      (r.status = .succeeded ∨ r.status = .compensated) ∧
      reserve X s input = (.ok (.replay r), s)) ∨
    (∃ r, s.byKey.get input.idempotencyKey = some r ∧ r.status = .running ∧
      reserve X s input =
        (.error (.execution .stepExecutionStateUnknown (runningMessage r.stepId)), s)) ∨
    (∃ r, s.byKey.get input.idempotencyKey = some r ∧ r.status = .reserved ∧
      reserve X s input = (.ok (.reserved r), s)) ∨
    (∃ r, s.byKey.get input.idempotencyKey = some r ∧
      (r.status = .failed ∨ r.status = .contained ∨ r.status = .skipped) ∧
      reserve X s input = (.error (.execution .executionIdempotencyConflict
        s!"Step previously ended in {r.status.text}; refusing blind re-execution"), s)) ∨
    (s.byKey.get input.idempotencyKey = none ∧ (reservation input).issues ≠ [] ∧
      reserve X s input = (.error (X.zodError (reservation input).issues), s)) ∨
    (s.byKey.get input.idempotencyKey = none ∧ (reservation input).issues = [] ∧
      reserve X s input = (.ok (.reserved (reservation input)),
        (s.put input.idempotencyKey (reservation input)
          (idempotencyKey_reservation input)).list input.executionAttemptId
            input.idempotencyKey)) := by
  cases hget : s.byKey.get input.idempotencyKey with
  | some r => cases hr : r.status <;> simp [reserve, hget, hr]
  | none =>
    by_cases hi : (reservation input).issues = []
    · simp [reserve, hget, parseStepExecutionResult, External.parse, hi]
    · simp [reserve, hget, parseStepExecutionResult, External.parse, hi]

/-- `markRunning` accepts a reservation, which it moves to `RUNNING`, and a step that is
already running, which it returns as it is. -/
theorem markRunning_cases (X : External) (s : StepExecutionRepository) (k : String) :
    (∃ r, s.byKey.get k = some r ∧ r.status = .running ∧ markRunning X s k = (.ok r, s)) ∨
    (∃ r h, s.byKey.get k = some r ∧ r.status = .reserved ∧ r.issues = [] ∧
      markRunning X s k = (.ok (r.withStatus .running), s.put k (r.withStatus .running) h)) ∨
    ((∀ r, s.byKey.get k = some r → r.status ≠ .running) ∧
      ∃ e, e.isStateUnknown = false ∧ markRunning X s k = (.error e, s)) := by
  rw [markRunning]
  split
  · next hget => exact .inr (.inr ⟨by simp [hget], _, rfl, rfl⟩)
  · next r hget =>
    by_cases hrun : r.status = .running
    · exact .inl ⟨r, hget, hrun, by rw [if_pos hrun]⟩
    · refine .inr ?_
      rw [if_neg hrun]
      have hnot : ∀ r', s.byKey.get k = some r' → r'.status ≠ .running := by
        intro r' hr'
        rw [hget] at hr'
        cases hr'
        exact hrun
      by_cases hres : r.status = .reserved
      · rw [if_neg (not_not.mpr hres)]
        by_cases hi : r.issues = []
        · have hp : parseStepExecutionResult X (r.withStatus .running) = .ok _ := X.parse_ok hi
          exact .inl ⟨r, s.keyed k r hget, hget, hres, hi, by simp only [hp]⟩
        · have hp : parseStepExecutionResult X (r.withStatus .running) = .error _ :=
            X.parse_error hi
          exact .inr ⟨hnot, X.zodError r.issues, rfl, by simp only [hp]; rfl⟩
      · rw [if_pos hres]
        exact .inr ⟨hnot, _, rfl, rfl⟩

/-- `complete` accepts a running step and a result that succeeded, and stores the result. -/
theorem complete_cases (X : External) (s : StepExecutionRepository) (k : String)
    (result : StepExecutionResult) :
    (∃ h, s.status k = some .running ∧ (result.status = .succeeded ∨ result.status = .compensated) ∧
      complete X s k result = (.ok result, s.put k result h)) ∨
    (∃ e, e.isStateUnknown = false ∧ complete X s k result = (.error e, s)) := by
  rw [complete]
  split
  · exact .inr ⟨_, rfl, rfl⟩
  · next r hget =>
    by_cases hrun : r.status = .running
    · rw [if_neg (not_not.mpr hrun)]
      by_cases hi : result.issues = []
      · have hp : parseStepExecutionResult X result = .ok result := X.parse_ok hi
        simp only [hp]
        by_cases hk : result.idempotencyKey = k
        · rw [dif_pos hk]
          by_cases hst : result.status = .succeeded ∨ result.status = .compensated
          · refine .inl ⟨hk, by rw [status_eq_some hget, hrun], hst, if_neg ?_⟩
            rintro ⟨h₁, h₂⟩
            exact hst.elim h₁ h₂
          · exact .inr ⟨_, rfl, if_pos (not_or.mp hst)⟩
        · exact .inr ⟨_, rfl, by rw [dif_neg hk]⟩
      · have hp : parseStepExecutionResult X result = .error _ := X.parse_error hi
        exact .inr ⟨X.zodError result.issues, rfl, by simp only [hp]⟩
    · exact .inr ⟨_, rfl, by rw [if_pos hrun]⟩

/-- `fail` accepts a step that is not finished and a result that passes its schema. -/
theorem fail_cases (X : External) (s : StepExecutionRepository) (k : String)
    (result : StepExecutionResult) :
    (∃ h, (s.status k = none ∨ s.status k = some .running ∨ s.status k = some .reserved) ∧
      result.issues = [] ∧ fail X s k result = (.ok result, s.put k result h)) ∨
    ((¬(s.status k = none ∨ s.status k = some .running ∨ s.status k = some .reserved) ∨
        result.issues ≠ [] ∨ result.idempotencyKey ≠ k) ∧
      ∃ e, e.isStateUnknown = false ∧ fail X s k result = (.error e, s)) := by
  have hopen : (match s.byKey.get k with
      | none => true
      | some existing => decide (existing.status = .running ∨ existing.status = .reserved)) = true ↔
      (s.status k = none ∨ s.status k = some .running ∨ s.status k = some .reserved) := by
    rw [status]
    cases s.byKey.get k with
    | none => simp
    | some r => simp
  rw [fail]
  by_cases ho : s.status k = none ∨ s.status k = some .running ∨ s.status k = some .reserved
  · simp only [hopen.mpr ho, Bool.not_true, Bool.false_eq_true, if_false]
    by_cases hi : result.issues = []
    · have hp : parseStepExecutionResult X result = .ok result := X.parse_ok hi
      simp only [hp]
      by_cases hk : result.idempotencyKey = k
      · exact .inl ⟨hk, ho, hi, by rw [dif_pos hk]⟩
      · exact .inr ⟨.inr (.inr hk), _, rfl, by rw [dif_neg hk]⟩
    · have hp : parseStepExecutionResult X result = .error _ := X.parse_error hi
      exact .inr ⟨.inr (.inl hi), X.zodError result.issues, rfl, by simp only [hp]⟩
  · have hclosed := Bool.eq_false_iff.mpr (mt hopen.mp ho)
    simp only [hclosed, Bool.not_false, if_true]
    exact .inr ⟨.inl ho, _, rfl, rfl⟩

/-- `reconcileSucceeded` accepts a running step, which it stores as succeeded. -/
theorem reconcileSucceeded_cases (X : External) (s : StepExecutionRepository) (k : String)
    (result : StepExecutionResult) :
    (s.status k = some .running ∧ reconcileSucceeded X s k result =
      (.ok (reconciled k result), s.put k (reconciled k result) (idempotencyKey_reconciled k result))) ∨
    (∃ e, reconcileSucceeded X s k result = (.error e, s)) := by
  rw [reconcileSucceeded]
  by_cases hrun : s.status k = some .running
  · rw [if_neg (not_not.mpr hrun)]
    cases hp : parseStepExecutionResult X (reconciled k result) with
    | ok r => exact .inl ⟨hrun, rfl⟩
    | error e => exact .inr ⟨e, rfl⟩
  · exact .inr ⟨_, by rw [if_pos hrun]⟩

end StepExecutionRepository

end Orchestrator
