import Mathlib.Tactic

/-!
# Errors

The error codes of the execution service, the values its code may throw, and what a list of
computations that may throw comes to.
-/

namespace Orchestrator

instance lawfulTexts : LawfulBEq (List Char) := inferInstance

/-- `EXECUTION_ERROR_CODES`. -/
inductive ExecutionErrorCode where
  | executionNotReady
  | executionInProgress
  | executionBindingStale
  | executionRepositoryStale
  | executionPolicyChanged
  | executionCapabilityChanged
  | executionModeDenied
  | executionTargetInvalid
  | executionTargetProtected
  | executionArgumentInvalid
  | executionResourceBudgetExceeded
  | stepExecutionInProgress
  | stepExecutionFailed
  | stepExecutionStateUnknown
  | executionIdempotencyConflict
  | rollbackNotAuthorized
  | rollbackLimitExceeded
  | rollbackFailed
  | executionContained
  | executionArtifactFailed
  | executionUnsupportedAction
  | executionPreconditionFailed
  | executionFenceFailed
  | executionNotFound
  | executionAlreadyCompleted
  | executionTargetMissing
  | executionConflict
  | executionDryRunFailed
  deriving DecidableEq, Repr

/-- What the code may throw: an `ExecutionError`, another `Error` (a `PlanningError`, a
`ZodError`, a failed run transition, ...), or a value that is no `Error` at all. -/
inductive JsError where
  | execution (code : ExecutionErrorCode) (message : String)
  | error (message : String)
  | nonError
  deriving DecidableEq, Repr

namespace JsError

/-- `isExecutionError(error) ? error.code : fallback`. -/
def codeOr (e : JsError) (fallback : ExecutionErrorCode) : ExecutionErrorCode :=
  match e with
  | .execution code _ => code
  | _ => fallback

/-- `error instanceof Error ? error.message : fallback`. -/
def messageOr (e : JsError) (fallback : String) : String :=
  match e with
  | .execution _ message => message
  | .error message => message
  | .nonError => fallback

/-- `isExecutionError(error) && error.code === "STEP_EXECUTION_STATE_UNKNOWN"`. -/
def isStateUnknown (e : JsError) : Bool :=
  match e with
  | .execution .stepExecutionStateUnknown _ => true
  | _ => false

@[simp] theorem isStateUnknown_execution (code : ExecutionErrorCode) (m : String) :
    (JsError.execution code m).isStateUnknown = decide (code = .stepExecutionStateUnknown) := by
  cases code <;> rfl

@[simp] theorem isStateUnknown_error (m : String) : (JsError.error m).isStateUnknown = false := rfl

@[simp] theorem isStateUnknown_nonError : JsError.nonError.isStateUnknown = false := rfl

/-- Only a `STEP_EXECUTION_STATE_UNKNOWN` error has that code, whatever the fallback. -/
theorem codeOr_eq_stateUnknown {e : JsError} {fallback : ExecutionErrorCode}
    (hf : fallback ≠ .stepExecutionStateUnknown) :
    e.codeOr fallback = .stepExecutionStateUnknown ↔ e.isStateUnknown = true := by
  cases e with
  | execution code m => simp [codeOr]
  | error m => simp [codeOr, hf]
  | nonError => simp [codeOr, hf]

end JsError

/-- A list is mapped without an exception exactly when each of its elements is. -/
theorem mapM_ok {ε α β : Type} {f : α → Except ε β} {as : List α} {bs : List β} :
    as.mapM f = .ok bs ↔ List.Forall₂ (fun a b => f a = .ok b) as bs := by
  induction as generalizing bs with
  | nil =>
    rw [List.mapM_nil, List.forall₂_nil_left_iff]
    exact ⟨fun h => (Except.ok.inj h).symm, fun h => congrArg _ h.symm⟩
  | cons a as ih =>
    rw [List.mapM_cons, List.forall₂_cons_left_iff]
    cases ha : f a with
    | error e =>
      refine ⟨fun h => (nomatch h), ?_⟩
      rintro ⟨b, bs', hb, -, -⟩
      cases hb
    | ok b =>
      cases has : as.mapM f with
      | error e =>
        refine ⟨fun h => (nomatch h), ?_⟩
        rintro ⟨b', bs', -, hrest, -⟩
        cases has.symm.trans (ih.mpr hrest)
      | ok bs' =>
        constructor
        · rintro ⟨⟩
          exact ⟨b, bs', rfl, ih.mp has, rfl⟩
        · rintro ⟨b', bs'', hb, hrest, rfl⟩
          cases hb
          cases has.symm.trans (ih.mpr hrest)
          rfl

/-- Every value of a list that was mapped comes from one of its elements. -/
theorem mapM_mem {ε α β : Type} {f : α → Except ε β} {as : List α} {bs : List β}
    (h : as.mapM f = .ok bs) {b : β} (hb : b ∈ bs) : ∃ a ∈ as, f a = .ok b := by
  induction mapM_ok.mp h with
  | nil => cases hb
  | cons hab _ ih =>
    rcases List.mem_cons.mp hb with rfl | hb
    · exact ⟨_, List.mem_cons_self, hab⟩
    · obtain ⟨a, ha, hfa⟩ := ih (mapM_ok.mpr ‹_›) hb
      exact ⟨a, List.mem_cons_of_mem _ ha, hfa⟩

/-- The length of a JavaScript string: its UTF-16 code units. -/
def jsLength (s : String) : ℕ := (s.toList.map fun c => if c.val < 0x10000 then 1 else 2).sum

end Orchestrator
