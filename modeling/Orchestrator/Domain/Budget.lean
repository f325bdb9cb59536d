import Orchestrator.Domain.Schema
import Mathlib.Algebra.Order.Field.Rat
import Mathlib.Algebra.Order.Pi
import Mathlib.Data.Fintype.Pi

/-!
# Budgets

An estimate of resources is a number for each budget dimension, so that sums, differences and the
order of estimates are those of functions.

* `BudgetDimension`, `BudgetResourceEstimate`, with the checks of its schema;
* `addBudget`, `subtractBudget`, `canReserve`, `exceedsCeiling`, `sumNodeBudgets`: the operations,
  each with what it is on functions.
-/

namespace Orchestrator

open Collections

/-- `BUDGET_DIMENSIONS`. -/
inductive BudgetDimension where
  | llmCalls
  | totalTokens
  | apiCalls
  | executionMinutes
  | estimatedCost
  | humanReviewMinutes
  | planSteps
  | parallelWorkstreams
  | revisionAttempts
  deriving DecidableEq, Repr

namespace BudgetDimension

/-- The dimensions in the order of `BUDGET_DIMENSIONS`. -/
def all : List BudgetDimension :=
  [llmCalls, totalTokens, apiCalls, executionMinutes, estimatedCost, humanReviewMinutes, planSteps,
    parallelWorkstreams, revisionAttempts]

theorem mem_all (d : BudgetDimension) : d ∈ all := by
  cases d <;> decide

instance : Fintype BudgetDimension := ⟨⟨all, by decide⟩, mem_all⟩

/-- The dimension's name in the source. -/
def text : BudgetDimension → String
  | llmCalls => "llmCalls"
  | totalTokens => "totalTokens"
  | apiCalls => "apiCalls"
  | executionMinutes => "executionMinutes"
  | estimatedCost => "estimatedCost"
  | humanReviewMinutes => "humanReviewMinutes"
  | planSteps => "planSteps"
  | parallelWorkstreams => "parallelWorkstreams"
  | revisionAttempts => "revisionAttempts"

/-- The dimensions that are counted in whole numbers. -/
def isWhole : BudgetDimension → Bool
  | planSteps | parallelWorkstreams | revisionAttempts => true
  | _ => false

end BudgetDimension

/-- `BudgetResourceEstimate`: the units of each dimension. -/
abbrev BudgetResourceEstimate := BudgetDimension → ℚ

/-- The paths at which `BudgetResourceEstimateSchema` rejects an estimate. -/
def BudgetResourceEstimate.issues (path : String) (b : BudgetResourceEstimate) : List String :=
  (BudgetDimension.all.filter fun d => b d < 0 ∨ (d.isWhole ∧ (b d).den ≠ 1)).map fun d =>
    path ++ "." ++ d.text

def BudgetResourceEstimate.json (b : BudgetResourceEstimate) : Json :=
  .object (BudgetDimension.all.map fun d => (d.text, Json.ofText (b d)))

def emptyBudgetEstimate : BudgetResourceEstimate := fun _ => 0

def addBudget (a b : BudgetResourceEstimate) : BudgetResourceEstimate := fun d => a d + b d

def subtractBudget (a b : BudgetResourceEstimate) : BudgetResourceEstimate := fun d => a d - b d

def canReserve (available request : BudgetResourceEstimate) : Bool :=
  BudgetDimension.all.all fun d => !decide (available d < request d)

def sumNodeBudgets (amounts : List BudgetResourceEstimate) : BudgetResourceEstimate :=
  amounts.foldl addBudget emptyBudgetEstimate

def exceedsCeiling (total ceiling : BudgetResourceEstimate) : Bool :=
  BudgetDimension.all.any fun d => decide (ceiling d < total d)

/-! ## As functions -/

theorem emptyBudgetEstimate_eq : emptyBudgetEstimate = 0 := rfl

theorem addBudget_eq (a b : BudgetResourceEstimate) : addBudget a b = a + b := rfl

theorem subtractBudget_eq (a b : BudgetResourceEstimate) : subtractBudget a b = a - b := rfl

theorem canReserve_iff {available request : BudgetResourceEstimate} :
    canReserve available request = true ↔ request ≤ available := by
  rw [canReserve, List.all_eq_true]
  constructor
  · intro h d
    simpa using h d d.mem_all
  · intro h d _
    simpa using h d

theorem exceedsCeiling_iff {total ceiling : BudgetResourceEstimate} :
    exceedsCeiling total ceiling = true ↔ ¬total ≤ ceiling := by
  rw [exceedsCeiling, List.any_eq_true, Pi.le_def, not_forall]
  constructor
  · rintro ⟨d, -, hd⟩
    exact ⟨d, by simpa using hd⟩
  · rintro ⟨d, hd⟩
    exact ⟨d, d.mem_all, by simpa using hd⟩

theorem sumNodeBudgets_eq (amounts : List BudgetResourceEstimate) :
    sumNodeBudgets amounts = amounts.sum := by
  have hfold : ∀ (bs : List BudgetResourceEstimate) (a : BudgetResourceEstimate),
      bs.foldl addBudget a = a + bs.sum := by
    intro bs
    induction bs with
    | nil => exact fun a => (add_zero a).symm
    | cons b bs ih =>
      intro a
      rw [List.foldl_cons, ih, List.sum_cons, addBudget_eq, add_assoc]
  rw [sumNodeBudgets, hfold, emptyBudgetEstimate_eq, zero_add]

/-- An estimate that its schema accepts is nowhere negative. -/
theorem BudgetResourceEstimate.nonneg_of_issues {path : String} {b : BudgetResourceEstimate}
    (h : b.issues path = []) : 0 ≤ b := by
  intro d
  rw [issues, List.map_eq_nil_iff, List.filter_eq_nil_iff] at h
  have hd := h d d.mem_all
  simp only [decide_eq_true_eq, not_or, not_lt] at hd
  exact hd.1

end Orchestrator
