import Mathlib.Tactic.Common

/-!
# Causal questions and graphs

* `CausalGraph`: variables and the edges between them;
* `CausalQuestion`, with its life cycle `CausalQuestionState.transitions`;
* `CausalUsageSnapshot`: what a question has used of its budget.
-/

namespace Orchestrator.Causal

/-! ## Graphs -/

inductive QuantityUnit where
  | usd
  | tokens
  | percent
  | ratio
  | days
  | hours
  | count
  | score
  | dimensionless
  deriving DecidableEq, Repr

def QuantityUnit.name : QuantityUnit → String
  | usd => "USD"
  | tokens => "TOKENS"
  | percent => "PERCENT"
  | ratio => "RATIO"
  | days => "DAYS"
  | hours => "HOURS"
  | count => "COUNT"
  | score => "SCORE"
  | dimensionless => "DIMENSIONLESS"

inductive CausalVariableClass where
  | intervention
  | outcome
  | confounder
  | mediator
  | moderator
  | covariate
  | latentOrUnknown
  deriving DecidableEq, Repr

structure CausalVariable where
  variableId : String
  unit : QuantityUnit
  variableClass : CausalVariableClass
  deriving DecidableEq, Repr

inductive CausalEdgeType where
  | causes
  | possiblyCauses
  | mediates
  | confounds
  | moderates
  deriving DecidableEq, Repr

def CausalEdgeType.name : CausalEdgeType → String
  | causes => "CAUSES"
  | possiblyCauses => "POSSIBLY_CAUSES"
  | mediates => "MEDIATES"
  | confounds => "CONFOUNDS"
  | moderates => "MODERATES"

inductive CausalEdgeProvenance where
  | modelProposed
  | humanProvided
  | experimentSupported
  | observationalAssociation
  | governedPrecedent
  | domainConstraint
  deriving DecidableEq, Repr

def CausalEdgeProvenance.name : CausalEdgeProvenance → String
  | modelProposed => "MODEL_PROPOSED"
  | humanProvided => "HUMAN_PROVIDED"
  | experimentSupported => "EXPERIMENT_SUPPORTED"
  | observationalAssociation => "OBSERVATIONAL_ASSOCIATION"
  | governedPrecedent => "GOVERNED_PRECEDENT"
  | domainConstraint => "DOMAIN_CONSTRAINT"

structure CausalEdge where
  edgeId : String
  fromVariableId : String
  toVariableId : String
  edgeType : CausalEdgeType
  provenance : CausalEdgeProvenance
  deriving DecidableEq, Repr

structure CausalGraph where
  causalGraphId : String
  causalGraphVersion : ℕ
  causalQuestionId : String
  nodes : List CausalVariable
  edges : List CausalEdge
  deriving DecidableEq, Repr

/-! ## Questions -/

inductive CausalQuestionState where
  | draft
  | admitted
  | graphProposed
  | identificationAnalysis
  | estimating
  | synthesizing
  | validating
  | awaitingCausalReview
  | reviewed
  | promoted
  | rejected
  | inconclusive
  | stale
  | superseded
  | cancelled
  deriving DecidableEq, Repr

namespace CausalQuestionState

def name : CausalQuestionState → String
  | draft => "DRAFT"
  | admitted => "ADMITTED"
  | graphProposed => "GRAPH_PROPOSED"
  | identificationAnalysis => "IDENTIFICATION_ANALYSIS"
  | estimating => "ESTIMATING"
  | synthesizing => "SYNTHESIZING"
  | validating => "VALIDATING"
  | awaitingCausalReview => "AWAITING_CAUSAL_REVIEW"
  | reviewed => "REVIEWED"
  | promoted => "PROMOTED"
  | rejected => "REJECTED"
  | inconclusive => "INCONCLUSIVE"
  | stale => "STALE"
  | superseded => "SUPERSEDED"
  | cancelled => "CANCELLED"

/-- `CAUSAL_QUESTION_TRANSITIONS`. -/
def transitions : CausalQuestionState → List CausalQuestionState
  | draft => [admitted, cancelled]
  | admitted => [graphProposed, stale, cancelled]
  | graphProposed => [identificationAnalysis, stale, cancelled]
  | identificationAnalysis => [estimating, inconclusive, stale, cancelled]
  | estimating => [synthesizing, inconclusive, stale, cancelled]
  | synthesizing => [validating, inconclusive, stale, cancelled]
  | validating => [awaitingCausalReview, graphProposed, inconclusive, stale, cancelled]
  | awaitingCausalReview => [reviewed, rejected, graphProposed, stale, cancelled]
  | reviewed => [promoted, rejected, stale, cancelled]
  | promoted => [stale, superseded]
  | rejected => []
  | inconclusive => []
  | stale => [graphProposed, cancelled]
  | superseded => []
  | cancelled => []

end CausalQuestionState

def canTransitionCausalQuestion (a b : CausalQuestionState) : Bool := b ∈ a.transitions

structure CausalAnalysisBudget where
  maximumGraphModelCalls : ℕ
  maximumModelTokens : ℕ
  maximumEstimators : ℕ
  maximumSynthesisOperations : ℕ
  deriving DecidableEq, Repr

structure CausalQuestion where
  causalQuestionId : String
  interventionUnit : QuantityUnit
  outcomeUnit : QuantityUnit
  budgetEnvelope : CausalAnalysisBudget
  status : CausalQuestionState
  recordRevision : ℕ
  deriving DecidableEq, Repr

structure CausalUsageSnapshot where
  graphModelCalls : ℕ
  modelTokens : ℕ
  estimators : ℕ
  synthesisOperations : ℕ
  recordRevision : ℕ
  deriving DecidableEq, Repr

/-! ## Errors -/

inductive CausalErrorCode where
  | causalQuestionNotFound
  | causalStateConflict
  | causalCasConflict
  | invalidCausalTransition
  | causalGraphInvalid
  | causalGraphCycleUnsupported
  | causalBudgetExceeded
  deriving DecidableEq, Repr

/-- A thrown `CausalError`; of its details only the graph of a cycle is kept. -/
structure CausalError where
  code : CausalErrorCode
  message : String
  causalGraphId : Option String := none
  deriving DecidableEq, Repr

end Orchestrator.Causal
