import Orchestrator.Decisions.Predicates

/-!
# Decision policies

Rules that map states to actions, the check of a policy against its context, and the action that a
policy selects in a state.

* `DecisionContext`, `DecisionPolicyCandidate`: what the variables and actions are, and the rules;
* `detectDecisionRuleConflicts`, `validateDecisionPolicy`: the check;
* `selectActionForState`: the selection, and `selectRule_spec`: which rule it goes by.
-/

namespace Orchestrator.Decisions

/-! ## Contexts and policies -/

inductive QuantityUnit where
  | percent
  | ratio
  | count
  | dimensionless
  | usd
  | tokens
  | milliseconds
  deriving DecidableEq, Repr

inductive StateSourceClass where
  | currentControlPlaneTruth
  | verifiedProgramOutcome
  | verifiedPortfolioOutcome
  | observationalData
  | promotedCausalClaim
  | phase16ScenarioContext
  deriving DecidableEq, Repr

inductive MissingValuePolicy where
  | failClosed
  | noAction
  | useDefault
  deriving DecidableEq, Repr

inductive QualityRequirement where
  | validated
  | partly
  | any
  deriving DecidableEq, Repr

/-- A `DecisionStateVariable`, less its name, its description and where it comes from. -/
structure DecisionStateVariable where
  variableId : String
  unit : QuantityUnit := .count
  sourceClass : StateSourceClass := .observationalData
  freshnessRequirementMs : ℕ := 0
  qualityRequirement : QualityRequirement := .any
  allowedMin : Option ℚ := none
  allowedMax : Option ℚ := none
  missingValuePolicy : MissingValuePolicy
  defaultValue : Option DecisionValue := none
  deriving DecidableEq

/-- A `DecisionActionDefinition`, by its id. -/
structure DecisionActionDefinition where
  actionId : String
  deriving DecidableEq

/-- A `DecisionContext`, as far as policies and states are checked against it. -/
structure DecisionContext where
  decisionContextId : String
  decisionContextVersion : ℕ := 1
  contextHash : String
  projectIds : List String := []
  environmentScope : List String := []
  stateVariables : List DecisionStateVariable
  eligibleActions : List DecisionActionDefinition
  deriving DecidableEq

/-- A `DecisionRule`, less its texts and estimates. -/
structure DecisionRule where
  decisionRuleId : String
  predicate : PredicateAst
  actionId : String
  priority : ℤ
  evidenceRefs : List String := []
  promotedCausalClaimIds : List String := []
  heuristicOnly : Bool := false

/-- A `DecisionPolicyCandidate`, as far as it is checked and selected by. -/
structure DecisionPolicyCandidate where
  decisionContextId : String
  decisionContextVersion : ℕ := 1
  decisionContextHash : String
  rules : List DecisionRule
  defaultActionId : String
  sourcePromotedCausalClaimIds : List String := []

/-! ## Conflicts -/

inductive RuleConflictKind where
  | identicalPredicateDifferentAction
  | potentialRuleConflict
  deriving DecidableEq, Repr

structure DecisionRuleConflict where
  kind : RuleConflictKind
  ruleIdA : String
  ruleIdB : String
  actionIdA : String
  actionIdB : String
  requiresHumanReview : Bool := true
  notes : String
  deriving DecidableEq

/-- A variable occurs in both predicates. -/
def sharesVariable (a b : DecisionRule) : Bool :=
  (collectVariableIds a.predicate).any (collectVariableIds b.predicate).contains

/-- The conflict of two rules, if there is one. -/
def conflictBetween (a b : DecisionRule) : Option DecisionRuleConflict :=
  if predicateKey a.predicate = predicateKey b.predicate then
    if a.actionId ≠ b.actionId then
      some {
        kind := .identicalPredicateDifferentAction
        ruleIdA := a.decisionRuleId
        ruleIdB := b.decisionRuleId
        actionIdA := a.actionId
        actionIdB := b.actionId
        notes := "Identical predicates map to incompatible actions" }
    else none
  else if sharesVariable a b ∧ a.actionId ≠ b.actionId ∧ a.priority = b.priority then
    some {
      kind := .potentialRuleConflict
      ruleIdA := a.decisionRuleId
      ruleIdB := b.decisionRuleId
      actionIdA := a.actionId
      actionIdB := b.actionId
      notes :=
        "Overlapping variable scope with equal priority — human review required when material" }
  else none

/-- Every rule is compared with every later one. -/
def detectDecisionRuleConflicts : List DecisionRule → List DecisionRuleConflict
  | [] => []
  | a :: rules => rules.filterMap (conflictBetween a) ++ detectDecisionRuleConflicts rules

/-! ## Validation -/

inductive ValidationOutcome where
  | pass
  | block
  | humanApprovalRequired
  | revise
  deriving DecidableEq, Repr

structure DecisionPolicyValidationResult where
  outcome : ValidationOutcome
  issues : List String
  conflicts : List DecisionRuleConflict
  requiresHumanReview : Bool
  deriving DecidableEq

section

variable (context : DecisionContext) (policy : DecisionPolicyCandidate)

def isEligible (actionId : String) : Bool := context.eligibleActions.any (·.actionId = actionId)

/-- What is wrong with a rule. -/
def ruleIssues (rule : DecisionRule) : List String :=
  let label := "Rule " ++ rule.decisionRuleId
  (match parsePredicateAst rule.predicate with
    | .ok _ => []
    | .error message => [label ++ ": " ++ message]) ++
  (if isEligible context rule.actionId then []
    else [label ++ " action " ++ rule.actionId ++ " is not eligible"]) ++
  ((collectVars rule.predicate).filter fun v => !context.stateVariables.any (·.variableId = v)).map
    (fun v => label ++ " references unknown state variable " ++ v) ++
  (if !rule.heuristicOnly ∧ rule.evidenceRefs = [] ∧ rule.promotedCausalClaimIds = [] then
    [label ++ " lacks evidence provenance (mark heuristicOnly or attach evidence)"] else []) ++
  (rule.promotedCausalClaimIds.filter (· ∉ policy.sourcePromotedCausalClaimIds)).map
    fun claimId => label ++ " references causal claim " ++ claimId ++ " not listed on policy"

/-- What is wrong with a policy, less its conflicts. -/
def policyIssues : List String :=
  (if policy.decisionContextId ≠ context.decisionContextId then
    ["Policy decisionContextId does not match context"] else []) ++
  (if policy.decisionContextVersion ≠ context.decisionContextVersion then
    ["Policy decisionContextVersion does not match context"] else []) ++
  (if policy.decisionContextHash ≠ context.contextHash then
    ["Policy decisionContextHash does not match context"] else []) ++
  (if isEligible context policy.defaultActionId then []
    else ["Default action " ++ policy.defaultActionId ++ " is not eligible"]) ++
  (if policy.defaultActionId = "" then ["Missing default action"] else []) ++
  policy.rules.flatMap (ruleIssues context policy)

/-- `validateDecisionPolicy`. -/
def validateDecisionPolicy : DecisionPolicyValidationResult :=
  let conflicts := detectDecisionRuleConflicts policy.rules
  let hardConflicts := conflicts.filter (·.kind = .identicalPredicateDifferentAction)
  let potentialConflicts := conflicts.filter (·.kind = .potentialRuleConflict)
  let issues := policyIssues context policy ++ hardConflicts.map fun c =>
    "Hard rule conflict: " ++ c.ruleIdA ++ " vs " ++ c.ruleIdB ++ " (" ++ c.actionIdA ++ "/" ++
      c.actionIdB ++ ")"
  let requiresHumanReview := !potentialConflicts.isEmpty || policy.rules.any (·.heuristicOnly)
  if issues ≠ [] then ⟨.block, issues, conflicts, true⟩
  else if requiresHumanReview then
    ⟨.humanApprovalRequired, potentialConflicts.map (·.notes), conflicts, true⟩
  else ⟨.pass, [], conflicts, false⟩

end

/-! ## Selection -/

/-- The order of `a.localeCompare(b)`. -/
structure Collation where
  le : String → String → Bool
  total : ∀ a b, le a b ∨ le b a
  trans : ∀ a b c, le a b → le b c → le a c

variable (collation : Collation)

/-- `a.priority - b.priority || a.decisionRuleId.localeCompare(b.decisionRuleId)` is not positive. -/
def comesFirst (a b : DecisionRule) : Prop :=
  a.priority < b.priority ∨
    (a.priority = b.priority ∧ collation.le a.decisionRuleId b.decisionRuleId)

instance : DecidableRel (comesFirst collation) := fun a b =>
  inferInstanceAs (Decidable (a.priority < b.priority ∨
    (a.priority = b.priority ∧ collation.le a.decisionRuleId b.decisionRuleId)))

structure Selection where
  actionId : String
  matchedRuleId : Option String
  unsupported : Bool
  deriving DecidableEq, Repr

/-- The first rule that holds, in the order of priorities and ids. -/
def selectRule (policy : DecisionPolicyCandidate) (stateValues : DecisionStateValues) :
    Option DecisionRule :=
  (policy.rules.insertionSort (comesFirst collation)).find? fun rule =>
    evaluatePredicate stateValues rule.predicate

/-- `selectActionForState`. -/
def selectActionForState (policy : DecisionPolicyCandidate) (context : DecisionContext)
    (stateValues : DecisionStateValues) : Selection :=
  match selectRule collation policy stateValues with
  | some rule =>
    if isEligible context rule.actionId then ⟨rule.actionId, some rule.decisionRuleId, false⟩
    else ⟨policy.defaultActionId, none, true⟩
  | none => ⟨policy.defaultActionId, none, false⟩

/-! ## What passes -/

/-- The conflicts of a list of rules are those of its pairs. -/
theorem detectDecisionRuleConflicts_eq_nil {rules : List DecisionRule} :
    detectDecisionRuleConflicts rules = [] ↔
      rules.Pairwise fun a b => conflictBetween a b = none := by
  induction rules with
  | nil => simp [detectDecisionRuleConflicts]
  | cons a rules ih =>
    rw [detectDecisionRuleConflicts, List.append_eq_nil_iff, List.filterMap_eq_nil_iff, ih,
      List.pairwise_cons]

/-- A policy that passes has no conflicts. -/
theorem validateDecisionPolicy_pass {context : DecisionContext} {policy : DecisionPolicyCandidate}
    (h : (validateDecisionPolicy context policy).outcome = .pass) :
    policyIssues context policy = [] ∧ detectDecisionRuleConflicts policy.rules = [] := by
  unfold validateDecisionPolicy at h
  dsimp only at h
  split at h
  · exact nomatch h
  next hissues =>
  split at h
  · exact nomatch h
  next hreview =>
  rw [not_not, List.append_eq_nil_iff, List.map_eq_nil_iff, List.filter_eq_nil_iff] at hissues
  rw [Bool.or_eq_true, not_or, Bool.not_eq_true', Bool.not_eq_false, List.isEmpty_iff,
    List.filter_eq_nil_iff] at hreview
  refine ⟨hissues.1, List.eq_nil_iff_forall_not_mem.mpr fun c hc => ?_⟩
  -- a conflict is hard or potential
  cases hkind : c.kind with
  | identicalPredicateDifferentAction => exact hissues.2 c hc (by rw [hkind]; rfl)
  | potentialRuleConflict => exact hreview.1 c hc (by rw [hkind]; rfl)

/-! ## Which rule is selected -/

instance : Std.Total (comesFirst collation) where
  total a b := by
    unfold comesFirst
    rcases lt_trichotomy a.priority b.priority with hlt | heq | hgt
    · exact .inl (.inl hlt)
    · rcases collation.total a.decisionRuleId b.decisionRuleId with hle | hle
      · exact .inl (.inr ⟨heq, hle⟩)
      · exact .inr (.inr ⟨heq.symm, hle⟩)
    · exact .inr (.inl hgt)

instance : IsTrans DecisionRule (comesFirst collation) where
  trans a b c hab hbc := by
    unfold comesFirst at hab hbc ⊢
    rcases hab with hab | ⟨hab, hle⟩ <;> rcases hbc with hbc | ⟨hbc, hle'⟩
    · exact .inl (hab.trans hbc)
    · exact .inl (hbc ▸ hab)
    · exact .inl (hab ▸ hbc)
    · exact .inr ⟨hab.trans hbc, collation.trans _ _ _ hle hle'⟩

variable {collation} {policy : DecisionPolicyCandidate} {stateValues : DecisionStateValues}

/-- Of the rules that hold, one of the smallest priority. -/
def IsFirstToHold (policy : DecisionPolicyCandidate) (stateValues : DecisionStateValues)
    (rule : DecisionRule) : Prop :=
  rule ∈ policy.rules ∧ evaluatePredicate stateValues rule.predicate ∧
    ∀ other ∈ policy.rules, evaluatePredicate stateValues other.predicate →
      rule.priority ≤ other.priority

/-- The selected rule holds, and no rule that holds has a smaller priority. -/
theorem selectRule_spec {rule : DecisionRule}
    (h : selectRule collation policy stateValues = some rule) :
    IsFirstToHold policy stateValues rule := by
  unfold selectRule at h
  have hsorted := List.pairwise_insertionSort (comesFirst collation) policy.rules
  obtain ⟨hrule, before, after, heq, hbefore⟩ := List.find?_eq_some_iff_append.mp h
  have hmem : ∀ other, other ∈ policy.rules ↔ other ∈ before ++ rule :: after := by
    intro other
    rw [← heq, List.mem_insertionSort]
  rw [heq] at hsorted
  refine ⟨(hmem rule).mpr (by simp), hrule, fun other hother hholds => ?_⟩
  rcases List.mem_append.mp ((hmem other).mp hother) with hin | hin
  · have := hbefore other hin
    rw [hholds] at this
    exact nomatch this
  · rcases List.mem_cons.mp hin with rfl | hin
    · exact le_rfl
    · have hfirst : comesFirst collation rule other :=
        (List.pairwise_cons.mp (List.pairwise_append.mp hsorted).2.1).1 other hin
      rcases hfirst with hlt | ⟨heq, _⟩
      · exact hlt.le
      · exact heq.le

theorem selectRule_eq_none :
    selectRule collation policy stateValues = none ↔
      ∀ rule ∈ policy.rules, evaluatePredicate stateValues rule.predicate = false := by
  unfold selectRule
  rw [List.find?_eq_none]
  simp only [List.mem_insertionSort, Bool.not_eq_true]

/-! ## Samples -/

/-- A context with the variables `x` and `y` and three actions. -/
def sampleContext : DecisionContext where
  decisionContextId := "context"
  contextHash := "hash"
  stateVariables := [⟨"x", .count, .observationalData, 0, .any, none, none, .noAction, none⟩,
    ⟨"y", .count, .observationalData, 0, .any, none, none, .noAction, none⟩]
  eligibleActions := [⟨"none"⟩, ⟨"raise"⟩, ⟨"lower"⟩]

/-- A policy of rules of priority 1. -/
def samplePolicy (rules : List (String × PredicateAst × String)) : DecisionPolicyCandidate where
  decisionContextId := "context"
  decisionContextHash := "hash"
  rules := rules.map fun r =>
    { decisionRuleId := r.1, predicate := r.2.1, actionId := r.2.2, priority := 1,
      evidenceRefs := ["evidence"] }
  defaultActionId := "none"

/-- Everything comes before everything. -/
def anyOrder : Collation := ⟨fun _ _ => true, fun _ _ => .inl rfl, fun _ _ _ _ _ => rfl⟩

/-- `x` is the text `on`. -/
def isOn (variableId : String) : PredicateAst := .compare .eq variableId (.string "on")

end Orchestrator.Decisions
