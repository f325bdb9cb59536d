import Orchestrator.Domain.Plan
import Orchestrator.Governance.Records
import Orchestrator.Programs.World

/-!
# The evaluation of policy rules

`PlanPolicyValidator.evaluateStep`: the rules of a policy bundle against a step of a plan.

* `evaluateCondition`, `ruleApplies`, `evaluateStep`: what the validator computes; the attributes
  of a step are a plain object, with the properties that it inherits;
* `conditionOutcome`, `Applies`, `denyOverrides`: the three-valued conditions and the effect that
  the rules are meant to have;
* `deny_overrides_iff`: when a step is evaluated to that effect.
-/

namespace Orchestrator.Policy

/-! ## Rules -/

/-- `PolicyEffect`. -/
inductive PolicyEffect where
  | allow
  | deny
  | requireApproval
  deriving DecidableEq, Repr

inductive PolicyOperator where
  | eq
  | neq
  | isIn
  | notIn
  deriving DecidableEq, Repr

/-- A text, or several. -/
inductive TextOrTexts where
  | text (value : String)
  | texts (values : List String)
  deriving DecidableEq, Repr

/-- `typeof value === "string" ? [value] : [...value]`. -/
def TextOrTexts.values : TextOrTexts → List String
  | .text value => [value]
  | .texts values => values

structure PolicyCondition where
  attribute_ : String
  operator : PolicyOperator
  value : TextOrTexts
  deriving DecidableEq, Repr

structure PolicyRule where
  ruleId : String
  effect : PolicyEffect
  actionTypes : List String
  environments : List String
  conditions : List PolicyCondition
  reasonCode : String
  deriving DecidableEq, Repr

/-! ## The attributes of a step -/

inductive SensitivityClassification where
  | isPublic
  | internal
  | confidential
  | restricted
  deriving DecidableEq, Repr

def SensitivityClassification.text : SensitivityClassification → String
  | .isPublic => "PUBLIC"
  | .internal => "INTERNAL"
  | .confidential => "CONFIDENTIAL"
  | .restricted => "RESTRICTED"

/-- The level's name in the source. -/
def riskText : RiskLevel → String
  | .low => "LOW"
  | .medium => "MEDIUM"
  | .high => "HIGH"
  | .critical => "CRITICAL"

/-- The strategy's name in the source. -/
def rollbackText : RollbackStrategy → String
  | .none => "NONE"
  | .compensatingAction => "COMPENSATING_ACTION"
  | .manual => "MANUAL"

/-- What the validator reads of a step, of its plan and of the project's control context. -/
structure PolicySubject where
  stepId : String
  actionType : String
  environment : String
  executionMode : ExecutionMode
  projectId : String
  sensitivityClassification : SensitivityClassification
  riskLevel : RiskLevel
  riskCategories : List String
  rollbackStrategy : RollbackStrategy
  targetIds : List String
  objectiveId : String
  policyBundleId : String
  deriving DecidableEq, Repr

/-- The own properties of an object of attributes. -/
abbrev PolicyAttributes := List (String × TextOrTexts)

def buildStepAttributes (subject : PolicySubject) : PolicyAttributes :=
  [("stepId", .text subject.stepId),
    ("actionType", .text subject.actionType),
    ("environment", .text subject.environment),
    ("executionMode", .text subject.executionMode.text),
    ("projectId", .text subject.projectId),
    ("sensitivityClassification", .text subject.sensitivityClassification.text),
    ("riskLevel", .text (riskText subject.riskLevel)),
    ("riskCategories", .texts subject.riskCategories),
    ("rollbackStrategy", .text (rollbackText subject.rollbackStrategy)),
    ("targetIds", .texts subject.targetIds),
    ("objectiveId", .text subject.objectiveId),
    ("policyBundleId", .text subject.policyBundleId)]

/-- The properties that every plain object inherits: functions, and the prototype itself. None of
them is a string or can be iterated. -/
def inheritedNames : List String :=
  ["constructor", "__defineGetter__", "__defineSetter__", "hasOwnProperty", "__lookupGetter__",
    "__lookupSetter__", "isPrototypeOf", "propertyIsEnumerable", "toString", "valueOf",
    "__proto__", "toLocaleString"]

/-- What `attributes[name]` is. -/
inductive AttributeRead where
  | undefined
  | own (value : TextOrTexts)
  | inherited
  deriving DecidableEq, Repr

def readAttribute (attributes : PolicyAttributes) (name : String) : AttributeRead :=
  match attributes.lookup name with
  | some value => .own value
  | none => if name ∈ inheritedNames then .inherited else .undefined

/-- The `TypeError` of `[...actual]` for an attribute that cannot be iterated. -/
structure NotIterable where
  attribute_ : String
  deriving DecidableEq, Repr

/-! ## The evaluation -/

inductive PolicyConditionOutcome where
  | satisfied
  | unsatisfied
  | indeterminate
  deriving DecidableEq, Repr

/-- The comparison of a condition with the values of its attribute. -/
def compareValues (condition : PolicyCondition) (actualValues : List String) :
    PolicyConditionOutcome :=
  let intersects := actualValues.any condition.value.values.contains
  match condition.operator with
  | .eq | .isIn => if intersects then .satisfied else .unsatisfied
  | .neq | .notIn => if intersects then .unsatisfied else .satisfied

def evaluateCondition (condition : PolicyCondition) (attributes : PolicyAttributes) :
    Except NotIterable PolicyConditionOutcome :=
  match readAttribute attributes condition.attribute_ with
  | .undefined => .ok .indeterminate
  | .own value => .ok (compareValues condition value.values)
  | .inherited => .error ⟨condition.attribute_⟩

structure RuleApplication where
  applies : Bool
  indeterminate : Bool
  deriving DecidableEq, Repr

/-- The loop of `ruleApplies` over the conditions, and what follows it. -/
def conditionsLoop (effect : PolicyEffect) (attributes : PolicyAttributes) :
    List PolicyCondition → Bool → Except NotIterable RuleApplication
  | [], indeterminate =>
    if indeterminate && effect = .allow then .ok ⟨false, true⟩ else .ok ⟨true, indeterminate⟩
  | condition :: rest, indeterminate => do
    let outcome ← evaluateCondition condition attributes
    if outcome = .unsatisfied then .ok ⟨false, false⟩
    else
      let indeterminate := if outcome = .indeterminate then true else indeterminate
      conditionsLoop effect attributes rest indeterminate

/-- The rule is for the action and for the environment. -/
def ruleMatches (rule : PolicyRule) (actionType environment : String) : Bool :=
  (rule.environments.length = 0 || rule.environments.contains environment) &&
    (rule.actionTypes.length = 0 || rule.actionTypes.contains actionType)

def ruleApplies (rule : PolicyRule) (actionType environment : String)
    (attributes : PolicyAttributes) : Except NotIterable RuleApplication :=
  if !ruleMatches rule actionType environment then .ok ⟨false, false⟩
  else conditionsLoop rule.effect attributes rule.conditions false

inductive PolicyStepEffect where
  | deny
  | requireApproval
  | allow
  | noMatchingRule
  deriving DecidableEq, Repr

structure PolicyStepEvaluation where
  stepId : String
  actionType : String
  effect : PolicyStepEffect
  matchedRuleIds : List String
  reasonCodes : List String
  deriving DecidableEq, Repr

/-- The rules that apply, by their effects. -/
structure AppliedRules where
  denies : List PolicyRule
  approvals : List PolicyRule
  allows : List PolicyRule
  deriving DecidableEq, Repr

/-- A rule that applies is put with those of its effect. -/
def AppliedRules.push (applied : AppliedRules) (rule : PolicyRule) : AppliedRules :=
  match rule.effect with
  | .deny => { applied with denies := applied.denies ++ [rule] }
  | .requireApproval => { applied with approvals := applied.approvals ++ [rule] }
  | .allow => { applied with allows := applied.allows ++ [rule] }

/-- The loop of `evaluateStep` over the rules. -/
def applyRules (subject : PolicySubject) :
    AppliedRules → List PolicyRule → Except NotIterable AppliedRules
  | applied, [] => .ok applied
  | applied, rule :: rest => do
    let application ←
      ruleApplies rule subject.actionType subject.environment (buildStepAttributes subject)
    if !application.applies then applyRules subject applied rest
    else applyRules subject (applied.push rule) rest

/-- The effect of the rules that apply. -/
def AppliedRules.effect (applied : AppliedRules) : PolicyStepEffect :=
  if 0 < applied.denies.length then .deny
  else if 0 < applied.approvals.length then .requireApproval
  else if 0 < applied.allows.length then .allow
  else .noMatchingRule

def AppliedRules.matched (applied : AppliedRules) : List PolicyRule :=
  if 0 < applied.denies.length then applied.denies
  else if 0 < applied.approvals.length then applied.approvals
  else applied.allows

def evaluateStep (subject : PolicySubject) (rules : List PolicyRule) :
    Except NotIterable PolicyStepEvaluation := do
  let applied ← applyRules subject ⟨[], [], []⟩ rules
  .ok
    { stepId := subject.stepId
      actionType := subject.actionType
      effect := applied.effect
      matchedRuleIds := applied.matched.map (·.ruleId)
      reasonCodes := applied.matched.map (·.reasonCode) }

/-! ## What the rules are meant to say -/

/-- The outcome of a condition, where an attribute that the plan does not expose leaves it
indeterminate. -/
def conditionOutcome (subject : PolicySubject) (condition : PolicyCondition) :
    PolicyConditionOutcome :=
  match (buildStepAttributes subject).lookup condition.attribute_ with
  | some value => compareValues condition value.values
  | none => .indeterminate

/-- A rule of the effect `ALLOW` applies where all its conditions are satisfied, any other one
where none is unsatisfied. -/
def Applies (subject : PolicySubject) (rule : PolicyRule) : Prop :=
  ruleMatches rule subject.actionType subject.environment = true ∧
    ∀ condition ∈ rule.conditions,
      if rule.effect = .allow then conditionOutcome subject condition = .satisfied
      else conditionOutcome subject condition ≠ .unsatisfied

instance (subject : PolicySubject) (rule : PolicyRule) : Decidable (Applies subject rule) :=
  inferInstanceAs (Decidable (_ ∧ _))

/-- Some rule of an effect applies. -/
def SomeApplies (subject : PolicySubject) (rules : List PolicyRule) (effect : PolicyEffect) :
    Prop :=
  ∃ rule ∈ rules, rule.effect = effect ∧ Applies subject rule

instance (subject : PolicySubject) (rules : List PolicyRule) (effect : PolicyEffect) :
    Decidable (SomeApplies subject rules effect) := inferInstanceAs (Decidable (∃ _ ∈ _, _))

/-- Denials override requests for approval, and these permissions. -/
def denyOverrides (subject : PolicySubject) (rules : List PolicyRule) : PolicyStepEffect :=
  if SomeApplies subject rules .deny then .deny
  else if SomeApplies subject rules .requireApproval then .requireApproval
  else if SomeApplies subject rules .allow then .allow
  else .noMatchingRule

/-! ## Conditions on inherited properties -/

/-- The evaluation of a list of conditions comes to one on an inherited property: none of those
before it is unsatisfied. -/
def Stops (subject : PolicySubject) (conditions : List PolicyCondition) : Prop :=
  ∃ before condition after, conditions = before ++ condition :: after ∧
    condition.attribute_ ∈ inheritedNames ∧
    ∀ earlier ∈ before, conditionOutcome subject earlier ≠ .unsatisfied

/-- The evaluation of a rule for the action and the environment comes to such a condition. -/
def StopsAt (subject : PolicySubject) (rule : PolicyRule) : Prop :=
  ruleMatches rule subject.actionType subject.environment = true ∧
    Stops subject rule.conditions

section

variable {subject : PolicySubject} {condition : PolicyCondition}

/-- No own attribute hides an inherited property. -/
theorem lookup_inherited (subject : PolicySubject) {name : String} (h : name ∈ inheritedNames) :
    (buildStepAttributes subject).lookup name = none := by
  rw [List.lookup_eq_none_iff]
  have hnames : (buildStepAttributes subject).map Prod.fst =
      ["stepId", "actionType", "environment", "executionMode", "projectId",
        "sensitivityClassification", "riskLevel", "riskCategories", "rollbackStrategy",
        "targetIds", "objectiveId", "policyBundleId"] := rfl
  have hapart : ∀ inherited ∈ inheritedNames,
      ∀ own ∈ ["stepId", "actionType", "environment", "executionMode", "projectId",
        "sensitivityClassification", "riskLevel", "riskCategories", "rollbackStrategy",
        "targetIds", "objectiveId", "policyBundleId"], inherited ≠ own := by decide
  intro attribute_ hattribute
  have hown := List.mem_map_of_mem (f := Prod.fst) hattribute
  rw [hnames] at hown
  simpa using hapart name h attribute_.1 hown

theorem evaluateCondition_own (h : condition.attribute_ ∉ inheritedNames) :
    evaluateCondition condition (buildStepAttributes subject) =
      .ok (conditionOutcome subject condition) := by
  unfold evaluateCondition readAttribute conditionOutcome
  cases (buildStepAttributes subject).lookup condition.attribute_ with
  | some value => rfl
  | none => simp only [if_neg h]

theorem evaluateCondition_inherited (h : condition.attribute_ ∈ inheritedNames) :
    evaluateCondition condition (buildStepAttributes subject) =
      .error ⟨condition.attribute_⟩ := by
  unfold evaluateCondition readAttribute
  rw [lookup_inherited subject h]
  simp only [if_pos h]

theorem not_stops_nil : ¬Stops subject [] := by
  rintro ⟨before, condition, after, h, _⟩
  simp at h

theorem stops_cons {rest : List PolicyCondition} :
    Stops subject (condition :: rest) ↔ condition.attribute_ ∈ inheritedNames ∨
      (conditionOutcome subject condition ≠ .unsatisfied ∧ Stops subject rest) := by
  constructor
  · rintro ⟨before, stop, after, h, hstop, hbefore⟩
    cases before with
    | nil =>
      obtain ⟨rfl, rfl⟩ := List.cons.inj h
      exact Or.inl hstop
    | cons first before =>
      obtain ⟨rfl, rfl⟩ := List.cons.inj h
      refine Or.inr ⟨hbefore _ List.mem_cons_self, before, stop, after, rfl, hstop, ?_⟩
      exact fun earlier hearlier => hbefore earlier (List.mem_cons_of_mem _ hearlier)
  · rintro (hinherited | ⟨hfirst, before, stop, after, rfl, hstop, hbefore⟩)
    · exact ⟨[], condition, rest, rfl, hinherited, by simp⟩
    · refine ⟨condition :: before, stop, after, rfl, hstop, ?_⟩
      intro earlier hearlier
      rcases List.mem_cons.mp hearlier with rfl | hmem
      · exact hfirst
      · exact hbefore earlier hmem

/-! ## The loops -/

theorem conditionsLoop_stops {effect : PolicyEffect} {conditions : List PolicyCondition}
    (h : Stops subject conditions) (indeterminate : Bool) :
    ∃ e, conditionsLoop effect (buildStepAttributes subject) conditions indeterminate =
      .error e := by
  induction conditions generalizing indeterminate with
  | nil => exact absurd h not_stops_nil
  | cons condition rest ih =>
    unfold conditionsLoop
    by_cases hinherited : condition.attribute_ ∈ inheritedNames
    · rw [evaluateCondition_inherited hinherited]
      exact ⟨_, rfl⟩
    · rcases stops_cons.mp h with hstop | ⟨hfirst, hrest⟩
      · exact absurd hstop hinherited
      · rw [evaluateCondition_own hinherited]
        obtain ⟨e, he⟩ := ih hrest
          (if conditionOutcome subject condition = .indeterminate then true else indeterminate)
        refine ⟨e, ?_⟩
        simp only [bind, Except.bind, if_neg hfirst]
        exact he

/-- What the conditions of a rule come to. -/
def ConditionsHold (subject : PolicySubject) (effect : PolicyEffect)
    (conditions : List PolicyCondition) : Prop :=
  ∀ condition ∈ conditions,
    if effect = .allow then conditionOutcome subject condition = .satisfied
    else conditionOutcome subject condition ≠ .unsatisfied

theorem conditionsLoop_ok {effect : PolicyEffect} {conditions : List PolicyCondition}
    (h : ¬Stops subject conditions) (indeterminate : Bool) :
    ∃ application,
      conditionsLoop effect (buildStepAttributes subject) conditions indeterminate =
        .ok application ∧
      (application.applies = true ↔
        (effect = .allow → indeterminate = false) ∧ ConditionsHold subject effect conditions) := by
  induction conditions generalizing indeterminate with
  | nil =>
    unfold conditionsLoop ConditionsHold
    by_cases hallow : effect = .allow <;> cases indeterminate <;> simp [hallow]
  | cons condition rest ih =>
    rw [stops_cons, not_or] at h
    obtain ⟨hown, hrest⟩ := h
    unfold conditionsLoop
    rw [evaluateCondition_own hown]
    simp only [bind, Except.bind]
    by_cases hunsatisfied : conditionOutcome subject condition = .unsatisfied
    · refine ⟨⟨false, false⟩, by rw [if_pos hunsatisfied], ?_⟩
      simp only [ConditionsHold, Bool.false_eq_true, false_iff, not_and]
      intro _ hall
      have hfirst := hall condition List.mem_cons_self
      rw [hunsatisfied] at hfirst
      split at hfirst
      · exact absurd hfirst (by decide)
      · exact absurd rfl hfirst
    · rw [if_neg hunsatisfied]
      obtain ⟨application, hloop, happlies⟩ := ih (fun hstops => hrest ⟨hunsatisfied, hstops⟩)
        (if conditionOutcome subject condition = .indeterminate then true else indeterminate)
      refine ⟨application, hloop, happlies.trans ?_⟩
      simp only [ConditionsHold, List.forall_mem_cons]
      cases houtcome : conditionOutcome subject condition with
      | unsatisfied => exact absurd houtcome hunsatisfied
      | satisfied => by_cases hallow : effect = .allow <;> simp [hallow]
      | indeterminate => by_cases hallow : effect = .allow <;> simp [hallow]

end

section

variable {subject : PolicySubject} {rule : PolicyRule}

theorem ruleApplies_stops (h : StopsAt subject rule) :
    ∃ e, ruleApplies rule subject.actionType subject.environment (buildStepAttributes subject) =
      .error e := by
  unfold ruleApplies
  rw [h.1]
  exact conditionsLoop_stops h.2 false

theorem ruleApplies_ok (h : ¬StopsAt subject rule) :
    ∃ application,
      ruleApplies rule subject.actionType subject.environment (buildStepAttributes subject) =
        .ok application ∧ (application.applies = true ↔ Applies subject rule) := by
  unfold ruleApplies Applies
  cases hmatches : ruleMatches rule subject.actionType subject.environment with
  | false => exact ⟨⟨false, false⟩, rfl, by simp⟩
  | true =>
    obtain ⟨application, hloop, happlies⟩ := @conditionsLoop_ok subject rule.effect _
      (fun hstops => h ⟨hmatches, hstops⟩) false
    refine ⟨application, hloop, happlies.trans ?_⟩
    simp [ConditionsHold]

/-- The rules of an effect among those that apply. -/
def AppliedRules.of (applied : AppliedRules) : PolicyEffect → List PolicyRule
  | .deny => applied.denies
  | .requireApproval => applied.approvals
  | .allow => applied.allows

theorem mem_push {applied : AppliedRules} {r : PolicyRule} (effect : PolicyEffect) :
    r ∈ (applied.push rule).of effect ↔
      r ∈ applied.of effect ∨ (r = rule ∧ rule.effect = effect) := by
  unfold AppliedRules.push
  cases hrule : rule.effect <;> cases effect <;> simp [AppliedRules.of]

theorem applyRules_stops {rules : List PolicyRule} (h : ∃ rule ∈ rules, StopsAt subject rule)
    (applied : AppliedRules) : ∃ e, applyRules subject applied rules = .error e := by
  induction rules generalizing applied with
  | nil => simp at h
  | cons rule rest ih =>
    unfold applyRules
    by_cases hstops : StopsAt subject rule
    · obtain ⟨e, he⟩ := ruleApplies_stops hstops
      rw [he]
      exact ⟨e, rfl⟩
    · have hrest : ∃ rule ∈ rest, StopsAt subject rule := by
        obtain ⟨r, hr, hstop⟩ := h
        rcases List.mem_cons.mp hr with rfl | hmem
        · exact absurd hstop hstops
        · exact ⟨r, hmem, hstop⟩
      obtain ⟨application, hrule, _⟩ := ruleApplies_ok hstops
      rw [hrule]
      simp only [bind, Except.bind]
      split
      · exact ih hrest _
      · exact ih hrest _

theorem applyRules_ok {rules : List PolicyRule} (h : ∀ rule ∈ rules, ¬StopsAt subject rule)
    (applied : AppliedRules) :
    ∃ applied', applyRules subject applied rules = .ok applied' ∧
      ∀ effect r, r ∈ applied'.of effect ↔
        r ∈ applied.of effect ∨ (r ∈ rules ∧ r.effect = effect ∧ Applies subject r) := by
  induction rules generalizing applied with
  | nil => exact ⟨applied, rfl, by simp⟩
  | cons rule rest ih =>
    obtain ⟨application, hrule, happlies⟩ := ruleApplies_ok (h rule List.mem_cons_self)
    have hrest : ∀ r ∈ rest, ¬StopsAt subject r := fun r hr => h r (List.mem_cons_of_mem _ hr)
    unfold applyRules
    rw [hrule]
    simp only [bind, Except.bind]
    by_cases hrule : Applies subject rule
    · rw [happlies.mpr hrule]
      obtain ⟨applied', hloop, hmem⟩ := ih hrest (applied.push rule)
      refine ⟨applied', hloop, fun effect r => ?_⟩
      rw [hmem, mem_push, List.mem_cons]
      constructor
      · rintro ((hold | ⟨rfl, heffect⟩) | ⟨hr, hlater⟩)
        · exact Or.inl hold
        · exact Or.inr ⟨Or.inl rfl, heffect, hrule⟩
        · exact Or.inr ⟨Or.inr hr, hlater⟩
      · rintro (hold | ⟨rfl | hr, heffect, hr'⟩)
        · exact Or.inl (Or.inl hold)
        · exact Or.inl (Or.inr ⟨rfl, heffect⟩)
        · exact Or.inr ⟨hr, heffect, hr'⟩
    · have hfalse : application.applies = false := by
        simpa using mt happlies.mp hrule
      rw [hfalse]
      obtain ⟨applied', hloop, hmem⟩ := ih hrest applied
      refine ⟨applied', hloop, fun effect r => ?_⟩
      rw [hmem, List.mem_cons]
      refine or_congr_right ⟨fun ⟨hr, hlater⟩ => ⟨Or.inr hr, hlater⟩, ?_⟩
      rintro ⟨rfl | hr, hlater⟩
      · exact absurd hlater.2 hrule
      · exact ⟨hr, hlater⟩

end

/-! ## Deny overrides -/

section

variable {subject : PolicySubject} {rules : List PolicyRule}

theorem applied_effect_eq {applied : AppliedRules}
    (h : ∀ effect, 0 < (applied.of effect).length ↔ SomeApplies subject rules effect) :
    applied.effect = denyOverrides subject rules := by
  unfold AppliedRules.effect denyOverrides
  simp only [← h, AppliedRules.of]

/-- The rules are evaluated where no rule stops the evaluation. -/
theorem evaluateStep_ok (h : ∀ rule ∈ rules, ¬StopsAt subject rule) :
    ∃ evaluation, evaluateStep subject rules = .ok evaluation ∧
      evaluation.effect = denyOverrides subject rules := by
  obtain ⟨applied, hloop, hmem⟩ := applyRules_ok h ⟨[], [], []⟩
  unfold evaluateStep
  rw [hloop]
  refine ⟨_, rfl, applied_effect_eq fun effect => ?_⟩
  rw [List.length_pos_iff_exists_mem]
  unfold SomeApplies
  refine exists_congr fun r => ?_
  rw [hmem]
  cases effect <;> simp [AppliedRules.of]

theorem evaluateStep_stops (h : ∃ rule ∈ rules, StopsAt subject rule) :
    ∃ e, evaluateStep subject rules = .error e := by
  obtain ⟨e, he⟩ := applyRules_stops h ⟨[], [], []⟩
  unfold evaluateStep
  rw [he]
  exact ⟨e, rfl⟩

/-- What is evaluated has the effect of the rules that apply. -/
theorem evaluateStep_effect {evaluation : PolicyStepEvaluation}
    (h : evaluateStep subject rules = .ok evaluation) :
    evaluation.effect = denyOverrides subject rules := by
  by_cases hstops : ∃ rule ∈ rules, StopsAt subject rule
  · obtain ⟨e, he⟩ := evaluateStep_stops hstops
    exact nomatch h.symm.trans he
  · push Not at hstops
    obtain ⟨evaluation', hok, heffect⟩ := evaluateStep_ok hstops
    obtain rfl := Except.ok.inj (h.symm.trans hok)
    exact heffect

theorem someApplies_perm {rules' : List PolicyRule} (hperm : rules'.Perm rules)
    (effect : PolicyEffect) :
    SomeApplies subject rules' effect ↔ SomeApplies subject rules effect := by
  unfold SomeApplies
  simp only [hperm.mem_iff]

theorem denyOverrides_perm {rules' : List PolicyRule} (hperm : rules'.Perm rules) :
    denyOverrides subject rules' = denyOverrides subject rules := by
  unfold denyOverrides
  simp only [someApplies_perm hperm]

/-- An effect that a restrictive rule may turn another one into: itself, a denial, or a request
for approval in the place of anything but a denial. -/
def Restricts (effect' effect : PolicyStepEffect) : Prop :=
  effect' = effect ∨ effect' = .deny ∨ (effect' = .requireApproval ∧ effect ≠ .deny)

instance (effect' effect : PolicyStepEffect) : Decidable (Restricts effect' effect) :=
  inferInstanceAs (Decidable (_ ∨ _))

theorem someApplies_insert {before after : List PolicyRule} {rule : PolicyRule}
    (effect : PolicyEffect) :
    SomeApplies subject (before ++ rule :: after) effect ↔
      (rule.effect = effect ∧ Applies subject rule) ∨
        SomeApplies subject (before ++ after) effect := by
  have hperm : (before ++ rule :: after).Perm (rule :: (before ++ after)) :=
    List.perm_middle
  rw [someApplies_perm hperm]
  simp [SomeApplies]

/-- A restrictive rule restricts the effect, wherever it is added. -/
theorem denyOverrides_insert {before after : List PolicyRule} {rule : PolicyRule}
    (hrule : rule.effect ≠ .allow) :
    Restricts (denyOverrides subject (before ++ rule :: after))
      (denyOverrides subject (before ++ after)) := by
  have hallow : ¬(rule.effect = .allow ∧ Applies subject rule) := fun h => hrule h.1
  unfold denyOverrides
  simp only [someApplies_insert, hallow, false_or]
  by_cases hdeny : SomeApplies subject (before ++ after) .deny
  · exact Or.inl (by simp only [hdeny, or_true, if_true])
  · by_cases hdenied : rule.effect = .deny ∧ Applies subject rule
    · exact Or.inr (Or.inl (if_pos (Or.inl hdenied)))
    · simp only [hdeny, hdenied, or_self, if_false]
      by_cases hheld : rule.effect = .requireApproval ∧ Applies subject rule
      · -- a request for approval, where nothing is denied
        refine Or.inr (Or.inr ⟨if_pos (Or.inl hheld), ?_⟩)
        split
        · decide
        · split <;> decide
      · exact Or.inl (by simp only [hheld, false_or])

end

/-- A step is evaluated to the effect in which denials override, in every order of the rules, and
restrictive rules only restrict it, where no rule stops the evaluation. -/
theorem deny_overrides_iff (subject : PolicySubject) (rules : List PolicyRule) :
    ((∃ evaluation, evaluateStep subject rules = .ok evaluation ∧
        evaluation.effect = denyOverrides subject rules) ∧
      (∀ rules' : List PolicyRule, rules'.Perm rules →
        (evaluateStep subject rules').map (·.effect) =
          (evaluateStep subject rules).map (·.effect)) ∧
      ∀ before rule after evaluation', rules = before ++ after → rule.effect ≠ .allow →
        evaluateStep subject (before ++ rule :: after) = .ok evaluation' →
          Restricts evaluation'.effect (denyOverrides subject rules)) ↔
    ∀ rule ∈ rules, ¬StopsAt subject rule := by
  constructor
  · rintro ⟨⟨evaluation, hok, _⟩, _⟩ rule hrule hstops
    obtain ⟨e, he⟩ := evaluateStep_stops ⟨rule, hrule, hstops⟩
    exact nomatch hok.symm.trans he
  · intro h
    refine ⟨evaluateStep_ok h, ?_, ?_⟩
    · intro rules' hperm
      obtain ⟨evaluation, hok, heffect⟩ := evaluateStep_ok h
      obtain ⟨evaluation', hok', heffect'⟩ :=
        evaluateStep_ok fun rule hrule => h rule (hperm.mem_iff.mp hrule)
      rw [hok, hok', Except.map, Except.map, heffect, heffect', denyOverrides_perm hperm]
    · rintro before rule after evaluation' rfl hrule hok
      rw [evaluateStep_effect hok]
      exact denyOverrides_insert hrule

/-! ## A rule on an inherited property -/

/-- A step that creates a patch. -/
def patchStep : PolicySubject :=
  { stepId := "s1", actionType := "CREATE_LOCAL_PATCH", environment := "development",
    executionMode := .patchOnly, projectId := "p1", sensitivityClassification := .internal,
    riskLevel := .low, riskCategories := [], rollbackStrategy := .none, targetIds := ["a.ts"],
    objectiveId := "o1", policyBundleId := "b1" }

/-- A denial with one condition. -/
def denialOn (attribute_ : String) : PolicyRule :=
  { ruleId := "r1", effect := .deny, actionTypes := [], environments := [],
    conditions := [{ attribute_, operator := .eq, value := .text "x" }], reasonCode := "DENIED" }

/-- A condition on an attribute that the plan does not expose does not excuse the step. -/
example : (evaluateStep patchStep [denialOn "owner"]).map (·.effect) = .ok .deny := by
  decide

/-- A condition on `constructor` stops the evaluation. -/
theorem inherited_attribute_throws :
    ¬∀ (subject : PolicySubject) (rules : List PolicyRule),
      ∃ evaluation, evaluateStep subject rules = .ok evaluation ∧
        evaluation.effect = denyOverrides subject rules := by
  intro hclaim
  obtain ⟨evaluation, hok, _⟩ := hclaim patchStep [denialOn "constructor"]
  have hthrows : evaluateStep patchStep [denialOn "constructor"] = .error ⟨"constructor"⟩ := by
    decide
  exact nomatch hok.symm.trans hthrows

end Orchestrator.Policy
