import Orchestrator.Decisions.Policies

/-!
# Missing values

What a rule makes of a variable that has no value. Most comparisons fail there, but NEQ holds, and
NOT turns every one around.

* `unsafeVars`: the variables of a predicate that are read, where they have no value, in its favour;
* `evaluatePredicate_mono`: a value for another variable does not make the predicate fail;
* `missing_state_inert_iff`: when missing values trigger no rule.
-/

namespace Orchestrator.Decisions

variable {context : DecisionContext} {policy : DecisionPolicyCandidate} {collation : Collation}
  {values filled : DecisionStateValues}

/-! ## Filling in -/

/-- The value is not outside the allowed range, if it is a number. -/
def DecisionStateVariable.isAdmissible (v : DecisionStateVariable) : DecisionValue → Bool
  | .number n => n ≠ .nan && v.allowedMin.all (isAtLeast n) && v.allowedMax.all (isAtMost n)
  | _ => true
where
  /-- Not `n < bound`. -/
  isAtLeast (n : Numbers.JsNumber) (bound : ℚ) : Bool :=
    match n with
    | .infinity negative => !negative
    | n => (finiteValue n).all fun x => bound ≤ x
  /-- Not `n > bound`. -/
  isAtMost (n : Numbers.JsNumber) (bound : ℚ) : Bool :=
    match n with
    | .infinity negative => negative
    | n => (finiteValue n).all fun x => x ≤ bound

/-- Some absent variables with the policy NO_ACTION get admissible values. -/
def Fills (context : DecisionContext) (values filled : DecisionStateValues) : Prop :=
  ∀ x, filled x = values x ∨ values x = none ∧ ∃ v ∈ context.stateVariables,
    v.variableId = x ∧ v.missingValuePolicy = .noAction ∧
      ∃ value, filled x = some value ∧ v.isAdmissible value

/-! ## Polarity -/

mutual

/-- The variables that are compared by NEQ where the predicate counts for (`positive`), and by
another comparison where it counts against. -/
def unsafeVars (positive : Bool) : PredicateAst → List String
  | .compare op variableId _ => if (op = .neq) = positive then [variableId] else []
  | .isIn variableId _ => if positive then [] else [variableId]
  | .between variableId _ _ => if positive then [] else [variableId]
  | .and children => allUnsafeVars positive children
  | .or children => allUnsafeVars positive children
  | .not child => unsafeVars (!positive) child

def allUnsafeVars (positive : Bool) : List PredicateAst → List String
  | [] => []
  | child :: children => unsafeVars positive child ++ allUnsafeVars positive children

end

/-- What holds before holds after, or the other way round. -/
def Carries (positive before after : Bool) : Prop :=
  if positive then before → after else after → before

theorem carries_refl (positive b : Bool) : Carries positive b b := by
  unfold Carries
  split <;> exact id

theorem Carries.not {positive a b : Bool} (h : Carries (!positive) a b) :
    Carries positive (!a) (!b) := by
  cases positive <;> cases a <;> cases b <;> simp_all [Carries]

theorem Carries.and {positive a a' b b' : Bool} (h : Carries positive a a')
    (h' : Carries positive b b') : Carries positive (a && b) (a' && b') := by
  cases positive <;> cases a <;> cases b <;> simp_all [Carries]

theorem Carries.or {positive a a' b b' : Bool} (h : Carries positive a a')
    (h' : Carries positive b b') : Carries positive (a || b) (a' || b') := by
  cases positive <;> cases a <;> cases a' <;> simp_all [Carries]

/-- `filled` differs from `values` only in variables that have no value there, and not in these. -/
def FillsOutside (unsafeIds : List String) (values filled : DecisionStateValues) : Prop :=
  ∀ x, filled x = values x ∨ values x = none ∧ x ∉ unsafeIds

/-- What fails of a missing value counts for the predicate only where it gets one. -/
theorem carries_of_missing (positive : Bool) {x : String} {a : DecisionStateValues → Bool}
    (hx : ∀ values values' : DecisionStateValues, values x = values' x → a values = a values')
    (hmissing : ∀ values : DecisionStateValues, values x = none → a values = !positive)
    (h : filled x = values x ∨ values x = none) : Carries positive (a values) (a filled) := by
  rcases h with heq | hnone
  · rw [hx filled values heq]
    exact carries_refl positive _
  · rw [hmissing values hnone]
    cases positive
    · exact fun _ => rfl
    · exact fun h => nomatch h

/-- A comparison other than NEQ fails of a missing value, and NEQ holds. -/
theorem holds_missing (op : CompareOp) {x : String} (value : DecisionValue) (h : values x = none) :
    op.holds values x value = decide (op = .neq) := by
  have hread : readNumber values x = none := by rw [readNumber, h]; rfl
  cases op with
  | eq => simp [CompareOp.holds, h]
  | neq => simp [CompareOp.holds, h]
  | _ => simp [CompareOp.holds, hread, comparesNumber]

theorem holds_congr (op : CompareOp) {x : String} (value : DecisionValue)
    {values values' : DecisionStateValues} (h : values x = values' x) :
    op.holds values x value = op.holds values' x value := by
  cases op <;> simp [CompareOp.holds, readNumber, h]

mutual

/-- Where variables that are not read in its favour get values, a predicate that holds goes on
holding (and one that counts against goes on failing). -/
theorem evaluatePredicate_carries (positive : Bool) : (p : PredicateAst) →
    FillsOutside (unsafeVars positive p) values filled →
      Carries positive (evaluatePredicate values p) (evaluatePredicate filled p)
  | .compare op x value, h => by
    by_cases hop : (op = .neq) = positive
    · have heq : filled x = values x := by
        refine (h x).resolve_right fun hx => hx.2 ?_
        rw [unsafeVars, if_pos hop]
        exact List.mem_singleton_self x
      rw [evaluatePredicate, evaluatePredicate, holds_congr op value heq]
      exact carries_refl positive _
    · rw [evaluatePredicate, evaluatePredicate]
      refine carries_of_missing positive (a := fun values => op.holds values x value)
        (fun _ _ => holds_congr op value) (fun values hnone => ?_) ((h x).imp_right And.left)
      rw [holds_missing op value hnone]
      cases positive <;> simp_all
  | .isIn x constants, h => by
    cases positive with
    | false =>
      have heq : filled x = values x := (h x).resolve_right fun hx => hx.2 (by simp [unsafeVars])
      rw [evaluatePredicate, evaluatePredicate, heq]
      exact carries_refl _ _
    | true =>
      rw [evaluatePredicate, evaluatePredicate]
      refine carries_of_missing true (x := x)
        (a := fun values => constants.any fun c => (values x).any (·.strictEquals c))
        (fun _ _ heq => by simp only [heq]) (fun _ hnone => by simp [hnone])
        ((h x).imp_right And.left)
  | .between x min max, h => by
    cases positive with
    | false =>
      have heq : filled x = values x := (h x).resolve_right fun hx => hx.2 (by simp [unsafeVars])
      rw [evaluatePredicate, evaluatePredicate, readNumber, readNumber, heq]
      exact carries_refl _ _
    | true =>
      rw [evaluatePredicate, evaluatePredicate]
      refine carries_of_missing true (x := x)
        (a := fun values => isBetween (readNumber values x) min max)
        (fun _ _ heq => by simp only [readNumber, heq])
        (fun _ hnone => by simp [readNumber, hnone, isBetween, comparesNumber])
        ((h x).imp_right And.left)
  | .and children, h => everyHolds_carries positive children h
  | .or children, h => someHolds_carries positive children h
  | .not child, h => (evaluatePredicate_carries (!positive) child h).not

theorem everyHolds_carries (positive : Bool) : (ps : List PredicateAst) →
    FillsOutside (allUnsafeVars positive ps) values filled →
      Carries positive (everyHolds values ps) (everyHolds filled ps)
  | [], _ => carries_refl _ _
  | p :: ps, h => by
    refine (evaluatePredicate_carries positive p ?_).and (everyHolds_carries positive ps ?_)
    · exact fun x => (h x).imp_right (And.imp_right fun hx hp => hx (List.mem_append_left _ hp))
    · exact fun x => (h x).imp_right (And.imp_right fun hx hp => hx (List.mem_append_right _ hp))

theorem someHolds_carries (positive : Bool) : (ps : List PredicateAst) →
    FillsOutside (allUnsafeVars positive ps) values filled →
      Carries positive (someHolds values ps) (someHolds filled ps)
  | [], _ => carries_refl _ _
  | p :: ps, h => by
    refine (evaluatePredicate_carries positive p ?_).or (someHolds_carries positive ps ?_)
    · exact fun x => (h x).imp_right (And.imp_right fun hx hp => hx (List.mem_append_left _ hp))
    · exact fun x => (h x).imp_right (And.imp_right fun hx hp => hx (List.mem_append_right _ hp))

end

/-- A predicate that holds goes on holding where other variables than its unsafe ones get values. -/
theorem evaluatePredicate_mono {p : PredicateAst} (h : FillsOutside (unsafeVars true p) values filled)
    (hp : evaluatePredicate values p) : evaluatePredicate filled p :=
  evaluatePredicate_carries true p h hp

/-! ## Missing values and rules -/

/-- Where other values for absent variables would make the predicate of the selected rule fail, the
default action is selected. -/
def MissingStateInert (collation : Collation) (context : DecisionContext)
    (policy : DecisionPolicyCandidate) (values : DecisionStateValues) : Prop :=
  ∀ rule, selectRule collation policy values = some rule →
    ∀ filled, Fills context values filled → evaluatePredicate filled rule.predicate = false →
      (selectActionForState collation policy context values).actionId = policy.defaultActionId

/-- The predicate goes on holding whatever values those absent variables get that it reads in its
favour. -/
def HoldsWithoutFavour (context : DecisionContext) (values : DecisionStateValues)
    (p : PredicateAst) : Prop :=
  ∀ filled, Fills context values filled → (∀ x, x ∉ unsafeVars true p → filled x = values x) →
    evaluatePredicate filled p

/-- The values of the unsafe variables only. -/
def restrictTo (unsafeIds : List String) (values filled : DecisionStateValues) :
    DecisionStateValues :=
  fun x => if x ∈ unsafeIds then filled x else values x

/-- A predicate that goes on holding without favour does not depend on absent variables. -/
theorem HoldsWithoutFavour.holds {p : PredicateAst} (h : HoldsWithoutFavour context values p)
    (hfills : Fills context values filled) : evaluatePredicate filled p := by
  have hunsafe : evaluatePredicate (restrictTo (unsafeVars true p) values filled) p := by
    refine h _ (fun x => ?_) fun x hx => by rw [restrictTo, if_neg hx]
    unfold restrictTo
    split
    · exact hfills x
    · exact .inl rfl
  refine evaluatePredicate_mono (fun x => ?_) hunsafe
  unfold restrictTo
  split
  · exact .inl rfl
  · next hx => exact (hfills x).imp_right fun hmissing => ⟨hmissing.1, hx⟩

/-- The first rule that holds, in the order of priorities and ids. -/
def FirstInOrder (collation : Collation) (policy : DecisionPolicyCandidate)
    (values : DecisionStateValues) (rule : DecisionRule) : Prop :=
  ∃ before after, policy.rules.insertionSort (comesFirst collation) = before ++ rule :: after ∧
    (∀ other ∈ before, evaluatePredicate values other.predicate = false) ∧
    evaluatePredicate values rule.predicate

theorem selectRule_eq_some {rule : DecisionRule} :
    selectRule collation policy values = some rule ↔ FirstInOrder collation policy values rule := by
  unfold selectRule FirstInOrder
  rw [List.find?_eq_some_iff_append]
  constructor
  · rintro ⟨hholds, before, after, heq, hbefore⟩
    exact ⟨before, after, heq, fun other ho => by simpa using hbefore other ho, hholds⟩
  · rintro ⟨before, after, heq, hbefore, hholds⟩
    exact ⟨hholds, before, after, heq, fun other ho => by simpa using hbefore other ho⟩

/-- Missing values trigger no rule if and only if the first rule that holds, where its action is
eligible and not the default one, goes on holding whatever values those absent variables get that it
reads in its favour: by NEQ under an even number of NOTs, or by another comparison under an odd one.
In particular they trigger none where no rule reads an absent variable so. -/
theorem missing_state_inert_iff (collation : Collation) (context : DecisionContext)
    (policy : DecisionPolicyCandidate) (values : DecisionStateValues) :
    (MissingStateInert collation context policy values ↔
      ∀ rule, FirstInOrder collation policy values rule → isEligible context rule.actionId →
        rule.actionId ≠ policy.defaultActionId →
          HoldsWithoutFavour context values rule.predicate) ∧
    ((∀ rule ∈ policy.rules, ∀ x ∈ unsafeVars true rule.predicate, ∀ v ∈ context.stateVariables,
        v.variableId = x → v.missingValuePolicy = .noAction → values x ≠ none) →
      MissingStateInert collation context policy values) := by
  have hiff : MissingStateInert collation context policy values ↔
      ∀ rule, FirstInOrder collation policy values rule → isEligible context rule.actionId →
        rule.actionId ≠ policy.defaultActionId →
          HoldsWithoutFavour context values rule.predicate := by
    constructor
    · intro h rule hfirst heligible hne filled hfills _
      have hrule := selectRule_eq_some.mpr hfirst
      by_contra hfails
      have hdefault := h rule hrule filled hfills (Bool.not_eq_true _ ▸ hfails)
      rw [selectActionForState, hrule] at hdefault
      simp only [heligible, if_true] at hdefault
      exact hne hdefault
    · intro h rule hrule filled hfills hfails
      by_contra hne
      unfold selectActionForState at hne
      simp only [hrule] at hne
      split at hne
      · next heligible =>
        have hholds := (h rule (selectRule_eq_some.mp hrule) heligible hne).holds hfills
        rw [hfails] at hholds
        exact nomatch hholds
      · exact hne rfl
  refine ⟨hiff, fun hsafe => hiff.mpr fun rule hfirst _ _ filled hfills hunsafe => ?_⟩
  obtain ⟨before, after, heq, -, hholds⟩ := hfirst
  have hmem : rule ∈ policy.rules := by
    rw [← List.mem_insertionSort (comesFirst collation), heq]
    exact List.mem_append_right _ List.mem_cons_self
  have hsame : filled = values := by
    funext x
    by_cases hx : x ∈ unsafeVars true rule.predicate
    · rcases hfills x with heq | ⟨hnone, v, hv, hid, hpolicy, -⟩
      · exact heq
      · exact absurd hnone (hsafe rule hmem x hx v hv hid hpolicy)
    · exact hunsafe x hx
  rw [hsame]
  exact hholds

/-- A policy that passes and has a rule for `x` other than `on` selects its action where `x` has no
value. -/
theorem missing_state_triggers :
    (validateDecisionPolicy sampleContext
      (samplePolicy [("1", .compare .neq "x" (.string "on"), "raise")])).outcome = .pass ∧
    ¬MissingStateInert anyOrder sampleContext
      (samplePolicy [("1", .compare .neq "x" (.string "on"), "raise")]) fun _ => none := by
  refine ⟨by decide, fun h => ?_⟩
  have hfills : Fills sampleContext (fun _ => none)
      fun x => if x = "x" then some (.string "on") else none := by
    intro x
    by_cases hx : x = "x"
    · refine .inr ⟨rfl, sampleContext.stateVariables.head (by decide), by decide, hx.symm, by decide,
        .string "on", if_pos hx, by decide⟩
    · exact .inl (if_neg hx)
  exact absurd (h _ rfl _ hfills (by decide)) (by decide)

end Orchestrator.Decisions
