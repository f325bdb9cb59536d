import Mathlib.Data.List.Perm.Basic
import Mathlib.Tactic

/-!
# Goal proofs

Whether the completion records of the programs of a portfolio prove a goal: from the goal over a
binding to the criterion of a program, and to the result of that criterion.

* `proveBinding`, `provePortfolioGoal`: the proof of a binding, and of a goal;
* `GoalProofState.fold_spec`: what the loop over the bindings has seen;
* `goal_proof_sound`: what a satisfied goal rests on, and what the status does not depend on.
-/

namespace Orchestrator.Portfolio

/-! ## Records -/

/-- A `PortfolioGoal`, by its id and its criteria. -/
structure PortfolioGoal where
  goalId : String
  successCriteria : List String
  deriving DecidableEq

inductive ContributionType where
  | primary
  | supporting
  | optional
  deriving DecidableEq, Repr

/-- A `PortfolioGoalContributionBinding`, less its id, its evidence class and its score. -/
structure PortfolioGoalContributionBinding where
  portfolioGoalId : String
  programProposalId : Option String := none
  programId : Option String := none
  programCriterionId : String
  contributionType : ContributionType
  deriving DecidableEq

/-- A `PortfolioProgramLineage`, by what it links. -/
structure PortfolioProgramLineage where
  proposalId : String
  programId : String
  deriving DecidableEq

/-- A `Program`, by the acceptance criteria of its root intent. -/
structure Program where
  acceptanceCriteria : List String
  deriving DecidableEq

inductive ProgramOutcome where
  | verifiedSuccess
  | other
  deriving DecidableEq, Repr

structure ProgramCriterionResult where
  rootCriterionIndex : ℕ
  satisfied : Bool
  evidenceRefs : List String
  deriving DecidableEq

/-- A `ProgramCompletionRecord`, less what it is about. -/
structure ProgramCompletionRecord where
  programCompletionRecordId : String
  outcome : ProgramOutcome
  criterionResults : List ProgramCriterionResult
  deriving DecidableEq

/-- What a goal is proved from. The programs and their completions are found by the ids of the
programs. -/
structure GoalProofInput where
  goals : List PortfolioGoal
  goalBindings : List PortfolioGoalContributionBinding
  lineage : List PortfolioProgramLineage
  programsById : String → Option Program
  programCompletionsById : String → Option ProgramCompletionRecord

/-! ## The proof of a binding -/

inductive BindingProof where
  | satisfied (evidenceRefs : List String)
  | falseBinding
  | missing
  | unsatisfied
  | criterionProofUnavailable
  deriving DecidableEq

/-- A text that is neither missing nor empty. -/
def truthy (s : Option String) : Option String := s.filter (· ≠ "")

variable (input : GoalProofInput)

/-- The program of a binding: the one it names, or else the first one its proposal is linked to. -/
def boundProgramId (binding : PortfolioGoalContributionBinding) : Option String :=
  truthy ((truthy binding.programId).or
    ((truthy binding.programProposalId).bind fun proposalId =>
      (input.lineage.find? (·.proposalId = proposalId)).map (·.programId)))

/-- The proof of a criterion by the completion record of its program. -/
def proveCriterion (program : Program) (completion : ProgramCompletionRecord)
    (boundCriterion : String) : BindingProof :=
  let rootCriterionIndex := program.acceptanceCriteria.idxOf boundCriterion
  if completion.outcome ≠ .verifiedSuccess then .unsatisfied
  else
    match completion.criterionResults.find? (·.rootCriterionIndex = rootCriterionIndex) with
    | none => .criterionProofUnavailable
    | some criterionProof =>
      if program.acceptanceCriteria[criterionProof.rootCriterionIndex]? ≠ some boundCriterion then
        .falseBinding
      else if !criterionProof.satisfied then .unsatisfied
      else if criterionProof.evidenceRefs = [] then .criterionProofUnavailable
      else .satisfied ([
        "programCompletion:" ++ completion.programCompletionRecordId,
        "rootCriterionIndex:" ++ toString rootCriterionIndex,
        "rootCriterion:" ++ boundCriterion] ++ criterionProof.evidenceRefs)

/-- `proveBinding`. -/
def proveBinding (goalCriteria : List String) (binding : PortfolioGoalContributionBinding) :
    BindingProof :=
  let boundCriterion := binding.programCriterionId
  if boundCriterion ∉ goalCriteria then .falseBinding
  else
    match boundProgramId input binding with
    | none => .missing
    | some programId =>
      match input.programsById programId with
      | none => .missing
      | some program =>
        if boundCriterion ∉ program.acceptanceCriteria then .falseBinding
        else
          match input.programCompletionsById programId with
          | none => .missing
          | some completion => proveCriterion program completion boundCriterion

/-! ## The proof of a goal -/

inductive GoalProofStatus where
  | satisfied
  | unsatisfied
  | inconclusive
  deriving DecidableEq, Repr

/-- A `GoalProofResult`: with evidence where the goal is satisfied, and with a reason otherwise. -/
structure GoalProofResult where
  status : GoalProofStatus
  evidenceRefs : List String := []
  reasonCode : String := ""
  message : String := ""
  deriving DecidableEq

/-- What the loop over the bindings has seen. -/
structure GoalProofState where
  evidenceRefs : List String := []
  sawFalseBinding : Bool := false
  sawMissing : Bool := false
  sawUnsatisfied : Bool := false
  sawUnavailableCriterionProof : Bool := false

/-- One turn of the loop. -/
def GoalProofState.see (s : GoalProofState) : BindingProof → GoalProofState
  | .satisfied evidenceRefs => { s with evidenceRefs := s.evidenceRefs ++ evidenceRefs }
  | .falseBinding => { s with sawFalseBinding := true }
  | .unsatisfied => { s with sawUnsatisfied := true }
  | .criterionProofUnavailable => { s with sawUnavailableCriterionProof := true }
  | .missing => { s with sawMissing := true }

def GoalProofState.result (s : GoalProofState) (goalId : String) : GoalProofResult :=
  if s.evidenceRefs ≠ [] then { status := .satisfied, evidenceRefs := s.evidenceRefs }
  else if s.sawFalseBinding then {
    status := .unsatisfied
    reasonCode := "FALSE_CONTRIBUTION_BINDING"
    message := "Binding criterion does not match goal " ++ goalId }
  else if s.sawUnsatisfied then {
    status := .unsatisfied
    reasonCode := "PROGRAM_CRITERION_UNSATISFIED"
    message := "Bound programs did not prove goal " ++ goalId }
  else if s.sawUnavailableCriterionProof then {
    status := .inconclusive
    reasonCode := "CRITERION_PROOF_UNAVAILABLE"
    message := "ProgramCompletionRecord lacks criterion-level proof for goal " ++ goalId }
  else if s.sawMissing then {
    status := .inconclusive
    reasonCode := "INSUFFICIENT_EVIDENCE"
    message := "Missing program completion evidence for goal " ++ goalId }
  else {
    status := .inconclusive
    reasonCode := "INSUFFICIENT_EVIDENCE"
    message := "No proven contribution for goal " ++ goalId }

/-- The bindings that count for a goal. -/
def countsFor (goalId : String) (binding : PortfolioGoalContributionBinding) : Bool :=
  binding.portfolioGoalId = goalId && binding.contributionType ≠ .optional

/-- `provePortfolioGoal`. -/
def provePortfolioGoal (goalId : String) : GoalProofResult :=
  match input.goals.find? (·.goalId = goalId) with
  | none => {
      status := .inconclusive
      reasonCode := "GOAL_MISSING"
      message := "Goal " ++ goalId ++ " not found" }
  | some goal =>
    let bindings := input.goalBindings.filter (countsFor goalId)
    if bindings = [] then {
      status := .inconclusive
      reasonCode := "NO_BINDING"
      message := "No contribution binding for goal " ++ goalId }
    else
      ((bindings.map (proveBinding input goal.successCriteria)).foldl GoalProofState.see {}).result
        goalId

/-! ## What the loop sees -/

/-- The loop has seen the proofs, beside what it saw before. -/
theorem GoalProofState.fold_spec (proofs : List BindingProof) (s : GoalProofState) :
    let s' := proofs.foldl GoalProofState.see s
    (∀ ref, ref ∈ s'.evidenceRefs ↔ ref ∈ s.evidenceRefs ∨
      ∃ refs, .satisfied refs ∈ proofs ∧ ref ∈ refs) ∧
    (s'.sawFalseBinding ↔ s.sawFalseBinding ∨ .falseBinding ∈ proofs) ∧
    (s'.sawUnsatisfied ↔ s.sawUnsatisfied ∨ .unsatisfied ∈ proofs) := by
  induction proofs generalizing s with
  | nil => simp
  | cons proof proofs ih =>
    obtain ⟨hrefs, hfalse, hunsatisfied⟩ := ih (s.see proof)
    rw [List.foldl_cons]
    refine ⟨fun ref => (hrefs ref).trans ?_, hfalse.trans ?_, hunsatisfied.trans ?_⟩
    · cases proof <;> simp [see, or_assoc]
    · cases proof <;> simp [see]
    · cases proof <;> simp [see]

/-- A satisfied binding has evidence. -/
theorem proveCriterion_ne_nil {program : Program} {completion : ProgramCompletionRecord}
    {criterion : String} {refs : List String}
    (h : proveCriterion program completion criterion = .satisfied refs) :
    refs ≠ [] ∧ completion.outcome = .verifiedSuccess ∧ ∃ r ∈ completion.criterionResults,
      program.acceptanceCriteria[r.rootCriterionIndex]? = some criterion ∧ r.satisfied ∧
        r.evidenceRefs ≠ [] := by
  unfold proveCriterion at h
  dsimp only at h
  split at h
  · exact nomatch h
  next houtcome =>
  split at h
  · exact nomatch h
  next r hr =>
  split at h
  · exact nomatch h
  next htext =>
  split at h
  · exact nomatch h
  next hsatisfied =>
  split at h
  · exact nomatch h
  next hevidence =>
  have hrefs := BindingProof.satisfied.inj h
  refine ⟨?_, not_not.mp houtcome, r, List.mem_of_find?_eq_some hr, not_not.mp htext, ?_, hevidence⟩
  · rw [← hrefs]
    exact List.cons_ne_nil _ _
  · simpa using hsatisfied

/-- A criterion is an acceptance criterion of the program of the binding, whose completion record
marks it satisfied, with evidence. -/
def Proven (binding : PortfolioGoalContributionBinding) : Prop :=
  ∃ programId program completion,
    boundProgramId input binding = some programId ∧ input.programsById programId = some program ∧
    binding.programCriterionId ∈ program.acceptanceCriteria ∧
    input.programCompletionsById programId = some completion ∧
    completion.outcome = .verifiedSuccess ∧ ∃ r ∈ completion.criterionResults,
      program.acceptanceCriteria[r.rootCriterionIndex]? = some binding.programCriterionId ∧
        r.satisfied ∧ r.evidenceRefs ≠ []

variable {input}

theorem proveBinding_satisfied {goalCriteria : List String}
    {binding : PortfolioGoalContributionBinding} {refs : List String}
    (h : proveBinding input goalCriteria binding = .satisfied refs) :
    refs ≠ [] ∧ binding.programCriterionId ∈ goalCriteria ∧ Proven input binding := by
  unfold proveBinding at h
  dsimp only at h
  split at h
  · exact nomatch h
  next hcriterion =>
  split at h
  · exact nomatch h
  next programId hprogramId =>
  split at h
  · exact nomatch h
  next program hprogram =>
  split at h
  · exact nomatch h
  next haccepted =>
  split at h
  · exact nomatch h
  next completion hcompletion =>
  obtain ⟨hrefs, houtcome, hresult⟩ := proveCriterion_ne_nil h
  exact ⟨hrefs, not_not.mp hcriterion, programId, program, completion, hprogramId, hprogram,
    not_not.mp haccepted, hcompletion, houtcome, hresult⟩

/-- The binding is proven, with evidence. -/
def BindingProof.isEvidence : BindingProof → Bool
  | .satisfied evidenceRefs => !evidenceRefs.isEmpty
  | _ => false

/-- The binding counts against the goal. -/
def BindingProof.isAgainst (proof : BindingProof) : Bool :=
  proof = .falseBinding || proof = .unsatisfied

/-- The status is decided by which kinds of proofs there are. -/
theorem GoalProofState.status_result (proofs : List BindingProof) (goalId : String) :
    ((proofs.foldl GoalProofState.see {}).result goalId).status =
      if proofs.any BindingProof.isEvidence then .satisfied
      else if proofs.any BindingProof.isAgainst then .unsatisfied else .inconclusive := by
  obtain ⟨hrefs, hfalse, hunsatisfied⟩ := fold_spec proofs {}
  simp only [Bool.false_eq_true, false_or, List.not_mem_nil] at hrefs hfalse hunsatisfied
  have hevidence : proofs.any BindingProof.isEvidence ↔
      (proofs.foldl GoalProofState.see {}).evidenceRefs ≠ [] := by
    rw [List.any_eq_true, Ne, List.eq_nil_iff_forall_not_mem, not_forall]
    simp only [not_not, hrefs]
    constructor
    · rintro ⟨proof, hmem, hproof⟩
      cases proof with
      | satisfied refs =>
        cases refs with
        | nil => exact nomatch hproof
        | cons ref refs => exact ⟨ref, ref :: refs, hmem, List.mem_cons_self⟩
      | _ => exact nomatch hproof
    · rintro ⟨ref, refs, hmem, href⟩
      refine ⟨.satisfied refs, hmem, ?_⟩
      cases refs with
      | nil => exact nomatch href
      | cons => rfl
  have hagainst : proofs.any BindingProof.isAgainst ↔
      (proofs.foldl GoalProofState.see {}).sawFalseBinding ∨
        (proofs.foldl GoalProofState.see {}).sawUnsatisfied := by
    rw [List.any_eq_true, hfalse, hunsatisfied]
    simp [BindingProof.isAgainst, and_or_left, exists_or]
  unfold result
  by_cases hrefs : (proofs.foldl GoalProofState.see {}).evidenceRefs = []
  · rw [if_neg (not_not.mpr hrefs), if_neg (mt hevidence.mp (not_not.mpr hrefs))]
    split
    · next h => rw [if_pos (hagainst.mpr (.inl h))]
    next hnotFalse =>
    split
    · next h => rw [if_pos (hagainst.mpr (.inr h))]
    next hnotUnsatisfied =>
    rw [if_neg (mt hagainst.mp (not_or.mpr ⟨hnotFalse, hnotUnsatisfied⟩))]
    split
    · rfl
    · split <;> rfl
  · rw [if_pos hrefs, if_pos (hevidence.mpr hrefs)]

/-! ## Soundness and order -/

/-- A goal that is satisfied has a binding, not an optional one, that names a success criterion of
the goal and is proven. -/
theorem exists_binding_of_satisfied {goalId : String}
    (h : (provePortfolioGoal input goalId).status = .satisfied) :
    ∃ goal ∈ input.goals, goal.goalId = goalId ∧ ∃ binding ∈ input.goalBindings,
      binding.portfolioGoalId = goalId ∧ binding.contributionType ≠ .optional ∧
      binding.programCriterionId ∈ goal.successCriteria ∧ Proven input binding := by
  unfold provePortfolioGoal at h
  split at h
  · exact nomatch h
  next goal hgoal =>
  dsimp only at h
  split at h
  · exact nomatch h
  rw [GoalProofState.status_result] at h
  split at h
  · next hsatisfied =>
    obtain ⟨proof, hproof, hevidence⟩ := List.any_eq_true.mp hsatisfied
    obtain ⟨refs, rfl⟩ : ∃ refs, proof = .satisfied refs := by
      cases proof with
      | satisfied refs => exact ⟨refs, rfl⟩
      | _ => exact nomatch hevidence
    obtain ⟨binding, hbinding, heq⟩ := List.mem_map.mp hproof
    obtain ⟨hmem, hcounts⟩ := List.mem_filter.mp hbinding
    rw [countsFor, Bool.and_eq_true, decide_eq_true_eq, decide_eq_true_eq] at hcounts
    obtain ⟨-, hcriterion, hproven⟩ := proveBinding_satisfied heq
    have hid := List.find?_some hgoal
    rw [decide_eq_true_eq] at hid
    exact ⟨goal, List.mem_of_find?_eq_some hgoal, hid, binding, hmem, hcounts.1, hcounts.2,
      hcriterion, hproven⟩
  · split at h <;> exact nomatch h

/-- The status depends on the proofs of the bindings as a set. -/
theorem status_congr {input' : GoalProofInput} {goalId : String} (hgoals : input'.goals = input.goals)
    (hbindings : input'.goalBindings.Perm input.goalBindings)
    (hproof : ∀ criteria, proveBinding input' criteria = proveBinding input criteria) :
    (provePortfolioGoal input' goalId).status = (provePortfolioGoal input goalId).status := by
  unfold provePortfolioGoal
  rw [hgoals]
  split
  · rfl
  next goal _ =>
  have hperm := hbindings.filter (countsFor goalId)
  have hnil : input'.goalBindings.filter (countsFor goalId) = [] ↔
      input.goalBindings.filter (countsFor goalId) = [] :=
    ⟨fun h => (h ▸ hperm).nil_eq.symm, fun h => (h ▸ hperm).eq_nil⟩
  dsimp only
  rw [hproof]
  by_cases hempty : input.goalBindings.filter (countsFor goalId) = []
  · rw [if_pos hempty, if_pos (hnil.mpr hempty)]
  · rw [if_neg hempty, if_neg (mt hnil.mp hempty), GoalProofState.status_result,
      GoalProofState.status_result]
    have hproofs := hperm.map (proveBinding input goal.successCriteria)
    rw [hproofs.any_eq, hproofs.any_eq]

/-- Every proposal is linked to one program. -/
def LinksOneProgram (lineage : List PortfolioProgramLineage) : Prop :=
  ∀ l ∈ lineage, ∀ l' ∈ lineage, l.proposalId = l'.proposalId → l.programId = l'.programId

/-- Where every proposal is linked to one program, that program is found in any order. -/
theorem find_programId_perm {lineage lineage' : List PortfolioProgramLineage}
    (hunique : LinksOneProgram lineage) (hperm : lineage'.Perm lineage) (proposalId : String) :
    (lineage'.find? (·.proposalId = proposalId)).map (·.programId) =
      (lineage.find? (·.proposalId = proposalId)).map (·.programId) := by
  cases hfind : lineage.find? (·.proposalId = proposalId) with
  | none =>
    have hnone : lineage'.find? (·.proposalId = proposalId) = none := by
      rw [List.find?_eq_none] at hfind ⊢
      exact fun l hl => hfind l (hperm.mem_iff.mp hl)
    rw [hnone]
  | some l =>
    cases hfind' : lineage'.find? (·.proposalId = proposalId) with
    | none =>
      rw [List.find?_eq_none] at hfind'
      exact absurd (List.find?_some hfind)
        (hfind' l (hperm.mem_iff.mpr (List.mem_of_find?_eq_some hfind)))
    | some l' =>
      have hl := List.find?_some hfind
      have hl' := List.find?_some hfind'
      rw [decide_eq_true_eq] at hl hl'
      exact congrArg some (hunique l' (hperm.mem_iff.mp (List.mem_of_find?_eq_some hfind')) l
        (List.mem_of_find?_eq_some hfind) (hl'.trans hl.symm))

/-- A satisfied goal has a binding, not an optional one, whose criterion is a success criterion of the
goal and an acceptance criterion of the bound program, whose completion record of a verified success
marks it satisfied with evidence. The status depends neither on the order of the bindings nor, where
every proposal is linked to one program, on the order of the lineage. -/
theorem goal_proof_sound (input : GoalProofInput) (goalId : String) :
    ((provePortfolioGoal input goalId).status = .satisfied →
      ∃ goal ∈ input.goals, goal.goalId = goalId ∧ ∃ binding ∈ input.goalBindings,
        binding.portfolioGoalId = goalId ∧ binding.contributionType ≠ .optional ∧
        binding.programCriterionId ∈ goal.successCriteria ∧ Proven input binding) ∧
    (∀ bindings, bindings.Perm input.goalBindings →
      (provePortfolioGoal { input with goalBindings := bindings } goalId).status =
        (provePortfolioGoal input goalId).status) ∧
    (LinksOneProgram input.lineage → ∀ lineage, lineage.Perm input.lineage →
      (provePortfolioGoal { input with lineage := lineage } goalId).status =
        (provePortfolioGoal input goalId).status) := by
  refine ⟨exists_binding_of_satisfied, fun bindings hperm => ?_, fun hunique lineage hperm => ?_⟩
  · exact status_congr rfl hperm fun _ => rfl
  · refine status_congr rfl (List.Perm.refl _) fun criteria => funext fun binding => ?_
    have hbound : boundProgramId { input with lineage := lineage } binding =
        boundProgramId input binding := by
      unfold boundProgramId
      simp only [find_programId_perm hunique hperm]
    unfold proveBinding
    rw [hbound]

/-! ## A goal with two criteria -/

/-- A goal with the criteria `a` and `b`, bound by `a` to a program that has proven `a`, its only
criterion. -/
def halfProven : GoalProofInput where
  goals := [⟨"goal", ["a", "b"]⟩]
  goalBindings := [⟨"goal", none, some "program", "a", .primary⟩]
  lineage := []
  programsById id := if id = "program" then some ⟨["a"]⟩ else none
  programCompletionsById id :=
    if id = "program" then some ⟨"record", .verifiedSuccess, [⟨0, true, ["evidence"]⟩]⟩ else none

/-- A goal is satisfied though one of its criteria is no acceptance criterion of any program. -/
theorem half_proven_satisfied :
    (provePortfolioGoal halfProven "goal").status = .satisfied ∧
    ∃ goal ∈ halfProven.goals, ∃ criterion ∈ goal.successCriteria, ∀ programId program,
      halfProven.programsById programId = some program → criterion ∉ program.acceptanceCriteria := by
  refine ⟨by decide, ⟨"goal", ["a", "b"]⟩, by decide, "b", by decide, ?_⟩
  intro programId program h
  have hprogram : program = ⟨["a"]⟩ := by
    simp only [halfProven] at h
    split at h
    · exact (Option.some.inj h).symm
    · exact nomatch h
  rw [hprogram]
  decide

end Orchestrator.Portfolio
