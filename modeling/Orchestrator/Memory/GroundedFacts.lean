import Orchestrator.Memory.Grounding

/-!
# The facts of a grounded claim

* `ClaimFact`, `ClaimFact.Present`: the kinds of facts that a claim states, and that the records
  of the run bear them out;
* `comparedFacts`: the kinds that grounding compares with the records, by the type of the claim;
* `compared_present`: what is compared is there;
* `ground_restate`: what is not compared does not matter to the grounding;
* `grounded_facts_iff`: all facts of a grounded claim are there exactly where those that are not
  compared are.
-/

namespace Orchestrator.Memory

open Collections

/-! ## Facts -/

/-- The records that a claim is held against. -/
structure ClaimRecords where
  historicalRun : Option HistoricalRunRecord
  verification : Option OutcomeVerificationRecord
  resourceLedger : Option (List (String × ObservedValue))

/-- The kinds of facts that a claim states. -/
inductive ClaimFact where
  | observedOutcome
  | planHash
  | actionTypes
  | capabilityIds
  | findingIds
  | criterionIds
  | criterionVerdicts
  | verificationMethods
  | containmentReason
  | resourceObservation
  deriving DecidableEq, Repr

/-- Whatever the claim states of this kind is in the records. A verdict is stated of the criterion
at its place; a containment reason is the outcome of a contained run. -/
def ClaimFact.Present (claim : LearningClaim) (R : ClaimRecords) : ClaimFact → Prop
  | .observedOutcome => ∃ run ∈ R.historicalRun, claim.observedOutcome = run.outcome
  | .planHash => ∀ hash ∈ claim.planHash, ∃ run ∈ R.historicalRun, run.planHash = some hash
  | .actionTypes => ∀ type ∈ claim.actionTypes, ∃ run ∈ R.historicalRun, type ∈ run.actionTypes
  | .capabilityIds => ∀ id ∈ claim.capabilityIds, ∃ run ∈ R.historicalRun, id ∈ run.capabilityIds
  | .findingIds => ∀ id ∈ claim.findingIds, ∃ v ∈ R.verification, id ∈ v.findingIds
  | .criterionIds => ∀ id ∈ claim.criterionIds,
      ∃ v ∈ R.verification, ∃ r ∈ v.criterionResults, r.criterionId = id
  | .criterionVerdicts => ∀ stated ∈ claim.criterionIds.zip claim.criterionVerdicts,
      ∃ v ∈ R.verification, ∃ r ∈ v.criterionResults,
        r.criterionId = stated.1 ∧ r.verdict.text = stated.2
  | .verificationMethods => ∀ method ∈ claim.verificationMethods,
      ∃ v ∈ R.verification, ∃ r ∈ v.criterionResults, r.verificationMethod = some method
  | .containmentReason => ∀ reason ∈ claim.containmentReason,
      ∃ run ∈ R.historicalRun, run.outcome = .contained ∧ reason = run.outcome.text
  | .resourceObservation => ∀ observation ∈ claim.resourceObservation, ∀ fact ∈ observation,
      ∃ ledger ∈ R.resourceLedger, ∃ value ∈ ledger.lookup fact.1, fact.2.strictEquals value = true

/-- The facts that grounding compares with the records. -/
def comparedFacts (candidateType : LearningCandidateType) : List ClaimFact :=
  [.observedOutcome, .planHash, .actionTypes, .capabilityIds] ++
    match candidateType with
    | .failurePattern => [.findingIds, .criterionIds]
    | .containmentPattern => [.containmentReason]
    | .resourcePattern => [.resourceObservation]
    | .verificationPattern => [.criterionIds, .verificationMethods]
    | .evidenceGapPattern => [.criterionIds]
    | _ => []

/-! ## What the branches compare -/

section Branches

variable {claim : LearningClaim} {run : HistoricalRunRecord}
  {verification : Option OutcomeVerificationRecord}
  {resourceLedger : Option (List (String × ObservedValue))} {matched : List String}

theorem isSubset_iff {claimed actual : List String} :
    isSubset claimed actual = true ↔ ∀ a ∈ claimed, a ∈ actual := by
  simp [isSubset]

/-- The guard of a list that may be empty. -/
theorem subset_of_guard {claimed actual : List String}
    (h : ¬(claimed ≠ [] ∧ ¬isSubset claimed actual)) : ∀ a ∈ claimed, a ∈ actual := by
  intro a ha
  have hne : claimed ≠ [] := List.ne_nil_of_mem ha
  have hsubset : isSubset claimed actual := not_not.mp fun hnot => h ⟨hne, hnot⟩
  exact isSubset_iff.mp hsubset a ha

theorem mem_knownCriteria {id : String} :
    id ∈ knownCriteria verification ↔
      ∃ v ∈ verification, ∃ r ∈ v.criterionResults, r.criterionId = id := by
  cases verification <;> simp [knownCriteria]

theorem groundFailure_verdict
    (h : (groundFailure claim run verification matched).verdict = .deterministicallyGrounded) :
    (∀ id ∈ claim.findingIds, ∃ v ∈ verification, id ∈ v.findingIds) ∧
      ∀ id ∈ claim.criterionIds, id ∈ knownCriteria verification := by
  unfold groundFailure at h
  split at h
  · exact nomatch h
  split at h
  · exact nomatch h
  next hfindings =>
    split at h
    · exact nomatch h
    next hcriteria =>
      refine ⟨fun id hid => ?_, subset_of_guard hcriteria⟩
      have hmem := subset_of_guard hfindings id hid
      cases verification with
      | none => exact nomatch hmem
      | some v => exact ⟨v, rfl, hmem⟩

theorem groundContainment_verdict
    (h : (groundContainment claim run matched).verdict = .deterministicallyGrounded) :
    run.outcome = .contained ∧ claim.containmentReason = some "CONTAINED" := by
  unfold groundContainment at h
  split at h
  · exact nomatch h
  next houtcome =>
    split at h
    · exact nomatch h
    next reason hreason =>
      split at h
      · exact nomatch h
      split at h
      · exact nomatch h
      next hcontained => exact ⟨not_not.mp houtcome, hreason.trans (by rw [not_not.mp hcontained])⟩

theorem groundResource_verdict
    (h : (groundResource claim resourceLedger matched).verdict = .deterministicallyGrounded) :
    ∃ observation ledger, claim.resourceObservation = some observation ∧
      resourceLedger = some ledger ∧
      ∀ fact ∈ observation, ∃ value ∈ ledger.lookup fact.1, fact.2.strictEquals value = true := by
  unfold groundResource at h
  split at h
  · exact nomatch h
  · exact nomatch h
  next observation ledger hobservation =>
    split at h
    · exact nomatch h
    next hfind =>
      refine ⟨observation, ledger, hobservation, rfl, fun fact hfact => ?_⟩
      have hequal := List.find?_eq_none.mp hfind fact hfact
      cases hvalue : ledger.lookup fact.1 with
      | none => simp [hvalue] at hequal
      | some value =>
        rw [hvalue] at hequal
        exact ⟨value, rfl, by simpa using hequal⟩

theorem groundVerification_verdict
    (h : (groundVerification claim verification matched).verdict = .deterministicallyGrounded) :
    ∃ v, verification = some v ∧ (∀ id ∈ claim.criterionIds, id ∈ knownCriteria verification) ∧
      ∀ method ∈ claim.verificationMethods,
        ∃ r ∈ v.criterionResults, r.verificationMethod = some method := by
  unfold groundVerification at h
  split at h
  · exact nomatch h
  next v =>
    dsimp only at h
    split at h
    · exact nomatch h
    next hcriteria =>
      split at h
      · exact nomatch h
      next hmethods =>
        refine ⟨v, rfl, subset_of_guard hcriteria, fun method hmethod => ?_⟩
        have hmem := subset_of_guard hmethods method hmethod
        exact List.mem_filterMap.mp (List.mem_filter.mp hmem).1

theorem groundEvidenceGap_verdict
    (h : (groundEvidenceGap claim run verification matched).verdict = .deterministicallyGrounded) :
    ∀ id ∈ claim.criterionIds, id ∈ knownCriteria verification := by
  unfold groundEvidenceGap at h
  split at h
  · exact nomatch h
  split at h
  · exact nomatch h
  next hcriteria => exact subset_of_guard hcriteria

end Branches

/-! ## What grounding compares -/

variable {claim : LearningClaim} {R : ClaimRecords}

/-- The branch of the claim's type. -/
def groundByType (claim : LearningClaim) (run : HistoricalRunRecord)
    (verification : Option OutcomeVerificationRecord)
    (resourceLedger : Option (List (String × ObservedValue))) (matched : List String) :
    ClaimGroundingResult :=
  match claim.candidateType with
  | .successPattern => groundSuccess claim run matched
  | .failurePattern => groundFailure claim run verification matched
  | .containmentPattern => groundContainment claim run matched
  | .resourcePattern => groundResource claim resourceLedger matched
  | .verificationPattern => groundVerification claim verification matched
  | .evidenceGapPattern => groundEvidenceGap claim run verification matched
  | .processPattern => groundProcess run matched
  | .securityPattern =>
    ⟨.requiresHumanReview, ["security claims require human review"], matched⟩
  | .dependencyPattern =>
    ⟨.partiallyGrounded,
      ["dependency claims are only partially entailed by historical action indexes"], matched⟩

/-- What every branch starts from. -/
theorem ground_verdict
    (h : (ground claim R.historicalRun R.verification R.resourceLedger).verdict =
      .deterministicallyGrounded) :
    ∃ run matched, R.historicalRun = some run ∧ claim.observedOutcome = run.outcome ∧
      (claim.planHash = none ∨ claim.planHash = run.planHash) ∧
      (∀ type ∈ claim.actionTypes, type ∈ run.actionTypes) ∧
      (∀ id ∈ claim.capabilityIds, id ∈ run.capabilityIds) ∧
      (groundByType claim run R.verification R.resourceLedger matched).verdict =
        .deterministicallyGrounded := by
  unfold ground at h
  split at h
  · exact nomatch h
  next run hrun =>
    split at h
    · exact nomatch h
    next houtcome =>
      split at h
      · exact nomatch h
      next hplan =>
        split at h
        · exact nomatch h
        next hactions =>
          split at h
          · exact nomatch h
          next hcapabilities =>
            rw [not_and_or, not_not, not_not] at hplan
            exact ⟨run, _, hrun, not_not.mp houtcome, hplan,
              isSubset_iff.mp (not_not.mp hactions), isSubset_iff.mp (not_not.mp hcapabilities), h⟩

/-- What grounding compares with the records is there. -/
theorem compared_present
    (h : (ground claim R.historicalRun R.verification R.resourceLedger).verdict =
      .deterministicallyGrounded)
    {fact : ClaimFact} (hfact : fact ∈ comparedFacts claim.candidateType) :
    fact.Present claim R := by
  obtain ⟨run, matched, hrun, houtcome, hplan, hactions, hcapabilities, hbranch⟩ :=
    ground_verdict h
  unfold comparedFacts at hfact
  rw [List.mem_append] at hfact
  rcases hfact with hfact | hfact
  · simp only [List.mem_cons, List.not_mem_nil, or_false] at hfact
    rcases hfact with rfl | rfl | rfl | rfl
    · exact ⟨run, hrun, houtcome⟩
    · intro hash hhash
      rcases hplan with hnone | hsame
      · rw [hnone] at hhash
        exact nomatch hhash
      · exact ⟨run, hrun, hsame.symm.trans hhash⟩
    · exact fun type htype => ⟨run, hrun, hactions type htype⟩
    · exact fun id hid => ⟨run, hrun, hcapabilities id hid⟩
  · unfold groundByType at hbranch
    cases htype : claim.candidateType with
    | failurePattern =>
      rw [htype] at hfact hbranch
      obtain ⟨hfindings, hcriteria⟩ := groundFailure_verdict hbranch
      rcases List.mem_pair.mp hfact with rfl | rfl
      · exact hfindings
      · exact fun id hid => mem_knownCriteria.mp (hcriteria id hid)
    | containmentPattern =>
      rw [htype] at hfact hbranch
      obtain ⟨hcontained, hreason⟩ := groundContainment_verdict hbranch
      obtain rfl := List.mem_singleton.mp hfact
      intro reason hstated
      obtain rfl := Option.some.inj (hreason.symm.trans hstated)
      exact ⟨run, hrun, hcontained, by rw [hcontained]; rfl⟩
    | resourcePattern =>
      rw [htype] at hfact hbranch
      obtain ⟨observation, ledger, hobservation, hledger, hequal⟩ := groundResource_verdict hbranch
      obtain rfl := List.mem_singleton.mp hfact
      intro stated hstated f hf
      obtain rfl := Option.some.inj (hobservation.symm.trans hstated)
      exact ⟨ledger, hledger, hequal f hf⟩
    | verificationPattern =>
      rw [htype] at hfact hbranch
      obtain ⟨v, hv, hcriteria, hmethods⟩ := groundVerification_verdict hbranch
      rcases List.mem_pair.mp hfact with rfl | rfl
      · exact fun id hid => mem_knownCriteria.mp (hcriteria id hid)
      · exact fun method hmethod => ⟨v, hv, hmethods method hmethod⟩
    | evidenceGapPattern =>
      rw [htype] at hfact hbranch
      obtain rfl := List.mem_singleton.mp hfact
      exact fun id hid => mem_knownCriteria.mp (groundEvidenceGap_verdict hbranch id hid)
    | _ =>
      rw [htype] at hfact
      exact nomatch hfact

/-- The claim, with what another one states of this kind. -/
def LearningClaim.restate (claim other : LearningClaim) : ClaimFact → LearningClaim
  | .observedOutcome => { claim with observedOutcome := other.observedOutcome }
  | .planHash => { claim with planHash := other.planHash }
  | .actionTypes => { claim with actionTypes := other.actionTypes }
  | .capabilityIds => { claim with capabilityIds := other.capabilityIds }
  | .findingIds => { claim with findingIds := other.findingIds }
  | .criterionIds => { claim with criterionIds := other.criterionIds }
  | .criterionVerdicts => { claim with criterionVerdicts := other.criterionVerdicts }
  | .verificationMethods => { claim with verificationMethods := other.verificationMethods }
  | .containmentReason => { claim with containmentReason := other.containmentReason }
  | .resourceObservation => { claim with resourceObservation := other.resourceObservation }

/-- Whatever a claim states of a kind that is not compared, its grounding is the same. -/
theorem ground_restate (other : LearningClaim) {fact : ClaimFact}
    (hfact : fact ∉ comparedFacts claim.candidateType) :
    ground (claim.restate other fact) R.historicalRun R.verification R.resourceLedger =
      ground claim R.historicalRun R.verification R.resourceLedger := by
  unfold ground
  cases R.historicalRun with
  | none => rfl
  | some run =>
    cases htype : claim.candidateType <;> rw [htype] at hfact <;> cases fact <;>
      first
      | exact absurd (by decide) hfact
      | (simp only [LearningClaim.restate, htype]; done)
      | (simp only [LearningClaim.restate, htype]; rfl)

/-- All that a grounded claim states is in the records exactly if what its branch does not compare
is. -/
theorem grounded_facts_iff (claim : LearningClaim) (R : ClaimRecords)
    (h : (ground claim R.historicalRun R.verification R.resourceLedger).verdict =
      .deterministicallyGrounded) :
    (∀ fact : ClaimFact, fact.Present claim R) ↔
      ∀ fact, fact ∉ comparedFacts claim.candidateType → fact.Present claim R := by
  constructor
  · exact fun hall fact _ => hall fact
  · intro hrest fact
    by_cases hfact : fact ∈ comparedFacts claim.candidateType
    · exact compared_present h hfact
    · exact hrest fact hfact

/-! ## Two claims -/

/-- A verified run, and its only criterion. -/
def verifiedRecords : ClaimRecords where
  historicalRun := some
    { historicalRunRecordId := "hist_1"
      runId := "run_1"
      projectId := "proj"
      planHash := some "plan_a"
      outcomeVerificationId := some "ov_1"
      outcome := .verifiedSuccess
      actionTypes := ["CREATE_LOCAL_PATCH"]
      capabilityIds := ["cap_patch"] }
  verification := some ⟨"ov_1", [⟨"crit_1", .satisfied, some "EXACT"⟩], []⟩
  resourceLedger := none

/-- A claim about that run. -/
def claimOf (candidateType : LearningCandidateType) (criterionIds criterionVerdicts findingIds :
    List String) : LearningClaim where
  candidateType := candidateType
  observedOutcome := .verifiedSuccess
  polarity := .positive
  planHash := some "plan_a"
  actionTypes := ["CREATE_LOCAL_PATCH"]
  criterionIds := criterionIds
  criterionVerdicts := criterionVerdicts
  findingIds := findingIds

/-- A claim about the criterion's verdict, which is not compared and is there. -/
theorem grounded_facts_criterion :
    ClaimFact.criterionVerdicts.Present
        (claimOf .verificationPattern ["crit_1"] ["SATISFIED"] []) verifiedRecords ∧
      ClaimFact.criterionIds.Present
        (claimOf .verificationPattern ["crit_1"] ["SATISFIED"] []) verifiedRecords := by
  have hall := (grounded_facts_iff (claimOf .verificationPattern ["crit_1"] ["SATISFIED"] [])
    verifiedRecords (by decide)).mpr fun fact hfact => by
      cases fact with
      | criterionVerdicts =>
        intro stated hstated
        obtain rfl := List.mem_singleton.mp hstated
        exact ⟨_, rfl, _, List.mem_singleton_self _, rfl, rfl⟩
      | findingIds => exact fun _ h => nomatch h
      | containmentReason => exact fun _ h => nomatch h
      | resourceObservation => exact fun _ h => nomatch h
      | _ => exact absurd (by decide) hfact
  exact ⟨hall .criterionVerdicts, hall .criterionIds⟩

/-- A claim of success with a finding that no record has is grounded. -/
theorem grounded_without_finding :
    (ground (claimOf .successPattern [] [] ["find_9"]) verifiedRecords.historicalRun
        verifiedRecords.verification verifiedRecords.resourceLedger).verdict =
      .deterministicallyGrounded ∧
    ¬ClaimFact.findingIds.Present (claimOf .successPattern [] [] ["find_9"]) verifiedRecords := by
  refine ⟨by decide, fun h => ?_⟩
  obtain ⟨v, hv, hmem⟩ := h "find_9" (List.mem_singleton_self _)
  obtain rfl := Option.some.inj hv
  exact nomatch hmem

end Orchestrator.Memory
