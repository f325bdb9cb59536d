import Orchestrator.Memory.Retriever

/-!
# The isolation of projects

What happens in other projects must not show in a project: two states of the stores that agree on
everything that belongs to it give its candidates the same readiness and its plans the same
advice. The retrieval keeps to this; the readiness does not, for its check of the contradictions
counts those of every project.

* `AgreeOn`: the states agree on everything that belongs to a project;
* `AgreeOn.retrieve_eq`: the same precedents are retrieved;
* `Undecided`, `assess_undecided`: when the contradictions are what decides;
* `project_isolation_iff`: the exact condition for the isolation of a project.
-/

namespace Orchestrator.Memory

open Collections

/-! ## What belongs to a project -/

/-- The precedents of a project: for each, its id and all of its versions. The project of a
precedent is that of its latest version. -/
def PrecedentRepository.ofProject (r : PrecedentRepository) (projectId : String) :
    List (String × List (Option PromotedPrecedent)) :=
  (r.versionsById.entries.map fun e => (e.1, e.2.map (r.getVersion e.1))).filter fun e =>
    (e.2.getLast?.bind id).any fun p => p.projectId = projectId

/-- The contradiction names a candidate or a precedent of the project. -/
def MemoryStores.concerns (s : MemoryStores) (projectId : String)
    (c : PrecedentContradictionRecord) : Bool :=
  ((s.candidates.listByProject projectId).any fun x =>
    c.candidateIds.contains x.learningCandidateId) ||
  (s.precedents.ofProject projectId).any fun e => c.precedentIds.contains e.1

/-- The states agree on everything that belongs to the project. They may differ in the candidates,
the precedents and the contradictions of others. -/
structure AgreeOn (projectId : String) (s s' : MemoryStores) : Prop where
  historicalRuns : s.historicalRuns = s'.historicalRuns
  outcomes : s.outcomes = s'.outcomes
  evidence : s.evidence = s'.evidence
  candidates : s.candidates.listByProject projectId = s'.candidates.listByProject projectId
  precedents : s.precedents.ofProject projectId = s'.precedents.ofProject projectId
  contradictions : s.contradictions.byId.values.filter (s.concerns projectId) =
    s'.contradictions.byId.values.filter (s'.concerns projectId)

namespace AgreeOn

variable {projectId : String} {s s' : MemoryStores}

theorem symm (h : AgreeOn projectId s s') : AgreeOn projectId s' s where
  historicalRuns := h.historicalRuns.symm
  outcomes := h.outcomes.symm
  evidence := h.evidence.symm
  candidates := h.candidates.symm
  precedents := h.precedents.symm
  contradictions := h.contradictions.symm

theorem concerns_eq (h : AgreeOn projectId s s') : s.concerns projectId = s'.concerns projectId := by
  funext c
  unfold MemoryStores.concerns
  rw [h.candidates, h.precedents]

/-- A contradiction of the project is in both states. -/
theorem mem_contradictions (h : AgreeOn projectId s s') {c : PrecedentContradictionRecord}
    (hc : c ∈ s.contradictions.byId.values) (hconcerns : s.concerns projectId c = true) :
    c ∈ s'.contradictions.byId.values := by
  have hmem : c ∈ s.contradictions.byId.values.filter (s.concerns projectId) :=
    List.mem_filter.mpr ⟨hc, hconcerns⟩
  rw [h.contradictions] at hmem
  exact (List.mem_filter.mp hmem).1

end AgreeOn

/-! ## Retrieval -/

/-- The latest version of a precedent, from its entry among those of its project. -/
theorem PrecedentRepository.listByProject_eq (r : PrecedentRepository) (projectId : String) :
    r.listByProject projectId =
      (r.ofProject projectId).filterMap fun e => e.2.getLast?.bind id := by
  have hlatest : ∀ e ∈ r.versionsById.entries,
      r.getLatestVersion e.1 = (e.2.map (r.getVersion e.1)).getLast?.bind id := by
    intro e he
    have hget : r.versionsById.get e.1 = some e.2 := JsMap.get_eq_some.mpr he
    rw [getLatestVersion, versions, hget, Option.getD_some, List.getLast?_map]
    cases e.2.getLast? <;> rfl
  unfold listByProject ofProject JsMap.keys
  rw [List.filterMap_map, List.filter_map, List.filterMap_map, List.filterMap_filter,
    List.filter_filterMap]
  refine List.filterMap_congr fun e he => ?_
  simp only [Function.comp_apply, hlatest e he]
  cases (e.2.map (r.getVersion e.1)).getLast?.bind id with
  | none => rfl
  | some p =>
    simp only [Option.any_some, Option.filter]

/-- A precedent that is listed for a project has an entry among those of the project. -/
theorem PrecedentRepository.mem_ofProject {r : PrecedentRepository} {projectId : String}
    {p : PromotedPrecedent} (h : p ∈ r.listByProject projectId) :
    ∃ e ∈ r.ofProject projectId, e.1 = p.precedentId := by
  rw [listByProject_eq] at h
  obtain ⟨e, he, hlast⟩ := List.mem_filterMap.mp h
  refine ⟨e, he, ?_⟩
  obtain ⟨e', -, rfl⟩ := List.mem_map.mp (List.mem_of_mem_filter he)
  rw [List.getLast?_map] at hlast
  cases hversion : e'.2.getLast? with
  | none => rw [hversion] at hlast; cases hlast
  | some version =>
    rw [hversion] at hlast
    exact (id_of_getVersion hlast).1.symm

namespace AgreeOn

variable {projectId : String} {s s' : MemoryStores}

theorem listByProject_eq (h : AgreeOn projectId s s') :
    s.precedents.listByProject projectId = s'.precedents.listByProject projectId := by
  rw [PrecedentRepository.listByProject_eq, PrecedentRepository.listByProject_eq, h.precedents]

/-- The contradictions of a precedent of the project are the same. -/
theorem listForPrecedent_eq (h : AgreeOn projectId s s') {p : PromotedPrecedent}
    (hp : p ∈ s.precedents.listByProject projectId) :
    s.contradictions.listForPrecedent p.precedentId =
      s'.contradictions.listForPrecedent p.precedentId := by
  obtain ⟨e, he, hid⟩ := PrecedentRepository.mem_ofProject hp
  have hconcerns : ∀ c : PrecedentContradictionRecord, c.precedentIds.contains p.precedentId = true →
      s.concerns projectId c = true := by
    intro c hc
    unfold MemoryStores.concerns
    rw [Bool.or_eq_true, List.any_eq_true (l := s.precedents.ofProject projectId)]
    exact Or.inr ⟨e, he, by rw [hid]; exact hc⟩
  -- whoever names the precedent is in the part of the contradictions that is the same
  have hfilter : ∀ values : List PrecedentContradictionRecord,
      values.filter (fun c => c.precedentIds.contains p.precedentId) =
        (values.filter (s.concerns projectId)).filter
          fun c => c.precedentIds.contains p.precedentId := by
    intro values
    rw [List.filter_filter]
    refine List.filter_congr fun c _ => ?_
    cases hc : c.precedentIds.contains p.precedentId with
    | true => rw [hconcerns c hc, Bool.true_and]
    | false => rw [Bool.false_and]
  unfold ContradictionRepository.listForPrecedent
  rw [hfilter s.contradictions.byId.values, hfilter s'.contradictions.byId.values,
    h.contradictions, h.concerns_eq]

/-- The retrieval for a project depends on what belongs to it only. -/
theorem retrieve_eq (h : AgreeOn projectId s s') (X : MemoryExternal)
    (query : PrecedentRetrievalQuery) (hquery : query.projectId = projectId)
    (budget : PrecedentRetrievalBudget) : retrieve X query budget s = retrieve X query budget s' := by
  subst hquery
  have hactive : s.precedents.listActiveByProject query.projectId =
      s'.precedents.listActiveByProject query.projectId := by
    unfold PrecedentRepository.listActiveByProject
    rw [h.listByProject_eq]
  unfold retrieve
  simp only [← hactive, ← h.historicalRuns]
  generalize hranked : List.insertionSort (RanksUpTo X query) _ = ranked
  generalize hselection : List.foldl (select budget) _ ranked = selection
  -- the contradictions are only read for precedents of the project
  have hcontext : selection.selected.map (retrievedContext X query s.contradictions) =
      selection.selected.map (retrievedContext X query s'.contradictions) := by
    refine List.map_congr_left fun p hp => ?_
    rw [← hselection] at hp
    have hmem : p ∈ ranked := by
      rcases mem_selected ranked _ hp with h | h
      · cases h
      · exact h
    rw [← hranked, List.mem_insertionSort] at hmem
    have hlist : p ∈ s.precedents.listByProject query.projectId :=
      List.mem_of_mem_filter (List.mem_of_mem_filter hmem)
    unfold retrievedContext
    rw [h.listForPrecedent_eq hlist]
  rw [hcontext]

end AgreeOn

/-! ## Readiness -/

section

variable (X : MemoryExternal) (candidate : LearningCandidate) (policy : PrecedentPromotionPolicy)

/-- No check before that of the contradictions decides whether the candidate is ready. -/
structure Undecided (s : MemoryStores) : Prop where
  run : ∃ run, s.historicalRuns.get candidate.sourceHistoricalRunRecordId = some run ∧
    candidate.provenance.sourceHistoricalRunRecordId = run.historicalRunRecordId
  provenance : provenanceHash X candidate.provenance = candidate.provenance.provenanceHash
  hash : candidateHash X candidate = candidate.candidateHash
  evidence : ∀ ids, s.evidence = some ids → ∀ ref ∈ candidate.supportingEvidenceRefs, ref ∈ ids
  evidenceCount : policy.minimumEvidenceCount ≤ candidate.supportingEvidenceRefs.length
  eligible : isCandidateTypeEligibleForOutcome candidate.candidateType candidate.sourceOutcome = true
  success : candidate.candidateType = .successPattern → candidate.sourceOutcome = .verifiedSuccess
  allowedType : candidate.candidateType ∈ policy.allowedCandidateTypes
  allowedOutcome : candidate.sourceOutcome ∈ policy.minimumOutcomeQuality
  grounded : (ground candidate.claim (s.historicalRuns.get candidate.sourceHistoricalRunRecordId)
    (s.loadVerification (s.historicalRuns.get candidate.sourceHistoricalRunRecordId)) none).verdict =
      .deterministicallyGrounded
  language : candidate.containsAuthorityLikeLanguage = false ∧
    containsAuthorityLikeLanguage candidate.statement = false
  scope : candidate.applicabilityProposal.scopeClass ≠ .globalAdvisory ∧
    candidate.applicabilityProposal.scopeClass ≠ .projectClass
  scopePolicy : candidate.applicabilityProposal.scopeClass ∉
    policy.requiresHumanReviewForScopeClasses

/-- What the checks before that of the contradictions decide. -/
def earlierChecks (s : MemoryStores) : Option PromotionReadinessResult :=
  match s.historicalRuns.get candidate.sourceHistoricalRunRecordId with
  | none =>
    some ⟨.invalidProvenance, ["missing historical run"],
      [⟨.weakProvenance, .blocking, "Missing source historical run record"⟩]⟩
  | some run =>
    (assessProvenance X candidate run).or <|
      (assessEvidence candidate s.evidence policy).or <|
      (assessType candidate policy).or <|
      (assessGrounding
        (ground candidate.claim (some run) (s.loadVerification (some run)) none)).or <|
      assessScope candidate policy

variable {X candidate policy}

theorem autoPromotionReadiness_eq (s : MemoryStores) :
    autoPromotionReadiness X candidate policy s = ((earlierChecks X candidate policy s).or
      (assessContradictions candidate policy s.contradictions.listOpen)).getD
        (assessRisk candidate policy) := by
  unfold autoPromotionReadiness assess earlierChecks
  cases s.historicalRuns.get candidate.sourceHistoricalRunRecordId with
  | none => rfl
  | some run => simp only [Option.or_assoc]

/-- A check lets pass what its condition does not hold of. -/
theorem check_eq_none {c : Prop} [Decidable c] {r : PromotionReadinessResult}
    {rest : Option PromotionReadinessResult} :
    (if c then some r else rest) = none ↔ ¬c ∧ rest = none := by
  split_ifs with h <;> simp [h]

theorem assessProvenance_eq_none {run : HistoricalRunRecord} :
    assessProvenance X candidate run = none ↔
      provenanceHash X candidate.provenance = candidate.provenance.provenanceHash ∧
        candidateHash X candidate = candidate.candidateHash ∧
        candidate.provenance.sourceHistoricalRunRecordId = run.historicalRunRecordId := by
  unfold assessProvenance
  simp only [check_eq_none, not_not, and_true]

theorem assessEvidence_eq_none {evidence : Option (List String)} :
    assessEvidence candidate evidence policy = none ↔
      (∀ ids, evidence = some ids → ∀ ref ∈ candidate.supportingEvidenceRefs, ref ∈ ids) ∧
        policy.minimumEvidenceCount ≤ candidate.supportingEvidenceRefs.length := by
  unfold assessEvidence
  cases evidence with
  | none => simp
  | some ids =>
    rw [Option.bind_some]
    cases hfind : candidate.supportingEvidenceRefs.find? (!ids.contains ·) with
    | some ref =>
      have hmissing := List.find?_some hfind
      have hmem := List.mem_of_find?_eq_some hfind
      simp only [reduceCtorEq, Option.some.injEq, false_iff, not_and]
      intro hall
      have := hall ids rfl ref hmem
      simp_all
    | none =>
      have hall : ∀ ref ∈ candidate.supportingEvidenceRefs, ref ∈ ids := by
        intro ref href
        have := List.find?_eq_none.mp hfind ref href
        simpa using this
      simp only [Option.some.injEq]
      constructor
      · intro h
        refine ⟨fun ids' hids' => hids' ▸ hall, ?_⟩
        by_contra hlt
        rw [if_pos (by omega)] at h
        cases h
      · intro h
        rw [if_neg (by omega)]

theorem assessType_eq_none : assessType candidate policy = none ↔
    isCandidateTypeEligibleForOutcome candidate.candidateType candidate.sourceOutcome = true ∧
      (candidate.candidateType = .successPattern → candidate.sourceOutcome = .verifiedSuccess) ∧
      candidate.candidateType ∈ policy.allowedCandidateTypes ∧
      candidate.sourceOutcome ∈ policy.minimumOutcomeQuality := by
  unfold assessType
  simp only [check_eq_none, and_true, Bool.not_eq_true', Bool.not_eq_false, not_and, not_not,
    Bool.or_eq_true, not_or, List.contains_iff_mem]

theorem assessGrounding_eq_none {grounding : ClaimGroundingResult} :
    assessGrounding grounding = none ↔ grounding.verdict = .deterministicallyGrounded := by
  unfold assessGrounding isNeverPromotableGrounding isAutoPromotableGrounding
  cases grounding.verdict <;> simp

theorem assessScope_eq_none : assessScope candidate policy = none ↔
    (candidate.containsAuthorityLikeLanguage = false ∧
      containsAuthorityLikeLanguage candidate.statement = false) ∧
      (candidate.applicabilityProposal.scopeClass ≠ .globalAdvisory ∧
        candidate.applicabilityProposal.scopeClass ≠ .projectClass) ∧
      candidate.applicabilityProposal.scopeClass ∉ policy.requiresHumanReviewForScopeClasses := by
  unfold assessScope
  simp only [check_eq_none, and_true, Bool.or_eq_true, not_or, Bool.not_eq_true, ne_eq,
    List.contains_iff_mem]

theorem earlierChecks_eq_none {s : MemoryStores} :
    earlierChecks X candidate policy s = none ↔ Undecided X candidate policy s := by
  unfold earlierChecks
  cases hrun : s.historicalRuns.get candidate.sourceHistoricalRunRecordId with
  | none =>
    simp only [reduceCtorEq, false_iff]
    intro h
    obtain ⟨run, hsome, -⟩ := h.run
    rw [hrun] at hsome
    cases hsome
  | some run =>
    simp only [Option.or_eq_none_iff, assessProvenance_eq_none, assessEvidence_eq_none,
      assessType_eq_none, assessGrounding_eq_none, assessScope_eq_none]
    constructor
    · rintro ⟨⟨hprov, hhash, hsource⟩, ⟨hev, hcount⟩, ⟨helig, hsuccess, htype, houtcome⟩, hground,
        hlanguage, hscope, hpolicy⟩
      exact ⟨⟨run, hrun, hsource⟩, hprov, hhash, hev, hcount, helig, hsuccess, htype, houtcome,
        by rw [hrun]; exact hground, hlanguage, hscope, hpolicy⟩
    · intro h
      obtain ⟨run', hrun', hsource⟩ := h.run
      rw [hrun] at hrun'
      obtain rfl := Option.some.inj hrun'
      have hground := h.grounded
      rw [hrun] at hground
      exact ⟨⟨h.provenance, h.hash, hsource⟩, ⟨h.evidence, h.evidenceCount⟩,
        ⟨h.eligible, h.success, h.allowedType, h.allowedOutcome⟩, hground, h.language, h.scope,
        h.scopePolicy⟩

/-! ## The contradictions -/

/-- An open hard contradiction of the project counts against the candidate. -/
def MemoryStores.Contradicts (s : MemoryStores) (projectId : String)
    (candidate : LearningCandidate) : Prop :=
  ∃ c ∈ s.contradictions.byId.values,
    s.concerns projectId c = true ∧ countsAgainst candidate c = true

/-- Another project has an open hard contradiction that names a precedent. -/
def MemoryStores.ContradictsElsewhere (s : MemoryStores) (projectId : String) : Prop :=
  ∃ c ∈ s.contradictions.byId.values, s.concerns projectId c = false ∧
    c.classification = .hardContradiction ∧ c.resolutionStatus = .open ∧ c.precedentIds ≠ []

/-- The contradictions of other projects decide whether the candidate is ready: no earlier check
does, none of its own project counts, and one state has such a contradiction where the other has
none. -/
structure Leaks (X : MemoryExternal) (projectId : String) (candidate : LearningCandidate)
    (policy : PrecedentPromotionPolicy) (s s' : MemoryStores) : Prop where
  undecided : Undecided X candidate policy s
  required : policy.requireNoUnresolvedContradictions = true
  own : ¬s.Contradicts projectId candidate
  elsewhere : ¬(s.ContradictsElsewhere projectId ↔ s'.ContradictsElsewhere projectId)

theorem assessContradictions_listOpen (s : MemoryStores) (projectId : String)
    (hcandidate : candidate ∈ s.candidates.listByProject projectId) :
    assessContradictions candidate policy s.contradictions.listOpen =
        some ⟨.contradicted, ["hard contradiction"],
          [⟨.contradicted, .blocking, "Unresolved hard contradiction"⟩]⟩ ∧
      policy.requireNoUnresolvedContradictions = true ∧
        (s.Contradicts projectId candidate ∨ s.ContradictsElsewhere projectId) ∨
    assessContradictions candidate policy s.contradictions.listOpen = none ∧
      ¬(policy.requireNoUnresolvedContradictions = true ∧
        (s.Contradicts projectId candidate ∨ s.ContradictsElsewhere projectId)) := by
  -- a contradiction that names the candidate is one of its project
  have hcounts : (0 < (s.contradictions.listOpen.filter (countsAgainst candidate)).length) ↔
      s.Contradicts projectId candidate ∨ s.ContradictsElsewhere projectId := by
    rw [List.length_filter_pos_iff]
    constructor
    · rintro ⟨c, hopen, hc⟩
      have hmem := (List.mem_filter.mp hopen).1
      by_cases hconcerns : s.concerns projectId c = true
      · exact Or.inl ⟨c, hmem, hconcerns, hc⟩
      · refine Or.inr ⟨c, hmem, Bool.not_eq_true _ ▸ hconcerns, ?_⟩
        unfold countsAgainst at hc
        simp only [Bool.and_eq_true, Bool.or_eq_true, decide_eq_true_eq] at hc
        refine ⟨hc.1.1, hc.1.2, ?_⟩
        rcases hc.2 with hnames | hlength
        · refine absurd ?_ hconcerns
          unfold MemoryStores.concerns
          rw [Bool.or_eq_true, List.any_eq_true (l := s.candidates.listByProject projectId)]
          exact Or.inl ⟨candidate, hcandidate, hnames⟩
        · exact List.ne_nil_of_length_pos hlength
    · intro h
      have hopen : ∀ c ∈ s.contradictions.byId.values, countsAgainst candidate c = true →
          ∃ c ∈ s.contradictions.listOpen, countsAgainst candidate c = true := by
        intro c hmem hc
        refine ⟨c, List.mem_filter.mpr ⟨hmem, ?_⟩, hc⟩
        unfold countsAgainst at hc
        simp only [Bool.and_eq_true] at hc
        exact hc.1.2
      rcases h with ⟨c, hmem, -, hc⟩ | ⟨c, hmem, -, hhard, hstatus, hids⟩
      · exact hopen c hmem hc
      · refine hopen c hmem ?_
        unfold countsAgainst
        simp [hhard, hstatus, List.length_pos_iff.mpr hids]
  rw [← hcounts]
  unfold assessContradictions
  simp only
  split_ifs with h
  · exact Or.inl ⟨rfl, h⟩
  · exact Or.inr ⟨rfl, h⟩

theorem assessRisk_ne_contradicted : (assessRisk candidate policy).status ≠ .contradicted := by
  unfold assessRisk
  split_ifs <;> simp

namespace AgreeOn

variable {projectId : String} {s s' : MemoryStores}

theorem earlierChecks_eq (h : AgreeOn projectId s s') :
    earlierChecks X candidate policy s = earlierChecks X candidate policy s' := by
  have hverification : s.loadVerification = s'.loadVerification := by
    funext run
    unfold MemoryStores.loadVerification
    rw [h.outcomes]
  unfold earlierChecks
  rw [h.historicalRuns, h.evidence, hverification]

theorem contradicts_iff (h : AgreeOn projectId s s') :
    s.Contradicts projectId candidate ↔ s'.Contradicts projectId candidate := by
  constructor
  · rintro ⟨c, hmem, hconcerns, hc⟩
    exact ⟨c, h.mem_contradictions hmem hconcerns, h.concerns_eq ▸ hconcerns, hc⟩
  · rintro ⟨c, hmem, hconcerns, hc⟩
    exact ⟨c, h.symm.mem_contradictions hmem hconcerns, h.symm.concerns_eq ▸ hconcerns, hc⟩

/-- The readiness is the same but where the contradictions of other projects decide. -/
theorem status_eq_iff (h : AgreeOn projectId s s')
    (hcandidate : candidate ∈ s.candidates.listByProject projectId) :
    (autoPromotionReadiness X candidate policy s).status =
        (autoPromotionReadiness X candidate policy s').status ↔
      ¬Leaks X projectId candidate policy s s' := by
  have hcandidate' : candidate ∈ s'.candidates.listByProject projectId := h.candidates ▸ hcandidate
  have hrisk : (assessRisk candidate policy).status ≠ .contradicted := assessRisk_ne_contradicted
  rw [autoPromotionReadiness_eq, autoPromotionReadiness_eq, ← h.earlierChecks_eq]
  cases hearlier : earlierChecks X candidate policy s with
  | some r =>
    simp only [Option.some_or, Option.getD_some, true_iff]
    intro hleak
    rw [earlierChecks_eq_none.mpr hleak.undecided] at hearlier
    cases hearlier
  | none =>
    have hundecided := earlierChecks_eq_none.mp hearlier
    have hleaks : Leaks X projectId candidate policy s s' ↔
        policy.requireNoUnresolvedContradictions = true ∧ ¬s.Contradicts projectId candidate ∧
          ¬(s.ContradictsElsewhere projectId ↔ s'.ContradictsElsewhere projectId) :=
      ⟨fun hl => ⟨hl.required, hl.own, hl.elsewhere⟩, fun hl => ⟨hundecided, hl.1, hl.2.1, hl.2.2⟩⟩
    rw [hleaks]
    have hown : s.Contradicts projectId candidate ↔ s'.Contradicts projectId candidate :=
      h.contradicts_iff
    rcases @assessContradictions_listOpen candidate policy s projectId hcandidate with
      ⟨hs, hin⟩ | ⟨hs, hin⟩ <;>
    rcases @assessContradictions_listOpen candidate policy s' projectId hcandidate' with
      ⟨hs', hin'⟩ | ⟨hs', hin'⟩ <;>
    simp only [hs, hs', Option.none_or, Option.getD_some, Option.getD_none]
    · tauto
    · simp only [hrisk.symm, false_iff]
      tauto
    · simp only [hrisk, false_iff]
      tauto
    · tauto

end AgreeOn

end

/-! ## Isolation -/

/-- Two states that agree on a project give its candidate the same readiness and its plans the same
precedents, exactly where the contradictions of other projects do not decide. -/
theorem project_isolation_iff (X : MemoryExternal) (projectId : String) (s s' : MemoryStores)
    (h : AgreeOn projectId s s') (candidate : LearningCandidate)
    (hcandidate : candidate ∈ s.candidates.listByProject projectId)
    (policy : PrecedentPromotionPolicy) :
    ((autoPromotionReadiness X candidate policy s).status =
        (autoPromotionReadiness X candidate policy s').status ∧
      ∀ (query : PrecedentRetrievalQuery) (budget : PrecedentRetrievalBudget),
        query.projectId = projectId →
          (retrieve X query budget s).precedents = (retrieve X query budget s').precedents) ↔
      ¬Leaks X projectId candidate policy s s' := by
  rw [← h.status_eq_iff hcandidate]
  constructor
  · exact fun hisolated => hisolated.1
  · intro hstatus
    refine ⟨hstatus, fun query budget hquery => ?_⟩
    rw [h.retrieve_eq X query hquery budget]

/-- Strings compared by code point, and the text itself for its hash. -/
def plainExternal : MemoryExternal := ⟨id, fun a b => decide (a ≤ b), id⟩

/-- A run that was verified to succeed. -/
def verifiedRun : HistoricalRunRecord where
  historicalRunRecordId := "hist_run_1"
  runId := "run_1"
  projectId := "a"
  outcome := .verifiedSuccess

/-- What is learned from it, but for the hash. -/
def successDraft : LearningCandidate :=
  let provenance : PrecedentProvenance := {
    sourceHistoricalRunRecordId := "hist_run_1"
    runId := "run_1"
    outcome := .verifiedSuccess
    provenanceHash := "" }
  { learningCandidateId := "learn_cand_1"
    sourceHistoricalRunRecordId := "hist_run_1"
    projectId := "a"
    candidateType := .successPattern
    origin := .deterministicExtraction
    claim := {
      candidateType := .successPattern
      observedOutcome := .verifiedSuccess
      polarity := .positive }
    grounding := grounded ["observedOutcome", "actionTypes", "capabilityIds"]
    statement := "It works."
    applicabilityProposal := { scopeClass := .projectLocal, projectIds := ["a"] }
    provenance := { provenance with provenanceHash := provenanceHash plainExternal provenance }
    sourceOutcome := .verifiedSuccess
    candidateHash := "" }

def successCandidate : LearningCandidate :=
  { successDraft with candidateHash := candidateHash plainExternal successDraft }

/-- The stores of a project that has learned from one run. -/
def quietStores : MemoryStores where
  historicalRuns := JsMap.empty.set "hist_run_1" verifiedRun
  outcomes := none
  evidence := none
  candidates := CandidateRepository.empty.set successCandidate
  precedents := PrecedentRepository.empty
  contradictions := ContradictionRepository.empty

/-- The same stores after a candidate of another project contradicted a precedent of that. -/
def noisyStores : MemoryStores := { quietStores with
  contradictions := ⟨JsMap.empty.set "contradiction_1" {
    contradictionId := "contradiction_1"
    precedentIds := ["precedent_b"]
    candidateIds := ["learn_cand_b"]
    classification := .hardContradiction
    resolutionStatus := .open }⟩ }

theorem agreeOn_noisyStores : AgreeOn "a" quietStores noisyStores where
  historicalRuns := rfl
  outcomes := rfl
  evidence := rfl
  candidates := rfl
  precedents := rfl
  contradictions := by decide

theorem mem_quietStores : successCandidate ∈ quietStores.candidates.listByProject "a" :=
  List.mem_singleton.mpr rfl

theorem earlierChecks_quietStores :
    earlierChecks plainExternal successCandidate defaultPromotionPolicy quietStores = none := by
  rw [earlierChecks_eq_none]
  exact {
    run := ⟨verifiedRun, rfl, rfl⟩
    provenance := provenanceHash_stored _ _ _
    hash := candidateHash_stored _ _ _
    evidence := fun ids hids => nomatch hids
    evidenceCount := le_refl 0
    eligible := by decide
    success := fun _ => rfl
    allowedType := by decide
    allowedOutcome := by decide
    grounded := by decide
    language := by decide
    scope := by decide
    scopePolicy := by decide }

/-- Where the policy does not ask for the absence of contradictions, what another project finds does
not show. -/
theorem project_isolation_iff_unasked :
    (autoPromotionReadiness plainExternal successCandidate
        { defaultPromotionPolicy with requireNoUnresolvedContradictions := false }
        quietStores).status =
      (autoPromotionReadiness plainExternal successCandidate
        { defaultPromotionPolicy with requireNoUnresolvedContradictions := false }
        noisyStores).status :=
  ((project_isolation_iff plainExternal "a" quietStores noisyStores agreeOn_noisyStores
    successCandidate mem_quietStores _).mpr fun hleak => absurd hleak.required (by decide)).1

/-- A contradiction within another project keeps a candidate from being promoted. -/
theorem project_isolation_broken :
    AgreeOn "a" quietStores noisyStores ∧
      successCandidate ∈ quietStores.candidates.listByProject "a" ∧
      (autoPromotionReadiness plainExternal successCandidate defaultPromotionPolicy
        quietStores).status = .readyForAutoPromotion ∧
      (autoPromotionReadiness plainExternal successCandidate defaultPromotionPolicy
        noisyStores).status = .contradicted := by
  refine ⟨agreeOn_noisyStores, mem_quietStores, ?_, ?_⟩
  · rw [autoPromotionReadiness_eq, earlierChecks_quietStores]
    decide
  · rw [autoPromotionReadiness_eq, ← agreeOn_noisyStores.earlierChecks_eq,
      earlierChecks_quietStores]
    decide

end Orchestrator.Memory
