import Orchestrator.Atomic.Guarded
import Orchestrator.Memory.VersionLifecycle

/-!
# Agreement of candidates and precedents

What calls that promote and reject at the same time keep of the candidates and their precedents.

* `Agreement`: what is to hold when no call is in progress;
* `Grows`: what no call and nothing else takes back;
* `Agreeing`: what holds between any two writes, with the promotions that still owe their candidate
  its status;
* `Agreeing.extend`, `Agreeing.withStatus`, `Agreeing.appended`: the writes.
-/

namespace Orchestrator.Memory

open Atomic Collections

/-! ## Groundings -/

/-- The claim is borne out, or to be judged by a reviewer. -/
def ClaimGroundingVerdict.IsSufficient (v : ClaimGroundingVerdict) : Prop :=
  v ≠ .ungrounded ∧ v ≠ .partiallyGrounded

/-- The grounding of a candidate, as it is computed again. -/
def MemoryStores.liveGrounding (s : MemoryStores) (c : LearningCandidate) : ClaimGroundingResult :=
  let historicalRun := s.historicalRuns.get c.sourceHistoricalRunRecordId
  ground c.claim historicalRun (s.loadVerification historicalRun) none

theorem isSubset_nil {claimed : List String} (h : claimed ≠ []) : isSubset claimed [] = false := by
  cases claimed with
  | nil => exact absurd rfl h
  | cons x xs => rfl

/-- A check that passes without a verification has nothing to look up in one. -/
theorem eq_nil_of_isSubset_nil {claimed : List String}
    (h : ¬(claimed ≠ [] ∧ ¬isSubset claimed [] = true)) : claimed = [] := by
  by_contra hne
  exact h ⟨hne, by rw [isSubset_nil hne]; decide⟩

section

variable {claim : LearningClaim} {matched : List String}

theorem groundFailure_mono {run : HistoricalRunRecord} (v : OutcomeVerificationRecord)
    (h : (groundFailure claim run none matched).verdict ≠ .ungrounded) :
    groundFailure claim run (some v) matched = groundFailure claim run none matched := by
  unfold groundFailure at h ⊢
  by_cases houtcome : run.outcome ∉ [.partialSuccess, .verificationFailed, .contained, .blocked,
      .rejected, .expired, .escalated]
  · rw [if_pos houtcome] at h
    exact absurd rfl h
  rw [if_neg houtcome] at h
  split at h
  · exact absurd rfl h
  · next hfindings =>
    split at h
    · exact absurd rfl h
    · next hcriteria =>
      have hfindings' : claim.findingIds = [] := eq_nil_of_isSubset_nil hfindings
      have hcriteria' : claim.criterionIds = [] := eq_nil_of_isSubset_nil hcriteria
      rw [if_neg houtcome, if_neg houtcome, if_neg fun hf => hf.1 hfindings',
        if_neg fun hc => hc.1 hcriteria', if_neg hfindings, if_neg hcriteria]

theorem groundEvidenceGap_mono {run : HistoricalRunRecord} (v : OutcomeVerificationRecord)
    (h : (groundEvidenceGap claim run none matched).verdict ≠ .ungrounded) :
    groundEvidenceGap claim run (some v) matched = groundEvidenceGap claim run none matched := by
  unfold groundEvidenceGap at h ⊢
  by_cases houtcome : run.outcome ≠ .inconclusive
  · rw [if_pos houtcome] at h
    exact absurd rfl h
  rw [if_neg houtcome] at h
  split at h
  · exact absurd rfl h
  · next hcriteria =>
    have hcriteria' : claim.criterionIds = [] := eq_nil_of_isSubset_nil hcriteria
    rw [if_neg houtcome, if_neg houtcome, if_neg fun hc => hc.1 hcriteria', if_neg hcriteria]

/-- A claim that is grounded without a verification is so with one. -/
theorem ground_mono {run : Option HistoricalRunRecord}
    {ledger : Option (List (String × ObservedValue))} (v : OutcomeVerificationRecord)
    (h : (ground claim run none ledger).verdict ≠ .ungrounded) :
    ground claim run (some v) ledger = ground claim run none ledger := by
  cases run with
  | none => exact absurd rfl h
  | some run =>
    unfold ground at h ⊢
    simp only at h ⊢
    generalize (["observedOutcome", "actionTypes", "capabilityIds"] ++
      if claim.planHash ≠ none then ["planHash"] else []) = facts at h ⊢
    split_ifs at h ⊢
    all_goals first
      | exact absurd rfl h
      | skip
    -- failures, verifications and gaps of evidence look at the verification
    cases htype : claim.candidateType <;> simp only [htype] at h ⊢
    · exact groundFailure_mono v h
    · exact absurd rfl h
    · exact groundEvidenceGap_mono v h

end

/-! ## Records -/

theorem CandidateRepository.mem_values {r : CandidateRepository} {c : LearningCandidate} :
    c ∈ r.byId.values ↔ r.byId.get c.learningCandidateId = some c := by
  rw [JsMap.mem_values]
  constructor
  · rintro ⟨id, hget⟩
    rw [← r.keyed id c hget]
    exact hget
  · exact fun hget => ⟨_, hget⟩

theorem PrecedentRepository.mem_values {r : PrecedentRepository} {p : PromotedPrecedent} :
    p ∈ r.byKey.values ↔ r.getVersion p.precedentId p.version = some p := by
  rw [JsMap.mem_values]
  constructor
  · rintro ⟨key, hget⟩
    unfold PrecedentRepository.getVersion
    rw [← r.keyed key p hget]
    exact hget
  · exact fun hget => ⟨_, hget⟩

/-- An active precedent is listed in its project. -/
theorem PrecedentRepository.Kept.mem_listByProject {r : PrecedentRepository}
    {retired : Set String} (hr : r.Kept retired) {p : PromotedPrecedent}
    (hp : p ∈ r.byKey.values) (hactive : p.status = .active) : p ∈ r.listByProject p.projectId := by
  have hlatest := hr.latest_of_ne (mem_values.mp hp) (by rw [hactive]; decide)
  have hkey : p.precedentId ∈ r.versionsById.keys := by
    rw [JsMap.mem_keys, Option.isSome_iff_ne_none]
    intro hnone
    unfold getLatestVersion versions at hlatest
    rw [hnone] at hlatest
    cases hlatest
  exact List.mem_filter.mpr ⟨List.mem_filterMap.mpr ⟨_, hkey, hlatest⟩, decide_eq_true rfl⟩

theorem PrecedentRepository.mem_append {r r' : PrecedentRepository} {p q : PromotedPrecedent}
    (happend : r.append p = .ok r') : q ∈ r'.byKey.values ↔ q = p ∨ q ∈ r.byKey.values := by
  unfold PrecedentRepository.append at happend
  split at happend
  · cases happend
  split at happend
  · cases happend
  · next hhas =>
    cases happend
    have hnew : r.byKey.get (precedentKey p.precedentId p.version) = none := by
      rw [JsMap.has, Option.not_isSome_iff_eq_none] at hhas
      exact hhas
    simp only [JsMap.mem_values, JsMap.get_set]
    constructor
    · rintro ⟨key, hget⟩
      split at hget
      · exact Or.inl (Option.some.inj hget).symm
      · exact Or.inr ⟨key, hget⟩
    · rintro (rfl | ⟨key, hget⟩)
      · exact ⟨_, if_pos rfl⟩
      · refine ⟨key, ?_⟩
        rw [if_neg]
        · exact hget
        · intro hkey
          rw [← hkey, hnew] at hget
          cases hget

/-! ## Agreement -/

/-- The precedent comes from a stored candidate whose grounding, as it was stored and as it is
computed again, is sufficient. -/
def IsFounded (s : MemoryStores) (p : PromotedPrecedent) : Prop :=
  ∃ c ∈ s.candidates.byId.values, p.candidateId = c.learningCandidateId ∧
    p.candidateHash = c.candidateHash ∧ p.projectId = c.projectId ∧ p.claim = c.claim ∧
    c.grounding.verdict.IsSufficient ∧ (s.liveGrounding c).verdict.IsSufficient

/-- A candidate and its hash have one active precedent at most. -/
def OneActive (r : PrecedentRepository) : Prop :=
  ∀ p ∈ r.byKey.values, ∀ q ∈ r.byKey.values, p.status = .active → q.status = .active →
    p.candidateId = q.candidateId → p.candidateHash = q.candidateHash → p = q

/-- A promoted candidate has a precedent. -/
def PromotedHave (s : MemoryStores) : Prop :=
  ∀ c ∈ s.candidates.byId.values, c.status = .promoted →
    ∃ p ∈ s.precedents.byKey.values, p.candidateId = c.learningCandidateId

/-- The candidates and the precedents agree. -/
structure Agreement (s : MemoryStores) : Prop where
  oneActive : OneActive s.precedents
  rejected : ∀ c ∈ s.candidates.byId.values, c.status = .rejected →
    ∀ p ∈ s.precedents.byKey.values, p.candidateId = c.learningCandidateId → p.status ≠ .active
  promoted : PromotedHave s
  founded : ∀ p ∈ s.precedents.byKey.values, IsFounded s p

/-! ## What is not taken back -/

/-- What neither a promotion nor a rejection takes back: candidates but for their status,
precedents, runs and their verifications. -/
structure Grows (w w' : MemoryWorld) : Prop where
  candidates : ∀ id c, w.stores.candidates.byId.get id = some c →
    ∃ status, w'.stores.candidates.byId.get id = some { c with status := status }
  precedents : ∀ p ∈ w.stores.precedents.byKey.values, p ∈ w'.stores.precedents.byKey.values
  runs : ∀ id run, w.stores.historicalRuns.get id = some run →
    w'.stores.historicalRuns.get id = some run
  outcomes : ∀ id v, w.stores.outcomes.bind (JsMap.get · id) = some v →
    w'.stores.outcomes.bind (JsMap.get · id) = some v

namespace Grows

variable {w w' w'' : MemoryWorld}

theorem refl (w : MemoryWorld) : Grows w w where
  candidates _ c hc := ⟨c.status, hc⟩
  precedents _ hp := hp
  runs _ _ hrun := hrun
  outcomes _ _ hv := hv

theorem trans (h : Grows w w') (h' : Grows w' w'') : Grows w w'' where
  candidates id c hc := by
    obtain ⟨status, hstatus⟩ := h.candidates id c hc
    obtain ⟨status', hstatus'⟩ := h'.candidates id _ hstatus
    exact ⟨status', hstatus'⟩
  precedents p hp := h'.precedents p (h.precedents p hp)
  runs id run hrun := h'.runs id run (h.runs id run hrun)
  outcomes id v hv := h'.outcomes id v (h.outcomes id v hv)

/-- A run whose verification is read later has it still. -/
theorem loadVerification (h : Grows w w') {run : HistoricalRunRecord}
    {v : OutcomeVerificationRecord} (hv : w.stores.loadVerification (some run) = some v) :
    w'.stores.loadVerification (some run) = some v := by
  unfold MemoryStores.loadVerification at hv ⊢
  cases hid : run.outcomeVerificationId with
  | none =>
    simp only [hid, bind, Option.bind] at hv
    cases hv
  | some id =>
    simp only [hid, bind, Option.bind] at hv ⊢
    exact h.outcomes id v hv

/-- What is sufficiently grounded stays so. -/
theorem liveGrounding (h : Grows w w') {c : LearningCandidate}
    (hc : (w.stores.liveGrounding c).verdict.IsSufficient) :
    (w'.stores.liveGrounding c).verdict.IsSufficient := by
  unfold MemoryStores.liveGrounding at hc ⊢
  cases hrun : w.stores.historicalRuns.get c.sourceHistoricalRunRecordId with
  | none =>
    rw [hrun] at hc
    exact absurd rfl hc.1
  | some run =>
    simp only [hrun, h.runs _ run hrun] at hc ⊢
    cases hv : w.stores.loadVerification (some run) with
    | some v =>
      rw [hv] at hc
      rw [h.loadVerification hv]
      exact hc
    | none =>
      rw [hv] at hc
      cases hv' : w'.stores.loadVerification (some run) with
      | none => exact hc
      | some v =>
        rw [ground_mono v hc.1]
        exact hc

theorem isFounded (h : Grows w w') {p : PromotedPrecedent} (hp : IsFounded w.stores p) :
    IsFounded w'.stores p := by
  obtain ⟨c, hmem, hid, hhash, hproject, hclaim, hstored, hlive⟩ := hp
  obtain ⟨status, hstatus⟩ := h.candidates _ c (CandidateRepository.mem_values.mp hmem)
  refine ⟨{ c with status := status }, CandidateRepository.mem_values.mpr hstatus, hid, hhash,
    hproject, hclaim, hstored, ?_⟩
  exact h.liveGrounding (c := c) hlive

end Grows

/-- A write that touches no precedent, and no candidate but new ones. -/
structure Extends (w w' : MemoryWorld) : Prop where
  grows : Grows w w'
  precedents : w'.stores.precedents = w.stores.precedents
  candidates : ∀ c ∈ w'.stores.candidates.byId.values,
    c ∈ w.stores.candidates.byId.values ∨ c.status = .candidate

/-- A write that touches neither candidates nor precedents. -/
theorem Extends.of_eq {w w' : MemoryWorld}
    (hcandidates : w'.stores.candidates = w.stores.candidates)
    (hprecedents : w'.stores.precedents = w.stores.precedents)
    (hruns : ∀ id run, w.stores.historicalRuns.get id = some run →
      w'.stores.historicalRuns.get id = some run)
    (houtcomes : ∀ id v, w.stores.outcomes.bind (JsMap.get · id) = some v →
      w'.stores.outcomes.bind (JsMap.get · id) = some v) : Extends w w' where
  grows := {
    candidates := fun _ c hc => ⟨c.status, by rw [hcandidates]; exact hc⟩
    precedents := fun _ hp => by rw [hprecedents]; exact hp
    runs := hruns
    outcomes := houtcomes }
  precedents := hprecedents
  candidates c hc := Or.inl (by rw [hcandidates] at hc; exact hc)

/-! ## Between two writes -/

/-- What holds between any two writes, where a promotion that has stored a precedent owes its
candidate the status. -/
structure Agreeing {ι : Type} (w : MemoryWorld) (owes : ι → Option String) : Prop where
  kept : w.stores.precedents.Kept ∅
  oneActive : OneActive w.stores.precedents
  rejected : ∀ c ∈ w.stores.candidates.byId.values, c.status = .rejected →
    ∀ p ∈ w.stores.precedents.byKey.values, p.candidateId = c.learningCandidateId →
      p.status = .active → ∃ i, owes i = some c.learningCandidateId
  promoted : PromotedHave w.stores
  founded : ∀ p ∈ w.stores.precedents.byKey.values, IsFounded w.stores p

namespace Agreeing

variable {ι : Type} {w w' : MemoryWorld} {owes owes' : ι → Option String}

theorem initial (identities : MemoryIdentities)
    (outcomes : Option (JsMap String OutcomeVerificationRecord)) (evidence : Option (List String)) :
    Agreeing (MemoryWorld.initial identities outcomes evidence) owes where
  kept := PrecedentRepository.Kept.empty
  oneActive _ hp := nomatch hp
  rejected _ hc := nomatch hc
  promoted _ hc := nomatch hc
  founded _ hp := nomatch hp

theorem agreement (h : Agreeing w owes) (howes : ∀ i, owes i = none) : Agreement w.stores where
  oneActive := h.oneActive
  rejected c hc hstatus p hp hid hactive := by
    obtain ⟨i, hi⟩ := h.rejected c hc hstatus p hp hid hactive
    rw [howes i] at hi
    cases hi
  promoted := h.promoted
  founded := h.founded

theorem extend (h : Agreeing w owes) (he : Extends w w') : Agreeing w' owes where
  kept := he.precedents ▸ h.kept
  oneActive := he.precedents ▸ h.oneActive
  rejected c hc hstatus := by
    rw [he.precedents]
    rcases he.candidates c hc with hc | hnew
    · exact h.rejected c hc hstatus
    · rw [hnew] at hstatus
      cases hstatus
  promoted c hc hstatus := by
    rw [he.precedents]
    rcases he.candidates c hc with hc | hnew
    · exact h.promoted c hc hstatus
    · rw [hnew] at hstatus
      cases hstatus
  founded p hp := he.grows.isFounded (h.founded p (he.precedents ▸ hp))

end Agreeing

/-! ## The writes of a promotion -/

section

variable {ι : Type} {w : MemoryWorld} {owes owes' : ι → Option String}

theorem mem_withStatus {r : CandidateRepository} {existing c : LearningCandidate}
    {status : LearningCandidateStatus}
    (hc : c ∈ (r.withStatus existing status).byId.values) :
    c = { existing with status := status } ∨
      c ∈ r.byId.values ∧ c.learningCandidateId ≠ existing.learningCandidateId := by
  rw [CandidateRepository.mem_values] at hc
  unfold CandidateRepository.withStatus at hc
  simp only [JsMap.get_set] at hc
  split at hc
  · exact Or.inl (Option.some.inj hc).symm
  · next hne => exact Or.inr ⟨CandidateRepository.mem_values.mpr hc, fun heq => hne heq.symm⟩

theorem grows_withStatus {id : String} {existing : LearningCandidate}
    (hexisting : w.stores.candidates.byId.get id = some existing)
    (status : LearningCandidateStatus) :
    Grows w (w.withCandidates (w.stores.candidates.withStatus existing status)) where
  candidates id' c hc := by
    have hid := w.stores.candidates.keyed id existing hexisting
    by_cases heq : existing.learningCandidateId = id'
    · have hsame : c = existing := by
        rw [← heq, ← hid, hexisting] at hc
        exact (Option.some.inj hc).symm
      refine ⟨status, ?_⟩
      show (w.stores.candidates.byId.set _ _).get id' = _
      rw [JsMap.get_set, if_pos heq, hsame]
    · refine ⟨c.status, ?_⟩
      show (w.stores.candidates.byId.set _ _).get id' = _
      rw [JsMap.get_set, if_neg heq]
      exact hc
  precedents _ hp := hp
  runs _ _ hrun := hrun
  outcomes _ _ hv := hv

/-- A candidate is rejected that has no active precedent, or promoted that has some. -/
theorem Agreeing.withStatus (h : Agreeing w owes) {id : String} {existing : LearningCandidate}
    (hexisting : w.stores.candidates.byId.get id = some existing) {status : LearningCandidateStatus}
    (hrejected : status = .rejected →
      ∀ p ∈ w.stores.precedents.byKey.values, p.candidateId = id → p.status ≠ .active)
    (hpromoted : status = .promoted → ∃ p ∈ w.stores.precedents.byKey.values, p.candidateId = id)
    (howes : ∀ i id', id' ≠ id → owes i = some id' → owes' i = some id') :
    Agreeing (w.withCandidates (w.stores.candidates.withStatus existing status)) owes' where
  kept := h.kept
  oneActive := h.oneActive
  rejected c hc hstatus p hp hpid hactive := by
    have hid := w.stores.candidates.keyed id existing hexisting
    rcases mem_withStatus hc with rfl | ⟨hc, hne⟩
    · exact absurd hactive (hrejected hstatus p hp (hpid.trans hid.symm))
    · obtain ⟨i, hi⟩ := h.rejected c hc hstatus p hp hpid hactive
      exact ⟨i, howes i _ (hid ▸ hne) hi⟩
  promoted c hc hstatus := by
    have hid := w.stores.candidates.keyed id existing hexisting
    rcases mem_withStatus hc with rfl | ⟨hc, -⟩
    · obtain ⟨p, hp, hpid⟩ := hpromoted hstatus
      exact ⟨p, hp, hpid.trans hid⟩
    · exact h.promoted c hc hstatus
  founded p hp := (grows_withStatus hexisting status).isFounded (h.founded p hp)

theorem grows_append {p : PromotedPrecedent} {r : PrecedentRepository}
    (happend : w.stores.precedents.append p = .ok r) : Grows w (w.withPrecedents r) where
  candidates _ c hc := ⟨c.status, hc⟩
  precedents _ hq := (PrecedentRepository.mem_append happend).mpr (Or.inr hq)
  runs _ _ hrun := hrun
  outcomes _ _ hv := hv

/-- A candidate gets its first active precedent, and is owed its status. -/
theorem Agreeing.appended (h : Agreeing w owes) {p : PromotedPrecedent} {r : PrecedentRepository}
    (happend : w.stores.precedents.append p = .ok r) (hversion : p.version = 1)
    (hfounded : IsFounded w.stores p)
    (hnone : ∀ q ∈ w.stores.precedents.byKey.values, q.candidateId = p.candidateId →
      q.candidateHash = p.candidateHash → q.status ≠ .active)
    (howed : ∃ i, owes' i = some p.candidateId)
    (howes : ∀ i id, owes i = some id → owes' i = some id) :
    Agreeing (w.withPrecedents r) owes' where
  kept := h.kept.appendFirst hversion happend
  oneActive q hq q' hq' hactive hactive' hid hhash := by
    rcases (PrecedentRepository.mem_append happend).mp hq with rfl | hq <;>
      rcases (PrecedentRepository.mem_append happend).mp hq' with rfl | hq'
    · rfl
    · exact absurd hactive' (hnone q' hq' hid.symm hhash.symm)
    · exact absurd hactive (hnone q hq hid hhash)
    · exact h.oneActive q hq q' hq' hactive hactive' hid hhash
  rejected c hc hstatus q hq hid hactive := by
    rcases (PrecedentRepository.mem_append happend).mp hq with rfl | hq
    · rw [← hid]
      exact howed
    · obtain ⟨i, hi⟩ := h.rejected c hc hstatus q hq hid hactive
      exact ⟨i, howes i _ hi⟩
  promoted c hc hstatus := by
    obtain ⟨q, hq, hid⟩ := h.promoted c hc hstatus
    exact ⟨q, (PrecedentRepository.mem_append happend).mpr (Or.inr hq), hid⟩
  founded q hq := by
    refine (grows_append happend).isFounded ?_
    rcases (PrecedentRepository.mem_append happend).mp hq with rfl | hq
    · exact hfounded
    · exact h.founded q hq

end

end Orchestrator.Memory
