import Orchestrator.Memory.Readiness

/-!
# The retrieval of precedents

The precedents a project is advised with: filtered by what they apply to, ranked, and cut to a
budget.

* `integrityReasons`: why a precedent is not trusted;
* `matchesApplicability`, `score`: the filter and the rank;
* `retrieve`: the retrieval.
-/

namespace Orchestrator.Memory

open Collections

/-! ## Integrity -/

/-- The reasons `PrecedentIntegrityService.check` finds; a precedent without any is trusted. -/
def integrityReasons (X : MemoryExternal) (historicalRuns : JsMap String HistoricalRunRecord)
    (p : PromotedPrecedent) : List String :=
  (if precedentHash X p ≠ p.precedentHash then ["precedent hash mismatch"] else []) ++
  (if provenanceHash X p.provenance ≠ p.provenance.provenanceHash then
    ["provenance hash mismatch"] else []) ++
  (match historicalRuns.get p.provenance.sourceHistoricalRunRecordId with
    | none => ["missing source historical run"]
    | some run => if run.outcome ≠ p.sourceOutcome then ["source outcome mismatch"] else []) ++
  (if p.status ≠ .active then ["status " ++ p.status.text ++ " not ACTIVE"] else []) ++
  (if p.promotionMethod = .autoPromote ∧ p.origin ≠ .deterministicExtraction then
    ["AUTO promotion from MODEL_SUGGESTION is invalid without deterministic reconstruction"]
    else []) ++
  (if p.promotionMethod = .autoPromote ∧ ¬isAutoPromotableGrounding p.grounding.verdict then
    ["AUTO promotion requires DETERMINISTICALLY_GROUNDED claim"] else []) ++
  (if p.promotionMethod = .humanReview ∧ (isNeverPromotableGrounding p.grounding.verdict ∨
      ¬isHumanPromotableGrounding p.grounding.verdict) then
    ["HUMAN_REVIEWED cannot rest on an UNGROUNDED or otherwise unpromotable claim"] else []) ++
  (if p.trustClass = .humanReviewed ∧ isNeverPromotableGrounding p.grounding.verdict then
    ["HUMAN_REVIEWED trust class cannot describe an UNGROUNDED claim"] else []) ++
  (if p.claim.candidateType ≠ p.candidateType then
    ["structured claim type does not match candidateType"] else []) ++
  (if (Collections.codeUnits p.candidateHash).length < 16 then ["missing candidateHash"] else [])

/-! ## Queries -/

/-- `PrecedentRetrievalQuery`; an empty environment or objective text counts as a missing one. -/
structure PrecedentRetrievalQuery where
  projectId : String
  environment : Option String := none
  actionTypes : Option (List String) := none
  capabilityIds : Option (List String) := none
  objectiveText : Option String := none
  currentRepositoryFingerprint : Option String := none

structure PrecedentRetrievalBudget where
  maximumPrecedentsPerPlanningRun : ℚ
  maximumPrecedentCharacters : ℚ
  maximumPrecedentEvidenceRefs : ℚ

/-- `DEFAULT_RETRIEVAL_BUDGET`. -/
def defaultRetrievalBudget : PrecedentRetrievalBudget := ⟨8, 12000, 32⟩

/-- A text that is truthy. -/
def truthy (text : Option String) : Option String := text.filter (· ≠ "")

/-- No overlap between what is asked for and what a precedent is for, where both name something. -/
def disjoint (asked : Option (List String)) (named : List String) : Bool :=
  (asked.getD []).length ≠ 0 && named.length ≠ 0 && !(asked.getD []).any named.contains

def matchesApplicability (p : PromotedPrecedent) (query : PrecedentRetrievalQuery) : Bool :=
  let app := p.applicability
  app.projectIds.contains query.projectId &&
    !disjoint ((truthy query.environment).map fun e => [e]) app.environments &&
    !disjoint query.actionTypes app.actionTypes &&
    !disjoint query.capabilityIds app.capabilityIds

/-- `[a-z0-9]`. -/
def isTermChar (c : Char) : Bool := ('a' ≤ c && c ≤ 'z') || ('0' ≤ c && c ≤ '9')

/-- The terms of a text that are looked for. -/
def terms (X : MemoryExternal) (text : String) : List (List Char) :=
  ((X.toLowerCase text).toList.splitOnP (!isTermChar ·)).filter fun t => 4 ≤ t.length

/-- `text.includes(term)`. -/
def includesTerm (text term : List Char) : Bool := text.tails.any term.isPrefixOf

def score (X : MemoryExternal) (p : PromotedPrecedent) (query : PrecedentRetrievalQuery) : ℕ :=
  let app := p.applicability
  let statement := (X.toLowerCase p.statement).toList
  3 * ((query.actionTypes.getD []).filter app.actionTypes.contains).length +
    3 * ((query.capabilityIds.getD []).filter app.capabilityIds.contains).length +
    (if (truthy query.environment).any app.environments.contains then 2 else 0) +
    (match truthy query.objectiveText with
      | some text => ((terms X text).filter (includesTerm statement)).length
      | none => 0) +
    (if p.candidateType = .failurePattern then 1 else 0) +
    (if p.candidateType = .containmentPattern then 1 else 0) +
    (if p.trustClass = .multiRunCorroborated then 2 else 0) +
    (if p.trustClass = .humanReviewed then 1 else 0)

/-- The order of the ranking: by score, then by id, then by version. -/
def RanksUpTo (X : MemoryExternal) (query : PrecedentRetrievalQuery) (a b : PromotedPrecedent) :
    Prop :=
  score X b query < score X a query ∨ score X b query = score X a query ∧
    (X.localeLe b.precedentId a.precedentId = false ∨
      X.localeLe a.precedentId b.precedentId = true ∧ a.version ≤ b.version)

instance (X : MemoryExternal) (query : PrecedentRetrievalQuery) :
    DecidableRel (RanksUpTo X query) := fun a b => by
  unfold RanksUpTo
  infer_instance

/-! ## Retrieval -/

/-- The provenance that advice shows. -/
structure ProvenanceSummary where
  sourceHistoricalRunRecordId : String
  runId : String
  outcome : HistoricalOutcome
  provenanceHash : String
  deriving DecidableEq

structure RetrievedPrecedentContext where
  precedentId : String
  precedentVersion : ℕ
  precedentHash : String
  origin : CandidateOrigin
  claim : LearningClaim
  statement : String
  candidateType : LearningCandidateType
  applicability : PrecedentApplicability
  trustClass : PrecedentTrustClass
  sourceOutcome : HistoricalOutcome
  relevanceScore : ℕ
  provenanceSummary : ProvenanceSummary
  contradictionWarning : Option String
  deriving DecidableEq

structure PrecedentRetrievalResult where
  precedents : List RetrievedPrecedentContext
  retrievalContextFingerprint : String
  excludedPrecedentIds : List String
  deriving DecidableEq

section

variable (X : MemoryExternal) (query : PrecedentRetrievalQuery)

/-- What is shown of a precedent that is selected. -/
def retrievedContext (contradictions : ContradictionRepository) (p : PromotedPrecedent) :
    RetrievedPrecedentContext where
  precedentId := p.precedentId
  precedentVersion := p.version
  precedentHash := p.precedentHash
  origin := p.origin
  claim := p.claim
  statement := p.statement
  candidateType := p.candidateType
  applicability := p.applicability
  trustClass := p.trustClass
  sourceOutcome := p.sourceOutcome
  relevanceScore := score X p query
  provenanceSummary := {
    sourceHistoricalRunRecordId := p.provenance.sourceHistoricalRunRecordId
    runId := p.provenance.runId
    outcome := p.provenance.outcome
    provenanceHash := p.provenance.provenanceHash }
  contradictionWarning :=
    ((contradictions.listForPrecedent p.precedentId).find? fun c =>
      c.classification = .hardContradiction && c.resolutionStatus = .open).map fun c =>
        "Open hard contradiction " ++ c.contradictionId

/-- What is selected and excluded so far, and how much of the budget it takes. -/
structure Selection where
  selected : List PromotedPrecedent := []
  excluded : List String := []
  usedChars : ℕ := 0
  usedEvidenceRefs : ℕ := 0

/-- One turn of the loop over the ranked precedents. -/
def select (budget : PrecedentRetrievalBudget) (sel : Selection) (p : PromotedPrecedent) :
    Selection :=
  let chars := (Collections.codeUnits p.statement).length
  let evidenceCount := p.provenance.supportingEvidenceRefs.length
  if budget.maximumPrecedentsPerPlanningRun ≤ sel.selected.length ∨
      budget.maximumPrecedentCharacters < sel.usedChars + chars ∨
      budget.maximumPrecedentEvidenceRefs < sel.usedEvidenceRefs + evidenceCount then
    { sel with excluded := sel.excluded ++ [p.precedentId] }
  else
    { sel with
      selected := sel.selected ++ [p]
      usedChars := sel.usedChars + chars
      usedEvidenceRefs := sel.usedEvidenceRefs + evidenceCount }

/-- Only ranked precedents are selected. -/
theorem mem_selected {budget : PrecedentRetrievalBudget} {p : PromotedPrecedent}
    (ranked : List PromotedPrecedent) : ∀ sel : Selection,
      p ∈ (ranked.foldl (select budget) sel).selected → p ∈ sel.selected ∨ p ∈ ranked := by
  induction ranked with
  | nil => exact fun sel h => Or.inl h
  | cons q ranked ih =>
    intro sel h
    rw [List.foldl_cons] at h
    rcases ih _ h with h | h
    · unfold select at h
      simp only at h
      split at h
      · exact Or.inl h
      · rcases List.mem_append.mp h with h | h
        · exact Or.inl h
        · exact Or.inr (List.mem_cons.mpr (Or.inl (List.mem_singleton.mp h)))
    · exact Or.inr (List.mem_cons_of_mem q h)

/-- The fingerprint of what was asked and of what is shown. -/
def retrievalContextFingerprint (selected : List RetrievedPrecedentContext) : String :=
  X.hashCanonical [
    ("projectId", .string query.projectId),
    ("environment", stringOrNull query.environment),
    ("actionTypes", sortedValues (query.actionTypes.getD [])),
    ("capabilityIds", sortedValues (query.capabilityIds.getD [])),
    ("currentRepositoryFingerprint", stringOrNull query.currentRepositoryFingerprint),
    ("selected", .array (selected.map fun p => .object [
      ("precedentId", .string p.precedentId),
      ("version", versionNumber p.precedentVersion),
      ("precedentHash", .string p.precedentHash)]))]

/-- `PrecedentRetriever.retrieve`. What it writes to the ledger is left out. -/
def retrieve (budget : PrecedentRetrievalBudget) (s : MemoryStores) : PrecedentRetrievalResult :=
  let active := s.precedents.listActiveByProject query.projectId
  let applies := fun p =>
    (integrityReasons X s.historicalRuns p).isEmpty && matchesApplicability p query
  let ranked := (active.filter applies).insertionSort (RanksUpTo X query)
  let excluded := (active.filter fun p => !applies p).map (·.precedentId)
  let selection := ranked.foldl (select budget) { excluded := excluded }
  let selected := (selection.selected.map (retrievedContext X query s.contradictions)).insertionSort
    fun a b => X.localeLe a.precedentId b.precedentId
  { precedents := selected
    retrievalContextFingerprint := retrievalContextFingerprint X query selected
    excludedPrecedentIds := selection.excluded.insertionSort fun a b => X.localeLe a b }

end

end Orchestrator.Memory
