import Orchestrator.Collections.Json
import Orchestrator.Memory.Grounding

/-!
# The stores of the memory

The in-memory repositories of candidates, precedents and contradictions.

* `CandidateRepository`, `PrecedentRepository`, `ContradictionRepository`: the repositories;
* `PrecedentRepository.getLatestVersion`: the record that stands for a precedent;
* `MemoryStores`: what the memory reads.
-/

namespace Orchestrator.Memory

open Collections

/-! ## Errors -/

/-- The codes of a `MemoryError`, and the failure of a schema. -/
inductive MemoryError where
  | candidateNotFound
  | precedentNotFound
  | historicalRunConflict
  | learningPersistenceFailed
  | promotionGroundingInsufficient
  | promotionNotEligible
  | invalidPromotionDecision
  | invalidRecord
  deriving DecidableEq, Repr

/-! ## Schemas -/

/-- `z.string().min(1).optional()`. -/
def isMissingOrText (text : Option String) : Bool := text ≠ some ""

/-- `PrecedentProvenanceSchema`. -/
def PrecedentProvenance.isValid (p : PrecedentProvenance) : Bool :=
  p.sourceHistoricalRunRecordId ≠ "" && p.runId ≠ "" && isMissingOrText p.planHash &&
    isMissingOrText p.outcomeVerificationId && isMissingOrText p.repositoryFingerprint &&
    isMissingOrText p.policyBundleHash && isMissingOrText p.capabilitySetFingerprint &&
    p.provenanceHash ≠ ""

/-- `LearningClaimSchema`. -/
def LearningClaim.isValid (c : LearningClaim) : Bool :=
  isMissingOrText c.planHash && isMissingOrText c.containmentReason

/-- `PrecedentApplicabilitySchema`. -/
def PrecedentApplicability.isValid (a : PrecedentApplicability) : Bool :=
  a.projectIds ≠ [] && !a.projectIds.contains ""

/-- `LearningCandidateSchema`. -/
def LearningCandidate.isValid (c : LearningCandidate) : Bool :=
  c.learningCandidateId ≠ "" && c.sourceHistoricalRunRecordId ≠ "" && c.projectId ≠ "" &&
    c.claim.isValid && c.statement ≠ "" && c.applicabilityProposal.isValid &&
    c.provenance.isValid && c.candidateHash ≠ ""

/-- `PromotedPrecedentSchema`. -/
def PromotedPrecedent.isValid (p : PromotedPrecedent) : Bool :=
  p.precedentId ≠ "" && 0 < p.version && p.candidateId ≠ "" && p.candidateHash ≠ "" &&
    p.projectId ≠ "" && p.claim.isValid && p.statement ≠ "" && p.applicability.isValid &&
    p.provenance.isValid && isMissingOrText p.promotionDecisionId && p.precedentHash ≠ ""

/-! ## Candidates -/

/-- `InMemoryLearningCandidateRepository`, less its index by run record. Every candidate is stored
under its own id. -/
structure CandidateRepository where
  byId : JsMap String LearningCandidate
  byHash : JsMap String String
  keyed : ∀ id c, byId.get id = some c → id = c.learningCandidateId

namespace CandidateRepository

def empty : CandidateRepository := ⟨JsMap.empty, JsMap.empty, fun _ _ h => nomatch h⟩

/-- A map of candidates by their ids stays one when a candidate is set. -/
theorem keyed_set {m : JsMap String LearningCandidate} (c : LearningCandidate)
    (h : ∀ id d, m.get id = some d → id = d.learningCandidateId) (id : String)
    (d : LearningCandidate) (hd : (m.set c.learningCandidateId c).get id = some d) :
    id = d.learningCandidateId := by
  rw [JsMap.get_set] at hd
  split at hd
  · next hid => rw [← Option.some.inj hd, hid]
  · exact h id d hd

/-- The candidate is stored under its id and its hash. -/
def set (r : CandidateRepository) (c : LearningCandidate) : CandidateRepository where
  byId := r.byId.set c.learningCandidateId c
  byHash := r.byHash.set c.candidateHash c.learningCandidateId
  keyed := keyed_set c r.keyed

/-- A candidate that is stored, with another status. -/
def withStatus (r : CandidateRepository) (c : LearningCandidate)
    (status : LearningCandidateStatus) : CandidateRepository where
  byId := r.byId.set c.learningCandidateId { c with status := status }
  byHash := r.byHash
  keyed := keyed_set { c with status := status } r.keyed

def getById (r : CandidateRepository) (id : String) : Option LearningCandidate := r.byId.get id

def listByProject (r : CandidateRepository) (projectId : String) : List LearningCandidate :=
  r.byId.values.filter fun c => c.projectId = projectId

end CandidateRepository

/-! ## Precedents -/

/-- `${precedentId}:v${version}`. -/
def precedentKey (precedentId : String) (version : ℕ) : String :=
  precedentId ++ ":v" ++ toString version

theorem precedentKey_inj {id id' : String} {version version' : ℕ}
    (h : precedentKey id version = precedentKey id' version') : id = id' ∧ version = version' := by
  have htext := congrArg (fun s => s.toList.reverse) h
  have hrepr : ∀ n : ℕ, (toString n).toList = Nat.toDigits 10 n := fun n => String.toList_ofList
  have hmark : ":v".toList.reverse = ['v', ':'] := rfl
  simp only [precedentKey, String.toList_append, List.reverse_append, hrepr, hmark] at htext
  -- from the end, the digits of the version come first
  obtain ⟨hversion, hid⟩ := span_readable (p := Char.isDigit) _ _ _ _
    (fun c hc => isDigit_of_mem_toDigits c (List.mem_reverse.mp hc))
    (fun c hc => isDigit_of_mem_toDigits c (List.mem_reverse.mp hc))
    (ends_cons (c := 'v') (by decide) _) (ends_cons (c := 'v') (by decide) _) htext
  refine ⟨String.toList_inj.mp ?_, toDigits_inj (List.reverse_inj.mp hversion)⟩
  exact List.reverse_inj.mp (List.append_cancel_left (show ['v', ':'] ++ _ = ['v', ':'] ++ _ from hid))

/-- `InMemoryPromotedPrecedentRepository`. Every record is stored under its own key. -/
structure PrecedentRepository where
  byKey : JsMap String PromotedPrecedent
  versionsById : JsMap String (List ℕ)
  keyed : ∀ k p, byKey.get k = some p → k = precedentKey p.precedentId p.version

namespace PrecedentRepository

def empty : PrecedentRepository := ⟨JsMap.empty, JsMap.empty, fun _ _ h => nomatch h⟩

def getVersion (r : PrecedentRepository) (precedentId : String) (version : ℕ) :
    Option PromotedPrecedent :=
  r.byKey.get (precedentKey precedentId version)

theorem id_of_getVersion {r : PrecedentRepository} {id : String} {version : ℕ}
    {p : PromotedPrecedent} (h : r.getVersion id version = some p) :
    p.precedentId = id ∧ p.version = version := by
  obtain ⟨hid, hversion⟩ := precedentKey_inj (r.keyed _ p h)
  exact ⟨hid.symm, hversion.symm⟩

/-- The versions of a precedent, in order. -/
def versions (r : PrecedentRepository) (precedentId : String) : List ℕ :=
  (r.versionsById.get precedentId).getD []

def getLatestVersion (r : PrecedentRepository) (precedentId : String) : Option PromotedPrecedent :=
  (r.versions precedentId).getLast?.bind (r.getVersion precedentId)

/-- A map of records by their keys stays one when a record is set. -/
theorem keyed_set {m : JsMap String PromotedPrecedent} (p : PromotedPrecedent)
    (h : ∀ k q, m.get k = some q → k = precedentKey q.precedentId q.version) (k : String)
    (q : PromotedPrecedent) (hq : (m.set (precedentKey p.precedentId p.version) p).get k = some q) :
    k = precedentKey q.precedentId q.version := by
  rw [JsMap.get_set] at hq
  split at hq
  · next hk => rw [← Option.some.inj hq, hk]
  · exact h k q hq

/-- `append`. -/
def append (r : PrecedentRepository) (p : PromotedPrecedent) :
    Except MemoryError PrecedentRepository :=
  if !p.isValid then .error .invalidRecord
  else if r.byKey.has (precedentKey p.precedentId p.version) then
    .error .learningPersistenceFailed
  else .ok {
    byKey := r.byKey.set (precedentKey p.precedentId p.version) p
    versionsById := r.versionsById.set p.precedentId
      ((r.versions p.precedentId ++ [p.version]).insertionSort (· ≤ ·))
    keyed := keyed_set p r.keyed }

/-- `updateStatus`, of a version that is stored. -/
def withStatus (r : PrecedentRepository) (p : PromotedPrecedent) (status : PrecedentStatus) :
    PrecedentRepository where
  byKey := r.byKey.set (precedentKey p.precedentId p.version) { p with status := status }
  versionsById := r.versionsById
  keyed := keyed_set { p with status := status } r.keyed

/-- `updateStatus`. -/
def updateStatus (r : PrecedentRepository) (precedentId : String) (version : ℕ)
    (status : PrecedentStatus) : Except MemoryError PrecedentRepository :=
  match r.getVersion precedentId version with
  | none => .error .precedentNotFound
  | some existing => .ok (r.withStatus existing status)

def listByProject (r : PrecedentRepository) (projectId : String) : List PromotedPrecedent :=
  (r.versionsById.keys.filterMap r.getLatestVersion).filter fun p => p.projectId = projectId

def listActiveByProject (r : PrecedentRepository) (projectId : String) : List PromotedPrecedent :=
  (r.listByProject projectId).filter fun p => p.status = .active

end PrecedentRepository

/-! ## Contradictions -/

/-- `InMemoryPrecedentContradictionRepository`. -/
structure ContradictionRepository where
  byId : JsMap String PrecedentContradictionRecord

namespace ContradictionRepository

def empty : ContradictionRepository := ⟨JsMap.empty⟩

def listOpen (r : ContradictionRepository) : List PrecedentContradictionRecord :=
  r.byId.values.filter fun c => c.resolutionStatus = .open

def listForPrecedent (r : ContradictionRepository) (precedentId : String) :
    List PrecedentContradictionRecord :=
  r.byId.values.filter fun c => c.precedentIds.contains precedentId

end ContradictionRepository

/-! ## All stores -/

/-- What the memory reads. Of the evidence, if there is a store of it, only the ids count. -/
structure MemoryStores where
  historicalRuns : JsMap String HistoricalRunRecord
  outcomes : Option (JsMap String OutcomeVerificationRecord)
  evidence : Option (List String)
  candidates : CandidateRepository
  precedents : PrecedentRepository
  contradictions : ContradictionRepository

/-- `outcomeKey`. -/
def HistoricalRunRecord.outcomeKey (r : HistoricalRunRecord) : String :=
  r.runId ++ ":" ++ r.outcome.text ++ ":" ++ r.outcomeVerificationId.getD ""

/-- The record of a run and its outcome. -/
def MemoryStores.findHistoricalRun (s : MemoryStores) (key : String) : Option HistoricalRunRecord :=
  s.historicalRuns.values.find? fun r => r.outcomeKey = key

/-- `loadVerification`. -/
def MemoryStores.loadVerification (s : MemoryStores) (run : Option HistoricalRunRecord) :
    Option OutcomeVerificationRecord := do
  let verificationId ← (← run).outcomeVerificationId
  (← s.outcomes).get verificationId

end Orchestrator.Memory
