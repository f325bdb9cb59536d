import Orchestrator.Atomic.Async
import Orchestrator.Memory.Readiness

/-!
# The calls of the memory

The repositories of the memory as atomic calls on one world.

* `PrecedentPromotionDecision`: what a reviewer decides;
* `MemoryWorld`, `MemoryEvent`: the stores and the ids given out so far, and what others do to them;
* `MemoryOp`, `memoryHandler`: the calls, and what each does.

The ledger of the memory is left out: nothing reads it.
-/

namespace Orchestrator.Memory

open Atomic Collections

/-! ## Decisions -/

/-- `PrecedentPromotionDecisionKindSchema`. -/
inductive PromotionDecisionKind where
  | promote
  | reject
  | requestNarrowerScope
  deriving DecidableEq, Repr

/-- A `PrecedentPromotionDecision`, less its hash, its time and its note. -/
structure PrecedentPromotionDecision where
  promotionDecisionId : String
  learningCandidateId : String
  candidateHash : String
  groundingVerdict : ClaimGroundingVerdict
  reviewerId : String
  decision : PromotionDecisionKind
  approvedApplicability : Option PrecedentApplicability
  deriving DecidableEq

/-- `PrecedentPromotionDecisionSchema`. -/
def PrecedentPromotionDecision.isValid (d : PrecedentPromotionDecision) : Bool :=
  d.promotionDecisionId ≠ "" && d.learningCandidateId ≠ "" && d.candidateHash ≠ "" &&
    d.reviewerId ≠ "" && d.approvedApplicability.all PrecedentApplicability.isValid

/-! ## The world -/

/-- `MemoryIdentityGenerator`: the ids that are given out, in turn. -/
structure MemoryIdentities where
  precedent : ℕ → String
  promotionDecision : ℕ → String

structure MemoryWorld where
  identities : MemoryIdentities
  precedentsIssued : ℕ := 0
  decisionsIssued : ℕ := 0
  stores : MemoryStores
  decisions : JsMap String PrecedentPromotionDecision := JsMap.empty

/-- The world before anything is learned. -/
def MemoryWorld.initial (identities : MemoryIdentities)
    (outcomes : Option (JsMap String OutcomeVerificationRecord)) (evidence : Option (List String)) :
    MemoryWorld where
  identities := identities
  stores := {
    historicalRuns := JsMap.empty
    outcomes := outcomes
    evidence := evidence
    candidates := CandidateRepository.empty
    precedents := PrecedentRepository.empty
    contradictions := ContradictionRepository.empty }

/-- What other services do meanwhile: the outcome of a run is verified, or evidence is stored. -/
inductive MemoryEvent where
  | verified (record : OutcomeVerificationRecord)
  | evidenceStored (ref : String)

/-- The verification of an outcome is stored once. -/
def MemoryWorld.happens (w : MemoryWorld) : MemoryEvent → MemoryWorld
  | .verified record => { w with stores := { w.stores with
      outcomes := w.stores.outcomes.map fun outcomes =>
        if outcomes.has record.verificationId then outcomes
        else outcomes.set record.verificationId record } }
  | .evidenceStored ref => { w with stores := { w.stores with
      evidence := w.stores.evidence.map (ref :: ·) } }

/-! ## The calls -/

inductive MemoryOp where
  | getCandidate (id : String)
  | appendCandidate (candidate : LearningCandidate)
  | updateCandidateStatus (id : String) (status : LearningCandidateStatus)
  | getHistoricalRun (id : String)
  | findHistoricalRun (outcomeKey : String)
  | appendHistoricalRun (record : HistoricalRunRecord)
  | getOutcome (id : String)
  | hasEvidence (ref : String)
  | listOpenContradictions
  | getContradiction (id : String)
  | appendContradiction (record : PrecedentContradictionRecord)
  | nextPromotionDecisionId
  | appendDecision (decision : PrecedentPromotionDecision)
  | getDecision (id : String)
  | listPrecedents (projectId : String)
  | listActivePrecedents (projectId : String)
  | getPrecedent (id : String)
  | nextPrecedentId
  | appendPrecedent (precedent : PromotedPrecedent)
  | updatePrecedentStatus (id : String) (version : ℕ) (status : PrecedentStatus)

/-- What a call answers with. -/
def MemoryOp.Response : MemoryOp → Type
  | getCandidate _ => Option LearningCandidate
  | appendCandidate _ => LearningCandidate
  | updateCandidateStatus _ _ => Unit
  | getHistoricalRun _ => Option HistoricalRunRecord
  | findHistoricalRun _ => Option HistoricalRunRecord
  | appendHistoricalRun _ => HistoricalRunRecord
  | getOutcome _ => Option OutcomeVerificationRecord
  | hasEvidence _ => Bool
  | listOpenContradictions => List PrecedentContradictionRecord
  | getContradiction _ => Option PrecedentContradictionRecord
  | appendContradiction _ => Unit
  | nextPromotionDecisionId => String
  | appendDecision _ => Unit
  | getDecision _ => Option PrecedentPromotionDecision
  | listPrecedents _ => List PromotedPrecedent
  | listActivePrecedents _ => List PromotedPrecedent
  | getPrecedent _ => Option PromotedPrecedent
  | nextPrecedentId => String
  | appendPrecedent _ => Unit
  | updatePrecedentStatus _ _ _ => Unit

abbrev MemorySig : Sig := Sig.throwing MemoryOp MemoryOp.Response MemoryError

abbrev MemoryProg := Async MemorySig MemoryError

def call (o : MemoryOp) : MemoryProg o.Response := Async.await o

namespace MemoryWorld

def withCandidates (w : MemoryWorld) (r : CandidateRepository) : MemoryWorld :=
  { w with stores := { w.stores with candidates := r } }

def withPrecedents (w : MemoryWorld) (r : PrecedentRepository) : MemoryWorld :=
  { w with stores := { w.stores with precedents := r } }

def withContradictions (w : MemoryWorld) (r : ContradictionRepository) : MemoryWorld :=
  { w with stores := { w.stores with contradictions := r } }

variable (w : MemoryWorld)

@[simp] theorem candidates_withCandidates (r : CandidateRepository) :
    (w.withCandidates r).stores.candidates = r := rfl

@[simp] theorem precedents_withCandidates (r : CandidateRepository) :
    (w.withCandidates r).stores.precedents = w.stores.precedents := rfl

@[simp] theorem candidates_withPrecedents (r : PrecedentRepository) :
    (w.withPrecedents r).stores.candidates = w.stores.candidates := rfl

@[simp] theorem precedents_withPrecedents (r : PrecedentRepository) :
    (w.withPrecedents r).stores.precedents = r := rfl

@[simp] theorem candidates_withContradictions (r : ContradictionRepository) :
    (w.withContradictions r).stores.candidates = w.stores.candidates := rfl

@[simp] theorem precedents_withContradictions (r : ContradictionRepository) :
    (w.withContradictions r).stores.precedents = w.stores.precedents := rfl

/-- `InMemoryLearningCandidateRepository.append`. A candidate whose hash is known is answered with
the one that is stored. -/
def appendCandidate (candidate : LearningCandidate) :
    Except MemoryError LearningCandidate × MemoryWorld :=
  let r := w.stores.candidates
  if !candidate.isValid then (.error .invalidRecord, w)
  else
    match (r.byHash.get candidate.candidateHash).bind r.byId.get with
    | some existing => (.ok existing, w)
    | none =>
      if r.byId.has candidate.learningCandidateId then (.error .learningPersistenceFailed, w)
      else (.ok candidate, w.withCandidates (r.set candidate))

/-- `InMemoryLearningCandidateRepository.updateStatus`. -/
def updateCandidateStatus (id : String) (status : LearningCandidateStatus) :
    Except MemoryError Unit × MemoryWorld :=
  match w.stores.candidates.byId.get id with
  | none => (.error .candidateNotFound, w)
  | some existing => (.ok (), w.withCandidates (w.stores.candidates.withStatus existing status))

/-- `InMemoryHistoricalRunRepository.append`. A run whose outcome is known is answered with the record
that is stored. -/
def appendHistoricalRun (record : HistoricalRunRecord) :
    Except MemoryError HistoricalRunRecord × MemoryWorld :=
  if w.stores.historicalRuns.has record.historicalRunRecordId then (.error .historicalRunConflict, w)
  else
    match w.stores.findHistoricalRun record.outcomeKey with
    | some existing => (.ok existing, w)
    | none => (.ok record, { w with stores := { w.stores with
        historicalRuns := w.stores.historicalRuns.set record.historicalRunRecordId record } })

/-- `InMemoryPrecedentContradictionRepository.append`. -/
def appendContradiction (record : PrecedentContradictionRecord) :
    Except MemoryError Unit × MemoryWorld :=
  let r := w.stores.contradictions
  if r.byId.has record.contradictionId then (.error .learningPersistenceFailed, w)
  else (.ok (), w.withContradictions ⟨r.byId.set record.contradictionId record⟩)

/-- `InMemoryPrecedentPromotionDecisionRepository.append`. -/
def appendDecision (decision : PrecedentPromotionDecision) :
    Except MemoryError Unit × MemoryWorld :=
  if !decision.isValid then (.error .invalidRecord, w)
  else if w.decisions.has decision.promotionDecisionId then (.error .learningPersistenceFailed, w)
  else (.ok (), { w with decisions := w.decisions.set decision.promotionDecisionId decision })

/-- What a repository call leaves of the precedents, if it does not throw. -/
def writePrecedents (r : Except MemoryError PrecedentRepository) :
    Except MemoryError Unit × MemoryWorld :=
  match r with
  | .ok r => (.ok (), w.withPrecedents r)
  | .error e => (.error e, w)

end MemoryWorld

/-- What each call does to the world, and what it answers. -/
def memoryHandler : Handler MemorySig MemoryWorld
  | .getCandidate id, w => (.ok (w.stores.candidates.getById id), w)
  | .appendCandidate candidate, w => w.appendCandidate candidate
  | .updateCandidateStatus id status, w => w.updateCandidateStatus id status
  | .getHistoricalRun id, w => (.ok (w.stores.historicalRuns.get id), w)
  | .findHistoricalRun key, w => (.ok (w.stores.findHistoricalRun key), w)
  | .appendHistoricalRun record, w => w.appendHistoricalRun record
  | .getOutcome id, w => (.ok (w.stores.outcomes.bind (JsMap.get · id)), w)
  | .hasEvidence ref, w => (.ok (w.stores.evidence.all (List.contains · ref)), w)
  | .listOpenContradictions, w => (.ok w.stores.contradictions.listOpen, w)
  | .getContradiction id, w => (.ok (w.stores.contradictions.byId.get id), w)
  | .appendContradiction record, w => w.appendContradiction record
  | .nextPromotionDecisionId, w => (.ok (w.identities.promotionDecision w.decisionsIssued),
      { w with decisionsIssued := w.decisionsIssued + 1 })
  | .appendDecision decision, w => w.appendDecision decision
  | .getDecision id, w => (.ok (w.decisions.get id), w)
  | .listPrecedents projectId, w => (.ok (w.stores.precedents.listByProject projectId), w)
  | .listActivePrecedents projectId, w =>
    (.ok (w.stores.precedents.listActiveByProject projectId), w)
  | .getPrecedent id, w => (.ok (w.stores.precedents.getLatestVersion id), w)
  | .nextPrecedentId, w => (.ok (w.identities.precedent w.precedentsIssued),
      { w with precedentsIssued := w.precedentsIssued + 1 })
  | .appendPrecedent precedent, w => w.writePrecedents (w.stores.precedents.append precedent)
  | .updatePrecedentStatus id version status, w =>
    w.writePrecedents (w.stores.precedents.updateStatus id version status)

end Orchestrator.Memory
