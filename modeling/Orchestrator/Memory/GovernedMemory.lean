import Orchestrator.Atomic.Simulation
import Orchestrator.Atomic.Steps
import Orchestrator.Collections.Latest
import Orchestrator.Memory.Footprint

/-!
# The results of learning

`learn` behind its fence, with the result that it returns, and the result that is rebuilt from the
stores when the fence says that a run was learned from before.

* `LearningCoordinator`: the fences;
* `GovernedMemoryResult`, `learnRun`, `buildResultFromExisting`: the two ways to a result;
* `LearningState`, `learn`: a call on the stores, the fences and the results that are remembered;
* `LearningStep`, `performed`: one call after the other;
* `learnRun_alike`: what is left of the stores is what `Memory.learn` leaves.
-/

namespace Orchestrator.Memory

open Atomic Collections

/-! ## Listings -/

/-- `listByRunRecord`: the candidates of a record, by age. -/
def CandidateRepository.listByRunRecord (r : CandidateRepository) (historicalRunRecordId : String) :
    List LearningCandidate :=
  r.byId.values.filter fun c => c.sourceHistoricalRunRecordId = historicalRunRecordId

/-- `getByRunId`: the record that was stored last for a run. -/
def MemoryStores.getByRunId (s : MemoryStores) (runId : String) : Option HistoricalRunRecord :=
  latest HistoricalRunRecord.runId s.historicalRuns.values runId

/-- `xs.sort()`. -/
def sortIds (xs : List String) : List String := xs.insertionSort UpTo

namespace GovernedMemory

/-- The errors of `learn`. -/
inductive LearnError where
  | memory (e : MemoryError)
  | learningInProgress
  | learningFenceFailed
  | invalidLearningState
  deriving DecidableEq, Repr

/-! ## Fences -/

inductive LearningFenceStatus where
  | inProgress
  | processed
  | failed
  deriving DecidableEq, Repr

structure LearningFence where
  status : LearningFenceStatus
  attempt : ℕ
  ownerToken : String
  failureCode : Option LearnError := none
  historicalRunRecordId : Option String := none
  deriving DecidableEq

/-- `InMemoryLearningCoordinator`. -/
structure LearningCoordinator where
  fences : JsMap String LearningFence := JsMap.empty
  sequence : ℕ := 0

inductive BeginLearningResult where
  | started (ownerToken : String) (coordinator : LearningCoordinator)
  | alreadyProcessed
  | inProgress

namespace LearningCoordinator

variable (coordinator : LearningCoordinator) (fenceKey : String)

/-- A new attempt, after as many as a fence has seen. -/
def start (attempts : ℕ) : BeginLearningResult :=
  let sequence := coordinator.sequence + 1
  let ownerToken := s!"learn_owner_{sequence}"
  .started ownerToken
    ⟨coordinator.fences.set fenceKey ⟨.inProgress, attempts + 1, ownerToken, none, none⟩, sequence⟩

/-- `begin`. -/
def begin : BeginLearningResult :=
  match coordinator.fences.get fenceKey with
  | none => coordinator.start fenceKey 0
  | some existing =>
    match existing.status with
    | .inProgress => .inProgress
    | .processed => .alreadyProcessed
    | .failed => coordinator.start fenceKey existing.attempt

/-- `transition`; `next` is the fence that is stored. -/
def transition (ownerToken : String) (next : LearningFence → LearningFence) :
    Except LearnError LearningCoordinator :=
  match coordinator.fences.get fenceKey with
  | none => .error .learningFenceFailed
  | some existing =>
    if existing.ownerToken ≠ ownerToken then .error .learningFenceFailed
    else if existing.status ≠ .inProgress then .error .invalidLearningState
    else .ok { coordinator with fences := coordinator.fences.set fenceKey (next existing) }

/-- `markProcessed`. -/
def markProcessed (ownerToken historicalRunRecordId : String) :
    Except LearnError LearningCoordinator :=
  coordinator.transition fenceKey ownerToken fun existing =>
    { existing with status := .processed, historicalRunRecordId := some historicalRunRecordId }

/-- `markFailed`. -/
def markFailed (ownerToken : String) (failureCode : LearnError) :
    Except LearnError LearningCoordinator :=
  coordinator.transition fenceKey ownerToken fun existing =>
    { existing with status := .failed, failureCode := some failureCode }

end LearningCoordinator

/-! ## Results -/

/-- A `GovernedMemoryResult`, less its time. -/
structure GovernedMemoryResult where
  runId : String
  historicalRunRecordId : String
  candidateIds : List String
  promotedPrecedentIds : List String
  reviewRequiredCandidateIds : List String
  contradictionIds : List String
  qualityFindings : List MemoryQualityFinding
  deriving DecidableEq

/-- The ids in two results are equal. -/
structure SameIds (r r' : GovernedMemoryResult) : Prop where
  candidateIds : r.candidateIds = r'.candidateIds
  promotedPrecedentIds : r.promotedPrecedentIds = r'.promotedPrecedentIds
  reviewRequiredCandidateIds : r.reviewRequiredCandidateIds = r'.reviewRequiredCandidateIds
  contradictionIds : r.contradictionIds = r'.contradictionIds

variable (X : MemoryExternal) (policy : PrecedentPromotionPolicy)

/-- The contradictions that a turn of the loop of `detectForCandidate` finds. -/
def detectForPrecedent (candidate : LearningCandidate) (p : PromotedPrecedent) :
    MemoryProg (List String) := do
  let classification := classify X candidate p
  if classification = .noContradiction then
    return []
  else
    let contradictionId := contradictionIdFor X candidate p classification
    match ← call (.getContradiction contradictionId) with
    | some existing => return [existing.contradictionId]
    | none =>
      call (.appendContradiction {
        contradictionId := contradictionId
        precedentIds := [p.precedentId]
        candidateIds := [candidate.learningCandidateId]
        classification := classification
        resolutionStatus := .open })
      return [contradictionId]

/-- `detectForCandidate`: the ids of what was found. -/
def detectForCandidate (candidate : LearningCandidate)
    (activePrecedents : List PromotedPrecedent) : MemoryProg (List String) :=
  if candidate.grounding.verdict = .ungrounded then pure []
  else do
    let found ← Async.collect (detectForPrecedent X candidate)
      (activePrecedents.filter (applicabilityOverlaps candidate))
    return found.flatten

/-- `PromotionAttemptResult`. -/
structure PromotionAttemptResult where
  promoted : Option PromotedPrecedent
  reviewRequired : Bool
  findings : List MemoryQualityFinding
  readinessStatus : ReadinessStatus

/-- `tryAutoPromote`. -/
def tryAutoPromote (candidate : LearningCandidate) : MemoryProg PromotionAttemptResult := do
  let historicalRun ← call (.getHistoricalRun candidate.sourceHistoricalRunRecordId)
  let verification ← loadVerification historicalRun
  let readiness ← assessCandidate X policy candidate historicalRun verification
  if readiness.status = .readyForAutoPromotion then
    let promoted ← promoteWithinTransaction X candidate {
      method := .autoPromote
      trustClass := .evidenceBackedLocal
      applicability := candidate.applicabilityProposal }
    return ⟨some promoted, false, readiness.findings, readiness.status⟩
  else
    let reviewRequired := readiness.status ∈ [.readyForHumanReview, .contradicted]
    return ⟨none, reviewRequired, readiness.findings, readiness.status⟩

/-- What one candidate adds to the result. -/
structure LearningGain where
  contradictionIds : List String := []
  promotedPrecedentIds : List String := []
  reviewRequiredCandidateIds : List String := []
  qualityFindings : List MemoryQualityFinding := []

/-- One turn of the loop of `learn` over the stored candidates. -/
def learnCandidate (activePrecedents : List PromotedPrecedent) (candidate : LearningCandidate) :
    MemoryProg LearningGain := do
  if candidate.status = .promoted ∨ candidate.status = .rejected then
    return {}
  else
    let contradictionIds ← detectForCandidate X candidate activePrecedents
    let attempt ← tryAutoPromote X policy candidate
    return {
      contradictionIds := contradictionIds
      promotedPrecedentIds := (attempt.promoted.map (·.precedentId)).toList
      reviewRequiredCandidateIds :=
        if attempt.promoted.isNone && attempt.reviewRequired then [candidate.learningCandidateId]
        else []
      qualityFindings := attempt.findings }

/-- A candidate as it is extracted from a record or suggested for it: it is bound to the record, and
hashed. -/
def candidateOf (historical : HistoricalRunRecord) (draft : LearningCandidate) :
    LearningCandidate :=
  let draft := { draft with
    sourceHistoricalRunRecordId := historical.historicalRunRecordId
    projectId := historical.projectId
    sourceOutcome := historical.outcome
    status := .candidate }
  { draft with candidateHash := candidateHash X draft }

/-- The result that is put together from what the candidates add. -/
def resultOf (runId : String) (historical : HistoricalRunRecord) (persisted : List LearningCandidate)
    (gains : List LearningGain) : GovernedMemoryResult where
  runId := runId
  historicalRunRecordId := historical.historicalRunRecordId
  candidateIds := sortIds (persisted.map (·.learningCandidateId))
  promotedPrecedentIds := sortIds (gains.flatMap (·.promotedPrecedentIds)).eraseDups
  reviewRequiredCandidateIds := sortIds (gains.flatMap (·.reviewRequiredCandidateIds)).eraseDups
  contradictionIds := sortIds (gains.flatMap (·.contradictionIds)).eraseDups
  qualityFindings := gains.flatMap (·.qualityFindings)

/-- What `learn` does between its fences. -/
def learnRun (record : HistoricalRunRecord) (drafts : List LearningCandidate) :
    MemoryProg (HistoricalRunRecord × GovernedMemoryResult) := do
  let historical : HistoricalRunRecord ← ensureHistoricalRunRecord record
  let persisted ← persistCandidates (drafts.map (candidateOf X historical)) []
  let activePrecedents ← call (.listActivePrecedents historical.projectId)
  let gains ← Async.collect (learnCandidate X policy activePrecedents) persisted
  return (historical, resultOf record.runId historical persisted gains)

/-- `buildResultFromExisting`. -/
def buildResultFromExisting (s : MemoryStores) (runId : String) (historical : HistoricalRunRecord) :
    GovernedMemoryResult :=
  let candidates := s.candidates.listByRunRecord historical.historicalRunRecordId
  let withStatus (status : LearningCandidateStatus) : List String :=
    (candidates.filter fun c => c.status = status).map (·.learningCandidateId)
  { runId := runId
    historicalRunRecordId := historical.historicalRunRecordId
    candidateIds := sortIds (candidates.map (·.learningCandidateId))
    promotedPrecedentIds := sortIds (withStatus .promoted)
    reviewRequiredCandidateIds := sortIds (withStatus .candidate)
    contradictionIds := []
    qualityFindings := [] }

/-! ## Calls -/

/-- A call of `learn` for a run that has ended: the record that the run would get, and what is
extracted from it or suggested for it. -/
structure LearnCall where
  record : HistoricalRunRecord
  drafts : List LearningCandidate

/-- The stores, the fences, and the results that the service object remembers. -/
structure LearningState where
  world : MemoryWorld
  coordinator : LearningCoordinator := {}
  resultsByRun : JsMap String GovernedMemoryResult := JsMap.empty

/-- The way on which `learn` comes to a result. -/
inductive LearnPath where
  | remembered
  | alreadyProcessed
  | started
  deriving DecidableEq, Repr

/-- The `catch` block of `learn`. -/
def failed (s : LearningState) (fenceKey ownerToken : String) (e : LearnError) :
    Except LearnError (LearnPath × GovernedMemoryResult) × LearningState :=
  match s.coordinator.markFailed fenceKey ownerToken e with
  | .ok coordinator => (.error e, { s with coordinator := coordinator })
  | .error e' => (.error e', s)

/-- `learn`. -/
def learn (s : LearningState) (c : LearnCall) :
    Except LearnError (LearnPath × GovernedMemoryResult) × LearningState :=
  match s.resultsByRun.get c.record.runId with
  | some prior => (.ok (.remembered, prior), s)
  | none =>
    let fenceKey := c.record.outcomeKey
    match s.coordinator.begin fenceKey with
    | .inProgress => (.error .learningInProgress, s)
    | .alreadyProcessed =>
      match s.world.stores.getByRunId c.record.runId with
      | none => (.error .learningFenceFailed, s)
      | some existing =>
        let result := buildResultFromExisting s.world.stores c.record.runId existing
        (.ok (.alreadyProcessed, result),
          { s with resultsByRun := s.resultsByRun.set c.record.runId result })
    | .started ownerToken coordinator =>
      match (learnRun X policy c.record c.drafts).exec memoryHandler s.world with
      | (.error e, world) => failed { s with world, coordinator } fenceKey ownerToken (.memory e)
      | (.ok (historical, result), world) =>
        match coordinator.markProcessed fenceKey ownerToken historical.historicalRunRecordId with
        | .error e => failed { s with world, coordinator } fenceKey ownerToken e
        | .ok coordinator => (.ok (.started, result),
            ⟨world, coordinator, s.resultsByRun.set c.record.runId result⟩)

/-! ## Sequences of calls -/

/-- A call, a review, a new service object over the same stores, or what other services do. -/
inductive LearningStep where
  | learn (c : LearnCall)
  | reviewCandidate (input : ReviewInput)
  | restart
  | event (e : MemoryEvent)

def performed (s : LearningState) : LearningStep → LearningState
  | .learn c => (learn X policy s c).2
  | .reviewCandidate input =>
    { s with world := ((reviewCandidate X policy input).exec memoryHandler s.world).2 }
  | .restart => { s with resultsByRun := JsMap.empty }
  | .event e => { s with world := s.world.happens e }

/-! ## What is left of the stores -/

/-- The functions return or throw together, and leave the same world. -/
def LeavesAlike {α β : Type} (p : MemoryProg α) (p' : MemoryProg β) : Prop :=
  Async.Alike memoryHandler memoryHandler Eq Eq (fun _ _ => True) p p'

theorem detectForCandidate_alike (candidate : LearningCandidate)
    (precedents : List PromotedPrecedent) : LeavesAlike (detectForCandidate X candidate precedents)
      (Memory.detectForCandidate X candidate precedents) := by
  unfold detectForCandidate Memory.detectForCandidate
  refine Async.alike_ite Iff.rfl (Async.alike_pure trivial) ?_
  refine Async.Alike.map_left (Async.alike_collect_forEach (V := fun _ _ => True) (fun p => ?_) _)
    fun _ _ _ => trivial
  unfold detectForPrecedent Memory.detectForPrecedent
  refine Async.alike_ite Iff.rfl (Async.alike_pure trivial) ?_
  refine Async.Alike.bind (Async.alike_refl _) fun found found' hfound => ?_
  subst hfound
  cases found with
  | some existing => exact Async.alike_pure trivial
  | none => exact Async.Alike.map_left (Async.alike_refl _) fun _ _ _ => trivial

theorem tryAutoPromote_alike (candidate : LearningCandidate) :
    LeavesAlike (tryAutoPromote X policy candidate) (Memory.tryAutoPromote X policy candidate) := by
  unfold tryAutoPromote Memory.tryAutoPromote
  refine Async.Alike.bind (Async.alike_refl _) fun run _ hrun => ?_
  subst hrun
  refine Async.Alike.bind (Async.alike_refl _) fun verification _ hverification => ?_
  subst hverification
  refine Async.Alike.bind (Async.alike_refl _) fun readiness _ hreadiness => ?_
  subst hreadiness
  refine Async.alike_ite Iff.rfl ?_ (Async.alike_pure trivial)
  exact Async.Alike.bind (Async.alike_refl _) fun _ _ _ => Async.alike_pure trivial

theorem learnCandidate_alike (precedents : List PromotedPrecedent) (candidate : LearningCandidate) :
    LeavesAlike (learnCandidate X policy precedents candidate)
      (Memory.learnCandidate X policy precedents candidate) := by
  unfold learnCandidate Memory.learnCandidate
  refine Async.alike_ite Iff.rfl (Async.alike_pure trivial) ?_
  refine Async.Alike.bind (detectForCandidate_alike X candidate precedents) fun _ _ _ => ?_
  exact Async.Alike.map_left (tryAutoPromote_alike X policy candidate) fun _ _ _ => trivial

/-- The record under which a run is learned from. -/
def historicalOf (s : MemoryStores) (record : HistoricalRunRecord) : HistoricalRunRecord :=
  (s.findHistoricalRun record.outcomeKey).getD record

/-- The record of the run is there already, or it is stored. -/
theorem ensureHistoricalRunRecord_ok {record historical : HistoricalRunRecord}
    {w w' : MemoryWorld}
    (h : (ensureHistoricalRunRecord record).exec memoryHandler w = (.ok historical, w')) :
    historical = historicalOf w.stores record := by
  have hcall : (call (.findHistoricalRun record.outcomeKey)).exec memoryHandler w =
      (.ok (w.stores.findHistoricalRun record.outcomeKey), w) := rfl
  unfold ensureHistoricalRunRecord at h
  unfold historicalOf
  rw [Async.exec_bind_of_ok hcall] at h
  cases hfind : w.stores.findHistoricalRun record.outcomeKey with
  | some existing =>
    rw [hfind] at h
    exact (Except.ok.inj (Prod.mk.inj h).1).symm
  | none =>
    rw [hfind] at h
    change w.appendHistoricalRun record = _ at h
    unfold MemoryWorld.appendHistoricalRun at h
    split at h
    · exact nomatch (Prod.mk.inj h).1
    · rw [hfind] at h
      exact (Except.ok.inj (Prod.mk.inj h).1).symm

/-- Learning leaves the stores as `Memory.learn` does for the candidates of the record. -/
theorem learnRun_alike (record : HistoricalRunRecord) (drafts : List LearningCandidate)
    (w : MemoryWorld) : ((learnRun X policy record drafts).exec memoryHandler w).2 =
      ((Memory.learn X policy record
        (drafts.map (candidateOf X (historicalOf w.stores record)))).exec memoryHandler w).2 := by
  unfold learnRun Memory.learn
  rcases hensure : (ensureHistoricalRunRecord record).exec memoryHandler w with ⟨_ | historical, w'⟩
  · rw [Async.exec_bind_of_error hensure, Async.exec_bind_of_error hensure]
  · obtain rfl := ensureHistoricalRunRecord_ok hensure
    rw [Async.exec_bind_of_ok hensure, Async.exec_bind_of_ok hensure]
    have hextracted : (drafts.map (candidateOf X (historicalOf w.stores record))).map extracted =
        drafts.map (candidateOf X (historicalOf w.stores record)) := by
      rw [List.map_map]
      rfl
    rw [hextracted]
    refine (Async.Alike.bind (Async.alike_refl _) fun persisted _ hpersisted => ?_ :
      LeavesAlike _ _) w' w' rfl |>.2
    subst hpersisted
    refine Async.Alike.bind (Async.alike_refl _) fun active _ hactive => ?_
    subst hactive
    exact Async.Alike.map_left (Async.alike_collect_forEach (learnCandidate_alike X policy active) _)
      fun _ _ _ => trivial

end GovernedMemory

end Orchestrator.Memory
