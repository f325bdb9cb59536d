import Orchestrator.Atomic.Pool
import Orchestrator.Scheduling.DependencyVerdict
import Orchestrator.Scheduling.Fairness
import Orchestrator.Scheduling.WorkItems

/-!
# Claiming and dispatching work

The scheduler's loops, over the calls of its repositories, of its lease store and of the phase
services.

* `SchedulerWorld`, `schedulerSystem`: the repositories, and their calls;
* `selectAndClaimWork`: one allocation, under the fairness lock;
* `dispatch`: one claimed item, under its lease;
* `claimTick`, `discoveryTick`: one turn of the claim loop and of the discovery loop.
-/

namespace Orchestrator

open Atomic Collections

/-! ## Errors -/

inductive SchedulerErrorClass where
  | schedulingError
  | durabilityError
  | other
  deriving DecidableEq, Repr

inductive SchedulerErrorCode where
  | invalidWorkItem
  | staleSchedulerFence
  | dispatchReadinessFailed
  | schedulerCasConflict
  | leaseAlreadyHeld
  | staleFenceToken
  | databaseUnavailable
  | durableConflict
  | other
  deriving DecidableEq, Repr

structure SchedulerError where
  errorClass : SchedulerErrorClass
  code : SchedulerErrorCode
  message : List ℕ
  deriving DecidableEq, Repr

namespace SchedulerError

def scheduling (code : SchedulerErrorCode) (message : String) : SchedulerError :=
  ⟨.schedulingError, code, Collections.codeUnits message⟩

def durability (code : SchedulerErrorCode) (message : String) : SchedulerError :=
  ⟨.durabilityError, code, Collections.codeUnits message⟩

/-- A `SchedulingError` with the code `SCHEDULER_CAS_CONFLICT`. -/
def isCasConflict (e : SchedulerError) : Bool :=
  decide (e.errorClass = .schedulingError ∧ e.code = .schedulerCasConflict)

/-- A `SchedulingError` with the code `DISPATCH_READINESS_FAILED`. -/
def isReadinessFailure (e : SchedulerError) : Bool :=
  decide (e.errorClass = .schedulingError ∧ e.code = .dispatchReadinessFailed)

/-- A `DurabilityError` with the code `LEASE_ALREADY_HELD`. -/
def isLeaseHeld (e : SchedulerError) : Bool :=
  decide (e.errorClass = .durabilityError ∧ e.code = .leaseAlreadyHeld)

end SchedulerError

def isSafeRetryable (e : SchedulerError) : Bool :=
  decide (e.code ∈ ([.databaseUnavailable, .leaseAlreadyHeld, .durableConflict,
    .schedulerCasConflict] : List SchedulerErrorCode))

/-! ## Records -/

inductive LeaseStatus where
  | held
  | released
  | expired
  deriving DecidableEq, Repr

structure CoordinatorLease where
  coordinationKey : String
  phase : String
  ownerId : String
  fenceToken : ℕ
  leaseExpiresAt : ℕ
  acquiredAt : ℕ
  lastHeartbeatAt : ℕ
  status : LeaseStatus
  deriving DecidableEq, Repr

structure SchedulerProjectConfig where
  projectId : String
  weight : ℚ
  maxConcurrency : ℕ
  defaultPriorityClass : PriorityClass

/-- The fairness charge in a decision. -/
structure FairnessChargeRecord where
  before : List ProjectFairnessState
  after : List ProjectFairnessState
  claimOwnerId : String
  fenceToken : ℕ

structure SchedulerDecisionRecord where
  decisionId : String
  timestamp : ℕ
  candidateWorkIds : List String
  selectedWorkId : Option String
  candidateProjects : List String
  globalActive : ℕ
  reasonCode : SchedulingReasonCode
  score : Option ℕ
  projectId : Option String
  fairnessCharge : Option FairnessChargeRecord

/-- The answer of `assertDispatchReady` when work is not ready. -/
structure DispatchRefusal where
  reasonCode : String
  message : List ℕ
  deriving DecidableEq, Repr

/-! ## The repositories -/

/-- What the scheduler reads and others change: clocks, operators' switches, runs and their
artifacts, and the services of the phases. -/
structure SchedulerSurroundings where
  nowIso : ℕ
  dateNow : ℕ
  isAccepting : Bool
  databaseReachable : Bool
  globalPaused : Bool
  projectPaused : String → Bool
  projectConfig : String → Option SchedulerProjectConfig
  view : Scheduling.SchedulerView
  discoverableRunIds : List String
  /-- `candidateWorkKinds` of the run's discovery context. -/
  candidateWorkKinds : RunRecord → List String
  /-- `workLogicalIdentityKey`, from the run's fingerprints for a kind of work. -/
  workLogicalIdentityKey : RunRecord → String → String
  randomUUID : String
  assertDispatchReady : SchedulerWorkItem → Except SchedulerError (Option DispatchRefusal)
  invoke : SchedulerWorkItem → Except SchedulerError (Option String)

structure SchedulerWorld where
  items : WorkItems
  byIdentity : JsMap String String
  fairness : FairnessRows
  locked : Bool
  leases : JsMap String CoordinatorLease
  fence : ℕ
  decisions : List SchedulerDecisionRecord
  surroundings : SchedulerSurroundings

/-- What stays the same while the scheduler runs. -/
structure SchedulerDeps where
  localeLe : String → String → Bool
  globalMaxConcurrency : ℕ
  /-- `bindLeaseLiveCheck` was called. -/
  leaseLiveCheck : Bool
  workItemIdFromIdentity : String → String

namespace SchedulerWorld

def isLiveHeld (w : SchedulerWorld) (coordinationKey : String) : Bool :=
  match w.leases.get coordinationKey with
  | some lease =>
    decide (lease.status = .held ∧ lease.leaseExpiresAt > w.surroundings.dateNow)
  | none => false

/-- `isLiveClaim`. -/
def isLiveClaim (deps : SchedulerDeps) (w : SchedulerWorld) (workItemId : String) : Bool :=
  deps.leaseLiveCheck && w.isLiveHeld (schedulerWorkCoordinationKey workItemId)

/-- The items that are counted as active. -/
def active (deps : SchedulerDeps) (w : SchedulerWorld) : List SchedulerWorkItem :=
  w.items.list.filter fun item =>
    decide (item.status = .claimed ∨ item.status = .running) && w.isLiveClaim deps item.workItemId

/-- The projects of `listSchedulableProjectSummaries`. -/
def schedulableProjects (deps : SchedulerDeps) (w : SchedulerWorld) (nowIso : ℕ) : List String :=
  ((w.items.list.filter fun item =>
    decide (item.status = .eligible ∧ ¬item.eligibleAt > nowIso)).map
      (·.projectId)).eraseDups.insertionSort fun a b => deps.localeLe a b

def listCandidateWorkByProject (w : SchedulerWorld) (projectId : String)
    (statuses : List WorkItemStatus) (limit : ℕ) : List SchedulerWorkItem :=
  ((w.items.list.filter fun item =>
    decide (item.projectId = projectId ∧ item.status ∈ statuses)).insertionSort fun a b =>
      a.eligibleAt < b.eligibleAt ∨ a.eligibleAt = b.eligibleAt ∧ a.createdAt ≤ b.createdAt).take
        limit

def listExpiredClaimed (deps : SchedulerDeps) (w : SchedulerWorld) (limit : ℕ) :
    List SchedulerWorkItem :=
  ((w.items.list.filter fun item =>
    decide (item.status = .claimed) && !w.isLiveClaim deps item.workItemId).insertionSort fun a b =>
      a.createdAt ≤ b.createdAt).take limit

def getByLogicalIdentity (w : SchedulerWorld) (logicalIdentityKey : String) :
    Option SchedulerWorkItem :=
  (w.byIdentity.get logicalIdentityKey).bind w.items.getById

/-- `save`, of an item. -/
def saveItem (w : SchedulerWorld) (item : SchedulerWorkItem) :
    Except SchedulerError Unit × SchedulerWorld :=
  if (w.byIdentity.get item.logicalIdentityKey).any (· ≠ item.workItemId) then
    (.error (.scheduling .invalidWorkItem "Logical identity already bound to another work item"), w)
  else (.ok (), { w with
    items := w.items.save item
    byIdentity := w.byIdentity.set item.logicalIdentityKey item.workItemId })

def updateCas (w : SchedulerWorld) (item : SchedulerWorkItem) (expectedRevision : ℕ) :
    Except SchedulerError SchedulerWorkItem × SchedulerWorld :=
  match w.items.updateCas item expectedRevision with
  | some (next, items) => (.ok next, { w with items })
  | none => (.error (.scheduling .schedulerCasConflict "Work item revision conflict"), w)

def acquire (w : SchedulerWorld) (coordinationKey phase ownerId : String) :
    Except SchedulerError CoordinatorLease × SchedulerWorld :=
  if (w.leases.get coordinationKey).any fun current =>
      decide (current.status = .held ∧ current.ownerId ≠ ownerId ∧
        current.leaseExpiresAt > w.surroundings.dateNow) then
    (.error (.durability .leaseAlreadyHeld s!"Lease already held for {coordinationKey}"), w)
  else
    let lease : CoordinatorLease :=
      { coordinationKey, phase, ownerId
        fenceToken := w.fence + 1
        leaseExpiresAt := w.surroundings.dateNow + 60000
        acquiredAt := w.surroundings.dateNow
        lastHeartbeatAt := w.surroundings.dateNow
        status := .held }
    (.ok lease, { w with
      leases := w.leases.set coordinationKey lease
      fence := w.fence + 1 })

/-- `release`. -/
def releaseLease (w : SchedulerWorld) (coordinationKey ownerId : String) (fenceToken : ℕ) :
    SchedulerWorld :=
  if (w.leases.get coordinationKey).any fun current =>
      decide (current.ownerId = ownerId ∧ current.fenceToken = fenceToken) then
    { w with leases := w.leases.delete coordinationKey }
  else w

def assertWritable (w : SchedulerWorld) (coordinationKey ownerId : String) (fenceToken : ℕ) :
    Except SchedulerError Unit :=
  if (w.leases.get coordinationKey).any fun current =>
      decide (current.ownerId = ownerId ∧ current.fenceToken = fenceToken ∧
        current.status = .held) then .ok ()
  else .error (.durability .staleFenceToken "Stale scheduler fence")

/-- `persistCas`, of the rows that `applyCharge` computes from those that it has read. -/
def persistCas (deps : SchedulerDeps) (w : SchedulerWorld) (charge : ServiceCharge)
    (before : List ProjectFairnessState) :
    Except SchedulerError (List ProjectFairnessState) × SchedulerWorld :=
  let after := nextFairnessRowsAfterService deps.localeLe before charge
  match FairnessRows.persistCas before after w.fairness with
  | (.ok (), fairness) => (.ok after, { w with fairness })
  | (.error (.insertLostRace _), fairness) =>
    (.error (.scheduling .schedulerCasConflict "Fairness insert lost race"), { w with fairness })
  | (.error (.staleRevision _ _ _), fairness) =>
    (.error (.scheduling .schedulerCasConflict "Stale fairness revision rejected"),
      { w with fairness })

end SchedulerWorld

/-! ## Calls -/

inductive SchedulerOp where
  | isAccepting
  | databaseReachable
  | nowIso
  | randomUUID
  | getGlobalPause
  | getProjectPause (projectId : String)
  | getProjectConfig (projectId : String)
  | areDependenciesSatisfied (runId : String)
  | getRun (runId : String)
  | listDiscoverableRunIds (limit : ℕ)
  | candidateWorkKinds (run : RunRecord)
  | workLogicalIdentityKey (run : RunRecord) (workKind : String)
  | countActiveGlobal
  | countActiveByProject (projectId : String)
  | listSchedulableProjectSummaries (nowIso : ℕ)
  | listCandidateWorkByProject (projectId : String) (statuses : List WorkItemStatus) (limit : ℕ)
  | listExpiredClaimed (limit : ℕ)
  | getByLogicalIdentity (logicalIdentityKey : String)
  | save (item : SchedulerWorkItem)
  | updateCas (item : SchedulerWorkItem) (expectedRevision : ℕ)
  | isLiveHeld (coordinationKey : String)
  | acquire (coordinationKey phase ownerId : String)
  | release (coordinationKey ownerId : String) (fenceToken : ℕ)
  | assertWritable (coordinationKey ownerId : String) (fenceToken : ℕ)
  | lock
  | unlock
  | loadState
  | persistCas (charge : ServiceCharge) (before : List ProjectFairnessState)
  | append (decision : SchedulerDecisionRecord)
  | assertDispatchReady (work : SchedulerWorkItem)
  | invoke (work : SchedulerWorkItem)

abbrev SchedulerOp.Res : SchedulerOp → Type
  | .isAccepting | .databaseReachable | .getGlobalPause | .getProjectPause _ | .isLiveHeld _ => Bool
  | .nowIso | .countActiveGlobal | .countActiveByProject _ => ℕ
  | .randomUUID | .workLogicalIdentityKey _ _ => String
  | .getProjectConfig _ => Option SchedulerProjectConfig
  | .areDependenciesSatisfied _ => Scheduling.DependencyAnswer
  | .getRun _ => Option RunRecord
  | .listDiscoverableRunIds _ | .candidateWorkKinds _ | .listSchedulableProjectSummaries _ =>
    List String
  | .listCandidateWorkByProject _ _ _ | .listExpiredClaimed _ => List SchedulerWorkItem
  | .getByLogicalIdentity _ => Option SchedulerWorkItem
  | .updateCas _ _ => SchedulerWorkItem
  | .acquire _ _ _ => CoordinatorLease
  | .save _ | .release _ _ _ | .assertWritable _ _ _ | .lock | .unlock | .append _ => Unit
  | .loadState | .persistCas _ _ => List ProjectFairnessState
  | .assertDispatchReady _ => Option DispatchRefusal
  | .invoke _ => Option String

abbrev SchedulerSig : Sig := Sig.throwing SchedulerOp SchedulerOp.Res SchedulerError

/-- What a call answers, and what it does to the repositories. -/
def SchedulerWorld.call (deps : SchedulerDeps) (w : SchedulerWorld) :
    (o : SchedulerOp) → Except SchedulerError o.Res × SchedulerWorld
  | .isAccepting => (.ok w.surroundings.isAccepting, w)
  | .databaseReachable => (.ok w.surroundings.databaseReachable, w)
  | .nowIso => (.ok w.surroundings.nowIso, w)
  | .randomUUID => (.ok w.surroundings.randomUUID, w)
  | .getGlobalPause => (.ok w.surroundings.globalPaused, w)
  | .getProjectPause projectId => (.ok (w.surroundings.projectPaused projectId), w)
  | .getProjectConfig projectId => (.ok (w.surroundings.projectConfig projectId), w)
  | .areDependenciesSatisfied runId =>
    (.ok (Scheduling.areDependenciesSatisfied w.surroundings.view runId), w)
  | .getRun runId => (.ok (w.surroundings.view.getById runId), w)
  | .listDiscoverableRunIds limit => (.ok (w.surroundings.discoverableRunIds.take limit), w)
  | .candidateWorkKinds run => (.ok (w.surroundings.candidateWorkKinds run), w)
  | .workLogicalIdentityKey run workKind =>
    (.ok (w.surroundings.workLogicalIdentityKey run workKind), w)
  | .countActiveGlobal => (.ok (w.active deps).length, w)
  | .countActiveByProject projectId =>
    (.ok ((w.active deps).filter fun item => decide (item.projectId = projectId)).length, w)
  | .listSchedulableProjectSummaries nowIso => (.ok (w.schedulableProjects deps nowIso), w)
  | .listCandidateWorkByProject projectId statuses limit =>
    (.ok (w.listCandidateWorkByProject projectId statuses limit), w)
  | .listExpiredClaimed limit => (.ok (w.listExpiredClaimed deps limit), w)
  | .getByLogicalIdentity logicalIdentityKey =>
    (.ok (w.getByLogicalIdentity logicalIdentityKey), w)
  | .save item => w.saveItem item
  | .updateCas item expectedRevision => w.updateCas item expectedRevision
  | .isLiveHeld coordinationKey => (.ok (w.isLiveHeld coordinationKey), w)
  | .acquire coordinationKey phase ownerId => w.acquire coordinationKey phase ownerId
  | .release coordinationKey ownerId fenceToken =>
    (.ok (), w.releaseLease coordinationKey ownerId fenceToken)
  | .assertWritable coordinationKey ownerId fenceToken =>
    (w.assertWritable coordinationKey ownerId fenceToken, w)
  | .lock =>
    if w.locked then (.error (.scheduling .schedulerCasConflict "Fairness lock already held"), w)
    else (.ok (), { w with locked := true })
  | .unlock => (.ok (), { w with locked := false })
  | .loadState => (.ok (w.fairness.listAll deps.localeLe), w)
  | .persistCas charge before => w.persistCas deps charge before
  | .append decision => (.ok (), { w with decisions := w.decisions ++ [decision] })
  | .assertDispatchReady work => (w.surroundings.assertDispatchReady work, w)
  | .invoke work => (w.surroundings.invoke work, w)

/-- The repositories, while others change what surrounds the scheduler. -/
def schedulerSystem (deps : SchedulerDeps) :
    System SchedulerSig SchedulerWorld SchedulerSurroundings where
  handler o w := w.call deps o
  env surroundings w := { w with surroundings }

/-- An async function of the scheduler. -/
abbrev SchedulerAsync (α : Type) : Type := Async SchedulerSig SchedulerError α

def SchedulerOp.await (o : SchedulerOp) : SchedulerAsync o.Res := Async.await o

/-! ## Selection -/

/-- `SelectWorkOptions`; `workerSupports` is `workerSupportsKind` of the worker's capabilities. -/
structure SelectWorkOptions where
  workerSupports : SchedulerWorkItem → Bool
  perProjectLimit : Option ℕ
  projectIds : Option (List String)

/-- What the candidates of one project are judged by. -/
structure ProjectContender where
  now : ℕ
  globalPaused : Bool
  projectPaused : Bool
  projectActive : ℕ
  globalActive : ℕ
  config : SchedulerProjectConfig
  deficit : ℕ

/-- What one contender brings to the snapshot. -/
structure ContenderPage where
  weight : Option (String × ℚ)
  scored : List ScoredCandidate

structure SelectionSnapshot where
  now : ℕ
  scored : List ScoredCandidate
  weights : JsMap String ℚ
  contenderProjectIds : List String
  globalActive : ℕ

section Allocation

variable (deps : SchedulerDeps)

/-- The body of the loop of `reconcileExpiredClaimedWork`: `true` where the claim is recovered. -/
def reconcileExpiredClaim (item : SchedulerWorkItem) : SchedulerAsync Bool := do
  if ← (SchedulerOp.isLiveHeld (schedulerWorkCoordinationKey item.workItemId)).await then
    return false
  else
    tryCatch (do
      let _ ← (SchedulerOp.updateCas (item.unclaimed .eligible) item.recordRevision).await
      return true) fun e =>
        if e.isCasConflict then pure false else throw e

/-- Returns expired claims to the pool, and says how many. -/
def reconcileExpiredClaimedWork (limit : ℕ) : SchedulerAsync ℕ := do
  let expired ← (SchedulerOp.listExpiredClaimed limit).await
  let recovered ← Async.collect reconcileExpiredClaim expired
  return recovered.count true

def configFor (projectId : String) : SchedulerAsync SchedulerProjectConfig := do
  let existing ← (SchedulerOp.getProjectConfig projectId).await
  return existing.getD ⟨projectId, 1, 4, .normal⟩

/-- A blocked item becomes eligible when what it depends on is there; the worker goes on with the
revision that it had before. -/
def unblock (now : ℕ) (answer : Scheduling.DependencyAnswer) (work : SchedulerWorkItem) :
    SchedulerAsync SchedulerWorkItem :=
  if work.status = .blockedDependency ∧ answer.satisfied = true ∧ answer.unsatisfiable = false
  then do
    let unblocked := { work with status := .eligible, eligibleAt := now }
    let _ ← (SchedulerOp.updateCas unblocked work.recordRevision).await
    return unblocked
  else pure work

/-- The inner loop of `buildSelectionSnapshot`, for one item. -/
def considerCandidate (options : SelectWorkOptions) (contender : ProjectContender)
    (work : SchedulerWorkItem) : SchedulerAsync (Option ScoredCandidate) := do
  let answer ← (SchedulerOp.areDependenciesSatisfied work.runId).await
  let work ← unblock contender.now answer work
  let eligibility := evaluateEligibility
    { work
      nowIso := contender.now
      projectPaused := contender.projectPaused
      globalPaused := contender.globalPaused
      dependenciesSatisfied := answer.satisfied
      dependencyUnsatisfiable := answer.unsatisfiable
      projectActiveClaims := contender.projectActive
      projectMaxConcurrency := contender.config.maxConcurrency
      globalActiveClaims := contender.globalActive
      globalMaxConcurrency := deps.globalMaxConcurrency
      workerSupports := options.workerSupports work }
  return if eligibility.eligible then some (scoredCandidate work contender.now contender.deficit)
    else none

/-- The outer loop of `buildSelectionSnapshot`, for one project. -/
def considerProject (options : SelectWorkOptions) (fairnessView : JsMap String ℕ) (now : ℕ)
    (globalPaused : Bool) (globalActive : ℕ) (projectId : String) :
    SchedulerAsync ContenderPage := do
  if options.projectIds.any (projectId ∉ ·) then
    return ⟨none, []⟩
  else
    let config ← configFor projectId
    let projectPaused ← (SchedulerOp.getProjectPause projectId).await
    if projectPaused || globalPaused then
      return ⟨some (projectId, config.weight), []⟩
    else
      let projectActive ← (SchedulerOp.countActiveByProject projectId).await
      let candidates ← (SchedulerOp.listCandidateWorkByProject projectId
        [.waiting, .eligible, .blockedDependency] (options.perProjectLimit.getD 16)).await
      let scored ← Async.collect (considerCandidate deps options
        { now, globalPaused, projectPaused, projectActive, globalActive, config
          deficit := (fairnessView.get projectId).getD 0 }) candidates
      return ⟨some (projectId, config.weight), scored.reduceOption⟩

def buildSelectionSnapshot (options : SelectWorkOptions) (fairnessView : JsMap String ℕ) :
    SchedulerAsync SelectionSnapshot := do
  let now ← SchedulerOp.nowIso.await
  let globalPaused ← SchedulerOp.getGlobalPause.await
  let globalActive ← SchedulerOp.countActiveGlobal.await
  let contenders ← (SchedulerOp.listSchedulableProjectSummaries now).await
  let pages ← Async.collect
    (considerProject deps options fairnessView now globalPaused globalActive) contenders
  return {
    now
    scored := (pages.flatMap (·.scored)).insertionSort fun a b => compareCandidates a b
    weights := JsMap.ofList (pages.filterMap (·.weight))
    contenderProjectIds := contenders
    globalActive }

/-- `buildSelectionDecision`, with the winner that it names. -/
def buildSelectionDecision (snapshot : SelectionSnapshot) (decisionId : String)
    (winner : Option ScoredCandidate) (reasonCode : SchedulingReasonCode)
    (fairnessCharge : Option FairnessChargeRecord) : SchedulerDecisionRecord where
  decisionId := decisionId
  timestamp := snapshot.now
  candidateWorkIds := snapshot.scored.map (·.work.workItemId)
  selectedWorkId := winner.map (·.work.workItemId)
  candidateProjects := snapshot.contenderProjectIds
  globalActive := snapshot.globalActive
  reasonCode := reasonCode
  score := winner.map (·.score)
  projectId := winner.map (·.work.projectId)
  fairnessCharge := fairnessCharge

/-! ## Claims -/

/-- `runSerializedAllocation`: the lock is let go of however `fn` ends. -/
def runSerializedAllocation {α : Type} (fn : SchedulerAsync α) : SchedulerAsync α := do
  SchedulerOp.lock.await
  let r ← tryCatch fn fun e => do
    SchedulerOp.unlock.await
    throw e
  SchedulerOp.unlock.await
  return r

def bestEffortRelease (coordinationKey ownerId : String) (fenceToken : ℕ) : SchedulerAsync Unit :=
  tryCatch (SchedulerOp.release coordinationKey ownerId fenceToken).await fun _ => pure ()

/-- The lease of a candidate, if nobody else holds it. -/
def acquireLease (ownerId coordinationKey : String) : SchedulerAsync (Option CoordinatorLease) :=
  tryCatch (do
    let lease ← (SchedulerOp.acquire coordinationKey "SCHEDULER" ownerId).await
    return some lease) fun e =>
      if e.isLeaseHeld then pure none else throw e

/-- Claims an item under its lease, unless the item has moved on since it was listed. -/
def claimItem (ownerId : String) (work : SchedulerWorkItem) (lease : CoordinatorLease)
    (decisionId : String) : SchedulerAsync (Option SchedulerWorkItem) :=
  tryCatch (do
    let claimed ← (SchedulerOp.updateCas { work with
      status := .claimed
      claimOwnerId := some ownerId
      fenceToken := some lease.fenceToken
      leaseExpiresAt := some lease.leaseExpiresAt
      attemptCount := work.attemptCount + 1
      lastDecisionId := some decisionId } work.recordRevision).await
    return some claimed) fun e => do
      bestEffortRelease (schedulerWorkCoordinationKey work.workItemId) ownerId lease.fenceToken
      if e.isCasConflict then pure none else throw e

/-- `applyCharge` of the allocation that holds the lock. -/
def applyCharge (charge : ServiceCharge) :
    SchedulerAsync (List ProjectFairnessState × List ProjectFairnessState) := do
  let before ← SchedulerOp.loadState.await
  let after ← (SchedulerOp.persistCas charge before).await
  return (before, after)

/-- The loop of `selectAndClaimWork` over the candidates. -/
def claimFirst (ownerId : String) (snapshot : SelectionSnapshot) :
    List ScoredCandidate → SchedulerAsync (Option (SchedulerWorkItem × CoordinatorLease))
  | [] => do
    let decisionId ← SchedulerOp.randomUUID.await
    (SchedulerOp.append (buildSelectionDecision snapshot decisionId snapshot.scored.head? .skipped
      none)).await
    return none
  | candidate :: rest => do
    match ← acquireLease ownerId (schedulerWorkCoordinationKey candidate.work.workItemId) with
    | none => claimFirst ownerId snapshot rest
    | some lease =>
      let decisionId ← SchedulerOp.randomUUID.await
      match ← claimItem ownerId candidate.work lease decisionId with
      | none => claimFirst ownerId snapshot rest
      | some claimed =>
        let rows ← applyCharge ⟨claimed.projectId, snapshot.weights, snapshot.now⟩
        let ordered := { snapshot with
          scored := candidate :: snapshot.scored.filter (· ≠ candidate) }
        (SchedulerOp.append (buildSelectionDecision ordered decisionId (some candidate) .selected
          (some ⟨rows.1, rows.2, ownerId, lease.fenceToken⟩))).await
        return some (claimed, lease)

/-- What `selectAndClaimWork` does under the lock. -/
def allocate (ownerId : String) (options : SelectWorkOptions) :
    SchedulerAsync (Option (SchedulerWorkItem × CoordinatorLease)) := do
  let fairnessRows ← SchedulerOp.loadState.await
  let snapshot ← buildSelectionSnapshot deps options (createFairnessState fairnessRows)
  claimFirst ownerId snapshot snapshot.scored

def selectAndClaimWork (ownerId : String) (options : SelectWorkOptions) :
    SchedulerAsync (Option (SchedulerWorkItem × CoordinatorLease)) := do
  let _ ← reconcileExpiredClaimedWork 200
  runSerializedAllocation (allocate deps ownerId options)

end Allocation

/-! ## Dispatch -/

/-- A `LeaseFencedWorkStateWriter`: the lease that each write of the work's state needs. -/
structure LeaseFence where
  coordinationKey : String
  ownerId : String
  fenceToken : ℕ

namespace LeaseFence

variable (fence : LeaseFence) (work : SchedulerWorkItem)

def assertFence : SchedulerAsync Unit :=
  tryCatch (SchedulerOp.assertWritable fence.coordinationKey fence.ownerId fence.fenceToken).await
    fun e =>
      if e.errorClass = .durabilityError then
        throw (SchedulerError.scheduling .staleSchedulerFence
          "Scheduler fence lost; refusing work settle")
      else throw e

def markStale (reasonCode : String) : SchedulerAsync SchedulerWorkItem := do
  fence.assertFence
  (SchedulerOp.updateCas { work.unclaimed .cancelled with
    failureReasonCode := some reasonCode
    lastErrorSafeMessage := some (Collections.codeUnits s!"Stale work: {reasonCode}") }
    work.recordRevision).await

def markRunning : SchedulerAsync SchedulerWorkItem := do
  fence.assertFence
  (SchedulerOp.updateCas { work with status := .running } work.recordRevision).await

def markSucceeded (resultRef : Option String) : SchedulerAsync SchedulerWorkItem := do
  fence.assertFence
  (SchedulerOp.updateCas { work.unclaimed .succeeded with
    resultRef := resultRef.or work.resultRef } work.recordRevision).await

def markFailed (failureClass reasonCode : String) (message : List ℕ) (retryable : Bool) :
    SchedulerAsync SchedulerWorkItem := do
  fence.assertFence
  let exhausted := decide (work.attemptCount ≥ work.maxAttempts) || !retryable
  let nextEligible := (← SchedulerOp.nowIso.await) +
    min 300000 (1000 * 2 ^ min 8 work.attemptCount)
  (SchedulerOp.updateCas { work.unclaimed (if exhausted then .failed else .eligible) with
    eligibleAt := if exhausted then work.eligibleAt else nextEligible
    failureClass := some failureClass
    failureReasonCode := some reasonCode
    lastErrorSafeMessage := some (message.take 2000) } work.recordRevision).await

end LeaseFence

def dispatch (fence : LeaseFence) (work : SchedulerWorkItem) :
    SchedulerAsync SchedulerWorkItem := do
  match ← (SchedulerOp.assertDispatchReady work).await with
  | some refusal =>
    let _ ← fence.markStale work refusal.reasonCode
    throw (⟨.schedulingError, .dispatchReadinessFailed, refusal.message⟩ : SchedulerError)
  | none =>
    let running ← fence.markRunning work
    tryCatch (do
      let resultRef ← (SchedulerOp.invoke running).await
      fence.markSucceeded running resultRef) fun e => do
        let retryable := isSafeRetryable e
        let _ ← fence.markFailed running (if retryable then "RETRYABLE" else "TERMINAL")
          "DISPATCH_FAILED" (e.message.take 500) retryable
        throw e

/-! ## Loops -/

structure SchedulerLoopPorts where
  runtimeId : String
  options : SelectWorkOptions
  discoveryBatchSize : ℕ
  claimBatchSize : ℕ

structure ClaimTickResult where
  claimed : ℕ
  dispatched : ℕ
  deriving DecidableEq, Repr

section Loops

variable (deps : SchedulerDeps) (ports : SchedulerLoopPorts)

/-- Dispatches claimed work, and lets go of its lease however that ends; `false` where the work was
not ready. -/
def dispatchClaimed (work : SchedulerWorkItem) (lease : CoordinatorLease) :
    SchedulerAsync Bool := do
  let fence : LeaseFence :=
    ⟨schedulerWorkCoordinationKey work.workItemId, ports.runtimeId, lease.fenceToken⟩
  let release := bestEffortRelease fence.coordinationKey fence.ownerId fence.fenceToken
  let dispatched ← tryCatch (do
    let _ ← dispatch fence work
    return true) fun e => do
      release
      if e.isReadinessFailure then pure false else throw e
  if dispatched then
    release
  return dispatched

/-- The turns that are left of the loop of `SchedulerClaimLoop.tick`. -/
def claimTurns : ℕ → ClaimTickResult → SchedulerAsync ClaimTickResult
  | 0, result => pure result
  | n + 1, result => do
    if ← SchedulerOp.isAccepting.await then
      match ← selectAndClaimWork deps ports.runtimeId ports.options with
      | none => return result
      | some (work, lease) =>
        let dispatched ← dispatchClaimed ports work lease
        claimTurns n ⟨result.claimed + 1, result.dispatched + if dispatched then 1 else 0⟩
    else return result

/-- `SchedulerClaimLoop.tick`. -/
def claimTick : SchedulerAsync ClaimTickResult := do
  if ← SchedulerOp.isAccepting.await then
    if ← SchedulerOp.databaseReachable.await then
      claimTurns deps ports ports.claimBatchSize ⟨0, 0⟩
    else return ⟨0, 0⟩
  else return ⟨0, 0⟩

/-- The body of the loop of `discoverForRun`: `true` where it creates an item. -/
def materialize (run : RunRecord) (config : SchedulerProjectConfig) (workKind : String) :
    SchedulerAsync Bool := do
  let logicalIdentityKey ← (SchedulerOp.workLogicalIdentityKey run workKind).await
  match ← (SchedulerOp.getByLogicalIdentity logicalIdentityKey).await with
  | some _ => return false
  | none =>
    let now ← SchedulerOp.nowIso.await
    let depsOk ← (SchedulerOp.areDependenciesSatisfied run.runId).await
    let unsatisfiable := !depsOk.satisfied && depsOk.unsatisfiable
    (SchedulerOp.save
      { workItemId := deps.workItemIdFromIdentity logicalIdentityKey
        projectId := run.projectId
        runId := run.runId
        logicalIdentityKey
        status :=
          if depsOk.satisfied then .eligible
          else if depsOk.unsatisfiable then .cancelled else .blockedDependency
        priorityClass := config.defaultPriorityClass
        createdAt := now
        eligibleAt := now
        attemptCount := 0
        maxAttempts := 5
        recordRevision := 1
        claimOwnerId := none
        fenceToken := none
        leaseExpiresAt := none
        failureClass := none
        failureReasonCode := if unsatisfiable then some "DEPENDENCY_UNSATISFIABLE" else none
        lastErrorSafeMessage := none
        resultRef := none
        lastDecisionId := none }).await
    return true

/-- How many items `discoverForRun` creates. -/
def discoverForRun (runId : String) : SchedulerAsync ℕ := do
  match ← (SchedulerOp.getRun runId).await with
  | none => return 0
  | some run =>
    let kinds ← (SchedulerOp.candidateWorkKinds run).await
    let config ← configFor run.projectId
    let created ← Async.collect (materialize deps run config) kinds
    return created.count true

/-- `SchedulerDiscoveryLoop.tick`, with the number of items that it creates. -/
def discoveryTick : SchedulerAsync ℕ := do
  if ← SchedulerOp.isAccepting.await then
    if ← SchedulerOp.databaseReachable.await then
      let runIds ← (SchedulerOp.listDiscoverableRunIds ports.discoveryBatchSize).await
      let created ← Async.collect (discoverForRun deps) runIds
      return created.sum
    else return 0
  else return 0

/-! ## Schedulers at work -/

/-- A tick of one of the two loops. -/
inductive SchedulerTick where
  | claim (ports : SchedulerLoopPorts)
  | discover (ports : SchedulerLoopPorts)

/-- What a tick reports: the numbers of items that it claimed, dispatched and created. -/
structure SchedulerTickResult where
  claimed : ℕ
  dispatched : ℕ
  created : ℕ
  deriving DecidableEq, Repr

def SchedulerTick.run : SchedulerTick → SchedulerAsync SchedulerTickResult
  | .claim ports => do
    let result ← claimTick deps ports
    return ⟨result.claimed, result.dispatched, 0⟩
  | .discover ports => do
    let created ← discoveryTick deps ports
    return ⟨0, 0, created⟩

end Loops

/-- Any number of ticks at work on the same repositories. -/
def schedulerPool {ι : Type} (deps : SchedulerDeps) (w : SchedulerWorld)
    (ticks : ι → SchedulerTick) :
    Pool SchedulerSig ι SchedulerWorld (Except SchedulerError SchedulerTickResult) :=
  Pool.init w fun i => ((ticks i).run deps).prog

end Orchestrator
