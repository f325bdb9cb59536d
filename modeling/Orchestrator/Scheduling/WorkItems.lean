import Mathlib.Logic.Relation
import Orchestrator.Collections.JsValue
import Orchestrator.Collections.Repository

/-!
# Work items

* `SchedulerWorkItem`, `evaluateEligibility`, `computeSchedulingScore`, `compareCandidates`: the
  items of the scheduler, and how candidates for a claim are found and ranked;
* `WorkItems`: the repository of the items, with its compare-and-set;
* `WorkStep`: the life cycle of an item;
* `Seen`: an item that was read, and may have moved on since;
* `updateCas_cases`: an item that was read takes its next step, or has moved on.
-/

namespace Orchestrator

open Collections Relation

/-! ## Items -/

inductive WorkItemStatus where
  | waiting
  | blockedDependency
  | eligible
  | claimed
  | running
  | succeeded
  | failed
  | contained
  | cancelled
  deriving DecidableEq, Repr

/-- `isTerminalWorkStatus`. -/
def WorkItemStatus.isTerminal (status : WorkItemStatus) : Bool :=
  status ∈ [.succeeded, .failed, .contained, .cancelled]

inductive PriorityClass where
  | critical
  | high
  | normal
  | low
  | background
  deriving DecidableEq, Repr

/-- `PRIORITY_RANK`. -/
def PriorityClass.rank : PriorityClass → ℕ
  | .critical => 1000
  | .high => 800
  | .normal => 500
  | .low => 200
  | .background => 50

/-- An item; instants are in milliseconds, and messages are lists of UTF-16 code units. -/
structure SchedulerWorkItem where
  workItemId : String
  projectId : String
  runId : String
  logicalIdentityKey : String
  status : WorkItemStatus
  priorityClass : PriorityClass
  createdAt : ℕ
  eligibleAt : ℕ
  attemptCount : ℕ
  maxAttempts : ℕ
  recordRevision : ℕ
  claimOwnerId : Option String
  fenceToken : Option ℕ
  leaseExpiresAt : Option ℕ
  failureClass : Option String
  failureReasonCode : Option String
  lastErrorSafeMessage : Option (List ℕ)
  resultRef : Option String
  lastDecisionId : Option String
  deriving DecidableEq, Repr

def schedulerWorkCoordinationKey (workItemId : String) : String := "scheduler:work:" ++ workItemId

/-! ## Eligibility and score -/

inductive SchedulingReasonCode where
  | projectCapacity
  | globalCapacity
  | dependencyBlocked
  | projectPaused
  | globalPaused
  | notYetEligible
  | workerCapability
  | selected
  | skipped
  deriving DecidableEq, Repr

structure EligibilityInput where
  work : SchedulerWorkItem
  nowIso : ℕ
  projectPaused : Bool
  globalPaused : Bool
  dependenciesSatisfied : Bool
  dependencyUnsatisfiable : Bool
  projectActiveClaims : ℕ
  projectMaxConcurrency : ℕ
  globalActiveClaims : ℕ
  globalMaxConcurrency : ℕ
  workerSupports : Bool

structure EligibilityResult where
  eligible : Bool
  reason : SchedulingReasonCode
  deriving DecidableEq, Repr

def evaluateEligibility (input : EligibilityInput) : EligibilityResult :=
  if input.work.status.isTerminal then ⟨false, .skipped⟩
  else if input.work.status = .claimed ∨ input.work.status = .running then ⟨false, .skipped⟩
  else if input.globalPaused then ⟨false, .globalPaused⟩
  else if input.projectPaused then ⟨false, .projectPaused⟩
  else if input.dependencyUnsatisfiable then ⟨false, .dependencyBlocked⟩
  else if !input.dependenciesSatisfied then ⟨false, .dependencyBlocked⟩
  else if input.work.eligibleAt > input.nowIso then ⟨false, .notYetEligible⟩
  else if input.projectActiveClaims ≥ input.projectMaxConcurrency then ⟨false, .projectCapacity⟩
  else if input.globalActiveClaims ≥ input.globalMaxConcurrency then ⟨false, .globalCapacity⟩
  else if !input.workerSupports then ⟨false, .workerCapability⟩
  else if input.work.status = .blockedDependency then ⟨false, .dependencyBlocked⟩
  else if input.work.status = .waiting ∨ input.work.status = .eligible then ⟨true, .selected⟩
  else ⟨false, .skipped⟩

/-- Only waiting and eligible items are claimed. -/
theorem status_of_eligible {input : EligibilityInput}
    (h : (evaluateEligibility input).eligible = true) :
    input.work.status = .waiting ∨ input.work.status = .eligible := by
  by_contra hready
  unfold evaluateEligibility at h
  simp only [if_neg hready, apply_ite EligibilityResult.eligible, ite_self,
    Bool.false_eq_true] at h

structure ScoredCandidate where
  work : SchedulerWorkItem
  score : ℕ
  waitingAgeMs : ℕ
  priorityContribution : ℕ
  agingContribution : ℕ
  deficitContribution : ℕ
  deriving DecidableEq, Repr

/-- `computeSchedulingScore`, of an item without a deadline. -/
def computeSchedulingScore (priorityClass : PriorityClass) (waitingAgeMs projectDeficit : ℕ) : ℕ :=
  priorityClass.rank + min 400 (waitingAgeMs / 60000 * 10) + min 300 projectDeficit

/-- The candidate that the source computes for an eligible item. -/
def scoredCandidate (work : SchedulerWorkItem) (now projectDeficit : ℕ) : ScoredCandidate where
  work := work
  score := computeSchedulingScore work.priorityClass (now - work.eligibleAt) projectDeficit
  waitingAgeMs := now - work.eligibleAt
  priorityContribution := work.priorityClass.rank
  agingContribution := min 400 ((now - work.eligibleAt) / 60000 * 10)
  deficitContribution := min 300 projectDeficit

/-- `compareCandidates(a, b) <= 0`. -/
def compareCandidates (a b : ScoredCandidate) : Bool :=
  decide (a.score > b.score) || (decide (a.score = b.score) &&
    (decide (a.work.createdAt < b.work.createdAt) ||
      (decide (a.work.createdAt = b.work.createdAt) &&
        decide (UpTo a.work.workItemId b.work.workItemId))))

/-! ## The repository -/

abbrev WorkItems := Repository SchedulerWorkItem.workItemId

/-- `updateCas`, where `none` is a conflict. -/
def WorkItems.updateCas (items : WorkItems) (item : SchedulerWorkItem) (expectedRevision : ℕ) :
    Option (SchedulerWorkItem × WorkItems) :=
  match items.getById item.workItemId with
  | some current =>
    if current.recordRevision = expectedRevision then
      let next := { item with recordRevision := expectedRevision + 1 }
      some (next, items.save next)
    else none
  | none => none

/-! ## The life cycle -/

/-- The item with the next revision. -/
def SchedulerWorkItem.revised (item : SchedulerWorkItem) : SchedulerWorkItem :=
  { item with recordRevision := item.recordRevision + 1 }

/-- The item without a claim, under another status. -/
def SchedulerWorkItem.unclaimed (item : SchedulerWorkItem) (status : WorkItemStatus) :
    SchedulerWorkItem :=
  { item with status, claimOwnerId := none, fenceToken := none, leaseExpiresAt := none }

/-- What an update may make of an item, its revision apart. -/
inductive WorkUpdate (item : SchedulerWorkItem) : SchedulerWorkItem → Prop where
  | unblock (now : ℕ) (h : item.status = .blockedDependency) :
    WorkUpdate item { item with status := .eligible, eligibleAt := now }
  | claim (ownerId decisionId : String) (fenceToken leaseExpiresAt : ℕ)
      (h : item.status = .waiting ∨ item.status = .eligible) :
    WorkUpdate item { item with
      status := .claimed
      claimOwnerId := some ownerId
      fenceToken := some fenceToken
      leaseExpiresAt := some leaseExpiresAt
      attemptCount := item.attemptCount + 1
      lastDecisionId := some decisionId }
  | expire (h : item.status = .claimed) : WorkUpdate item (item.unclaimed .eligible)
  | stale (reasonCode : String) (message : List ℕ) (h : item.status = .claimed) :
    WorkUpdate item { item.unclaimed .cancelled with
      failureReasonCode := some reasonCode
      lastErrorSafeMessage := some message }
  | run (h : item.status = .claimed) : WorkUpdate item { item with status := .running }
  | succeed (resultRef : Option String) (h : item.status = .running) :
    WorkUpdate item { item.unclaimed .succeeded with resultRef }
  | fail (failureClass reasonCode : String) (message : List ℕ) (h : item.status = .running) :
    WorkUpdate item { item.unclaimed .failed with
      failureClass := some failureClass
      failureReasonCode := some reasonCode
      lastErrorSafeMessage := some message }
  | retry (nextEligible : ℕ) (failureClass reasonCode : String) (message : List ℕ)
      (h : item.status = .running) :
    WorkUpdate item { item.unclaimed .eligible with
      eligibleAt := nextEligible
      failureClass := some failureClass
      failureReasonCode := some reasonCode
      lastErrorSafeMessage := some message }

/-- One step of the life cycle. -/
def WorkStep (item item' : SchedulerWorkItem) : Prop :=
  ∃ updated, WorkUpdate item updated ∧ item' = updated.revised

variable {items items' : WorkItems} {item item' updated work : SchedulerWorkItem}

/-- An update keeps the item's identity and leaves its revision to the repository. -/
theorem WorkUpdate.same (h : WorkUpdate item updated) :
    updated.workItemId = item.workItemId ∧ updated.projectId = item.projectId ∧
      updated.recordRevision = item.recordRevision := by
  cases h <;> exact ⟨rfl, rfl, rfl⟩

/-- An item starts to run only from a claim. -/
theorem WorkUpdate.running (h : WorkUpdate item updated) (hrunning : updated.status = .running) :
    item.status = .claimed := by
  cases h with
  | run hclaimed => exact hclaimed
  | _ => cases hrunning

/-- An item is claimed only while it waits or is eligible. -/
theorem WorkUpdate.claimed (h : WorkUpdate item updated) (hclaimed : updated.status = .claimed) :
    item.status = .waiting ∨ item.status = .eligible := by
  cases h with
  | claim _ _ _ _ hready => exact hready
  | _ => cases hclaimed

/-- A running item does not stay running. -/
theorem WorkUpdate.settles (h : WorkUpdate item updated) (hrunning : item.status = .running) :
    updated.status ≠ .running := by
  intro hstill
  rw [h.running hstill] at hrunning
  cases hrunning

/-- The final statuses are final. -/
theorem WorkUpdate.not_terminal (h : WorkUpdate item updated) :
    item.status.isTerminal = false := by
  cases h with
  | claim _ _ _ _ h => rcases h with h | h <;> rw [h] <;> rfl
  | unblock _ h => rw [h]; rfl
  | expire h => rw [h]; rfl
  | stale _ _ h => rw [h]; rfl
  | run h => rw [h]; rfl
  | succeed _ h => rw [h]; rfl
  | fail _ _ _ h => rw [h]; rfl
  | retry _ _ _ _ h => rw [h]; rfl

theorem WorkStep.revision (h : WorkStep item item') :
    item'.recordRevision = item.recordRevision + 1 := by
  obtain ⟨updated, hupdate, rfl⟩ := h
  exact congrArg (· + 1) hupdate.same.2.2

/-- An item that has moved on has a higher revision. -/
theorem eq_or_lt_of_workSteps (h : ReflTransGen WorkStep item item') :
    item' = item ∨ item.recordRevision < item'.recordRevision := by
  induction h with
  | refl => exact .inl rfl
  | tail _ hstep ih =>
    have hlt := hstep.revision
    rcases ih with rfl | ih
    · exact .inr (by omega)
    · exact .inr (by omega)

/-! ## Items that move on -/

/-- Items are only added, and move along their life cycle. -/
def ItemsMove (items items' : WorkItems) : Prop :=
  ∀ id item, items.getById id = some item →
    ∃ item', items'.getById id = some item' ∧ ReflTransGen WorkStep item item'

theorem ItemsMove.refl (items : WorkItems) : ItemsMove items items :=
  fun _ item h => ⟨item, h, .refl⟩

theorem ItemsMove.trans {items'' : WorkItems} (h : ItemsMove items items')
    (h' : ItemsMove items' items'') : ItemsMove items items'' := by
  intro id item hitem
  obtain ⟨item', hitem', hsteps⟩ := h id item hitem
  obtain ⟨item'', hitem'', hsteps'⟩ := h' id item' hitem'
  exact ⟨item'', hitem'', hsteps.trans hsteps'⟩

/-- The item was read: it is there still, or has moved on. -/
def Seen (work : SchedulerWorkItem) (items : WorkItems) : Prop :=
  ∃ current, items.getById work.workItemId = some current ∧
    (current = work ∨ work.recordRevision < current.recordRevision)

theorem seen_of_getById {id : String} (h : items.getById id = some work) : Seen work items := by
  refine ⟨work, ?_, .inl rfl⟩
  rw [Repository.id_of_getById h]
  exact h

theorem Seen.moves (h : Seen work items) (hmoves : ItemsMove items items') : Seen work items' := by
  obtain ⟨current, hcurrent, hwork⟩ := h
  obtain ⟨current', hcurrent', hsteps⟩ := hmoves _ _ hcurrent
  refine ⟨current', hcurrent', ?_⟩
  rcases hwork with rfl | hlt
  · exact eq_or_lt_of_workSteps hsteps
  · rcases eq_or_lt_of_workSteps hsteps with rfl | hlt'
    · exact .inr hlt
    · exact .inr (hlt.trans hlt')

/-- An item was read before the update that was made of it. -/
theorem Seen.of_revised (h : Seen item.revised items) : Seen item items := by
  obtain ⟨current, hcurrent, hitem⟩ := h
  refine ⟨current, hcurrent, .inr ?_⟩
  have hlt : item.recordRevision < item.revised.recordRevision := Nat.lt_succ_self _
  rcases hitem with rfl | hlt'
  · exact hlt
  · exact hlt.trans hlt'

/-- A new item is added. -/
theorem itemsMove_save_new (h : items.getById item.workItemId = none) :
    ItemsMove items (items.save item) := by
  intro id other hother
  have hne : item.workItemId ≠ id := by
    rintro rfl
    rw [h] at hother
    cases hother
  exact ⟨other, (Repository.getById_save_ne _ hne).trans hother, .refl⟩

/-- An item takes a step. -/
theorem itemsMove_save_step (h : items.getById item.workItemId = some item)
    (hstep : WorkStep item item') (hid : item'.workItemId = item.workItemId) :
    ItemsMove items (items.save item') := by
  intro id other hother
  by_cases heq : item'.workItemId = id
  · refine ⟨item', ?_, ?_⟩
    · rw [← heq, Repository.getById_save_self]
    · rw [← heq, hid, h] at hother
      cases hother
      exact .single hstep
  · exact ⟨other, (Repository.getById_save_ne _ heq).trans hother, .refl⟩

/-- An item that was read takes its next step, or has moved on, and there is a conflict. -/
theorem updateCas_cases (hseen : Seen work items) (hupdate : WorkUpdate work updated) :
    (items.getById work.workItemId = some work ∧
      items.updateCas updated work.recordRevision =
        some (updated.revised, items.save updated.revised)) ∨
    items.updateCas updated work.recordRevision = none := by
  obtain ⟨current, hcurrent, hwork⟩ := hseen
  obtain ⟨hid, -, hrevision⟩ := hupdate.same
  unfold WorkItems.updateCas SchedulerWorkItem.revised
  rw [hid, hcurrent, hrevision]
  rcases hwork with rfl | hlt
  · exact .inl ⟨rfl, if_pos rfl⟩
  · exact .inr (if_neg (Nat.ne_of_gt hlt))

end Orchestrator
