import Orchestrator.Atomic.Exec
import Orchestrator.Atomic.Steps
import Orchestrator.Memory.Learning

/-!
# New versions of precedents

How a precedent gets a new version, or is retired.

* `supersedePrecedent`, `retirePrecedent`: the calls of the memory service;
* `maybeUpgradeTrust`: the corroboration of a precedent by several runs;
* `MemoryCall`, `MemoryStep`, `performed`: one call after the other.
-/

namespace Orchestrator.Memory

open Atomic Collections

variable (X : MemoryExternal)

/-- The next version of a precedent: what differs is its version, what it supersedes, its statement
and its trust class. -/
def nextVersion (old : PromotedPrecedent) (statement : String) (trustClass : PrecedentTrustClass) :
    PromotedPrecedent :=
  let draft : PromotedPrecedent := { old with
    version := old.version + 1
    statement := statement
    trustClass := trustClass
    supersedesPrecedentIds := [precedentKey old.precedentId old.version]
    status := .active }
  { draft with precedentHash := precedentHash X draft }

/-- `supersedePrecedent`. -/
def supersedePrecedent (oldPrecedentId newStatement : String) : MemoryProg PromotedPrecedent := do
  match ← call (.getPrecedent oldPrecedentId) with
  | none => throw .precedentNotFound
  | some old =>
    if old.grounding.verdict = .ungrounded then throw .promotionGroundingInsufficient
    else
      let next := nextVersion X old newStatement old.trustClass
      call (.updatePrecedentStatus old.precedentId old.version .superseded)
      call (.appendPrecedent next)
      return next

/-- `retirePrecedent`. -/
def retirePrecedent (precedentId : String) : MemoryProg Unit := do
  match ← call (.getPrecedent precedentId) with
  | none => throw .precedentNotFound
  | some existing => call (.updatePrecedentStatus existing.precedentId existing.version .retired)

/-- The trust of a precedent is due to be upgraded. -/
def isUpgradeDue (precedent : PromotedPrecedent) (independentRunCount threshold : ℕ) : Bool :=
  precedent.grounding.verdict ≠ .ungrounded && precedent.trustClass ≠ .multiRunCorroborated &&
    threshold ≤ independentRunCount && precedent.status = .active

/-- `maybeUpgradeTrust`, for a record of the precedent that the caller has and the number of
independent runs that support it. -/
def maybeUpgradeTrust (precedent : PromotedPrecedent) (independentRunCount threshold : ℕ) :
    MemoryProg (Option PromotedPrecedent) :=
  if isUpgradeDue precedent independentRunCount threshold then do
    let next := nextVersion X precedent precedent.statement .multiRunCorroborated
    call (.updatePrecedentStatus precedent.precedentId precedent.version .superseded)
    call (.appendPrecedent next)
    return some next
  else pure none

/-! ## Sequences of calls -/

/-- A call of the memory service, or of its corroboration. -/
inductive MemoryCall where
  | learn (record : HistoricalRunRecord) (drafts : List LearningCandidate)
  | reviewCandidate (input : ReviewInput)
  | supersedePrecedent (oldPrecedentId newStatement : String)
  | retirePrecedent (precedentId : String)
  | maybeUpgradeTrust (precedent : PromotedPrecedent) (independentRunCount threshold : ℕ)

variable (policy : PrecedentPromotionPolicy)

/-- What a call does. -/
def MemoryCall.program : MemoryCall → MemoryProg Unit
  | learn record drafts => Memory.learn X policy record drafts
  | reviewCandidate input => Memory.reviewCandidate X policy input
  | supersedePrecedent id statement => do
    let _ ← Memory.supersedePrecedent X id statement
    return ()
  | retirePrecedent id => Memory.retirePrecedent id
  | maybeUpgradeTrust precedent runs threshold => do
    let _ ← Memory.maybeUpgradeTrust X precedent runs threshold
    return ()

/-- A step of a history: a call, or what other services do between two calls. -/
inductive MemoryStep where
  | call (c : MemoryCall)
  | event (e : MemoryEvent)

/-- The world a step leaves. A call leaves one whether it returned or threw. -/
def performed (w : MemoryWorld) : MemoryStep → MemoryWorld
  | .call c => ((c.program X policy).exec memoryHandler w).2
  | .event e => w.happens e

end Orchestrator.Memory
