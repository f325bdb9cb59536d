import Orchestrator.Atomic.Pool
import Orchestrator.Collections.JsMap

/-!
# The planning usage ledger

Every call of the planning model reserves tokens before it is made and settles them
afterwards.

* `PlanningModelUsage`, `aggregatePlanningUsage`: the records and what they come to;
* `UsageLedger`, `UsageLedger.reserve`, `UsageLedger.settle`: the ledger and the parts of
  `reserve` and `settle` that run under the lock of a run;
* `LedgerCall.program`, `ledgerPool`: the two methods, and any number of their calls at work
  on one ledger.
-/

namespace Orchestrator

open Atomic Collections

/-! ## Records -/

inductive PlanningModelOperation where
  | gapAnalysis
  | planProposal
  deriving DecidableEq, Repr

/-- The outcome of a call that reached the provider. -/
inductive DispatchedOutcome where
  | success
  | failed
  | timeout
  | refused
  deriving DecidableEq, Repr

inductive PlanningModelUsageStatus where
  | started
  | settled (outcome : DispatchedOutcome)
  | released
  deriving DecidableEq, Repr

/-- The status in messages. -/
def PlanningModelUsageStatus.text : PlanningModelUsageStatus → String
  | started => "STARTED"
  | settled .success => "SUCCESS"
  | settled .failed => "FAILED"
  | settled .timeout => "TIMEOUT"
  | settled .refused => "REFUSED"
  | released => "RELEASED"

inductive Charging where
  | actual
  | reservation
  | none
  deriving DecidableEq, Repr

/-- One call of the planning model. While it is `started`, `reservedTokens` counts against the
budget of its run; from then on `totalUsage` does. -/
structure PlanningModelUsage where
  callId : String
  runId : String
  planningAttempt : ℕ
  operation : PlanningModelOperation
  provider : String
  model : String
  reservedTokens : ℚ
  inputUsage : Option ℚ := none
  outputUsage : Option ℚ := none
  totalUsage : Option ℚ := none
  startedAt : String
  completedAt : Option String := none
  status : PlanningModelUsageStatus
  budgetInvariantViolation : Bool := false
  charging : Option Charging := none
  deriving DecidableEq

structure PlanningUsageAggregate where
  llmCalls : ℕ
  inputTokens : ℚ
  outputTokens : ℚ
  completedActualTokens : ℚ
  activeReservedTokens : ℚ
  budgetInvariantViolated : Bool
  deriving DecidableEq

/-- `completedActualTokens + activeReservedTokens`. -/
def PlanningUsageAggregate.totalTokens (a : PlanningUsageAggregate) : ℚ :=
  a.completedActualTokens + a.activeReservedTokens

structure PlanningTokenReservationRequest where
  callId : String
  runId : String
  planningAttempt : ℕ
  operation : PlanningModelOperation
  provider : String
  model : String
  reservedTokens : ℚ
  startedAt : String
  maximumLlmCalls : ℚ
  maximumTotalTokens : ℚ
  budgetProfileId : String
  deriving DecidableEq

inductive PlanningUsageSettle where
  | actual (outcome : DispatchedOutcome) (completedAt : String)
      (inputUsage outputUsage : Option ℚ) (totalUsage : ℚ) (markInvariantViolation : Bool)
  | reservation (outcome : DispatchedOutcome) (completedAt : String)
  | released (completedAt : String)
  deriving DecidableEq

/-- What one record adds to the aggregate of its run. -/
def PlanningUsageAggregate.add (a : PlanningUsageAggregate) (record : PlanningModelUsage) :
    PlanningUsageAggregate :=
  let a := { a with
    budgetInvariantViolated := a.budgetInvariantViolated || record.budgetInvariantViolation }
  match record.status with
  | .released => a
  | .started =>
    { a with
      llmCalls := a.llmCalls + 1
      activeReservedTokens := a.activeReservedTokens + record.reservedTokens }
  | .settled _ =>
    { a with
      llmCalls := a.llmCalls + 1
      completedActualTokens := a.completedActualTokens + record.totalUsage.getD 0
      inputTokens := a.inputTokens + record.inputUsage.getD 0
      outputTokens := a.outputTokens + record.outputUsage.getD 0 }

def aggregatePlanningUsage (records : List PlanningModelUsage) : PlanningUsageAggregate :=
  records.foldl .add ⟨0, 0, 0, 0, 0, false⟩

/-! ## The ledger -/

/-- A `PlanningError`, or a plain `Error`. -/
inductive UsageFailure where
  | budgetInvariantViolation (message : String)
  | budgetExceeded (message : String)
  | error (message : String)
  deriving DecidableEq

/-- The fields of an `InMemoryPlanningUsageLedger`. -/
structure UsageLedger where
  byCallId : JsMap String PlanningModelUsage
  invariantRuns : Finset String

namespace UsageLedger

def empty : UsageLedger := ⟨.empty, ∅⟩

def recordsForRun (l : UsageLedger) (runId : String) : List PlanningModelUsage :=
  l.byCallId.values.filter (·.runId = runId)

def aggregate (l : UsageLedger) (runId : String) : PlanningUsageAggregate :=
  aggregatePlanningUsage (l.recordsForRun runId)

def hasBudgetInvariantViolation (l : UsageLedger) (runId : String) : Bool :=
  runId ∈ l.invariantRuns || (l.recordsForRun runId).any (·.budgetInvariantViolation)

/-- The record of a new reservation. -/
def startedRecord (request : PlanningTokenReservationRequest) : PlanningModelUsage where
  callId := request.callId
  runId := request.runId
  planningAttempt := request.planningAttempt
  operation := request.operation
  provider := request.provider
  model := request.model
  reservedTokens := request.reservedTokens
  startedAt := request.startedAt
  status := .started

/-- What `reserve` does under the lock of its run. -/
def reserve (request : PlanningTokenReservationRequest) (l : UsageLedger) :
    Except UsageFailure PlanningModelUsage × UsageLedger :=
  let aggregate := l.aggregate request.runId
  let remaining := request.maximumTotalTokens - aggregate.completedActualTokens -
    aggregate.activeReservedTokens
  if (l.byCallId.get request.callId).isSome then
    (.error (.error s!"Planning usage callId already exists: {request.callId}"), l)
  else if l.hasBudgetInvariantViolation request.runId then
    (.error (.budgetInvariantViolation ("Planning inference budget invariant previously " ++
      "violated; further model calls are blocked")), l)
  else if (aggregate.llmCalls : ℚ) ≥ request.maximumLlmCalls then
    (.error (.budgetExceeded "Planning inference LLM call budget exhausted"), l)
  else if request.reservedTokens > remaining then
    (.error (.budgetExceeded "Planning inference token reservation exceeds remaining budget"), l)
  else
    let record := startedRecord request
    (.ok record, { l with byCallId := l.byCallId.set request.callId record })

/-- A started record once it is settled. -/
def settledRecord (current : PlanningModelUsage) : PlanningUsageSettle → PlanningModelUsage
  | .released completedAt =>
    { current with
      status := .released
      completedAt := some completedAt
      charging := some .none
      totalUsage := some 0 }
  | .reservation outcome completedAt =>
    { current with
      status := .settled outcome
      completedAt := some completedAt
      charging := some .reservation
      totalUsage := some current.reservedTokens }
  | .actual outcome completedAt inputUsage outputUsage totalUsage markInvariantViolation =>
    { current with
      status := .settled outcome
      completedAt := some completedAt
      charging := some .actual
      totalUsage := some totalUsage
      inputUsage := inputUsage <|> current.inputUsage
      outputUsage := outputUsage <|> current.outputUsage
      budgetInvariantViolation := markInvariantViolation || current.budgetInvariantViolation }

/-- The settlement says that the invariant of the budget is violated. -/
def flags : PlanningUsageSettle → Bool
  | .actual _ _ _ _ _ markInvariantViolation => markInvariantViolation
  | _ => false

def unknownCall (callId : String) : UsageFailure :=
  .error s!"Unknown planning usage callId: {callId}"

/-- What `settle` does under the lock of the run of its record. -/
def settle (callId : String) (update : PlanningUsageSettle) (l : UsageLedger) :
    Except UsageFailure PlanningModelUsage × UsageLedger :=
  match l.byCallId.get callId with
  | none => (.error (unknownCall callId), l)
  | some current =>
    if current.status ≠ .started then
      (.error (.error
        s!"Planning usage callId {callId} already settled as {current.status.text}"), l)
    else
      let settled := settledRecord current update
      (.ok settled,
        { byCallId := l.byCallId.set callId settled
          invariantRuns := if flags update then insert current.runId l.invariantRuns
            else l.invariantRuns })

end UsageLedger

/-! ## Calls at work -/

/-- The atomic parts of the methods: a lookup, and what runs under a lock. -/
inductive LedgerOp where
  | find (callId : String)
  | reserve (request : PlanningTokenReservationRequest)
  | settle (callId : String) (update : PlanningUsageSettle)
  deriving DecidableEq

def LedgerOp.Ret : LedgerOp → Type
  | .find _ => Option PlanningModelUsage
  | .reserve _ => Except UsageFailure PlanningModelUsage
  | .settle _ _ => Except UsageFailure PlanningModelUsage

abbrev LedgerSig : Sig := ⟨LedgerOp, LedgerOp.Ret⟩

/-- A call of `reserve` or of `settle`. -/
inductive LedgerCall where
  | reserve (request : PlanningTokenReservationRequest)
  | settle (callId : String) (update : PlanningUsageSettle)
  deriving DecidableEq

/-- `InMemoryPlanningUsageLedger.reserve` and `InMemoryPlanningUsageLedger.settle`, which looks
its record up before it waits for the lock of the record's run. -/
def LedgerCall.program : LedgerCall → Prog LedgerSig (Except UsageFailure PlanningModelUsage)
  | .reserve request => .call (.reserve request) .pure
  | .settle callId update =>
    .call (.find callId) fun existing : Option PlanningModelUsage =>
      match existing with
      | none => .pure (.error (UsageLedger.unknownCall callId))
      | some _ => .call (.settle callId update) .pure

/-- The ledger as the calls move it. -/
def ledgerSystem : System LedgerSig UsageLedger Empty where
  handler
    | .find callId => fun l => (l.byCallId.get callId, l)
    | .reserve request => fun l => l.reserve request
    | .settle callId update => fun l => l.settle callId update
  env := nofun

/-- The calls, none of them begun, over an empty ledger. -/
def ledgerPool {ι : Type} (calls : ι → LedgerCall) :
    Pool LedgerSig ι UsageLedger (Except UsageFailure PlanningModelUsage) :=
  .init .empty fun i => (calls i).program

end Orchestrator
