import Orchestrator.Atomic.Async
import Orchestrator.Collections.Repository
import Orchestrator.Programs.Records

/-!
# Budget ledgers

Programs and portfolios escrow their budgets alike: a ledger with a ceiling and what is held
against it, which is saved only over the revision that was read, and a record for every
reservation.

* `BudgetLedger`, `BudgetReservation`, `BudgetStores`: the records and the repositories;
* `availableToReserve`, what is left below the ceiling;
* `BudgetOp`, `BudgetStores.answer`: the calls;
* `reserveBudget`, the reservation of an amount, over any service that can make these calls.
-/

namespace Orchestrator

open Atomic Collections

/-! ## Records -/

/-- Whose budget it is: the two services throw their own errors. -/
inductive BudgetOwner where
  | program
  | portfolio
  deriving DecidableEq, Repr

/-- The owner in messages. -/
def BudgetOwner.text : BudgetOwner → String
  | program => "program"
  | portfolio => "portfolio"

/-- `PROGRAM_BUDGET_OVER_ALLOCATION` or `PORTFOLIO_BUDGET_OVER_ALLOCATION`. -/
def BudgetOwner.overAllocation : BudgetOwner → String → ProgramFailure
  | program, message => .program .programBudgetOverAllocation message
  | portfolio, message => .portfolio .portfolioBudgetOverAllocation message

/-- A `ProgramBudgetLedger` or a `PortfolioBudgetLedger`. -/
structure BudgetLedger where
  ownerId : String
  ownerVersion : ℕ
  ceiling : BudgetResourceEstimate
  reserved : BudgetResourceEstimate
  settled : BudgetResourceEstimate
  released : BudgetResourceEstimate
  recordRevision : ℕ
  updatedAt : ℕ
  deriving DecidableEq

/-- The paths at which the schema rejects a ledger. -/
def BudgetLedger.issues (l : BudgetLedger) : List String :=
  minOne "ownerId" l.ownerId ++ positive "ownerVersion" l.ownerVersion ++
  l.ceiling.issues "ceiling" ++ l.reserved.issues "reserved" ++ l.settled.issues "settled" ++
  l.released.issues "released" ++ positive "recordRevision" l.recordRevision

inductive ReservationStatus where
  | reserved
  | settled
  | released
  deriving DecidableEq, Repr

/-- A `ProgramBudgetReservation` or a `PortfolioBudgetReservation`; `itemId` is its `nodeId` or its
`proposalId`. -/
structure BudgetReservation where
  reservationId : String
  ownerId : String
  planVersion : ℕ
  itemId : String
  amount : BudgetResourceEstimate
  status : ReservationStatus
  createdAt : ℕ
  updatedAt : ℕ
  recordRevision : ℕ
  deriving DecidableEq

/-- The paths at which the schema rejects a reservation. -/
def BudgetReservation.issues (r : BudgetReservation) : List String :=
  minOne "reservationId" r.reservationId ++ minOne "ownerId" r.ownerId ++
  positive "planVersion" r.planVersion ++ minOne "itemId" r.itemId ++ r.amount.issues "amount" ++
  positive "recordRevision" r.recordRevision

/-- `availableToReserve`: the ceiling less what is held and what is settled. -/
def availableToReserve (l : BudgetLedger) : BudgetResourceEstimate :=
  let held := subtractBudget l.reserved l.released
  subtractBudget l.ceiling (addBudget held l.settled)

/-! ## Repositories -/

/-- The ledgers and the reservations of one kind of owner. -/
structure BudgetStores where
  ledgers : Repository BudgetLedger.ownerId
  reservations : Repository BudgetReservation.reservationId

namespace BudgetStores

def empty : BudgetStores := ⟨.empty, .empty⟩

/-- `saveCas`: the ledger is replaced if its revision is the expected one. -/
def saveLedgerCas (owner : BudgetOwner) (s : BudgetStores) (ledger : BudgetLedger)
    (expectedRevision : ℕ) : Except ProgramFailure BudgetLedger × BudgetStores :=
  match s.ledgers.getById ledger.ownerId with
  | none => (.error (owner.overAllocation s!"Budget CAS conflict for {ledger.ownerId}"), s)
  | some existing =>
    if existing.recordRevision ≠ expectedRevision then
      (.error (owner.overAllocation s!"Budget CAS conflict for {ledger.ownerId}"), s)
    else
      match parseProgramRecord BudgetLedger.issues
          { ledger with recordRevision := expectedRevision + 1 } with
      | .error e => (.error e, s)
      | .ok next => (.ok next, { s with ledgers := s.ledgers.save next })

end BudgetStores

/-! ## Calls -/

inductive BudgetOp where
  | createLedger (ledger : BudgetLedger)
  | getLedger (ownerId : String)
  | saveLedgerCas (ledger : BudgetLedger) (expectedRevision : ℕ)
  | getReservation (reservationId : String)
  | saveReservation (reservation : BudgetReservation)
  deriving DecidableEq

/-- What each call answers with when it does not throw. -/
abbrev BudgetOp.Res : BudgetOp → Type
  | createLedger _ => BudgetLedger
  | getLedger _ => Option BudgetLedger
  | saveLedgerCas .. => BudgetLedger
  | getReservation _ => Option BudgetReservation
  | saveReservation _ => BudgetReservation

/-- What each call does. -/
def BudgetStores.answer (owner : BudgetOwner) (s : BudgetStores) :
    (o : BudgetOp) → Except ProgramFailure o.Res × BudgetStores
  | .createLedger ledger =>
    match parseProgramRecord BudgetLedger.issues ledger with
    | .error e => (.error e, s)
    | .ok ledger => (.ok ledger, { s with ledgers := s.ledgers.save ledger })
  | .getLedger ownerId => (.ok (s.ledgers.getById ownerId), s)
  | .saveLedgerCas ledger expectedRevision => s.saveLedgerCas owner ledger expectedRevision
  | .getReservation reservationId => (.ok (s.reservations.getById reservationId), s)
  | .saveReservation reservation =>
    match parseProgramRecord BudgetReservation.issues reservation with
    | .error e => (.error e, s)
    | .ok reservation => (.ok reservation, { s with reservations := s.reservations.save reservation })

/-! ## Reserving -/

section Reserving

variable {Op : Type} {Res : Op → Type} (owner : BudgetOwner)
  (call : (o : BudgetOp) → Async (Sig.throwing Op Res ProgramFailure) ProgramFailure o.Res)
  (nowIso : Async (Sig.throwing Op Res ProgramFailure) ProgramFailure ℕ)

/-- `reserveNodeBudget` and `reserveProposalBudget`: the amount is added to what the ledger holds,
and then recorded, unless a record says that it was. -/
def reserveBudget (reservationId ownerId : String) (planVersion : ℕ) (itemId : String)
    (amount : BudgetResourceEstimate) :
    Async (Sig.throwing Op Res ProgramFailure) ProgramFailure Unit := do
  let existing ← call (.getReservation reservationId)
  if (existing : Option BudgetReservation).any (·.status ≠ .released) then pure ()
  else
    let ledger ← call (.getLedger ownerId)
    match (ledger : Option BudgetLedger) with
    | none => throw (owner.overAllocation "Budget ledger missing")
    | some ledger =>
      if !canReserve (availableToReserve ledger) amount then
        throw (owner.overAllocation s!"Insufficient {owner.text} budget remaining")
      else
        let now ← nowIso
        let _ ← call (.saveLedgerCas
          { ledger with reserved := addBudget ledger.reserved amount, updatedAt := now }
          ledger.recordRevision)
        let _ ← call (.saveReservation {
          reservationId := reservationId
          ownerId := ownerId
          planVersion := planVersion
          itemId := itemId
          amount := amount
          status := .reserved
          createdAt := now
          updatedAt := now
          recordRevision := 1 })
        pure ()

end Reserving

end Orchestrator
