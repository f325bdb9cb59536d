import Orchestrator.Atomic.Async
import Orchestrator.Atomic.Serial
import Orchestrator.Collections.Repository

/-!
# The usage ledger of experiments

`reserveExperimentUsage` reads the ledger of an experiment, adds what it is asked to, checks the
budget and stores the ledger if its revision is still the one that was read; after a conflict it
tries again, some number of times.

* `ExperimentUsageLedger`, `applyUsageDelta`, `assertWithinBudget`: one reservation;
* `reserveExperimentUsage`, over the calls of the repository;
* `UsageAccounted`: the ledger is that of the reservations that returned, one after the other;
* `usage_accounted`: so it is in every run of any number of reservations.
-/

namespace Orchestrator

open Atomic Collections

/-! ## Ledgers and budgets -/

inductive ExperimentErrorCode where
  | experimentBudgetExceeded
  | experimentCasConflict
  deriving DecidableEq, Repr

/-- The details of an exceeded budget. -/
structure BudgetDetails where
  dimension : String
  used : ℤ
  limit : ℤ
  deriving DecidableEq, Repr

structure ExperimentError where
  code : ExperimentErrorCode
  message : String
  details : Option BudgetDetails
  deriving DecidableEq, Repr

structure ExperimentUsageLedger where
  experimentId : String
  designCalls : ℤ
  modelCalls : ℤ
  sampleCount : ℤ
  reservedActions : ℤ
  committedActions : ℤ
  recordRevision : ℕ
  updatedAt : String
  deriving DecidableEq, Repr

structure ExperimentUsageDelta where
  designCalls : Option ℤ
  modelCalls : Option ℤ
  sampleCount : Option ℤ
  reservedActions : Option ℤ
  committedActions : Option ℤ
  deriving DecidableEq, Repr

/-- The ceilings of an `ExperimentBudgetEnvelope` that the ledger is held to. -/
structure ExperimentBudgetEnvelope where
  maximumActions : ℤ
  maximumModelCalls : ℤ
  maximumSampleSize : ℤ
  deriving DecidableEq, Repr

def applyUsageDelta (ledger : ExperimentUsageLedger) (delta : ExperimentUsageDelta)
    (nowIso : String) : ExperimentUsageLedger :=
  { ledger with
    designCalls := ledger.designCalls + delta.designCalls.getD 0
    modelCalls := ledger.modelCalls + delta.modelCalls.getD 0
    sampleCount := ledger.sampleCount + delta.sampleCount.getD 0
    reservedActions := max 0 (ledger.reservedActions + delta.reservedActions.getD 0)
    committedActions := max 0 (ledger.committedActions + delta.committedActions.getD 0)
    updatedAt := nowIso }

def assertWithinBudget (ledger : ExperimentUsageLedger) (budget : ExperimentBudgetEnvelope) :
    Except ExperimentError Unit :=
  let actionUsage := ledger.reservedActions + ledger.committedActions
  let modelUsage := ledger.modelCalls + ledger.designCalls
  if actionUsage > budget.maximumActions then
    .error ⟨.experimentBudgetExceeded,
      s!"Experiment action budget {budget.maximumActions} exceeded",
      some ⟨"maximumActions", actionUsage, budget.maximumActions⟩⟩
  else if modelUsage > budget.maximumModelCalls then
    .error ⟨.experimentBudgetExceeded,
      s!"Experiment model/design call budget {budget.maximumModelCalls} exceeded",
      some ⟨"maximumModelCalls", modelUsage, budget.maximumModelCalls⟩⟩
  else if ledger.sampleCount > budget.maximumSampleSize then
    .error ⟨.experimentBudgetExceeded,
      s!"Experiment sample budget {budget.maximumSampleSize} exceeded",
      some ⟨"maximumSampleSize", ledger.sampleCount, budget.maximumSampleSize⟩⟩
  else .ok ()

/-- The ledger is under every ceiling of the budget. -/
structure WithinBudget (budget : ExperimentBudgetEnvelope) (ledger : ExperimentUsageLedger) :
    Prop where
  actions : ledger.reservedActions + ledger.committedActions ≤ budget.maximumActions
  modelCalls : ledger.modelCalls + ledger.designCalls ≤ budget.maximumModelCalls
  sampleSize : ledger.sampleCount ≤ budget.maximumSampleSize

theorem assertWithinBudget_ok {ledger : ExperimentUsageLedger}
    {budget : ExperimentBudgetEnvelope} :
    assertWithinBudget ledger budget = .ok () ↔ WithinBudget budget ledger := by
  unfold assertWithinBudget
  constructor
  · intro h
    simp only at h
    split_ifs at h with hactions hcalls hsamples
    exact ⟨not_lt.mp hactions, not_lt.mp hcalls, not_lt.mp hsamples⟩
  · intro h
    simp only
    rw [if_neg (not_lt.mpr h.actions), if_neg (not_lt.mpr h.modelCalls),
      if_neg (not_lt.mpr h.sampleSize)]

theorem assertWithinBudget_error {ledger : ExperimentUsageLedger}
    {budget : ExperimentBudgetEnvelope} {e : ExperimentError}
    (h : assertWithinBudget ledger budget = .error e) :
    e.code = .experimentBudgetExceeded ∧ ¬WithinBudget budget ledger := by
  refine ⟨?_, fun hwithin => ?_⟩
  · unfold assertWithinBudget at h
    simp only at h
    split_ifs at h <;> · cases h; rfl
  · rw [assertWithinBudget_ok.mpr hwithin] at h
    cases h

/-! ## The repository -/

structure ExperimentUsageWorld where
  ledgers : Repository ExperimentUsageLedger.experimentId

inductive ExperimentUsageOp where
  | get (experimentId : String)
  | saveCas (ledger : ExperimentUsageLedger) (expectedRevision : ℕ)

abbrev ExperimentUsageOp.Res : ExperimentUsageOp → Type
  | .get _ => Option ExperimentUsageLedger
  | .saveCas _ _ => ExperimentUsageLedger

abbrev ExperimentUsageSig : Sig :=
  Sig.throwing ExperimentUsageOp ExperimentUsageOp.Res ExperimentError

namespace ExperimentUsageWorld

def saveCas (w : ExperimentUsageWorld) (ledger : ExperimentUsageLedger) (expectedRevision : ℕ) :
    Except ExperimentError ExperimentUsageLedger × ExperimentUsageWorld :=
  match w.ledgers.getById ledger.experimentId with
  | some existing =>
    if existing.recordRevision = expectedRevision then
      let next := { ledger with recordRevision := expectedRevision + 1 }
      (.ok next, ⟨w.ledgers.save next⟩)
    else (.error ⟨.experimentCasConflict,
      s!"Usage ledger CAS conflict for {ledger.experimentId}", none⟩, w)
  | none => (.error ⟨.experimentCasConflict,
      s!"Usage ledger CAS conflict for {ledger.experimentId}", none⟩, w)

/-- `create`, of the ledger of an experiment that is admitted meanwhile. -/
def create (ledger : ExperimentUsageLedger) (w : ExperimentUsageWorld) : ExperimentUsageWorld :=
  ⟨w.ledgers.save ledger⟩

end ExperimentUsageWorld

def experimentUsageSystem :
    System ExperimentUsageSig ExperimentUsageWorld ExperimentUsageLedger where
  handler
    | .get experimentId, w => (.ok (w.ledgers.getById experimentId), w)
    | .saveCas ledger expectedRevision, w => w.saveCas ledger expectedRevision
  env := ExperimentUsageWorld.create

/-! ## Reservations -/

/-- A call of the repository. -/
def ExperimentUsageOp.call (o : ExperimentUsageOp) :
    Async ExperimentUsageSig ExperimentError o.Res := Async.await o

/-- The argument of `reserveExperimentUsage`. -/
structure ExperimentReservation where
  experimentId : String
  budget : ExperimentBudgetEnvelope
  delta : ExperimentUsageDelta
  nowIso : String
  maxAttempts : ℕ := 8

/-- The turns of the loop of `reserveExperimentUsage` that are left. -/
def ExperimentReservation.attempts (input : ExperimentReservation) :
    ℕ → Option ExperimentError → Async ExperimentUsageSig ExperimentError ExperimentUsageLedger
  | 0, lastError =>
    .throw (lastError.getD ⟨.experimentCasConflict,
      s!"Failed to reserve experiment usage after {input.maxAttempts} attempts", none⟩)
  | n + 1, _ => do
    match ← (ExperimentUsageOp.get input.experimentId).call with
    | none =>
      Async.throw ⟨.experimentBudgetExceeded,
        s!"Usage ledger missing for experiment {input.experimentId}", none⟩
    | some ledger =>
      let next := applyUsageDelta ledger input.delta input.nowIso
      Async.ofExcept (assertWithinBudget next input.budget)
      (ExperimentUsageOp.saveCas next ledger.recordRevision).call.tryCatch fun e =>
        if e.code = .experimentCasConflict then input.attempts n (some e) else .throw e

def reserveExperimentUsage (input : ExperimentReservation) :
    Async ExperimentUsageSig ExperimentError ExperimentUsageLedger :=
  input.attempts input.maxAttempts none

/-! ## What a reservation does -/

/-- The ledger after a reservation. -/
def ExperimentReservation.charge (input : ExperimentReservation)
    (ledger : ExperimentUsageLedger) : ExperimentUsageLedger :=
  { applyUsageDelta ledger input.delta input.nowIso with
    recordRevision := ledger.recordRevision + 1 }

/-- The call stored a ledger of the experiment. -/
def StoresUsage (experimentId : String) (e : Event ExperimentUsageSig) : Bool :=
  match e with
  | ⟨.saveCas ledger _, .ok _⟩ => decide (ledger.experimentId = experimentId)
  | _ => false

namespace ExperimentUsageWorld

/-- From the first world to the second, ledgers were only replaced by ones of a higher revision. -/
def Moves (w w' : ExperimentUsageWorld) : Prop :=
  Advances (·.recordRevision) w.ledgers.getById w'.ledgers.getById

variable {w w' : ExperimentUsageWorld} {input : ExperimentReservation}
  {ledger : ExperimentUsageLedger}

theorem moves_create (hnew : w.ledgers.getById ledger.experimentId = none) :
    w.Moves (w.create ledger) := by
  intro k l hl
  have hne : ledger.experimentId ≠ k := by
    rintro rfl
    rw [hnew] at hl
    cases hl
  exact ⟨l, (Repository.getById_save_ne _ hne).trans hl, .inl rfl⟩

/-- Storing a reservation made on the ledger that was read: the ledger is still that one, and the
reservation is stored, or it has a higher revision, and nothing happens. -/
theorem saveCas_cases (hmoves : w.Moves w')
    (hread : w.ledgers.getById input.experimentId = some ledger) :
    (w'.ledgers.getById input.experimentId = some ledger ∧
      w'.saveCas (applyUsageDelta ledger input.delta input.nowIso) ledger.recordRevision =
        (.ok (input.charge ledger), ⟨w'.ledgers.save (input.charge ledger)⟩)) ∨
    ∃ existing e, w'.ledgers.getById input.experimentId = some existing ∧
      ledger.recordRevision < existing.recordRevision ∧ e.code = .experimentCasConflict ∧
      w'.saveCas (applyUsageDelta ledger input.delta input.nowIso) ledger.recordRevision =
        (.error e, w') := by
  have hledger := Repository.id_of_getById hread
  obtain ⟨experimentId, budget, delta, nowIso, maxAttempts⟩ := input
  simp only at hledger hread ⊢
  subst hledger
  have hid : (applyUsageDelta ledger delta nowIso).experimentId = ledger.experimentId := rfl
  obtain ⟨existing, hexisting, hsame⟩ := hmoves _ _ hread
  rcases hsame with rfl | hlt
  · refine .inl ⟨hexisting, ?_⟩
    simp only [saveCas, hid, hexisting, if_true]
    rfl
  · refine .inr ⟨existing, ⟨.experimentCasConflict,
      s!"Usage ledger CAS conflict for {ledger.experimentId}", none⟩, hexisting, hlt, rfl, ?_⟩
    simp only [saveCas, hid, hexisting, if_neg (Nat.ne_of_gt hlt)]

end ExperimentUsageWorld

/-! ## The contract of the reservations -/

section Contract

open ExperimentUsageWorld

variable {ι : Type} [DecidableEq ι] (inputs : ι → ExperimentReservation) (experimentId : String)

/-- The reservation may be stored on this ledger. -/
structure Chargeable (input : ExperimentReservation) (ledger : ExperimentUsageLedger) : Prop where
  experiment : input.experimentId = experimentId
  within : WithinBudget input.budget (input.charge ledger)

/-- What a call of a reservation does to the ledger of `experimentId`. -/
structure UsageCall (input : ExperimentReservation) (log : Log ExperimentUsageSig)
    (w : ExperimentUsageWorld) (o : ExperimentUsageOp) (r : Except ExperimentError o.Res)
    (w' : ExperimentUsageWorld) : Prop where
  moves : w.Moves w'
  stores : StoresUsage experimentId ⟨o, r⟩ = true →
    log.countP (StoresUsage experimentId) = 0 ∧ ∃ ledger,
      w.ledgers.getById experimentId = some ledger ∧ Chargeable experimentId input ledger ∧
      w'.ledgers.getById experimentId = some (input.charge ledger)
  leaves : StoresUsage experimentId ⟨o, r⟩ = false →
    w'.ledgers.getById experimentId = w.ledgers.getById experimentId

/-- The experiment has a ledger. -/
def HasUsage (w : ExperimentUsageWorld) : Prop :=
  (w.ledgers.getById experimentId).isSome = true

variable {experimentId}

theorem HasUsage.moves {w w' : ExperimentUsageWorld} (h : HasUsage experimentId w)
    (hmoves : w.Moves w') : HasUsage experimentId w' := by
  obtain ⟨ledger, hledger⟩ := Option.isSome_iff_exists.mp h
  obtain ⟨ledger', hledger', -⟩ := hmoves _ _ hledger
  exact Option.isSome_iff_exists.mpr ⟨ledger', hledger'⟩

variable (experimentId)

/-- Each reservation relies on ledgers only ever being replaced by later ones; ledgers are created
for experiments that have none. -/
def usageContract : Contract experimentUsageSystem ι where
  env _ :=
    { rely := ExperimentUsageWorld.Moves
      step := fun _ w o r w' => HasUsage experimentId w ∧
        (r, w') = experimentUsageSystem.handler o w }
  spec i log w o r w' := UsageCall experimentId (inputs i) log w o r w'
  inv := HasUsage experimentId
  cond _ _ _ := True
  envCond ledger w := w.ledgers.getById ledger.experimentId = none
  rely_refl _ _ := Advances.refl _
  rely_trans _ _ _ _ := Advances.trans
  answers _ _ _ _ hinv _ := ⟨hinv, rfl⟩
  keeps _ _ _ _ hinv _ hspec := hinv.moves hspec.moves
  guards _ _ _ _ _ _ _ _ hspec := hspec.moves
  env_keeps _ _ hinv hnew := hinv.moves (moves_create hnew)
  env_guards _ _ _ _ hnew := moves_create hnew

/-- What a reservation leaves: it is stored once if it returned, and not at all if it threw; and
a conflict means that its attempts were all overtaken. -/
def UsageSettled (input : ExperimentReservation) (revision : ℕ) (log : Log ExperimentUsageSig)
    (w : ExperimentUsageWorld) (r : Except ExperimentError ExperimentUsageLedger) : Prop :=
  match r with
  | .ok _ => log.countP (StoresUsage experimentId) =
      if input.experimentId = experimentId then 1 else 0
  | .error e => log.countP (StoresUsage experimentId) = 0 ∧
      (e.code = .experimentCasConflict → input.experimentId = experimentId →
        ∃ ledger, w.ledgers.getById experimentId = some ledger ∧
          revision + input.maxAttempts ≤ ledger.recordRevision)

/-! ## Every reservation keeps the contract -/

variable {inputs experimentId} {input : ExperimentReservation} {log : Log ExperimentUsageSig}
  {w w' : ExperimentUsageWorld} {ledger : ExperimentUsageLedger}

theorem usageCall_of_unchanged {o : ExperimentUsageOp} {r : Except ExperimentError o.Res}
    (hstores : StoresUsage experimentId ⟨o, r⟩ = false) :
    UsageCall experimentId input log w o r w where
  moves := Advances.refl _
  stores h := by
    rw [hstores] at h
    cases h
  leaves _ := rfl

/-- Storing a reservation on the ledger it was made on. -/
theorem usageCall_of_charge (hget : w.ledgers.getById input.experimentId = some ledger)
    (hwithin : WithinBudget input.budget (input.charge ledger))
    (hcount : log.countP (StoresUsage experimentId) = 0) :
    UsageCall experimentId input log w
      (.saveCas (applyUsageDelta ledger input.delta input.nowIso) ledger.recordRevision)
      (.ok (input.charge ledger)) ⟨w.ledgers.save (input.charge ledger)⟩ where
  moves := by
    have hlater : ledger.recordRevision < (input.charge ledger).recordRevision :=
      Nat.lt_succ_self _
    refine advances_of_replaced hget hlater ?_ fun k hk => ?_
    · rw [← Repository.id_of_getById hget]
      exact Repository.getById_save_self _ (input.charge ledger)
    · rw [← Repository.id_of_getById hget] at hk
      exact Repository.getById_save_ne _ (Ne.symm hk)
  stores h := by
    have hown : ledger.experimentId = experimentId := of_decide_eq_true h
    rw [← hown]
    have hledger := Repository.id_of_getById hget
    rw [← hledger] at hget
    refine ⟨?_, ledger, hget, ⟨hledger.symm, hwithin⟩,
      Repository.getById_save_self _ (input.charge ledger)⟩
    rw [hown]
    exact hcount
  leaves h := by
    exact Repository.getById_save_ne _ (of_decide_eq_false h)

/-- A reservation reads a ledger. -/
theorem get_sat (i : ι) {id : String}
    {Q : Log ExperimentUsageSig → ExperimentUsageWorld →
      Except ExperimentError (Option ExperimentUsageLedger) → Prop}
    (hQ : ∀ m, w.Moves m →
      Q (⟨.get id, .ok (m.ledgers.getById id)⟩ :: log) m (.ok (m.ledgers.getById id))) :
    (ExperimentUsageOp.get id).call.Sat ((usageContract inputs experimentId).env i)
      ((usageContract inputs experimentId).spec i) Q log w := by
  refine (Async.sat_await _).mpr fun m r m' hm hstep => ?_
  obtain ⟨hinv, hcall⟩ := hstep
  cases hcall
  exact ⟨usageCall_of_unchanged rfl, hQ m hm⟩

/-- A reservation within its budget stores what it made of the ledger that it read. -/
theorem saveCas_sat (i : ι)
    (hget : w.ledgers.getById (inputs i).experimentId = some ledger)
    (hwithin : WithinBudget (inputs i).budget ((inputs i).charge ledger))
    (hcount : log.countP (StoresUsage experimentId) = 0)
    {Q : Log ExperimentUsageSig → ExperimentUsageWorld →
      Except ExperimentError ExperimentUsageLedger → Prop}
    (hok : ∀ e m, e = ⟨.saveCas (applyUsageDelta ledger (inputs i).delta (inputs i).nowIso)
        ledger.recordRevision, .ok ((inputs i).charge ledger)⟩ →
      Q (e :: log) m (.ok ((inputs i).charge ledger)))
    (herror : ∀ o e m existing, m.ledgers.getById (inputs i).experimentId = some existing →
      ledger.recordRevision < existing.recordRevision → e.code = .experimentCasConflict →
      Q (⟨.saveCas o ledger.recordRevision, .error e⟩ :: log) m (.error e)) :
    (ExperimentUsageOp.saveCas (applyUsageDelta ledger (inputs i).delta (inputs i).nowIso)
      ledger.recordRevision).call.Sat ((usageContract inputs experimentId).env i)
      ((usageContract inputs experimentId).spec i) Q log w := by
  refine (Async.sat_await _).mpr fun m r m' hm hstep => ?_
  obtain ⟨hinv, hcall⟩ := hstep
  rcases saveCas_cases hm hget with ⟨hsame, hsaved⟩ |
    ⟨existing, e, hexisting, hlt, hcode, hrefused⟩
  · cases hcall.trans hsaved
    exact ⟨usageCall_of_charge hsame hwithin hcount, hok _ _ rfl⟩
  · cases hcall.trans hrefused
    exact ⟨usageCall_of_unchanged rfl, herror _ e m existing hexisting hlt hcode⟩

/-- The turns that are left of the loop, when those before were all overtaken. -/
theorem attempts_sat (i : ι) (revision n : ℕ) (lastError : Option ExperimentError)
    (hn : n ≤ (inputs i).maxAttempts) (hcount : log.countP (StoresUsage experimentId) = 0)
    (hovertaken : (inputs i).experimentId = experimentId →
      ∃ ledger, w.ledgers.getById experimentId = some ledger ∧
        revision + ((inputs i).maxAttempts - n) ≤ ledger.recordRevision) :
    ((inputs i).attempts n lastError).Sat ((usageContract inputs experimentId).env i)
      ((usageContract inputs experimentId).spec i) (UsageSettled experimentId (inputs i) revision)
      log w := by
  induction n generalizing lastError log w with
  | zero => exact ⟨hcount, fun _ => hovertaken⟩
  | succ n ih =>
    refine (Async.sat_bind _ _).mpr (get_sat i fun m hm => ?_)
    have hcount₁ : (⟨.get (inputs i).experimentId,
        .ok (m.ledgers.getById (inputs i).experimentId)⟩ :: log : Log ExperimentUsageSig).countP
          (StoresUsage experimentId) = 0 := by
      rw [List.countP_cons_of_neg (by simp [StoresUsage])]
      exact hcount
    cases hget : m.ledgers.getById (inputs i).experimentId with
    | none =>
      rw [hget] at hcount₁
      exact ⟨hcount₁, (nomatch ·)⟩
    | some ledger =>
      rw [hget] at hcount₁
      refine Async.Sat.bind_ofExcept (fun _ hassert => ?_) fun e hassert => ?_
      · have hwithin : WithinBudget (inputs i).budget ((inputs i).charge ledger) :=
          have h := assertWithinBudget_ok.mp hassert
          ⟨h.actions, h.modelCalls, h.sampleSize⟩
        refine (Async.sat_tryCatch _ _).mpr
          (saveCas_sat i hget hwithin hcount₁ (fun e k he => ?_)
            fun o e k existing hexisting hlt hcode => ?_)
        · subst he
          change List.countP _ (_ :: _) = _
          rw [List.countP_cons, hcount₁, Nat.zero_add]
          simp only [StoresUsage, decide_eq_true_eq]
          rw [← Repository.id_of_getById hget]
          rfl
        · -- another reservation was stored since: the next turn reads a later ledger
          simp only [onError_error, hcode, if_true]
          refine ih _ (Nat.le_of_succ_le hn) ?_ fun hown => ?_
          · rw [List.countP_cons_of_neg (by simp [StoresUsage])]
            exact hcount₁
          · rw [hown] at hget hexisting
            obtain ⟨start, hstart, hle⟩ := hovertaken hown
            obtain ⟨ledger', hget', hlater⟩ := hm _ _ hstart
            rw [hget, Option.some.injEq] at hget'
            subst hget'
            have hread : start.recordRevision ≤ ledger.recordRevision := by
              rcases hlater with rfl | hlt'
              · exact le_rfl
              · exact hlt'.le
            exact ⟨existing, hexisting, by omega⟩
      · have hcode := (assertWithinBudget_error hassert).1
        refine ⟨hcount₁, fun h => ?_⟩
        rw [hcode] at h
        cases h

theorem reserveExperimentUsage_sat (i : ι) (hcount : log.countP (StoresUsage experimentId) = 0)
    (hledger : w.ledgers.getById experimentId = some ledger) :
    (reserveExperimentUsage (inputs i)).Sat ((usageContract inputs experimentId).env i)
      ((usageContract inputs experimentId).spec i)
      (UsageSettled experimentId (inputs i) ledger.recordRevision) log w := by
  refine attempts_sat i _ _ _ le_rfl hcount fun _ => ⟨ledger, hledger, ?_⟩
  rw [Nat.sub_self, Nat.add_zero]

/-! ## Every run -/

/-- The change of a reservation to the ledger of its experiment. -/
def usageCharges (inputs : ι → ExperimentReservation) (i : ι) (ledger : ExperimentUsageLedger) :
    ExperimentUsageLedger := (inputs i).charge ledger

/-- Reservations at work on the same ledgers. -/
def reservationPool (w : ExperimentUsageWorld) (inputs : ι → ExperimentReservation) :
    Pool ExperimentUsageSig ι ExperimentUsageWorld
      (Except ExperimentError ExperimentUsageLedger) :=
  Pool.init w fun i => (reserveExperimentUsage (inputs i)).prog

/-- The usage of the experiment is accounted for: its ledger is what the reservations in `order`
made of the first one, each within its budget in its turn; they are those that returned, some that
were cut off, and none that threw. -/
structure UsageAccounted (inputs : ι → ExperimentReservation) (experimentId : String)
    (ledger : ExperimentUsageLedger) (order : List ι)
    (pool : Pool ExperimentUsageSig ι ExperimentUsageWorld
      (Except ExperimentError ExperimentUsageLedger)) : Prop where
  once : order.Nodup
  chargeable : Serially (fun i => Chargeable experimentId (inputs i)) (usageCharges inputs) ledger
    order
  charged : pool.state.ledgers.getById experimentId =
    some (inOrder (usageCharges inputs) ledger order)
  returned : ∀ i next, pool.returned i = some (.ok next) →
    (i ∈ order ↔ (inputs i).experimentId = experimentId)
  threw : ∀ i e, pool.returned i = some (.error e) → i ∉ order
  overtaken : ∀ i e, pool.returned i = some (.error e) → e.code = .experimentCasConflict →
    (inputs i).experimentId = experimentId → (inputs i).maxAttempts ≤ order.length
  within : ∀ budget, (∀ i ∈ order, (inputs i).budget = budget) → WithinBudget budget ledger →
    WithinBudget budget (inOrder (usageCharges inputs) ledger order)

/-- The calls of the contract charge the ledger, or leave it alone. -/
theorem usageContract_commits : (usageContract inputs experimentId).Commits
    (StoresUsage experimentId) (fun w => w.ledgers.getById experimentId)
    (fun i found => ∃ ledger, found = some ledger ∧ Chargeable experimentId (inputs i) ledger)
    (fun i => Option.map (usageCharges inputs i)) where
  applies i log w o _ _ hspec hstores := by
    obtain ⟨-, ledger, hledger, hchargeable, hcharged⟩ := hspec.stores hstores
    refine ⟨⟨ledger, hledger, hchargeable⟩, ?_⟩
    rw [hledger]
    exact hcharged
  other i log w o _ _ hspec hstores := hspec.leaves hstores
  env ledger w hinv hnew := by
    have hne : ledger.experimentId ≠ experimentId := by
      intro heq
      have hsome : (w.ledgers.getById experimentId).isSome = true := hinv
      rw [← heq, hnew] at hsome
      cases hsome
    exact Repository.getById_save_ne _ hne

omit [DecidableEq ι] in
/-- A table that has the ledger is charged as the ledger is. -/
theorem serially_some {order : List ι}
    (h : Serially (fun i found => ∃ ledger, found = some ledger ∧
      Chargeable experimentId (inputs i) ledger) (fun i => Option.map (usageCharges inputs i))
      (some ledger) order) :
    Serially (fun i => Chargeable experimentId (inputs i)) (usageCharges inputs) ledger order ∧
      inOrder (fun i => Option.map (usageCharges inputs i)) (some ledger) order =
        some (inOrder (usageCharges inputs) ledger order) := by
  induction order generalizing ledger with
  | nil => exact ⟨trivial, rfl⟩
  | cons i order ih =>
    obtain ⟨⟨found, hfound, hchargeable⟩, hrest⟩ := h
    cases hfound
    obtain ⟨hserially, hstate⟩ := ih hrest
    exact ⟨⟨hchargeable, hserially⟩, hstate⟩

omit [DecidableEq ι] in
theorem recordRevision_inOrder (order : List ι) :
    (inOrder (usageCharges inputs) ledger order).recordRevision =
      ledger.recordRevision + order.length := by
  induction order generalizing ledger with
  | nil => rfl
  | cons i order ih =>
    have hnext : (usageCharges inputs i ledger).recordRevision = ledger.recordRevision + 1 := rfl
    rw [inOrder_cons, ih, hnext, List.length_cons]
    omega

omit [DecidableEq ι] in
/-- Under one budget, usageCharges within it keep the ledger within it. -/
theorem withinBudget_inOrder {order : List ι} {budget : ExperimentBudgetEnvelope}
    (h : Serially (fun i => Chargeable experimentId (inputs i)) (usageCharges inputs) ledger order)
    (hbudget : ∀ i ∈ order, (inputs i).budget = budget) (hledger : WithinBudget budget ledger) :
    WithinBudget budget (inOrder (usageCharges inputs) ledger order) := by
  induction order generalizing ledger with
  | nil => exact hledger
  | cons i order ih =>
    refine ih h.2 (fun j hj => hbudget j (List.mem_cons_of_mem _ hj)) ?_
    rw [← hbudget i List.mem_cons_self]
    exact h.1.within

/-- In every run of any number of reservations, some of which may be cut off, while ledgers are
created for other experiments, the usage of an experiment is accounted for. -/
theorem usage_accounted {w : ExperimentUsageWorld} (inputs : ι → ExperimentReservation)
    {experimentId : String} {ledger : ExperimentUsageLedger}
    (hledger : w.ledgers.getById experimentId = some ledger)
    (acts : List (Action ι ExperimentUsageLedger))
    (hcreates : (reservationPool w inputs).Along experimentUsageSystem (fun _ _ _ => True)
      (fun ledger w => w.ledgers.getById ledger.experimentId = none) acts) :
    ∃ order, UsageAccounted inputs experimentId ledger order
      ((reservationPool w inputs).exec experimentUsageSystem acts) := by
  have hinit : (usageContract inputs experimentId).Holds
      (fun i => UsageSettled experimentId (inputs i) ledger.recordRevision)
      (reservationPool w inputs) :=
    Contract.Holds.init (Option.isSome_iff_exists.mpr ⟨ledger, hledger⟩) fun i =>
      reserveExperimentUsage_sat i rfl hledger
  have hend := (hinit.exec_keeps (I := fun _ => True) (fun _ _ _ _ h => h) acts hcreates
    trivial).1
  have hserial := hinit.serial usageContract_commits rfl acts hcreates
  have hview : (reservationPool w inputs).state.ledgers.getById experimentId = some ledger :=
    hledger
  obtain ⟨hlegal, hstate⟩ := hserial
  rw [hview] at hlegal hstate
  obtain ⟨hchargeable, hcharged⟩ := serially_some hlegal
  rw [hcharged] at hstate
  have hmem : ∀ i, i ∈ ((reservationPool w inputs).exec experimentUsageSystem acts).commits
        (StoresUsage experimentId) ↔
      0 < (((reservationPool w inputs).exec experimentUsageSystem acts).log i).countP
        (StoresUsage experimentId) := by
    intro i
    rw [← Pool.count_commits, List.count_pos_iff]
  refine ⟨_, ?_, hchargeable, hstate, fun i next hnext => ?_, fun i e he => ?_,
    fun i e he hcode hown => ?_, fun budget hbudget hwithin =>
      withinBudget_inOrder hchargeable hbudget hwithin⟩
  · refine List.nodup_iff_count_le_one.mpr fun i => ?_
    exact hinit.commits_le_one (fun i log s o _ _ hspec hstores => (hspec.stores hstores).1) rfl
      acts hcreates i
  · obtain ⟨s, -, hsettled⟩ := hend.returned hnext
    rw [hmem, show List.countP _ _ = _ from hsettled]
    split <;> simp_all
  · obtain ⟨s, -, hzero, -⟩ := hend.returned he
    rw [hmem, hzero]
    exact lt_irrefl 0
  · obtain ⟨s, hmoves, -, hconflict⟩ := hend.returned he
    obtain ⟨found, hfound, hle⟩ := hconflict hcode hown
    obtain ⟨found', hfound', hlater⟩ := hmoves _ _ hfound
    rw [hstate, Option.some.injEq] at hfound'
    have hrevision : found'.recordRevision = ledger.recordRevision +
        (((reservationPool w inputs).exec experimentUsageSystem acts).commits
          (StoresUsage experimentId)).length := by
      rw [← hfound', recordRevision_inOrder]
    have hlast : found.recordRevision ≤ found'.recordRevision := by
      rcases hlater with rfl | hlt
      · exact le_rfl
      · exact hlt.le
    omega

end Contract

/-- Two reservations read the ledger of an experiment at once, and a third one is cut off: the
second tries again, and what the two made of the ledger is within the budget. -/
theorem usage_accounted_overtaken :
    let ledger : ExperimentUsageLedger := ⟨"experiment", 0, 0, 0, 0, 0, 1, "start"⟩
    let other : ExperimentUsageLedger := { ledger with experimentId := "other" }
    let input : ExperimentReservation :=
      { experimentId := "experiment"
        budget := ⟨4, 4, 4⟩
        delta := ⟨some 1, none, some 2, some 1, none⟩
        nowIso := "now" }
    let acts : List (Action (Fin 3) ExperimentUsageLedger) :=
      [.run 0, .run 1, .env other, .run 0, .run 2, .crash 2, .run 1, .run 1, .run 1]
    ∃ order, UsageAccounted (fun _ => input) "experiment" ledger order
      ((reservationPool ⟨Repository.empty.save ledger⟩ fun _ => input).exec
        experimentUsageSystem acts) := by
  intro ledger other input acts
  exact usage_accounted (fun _ => input) (Repository.getById_save_self _ ledger) acts
    (by decide +kernel)

end Orchestrator
