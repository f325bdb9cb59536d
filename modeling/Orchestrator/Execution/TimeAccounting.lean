import Orchestrator.Execution.Calls

/-!
# The accounting of execution time

Steps run through the pipeline one after another on a ledger without a store, while every other
call answers or throws as it likes.

* `metered`: the calls on the ledger, with the answers of the rest (`Outside`);
* `ledgerAt`: the ledger at a point of a step, from the calls made so far;
* `Accounted`: what the accounting of one step promises;
* `Smooth`: no call fails between a reservation and `RUNNING`, and no settlement passes the time
  of the budget;
* `time_accounting_iff`: the steps of a run are all accounted for exactly when they are all smooth.
-/

namespace Orchestrator.TimeAccounting

open Atomic ExecutionService

/-! ## The ledger and the rest -/

section Calls

variable (X : External)

/-- The ledger that a call leaves. -/
def ledgerAfter (l : ExecutionResourceLedger) : ExecutionOp → ExecutionResourceLedger
  | .reserveDurationMs _ ms => (l.reserveDurationMs X ms).2
  | .settleReservedDuration _ reservedMs actualMs => l.settled reservedMs actualMs
  | .releaseReservation _ reservedMs => l.releaseReservation reservedMs
  | .recordStep _ delta => l.recorded delta
  | _ => l

/-- The answers of everything but the ledger, and the wall clock, at each call. -/
structure Outside where
  answer : ℕ → (o : ExecutionOp) → Except JsError o.Res
  wallClock : ℕ → ℕ

/-- What call number `n` is answered. `Date.now()` does not throw. -/
def answerOf (U : Outside) (n : ℕ) (l : ExecutionResourceLedger) :
    (o : ExecutionOp) → Except JsError o.Res
  | .readLedger _ => .ok l
  | .reserveDurationMs _ ms => (l.reserveDurationMs X ms).1
  | .settleReservedDuration _ reservedMs actualMs =>
    (l.settleReservedDuration X reservedMs actualMs).1
  | .releaseReservation .. => .ok ()
  | .recordStep _ delta => (l.recordStep X delta).1
  | .dateNow => .ok (U.wallClock n)
  | o => U.answer n o

/-- The ledger, and how many calls were made. -/
structure Meter where
  ledger : ExecutionResourceLedger
  calls : ℕ

/-- The calls on the ledger, and the answers of the rest. -/
def metered (U : Outside) : Handler ExecutionSig Meter := fun o m =>
  (answerOf X U m.calls m.ledger o, ⟨ledgerAfter X m.ledger o, m.calls + 1⟩)

/-- The ledger after the calls of a log. -/
def ledgerAt (l : ExecutionResourceLedger) (log : Log ExecutionSig) : ExecutionResourceLedger :=
  log.foldr (fun e l => ledgerAfter X l e.op) l

@[simp] theorem ledgerAt_nil (l : ExecutionResourceLedger) : ledgerAt X l [] = l := rfl

@[simp] theorem ledgerAt_cons (l : ExecutionResourceLedger) (e : Event ExecutionSig)
    (log : Log ExecutionSig) :
    ledgerAt X l (e :: log) = ledgerAfter X (ledgerAt X l log) e.op := rfl

/-- A program leaves the ledger that its calls lead to. -/
theorem ledger_run {α : Type} (U : Outside) (p : Prog ExecutionSig α) (m : Meter)
    (log : Log ExecutionSig) (l : ExecutionResourceLedger) (h : m.ledger = ledgerAt X l log) :
    (p.run (metered X U) m log).state.ledger = ledgerAt X l (p.run (metered X U) m log).log := by
  induction p generalizing m log with
  | pure a => exact h
  | call o k ih =>
    refine ih _ _ _ ?_
    rw [ledgerAt_cons, ← h]
    rfl

/-- The ledger as a program sees it. -/
def ledgerEnv : Env ExecutionSig ExecutionResourceLedger where
  rely := Eq
  step _ l o r l' := (∃ U n, r = answerOf X U n l o) ∧ l' = ledgerAfter X l o

theorem metered_meets (U : Outside) : (metered X U).Meets (ledgerEnv X) Meter.ledger :=
  ⟨fun _ => rfl, fun _ m _ => ⟨⟨U, m.calls, rfl⟩, rfl⟩⟩

end Calls

/-! ## What the events of a step mean -/

/-- What the event adds to the time that is reserved and not given back. -/
def held : Event ExecutionSig → ℚ
  | ⟨.reserveDurationMs _ ms, r⟩ => if r.isOk then ms else 0
  | ⟨.settleReservedDuration _ ms _, _⟩ => -ms
  | ⟨.releaseReservation _ ms, _⟩ => -ms
  | _ => 0

/-- The time that is reserved and not given back. -/
def outstanding (log : Log ExecutionSig) : ℚ := (log.map held).sum

/-- The event reserves time. -/
def Reserves : Event ExecutionSig → Bool
  | ⟨.reserveDurationMs .., r⟩ => r.isOk
  | _ => false

/-- The event settles or releases reserved time; a settlement does so before it may throw. -/
def GivesBack : Event ExecutionSig → Bool
  | ⟨.settleReservedDuration .., _⟩ => true
  | ⟨.releaseReservation .., _⟩ => true
  | _ => false

/-- The event stores `RUNNING`. -/
def Runs : Event ExecutionSig → Bool
  | ⟨.markRunning _, r⟩ => r.isOk
  | _ => false

/-- The event completes an actuated step. -/
def Completes : Event ExecutionSig → Bool
  | ⟨.complete .., r⟩ => r.isOk
  | _ => false

/-- The event belongs to the start of a step: its reservation, `RUNNING`, the actuator. -/
def StartsStep : Event ExecutionSig → Bool
  | ⟨.actuate .., _⟩ => true
  | e => Reserves e || Runs e

/-- What the wall clock read. -/
def reading : Event ExecutionSig → Option ℕ
  | ⟨.dateNow, .ok t⟩ => some t
  | _ => none

/-- What the wall clock read since the step is `RUNNING`, the last reading first. -/
def readings (log : Log ExecutionSig) : List ℕ :=
  (log.takeWhile fun e => !Runs e).filterMap reading

/-- The actual time of a completed step, at least a millisecond; another step takes none. -/
def charged (log : Log ExecutionSig) : ℚ :=
  if log.any Completes then
    match (readings log).head?, (readings log).getLast? with
    | some finished, some started => max 1 (finished - started)
    | _, _ => 0
  else 0

/-- There is a reservation, and the step is not `RUNNING` yet. -/
def Exposed (log : Log ExecutionSig) : Prop :=
  log.countP Reserves ≠ 0 ∧ log.any Runs = false

/-- The accounting of one step from the ledger `l`: at each point the reserved time is what is
outstanding, a reservation is settled or released exactly once, nothing starts when the time is
used up, and after the step nothing is reserved and its actual time is spent. -/
structure Accounted (X : External) (l : ExecutionResourceLedger) (log : Log ExecutionSig) :
    Prop where
  within : log.All fun log e =>
    (ledgerAt X l (e :: log)).usage.reservedDurationMs = outstanding (e :: log)
  single : log.countP Reserves ≤ 1
  once : log.countP GivesBack = log.countP Reserves
  inTime : log.All fun log e =>
    StartsStep e = true → (ledgerAt X l log).usage.durationMs < l.ceilingDurationMs
  released : (ledgerAt X l log).usage.reservedDurationMs = 0
  spent : (ledgerAt X l log).usage.durationMs = l.usage.durationMs + charged log

/-- No call fails while a reservation waits for its step to be `RUNNING`, and a settlement keeps
within the time of the budget. -/
structure Smooth (l : ExecutionResourceLedger) (log : Log ExecutionSig) : Prop where
  unbroken : log.All fun log e => Exposed log → (e.ret : Except JsError e.op.Res).isOk = true
  affordable : ∀ a reservedMs actualMs r,
    ⟨.settleReservedDuration a reservedMs actualMs, r⟩ ∈ log →
      l.usage.durationMs + actualMs ≤ l.ceilingDurationMs

/-! ## The phases of a step -/

/-- The calls that neither belong to the accounting nor start or complete a step. -/
def Calm : ExecutionOp → Prop
  | .reserveDurationMs .. => False
  | .settleReservedDuration .. => False
  | .releaseReservation .. => False
  | .recordStep .. => False
  | .markRunning _ => False
  | .actuate .. => False
  | .complete .. => False
  | _ => True

theorem calm_of_reserving {k : String} (o : ExecutionOp) (h : Reserving k o) : Calm o := by
  cases o <;> trivial

theorem calm_of_bookkeeping (o : ExecutionOp) (h : Bookkeeping o) : Calm o := by
  cases o <;> trivial

/-- A step so far: the accounts balance on the ledger `l₁`, `k` reservations were made and `g`
times one was given back, and it is known whether the step is `RUNNING` and completed. -/
structure Phase (X : External) (l₀ l₁ : ExecutionResourceLedger) (k g : ℕ)
    (running completed : Bool) (log : Log ExecutionSig) (l : ExecutionResourceLedger) : Prop where
  now : l = l₁
  ledger : ledgerAt X l₀ log = l₁
  balance : l₁.usage.reservedDurationMs = outstanding log
  within : log.All fun log e =>
    (ledgerAt X l₀ (e :: log)).usage.reservedDurationMs = outstanding (e :: log)
  inTime : log.All fun log e =>
    StartsStep e = true → (ledgerAt X l₀ log).usage.durationMs < l₀.ceilingDurationMs
  smooth : Smooth l₀ log
  reserves : log.countP Reserves = k
  givesBack : log.countP GivesBack = g
  runs : log.any Runs = running
  completes : log.any Completes = completed

variable {X : External} {l₀ l₁ l : ExecutionResourceLedger} {k g : ℕ}
  {running completed : Bool} {log : Log ExecutionSig} {e : JsError}

theorem Phase.start (h : l₀.usage.reservedDurationMs = 0) :
    Phase X l₀ l₀ 0 0 false false [] l₀ where
  now := rfl
  ledger := rfl
  balance := h
  within := trivial
  inTime := trivial
  smooth := ⟨trivial, fun _ _ _ _ h => nomatch h⟩
  reserves := rfl
  givesBack := rfl
  runs := rfl
  completes := rfl

/-- One more call, which may only fail where no reservation waits. -/
theorem Phase.cons (h : Phase X l₀ l₁ k g running completed log l) {o : ExecutionOp}
    (l₂ : ExecutionResourceLedger) {r : Except JsError o.Res} (hledger : ledgerAfter X l₁ o = l₂)
    (hbalance : l₂.usage.reservedDurationMs = l₁.usage.reservedDurationMs + held ⟨o, r⟩)
    (htime : StartsStep ⟨o, r⟩ = true → l₁.usage.durationMs < l₀.ceilingDurationMs)
    (hok : k ≠ 0 → running = false → r.isOk = true)
    (hafford : ∀ a ms actualMs, o = .settleReservedDuration a ms actualMs →
      l₀.usage.durationMs + actualMs ≤ l₀.ceilingDurationMs) :
    Phase X l₀ l₂ (k + if Reserves ⟨o, r⟩ then 1 else 0) (g + if GivesBack ⟨o, r⟩ then 1 else 0)
      (Runs ⟨o, r⟩ || running) (Completes ⟨o, r⟩ || completed) (⟨o, r⟩ :: log) l₂ := by
  have hafter : ledgerAt X l₀ (⟨o, r⟩ :: log) = l₂ := by rw [ledgerAt_cons, h.ledger, hledger]
  have hsum : l₂.usage.reservedDurationMs = outstanding (⟨o, r⟩ :: log) := by
    rw [hbalance, h.balance, outstanding, outstanding, List.map_cons, List.sum_cons, add_comm]
  constructor
  · rfl
  · exact hafter
  · exact hsum
  · exact ⟨(congrArg (·.usage.reservedDurationMs) hafter).trans hsum, h.within⟩
  · refine ⟨fun hstarts => ?_, h.inTime⟩
    rw [h.ledger]
    exact htime hstarts
  · refine ⟨⟨fun hexposed => ?_, h.smooth.unbroken⟩, fun a ms actualMs r' hmem => ?_⟩
    · rw [Exposed, h.reserves, h.runs] at hexposed
      exact hok hexposed.1 hexposed.2
    · rcases List.mem_cons.mp hmem with heq | hmem
      · exact hafford a ms actualMs (congrArg Event.op heq).symm
      · exact h.smooth.affordable a ms actualMs r' hmem
  · rw [List.countP_cons, h.reserves]
  · rw [List.countP_cons, h.givesBack]
  · rw [List.any_cons, h.runs]
  · rw [List.any_cons, h.completes]

/-- A calm call changes nothing in the accounts. -/
theorem Phase.calm (h : Phase X l₀ l₁ k g running completed log l) {o : ExecutionOp} (ho : Calm o)
    {r : Except JsError o.Res} (hok : k ≠ 0 → running = false → r.isOk = true) :
    Phase X l₀ l₁ k g running completed (⟨o, r⟩ :: log) l := by
  have hcons := h.cons l₁ (r := r)
    (by cases o <;> first | rfl | exact ho.elim)
    (by cases o <;> first | exact (add_zero _).symm | exact ho.elim)
    (by cases o <;> first | exact fun hstarts => absurd hstarts Bool.false_ne_true | exact ho.elim)
    hok
    (by rintro a ms actualMs rfl; exact ho.elim)
  have hreserves : Reserves ⟨o, r⟩ = false := by cases o <;> first | rfl | exact ho.elim
  have hgives : GivesBack ⟨o, r⟩ = false := by cases o <;> first | rfl | exact ho.elim
  have hruns : Runs ⟨o, r⟩ = false := by cases o <;> first | rfl | exact ho.elim
  have hcompletes : Completes ⟨o, r⟩ = false := by cases o <;> first | rfl | exact ho.elim
  rw [hreserves, hgives, hruns, hcompletes] at hcons
  simpa [h.now] using hcons

/-- Calm calls keep the phase of a step that has no reservation waiting. -/
theorem Phase.keeps (hsafe : k = 0 ∨ running = true) :
    Keeps (ledgerEnv X) anyCall Calm (Phase X l₀ l₁ k g running completed) := by
  refine ⟨fun _ _ _ heq h => heq ▸ h, fun log m o r m' ho h hstep => ⟨trivial, ?_⟩⟩
  have hm : m' = m := by
    rw [hstep.2]
    cases o <;> first | rfl | exact ho.elim
  rw [hm]
  refine h.calm ho fun hk hrunning => ?_
  rcases hsafe with hzero | htrue
  · exact absurd hzero hk
  · rw [hrunning] at htrue
    cases htrue

/-! ## The end of a step -/

/-- The step is accounted for exactly when it was smooth. -/
def Verdict (X : External) (l₀ : ExecutionResourceLedger) (log : Log ExecutionSig)
    (l : ExecutionResourceLedger) : Prop :=
  l = ledgerAt X l₀ log ∧ (Accounted X l₀ log ↔ Smooth l₀ log)

theorem charged_of_not_completed (h : log.any Completes = false) : charged log = 0 := by
  rw [charged, if_neg (by simp [h])]

/-- What was reserved was given back once, and the actual time is spent. -/
theorem Phase.verdict (h : Phase X l₀ l₁ k k running completed log l) (hk : k ≤ 1)
    (hreleased : l₁.usage.reservedDurationMs = 0)
    (hspent : l₁.usage.durationMs = l₀.usage.durationMs + charged log) : Verdict X l₀ log l := by
  refine ⟨h.now.trans h.ledger.symm, fun _ => h.smooth, fun _ => ?_⟩
  exact {
    within := h.within
    single := h.reserves.trans_le hk
    once := h.givesBack.trans h.reserves.symm
    inTime := h.inTime
    released := by rw [h.ledger, hreleased]
    spent := by rw [h.ledger, hspent] }

/-- A step that ends with its reservation given back twice or not at all was not smooth. -/
theorem verdict_of_unbalanced (hledger : l = ledgerAt X l₀ log)
    (hcounts : log.countP GivesBack ≠ log.countP Reserves) (hsmooth : ¬Smooth l₀ log) :
    Verdict X l₀ log l :=
  ⟨hledger, fun h => absurd h.once hcounts, fun h => absurd h hsmooth⟩

/-- A call that fails while the reservation waits ends the step with the reservation kept. -/
theorem Phase.verdict_of_error (h : Phase X l₀ l₁ 1 0 false completed log l) {o : ExecutionOp}
    (hgives : GivesBack ⟨o, .error e⟩ = false) :
    Verdict X l₀ (⟨o, .error e⟩ :: log) (ledgerAfter X l o) := by
  have hreserves : Reserves ⟨o, .error e⟩ = false := by cases o <;> rfl
  refine verdict_of_unbalanced ?_ ?_ fun hsmooth => ?_
  · rw [ledgerAt_cons, h.ledger, h.now]
  · simp [hreserves, hgives, h.reserves, h.givesBack]
  · have hexposed : Exposed log := ⟨by rw [h.reserves]; exact one_ne_zero, h.runs⟩
    exact absurd (hsmooth.unbroken.1 hexposed) Bool.false_ne_true

/-! ## Between the reservation and the actuator -/

/-- A calm call while the reservation waits. -/
theorem waitingCall_sat (h : Phase X l₀ l₁ 1 0 false completed log l) {o : ExecutionOp}
    (ho : Calm o) : (call o).Sat (ledgerEnv X) anyCall
      (ends (fun log l _ => Phase X l₀ l₁ 1 0 false completed log l)
        (fun log l _ => Verdict X l₀ log l)) log l := by
  rintro _ r l' rfl ⟨-, hl'⟩
  refine ⟨trivial, ?_⟩
  cases r with
  | ok a =>
    have hsame : l' = l := by
      rw [hl']
      cases o <;> first | rfl | exact ho.elim
    rw [hsame]
    exact h.calm ho fun _ _ => rfl
  | error e =>
    rw [hl']
    exact h.verdict_of_error (by cases o <;> first | rfl | exact ho.elim)

/-- `appendEvent` while the reservation waits. -/
theorem waitingAppendEvent_sat (runId : String) (data : ExecutionEventData)
    (h : Phase X l₀ l₁ 1 0 false completed log l) :
    (appendEvent runId data).Sat (ledgerEnv X) anyCall
      (ends (fun log l _ => Phase X l₀ l₁ 1 0 false completed log l)
        (fun log l _ => Verdict X l₀ log l)) log l := by
  refine Async.Sat.bind (waitingCall_sat h trivial) (fun log l run h => ?_) fun _ _ _ h => h
  cases run with
  | none => exact h
  | some run =>
    refine Async.Sat.bind (waitingCall_sat h trivial) (fun log l now h => ?_) fun _ _ _ h => h
    refine Async.Sat.bind (waitingCall_sat h trivial) (fun log l eventId h => ?_) fun _ _ _ h => h
    refine Async.Sat.bind (waitingCall_sat h trivial) (fun log l keyId h => ?_) fun _ _ _ h => h
    exact waitingCall_sat h trivial

/-- `markRunning` ends the waiting, unless it fails. -/
theorem markRunning_sat (key : String) (h : Phase X l₀ l₁ 1 0 false completed log l)
    (htime : l₁.usage.durationMs < l₀.ceilingDurationMs) :
    (call (.markRunning key)).Sat (ledgerEnv X) anyCall
      (ends (fun log l _ => Phase X l₀ l₁ 1 0 true completed log l ∧ readings log = [])
        (fun log l _ => Verdict X l₀ log l)) log l := by
  rintro _ r l' rfl ⟨-, rfl⟩
  refine ⟨trivial, ?_⟩
  cases r with
  | ok a =>
    have hcons := h.cons (o := .markRunning key) (r := .ok a) l₁ rfl (add_zero _).symm
      (fun _ => htime) (fun _ _ => rfl) (fun _ _ _ heq => nomatch heq)
    refine ⟨?_, rfl⟩
    rw [h.now]
    exact hcons
  | error e => exact h.verdict_of_error (o := .markRunning key) rfl

/-! ## From the actuator to the end -/

theorem readings_cons {e : Event ExecutionSig} (h : Runs e = false) (log : Log ExecutionSig) :
    readings (e :: log) = (reading e).toList ++ readings log := by
  rw [readings, List.takeWhile_cons_of_pos (by simp [h]), List.filterMap_cons]
  cases reading e <;> rfl

/-- The step is `RUNNING` since the clock read `started`. -/
structure Running (X : External) (l₀ l₁ : ExecutionResourceLedger) (started : ℕ)
    (completed : Bool) (log : Log ExecutionSig) (l : ExecutionResourceLedger) : Prop where
  phase : Phase X l₀ l₁ 1 0 true completed log l
  started : (readings log).getLast? = some started

variable {started : ℕ}

theorem getLast?_readings {e : Event ExecutionSig} (he : Runs e = false)
    (h : (readings log).getLast? = some started) :
    (readings (e :: log)).getLast? = some started := by
  rw [readings_cons he, List.getLast?_append, h]
  rfl

theorem Running.keeps :
    Keeps (ledgerEnv X) anyCall Calm (Running X l₀ l₁ started completed) := by
  have hphase : Keeps (ledgerEnv X) anyCall Calm (Phase X l₀ l₁ 1 0 true completed) :=
    Phase.keeps (.inr rfl)
  refine ⟨fun _ _ _ heq h => heq ▸ h, fun log m o r m' ho h hstep => ⟨trivial, ?_, ?_⟩⟩
  · exact (hphase.call log m o r m' ho h.phase hstep).2
  · exact getLast?_readings (by cases o <;> first | rfl | exact ho.elim) h.started

/-- The time that a step may take, and what else the budget leaves it: the step's reservation of
`ms` on the ledger `l₀`. -/
structure Granted (l₀ : ExecutionResourceLedger) (ms : ℚ) : Prop where
  pos : 0 < ms
  le : ms ≤ l₀.remainingExecutionMs
  none : l₀.usage.reservedDurationMs = 0
  steps : l₀.usage.stepsExecuted + 1 ≤ l₀.budget.maximumPlanSteps
  apiCalls : (l₀.usage.apiCalls : ℚ) ≤ l₀.budget.maximumApiCalls

variable {ms actualMs : ℚ}

theorem Granted.inTime (h : Granted l₀ ms) : l₀.usage.durationMs < l₀.ceilingDurationMs := by
  have hpos := h.pos.trans_le h.le
  rw [ExecutionResourceLedger.remainingExecutionMs, h.none, sub_zero, lt_max_iff] at hpos
  exact sub_pos.mp (hpos.resolve_left (lt_irrefl 0))

/-- The ledger of a step that gave its reservation back. -/
theorem Granted.release (h : Granted l₀ ms) : (l₀.addReserved ms).releaseReservation ms = l₀ := by
  have hsame : max 0 (l₀.usage.reservedDurationMs + ms - ms) = l₀.usage.reservedDurationMs := by
    rw [h.none, zero_add, sub_self, max_self]
  unfold ExecutionResourceLedger.releaseReservation ExecutionResourceLedger.addReserved
  simp only [hsame]

/-- A settlement within the time of the budget, and only that, passes the check of the ceilings. -/
theorem Granted.settle (h : Granted l₀ ms) (hactual : 0 ≤ actualMs) :
    ((l₀.addReserved ms).settled ms actualMs).usage.reservedDurationMs = 0 ∧
      ((l₀.addReserved ms).settled ms actualMs).usage.durationMs =
        l₀.usage.durationMs + actualMs ∧
      (((l₀.addReserved ms).settled ms actualMs).WithinBudget ↔
        l₀.usage.durationMs + actualMs ≤ l₀.ceilingDurationMs) := by
  have hreserved : ((l₀.addReserved ms).settled ms actualMs).usage.reservedDurationMs = 0 := by
    show max 0 (l₀.usage.reservedDurationMs + ms - ms) = 0
    rw [h.none, zero_add, sub_self, max_self]
  have hduration : ((l₀.addReserved ms).settled ms actualMs).usage.durationMs =
      l₀.usage.durationMs + actualMs := by
    show l₀.usage.durationMs + max 0 actualMs = _
    rw [max_eq_right hactual]
  refine ⟨hreserved, hduration, ?_⟩
  rw [ExecutionResourceLedger.WithinBudget, hreserved, hduration, add_zero]
  exact ⟨fun hwithin => hwithin.1, fun htime => ⟨htime, h.apiCalls, Nat.le_of_succ_le h.steps⟩⟩

/-- What is known after the settlement failed: it gave back what was reserved, and spent more than
there was. -/
structure Overspent (X : External) (l₀ : ExecutionResourceLedger) (log : Log ExecutionSig)
    (l : ExecutionResourceLedger) : Prop where
  ledger : l = ledgerAt X l₀ log
  reserves : log.countP Reserves = 1
  givesBack : log.countP GivesBack = 1
  smooth : ¬Smooth l₀ log

/-- What is known when the `try` block of the pipeline threw. -/
abbrev Caught (X : External) (l₀ l₁ : ExecutionResourceLedger) (log : Log ExecutionSig)
    (l : ExecutionResourceLedger) : Prop :=
  Phase X l₀ l₁ 1 0 true false log l ∨ Overspent X l₀ log l

/-- The `catch` block: it releases what is reserved, and once more what was settled. -/
theorem release_sat (hgranted : Granted l₀ ms) (a : String)
    (h : Caught X l₀ (l₀.addReserved ms) log l) :
    (call (.releaseReservation a ms)).Sat (ledgerEnv X) anyCall
      (fun log l _ => Verdict X l₀ log l) log l := by
  rintro _ r l' rfl ⟨-, rfl⟩
  refine ⟨trivial, ?_⟩
  rcases h with h | h
  · have hback : ledgerAfter X (l₀.addReserved ms) (.releaseReservation a ms) = l₀ :=
      hgranted.release
    have hcons := h.cons (o := .releaseReservation a ms) (r := r) _ hback
      (by
        show l₀.usage.reservedDurationMs = l₀.usage.reservedDurationMs + ms + -ms
        ring)
      (fun hstarts => absurd hstarts Bool.false_ne_true) (fun _ hrunning => nomatch hrunning)
      (fun _ _ _ heq => nomatch heq)
    rw [h.now, hback]
    refine hcons.verdict le_rfl hgranted.none ?_
    rw [charged_of_not_completed hcons.completes, add_zero]
  · refine verdict_of_unbalanced ?_ ?_ fun hsmooth => h.smooth ?_
    · rw [ledgerAt_cons, h.ledger]
    · have hgives : GivesBack ⟨.releaseReservation a ms, r⟩ = true := rfl
      have hreserves : Reserves ⟨.releaseReservation a ms, r⟩ = false := rfl
      simp [hgives, hreserves, h.reserves, h.givesBack]
    · exact ⟨hsmooth.unbroken.2, fun a ms actualMs r' hmem =>
        hsmooth.affordable a ms actualMs r' (List.mem_cons_of_mem _ hmem)⟩

/-- A call that is no settlement and starts nothing, of a step that is `RUNNING`. -/
theorem Phase.proceed (h : Phase X l₀ l₁ k g true completed log l) {o : ExecutionOp}
    {r : Except JsError o.Res} (hledger : ledgerAfter X l₁ o = l₁) (hheld : held ⟨o, r⟩ = 0)
    (htime : StartsStep ⟨o, r⟩ = true → l₁.usage.durationMs < l₀.ceilingDurationMs)
    (hreserves : Reserves ⟨o, r⟩ = false) (hgives : GivesBack ⟨o, r⟩ = false) :
    Phase X l₀ l₁ k g true (Completes ⟨o, r⟩ || completed) (⟨o, r⟩ :: log) l := by
  have hcons := h.cons l₁ (r := r) hledger (by rw [hheld, add_zero]) htime
    (fun _ hrunning => nomatch hrunning) fun a ms actualMs ho => by subst ho; cases hgives
  rw [hreserves, hgives, Bool.or_true] at hcons
  simpa [h.now] using hcons

/-- `complete` of an actuated step. -/
theorem complete_sat (key : String) (result : StepExecutionResult)
    (h : Running X l₀ l₁ started false log l) :
    (call (.complete key result)).Sat (ledgerEnv X) anyCall
      (ends (fun log l _ => Running X l₀ l₁ started true log l)
        (fun log l _ => Phase X l₀ l₁ 1 0 true false log l)) log l := by
  rintro _ r l' rfl ⟨-, rfl⟩
  refine ⟨trivial, ?_⟩
  have hphase := h.phase.proceed (o := .complete key result) (r := r) rfl rfl
    (fun hstarts => absurd hstarts Bool.false_ne_true) rfl rfl
  have hstarted := getLast?_readings (e := ⟨.complete key result, r⟩) rfl h.started
  cases r with
  | error e => exact hphase
  | ok a => exact ⟨hphase, hstarted⟩

/-- A reading of the wall clock. -/
theorem dateNow_sat (h : Running X l₀ l₁ started completed log l) :
    (call .dateNow).Sat (ledgerEnv X) anyCall
      (ends (fun log l t => Running X l₀ l₁ started completed log l ∧
        (readings log).head? = some t) (fun _ _ _ => False)) log l := by
  rintro m r l' hm ⟨⟨U, n, hr⟩, hl'⟩
  have hanswer : r = .ok (U.wallClock n) := hr
  have hsame : l' = l := hl'.trans hm.symm
  rw [hanswer, hsame]
  refine ⟨trivial, ⟨?_, ?_⟩, ?_⟩
  · exact h.phase.calm (o := .dateNow) trivial fun _ hrunning => nomatch hrunning
  · exact getLast?_readings (e := ⟨.dateNow, .ok (U.wallClock n)⟩) rfl h.started
  · rw [readings_cons (e := ⟨.dateNow, .ok (U.wallClock n)⟩) rfl]
    rfl

/-- The first reading of the wall clock since the step is `RUNNING`. -/
theorem firstReading_sat (h : Phase X l₀ l₁ 1 0 true completed log l) (hnone : readings log = []) :
    (call .dateNow).Sat (ledgerEnv X) anyCall
      (ends (fun log l t => Running X l₀ l₁ t completed log l) (fun _ _ _ => False)) log l := by
  rintro m r l' hm ⟨⟨U, n, hr⟩, hl'⟩
  have hanswer : r = .ok (U.wallClock n) := hr
  have hsame : l' = l := hl'.trans hm.symm
  rw [hanswer, hsame]
  refine ⟨trivial, ?_, ?_⟩
  · exact h.calm (o := .dateNow) trivial fun _ hrunning => nomatch hrunning
  · rw [readings_cons (e := ⟨.dateNow, .ok (U.wallClock n)⟩) rfl, hnone]
    rfl

/-- The settlement spends the actual time, and throws when that is more than there is. -/
theorem settle_sat (hgranted : Granted l₀ ms) (a : String) (hactual : 0 ≤ actualMs)
    (h : Phase X l₀ (l₀.addReserved ms) 1 0 true completed log l) :
    (call (.settleReservedDuration a ms actualMs)).Sat (ledgerEnv X) anyCall
      (ends (fun log' l' _ =>
          Phase X l₀ ((l₀.addReserved ms).settled ms actualMs) 1 1 true completed log' l' ∧
            ((l₀.addReserved ms).settled ms actualMs).WithinBudget ∧
            readings log' = readings log)
        (fun log' l' _ => Overspent X l₀ log' l')) log l := by
  obtain ⟨hreserved, -, hwithin⟩ := hgranted.settle hactual
  rintro _ r l' rfl ⟨⟨U, n, rfl⟩, rfl⟩
  refine ⟨trivial, ?_⟩
  rw [h.now]
  have hanswer : answerOf X U n (l₀.addReserved ms) (.settleReservedDuration a ms actualMs) =
      ((l₀.addReserved ms).settled ms actualMs).assertWithinBudget X := rfl
  rw [hanswer]
  rcases ExecutionResourceLedger.assertWithinBudget_cases X
    ((l₀.addReserved ms).settled ms actualMs) with ⟨hbudget, hok⟩ | ⟨hbudget, m, hfail⟩
  · rw [hok]
    refine ⟨?_, hbudget, by rw [readings_cons rfl]; rfl⟩
    refine h.cons (o := .settleReservedDuration a ms actualMs) (r := .ok ()) _ rfl ?_
      (fun hstarts => absurd hstarts Bool.false_ne_true) (fun _ _ => rfl) ?_
    · rw [hreserved]
      show 0 = l₀.usage.reservedDurationMs + ms + -ms
      rw [hgranted.none]
      ring
    · rintro a' ms' actualMs' ⟨⟩
      exact hwithin.mp hbudget
  · rw [hfail]
    refine ⟨?_, ?_, ?_, fun hsmooth => hbudget (hwithin.mpr ?_)⟩
    · rw [ledgerAt_cons, h.ledger]
    · exact (List.countP_cons_of_neg Bool.false_ne_true).trans h.reserves
    · exact (List.countP_cons_of_pos rfl).trans (congrArg (· + 1) h.givesBack)
    · exact hsmooth.affordable a ms actualMs _ List.mem_cons_self

/-- `recordStep` after a settlement that passed does not throw. -/
theorem record_sat (hgranted : Granted l₀ ms) (a : String) (step : CompiledExecutionStep)
    (actuated : StepExecutionResult) (hactual : 0 ≤ actualMs)
    (hwithin : ((l₀.addReserved ms).settled ms actualMs).WithinBudget)
    (hspent : charged log = actualMs)
    (h : Phase X l₀ ((l₀.addReserved ms).settled ms actualMs) 1 1 true true log l) :
    (call (.recordStep a (stepUsage step actuated))).Sat (ledgerEnv X) anyCall
      (ends (fun log l _ => Verdict X l₀ log l) (fun _ _ _ => False)) log l := by
  obtain ⟨hreserved, hduration, -⟩ := hgranted.settle hactual
  rintro _ r l' rfl ⟨⟨U, n, rfl⟩, rfl⟩
  refine ⟨trivial, ?_⟩
  rw [h.now]
  have hanswer : answerOf X U n ((l₀.addReserved ms).settled ms actualMs)
      (.recordStep a (stepUsage step actuated)) =
      (((l₀.addReserved ms).settled ms actualMs).recorded
        (stepUsage step actuated)).assertWithinBudget X := rfl
  have hrecorded : (((l₀.addReserved ms).settled ms actualMs).recorded
      (stepUsage step actuated)).WithinBudget := ⟨hwithin.1, hwithin.2.1, hgranted.steps⟩
  rcases ExecutionResourceLedger.assertWithinBudget_cases X
    (((l₀.addReserved ms).settled ms actualMs).recorded (stepUsage step actuated)) with
    ⟨-, hok⟩ | ⟨hover, -⟩
  · rw [hanswer, hok]
    have hcons := h.cons (o := .recordStep a (stepUsage step actuated)) (r := .ok ()) _ rfl
      (add_zero _).symm (fun hstarts => absurd hstarts Bool.false_ne_true) (fun _ _ => rfl)
      (fun _ _ _ heq => nomatch heq)
    refine hcons.verdict le_rfl hreserved ?_
    have hcharged : charged (⟨.recordStep a (stepUsage step actuated), .ok ()⟩ :: log) =
        charged log := by
      unfold charged
      rw [readings_cons rfl]
      rfl
    rw [hcharged, hspent]
    exact hduration
  · exact absurd hrecorded hover

/-- Completing, settling and recording a step that was actuated. -/
theorem settleStep_accounts {input : StepInput} (hgranted : Granted l₀ ms)
    (actuated : StepExecutionResult)
    (h : Running X l₀ (l₀.addReserved ms) started false log l) :
    (settleStep input ms started actuated).Sat (ledgerEnv X) anyCall
      (ends (fun log l _ => Verdict X l₀ log l)
        (fun log l _ => Caught X l₀ (l₀.addReserved ms) log l)) log l := by
  refine Async.Sat.bind (complete_sat _ _ h) (fun log l completed h => ?_) fun _ _ _ h => .inl h
  refine Async.Sat.bind (dateNow_sat h) (fun log l finished h => ?_) fun _ _ _ h => h.elim
  have hactual : (0 : ℚ) ≤ max 1 ((finished : ℚ) - (started : ℚ)) :=
    zero_le_one.trans (le_max_left _ _)
  have hcharged : charged log = max 1 ((finished : ℚ) - (started : ℚ)) := by
    rw [charged, if_pos h.1.phase.completes, h.2, h.1.started]
  refine Async.Sat.bind (settle_sat hgranted _ hactual h.1.phase) (fun log' l' _ h' => ?_)
    fun _ _ _ h => .inr h
  refine Async.Sat.bind (record_sat hgranted _ input.step actuated hactual h'.2.1 ?_ h'.1)
    (fun _ _ _ h => h) fun _ _ _ h => h.elim
  rw [charged, if_pos h'.1.completes, h'.2.2, h.2, h.1.started]

/-! ## The whole step -/

theorem allowedRuntimeMs_le (l : ExecutionResourceLedger) (seconds : ℕ) (profile : Option ℕ) :
    l.allowedRuntimeMs seconds profile ≤ l.remainingExecutionMs := by
  have hbound : min (seconds * 1000 : ℚ) l.remainingExecutionMs ≤ l.remainingExecutionMs :=
    min_le_right _ _
  refine max_le (le_max_left _ _) ?_
  cases profile with
  | none => exact hbound
  | some profile => exact (min_le_left _ _).trans hbound

/-- The reservation of a granted time goes through. -/
theorem reserve_sat (hgranted : Granted l₀ ms) (a : String)
    (h : Phase X l₀ l₀ 0 0 false false log l) :
    (call (.reserveDurationMs a ms)).Sat (ledgerEnv X) anyCall
      (ends (fun log l _ => Phase X l₀ (l₀.addReserved ms) 1 0 false false log l)
        (fun _ _ _ => False)) log l := by
  have hreserve : l₀.reserveDurationMs X ms = (.ok (), l₀.addReserved ms) := by
    rw [ExecutionResourceLedger.reserveDurationMs, if_neg (not_le.mpr hgranted.pos),
      if_neg (not_lt.mpr hgranted.le)]
  rintro _ r l' rfl ⟨⟨U, n, rfl⟩, rfl⟩
  rw [h.now]
  have hanswer : answerOf X U n l₀ (.reserveDurationMs a ms) = .ok () :=
    congrArg Prod.fst hreserve
  have hafter : ledgerAfter X l₀ (.reserveDurationMs a ms) = l₀.addReserved ms :=
    congrArg Prod.snd hreserve
  rw [hanswer, hafter]
  exact ⟨trivial, h.cons (o := .reserveDurationMs a ms) (r := .ok ()) _ hafter rfl
    (fun _ => hgranted.inTime) (fun hk => absurd rfl hk) (fun _ _ _ heq => nomatch heq)⟩

/-- The actuator's call, of a step that is `RUNNING`. -/
theorem actuate_sat (hgranted : Granted l₀ ms) (action : Phase7ActionType)
    (step : CompiledExecutionStep) (a : String)
    (h : Running X l₀ (l₀.addReserved ms) started false log l) :
    (call (.actuate action step a ms)).Sat (ledgerEnv X) anyCall
      (fun log l _ => Running X l₀ (l₀.addReserved ms) started false log l) log l := by
  rintro _ r l' rfl ⟨-, rfl⟩
  refine ⟨trivial, ?_, ?_⟩
  · exact h.phase.proceed (o := .actuate action step a ms) rfl rfl (fun _ => hgranted.inTime) rfl
      rfl
  · exact getLast?_readings (e := ⟨.actuate action step a ms, r⟩) rfl h.started

variable {input : StepInput} {profiles : TestProfileRegistry}

/-- From the reservation in the store on. -/
theorem runReservedStep_accounts (hnone : l₀.usage.reservedDurationMs = 0)
    (h : Phase X l₀ l₀ 0 0 false false log l) :
    (runReservedStep X profiles input).Sat (ledgerEnv X) anyCall
      (fun log l _ => Verdict X l₀ log l) log l := by
  have hidle : ∀ log l, Phase X l₀ l₀ 0 0 false false log l → Verdict X l₀ log l :=
    fun log l h => h.verdict zero_le_one hnone
      (by rw [charged_of_not_completed h.completes, add_zero])
  refine Async.Sat.bind_ofExcept (fun testTimeout _ => ?_) fun _ _ => hidle _ _ h
  refine Async.Sat.bind (R := ends
    (fun log l ledger => Phase X l₀ l₀ 0 0 false false log l ∧ ledger = l₀)
    (fun _ _ _ => False)) ?_ (fun log l ledger h => ?_) fun _ _ _ h => h.elim
  · rintro _ r l' rfl ⟨⟨U, n, rfl⟩, rfl⟩
    exact ⟨trivial, h.calm (o := .readLedger input.executionAttemptId) trivial
      fun hk => absurd rfl hk, h.now⟩
  obtain ⟨h, rfl⟩ := h
  have hle := allowedRuntimeMs_le ledger input.capability.maximumRuntimeSeconds testTimeout
  generalize ledger.allowedRuntimeMs input.capability.maximumRuntimeSeconds testTimeout = ms
    at hle ⊢
  refine Async.Sat.bind (R := ends
    (fun log l _ => Phase X ledger ledger 0 0 false false log l ∧ ¬ms ≤ 0)
    (fun log l _ => Phase X ledger ledger 0 0 false false log l)) ?_ (fun log l _ h => ?_)
    fun _ _ _ h => hidle _ _ h
  · rw [throwIf, Async.sat_ite]
    exact ⟨fun _ => h, fun hpos => ⟨h, hpos⟩⟩
  obtain ⟨h, hpos⟩ := h
  refine Async.Sat.bind_ofExcept (fun _ hdiscrete => ?_) fun _ _ => hidle _ _ h
  obtain ⟨hsteps, hapis⟩ := ExecutionResourceLedger.assertDiscreteBudgetAvailable_ok hdiscrete
  have hgranted : Granted ledger ms := ⟨not_le.mp hpos, hle, hnone, hsteps, hapis⟩
  refine Async.Sat.bind (reserve_sat hgranted _ h) (fun log l _ h => ?_) fun _ _ _ h => h.elim
  refine Async.Sat.bind (waitingAppendEvent_sat _ _ h) (fun log l _ h => ?_) fun _ _ _ h => h
  refine Async.Sat.bind (markRunning_sat _ h hgranted.inTime) (fun log l _ h => ?_) fun _ _ _ h => h
  refine Async.Sat.bind (firstReading_sat h.1 h.2) (fun log l startedMs h => ?_)
    fun _ _ _ h => h.elim
  refine (Async.sat_tryCatch _ _).mpr (Async.Sat.mono
    (Q := ends (fun log l _ => Verdict X ledger log l)
      (fun log l _ => Caught X ledger (ledger.addReserved ms) log l)) ?_ fun log l r h => ?_)
  · have hrunning : Keeps (ledgerEnv X) anyCall Calm
        (Running X ledger (ledger.addReserved ms) startedMs false) := Running.keeps
    have hbook := hrunning.mono calm_of_bookkeeping
    exact Async.Sat.bind (actuateStep_sat hbook hbook (fun _ _ h => h) ms
      (fun action _ _ h => actuate_sat hgranted action _ _ h) h)
      (fun log l actuated h => settleStep_accounts hgranted actuated h.1)
      fun _ _ _ h => .inl h.phase
  · cases r with
    | ok p => exact h
    | error e =>
      exact Async.Sat.bind (release_sat hgranted _ h) (fun _ _ _ h => h) fun _ _ _ h => h

/-- The whole pipeline, from a ledger with nothing reserved. -/
theorem runBoundedStepPipeline_accounts (hnone : l₀.usage.reservedDurationMs = 0) :
    (runBoundedStepPipeline X profiles input).Sat (ledgerEnv X) anyCall
      (fun log l _ => Verdict X l₀ log l) [] l₀ := by
  have hidle : ∀ log l, Phase X l₀ l₀ 0 0 false false log l → Verdict X l₀ log l :=
    fun log l h => h.verdict zero_le_one hnone
      (by rw [charged_of_not_completed h.completes, add_zero])
  have hkeeps : Keeps (ledgerEnv X) anyCall Calm (Phase X l₀ l₀ 0 0 false false) :=
    Phase.keeps (.inl rfl)
  refine Async.Sat.bind (reserveStep_sat (hkeeps.mono calm_of_reserving) (Phase.start hnone))
    (fun log l reservation h => ?_) fun _ _ _ h => hidle _ _ h
  cases reservation with
  | early p => exact hidle _ _ h.1
  | outcome o =>
    cases o with
    | replay r => exact hidle _ _ h.1
    | reserved r => exact runReservedStep_accounts hnone h.1

/-! ## Runs of steps -/

section Runs

variable (X : External) (profiles : TestProfileRegistry) (U : Outside)

/-- One step of a run. -/
def stepRun (input : StepInput) (m : Meter) :
    Outcome ExecutionSig Meter (Except JsError PipelineResult) :=
  (runBoundedStepPipeline X profiles input).prog.run (metered X U) m []

/-- The steps of a run, one after another: the ledger that each finds, and the calls it makes. -/
def stepRuns : List StepInput → Meter → List (ExecutionResourceLedger × Log ExecutionSig)
  | [], _ => []
  | input :: inputs, m =>
    (m.ledger, (stepRun X profiles U input m).log) ::
      stepRuns inputs (stepRun X profiles U input m).state

/-- Each step finds nothing reserved and the time of the earlier steps spent, and accounts for its
own; `spent` is the time spent before. -/
def Exact : ℚ → List (ExecutionResourceLedger × Log ExecutionSig) → Prop
  | _, [] => True
  | spent, (l, log) :: runs =>
    l.usage.reservedDurationMs = 0 ∧ l.usage.durationMs = spent ∧ Accounted X l log ∧
      Exact (spent + charged log) runs

variable {X profiles U}

/-- One step of a run: its verdict. -/
theorem stepRun_accounts (input : StepInput) {m : Meter}
    (hnone : m.ledger.usage.reservedDurationMs = 0) :
    Verdict X m.ledger (stepRun X profiles U input m).log
      (stepRun X profiles U input m).state.ledger := by
  have hsat : (runBoundedStepPipeline X profiles input).Sat (ledgerEnv X) anyCall
      (fun log l _ => Verdict X m.ledger log l) [] m.ledger :=
    runBoundedStepPipeline_accounts hnone
  exact (Prog.Sat.run (metered_meets X U) (G := fun _ _ => True) hsat trivial).1

/-- From a ledger with nothing reserved, the accounts of a run are exact if and only if every step
is smooth. -/
theorem stepRuns_exact (inputs : List StepInput) {m : Meter}
    (hnone : m.ledger.usage.reservedDurationMs = 0) :
    Exact X m.ledger.usage.durationMs (stepRuns X profiles U inputs m) ↔
      ∀ step ∈ stepRuns X profiles U inputs m, Smooth step.1 step.2 := by
  induction inputs generalizing m with
  | nil => exact ⟨fun _ _ h => (List.not_mem_nil h).elim, fun _ => trivial⟩
  | cons input inputs ih =>
    have hverdict : Verdict X m.ledger (stepRun X profiles U input m).log
        (stepRun X profiles U input m).state.ledger := stepRun_accounts input hnone
    obtain ⟨hledger, hverdict⟩ := hverdict
    have hrest (haccounted : Accounted X m.ledger (stepRun X profiles U input m).log) :
        Exact X (m.ledger.usage.durationMs + charged (stepRun X profiles U input m).log)
          (stepRuns X profiles U inputs (stepRun X profiles U input m).state) ↔
        ∀ step ∈ stepRuns X profiles U inputs (stepRun X profiles U input m).state,
          Smooth step.1 step.2 := by
      have hspent := haccounted.spent
      have hreleased := haccounted.released
      rw [← hledger] at hspent hreleased
      rw [← hspent]
      exact ih hreleased
    rw [stepRuns, List.forall_mem_cons, Exact]
    constructor
    · intro hexact
      exact ⟨hverdict.mp hexact.2.2.1, (hrest hexact.2.2.1).mp hexact.2.2.2⟩
    · intro hsmooth
      have haccounted := hverdict.mpr hsmooth.1
      exact ⟨hnone, rfl, haccounted, (hrest haccounted).mpr hsmooth.2⟩

/-- The accounts of a run on a fresh ledger are exact if and only if every step is smooth: no call
fails while a reservation waits for its step to be `RUNNING`, and no settlement passes the time
of the budget. -/
theorem time_accounting_iff (X : External) (profiles : TestProfileRegistry) (U : Outside)
    (budget : ResourceBudgetProfile) (inputs : List StepInput) :
    Exact X 0 (stepRuns X profiles U inputs ⟨.create budget, 0⟩) ↔
      ∀ step ∈ stepRuns X profiles U inputs ⟨.create budget, 0⟩, Smooth step.1 step.2 :=
  stepRuns_exact (m := ⟨.create budget, 0⟩) inputs rfl

end Runs

/-! ## An event that cannot be stored -/

private def patchInput : StepInput where
  toStepTask :=
    { step :=
        { stepId := "step_1"
          capabilityId := "cap_patch"
          actionType := .createLocalPatch
          validatedTargets := ["a.ts"]
          normalizedArguments := ⟨none, "{}"⟩
          preconditions := []
          expectedPostconditions := []
          verificationRequirements := []
          rollbackReference := ⟨.none, none, none⟩
          idempotencyKey := "key_1"
          dependsOn := [] }
      runId := "run_1"
      executionAttemptId := "exec_attempt_1" }
  capability :=
    { capabilityId := "cap_patch"
      version := "1"
      allowedActions := ["CREATE_LOCAL_PATCH"]
      forbiddenActions := []
      allowedEnvironments := ["dev"]
      approvalRequirement := .none
      maximumRuntimeSeconds := 60
      enabled := true }

/-- Stores that answer until an event is to be appended. -/
private def brokenEvents : Outside where
  answer _ o := match o with
    | .nowIso => .ok 0
    | .reserve input => .ok (.reserved (StepExecutionRepository.reservation input))
    | .getRun runId => .ok (some ⟨runId, "project_1", "dev", .approved, 1, 0⟩)
    | .nextEventId => .ok "evt_1"
    | _ => .error (.error "event store unavailable")
  wallClock n := n

/-- The reservation is made before the `try` block: when the event of the started step cannot be
appended, nothing releases it. -/
theorem reservation_leaks :
    ¬Exact plainExternal 0 (stepRuns plainExternal defaultTestProfiles brokenEvents [patchInput]
      ⟨.create ⟨100, 10, 10⟩, 0⟩) := by
  intro hexact
  have hreleased := hexact.2.2.1.released
  exact absurd hreleased (by decide +kernel)

end Orchestrator.TimeAccounting
