import Orchestrator.Admission.Service
import Orchestrator.Atomic.Faults

/-!
# Admissions of which one call fails

What an admission does on stores of which one call fails (`failingAdmission`): the stages of
`admitValidated` from the inside out, each with what the failure of any of its calls leaves in
the local variables and in the stores.

* `persist`: its first failure writes nothing; the next three leave a run under a key that is
  not bound (`LeftUnbound`), the last two a bound key without objective (`LeftBound`);
* `withOptionalTransaction`: a transaction that rolls back undoes the stores, but not the local
  variables;
* `admitReserved`, `admitUnderKey`: the lock and the reservation around it.
-/

namespace Orchestrator

open Atomic Collections ObjectiveAdmissionService

/-- The calls on the repositories. -/
def AdmissionOp.onRepository : AdmissionOp → Bool
  | resolve .. | authorize .. | nextIdentity | nowIso => false
  | beginTransaction | commitTransaction | rollbackTransaction => false
  | _ => true

/-- The stores, of whose calls one throws `boom`. -/
abbrev failingAdmission (boom : AdmissionFailure) :
    Handler AdmissionSig (AdmissionWorld × Option ℕ) :=
  Handler.failing AdmissionOp.onRepository boom admission

variable {boom : AdmissionFailure} {request : AdmissionRequest} {w w' v : AdmissionWorld}
  {transactions : Option TransactionManager} {identity : AdmissionIdentity}
  {key fingerprint : String} {now n : ℕ} {l l' : Locals} {left left' : Option ℕ}

/-! ## One call -/

section Call

variable {o : AdmissionOp} {a : o.Res} {code : AdmissionErrorCode} {message : String}

theorem call_fails (ho : o.onRepository = true) :
    (call o).exec (failingAdmission boom) (w, some 0) = (.error boom, w, none) :=
  Handler.failing_fails ho

theorem call_succeeds (ho : o.onRepository = true) (h : admission o w = (.ok a, w')) :
    (call o).exec (failingAdmission boom) (w, some (n + 1)) = (.ok a, w', some n) := by
  change Handler.failing AdmissionOp.onRepository boom admission o (w, some (n + 1)) = _
  rw [Handler.failing_succeeds ho, h]

theorem call_safe (ho : o.onRepository = false) (h : admission o w = (.ok a, w')) :
    (call o).exec (failingAdmission boom) (w, left) = (.ok a, w', left) := by
  change Handler.failing AdmissionOp.onRepository boom admission o (w, left) = _
  rw [Handler.failing_safe ho, h]

theorem call_none {r : Except AdmissionFailure o.Res} (h : admission o w = (r, w')) :
    (call o).exec (failingAdmission boom) (w, none) = (r, w', none) := by
  change Handler.failing AdmissionOp.onRepository boom admission o (w, none) = _
  rw [Handler.failing_none, h]

theorem orThrow_fails (ho : o.onRepository = true) :
    (orThrow (call o) code message).exec (failingAdmission boom) (w, some 0) =
      (.error (.admission code message), w, none) := by
  rw [orThrow, Async.tryCatch_eq, Async.exec_tryCatch, call_fails ho]
  rfl

theorem orThrow_succeeds (ho : o.onRepository = true) (h : admission o w = (.ok a, w')) :
    (orThrow (call o) code message).exec (failingAdmission boom) (w, some (n + 1)) =
      (.ok a, w', some n) := by
  rw [orThrow, Async.tryCatch_eq, Async.exec_tryCatch, call_succeeds ho h]

end Call

/-! ## The run -/

section Run

variable (request identity key now)

/-- The run as it is admitted. -/
def admittedRun : StoredRun :=
  RunStore.moved (receivedRun request identity key now) .admitted now ⟨some now, none⟩

/-- The run store has no run that the run of the request would clash with. -/
def Creatable (runs : RunStore) : Prop :=
  runs.get identity.runId = none ∧
    ∀ r ∈ runs.values, RunStore.refusal (receivedRun request identity key now) r = none

/-- The runs once the run was created. -/
def receivedRuns (runs : RunStore) : RunStore :=
  runs.set identity.runId (receivedRun request identity key now)

/-- The runs once it was admitted. -/
def admittedRuns (runs : RunStore) : RunStore :=
  (receivedRuns request identity key now runs).set identity.runId
    (admittedRun request identity key now)

end Run

theorem create_received (h : Creatable request identity key now w.stores.runs) :
    admission (.createRun (receivedRun request identity key now)) w =
      (.ok (receivedRun request identity key now),
        w.setRuns (receivedRuns request identity key now w.stores.runs)) := by
  have hclash : w.stores.runs.values.findSome?
      (RunStore.refusal (receivedRun request identity key now)) = none :=
    List.findSome?_eq_none_iff.mpr h.2
  have hcreate : w.stores.runs.create (receivedRun request identity key now) =
      (.ok (receivedRun request identity key now),
        receivedRuns request identity key now w.stores.runs) := by
    have hfresh : (w.stores.runs.get (receivedRun request identity key now).runId).isSome = false :=
      congrArg Option.isSome h.1
    rw [RunStore.create, hclash, hfresh]
    rfl
  simp only [admission, hcreate]

theorem transition_received {runs : RunStore} :
    admission (.transitionRun identity.runId .received 1 .admitted now ⟨some now, none⟩)
        (w.setRuns (receivedRuns request identity key now runs)) =
      (.ok (admittedRun request identity key now),
        w.setRuns (admittedRuns request identity key now runs)) := by
  have hget : JsMap.get (receivedRuns request identity key now runs) identity.runId =
      some (receivedRun request identity key now) := JsMap.get_set_self _ _ _
  have htransition : RunStore.transition (receivedRuns request identity key now runs)
      identity.runId .received 1 .admitted now ⟨some now, none⟩ =
        (.ok (admittedRun request identity key now),
          admittedRuns request identity key now runs) := by
    rw [RunStore.transition, hget]
    exact if_pos ⟨rfl, rfl⟩
  exact congrArg (fun r : Except AdmissionFailure StoredRun × RunStore => (r.1, w.setRuns r.2))
    htransition

/-- The run cannot be created: nothing is written. -/
theorem createRun_fails_first :
    (createRun request identity key now).exec (failingAdmission boom) l (w, some 0) =
      (.error (.admission .runCreationFailed "Failed to persist RECEIVED run"), l, w, none) :=
  Method.exec_bind_lift_of_error (orThrow_fails rfl)

/-- The run is created, and cannot be admitted. -/
theorem createRun_fails_second (h : Creatable request identity key now w.stores.runs) :
    (createRun request identity key now).exec (failingAdmission boom) l (w, some 1) =
      (.error boom, { l with created := some (receivedRun request identity key now) },
        w.setRuns (receivedRuns request identity key now w.stores.runs), none) := by
  refine (Method.exec_bind_lift_of_ok (orThrow_succeeds rfl (create_received h))).trans ?_
  refine (Method.exec_bind_assign _ _).trans ?_
  refine (Method.exec_bind_lift_of_ok (a := ()) rfl).trans ?_
  exact Method.exec_bind_lift_of_error (call_fails rfl)

/-- The run is created and admitted. -/
theorem createRun_succeeds (h : Creatable request identity key now w.stores.runs) :
    (createRun request identity key now).exec (failingAdmission boom) l (w, some (n + 2)) =
      (.ok (admittedRun request identity key now),
        { l with created := some (admittedRun request identity key now) },
        w.setRuns (admittedRuns request identity key now w.stores.runs), some n) := by
  refine (Method.exec_bind_lift_of_ok (orThrow_succeeds rfl (create_received h))).trans ?_
  refine (Method.exec_bind_assign _ _).trans ?_
  refine (Method.exec_bind_lift_of_ok (a := ()) rfl).trans ?_
  exact (Method.exec_bind_lift_of_ok (call_succeeds rfl transition_received)).trans rfl

/-! ## The transaction -/

section Persist

/-- A run was stored under a key that is not bound. -/
structure LeftUnbound (identity : AdmissionIdentity) (key : String) (w v : AdmissionWorld)
    (run : StoredRun) : Prop where
  stored : v.stores.runs.get identity.runId = some run
  runId : run.runId = identity.runId
  idempotencyKey : run.idempotencyKey = key
  state : run.state = .received ∨ run.state = .admitted
  idempotency : v.stores.idempotency = w.stores.idempotency
  frame : v = { w with stores := v.stores }

/-- The key was bound to a run that no objective is bound to. -/
structure LeftBound (identity : AdmissionIdentity) (key : String) (w v : AdmissionWorld) :
    Prop where
  bound : ∃ r, v.stores.idempotency.get key = some r ∧ r.runId = some identity.runId
  unbound : v.stores.objectives.byRun = w.stores.objectives.byRun
  frame : v = { w with stores := v.stores }

variable (request identity key now)

/-- The event of the run. -/
def admittedEvent : EventEnvelope :=
  buildEvent request (admittedRun request identity key now) identity now key

/-- The stores once the run, its event and its key are written. -/
def boundStores (record : IdempotencyRecord) (s : AdmissionStores) : AdmissionStores :=
  { s with
    runs := admittedRuns request identity key now s.runs
    events := s.events ++ [admittedEvent request identity key now]
    idempotency := s.idempotency.set key (IdempotencyStore.bound record identity.runId now) }

/-- The stores once the transaction is through. -/
def persistedStores (record : IdempotencyRecord) (s : AdmissionStores) : AdmissionStores :=
  { boundStores request identity key now record s with
    objectives := (s.objectives.save (parseObjective request)).bindRun identity.runId
      request.objectiveId request.objectiveVersion }

variable {request identity key now}

theorem complete_reserved {record : IdempotencyRecord}
    (hget : w.stores.idempotency.get key = some record) (hst : record.status = .reserved)
    (runId : String) (now : ℕ) :
    admission (.completeKey key runId now) w = (.ok (), w.setIdempotency
      (w.stores.idempotency.set key (IdempotencyStore.bound record runId now))) := by
  have hcomplete : w.stores.idempotency.complete key runId now =
      (.ok (), w.stores.idempotency.set key (IdempotencyStore.bound record runId now)) := by
    rw [IdempotencyStore.complete, hget]
    exact if_pos hst
  exact congrArg (fun r : Except AdmissionFailure Unit × IdempotencyStore =>
    (r.1, w.setIdempotency r.2)) hcomplete

/-- The first call of the transaction fails. -/
theorem persist_fails_first :
    (persist ⟨true, transactions⟩ request identity key now).exec (failingAdmission boom) l
        (w, some 0) =
      (.error (.admission .runCreationFailed "Failed to persist RECEIVED run"), l, w, none) :=
  Method.exec_bind_of_error createRun_fails_first

/-- One of the next three fails: the run stays, in the state in which it was last written. -/
theorem persist_fails_unbound (h : Creatable request identity key now w.stores.runs) (hn : n < 3) :
    ∃ e run v, (persist ⟨true, transactions⟩ request identity key now).exec
          (failingAdmission boom) l (w, some (n + 1)) =
        (.error e, { l with created := some run }, v, none) ∧ LeftUnbound identity key w v run := by
  match n with
  | 0 =>
    refine ⟨_, _, _, Method.exec_bind_of_error (createRun_fails_second h), ?_⟩
    exact ⟨JsMap.get_set_self _ _ _, rfl, rfl, .inl rfl, rfl, rfl⟩
  | 1 =>
    refine ⟨_, _, _, (Method.exec_bind_of_ok (createRun_succeeds h)).trans
      (Method.exec_bind_lift_of_error (orThrow_fails rfl)), ?_⟩
    exact ⟨JsMap.get_set_self _ _ _, rfl, rfl, .inr rfl, rfl, rfl⟩
  | 2 =>
    refine ⟨_, _, _, (Method.exec_bind_of_ok (createRun_succeeds h)).trans
      ((Method.exec_bind_lift_of_ok (orThrow_succeeds rfl rfl)).trans
        (Method.exec_bind_lift_of_error (orThrow_fails rfl))), ?_⟩
    exact ⟨JsMap.get_set_self _ _ _, rfl, rfl, .inr rfl, rfl, rfl⟩

/-- The transaction up to the objective. -/
theorem persist_bound (h : Creatable request identity key now w.stores.runs)
    {record : IdempotencyRecord} (hget : w.stores.idempotency.get key = some record)
    (hst : record.status = .reserved) :
    (persist ⟨true, transactions⟩ request identity key now).exec (failingAdmission boom) l
        (w, some (n + 4)) =
      (saveObjective ⟨true, transactions⟩ request (admittedRun request identity key now) >>=
          fun _ => pure (admittedEvent request identity key now)).exec (failingAdmission boom)
        { l with created := some (admittedRun request identity key now), bound := true }
        ({ w with stores := boundStores request identity key now record w.stores }, some n) := by
  have hcomplete := complete_reserved (w := { w with stores :=
    { w.stores with
      runs := admittedRuns request identity key now w.stores.runs
      events := w.stores.events ++ [admittedEvent request identity key now] } })
    hget hst identity.runId now
  refine (Method.exec_bind_of_ok (createRun_succeeds h)).trans ?_
  refine (Method.exec_bind_lift_of_ok (orThrow_succeeds rfl rfl)).trans ?_
  exact (Method.exec_bind_lift_of_ok (orThrow_succeeds rfl hcomplete)).trans rfl

theorem saveObjective_fails (boom : AdmissionFailure) (request : AdmissionRequest)
    (run : StoredRun) (hn : n < 2) :
    ∃ v, (saveObjective ⟨true, transactions⟩ request run).exec (failingAdmission boom) l
        (w, some n) = (.error boom, l, v, none) ∧
      v.stores.idempotency = w.stores.idempotency ∧
      v.stores.objectives.byRun = w.stores.objectives.byRun ∧ v = { w with stores := v.stores } := by
  match n with
  | 0 => exact ⟨_, Method.exec_bind_lift_of_error (call_fails rfl), rfl, rfl, rfl⟩
  | 1 =>
    refine ⟨w.setObjectives (w.stores.objectives.save (parseObjective request)),
      (Method.exec_bind_lift_of_ok (call_succeeds (n := 0) rfl rfl)).trans ?_, rfl, rfl, rfl⟩
    rw [Method.liftM_eq, Method.exec_lift, call_fails rfl]

theorem saveObjective_succeeds {run : StoredRun} :
    (saveObjective ⟨true, transactions⟩ request run).exec (failingAdmission boom) l
        (w, some (n + 2)) =
      (.ok (), l, w.setObjectives ((w.stores.objectives.save (parseObjective request)).bindRun
        run.runId request.objectiveId request.objectiveVersion), some n) := by
  refine (Method.exec_bind_lift_of_ok (call_succeeds rfl rfl)).trans ?_
  rw [Method.liftM_eq, Method.exec_lift, call_succeeds rfl rfl]
  rfl

/-- One of the last two fails: the key is bound, and its run has no objective. -/
theorem persist_fails_bound (h : Creatable request identity key now w.stores.runs)
    {record : IdempotencyRecord} (hget : w.stores.idempotency.get key = some record)
    (hst : record.status = .reserved) (hn : n < 2) :
    ∃ e v, (persist ⟨true, transactions⟩ request identity key now).exec
          (failingAdmission boom) l (w, some (n + 4)) =
        (.error e, { l with created := some (admittedRun request identity key now), bound := true },
          v, none) ∧ LeftBound identity key w v := by
  obtain ⟨v, hexec, hkey, hobjectives, hframe⟩ := saveObjective_fails boom request
    (admittedRun request identity key now)
    (l := { l with created := some (admittedRun request identity key now), bound := true })
    (w := { w with stores := boundStores request identity key now record w.stores }) hn
  refine ⟨boom, v, (persist_bound h hget hst).trans (Method.exec_bind_of_error hexec), ?_⟩
  refine ⟨⟨IdempotencyStore.bound record identity.runId now, ?_, rfl⟩, hobjectives, hframe⟩
  rw [hkey]
  exact JsMap.get_set_self _ _ _

/-- No call of the transaction fails. -/
theorem persist_succeeds (h : Creatable request identity key now w.stores.runs)
    {record : IdempotencyRecord} (hget : w.stores.idempotency.get key = some record)
    (hst : record.status = .reserved) :
    (persist ⟨true, transactions⟩ request identity key now).exec (failingAdmission boom) l
        (w, some (n + 6)) =
      (.ok (admittedEvent request identity key now),
        { l with created := some (admittedRun request identity key now), bound := true },
        { w with stores := persistedStores request identity key now record w.stores }, some n) :=
  (persist_bound h hget hst).trans (Method.exec_bind_of_ok saveObjective_succeeds)

end Persist

section Transaction

theorem transaction_plain {α : Type} (h : transactions ≠ some .rollingBack) (p : Body α) :
    withOptionalTransaction transactions p = p := by
  match transactions, h with
  | none, _ => rfl
  | some .inMemory, _ => rfl

/-- A transaction that rolls back restores the stores; the local variables stay assigned. -/
theorem transaction_rolls_back {α : Type} {p : Body α} {e : AdmissionFailure}
    (hp : p.exec (failingAdmission boom) l ({ w with opened := some w.stores }, left) =
      (.error e, l', v, left')) (hopened : v.opened = some w.stores) :
    (withOptionalTransaction (some .rollingBack) p).exec (failingAdmission boom) l (w, left) =
      (.error e, l', { v with stores := w.stores, opened := none }, left') := by
  refine (Method.exec_bind_lift_of_ok (call_safe rfl rfl)).trans ?_
  rw [Method.tryCatch_eq, Method.exec_tryCatch, Method.exec_bind_of_error hp]
  refine (Method.exec_bind_lift_of_ok (call_safe rfl rfl)).trans ?_
  rw [hopened]
  rfl

theorem transaction_commits {α : Type} {p : Body α} {a : α}
    (hp : p.exec (failingAdmission boom) l ({ w with opened := some w.stores }, left) =
      (.ok a, l', v, left')) :
    (withOptionalTransaction (some .rollingBack) p).exec (failingAdmission boom) l (w, left) =
      (.ok a, l', { v with opened := none }, left') := by
  refine (Method.exec_bind_lift_of_ok (call_safe rfl rfl)).trans ?_
  rw [Method.tryCatch_eq, Method.exec_tryCatch, Method.exec_bind_of_ok hp,
    Method.exec_bind_lift_of_ok (call_safe rfl rfl)]
  rfl

variable (transactions) in
/-- A transaction that throws before it wrote anything leaves everything as it was. -/
theorem transaction_throws {α : Type} {p : Body α} {e : AdmissionFailure}
    (hp : ∀ o, p.exec (failingAdmission boom) l ({ w with opened := o }, left) =
      (.error e, l, { w with opened := o }, left')) :
    ∃ o, (withOptionalTransaction transactions p).exec (failingAdmission boom) l (w, left) =
      (.error e, l, { w with opened := o }, left') := by
  by_cases htx : transactions = some .rollingBack
  · subst htx
    exact ⟨none, transaction_rolls_back (v := { w with opened := some w.stores })
      (hp (some w.stores)) rfl⟩
  · rw [transaction_plain htx]
    exact ⟨w.opened, hp w.opened⟩

variable (boom transactions l)

/-- The transaction fails with the run created and its key not bound: the stores are as they
were, or the run is still there. -/
theorem transaction_fails_unbound (h : Creatable request identity key now w.stores.runs)
    (hn : n < 3) : ∃ e run v,
      (withOptionalTransaction transactions
          (persist ⟨true, transactions⟩ request identity key now)).exec (failingAdmission boom) l
          (w, some (n + 1)) = (.error e, { l with created := some run }, v, none) ∧
        run.runId = identity.runId ∧ (run.state = .received ∨ run.state = .admitted) ∧
        (v.stores = w.stores ∨ LeftUnbound identity key w v run) := by
  by_cases htx : transactions = some .rollingBack
  · subst htx
    obtain ⟨e, run, v, hexec, hv⟩ := persist_fails_unbound
      (w := { w with opened := some w.stores }) h hn
    exact ⟨e, run, _, transaction_rolls_back hexec (by rw [hv.frame]), hv.runId, hv.state,
      .inl rfl⟩
  · rw [transaction_plain htx]
    obtain ⟨e, run, v, hexec, hv⟩ := persist_fails_unbound h hn
    exact ⟨e, run, v, hexec, hv.runId, hv.state, .inr hv⟩

/-- The transaction fails once the local variables say that the key is bound: the stores are as
they were, or the key is bound to a run without objective. -/
theorem transaction_fails_bound (h : Creatable request identity key now w.stores.runs)
    {record : IdempotencyRecord} (hget : w.stores.idempotency.get key = some record)
    (hst : record.status = .reserved) (hn : n < 2) : ∃ e v,
      (withOptionalTransaction transactions
          (persist ⟨true, transactions⟩ request identity key now)).exec (failingAdmission boom) l
          (w, some (n + 4)) =
        (.error e, { l with created := some (admittedRun request identity key now), bound := true },
          v, none) ∧ (v.stores = w.stores ∨ LeftBound identity key w v) := by
  by_cases htx : transactions = some .rollingBack
  · subst htx
    obtain ⟨e, v, hexec, hv⟩ := persist_fails_bound
      (w := { w with opened := some w.stores }) h hget hst hn
    exact ⟨e, _, transaction_rolls_back hexec (by rw [hv.frame]), .inl rfl⟩
  · rw [transaction_plain htx]
    obtain ⟨e, v, hexec, hv⟩ := persist_fails_bound h hget hst hn
    exact ⟨e, v, hexec, .inr hv⟩

/-- No call of the transaction fails. -/
theorem transaction_succeeds (h : Creatable request identity key now w.stores.runs)
    {record : IdempotencyRecord} (hget : w.stores.idempotency.get key = some record)
    (hst : record.status = .reserved) : ∃ o,
      (withOptionalTransaction transactions
          (persist ⟨true, transactions⟩ request identity key now)).exec (failingAdmission boom) l
          (w, some (n + 6)) =
        (.ok (admittedEvent request identity key now),
          { l with created := some (admittedRun request identity key now), bound := true },
          { w with
            stores := persistedStores request identity key now record w.stores
            opened := o }, some n) := by
  by_cases htx : transactions = some .rollingBack
  · subst htx
    exact ⟨none, transaction_commits (persist_succeeds (w := { w with opened := some w.stores })
      h hget hst)⟩
  · rw [transaction_plain htx]
    exact ⟨w.opened, persist_succeeds h hget hst⟩

end Transaction

/-! ## The lock and the reservation -/

section Lock

variable {context : ControlContextReference} {deps : AdmissionDeps}

theorem admitLocked_of_error {e : AdmissionFailure}
    (h : (withOptionalTransaction deps.transactions
        (persist deps request identity key now)).exec (failingAdmission boom)
        { l with locked := true } (w, left) = (.error e, l', v, left')) :
    (admitLocked deps request context identity key now).exec (failingAdmission boom) l (w, left) =
      (.error e, l', v, left') :=
  (Method.exec_bind_assign _ _).trans (Method.exec_bind_of_error h)

/-- What is left to do once the transaction is through. -/
def releaseAdmitted (request : AdmissionRequest) (context : ControlContextReference)
    (key : String) (run : StoredRun) (event : EventEnvelope) : Body AdmissionResult := do
  orThrow (call (.releaseLock request.projectId run.runId))
    .admissionCompensationFailed "Failed to release admission-scoped project lock"
  Method.assign fun l => { l with locked := false }
  pure (.admitted run.runId event context key run.correlationId run.traceId)

theorem releaseAdmitted_fails {event : EventEnvelope} {run : StoredRun} :
    (releaseAdmitted request context key run event).exec (failingAdmission boom) l (w, some 0) =
      (.error (.admission .admissionCompensationFailed
        "Failed to release admission-scoped project lock"), l, w, none) :=
  Method.exec_bind_lift_of_error (orThrow_fails rfl)

theorem releaseAdmitted_succeeds {event : EventEnvelope} {run : StoredRun} :
    (releaseAdmitted request context key run event).exec (failingAdmission boom) l
        (w, some (n + 1)) =
      (.ok (.admitted run.runId event context key run.correlationId run.traceId),
        { l with locked := false },
        w.setLocks (w.stores.locks.release request.projectId run.runId), some n) :=
  Method.exec_bind_lift_of_ok (orThrow_succeeds rfl rfl)

theorem admitLocked_of_ok {event : EventEnvelope} {run : StoredRun}
    (h : (withOptionalTransaction deps.transactions
        (persist deps request identity key now)).exec (failingAdmission boom)
        { l with locked := true } (w, left) = (.ok event, l', v, left'))
    (hrun : l'.created = some run) :
    (admitLocked deps request context identity key now).exec (failingAdmission boom) l (w, left) =
      (releaseAdmitted request context key run event).exec (failingAdmission boom) l' (v, left') := by
  refine (Method.exec_bind_assign _ _).trans ((Method.exec_bind_of_ok h).trans ?_)
  refine (Method.exec_bind_of_ok (a := l') rfl).trans ?_
  rw [hrun]
  rfl

variable (request identity key fingerprint now) in
/-- The lock that the admission asks for. -/
def lockOf : ProjectLock where
  projectId := request.projectId
  runId := identity.runId
  lockOwner := request.requesterId
  acquiredAt := now
  expiresAt := now + lockTtlMs

variable (request identity key fingerprint now) in
/-- The stores once the key is reserved. -/
def reservedStores (s : AdmissionStores) : AdmissionStores :=
  { s with idempotency := s.idempotency.set key (IdempotencyStore.reservation key fingerprint now) }

variable (request identity key fingerprint now) in
/-- The stores once the project is locked too. -/
def lockedStores (s : AdmissionStores) : AdmissionStores :=
  { reservedStores key fingerprint now s with
    locks := s.locks.set request.projectId (lockOf request identity now) }

theorem reserve_free (hkey : w.stores.idempotency.get key = none) :
    admission (.reserve key fingerprint now) w =
      (.ok .new, { w with stores := reservedStores key fingerprint now w.stores }) := by
  have hreserve : w.stores.idempotency.reserve key fingerprint now = (.new,
      w.stores.idempotency.set key (IdempotencyStore.reservation key fingerprint now)) := by
    rw [IdempotencyStore.reserve, hkey]
  exact congrArg (fun r : IdempotencyReserveResult × IdempotencyStore =>
    ((.ok r.1 : Except AdmissionFailure _), w.setIdempotency r.2)) hreserve

theorem acquire_free (hlock : w.stores.locks.get request.projectId = none) :
    admission (.acquire (lockOf request identity now)) w =
      (.ok (.lockAcquired (lockOf request identity now)), w.setLocks
        (w.stores.locks.set request.projectId (lockOf request identity now))) := by
  have hwell : isWellFormedLock (lockOf request identity now) = true := by
    simp [isWellFormedLock, lockOf, request.projectId_ne, identity.runId_ne, request.requesterId_ne]
  have hacquire : w.stores.locks.acquire (lockOf request identity now) =
      (.lockAcquired (lockOf request identity now),
        w.stores.locks.set request.projectId (lockOf request identity now)) := by
    have hfree : w.stores.locks.get (lockOf request identity now).projectId = none := hlock
    rw [ProjectLocks.acquire, hfree, hwell]
    rfl
  exact congrArg (fun r : LockAcquireResult × ProjectLocks =>
    ((.ok r.1 : Except AdmissionFailure _), w.setLocks r.2)) hacquire

/-- The reservation fails: nothing is written. -/
theorem admitUnderKey_fails_first :
    (admitUnderKey deps request context identity key fingerprint now).exec (failingAdmission boom)
        l (w, some 0) = (.error boom, l, w, none) :=
  Method.exec_bind_lift_of_error (call_fails rfl)

/-- The key is reserved, and the lock cannot be had. -/
theorem admitUnderKey_fails_second (hkey : w.stores.idempotency.get key = none) :
    (admitUnderKey deps request context identity key fingerprint now).exec (failingAdmission boom)
        l (w, some 1) =
      (.error boom, { l with reserved := true },
        { w with stores := reservedStores key fingerprint now w.stores }, none) := by
  refine (Method.exec_bind_lift_of_ok (call_succeeds (n := 0) rfl (reserve_free hkey))).trans ?_
  refine (Method.exec_bind_assign _ _).trans ?_
  exact Method.exec_bind_lift_of_error (call_fails rfl)

/-- The key is reserved and the project locked. -/
theorem admitUnderKey_locked (hkey : w.stores.idempotency.get key = none)
    (hlock : w.stores.locks.get request.projectId = none) :
    (admitUnderKey deps request context identity key fingerprint now).exec (failingAdmission boom)
        l (w, some (n + 2)) =
      (admitLocked deps request context identity key now).exec (failingAdmission boom)
        { l with reserved := true }
        ({ w with stores := lockedStores request identity key fingerprint now w.stores },
          some n) := by
  have hacquire : admission (.acquire (lockOf request identity now))
        { w with stores := reservedStores key fingerprint now w.stores } =
      (.ok (.lockAcquired (lockOf request identity now)),
        { w with stores := lockedStores request identity key fingerprint now w.stores }) :=
    acquire_free hlock
  refine (Method.exec_bind_lift_of_ok (call_succeeds rfl (reserve_free hkey))).trans ?_
  refine (Method.exec_bind_assign _ _).trans ?_
  exact (Method.exec_bind_lift_of_ok (call_succeeds rfl hacquire)).trans rfl

end Lock

end Orchestrator
