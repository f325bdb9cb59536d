import Orchestrator.Admission.FailingCalls
import Orchestrator.Admission.ObjectiveBinding

/-!
# What a failed admission leaves behind

One repository call of an admission fails, on stores in which no other admission is at work
(`Settled`). The compensation goes by the local variables of `admitValidated`, which a
transaction that rolls back leaves assigned, and it cancels a run without freeing its key for
another one.

* `LeavesNothing`: no lock, no reservation, no run without a key, and a retry is accepted;
* `Settled.leavesNothing`: settled stores leave nothing;
* `failed_admission_clean_iff`: a failed admission leaves nothing exactly when its failing call
  is not one of those from the run's transition to the binding of its objective.
-/

namespace Orchestrator

open Atomic Collections ObjectiveAdmissionService

variable {X : External} {boom : AdmissionFailure} {request : AdmissionRequest}
  {w w' v : AdmissionWorld} {transactions : Option TransactionManager} {deps : AdmissionDeps}
  {identity : AdmissionIdentity} {key fingerprint runId : String} {now n : ℕ} {l : Locals}
  {left left' : Option ℕ}

/-! ## Nothing left behind -/

/-- The record names a run that exists and has its objective bound. -/
def BoundToRun (w : AdmissionWorld) (r : IdempotencyRecord) : Prop :=
  r.status ≠ .reserved ∧ ∃ id, r.runId = some id ∧ (w.stores.runs.get id).isSome = true ∧
    (w.stores.objectives.getByRunBinding id).isSome = true

/-- The key of the run is bound to it. -/
def KeyBound (w : AdmissionWorld) (run : StoredRun) : Prop :=
  ∃ r, w.stores.idempotency.get run.idempotencyKey = some r ∧ r.status ≠ .reserved ∧
    r.runId = some run.runId

section Statement

variable (X : External) (deps : AdmissionDeps) (request : AdmissionRequest)

/-- The request, submitted without failures, is admitted or the duplicate of an existing run. -/
def Acceptable (w : AdmissionWorld) : Prop :=
  ∃ result w', (admitObjective X deps (.ok request)).exec admission w = (.ok result, w') ∧
    ∃ id, result.acceptedRun = some id ∧ (w'.stores.runs.get id).isSome = true

/-- Nothing is left of an admission of the request as `runId`. -/
structure LeavesNothing (runId : String) (w : AdmissionWorld) : Prop where
  unlocked : ∀ p lock, w.stores.locks.get p = some lock → lock.runId ≠ runId
  key : ∀ r, w.stores.idempotency.get (objectiveIdempotencyKey X request.identity) = some r →
    BoundToRun w r
  runs : ∀ id run, w.stores.runs.get id = some run → run.state = .received ∨ run.state = .admitted →
    KeyBound w run
  again : Acceptable X deps request w

/-- `admit` threw, or returned `CONFLICT`. -/
def Failed : Except AdmissionFailure AdmissionResult → Prop
  | .error _ => True
  | .ok (.conflict ..) => True
  | .ok _ => False

instance : DecidablePred Failed
  | .error _ => isTrue trivial
  | .ok (.conflict ..) => isTrue trivial
  | .ok (.admitted ..) => isFalse id
  | .ok (.activeDuplicate ..) => isFalse id
  | .ok (.completedDuplicate ..) => isFalse id
  | .ok (.rejected ..) => isFalse id

/-- The admission of which the repository call with the number `n` throws `boom`. -/
def admitFailing (boom : AdmissionFailure) (w : AdmissionWorld) (n : ℕ) :
    Except AdmissionFailure AdmissionResult × AdmissionWorld × Option ℕ :=
  (admitObjective X deps (.ok request)).exec (failingAdmission boom) (w, some n)

/-- If that admission failed, it left nothing behind. -/
def FailsCleanly (boom : AdmissionFailure) (w : AdmissionWorld) (n : ℕ) : Prop :=
  Failed (admitFailing X deps request boom w n).1 →
    LeavesNothing X deps request (w.identities w.sequence).runId
      (admitFailing X deps request boom w n).2.1

/-- Stores in which no admission is at work: no lock is held, each key is bound to a run with an
objective, each run has its key, and the identities to come are new. -/
structure Settled (w : AdmissionWorld) : Prop where
  unlocked : ∀ p, w.stores.locks.get p = none
  bound : ∀ k r, w.stores.idempotency.get k = some r → BoundToRun w r
  stored : ∀ id run, w.stores.runs.get id = some run →
    run.runId = id ∧ run.idempotencyKey = objectiveIdempotencyKey X run.identity ∧ KeyBound w run
  fresh : ∀ m, w.sequence ≤ m → w.stores.runs.get (w.identities m).runId = none ∧
    w.stores.objectives.byRun.get (w.identities m).runId = none
  distinct : ∀ m m', (w.identities m).runId = (w.identities m').runId → m = m'

end Statement

/-! ## Whether the request gets to the stores -/

/-- The answer of the control plane and the authorization service: the context of the request,
the result with which it is rejected, or an exception. -/
def eligibility (s : AdmissionSurroundings) (request : AdmissionRequest) :
    Except AdmissionFailure (Except AdmissionResult ControlContextReference) :=
  match s.resolve request.projectId request.requestedEnvironment with
  | .error (.controlPlane code message) => .ok (.error (eligibilityRejection code message))
  | .error e => .error e
  | .ok context =>
    match s.authorize request.projectId request.requesterId request.requestedEnvironment with
    | .error e => .error e
    | .ok decision =>
      if decision ≠ .authorized then .ok (.error (unauthorized decision)) else .ok (.ok context)

theorem rejected_of_eligibility {s : AdmissionSurroundings} {result : AdmissionResult}
    (h : eligibility s request = .ok (.error result)) :
    ∃ code message, result = .rejected code message := by
  rw [eligibility] at h
  split at h
  · next code message _ =>
    cases h
    cases code <;> exact ⟨_, _, rfl⟩
  · cases h
  · split at h
    · cases h
    · split at h
      · cases h
        exact ⟨_, _, rfl⟩
      · cases h

variable (X boom request w deps left) in
/-- The stores are not touched before the request is found eligible. -/
theorem admit_exec : (admitObjective X deps (.ok request)).exec (failingAdmission boom) (w, left) =
    match eligibility w.surroundings request with
    | .error e => (.error e, w, left)
    | .ok (.error result) => (.ok result, w, left)
    | .ok (.ok context) =>
      (admitAuthorized X deps request context).exec (failingAdmission boom) (w, left) := by
  have hresolve : (resolveContext request).exec (failingAdmission boom) (w, left) =
      match w.surroundings.resolve request.projectId request.requestedEnvironment with
      | .error (.controlPlane code message) =>
        (.ok (.error (eligibilityRejection code message)), w, left)
      | .error e => (.error e, w, left)
      | .ok context => (.ok (.ok context), w, left) := by
    have hcall : (call (.resolve request.projectId request.requestedEnvironment)).exec
        (failingAdmission boom) (w, left) =
        (w.surroundings.resolve request.projectId request.requestedEnvironment, w, left) := rfl
    rw [resolveContext, Async.tryCatch_eq, Async.exec_tryCatch, Async.bind_eq, Async.exec_bind,
      hcall]
    rcases w.surroundings.resolve request.projectId request.requestedEnvironment with
      (_ | _ | _) | _ <;> rfl
  rw [eligibility]
  change ((resolveContext request) >>= _).exec _ _ = _
  rcases hcontext : w.surroundings.resolve request.projectId request.requestedEnvironment with
    (_ | _ | _) | context
  all_goals rw [hcontext] at hresolve
  · exact Async.exec_bind_of_error hresolve
  · exact (Async.exec_bind_of_ok hresolve).trans rfl
  · exact Async.exec_bind_of_error hresolve
  · refine (Async.exec_bind_of_ok hresolve).trans ?_
    have hcall : (call (.authorize request.projectId request.requesterId
        request.requestedEnvironment)).exec (failingAdmission boom) (w, left) =
        (w.surroundings.authorize request.projectId request.requesterId
          request.requestedEnvironment, w, left) := rfl
    rcases hdecision : w.surroundings.authorize request.projectId request.requesterId
      request.requestedEnvironment with e | decision
    all_goals rw [hdecision] at hcall
    · exact Async.exec_bind_of_error hcall
    · refine (Async.exec_bind_of_ok hcall).trans ?_
      rw [Async.exec_ite]
      simp only
      split <;> rfl

/-! ## The compensation -/

section Compensate

variable {run : StoredRun} {projectId : String}

theorem commitRunTransition_exec {next : RunState} {extras : RunExtras}
    (h : next ∈ run.state.transitions) :
    (commitRunTransition run next now extras).exec admission w =
      admission (.transitionRun run.runId run.state run.recordRevision next now extras) w := by
  have hassert : assertAdmissionTransition run.state next = .ok () := if_pos h
  rw [commitRunTransition, hassert]
  rfl

/-- A run in `RECEIVED` or `ADMITTED` is compensated by one transition. -/
theorem compensateRun_exec (w : AdmissionWorld) (now : ℕ)
    (hstate : run.state = .received ∨ run.state = .admitted) :
    ∃ next, (compensateRun run now).exec admission w =
      ((w.stores.runs.transition run.runId run.state run.recordRevision next now
          ⟨none, some "ADMISSION_COMPENSATED"⟩).1.map fun _ => (),
        w.setRuns (w.stores.runs.transition run.runId run.state run.recordRevision next now
          ⟨none, some "ADMISSION_COMPENSATED"⟩).2) := by
  have hopen : run.state ≠ .admissionRejected ∧ run.state ≠ .cancelled := by
    rcases hstate with hstate | hstate <;> simp [hstate]
  have hnext : (if run.state = .admitted then .cancelled else .admissionRejected : RunState) ∈
      run.state.transitions := by
    rcases hstate with hstate | hstate <;> rw [hstate] <;> decide
  have hassert : assertAdmissionTransition run.state
      (if run.state = .admitted then .cancelled else .admissionRejected) = .ok () := if_pos hnext
  refine ⟨if run.state = .admitted then .cancelled else .admissionRejected, ?_⟩
  rw [compensateRun, if_pos hopen]
  refine (Async.exec_bind_of_ok (show _ = (Except.ok (), w) by rw [hassert]; rfl)).trans ?_
  refine (Async.exec_bind _ _).trans ?_
  rw [commitRunTransition_exec hnext, admission]
  rcases w.stores.runs.transition run.runId run.state run.recordRevision _ now _ with ⟨_ | _, _⟩
  · rfl
  · rfl

/-- The run to compensate is not in the store: the compensation fails, and does nothing. -/
theorem compensate_missing (hmissing : w.stores.runs.get run.runId = none)
    (hstate : run.state = .received ∨ run.state = .admitted) :
    (compensate ⟨true, true, some run, false⟩ key projectId runId now).exec admission w =
      (.error (.admission .admissionCompensationFailed "Failed to compensate a partial admission"),
        w) := by
  obtain ⟨next, hexec⟩ := compensateRun_exec w now hstate
  have htransition : w.stores.runs.transition run.runId run.state run.recordRevision next now
      ⟨none, some "ADMISSION_COMPENSATED"⟩ = (.error (.other (RunRepository.casMessage run.runId
        run.state run.recordRevision none)), w.stores.runs) := by
    rw [RunStore.transition, hmissing]
  rw [htransition] at hexec
  have hcreated : (compensateCreated ⟨true, true, some run, false⟩ now).exec admission w = _ := hexec
  rw [compensate, orThrow, Async.tryCatch_eq, Async.exec_tryCatch,
    Async.exec_bind_of_error hcreated]
  rfl

/-- The run to compensate is in the store: it is left there, under the freed key. -/
theorem compensate_stored (key projectId runId : String) (now : ℕ)
    (hget : w.stores.runs.get run.runId = some run)
    (hstate : run.state = .received ∨ run.state = .admitted) :
    ∃ v r, (compensate ⟨true, true, some run, false⟩ key projectId runId now).exec admission w =
      (.ok (), v) ∧ v.stores.runs.get run.runId = some r ∧
        r.idempotencyKey = run.idempotencyKey ∧
        v.stores.idempotency = w.stores.idempotency.release key := by
  obtain ⟨next, hexec⟩ := compensateRun_exec w now hstate
  have htransition : w.stores.runs.transition run.runId run.state run.recordRevision next now
      ⟨none, some "ADMISSION_COMPENSATED"⟩ =
        (.ok (RunStore.moved run next now ⟨none, some "ADMISSION_COMPENSATED"⟩),
          w.stores.runs.set run.runId
            (RunStore.moved run next now ⟨none, some "ADMISSION_COMPENSATED"⟩)) := by
    rw [RunStore.transition, hget]
    exact if_pos ⟨rfl, rfl⟩
  rw [htransition] at hexec
  have hcreated : (compensateCreated ⟨true, true, some run, false⟩ now).exec admission w = _ := hexec
  rw [compensate, orThrow, Async.tryCatch_eq, Async.exec_tryCatch, Async.exec_bind_of_ok hcreated]
  exact ⟨_, _, rfl, JsMap.get_set_self _ _ _, rfl, rfl⟩

theorem compensate_nothing :
    (compensate .initial key projectId runId now).exec admission w = (.ok (), w) := rfl

theorem compensate_reserved :
    (compensate ⟨true, false, none, false⟩ key projectId runId now).exec admission w =
      (.ok (), w.setIdempotency (w.stores.idempotency.release key)) := rfl

theorem compensate_locked :
    (compensate ⟨true, true, none, false⟩ key projectId runId now).exec admission w =
      (.ok (), (w.setLocks (w.stores.locks.release projectId runId)).setIdempotency
        (w.stores.idempotency.release key)) := rfl

theorem compensate_bound :
    (compensate ⟨true, true, some run, true⟩ key projectId runId now).exec admission w =
      (.ok (), w.setLocks (w.stores.locks.release projectId runId)) := rfl

end Compensate

/-! ## An admission under a free key -/

section New

variable {context : ControlContextReference}

/-- The world once the identity of the admission is taken. -/
def numbered (w : AdmissionWorld) : AdmissionWorld := { w with sequence := w.sequence + 1 }

/-- The `catch` block of the admission. -/
def recover (request : AdmissionRequest) (identity : AdmissionIdentity) (key : String) (now : ℕ)
    (error : AdmissionFailure) : Body AdmissionResult := do
  let l ← Method.read
  compensate l key request.projectId identity.runId now
  match error with
  | .admission .projectLockConflict message => pure (.conflict .projectLockConflict message)
  | error => throw error

theorem admitNew_exec :
    (admitNew deps request context key fingerprint).exec (failingAdmission boom) (w, left) =
      ((Method.tryCatch (admitUnderKey deps request context (w.identities w.sequence) key
          fingerprint w.surroundings.now)
        (recover request (w.identities w.sequence) key w.surroundings.now)).asAsync .initial).exec
          (failingAdmission boom) (numbered w, left) := by
  have hidentity : (call .nextIdentity).exec (failingAdmission boom) (w, left) =
      (.ok (w.identities w.sequence), numbered w, left) := call_safe rfl rfl
  have hnow : (call .nowIso).exec (failingAdmission boom) (numbered w, left) =
      (.ok w.surroundings.now, numbered w, left) := call_safe rfl rfl
  exact (Async.exec_bind_of_ok hidentity).trans (Async.exec_bind_of_ok hnow)

/-- An exception is compensated, and then thrown on or answered with `CONFLICT`. -/
theorem admitNew_of_error {e : AdmissionFailure} {P : AdmissionWorld → Prop}
    (h : (admitUnderKey deps request context (w.identities w.sequence) key fingerprint
        w.surroundings.now).exec (failingAdmission boom) .initial (numbered w, left) =
      (.error e, l, v, none))
    (hP : P ((compensate l key request.projectId (w.identities w.sequence).runId
      w.surroundings.now).exec admission v).2) :
    ∃ r v', Failed r ∧ P v' ∧ (admitNew deps request context key fingerprint).exec
      (failingAdmission boom) (w, left) = (r, v', none) := by
  rw [admitNew_exec, Method.exec_asAsync, Method.exec_tryCatch, h]
  have hcompensate : (compensate l key request.projectId (w.identities w.sequence).runId
      w.surroundings.now).exec (failingAdmission boom) (v, none) = _ :=
    Async.exec_failing_none _ v
  rcases hexec : (compensate l key request.projectId (w.identities w.sequence).runId
    w.surroundings.now).exec admission v with ⟨e' | _, v'⟩
  all_goals rw [hexec] at hcompensate hP
  · have hrecover := Method.exec_bind_lift_of_error (l := l)
      (f := fun _ => match e with
        | .admission .projectLockConflict message =>
          (pure (.conflict .projectLockConflict message) : Body AdmissionResult)
        | error => throw error) hcompensate
    exact ⟨.error e', v', trivial, hP, congrArg (fun r => (r.1, r.2.2)) hrecover⟩
  · have hrecover := Method.exec_bind_lift_of_ok (l := l)
      (f := fun _ => match e with
        | .admission .projectLockConflict message =>
          (pure (.conflict .projectLockConflict message) : Body AdmissionResult)
        | error => throw error) hcompensate
    obtain ⟨r, hr, hanswer⟩ : ∃ r, Failed r ∧ (match e with
        | .admission .projectLockConflict message =>
          (pure (.conflict .projectLockConflict message) : Body AdmissionResult)
        | error => throw error).exec (failingAdmission boom) l (v', none) = (r, l, v', none) := by
      split
      · next message => exact ⟨.ok (.conflict .projectLockConflict message), trivial, rfl⟩
      · exact ⟨.error e, trivial, rfl⟩
    exact ⟨r, v', hr, hP, congrArg (fun r => (r.1, r.2.2)) (hrecover.trans hanswer)⟩

theorem admitNew_of_ok {result : AdmissionResult}
    (h : (admitUnderKey deps request context (w.identities w.sequence) key fingerprint
        w.surroundings.now).exec (failingAdmission boom) .initial (numbered w, left) =
      (.ok result, l, v, left')) :
    (admitNew deps request context key fingerprint).exec (failingAdmission boom) (w, left) =
      (.ok result, v, left') := by
  rw [admitNew_exec, Method.exec_asAsync, Method.exec_tryCatch, h]

/-- No admission is in the way of the request. -/
structure Free (X : External) (request : AdmissionRequest) (w : AdmissionWorld) : Prop where
  key : w.stores.idempotency.get (objectiveIdempotencyKey X request.identity) = none
  lock : w.stores.locks.get request.projectId = none
  creatable : Creatable request (w.identities w.sequence)
    (objectiveIdempotencyKey X request.identity) w.surroundings.now w.stores.runs

/-- The world once the key is reserved and the project locked. -/
def lockedWorld (request : AdmissionRequest) (w : AdmissionWorld) (key fingerprint : String) :
    AdmissionWorld :=
  { numbered w with
    stores := lockedStores request (w.identities w.sequence) key fingerprint w.surroundings.now
      w.stores }

/-- The stores hold what they held before. -/
structure Restored (w v : AdmissionWorld) : Prop where
  idempotency : ∀ k, v.stores.idempotency.get k = w.stores.idempotency.get k
  locks : ∀ p, v.stores.locks.get p = w.stores.locks.get p
  runs : v.stores.runs = w.stores.runs
  objectives : v.stores.objectives = w.stores.objectives
  surroundings : v.surroundings = w.surroundings
  identities : v.identities = w.identities
  sequence : v.sequence = w.sequence + 1

theorem release_reservation {s : IdempotencyStore} {record : IdempotencyRecord}
    (hst : record.status = .reserved) (hkey : s.get key = none) (k : String) :
    JsMap.get (IdempotencyStore.release (s.set key record) key) k = s.get k := by
  have hget : JsMap.get (JsMap.set s key record) key = some record := JsMap.get_set_self _ _ _
  rw [IdempotencyStore.release, hget]
  simp only [if_pos hst]
  rw [JsMap.get_delete]
  split
  · next h => rw [← h, hkey]
  · next h => exact JsMap.get_set_ne _ _ h

theorem release_lock {s : ProjectLocks} (lock : ProjectLock)
    (hlock : s.get lock.projectId = none) (p : String) :
    JsMap.get (ProjectLocks.release (s.set lock.projectId lock) lock.projectId lock.runId) p =
      s.get p := by
  have hget : JsMap.get (JsMap.set s lock.projectId lock) lock.projectId = some lock :=
    JsMap.get_set_self _ _ _
  rw [ProjectLocks.release, hget]
  simp only [if_true]
  rw [JsMap.get_delete]
  split
  · next h => rw [← h, hlock]
  · next h => exact JsMap.get_set_ne _ _ h

/-- A transaction that throws is compensated. -/
theorem admitNew_of_transaction_error {e : AdmissionFailure} {P : AdmissionWorld → Prop}
    (hfree : Free X request w)
    (h : (withOptionalTransaction transactions (persist ⟨true, transactions⟩ request
        (w.identities w.sequence) (objectiveIdempotencyKey X request.identity)
        w.surroundings.now)).exec (failingAdmission boom) ⟨true, true, none, false⟩
        (lockedWorld request w (objectiveIdempotencyKey X request.identity) fingerprint, some n) =
      (.error e, l, v, none))
    (hP : P ((compensate l (objectiveIdempotencyKey X request.identity) request.projectId
      (w.identities w.sequence).runId w.surroundings.now).exec admission v).2) :
    ∃ r v', Failed r ∧ P v' ∧ (admitNew ⟨true, transactions⟩ request context
      (objectiveIdempotencyKey X request.identity) fingerprint).exec (failingAdmission boom)
        (w, some (n + 2)) = (r, v', none) := by
  refine admitNew_of_error (e := e) (l := l) (v := v) ?_ hP
  exact (admitUnderKey_locked (w := numbered w) hfree.key hfree.lock).trans (admitLocked_of_error h)

/-- A transaction that returns is followed by the release of the lock. -/
theorem admitUnderKey_of_transaction_ok {event : EventEnvelope} {run : StoredRun}
    (hfree : Free X request w)
    (h : (withOptionalTransaction transactions (persist ⟨true, transactions⟩ request
        (w.identities w.sequence) (objectiveIdempotencyKey X request.identity)
        w.surroundings.now)).exec (failingAdmission boom) ⟨true, true, none, false⟩
        (lockedWorld request w (objectiveIdempotencyKey X request.identity) fingerprint, some n) =
      (.ok event, l, v, left)) (hrun : l.created = some run) :
    (admitUnderKey ⟨true, transactions⟩ request context (w.identities w.sequence)
        (objectiveIdempotencyKey X request.identity) fingerprint w.surroundings.now).exec
        (failingAdmission boom) .initial (numbered w, some (n + 2)) =
      (releaseAdmitted request context (objectiveIdempotencyKey X request.identity) run
        event).exec (failingAdmission boom) l (v, left) :=
  (admitUnderKey_locked (w := numbered w) hfree.key hfree.lock).trans (admitLocked_of_ok h hrun)

/-- A call up to the creation of the run fails: all is as before. -/
theorem admitNew_fails_restored (hfree : Free X request w) (hn : n < 3) :
    ∃ r v, Failed r ∧ Restored w v ∧
      (admitNew ⟨true, transactions⟩ request context (objectiveIdempotencyKey X request.identity)
        fingerprint).exec (failingAdmission boom) (w, some n) = (r, v, none) := by
  match n with
  | 0 =>
    exact admitNew_of_error admitUnderKey_fails_first
      ⟨fun _ => rfl, fun _ => rfl, rfl, rfl, rfl, rfl, rfl⟩
  | 1 =>
    exact admitNew_of_error (admitUnderKey_fails_second hfree.key)
      ⟨release_reservation rfl hfree.key, fun _ => rfl, rfl, rfl, rfl, rfl, rfl⟩
  | 2 =>
    obtain ⟨o, hfails⟩ := transaction_throws transactions (w := lockedWorld request w
      (objectiveIdempotencyKey X request.identity) fingerprint) fun o =>
      persist_fails_first (l := ⟨true, true, none, false⟩)
    exact admitNew_of_transaction_error hfree hfails
      ⟨release_reservation rfl hfree.key, release_lock (lockOf request (w.identities w.sequence)
        w.surroundings.now) hfree.lock, rfl, rfl, rfl, rfl, rfl⟩

/-- The run is created and its key is not bound: after a rollback the lock stays, as the run to
compensate is gone; without one a run stays under the freed key. -/
theorem admitNew_fails_unbound (hfree : Free X request w) (hn : n < 3) :
    ∃ r v, Failed r ∧
      (v.stores.locks.get request.projectId =
          some (lockOf request (w.identities w.sequence) w.surroundings.now) ∨
        v.stores.idempotency.get (objectiveIdempotencyKey X request.identity) = none ∧
          ∃ id run, v.stores.runs.get id = some run ∧
            run.idempotencyKey = objectiveIdempotencyKey X request.identity) ∧
      (admitNew ⟨true, transactions⟩ request context (objectiveIdempotencyKey X request.identity)
        fingerprint).exec (failingAdmission boom) (w, some (n + 3)) = (r, v, none) := by
  obtain ⟨e, run, v, hfails, hrunId, hstate, hv⟩ := transaction_fails_unbound boom transactions
    ⟨true, true, none, false⟩ (w := lockedWorld request w
      (objectiveIdempotencyKey X request.identity) fingerprint) hfree.creatable hn
  refine admitNew_of_transaction_error hfree hfails ?_
  rcases hv with hv | hv
  · have hmissing : v.stores.runs.get run.runId = none := by
      rw [hv, hrunId]
      exact hfree.creatable.1
    rw [compensate_missing hmissing hstate, hv]
    exact .inl (JsMap.get_set_self _ _ _)
  · obtain ⟨v', run', hexec, hget, hkey, hreleased⟩ := compensate_stored
      (objectiveIdempotencyKey X request.identity) request.projectId
      (w.identities w.sequence).runId w.surroundings.now (by rw [hrunId]; exact hv.stored) hstate
    rw [hexec]
    refine .inr ⟨?_, run.runId, run', hget, hkey.trans hv.idempotencyKey⟩
    rw [hreleased, hv.idempotency]
    exact (release_reservation rfl hfree.key _).trans hfree.key

/-- The local variables say that the key is bound: after a rollback it stays reserved; without
one it is bound to a run without objective. -/
theorem admitNew_fails_bound (hfree : Free X request w) (hn : n < 2) :
    ∃ r v, Failed r ∧
      (∃ record, v.stores.idempotency.get (objectiveIdempotencyKey X request.identity) =
          some record ∧
        (record.status = .reserved ∨ record.runId = some (w.identities w.sequence).runId ∧
          v.stores.objectives.byRun = w.stores.objectives.byRun)) ∧
      (admitNew ⟨true, transactions⟩ request context (objectiveIdempotencyKey X request.identity)
        fingerprint).exec (failingAdmission boom) (w, some (n + 6)) = (r, v, none) := by
  obtain ⟨e, v, hfails, hv⟩ := transaction_fails_bound boom transactions
    ⟨true, true, none, false⟩ (w := lockedWorld request w
      (objectiveIdempotencyKey X request.identity) fingerprint) hfree.creatable
    (JsMap.get_set_self _ _ _) rfl hn
  refine admitNew_of_transaction_error hfree hfails ?_
  rw [compensate_bound]
  rcases hv with hv | hv
  · refine ⟨IdempotencyStore.reservation (objectiveIdempotencyKey X request.identity) fingerprint
      w.surroundings.now, ?_, .inl rfl⟩
    change v.stores.idempotency.get _ = _
    rw [hv]
    exact JsMap.get_set_self _ _ _
  · obtain ⟨record, hget, hrunId⟩ := hv.bound
    exact ⟨record, hget, .inr ⟨hrunId, hv.unbound⟩⟩

/-- The request is recorded as admitted. -/
structure Recorded (X : External) (request : AdmissionRequest) (fingerprint : String)
    (w v : AdmissionWorld) : Prop where
  idempotency : ∃ record, record.status ≠ .reserved ∧ record.fingerprint = fingerprint ∧
    record.runId = some (w.identities w.sequence).runId ∧
    ∀ k, v.stores.idempotency.get k =
      if objectiveIdempotencyKey X request.identity = k then some record
      else w.stores.idempotency.get k
  locks : ∀ p, v.stores.locks.get p = w.stores.locks.get p
  runs : v.stores.runs = admittedRuns request (w.identities w.sequence)
    (objectiveIdempotencyKey X request.identity) w.surroundings.now w.stores.runs
  objectives : v.stores.objectives = (w.stores.objectives.save (parseObjective request)).bindRun
    (w.identities w.sequence).runId request.objectiveId request.objectiveVersion
  surroundings : v.surroundings = w.surroundings
  identities : v.identities = w.identities
  sequence : v.sequence = w.sequence + 1

/-- The world once the transaction is through and the lock is released. -/
theorem recorded_released (hfree : Free X request w) (o : Option AdmissionStores) :
    Recorded X request fingerprint w
      ({ lockedWorld request w (objectiveIdempotencyKey X request.identity) fingerprint with
        stores := persistedStores request (w.identities w.sequence)
          (objectiveIdempotencyKey X request.identity) w.surroundings.now
          (IdempotencyStore.reservation (objectiveIdempotencyKey X request.identity) fingerprint
            w.surroundings.now)
          (lockedWorld request w (objectiveIdempotencyKey X request.identity) fingerprint).stores
        opened := o }.setLocks
        (ProjectLocks.release (w.stores.locks.set request.projectId
            (lockOf request (w.identities w.sequence) w.surroundings.now))
          request.projectId (w.identities w.sequence).runId)) := by
  have hactive : (IdempotencyStore.bound (IdempotencyStore.reservation
      (objectiveIdempotencyKey X request.identity) fingerprint w.surroundings.now)
      (w.identities w.sequence).runId w.surroundings.now).status ≠ .reserved := by
    simp [IdempotencyStore.bound]
  refine ⟨⟨_, hactive, rfl, rfl, fun k => ?_⟩, release_lock (lockOf request
    (w.identities w.sequence) w.surroundings.now) hfree.lock, rfl, rfl, rfl, rfl, rfl⟩
  refine (JsMap.get_set _ _ _ _).trans ?_
  split
  · rfl
  · next hk => exact JsMap.get_set_ne _ _ hk

/-- The lock cannot be released: the compensation releases it. -/
theorem admitNew_fails_recorded (hfree : Free X request w) :
    ∃ r v, Failed r ∧ Recorded X request fingerprint w v ∧
      (admitNew ⟨true, transactions⟩ request context (objectiveIdempotencyKey X request.identity)
        fingerprint).exec (failingAdmission boom) (w, some 8) = (r, v, none) := by
  obtain ⟨o, hpersisted⟩ := transaction_succeeds (n := 0) boom transactions
    ⟨true, true, none, false⟩ (w := lockedWorld request w
      (objectiveIdempotencyKey X request.identity) fingerprint) hfree.creatable
    (JsMap.get_set_self _ _ _) rfl
  refine admitNew_of_error ((admitUnderKey_of_transaction_ok hfree hpersisted rfl).trans
    releaseAdmitted_fails) ?_
  rw [compensate_bound]
  exact recorded_released hfree o

variable (boom transactions n context fingerprint) in
/-- No call fails. -/
theorem admitNew_succeeds (hfree : Free X request w) :
    ∃ result v, result.admittedRun = some (w.identities w.sequence).runId ∧
      Recorded X request fingerprint w v ∧
      (admitNew ⟨true, transactions⟩ request context (objectiveIdempotencyKey X request.identity)
        fingerprint).exec (failingAdmission boom) (w, some (n + 9)) = (.ok result, v, some n) := by
  obtain ⟨o, hpersisted⟩ := transaction_succeeds (n := n + 1) boom transactions
    ⟨true, true, none, false⟩ (w := lockedWorld request w
      (objectiveIdempotencyKey X request.identity) fingerprint) hfree.creatable
    (JsMap.get_set_self _ _ _) rfl
  refine ⟨.admitted _ _ context _ _ _, _, ?_, recorded_released hfree o, admitNew_of_ok
    ((admitUnderKey_of_transaction_ok hfree hpersisted rfl).trans releaseAdmitted_succeeds)⟩
  rfl

end New

/-! ## Settled stores -/

section Settled

theorem KeyBound.congr {run : StoredRun}
    (h : ∀ k r, w.stores.idempotency.get k = some r → v.stores.idempotency.get k = some r)
    (hrun : KeyBound w run) : KeyBound v run := by
  obtain ⟨r, hget, hrest⟩ := hrun
  exact ⟨r, h _ r hget, hrest⟩

/-- Under a key that is not bound, nothing is in the way of the request. -/
theorem Settled.free (hw : Settled X w)
    (hkey : w.stores.idempotency.get (objectiveIdempotencyKey X request.identity) = none) :
    Free X request w := by
  refine ⟨hkey, hw.unlocked _, (hw.fresh _ le_rfl).1, fun r hr => ?_⟩
  obtain ⟨id, hget⟩ := JsMap.mem_values.mp hr
  obtain ⟨-, hrkey, record, hrecord, -⟩ := hw.stored id r hget
  have hne : r.idempotencyKey ≠ objectiveIdempotencyKey X request.identity := by
    intro h
    rw [h, hkey] at hrecord
    cases hrecord
  have hidentity : r.identity ≠ request.identity := by
    intro h
    exact hne (hrkey.trans (congrArg _ h))
  exact (if_neg hne).trans (if_neg fun h => hidentity h.1)

theorem Settled.restored (hw : Settled X w) (h : Restored w v) : Settled X v where
  unlocked p := (h.locks p).trans (hw.unlocked p)
  bound k r hr := by
    rw [h.idempotency] at hr
    rw [BoundToRun, h.runs, h.objectives]
    exact hw.bound k r hr
  stored id run hrun := by
    rw [h.runs] at hrun
    obtain ⟨hid, hkey, hbound⟩ := hw.stored id run hrun
    exact ⟨hid, hkey, hbound.congr fun k r hr => (h.idempotency k).trans hr⟩
  fresh m hm := by
    rw [h.sequence] at hm
    rw [h.identities, h.runs, h.objectives]
    exact hw.fresh m (by omega)
  distinct := by
    rw [h.identities]
    exact hw.distinct

/-- The runs once the run of the request is admitted. -/
theorem get_admittedRuns (runs : RunStore) (id : String) :
    JsMap.get (admittedRuns request identity key now runs) id =
      if identity.runId = id then some (admittedRun request identity key now)
      else JsMap.get runs id := by
  rw [admittedRuns, receivedRuns, JsMap.get_set, JsMap.get_set]
  split <;> rfl

/-- The new run has its objective bound, and so has each run that had one. -/
theorem getByRunBinding_bindRun {s : ObjectiveRepository} {id id' : String}
    (h : id = id' ∨ (s.getByRunBinding id').isSome = true) :
    (((s.save (parseObjective request)).bindRun id request.objectiveId
      request.objectiveVersion).getByRunBinding id').isSome = true := by
  have hsaved (k : String)
      (hk : objectiveKey request.objectiveId request.objectiveVersion = k ∨
        (s.byIdentity.get k).isSome = true) :
      ((s.save (parseObjective request)).byIdentity.get k).isSome = true := by
    refine (congrArg Option.isSome (JsMap.get_set _ _ _ _)).trans ?_
    split
    · rfl
    · next hne => exact hk.resolve_left hne
  have hbinding : ((s.save (parseObjective request)).bindRun id request.objectiveId
      request.objectiveVersion).byRun.get id' = if id = id' then
        some (objectiveKey request.objectiveId request.objectiveVersion) else s.byRun.get id' :=
    JsMap.get_set _ _ _ _
  rw [ObjectiveRepository.getByRunBinding, hbinding]
  split
  · exact hsaved _ (.inl rfl)
  · next hne =>
    have hold := h.resolve_left hne
    rw [ObjectiveRepository.getByRunBinding] at hold
    cases hget : s.byRun.get id' with
    | none =>
      rw [hget] at hold
      cases hold
    | some k =>
      rw [hget] at hold
      exact hsaved k (.inr hold)

theorem Settled.recorded (hw : Settled X w)
    (hkey : w.stores.idempotency.get (objectiveIdempotencyKey X request.identity) = none)
    (h : Recorded X request fingerprint w v) : Settled X v := by
  obtain ⟨record, hst, -, hrunId, hget⟩ := h.idempotency
  have hrun (id : String) : v.stores.runs.get id = if (w.identities w.sequence).runId = id then
      some (admittedRun request (w.identities w.sequence)
        (objectiveIdempotencyKey X request.identity) w.surroundings.now)
      else w.stores.runs.get id := by
    rw [h.runs, get_admittedRuns]
  have hold (k : String) (r : IdempotencyRecord) (hr : w.stores.idempotency.get k = some r) :
      v.stores.idempotency.get k = some r := by
    rw [hget, if_neg, hr]
    rintro rfl
    rw [hkey] at hr
    cases hr
  have hbound (id : String) (hid : (w.identities w.sequence).runId = id ∨
      (w.stores.objectives.getByRunBinding id).isSome = true) :
      (v.stores.objectives.getByRunBinding id).isSome = true := by
    rw [h.objectives]
    exact getByRunBinding_bindRun hid
  refine ⟨fun p => (h.locks p).trans (hw.unlocked p), fun k r hr => ?_, fun id run hr => ?_,
    fun m hm => ?_, ?_⟩
  · rw [hget] at hr
    split at hr
    · cases hr
      refine ⟨hst, _, hrunId, ?_, hbound _ (.inl rfl)⟩
      rw [hrun, if_pos rfl]
      rfl
    · obtain ⟨hst', id, hid, hexists, hobjective⟩ := hw.bound k r hr
      refine ⟨hst', id, hid, ?_, hbound id (.inr hobjective)⟩
      rw [hrun]
      split
      · rfl
      · exact hexists
  · rw [hrun] at hr
    split at hr
    · next hid =>
      cases hr
      refine ⟨hid, rfl, record, ?_, hst, hrunId⟩
      exact (hget _).trans (if_pos rfl)
    · obtain ⟨hid, hrkey, hkeyBound⟩ := hw.stored id run hr
      exact ⟨hid, hrkey, hkeyBound.congr hold⟩
  · rw [h.sequence] at hm
    have hne : (w.identities w.sequence).runId ≠ (w.identities m).runId := by
      intro hsame
      have := hw.distinct _ _ hsame
      omega
    obtain ⟨hfresh, hunbound⟩ := hw.fresh m (by omega)
    rw [h.identities, hrun, if_neg hne, h.objectives]
    exact ⟨hfresh, (JsMap.get_set_ne _ _ hne).trans hunbound⟩
  · rw [h.identities]
    exact hw.distinct

end Settled

/-! ## Under the key of the request -/

section Authorized

variable {context : ControlContextReference}

theorem getByKey_eq {r : Option IdempotencyRecord} (h : w.stores.idempotency.get key = r) :
    admission (.getByKey key) w = (.ok r, w) := by
  rw [← h]
  rfl

theorem getRun_eq {r : Option StoredRun} (h : w.stores.runs.get runId = r) :
    admission (.getRun runId) w = (.ok r, w) := by
  rw [← h]
  rfl

/-- The key cannot be read: nothing is written. -/
theorem admitAuthorized_fails_first :
    (admitAuthorized X deps request context).exec (failingAdmission boom) (w, some 0) =
      (.error boom, w, none) :=
  Async.exec_bind_of_error (call_fails rfl)

theorem admitAuthorized_new
    (hread : (call (.getByKey (objectiveIdempotencyKey X request.identity))).exec
      (failingAdmission boom) (w, left) = (.ok none, w, left')) :
    (admitAuthorized X deps request context).exec (failingAdmission boom) (w, left) =
      (admitNew deps request context (objectiveIdempotencyKey X request.identity)
        (objectiveFingerprint X request.content)).exec (failingAdmission boom) (w, left') :=
  (Async.exec_bind_of_ok hread).trans rfl

theorem admitAuthorized_free
    (hkey : w.stores.idempotency.get (objectiveIdempotencyKey X request.identity) = none) :
    (admitAuthorized X deps request context).exec (failingAdmission boom) (w, some (n + 1)) =
      (admitNew deps request context (objectiveIdempotencyKey X request.identity)
        (objectiveFingerprint X request.content)).exec (failingAdmission boom) (w, some n) :=
  admitAuthorized_new (call_succeeds rfl (getByKey_eq hkey))

variable {record : IdempotencyRecord}
  (hkey : w.stores.idempotency.get (objectiveIdempotencyKey X request.identity) = some record)

include hkey

/-- The key is bound to other content. -/
theorem admitAuthorized_conflict
    (hfp : record.fingerprint ≠ objectiveFingerprint X request.content) :
    (admitAuthorized X deps request context).exec (failingAdmission boom) (w, some (n + 1)) =
      (.ok versionConflict, w, some n) := by
  refine (Async.exec_bind_of_ok (call_succeeds rfl (getByKey_eq hkey))).trans ?_
  exact congrArg (fun p => Async.exec (failingAdmission boom) p (w, some n)) (if_pos hfp)

theorem admitAuthorized_same
    (hfp : record.fingerprint = objectiveFingerprint X request.content) :
    (admitAuthorized X deps request context).exec (failingAdmission boom) (w, some (n + 1)) =
      (duplicateResult record.status record.runId (objectiveIdempotencyKey X request.identity) >>=
        fun duplicate => match duplicate with
          | some result => (pure result : Call AdmissionResult)
          | none => admitNew deps request context (objectiveIdempotencyKey X request.identity)
              (objectiveFingerprint X request.content)).exec (failingAdmission boom)
        (w, some n) := by
  refine (Async.exec_bind_of_ok (call_succeeds rfl (getByKey_eq hkey))).trans ?_
  exact congrArg (fun p => Async.exec (failingAdmission boom) p (w, some n))
    (if_neg (not_not.mpr hfp))

/-- The run of the key cannot be read: nothing is written. -/
theorem admitAuthorized_fails_second (hbound : BoundToRun w record)
    (hfp : record.fingerprint = objectiveFingerprint X request.content) :
    (admitAuthorized X deps request context).exec (failingAdmission boom) (w, some 1) =
      (.error boom, w, none) := by
  obtain ⟨-, id, hid, -⟩ := hbound
  refine (admitAuthorized_same (n := 0) hkey hfp).trans (Async.exec_bind_of_error ?_)
  rw [hid]
  exact Async.exec_bind_of_error (call_fails rfl)

variable (boom deps n context) in
/-- The key is bound to the content of the request. -/
theorem admitAuthorized_duplicate (hbound : BoundToRun w record)
    (hst : ∀ id run, w.stores.runs.get id = some run → run.runId = id)
    (hfp : record.fingerprint = objectiveFingerprint X request.content) :
    ∃ result id, result.acceptedRun = some id ∧ (w.stores.runs.get id).isSome = true ∧
      ¬Failed (.ok result) ∧
      (admitAuthorized X deps request context).exec (failingAdmission boom) (w, some (n + 2)) =
        (.ok result, w, some n) := by
  obtain ⟨-, id, hid, hexists, -⟩ := hbound
  obtain ⟨run, hrun⟩ := Option.isSome_iff_exists.mp hexists
  have hget : (call (.getRun id)).exec (failingAdmission boom) (w, some (n + 1)) =
      (.ok (some run), w, some n) :=
    call_succeeds rfl (getRun_eq hrun)
  have hrunId := hst id run hrun
  have hduplicate : ∃ result, result.acceptedRun = some run.runId ∧ ¬Failed (.ok result) ∧
      (duplicateResult record.status record.runId (objectiveIdempotencyKey X request.identity)).exec
        (failingAdmission boom) (w, some (n + 1)) = (.ok (some result), w, some n) := by
    rw [hid]
    by_cases hcompleted : record.status = .completed
    · refine ⟨.completedDuplicate run.runId run.state
        (objectiveIdempotencyKey X request.identity), rfl, fun h => h, ?_⟩
      refine (Async.exec_bind_of_ok hget).trans ?_
      exact congrArg (fun p => Async.exec (failingAdmission boom) p (w, some n)) (if_pos hcompleted)
    · refine ⟨.activeDuplicate run.runId run.state
        (objectiveIdempotencyKey X request.identity), rfl, fun h => h, ?_⟩
      refine (Async.exec_bind_of_ok hget).trans ?_
      exact congrArg (fun p => Async.exec (failingAdmission boom) p (w, some n)) (if_neg hcompleted)
  obtain ⟨result, hresult, hnot, hexec⟩ := hduplicate
  exact ⟨result, id, hrunId ▸ hresult, hexists, hnot,
    (admitAuthorized_same hkey hfp).trans (Async.exec_bind_of_ok hexec)⟩

end Authorized

/-! ## The request submitted again -/

section Again

variable {context : ControlContextReference}

/-- What the failing call does not reach is what the request does without failures. -/
theorem acceptable_of_exec {result : AdmissionResult} {id : String} {m : ℕ}
    (h : (admitObjective X deps (.ok request)).exec (failingAdmission boom) (w, some n) =
      (.ok result, v, some m)) (hid : result.acceptedRun = some id)
    (hrun : (v.stores.runs.get id).isSome = true) : Acceptable X deps request w :=
  ⟨result, v, Async.exec_of_failing_some h, id, hid, hrun⟩

theorem not_acceptable_of_exec {r : Except AdmissionFailure AdmissionResult}
    {s : AdmissionWorld × Option ℕ}
    (h : (admitObjective X deps (.ok request)).exec (failingAdmission boom) (w, none) = (r, s))
    (hr : ∀ result, r = .ok result → result.acceptedRun = none) :
    ¬Acceptable X deps request w := by
  rintro ⟨result, w', hexec, id, hid, -⟩
  rw [Async.exec_failing_none, hexec] at h
  rw [hr result (congrArg Prod.fst h).symm] at hid
  cases hid

/-- From settled stores, a request whose key is not bound to other content is accepted. -/
theorem Settled.acceptable (hw : Settled X w)
    (heligible : eligibility w.surroundings request = .ok (.ok context))
    (hfp : ∀ r, w.stores.idempotency.get (objectiveIdempotencyKey X request.identity) = some r →
      r.fingerprint = objectiveFingerprint X request.content) :
    Acceptable X ⟨true, transactions⟩ request w := by
  cases hkey : w.stores.idempotency.get (objectiveIdempotencyKey X request.identity) with
  | none =>
    obtain ⟨result, v, hresult, hrecorded, hexec⟩ := admitNew_succeeds (.other "") transactions
      (objectiveFingerprint X request.content) 0 context (hw.free hkey)
    have hadmit : (admitObjective X ⟨true, transactions⟩ (.ok request)).exec
        (failingAdmission (.other "")) (w, some 10) = (.ok result, v, some 0) := by
      rw [admit_exec, heligible]
      exact (admitAuthorized_free hkey).trans hexec
    refine acceptable_of_exec hadmit (acceptedRun_of_admittedRun hresult) ?_
    rw [hrecorded.runs, get_admittedRuns, if_pos rfl]
    rfl
  | some record =>
    obtain ⟨result, id, hid, hrun, -, hexec⟩ := admitAuthorized_duplicate (.other "")
      ⟨true, transactions⟩ 0 context hkey (hw.bound _ _ hkey)
      (fun id run h => (hw.stored id run h).1) (hfp record hkey)
    have hadmit : (admitObjective X ⟨true, transactions⟩ (.ok request)).exec
        (failingAdmission (.other "")) (w, some 2) = (.ok result, w, some 0) := by
      rw [admit_exec, heligible]
      exact hexec
    exact acceptable_of_exec hadmit hid hrun

variable (request identity now) in
/-- The store refuses a run under the key of another one. -/
theorem create_clash {id : String} {run : StoredRun} (hrun : w.stores.runs.get id = some run)
    (hkey : run.idempotencyKey = key) :
    ∃ message, admission (.createRun (receivedRun request identity key now)) w =
      (.error (.other message), w) := by
  have hrefused : (w.stores.runs.values.findSome?
      (RunStore.refusal (receivedRun request identity key now))).isSome = true := by
    rw [List.findSome?_isSome_iff]
    exact ⟨run, JsMap.mem_values.mpr ⟨id, hrun⟩, congrArg Option.isSome (if_pos hkey)⟩
  obtain ⟨message, hmessage⟩ := Option.isSome_iff_exists.mp hrefused
  have hcreate : ∃ message, w.stores.runs.create (receivedRun request identity key now) =
      (.error (.other message), w.stores.runs) := by
    rw [RunStore.create, hmessage]
    split
    · exact ⟨_, rfl⟩
    · exact ⟨_, rfl⟩
  obtain ⟨message', hcreate⟩ := hcreate
  exact ⟨message', congrArg (fun r : Except AdmissionFailure StoredRun × RunStore =>
    (r.1, w.setRuns r.2)) hcreate⟩

variable (boom deps request identity now l) in
theorem persist_clash {id : String} {run : StoredRun} (hrun : w.stores.runs.get id = some run)
    (hkey : run.idempotencyKey = key) :
    (persist deps request identity key now).exec (failingAdmission boom) l (w, none) =
      (.error (.admission .runCreationFailed "Failed to persist RECEIVED run"), l, w, none) := by
  obtain ⟨message, hcreate⟩ := create_clash request identity now hrun hkey
  refine Method.exec_bind_of_error (Method.exec_bind_lift_of_error ?_)
  rw [orThrow, Async.tryCatch_eq, Async.exec_tryCatch, call_none hcreate]
  rfl

variable (boom request transactions fingerprint context identity now) in
/-- While a run stays under the key of the request, its reservation leads to an exception. -/
theorem admitUnderKey_clash (hfree : w.stores.idempotency.get key = none) {id : String}
    {run : StoredRun} (hrun : w.stores.runs.get id = some run)
    (hkey : run.idempotencyKey = key) :
    ∃ e l v, (admitUnderKey ⟨true, transactions⟩ request context identity key fingerprint
      now).exec (failingAdmission boom) .initial (w, none) = (.error e, l, v, none) := by
  have hreserved : (admitUnderKey ⟨true, transactions⟩ request context identity key fingerprint
      now).exec (failingAdmission boom) .initial (w, none) =
      (admitReserved ⟨true, transactions⟩ request context identity key now).exec
        (failingAdmission boom) ⟨true, false, none, false⟩
        ({ w with stores := reservedStores key fingerprint now w.stores }, none) :=
    (Method.exec_bind_lift_of_ok (call_none (reserve_free hfree))).trans rfl
  have hlocked (locks : ProjectLocks) : ∃ o,
      (admitLocked ⟨true, transactions⟩ request context identity key now).exec
        (failingAdmission boom) ⟨true, false, none, false⟩
        ({ w with stores := { reservedStores key fingerprint now w.stores with locks := locks } },
          none) =
      (.error (.admission .runCreationFailed "Failed to persist RECEIVED run"),
        ⟨true, true, none, false⟩, { w with
          stores := { reservedStores key fingerprint now w.stores with locks := locks }
          opened := o }, none) := by
    obtain ⟨o, hthrows⟩ := transaction_throws transactions
      (w := { w with stores :=
        { reservedStores key fingerprint now w.stores with locks := locks } })
      fun o => persist_clash boom request ⟨true, transactions⟩ identity now
        ⟨true, true, none, false⟩ hrun hkey
    exact ⟨o, admitLocked_of_error hthrows⟩
  obtain ⟨lockResult, locks, hacquire⟩ : ∃ lockResult locks,
      admission (.acquire (lockOf request identity now))
        { w with stores := reservedStores key fingerprint now w.stores } =
      (.ok lockResult, { w with stores :=
        { reservedStores key fingerprint now w.stores with locks := locks } }) := ⟨_, _, rfl⟩
  rw [hreserved]
  cases lockResult with
  | resourceConflict lock =>
    exact ⟨_, _, _, (Method.exec_bind_lift_of_ok (call_none hacquire)).trans rfl⟩
  | lockAcquired lock =>
    obtain ⟨o, hexec⟩ := hlocked locks
    exact ⟨_, _, _, (Method.exec_bind_lift_of_ok (call_none hacquire)).trans hexec⟩
  | lockAlreadyOwned lock =>
    obtain ⟨o, hexec⟩ := hlocked locks
    exact ⟨_, _, _, (Method.exec_bind_lift_of_ok (call_none hacquire)).trans hexec⟩

/-- While a run stays under the freed key of the request, the request is not accepted. -/
theorem not_acceptable_of_clash
    (hkey : w.stores.idempotency.get (objectiveIdempotencyKey X request.identity) = none)
    {id : String} {run : StoredRun} (hrun : w.stores.runs.get id = some run)
    (hrunKey : run.idempotencyKey = objectiveIdempotencyKey X request.identity) :
    ¬Acceptable X ⟨true, transactions⟩ request w := by
  have hnone (r : Except AdmissionFailure AdmissionResult) (hr : Failed r) :
      ∀ result, r = .ok result → result.acceptedRun = none := by
    rintro result rfl
    cases result <;> first | rfl | exact hr.elim
  have hexec := admit_exec X (.other "") request w ⟨true, transactions⟩ none
  cases heligible : eligibility w.surroundings request with
  | error e =>
    rw [heligible] at hexec
    exact not_acceptable_of_exec hexec (hnone _ trivial)
  | ok answer =>
    rw [heligible] at hexec
    cases answer with
    | error result =>
      obtain ⟨code, message, rfl⟩ := rejected_of_eligibility heligible
      exact not_acceptable_of_exec hexec fun _ h => by cases h; rfl
    | ok context =>
      obtain ⟨e, l, v, hbody⟩ := admitUnderKey_clash (w := numbered w) (.other "") request
        transactions (w.identities w.sequence) (objectiveFingerprint X request.content)
        w.surroundings.now context hkey hrun hrunKey
      obtain ⟨r, v', hr, -, hnew⟩ := admitNew_of_error (P := fun _ => True) hbody trivial
      have hauthorized := (admitAuthorized_new (call_none (getByKey_eq hkey))).trans hnew
      exact not_acceptable_of_exec (hexec.trans hauthorized) (hnone r hr)

end Again

/-! ## Which failures leave nothing -/

/-- The failing call does no harm: the request is rejected; or its key is bound to its content;
or its key is free, and the failing call is none of those from the run's transition (the fifth
repository call) to the binding of its objective (the ninth). -/
def Harmless (X : External) (w : AdmissionWorld) (request : AdmissionRequest) (n : ℕ) : Prop :=
  match eligibility w.surroundings request with
  | .error _ => False
  | .ok (.error _) => True
  | .ok (.ok _) =>
    match w.stores.idempotency.get (objectiveIdempotencyKey X request.identity) with
    | some record => record.fingerprint = objectiveFingerprint X request.content
    | none => n < 4 ∨ 9 ≤ n

theorem Settled.leavesNothing (hw : Settled X w) {context : ControlContextReference}
    (heligible : eligibility w.surroundings request = .ok (.ok context))
    (hfp : ∀ r, w.stores.idempotency.get (objectiveIdempotencyKey X request.identity) = some r →
      r.fingerprint = objectiveFingerprint X request.content) :
    LeavesNothing X ⟨true, transactions⟩ request runId w where
  unlocked p lock hlock := by
    rw [hw.unlocked] at hlock
    cases hlock
  key := hw.bound _
  runs id run hrun _ := (hw.stored id run hrun).2.2
  again := hw.acceptable heligible hfp

section Failures

theorem failsCleanly_of_failed {r : Except AdmissionFailure AdmissionResult}
    (h : admitFailing X deps request boom w n = (r, v, left)) (hr : Failed r) :
    FailsCleanly X deps request boom w n ↔
      LeavesNothing X deps request (w.identities w.sequence).runId v := by
  rw [FailsCleanly, h]
  exact ⟨fun hclean => hclean hr, fun hleaves _ => hleaves⟩

theorem failsCleanly_of_not_failed {r : Except AdmissionFailure AdmissionResult}
    (h : admitFailing X deps request boom w n = (r, v, left)) (hr : ¬Failed r) :
    FailsCleanly X deps request boom w n := by
  rw [FailsCleanly, h]
  exact fun hfailed => (hr hfailed).elim

/-- What the request does before the failing call, it does again. -/
theorem not_acceptable_of_admitFailing {r : Except AdmissionFailure AdmissionResult} {m : ℕ}
    (h : admitFailing X deps request boom w n = (r, v, some m))
    (hr : ∀ result, r = .ok result → result.acceptedRun = none) :
    ¬Acceptable X deps request w := by
  rintro ⟨result, w', hexec, id, hid, -⟩
  have hsame := hexec.symm.trans (Async.exec_of_failing_some h)
  rw [hr result (congrArg Prod.fst hsame).symm] at hid
  cases hid

variable {context : ControlContextReference}
  (heligible : eligibility w.surroundings request = .ok (.ok context))

include heligible

theorem admitFailing_eligible : admitFailing X deps request boom w n =
    (admitAuthorized X deps request context).exec (failingAdmission boom) (w, some n) := by
  rw [admitFailing, admit_exec, heligible]

/-- The key cannot be read: what is there is what was there. -/
theorem failsCleanly_first : FailsCleanly X deps request boom w 0 ↔
    LeavesNothing X deps request (w.identities w.sequence).runId w :=
  failsCleanly_of_failed ((admitFailing_eligible heligible).trans admitAuthorized_fails_first)
    trivial

/-- What an admission under a free key does, its first call apart. -/
theorem admitFailing_free {s : Except AdmissionFailure AdmissionResult × AdmissionWorld × Option ℕ}
    (hkey : w.stores.idempotency.get (objectiveIdempotencyKey X request.identity) = none)
    (h : (admitNew deps request context (objectiveIdempotencyKey X request.identity)
      (objectiveFingerprint X request.content)).exec (failingAdmission boom) (w, some n) = s) :
    admitFailing X deps request boom w (n + 1) = s :=
  (admitFailing_eligible heligible).trans ((admitAuthorized_free hkey).trans h)

section Free

variable (hw : Settled X w)
  (hkey : w.stores.idempotency.get (objectiveIdempotencyKey X request.identity) = none)

include hw hkey

theorem failsCleanly_restored (hn : n < 3) :
    FailsCleanly X ⟨true, transactions⟩ request boom w (n + 1) := by
  obtain ⟨r, v, hr, hrestored, hnew⟩ := admitNew_fails_restored (hw.free hkey) hn
  refine (failsCleanly_of_failed (admitFailing_free heligible hkey hnew) hr).mpr ?_
  refine (hw.restored hrestored).leavesNothing (hrestored.surroundings ▸ heligible) fun r hr => ?_
  rw [hrestored.idempotency, hkey] at hr
  cases hr

theorem not_failsCleanly_unbound (hn : n < 3) :
    ¬FailsCleanly X ⟨true, transactions⟩ request boom w (n + 4) := by
  obtain ⟨r, v, hr, hv, hnew⟩ := admitNew_fails_unbound (hw.free hkey) hn
  rw [failsCleanly_of_failed (admitFailing_free heligible hkey hnew) hr]
  intro hleaves
  rcases hv with hlock | ⟨hfree, id, run, hrun, hrunKey⟩
  · exact hleaves.unlocked _ _ hlock rfl
  · exact not_acceptable_of_clash hfree hrun hrunKey hleaves.again

theorem not_failsCleanly_bound (hn : n < 2) :
    ¬FailsCleanly X ⟨true, transactions⟩ request boom w (n + 7) := by
  obtain ⟨r, v, hr, ⟨record, hrecord, hv⟩, hnew⟩ := admitNew_fails_bound (hw.free hkey) hn
  rw [failsCleanly_of_failed (admitFailing_free heligible hkey hnew) hr]
  intro hleaves
  obtain ⟨hst, id, hid, -, hobjective⟩ := hleaves.key record hrecord
  rcases hv with hreserved | ⟨hrunId, hunbound⟩
  · exact hst hreserved
  · obtain rfl := Option.some.inj (hid.symm.trans hrunId)
    rw [ObjectiveRepository.getByRunBinding, hunbound, (hw.fresh _ le_rfl).2] at hobjective
    cases hobjective

theorem failsCleanly_recorded : FailsCleanly X ⟨true, transactions⟩ request boom w 9 := by
  obtain ⟨r, v, hr, hrecorded, hnew⟩ := admitNew_fails_recorded (hw.free hkey)
  refine (failsCleanly_of_failed (admitFailing_free heligible hkey hnew) hr).mpr ?_
  refine (hw.recorded hkey hrecorded).leavesNothing (hrecorded.surroundings ▸ heligible) ?_
  intro r hr
  obtain ⟨record, -, hfp, -, hget⟩ := hrecorded.idempotency
  rw [hget, if_pos rfl] at hr
  cases hr
  exact hfp

/-- Under a free key, the calls from the run's transition to the binding of the objective do the
harm. -/
theorem failsCleanly_free :
    FailsCleanly X ⟨true, transactions⟩ request boom w n ↔ n < 4 ∨ 9 ≤ n := by
  match n with
  | 0 =>
    refine iff_of_true ((failsCleanly_first heligible).mpr ?_) (by omega)
    exact hw.leavesNothing heligible fun r hr => by rw [hkey] at hr; cases hr
  | 1 => exact iff_of_true (failsCleanly_restored heligible hw hkey (n := 0) (by omega)) (by omega)
  | 2 => exact iff_of_true (failsCleanly_restored heligible hw hkey (n := 1) (by omega)) (by omega)
  | 3 => exact iff_of_true (failsCleanly_restored heligible hw hkey (n := 2) (by omega)) (by omega)
  | 4 =>
    exact iff_of_false (not_failsCleanly_unbound heligible hw hkey (n := 0) (by omega)) (by omega)
  | 5 =>
    exact iff_of_false (not_failsCleanly_unbound heligible hw hkey (n := 1) (by omega)) (by omega)
  | 6 =>
    exact iff_of_false (not_failsCleanly_unbound heligible hw hkey (n := 2) (by omega)) (by omega)
  | 7 =>
    exact iff_of_false (not_failsCleanly_bound heligible hw hkey (n := 0) (by omega)) (by omega)
  | 8 =>
    exact iff_of_false (not_failsCleanly_bound heligible hw hkey (n := 1) (by omega)) (by omega)
  | 9 => exact iff_of_true (failsCleanly_recorded heligible hw hkey) (by omega)
  | n + 10 =>
    obtain ⟨result, v, hresult, -, hnew⟩ := admitNew_succeeds boom transactions
      (objectiveFingerprint X request.content) n context (hw.free hkey)
    refine iff_of_true (failsCleanly_of_not_failed (admitFailing_free heligible hkey hnew) ?_)
      (by omega)
    cases result <;> first | exact id | cases hresult

end Free

/-- Under a bound key, the request must have its content. -/
theorem failsCleanly_bound (hw : Settled X w) {record : IdempotencyRecord}
    (hkey : w.stores.idempotency.get (objectiveIdempotencyKey X request.identity) = some record) :
    FailsCleanly X ⟨true, transactions⟩ request boom w n ↔
      record.fingerprint = objectiveFingerprint X request.content := by
  by_cases hfp : record.fingerprint = objectiveFingerprint X request.content
  · refine iff_of_true ?_ hfp
    have hleaves : LeavesNothing X ⟨true, transactions⟩ request (w.identities w.sequence).runId w :=
      hw.leavesNothing heligible fun r hr => by rw [hkey] at hr; cases hr; exact hfp
    match n with
    | 0 => exact (failsCleanly_first heligible).mpr hleaves
    | 1 =>
      exact (failsCleanly_of_failed ((admitFailing_eligible heligible).trans
        (admitAuthorized_fails_second hkey (hw.bound _ _ hkey) hfp)) trivial).mpr hleaves
    | n + 2 =>
      obtain ⟨result, id, -, -, hnot, hexec⟩ := admitAuthorized_duplicate boom ⟨true, transactions⟩
        n context hkey (hw.bound _ _ hkey) (fun id run h => (hw.stored id run h).1) hfp
      exact failsCleanly_of_not_failed ((admitFailing_eligible heligible).trans hexec) hnot
  · refine iff_of_false ?_ hfp
    have hconflict : admitFailing X ⟨true, transactions⟩ request boom w 1 = _ :=
      (admitFailing_eligible heligible).trans (admitAuthorized_conflict hkey hfp)
    have hagain : ¬Acceptable X ⟨true, transactions⟩ request w :=
      not_acceptable_of_admitFailing hconflict fun _ h => by cases h; rfl
    match n with
    | 0 =>
      rw [failsCleanly_first heligible]
      exact fun hleaves => hagain hleaves.again
    | n + 1 =>
      rw [failsCleanly_of_failed ((admitFailing_eligible heligible).trans
        (admitAuthorized_conflict hkey hfp)) trivial]
      exact fun hleaves => hagain hleaves.again

omit heligible in
/-- One repository call of an admission fails, with or without a transaction manager that rolls
back: the admission leaves nothing behind if it failed, exactly when the failing call does no
harm. -/
theorem failed_admission_clean_iff (hw : Settled X w) :
    FailsCleanly X ⟨true, transactions⟩ request boom w n ↔ Harmless X w request n := by
  rw [Harmless]
  cases heligible : eligibility w.surroundings request with
  | error e =>
    have hexec : admitFailing X ⟨true, transactions⟩ request boom w n =
        (.error e, w, some n) := by
      rw [admitFailing, admit_exec, heligible]
    refine iff_of_false ?_ not_false
    rw [failsCleanly_of_failed hexec trivial]
    exact fun hleaves =>
      not_acceptable_of_admitFailing hexec (fun _ h => nomatch h) hleaves.again
  | ok answer =>
    cases answer with
    | error result =>
      have hexec : admitFailing X ⟨true, transactions⟩ request boom w n =
          (.ok result, w, some n) := by
        rw [admitFailing, admit_exec, heligible]
      obtain ⟨code, message, rfl⟩ := rejected_of_eligibility heligible
      exact iff_of_true (failsCleanly_of_not_failed hexec id) trivial
    | ok context =>
      cases hkey : w.stores.idempotency.get (objectiveIdempotencyKey X request.identity) with
      | none => exact failsCleanly_free heligible hw hkey
      | some record => exact failsCleanly_bound heligible hw hkey

end Failures

/-! ## Settled stores are those between admissions -/

/-- The empty stores are settled. -/
theorem settled_initial (surroundings : AdmissionSurroundings) {identities : ℕ → AdmissionIdentity}
    (hdistinct : ∀ m m', (identities m).runId = (identities m').runId → m = m') :
    Settled X (.initial surroundings identities) where
  unlocked _ := rfl
  bound _ _ h := nomatch h
  stored _ _ h := nomatch h
  fresh _ _ := ⟨rfl, rfl⟩
  distinct := hdistinct

theorem Settled.surrounded (hw : Settled X w) (s : AdmissionSurroundings) :
    Settled X { w with surroundings := s } :=
  ⟨hw.unlocked, hw.bound, hw.stored, hw.fresh, hw.distinct⟩

/-- An admission without failures leaves settled stores settled. -/
theorem Settled.admitObjective (hw : Settled X w) :
    Settled X ((admitObjective X ⟨true, transactions⟩ (.ok request)).exec admission w).2 := by
  have hexec (n m : ℕ) (r : Except AdmissionFailure AdmissionResult) (v : AdmissionWorld)
      (h : admitFailing X ⟨true, transactions⟩ request (.other "") w n = (r, v, some m))
      (hv : Settled X v) :
      Settled X ((ObjectiveAdmissionService.admitObjective X ⟨true, transactions⟩ (.ok request)).exec
        admission w).2 := by
    rw [Async.exec_of_failing_some h]
    exact hv
  cases heligible : eligibility w.surroundings request with
  | error e => exact hexec 0 0 (.error e) w (by rw [admitFailing, admit_exec, heligible]) hw
  | ok answer =>
    cases answer with
    | error result => exact hexec 0 0 (.ok result) w (by rw [admitFailing, admit_exec, heligible]) hw
    | ok context =>
      cases hkey : w.stores.idempotency.get (objectiveIdempotencyKey X request.identity) with
      | none =>
        obtain ⟨result, v, -, hrecorded, hnew⟩ := admitNew_succeeds (.other "") transactions
          (objectiveFingerprint X request.content) 0 context (hw.free hkey)
        exact hexec 10 0 _ v (admitFailing_free heligible hkey hnew) (hw.recorded hkey hrecorded)
      | some record =>
        by_cases hfp : record.fingerprint = objectiveFingerprint X request.content
        · obtain ⟨result, id, -, -, -, hduplicate⟩ := admitAuthorized_duplicate (.other "")
            ⟨true, transactions⟩ 0 context hkey (hw.bound _ _ hkey)
            (fun id run h => (hw.stored id run h).1) hfp
          exact hexec 2 0 _ w ((admitFailing_eligible heligible).trans hduplicate) hw
        · exact hexec 1 0 _ w ((admitFailing_eligible heligible).trans
            (admitAuthorized_conflict hkey hfp)) hw

/-- After any sequence of admissions without failures, the stores are settled. -/
theorem settled_afterSubmissions (hw : Settled X w) (submissions : List Submission) :
    Settled X (afterSubmissions X ⟨true, transactions⟩ w submissions) := by
  induction submissions generalizing w with
  | nil => exact hw
  | cons s ss ih => exact ih (hw.surrounded s.surroundings).admitObjective

theorem sequenceIdentity_inj {m m' : ℕ}
    (h : (sequenceIdentity m).runId = (sequenceIdentity m').runId) : m = m' := by
  have hlist := congrArg String.toList h
  simp only [sequenceIdentity, String.toList_append, List.append_cancel_left_eq, Nat.toString_eq_ofList_toDigits, String.toList_ofList] at hlist
  have hvalue := congrArg (Nat.ofDigitChars 10 · 0) hlist
  simp only [Nat.ofDigitChars_ten_toDigits] at hvalue
  omega

theorem settled_openWorld : Settled X openWorld :=
  settled_initial _ fun _ _ => sequenceIdentity_inj

/-- The event store fails once, after the run was admitted. With a transaction manager that rolls
back, the project stays locked by a run that does not exist; without one, the cancelled run keeps
the request from being admitted again. -/
theorem failed_admission_not_clean :
    ¬FailsCleanly plainExternal ⟨true, some .rollingBack⟩
        (exampleRequest "project_1" "production" "a" (by decide)) (.other "down") openWorld 5 ∧
      ¬FailsCleanly plainExternal ⟨true, none⟩
        (exampleRequest "project_1" "production" "a" (by decide)) (.other "down") openWorld 5 :=
  ⟨not_failsCleanly_unbound (n := 1) rfl settled_openWorld rfl (by decide),
    not_failsCleanly_unbound (n := 1) rfl settled_openWorld rfl (by decide)⟩

/-- The project lock cannot be acquired: the reservation is dropped. -/
theorem failed_admission_clean_acquire :
    FailsCleanly plainExternal ⟨true, some .rollingBack⟩
      (exampleRequest "project_1" "production" "a" (by decide)) (.other "down") openWorld 2 :=
  (failed_admission_clean_iff settled_openWorld).mpr (.inl (by decide))

end Orchestrator
