import Orchestrator.Admission.Scenario
import Orchestrator.Atomic.Exec

/-!
# The objective of an admitted run

Admission saves the objective it admits under its id and version, and binds the run to that
key. The store does not look at the project or at the environment, and `save` overwrites, so
a later admission of the same id and version changes the objective of the earlier run.

* `Admits`: what an admission does to the runs and to the objectives (`admit_admits`);
* `objective_unchanged_iff`: the objective of a run stays what its request submitted exactly
  when no later admission saves other content under its key.
-/

namespace Orchestrator

open Atomic Collections ObjectiveAdmissionService

/-! ## Keys -/

/-- The objective store tells ids and versions apart. -/
theorem objectiveKey_inj {i i' : String} {v v' : ℕ} (h : objectiveKey i v = objectiveKey i' v') :
    i = i' ∧ v = v' := by
  have hlist : i.toList ++ ':' :: ':' :: Nat.toDigits 10 v =
      i'.toList ++ ':' :: ':' :: Nat.toDigits 10 v' := by
    have htoList := congrArg String.toList h
    simpa [objectiveKey, Nat.toString_eq_ofList_toDigits] using htoList
  have hreverse := congrArg List.reverse hlist
  simp only [List.reverse_append, List.reverse_cons, List.append_assoc, List.cons_append,
    List.nil_append] at hreverse
  have hdigits (n : ℕ) : ∀ c ∈ (Nat.toDigits 10 n).reverse, c.isDigit = true := fun c hc =>
    Nat.isDigit_of_mem_toDigits (by decide) (by decide) (List.mem_reverse.mp hc)
  obtain ⟨hv, hi⟩ := span_readable _ _ _ _ (hdigits v) (hdigits v') (ends_cons rfl _)
    (ends_cons rfl _) hreverse
  have hvalue := congrArg (Nat.ofDigitChars 10 · 0) (List.reverse_injective hv)
  simp only [Nat.ofDigitChars_ten_toDigits] at hvalue
  simp only [List.cons.injEq, true_and] at hi
  exact ⟨String.toList_inj.mp (List.reverse_injective hi), hvalue⟩

/-! ## What an admission does -/

variable {X : External} {deps : AdmissionDeps} {request : AdmissionRequest} {w w' : AdmissionWorld}

/-- The runs and the objectives are as they were. -/
structure Unwritten (w w' : AdmissionWorld) : Prop where
  runs : w'.stores.runs = w.stores.runs
  objectives : w'.stores.objectives = w.stores.objectives

/-- The request was admitted as a run that did not exist: the run was created, the objective
saved and bound to it, and every run that was there is still there. -/
structure Admits (request : AdmissionRequest) (runId : String) (w w' : AdmissionWorld) : Prop where
  fresh : w.stores.runs.get runId = none
  stored : (w'.stores.runs.get runId).isSome = true
  keeps : ∀ id, (w.stores.runs.get id).isSome = true → (w'.stores.runs.get id).isSome = true
  objectives : w'.stores.objectives = (w.stores.objectives.save (parseObjective request)).bindRun
    runId request.objectiveId request.objectiveVersion

namespace Unwritten

theorem refl (w : AdmissionWorld) : Unwritten w w := ⟨rfl, rfl⟩

theorem trans {w₁ w₂ w₃ : AdmissionWorld} (h : Unwritten w₁ w₂) (h' : Unwritten w₂ w₃) :
    Unwritten w₁ w₃ :=
  ⟨h'.runs.trans h.runs, h'.objectives.trans h.objectives⟩

/-- An admission between two parts that write neither runs nor objectives. -/
theorem admits {w₁ w₂ w₃ w₄ : AdmissionWorld} {runId : String} (h : Unwritten w₁ w₂)
    (ha : Admits request runId w₂ w₃) (h' : Unwritten w₃ w₄) : Admits request runId w₁ w₄ where
  fresh := h.runs ▸ ha.fresh
  stored := h'.runs ▸ ha.stored
  keeps id hid := h'.runs ▸ ha.keeps id (h.runs ▸ hid)
  objectives := by rw [h'.objectives, ha.objectives, h.objectives]

end Unwritten

/-! ### Calls that returned -/

theorem call_ok {o : AdmissionOp} {a : o.Res} :
    (call o).exec admission w = (.ok a, w') ↔ admission o w = (.ok a, w') := Iff.rfl

theorem orThrow_ok {α : Type} {p : Call α} {code : AdmissionErrorCode} {message : String} {a : α} :
    (orThrow p code message).exec admission w = (.ok a, w') ↔ p.exec admission w = (.ok a, w') := by
  rw [orThrow, Async.tryCatch_eq, Async.exec_tryCatch_ok]
  simp

theorem create_ok {s : RunStore} {r r' : StoredRun} (h : (s.create r).1 = .ok r') :
    s.get r.runId = none ∧ r' = r ∧ (s.create r).2 = s.set r.runId r := by
  rw [RunStore.create] at h ⊢
  split at h
  · cases h
  · next hget =>
    split at h
    · cases h
    · cases h
      exact ⟨by simpa using hget, rfl, by simp_all⟩

theorem transition_ok {s : RunStore} {runId : String} {expected next : RunState} {revision t : ℕ}
    {extras : RunExtras} {r' : StoredRun}
    (h : (s.transition runId expected revision next t extras).1 = .ok r') :
    ∃ r, s.get runId = some r ∧ r' = RunStore.moved r next t extras ∧
      (s.transition runId expected revision next t extras).2 = s.set r.runId r' := by
  rw [RunStore.transition] at h ⊢
  split at h
  · cases h
  · next r hget =>
    split at h
    · next hcas =>
      cases h
      exact ⟨r, hget, rfl, by simp only [if_pos hcas]⟩
    · cases h

/-- The run a request is admitted as is created, and then moved. -/
theorem createRun_ok {identity : AdmissionIdentity} {key : String} {now : ℕ} {l l' : Locals}
    {run : StoredRun}
    (h : (createRun request identity key now).exec admission l w = (.ok run, l', w')) :
    w.stores.runs.get identity.runId = none ∧ run.runId = identity.runId ∧
      l' = { l with created := some run } ∧ w'.stores.objectives = w.stores.objectives ∧
      ∃ r, w'.stores.runs = (w.stores.runs.set identity.runId r).set identity.runId run := by
  simp only [createRun, Method.bind_eq, Method.liftM_eq, Method.exec_bind_ok, Method.exec_lift_ok,
    orThrow_ok, Method.exec_assign, Method.pure_eq, Method.exec_pure, commitRunTransition,
    Async.bind_eq, Async.exec_bind_ok, Async.exec_ofExcept] at h
  obtain ⟨received, _, w₁, ⟨hcreate, rfl⟩, _, _, _, ⟨⟩, _, _, w₂, ⟨hassert, rfl⟩, admitted, _, w₃,
    ⟨⟨_, w₄, hassert', htransition⟩, rfl⟩, _, _, _, ⟨⟩, ⟨⟩⟩ := h
  obtain rfl : w₁ = w₂ := (Prod.mk.inj hassert).2
  obtain rfl : w₁ = w₄ := (Prod.mk.inj hassert').2
  obtain ⟨hcreated, rfl⟩ := Prod.mk.inj hcreate
  obtain ⟨hmoved, rfl⟩ := Prod.mk.inj htransition
  obtain ⟨hfresh, rfl, hruns⟩ := create_ok hcreated
  obtain ⟨r, hget, rfl, hruns'⟩ := transition_ok hmoved
  change (w.stores.runs.create _).2.get _ = _ at hget
  rw [hruns, JsMap.get_set_self] at hget
  cases hget
  refine ⟨hfresh, rfl, rfl, rfl, receivedRun request identity key now, ?_⟩
  exact hruns'.trans (congrArg (fun s => JsMap.set s _ _) hruns)
/-- The part of an admission under its lock, when it returned. -/
theorem persist_ok (hdeps : deps.objectives = true) {identity : AdmissionIdentity} {key : String}
    {now : ℕ} {l l' : Locals} {event : EventEnvelope}
    (h : (persist deps request identity key now).exec admission l w = (.ok event, l', w')) :
    Admits request identity.runId w w' ∧ l'.created.map (·.runId) = some identity.runId := by
  simp only [persist, saveObjective, if_pos hdeps, Method.bind_eq, Method.liftM_eq,
    Method.exec_bind_ok, Method.exec_lift_ok, orThrow_ok, Method.exec_assign, Method.pure_eq,
    Method.exec_pure] at h
  obtain ⟨run, l₁, w₁, hrun, _, _, w₂, ⟨happend, rfl⟩, _, _, w₃, ⟨hcomplete, rfl⟩, _, _, _, ⟨⟩,
    _, _, _, ⟨_, _, w₄, ⟨hsave, rfl⟩, hbind, rfl⟩, ⟨⟩⟩ := h
  obtain ⟨hfresh, hrunId, rfl, hobjectives, r, hruns⟩ := createRun_ok hrun
  obtain ⟨-, rfl⟩ := Prod.mk.inj happend
  obtain ⟨-, rfl⟩ := Prod.mk.inj hcomplete
  obtain ⟨-, rfl⟩ := Prod.mk.inj hsave
  obtain ⟨-, rfl⟩ := Prod.mk.inj hbind
  refine ⟨⟨hfresh, ?_, fun id hid => ?_, ?_⟩, by rw [← hrunId]; rfl⟩
  · change (w₁.stores.runs.get _).isSome = true
    rw [hruns, JsMap.get_set_self]
    rfl
  · change (w₁.stores.runs.get id).isSome = true
    rw [hruns, JsMap.get_set, JsMap.get_set]
    split
    · rfl
    · exact hid
  · change (w₁.stores.objectives.save (parseObjective request)).bindRun run.runId _ _ = _
    rw [hobjectives, hrunId]

/-- A transaction that returned only ran its function. -/
theorem withOptionalTransaction_ok {α : Type} {transactions : Option TransactionManager}
    {p : Body α} {a : α} {l l' : Locals}
    (h : (withOptionalTransaction transactions p).exec admission l w = (.ok a, l', w')) :
    ∃ w₁ w₂, Unwritten w w₁ ∧ p.exec admission l w₁ = (.ok a, l', w₂) ∧ Unwritten w₂ w' := by
  rw [withOptionalTransaction.eq_def] at h
  split at h
  · simp only [Method.bind_eq, Method.liftM_eq, Method.exec_bind_ok, Method.exec_lift_ok,
      Method.tryCatch_eq, Method.exec_tryCatch_ok, Method.throw_eq, Method.exec_throw,
      Method.pure_eq, Method.exec_pure] at h
    obtain ⟨_, _, w₁, ⟨hbegin, rfl⟩, ⟨_, _, w₂, hp, _, _, w₃, ⟨hcommit, rfl⟩, ⟨⟩⟩ |
      ⟨_, _, _, _, _, _, _, _, ⟨⟩⟩⟩ := h
    obtain ⟨-, rfl⟩ := Prod.mk.inj hbegin
    obtain ⟨-, rfl⟩ := Prod.mk.inj hcommit
    exact ⟨{ w with opened := some w.stores }, w₂, ⟨rfl, rfl⟩, hp, ⟨rfl, rfl⟩⟩
  · exact ⟨w, w', .refl w, h, .refl w'⟩

theorem admitLocked_ok (hdeps : deps.objectives = true) {context : ControlContextReference}
    {identity : AdmissionIdentity} {key : String} {now : ℕ} {l l' : Locals}
    {result : AdmissionResult} {runId : String} (hresult : result.admittedRun = some runId)
    (h : (admitLocked deps request context identity key now).exec admission l w =
      (.ok result, l', w')) : Admits request runId w w' := by
  simp only [admitLocked, Method.bind_eq, Method.liftM_eq, Method.exec_bind_ok,
    Method.exec_assign, Method.exec_read] at h
  obtain ⟨_, _, _, ⟨⟩, event, l₁, w₁, htransaction, _, _, _, ⟨⟩, h⟩ := h
  obtain ⟨w₂, w₃, hbegin, hpersist, hcommit⟩ := withOptionalTransaction_ok htransaction
  obtain ⟨hadmits, hrun⟩ := persist_ok hdeps hpersist
  cases hcreated : l₁.created with
  | none => simp [hcreated] at hrun
  | some created =>
    simp only [hcreated, Method.exec_bind_ok, Method.exec_lift_ok, orThrow_ok,
      Method.exec_assign, Method.pure_eq, Method.exec_pure] at h
    obtain ⟨_, _, w₄, ⟨hrelease, rfl⟩, _, _, _, ⟨⟩, ⟨⟩⟩ := h
    obtain ⟨-, rfl⟩ := Prod.mk.inj hrelease
    have hid : identity.runId = runId := by
      rw [hcreated] at hrun
      exact (Option.some.inj hrun).symm.trans (Option.some.inj hresult)
    exact hid ▸ hbegin.admits hadmits (hcommit.trans ⟨rfl, rfl⟩)

theorem admitReserved_ok (hdeps : deps.objectives = true) {context : ControlContextReference}
    {identity : AdmissionIdentity} {key : String} {now : ℕ} {l l' : Locals}
    {result : AdmissionResult} {runId : String} (hresult : result.admittedRun = some runId)
    (h : (admitReserved deps request context identity key now).exec admission l w =
      (.ok result, l', w')) : Admits request runId w w' := by
  simp only [admitReserved, Method.bind_eq, Method.liftM_eq, Method.exec_bind_ok,
    Method.exec_lift_ok] at h
  obtain ⟨lock, _, w₁, ⟨hacquire, rfl⟩, h⟩ := h
  obtain ⟨-, rfl⟩ := Prod.mk.inj hacquire
  have hunwritten (s : ProjectLocks) : Unwritten w (w.setLocks s) := ⟨rfl, rfl⟩
  split at h
  · cases h
  · exact (hunwritten _).admits (admitLocked_ok hdeps hresult h) (.refl w')

/-- A duplicate is answered without a new run, and writes nothing. -/
theorem duplicateResult_ok {status : IdempotencyRecordStatus} {runId : Option String}
    {key : String} {duplicate : Option AdmissionResult}
    (h : (duplicateResult status runId key).exec admission w = (.ok duplicate, w')) :
    duplicate.bind AdmissionResult.admittedRun = none ∧ w' = w := by
  rw [duplicateResult.eq_def] at h
  split at h
  · split at h <;> cases h <;> exact ⟨rfl, rfl⟩
  · simp only [Async.bind_eq, Async.exec_bind_ok] at h
    obtain ⟨run, w₁, hget, h⟩ := h
    obtain ⟨-, rfl⟩ := Prod.mk.inj hget
    split at h
    · cases h
      exact ⟨rfl, rfl⟩
    · split at h <;> cases h <;> exact ⟨rfl, rfl⟩

theorem answerDuplicate_ok {status : IdempotencyRecordStatus} {runId : Option String}
    {key : String} {result : AdmissionResult}
    (h : (answerDuplicate status runId key).exec admission w = (.ok result, w')) :
    result.admittedRun = none := by
  simp only [answerDuplicate, Async.bind_eq, Async.exec_bind_ok, Async.pure_eq,
    Async.exec_pure] at h
  obtain ⟨duplicate, _, hduplicate, ⟨⟩⟩ := h
  have hnone := (duplicateResult_ok hduplicate).1
  cases duplicate with
  | none => rfl
  | some a => exact hnone

theorem admitUnderKey_ok (hdeps : deps.objectives = true) {context : ControlContextReference}
    {identity : AdmissionIdentity} {key fingerprint : String} {now : ℕ} {l l' : Locals}
    {result : AdmissionResult} {runId : String} (hresult : result.admittedRun = some runId)
    (h : (admitUnderKey deps request context identity key fingerprint now).exec admission l w =
      (.ok result, l', w')) : Admits request runId w w' := by
  have hnot {r : AdmissionResult} (hr : r.admittedRun = none) (h : r = result) :
      Admits request runId w w' := by
    rw [h, hresult] at hr
    exact nomatch hr
  simp only [admitUnderKey, Method.bind_eq, Method.liftM_eq, Method.exec_bind_ok,
    Method.exec_lift_ok] at h
  obtain ⟨reservation, _, w₁, ⟨hreserve, rfl⟩, h⟩ := h
  obtain ⟨-, rfl⟩ := Prod.mk.inj hreserve
  have hunwritten (s : IdempotencyStore) : Unwritten w (w.setIdempotency s) := ⟨rfl, rfl⟩
  split at h
  · cases h
    exact hnot rfl rfl
  · exact hnot (answerDuplicate_ok (Method.exec_lift_ok.mp h).1) rfl
  · exact hnot (answerDuplicate_ok (Method.exec_lift_ok.mp h).1) rfl
  · simp only [Method.exec_bind_ok, Method.exec_assign] at h
    obtain ⟨_, _, _, ⟨⟩, h⟩ := h
    exact (hunwritten _).admits (admitReserved_ok hdeps hresult h) (.refl w')

theorem admitNew_ok (hdeps : deps.objectives = true) {context : ControlContextReference}
    {key fingerprint : String} {result : AdmissionResult} {runId : String}
    (hresult : result.admittedRun = some runId)
    (h : (admitNew deps request context key fingerprint).exec admission w = (.ok result, w')) :
    Admits request runId w w' := by
  simp only [admitNew, Async.bind_eq, Async.exec_bind_ok, Method.exec_asAsync_ok,
    Method.tryCatch_eq, Method.exec_tryCatch_ok, Method.bind_eq, Method.liftM_eq,
    Method.exec_bind_ok] at h
  obtain ⟨identity, w₁, hidentity, now, w₂, hnow, l', h⟩ := h
  obtain ⟨-, rfl⟩ := Prod.mk.inj hidentity
  obtain ⟨-, rfl⟩ := Prod.mk.inj hnow
  have hunwritten (n : ℕ) : Unwritten w { w with sequence := n } := ⟨rfl, rfl⟩
  rcases h with h | ⟨error, _, _, -, _, _, _, -, _, _, _, -, h⟩
  · exact (hunwritten _).admits (admitUnderKey_ok hdeps hresult h) (.refl w')
  · split at h
    · cases h
      exact nomatch hresult
    · cases h

theorem admitAuthorized_ok (hdeps : deps.objectives = true) {context : ControlContextReference}
    {result : AdmissionResult} {runId : String} (hresult : result.admittedRun = some runId)
    (h : (admitAuthorized X deps request context).exec admission w = (.ok result, w')) :
    Admits request runId w w' := by
  simp only [admitAuthorized, Async.bind_eq, Async.exec_bind_ok] at h
  obtain ⟨existing, w₁, hget, h⟩ := h
  obtain ⟨-, rfl⟩ := Prod.mk.inj hget
  split at h
  · exact admitNew_ok hdeps hresult h
  · split at h
    · cases h
      exact nomatch hresult
    · obtain ⟨duplicate, w₂, hduplicate, h⟩ := Async.exec_bind_ok.mp h
      obtain ⟨hnone, hw⟩ := duplicateResult_ok hduplicate
      obtain rfl : w₂ = w := hw
      cases duplicate with
      | some answer =>
        cases h
        exact nomatch hresult.symm.trans hnone
      | none => exact admitNew_ok hdeps hresult h

theorem resolveContext_ok {answer : Except AdmissionResult ControlContextReference}
    (h : (resolveContext request).exec admission w = (.ok answer, w')) :
    w' = w ∧ ∀ result, answer = .error result → result.admittedRun = none := by
  simp only [resolveContext, Async.tryCatch_eq, Async.exec_tryCatch_ok, Async.bind_eq,
    Async.exec_bind_ok, Async.pure_eq, Async.exec_pure] at h
  obtain ⟨context, w₁, hresolve, ⟨⟩⟩ | ⟨error, w₁, hresolve, h⟩ := h
  · obtain ⟨-, rfl⟩ := Prod.mk.inj hresolve
    exact ⟨rfl, fun _ h => nomatch h⟩
  · have hw : w₁ = w := by
      rw [Async.exec_bind] at hresolve
      split at hresolve
      · cases hresolve
      · next hcall =>
        cases hresolve
        exact (Prod.mk.inj hcall).2.symm
    split at h
    · next code message =>
      cases h
      refine ⟨hw, ?_⟩
      rintro _ ⟨⟩
      cases code <;> rfl
    · cases h

/-- A request that is admitted is admitted as a new run. -/
theorem admit_admits (hdeps : deps.objectives = true) {result : AdmissionResult} {runId : String}
    (hresult : result.admittedRun = some runId)
    (h : (admitObjective X deps (.ok request)).exec admission w = (.ok result, w')) :
    Admits request runId w w' := by
  simp only [admitObjective, admitValidated, Async.bind_eq, Async.exec_bind_ok] at h
  obtain ⟨context, w₁, hresolve, h⟩ := h
  obtain ⟨rfl, hrejected⟩ := resolveContext_ok hresolve
  cases context with
  | error answer =>
    cases h
    exact nomatch hresult.symm.trans (hrejected _ rfl)
  | ok context =>
    obtain ⟨decision, w₂, hauthorize, h⟩ := Async.exec_bind_ok.mp h
    obtain ⟨-, rfl⟩ := Prod.mk.inj hauthorize
    split at h
    · cases h
      exact nomatch hresult
    · exact admitAuthorized_ok hdeps hresult h

/-! ## Sequences of admissions -/

/-- A request, and what surrounds the service while it is admitted. -/
structure Submission where
  surroundings : AdmissionSurroundings
  request : AdmissionRequest

section Sequence

variable (X : External) (deps : AdmissionDeps)

/-- One call of `admit`, with nothing else acting. -/
def submit (w : AdmissionWorld) (s : Submission) :
    Except AdmissionFailure AdmissionResult × AdmissionWorld :=
  (admitObjective X deps (.ok s.request)).exec admission { w with surroundings := s.surroundings }

/-- The run that a submission is admitted as. -/
def submittedRun (w : AdmissionWorld) (s : Submission) : Option String :=
  (submit X deps w s).1.toOption.bind AdmissionResult.admittedRun

/-- The world after a sequence of submissions. -/
def afterSubmissions (w : AdmissionWorld) (submissions : List Submission) : AdmissionWorld :=
  submissions.foldl (fun w s => (submit X deps w s).2) w

/-- Every submission of the sequence is admitted. -/
def Successful : AdmissionWorld → List Submission → Prop
  | _, [] => True
  | w, s :: ss => (submittedRun X deps w s).isSome = true ∧ Successful (submit X deps w s).2 ss

instance decidableSuccessful : (w : AdmissionWorld) → (ss : List Submission) →
    Decidable (Successful X deps w ss)
  | _, [] => inferInstanceAs (Decidable True)
  | w, s :: ss =>
    have := decidableSuccessful (submit X deps w s).2 ss
    inferInstanceAs (Decidable (_ ∧ _))

end Sequence

/-- The content and the project of the objective of a run. -/
def boundContent (w : AdmissionWorld) (runId : String) :
    Option (ObjectiveFingerprintContent × String) :=
  (w.stores.objectives.getByRunBinding runId).map fun o => (o.content, o.projectId)

/-- What a submission says the objective is. -/
def Submission.content (s : Submission) : ObjectiveFingerprintContent × String :=
  (s.request.content, s.request.projectId)

/-- The submissions save their objectives under one key. -/
def SameObjectiveKey (s t : Submission) : Prop :=
  s.request.objectiveId = t.request.objectiveId ∧
    s.request.objectiveVersion = t.request.objectiveVersion

instance (s t : Submission) : Decidable (SameObjectiveKey s t) :=
  inferInstanceAs (Decidable (_ ∧ _))

variable {s : Submission} {runId : String}

theorem admits_of_submittedRun (hdeps : deps.objectives = true)
    (h : submittedRun X deps w s = some runId) :
    Admits s.request runId w (submit X deps w s).2 := by
  obtain ⟨result, hresult, hrun⟩ := Option.bind_eq_some_iff.mp h
  have hexec : (submit X deps w s).1 = .ok result := by
    cases hs : (submit X deps w s).1 with
    | error e => simp [hs, Except.toOption] at hresult
    | ok a => simpa [hs, Except.toOption] using hresult
  exact (⟨rfl, rfl⟩ : Unwritten w { w with surroundings := s.surroundings }).admits
    (admit_admits hdeps hrun (Prod.ext hexec rfl)) (.refl _)

/-- The run is there, and is bound to the key of `s`. -/
structure BoundTo (w : AdmissionWorld) (runId : String) (s : Submission) : Prop where
  exists_run : (w.stores.runs.get runId).isSome = true
  byRun : w.stores.objectives.byRun.get runId =
    some (objectiveKey s.request.objectiveId s.request.objectiveVersion)

/-- An admission binds its run to the objective it saves. -/
theorem Admits.boundTo (h : Admits s.request runId w w') :
    BoundTo w' runId s ∧ boundContent w' runId = some s.content := by
  refine ⟨⟨h.stored, ?_⟩, ?_⟩
  · rw [h.objectives]
    exact JsMap.get_set_self _ _ _
  · simp only [boundContent, h.objectives, ObjectiveRepository.getByRunBinding,
      ObjectiveRepository.bindRun, JsMap.get_set_self, Option.bind_some]
    change (((w.stores.objectives.byIdentity.set _ (parseObjective s.request)).get _).map _) = _
    rw [parseObjective, JsMap.get_set_self]
    rfl

/-- An admission leaves the binding of an earlier run, and its objective unless it saves one
under the same key. -/
theorem BoundTo.admits {t : Submission} {runId' : String} (h : BoundTo w runId s)
    (ha : Admits t.request runId' w w') : BoundTo w' runId s ∧
      boundContent w' runId = if SameObjectiveKey t s then some t.content
        else boundContent w runId := by
  have hne : runId' ≠ runId := by
    rintro rfl
    simpa [ha.fresh] using h.exists_run
  have hbyRun : w'.stores.objectives.byRun.get runId =
      some (objectiveKey s.request.objectiveId s.request.objectiveVersion) := by
    rw [ha.objectives]
    exact (JsMap.get_set_ne _ _ hne).trans h.byRun
  refine ⟨⟨ha.keeps _ h.exists_run, hbyRun⟩, ?_⟩
  have hsaved : w'.stores.objectives.byIdentity = w.stores.objectives.byIdentity.set
      (objectiveKey t.request.objectiveId t.request.objectiveVersion)
      (parseObjective t.request) := by
    rw [ha.objectives]
    rfl
  simp only [boundContent, ObjectiveRepository.getByRunBinding, hbyRun, h.byRun,
    Option.bind_some, hsaved, JsMap.get_set]
  by_cases hkey : SameObjectiveKey t s
  · rw [if_pos hkey, if_pos (by rw [hkey.1, hkey.2])]
    rfl
  · rw [if_neg hkey, if_neg fun h => hkey (objectiveKey_inj h)]

theorem afterSubmissions_append (ss ts : List Submission) :
    afterSubmissions X deps w (ss ++ ts) =
      afterSubmissions X deps (afterSubmissions X deps w ss) ts :=
  List.foldl_append

theorem successful_append (ss ts : List Submission) : Successful X deps w (ss ++ ts) ↔
    Successful X deps w ss ∧ Successful X deps (afterSubmissions X deps w ss) ts := by
  induction ss generalizing w with
  | nil => exact iff_of_eq (true_and _).symm
  | cons t ss ih =>
    rw [List.cons_append, Successful, Successful, ih, and_assoc]
    rfl

/-- Bindings stay. -/
theorem BoundTo.after (hdeps : deps.objectives = true) (ss : List Submission)
    (h : BoundTo w runId s) (hss : Successful X deps w ss) :
    BoundTo (afterSubmissions X deps w ss) runId s := by
  induction ss generalizing w with
  | nil => exact h
  | cons t ss ih =>
    obtain ⟨id, hid⟩ := Option.isSome_iff_exists.mp hss.1
    exact ih (h.admits (admits_of_submittedRun hdeps hid)).1 hss.2

/-- What the last submission of a sequence does to the objective of an earlier run. -/
theorem BoundTo.after_concat (hdeps : deps.objectives = true) {ss : List Submission}
    {t : Submission} (h : BoundTo w runId s) (hss : Successful X deps w (ss ++ [t])) :
    boundContent (afterSubmissions X deps w (ss ++ [t])) runId =
      if SameObjectiveKey t s then some t.content
      else boundContent (afterSubmissions X deps w ss) runId := by
  obtain ⟨hss, ht⟩ := (successful_append ss [t]).mp hss
  obtain ⟨id, hid⟩ := Option.isSome_iff_exists.mp ht.1
  rw [afterSubmissions_append]
  exact ((h.after hdeps ss hss).admits (admits_of_submittedRun hdeps hid)).2

/-- While no later submission changes what is under its key, the objective stays as it was. -/
theorem BoundTo.content_after (hdeps : deps.objectives = true) (h : BoundTo w runId s)
    (hcontent : boundContent w runId = some s.content) (ss : List Submission)
    (hss : Successful X deps w ss) (hsame : ∀ t ∈ ss, SameObjectiveKey t s → t.content = s.content) :
    boundContent (afterSubmissions X deps w ss) runId = some s.content := by
  induction ss using List.reverseRecOn with
  | nil => exact hcontent
  | append_singleton ss t ih =>
    rw [h.after_concat hdeps hss]
    split
    · next hkey => rw [hsame t (by simp) hkey]
    · exact ih ((successful_append ss [t]).mp hss).1 fun t ht => hsame t (by simp [ht])

/-- In a sequence of admissions, the objective of an admitted run is at all later times what its
request submitted, exactly when no later request with the same objective id and version submits
another content or another project. -/
theorem objective_unchanged_iff {before after : List Submission} (hdeps : deps.objectives = true)
    (hall : Successful X deps w (before ++ s :: after))
    (hrun : submittedRun X deps (afterSubmissions X deps w before) s = some runId) :
    (∀ later, later <+: after →
      boundContent (afterSubmissions X deps w (before ++ s :: later)) runId = some s.content) ↔
    ∀ t ∈ after, SameObjectiveKey t s → t.content = s.content := by
  obtain ⟨-, -, hafter⟩ := (successful_append before (s :: after)).mp hall
  obtain ⟨hbound, hcontent⟩ := (admits_of_submittedRun hdeps hrun).boundTo
  have hsplit (later : List Submission) : afterSubmissions X deps w (before ++ s :: later) =
      afterSubmissions X deps (submit X deps (afterSubmissions X deps w before) s).2 later :=
    afterSubmissions_append before (s :: later)
  constructor
  · intro h t ht hkey
    obtain ⟨ss, ts, rfl⟩ := List.append_of_mem ht
    have hfirst := h (ss ++ [t]) ⟨ts, by simp⟩
    rw [hsplit, hbound.after_concat hdeps, if_pos hkey] at hfirst
    · exact Option.some.inj hfirst
    · refine ((successful_append (ss ++ [t]) ts).mp ?_).1
      simpa using hafter
  · rintro h later ⟨rest, rfl⟩
    rw [hsplit]
    exact hbound.content_after hdeps hcontent later ((successful_append later rest).mp hafter).1
      fun t ht => h t (by simp [ht])

/-! ## Two projects with one objective id -/

/-- Version 1 of `objective_1`, submitted by a project for an environment. -/
def submissionOf (projectId environment outcome : String)
    (h : projectId ≠ "" ∧ environment ≠ "" ∧ outcome ≠ "") : Submission :=
  ⟨openSurroundings, exampleRequest projectId environment outcome h⟩

/-- Two projects submit version 1 of `objective_1`: both are admitted, and the run of the first
then has the objective of the second. -/
theorem objective_changed_by_other_project :
    ∃ s t : Submission, Successful plainExternal ⟨true, none⟩ openWorld [s, t] ∧
      submittedRun plainExternal ⟨true, none⟩ openWorld s = some "run_1" ∧
      boundContent (afterSubmissions plainExternal ⟨true, none⟩ openWorld [s, t]) "run_1" ≠
        some s.content :=
  ⟨submissionOf "project_1" "production" "a" (by decide),
    submissionOf "project_2" "production" "b" (by decide), by decide +kernel⟩

/-- The same content submitted for a second environment leaves the objective of the first run
as it was. -/
theorem objective_unchanged_two_environments :
    boundContent (afterSubmissions plainExternal ⟨true, none⟩ openWorld
      [submissionOf "project_1" "production" "a" (by decide),
        submissionOf "project_1" "staging" "a" (by decide)]) "run_1" =
      some (submissionOf "project_1" "production" "a" (by decide)).content :=
  (@objective_unchanged_iff plainExternal ⟨true, none⟩ openWorld
    (submissionOf "project_1" "production" "a" (by decide)) "run_1" []
    [submissionOf "project_1" "staging" "a" (by decide)] rfl (by decide)
    (by decide)).mpr (by decide) _ List.prefix_rfl

end Orchestrator
