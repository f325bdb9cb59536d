import Orchestrator.Admission.Holdings
import Orchestrator.Admission.Scenario

/-!
# Exactly-once admission

Any number of `admit` calls run against the same stores, in any order of their calls, each free
to crash, while the control plane, the authorization service and the clock answer as they like.

* `admissions`: the protocol the calls follow, with what each of them holds beside the stores;
* `admit_sat`: each call follows it, and an accepted one leaves its key bound to its run;
* `admission_exactly_once`: over every run, an identity has at most one admitted run, every
  accepted result names it, accepted requests of one identity have the same content, and no lock
  is left when every call has returned.

The stores must not be rolled back under the feet of the others, so the transaction manager is
the in-memory one, or none.
-/

namespace Orchestrator

open Atomic Collections ObjectiveAdmissionService

variable {ι : Type} [DecidableEq ι]

/-- The admission stores; the environment moves what surrounds them. -/
def admissionSystem : System AdmissionSig AdmissionWorld AdmissionSurroundings where
  handler := admission
  env surroundings w := { w with surroundings := surroundings }

/-! ## The protocol -/

section Protocol

variable (X : External) (requests : ι → AdmissionRequest)

/-- What the stores look like beside what the admissions hold. -/
structure Consistent (a : AdmissionWorld × (ι → Holding)) : Prop where
  keyed : Keyed X requests a.1.stores.idempotency a.2
  created : Created X requests a.1.stores.runs a.2
  locked : Locked a.1.stores.locks a.2

/-- Bound keys stay as they are, and runs stay with their identity. -/
structure Moves (w w' : AdmissionWorld) : Prop where
  keys : ∀ k r, w.stores.idempotency.get k = some r → r.status ≠ .reserved →
    w'.stores.idempotency.get k = some r
  runs : ∀ id r, w.stores.runs.get id = some r →
    ∃ r', w'.stores.runs.get id = some r' ∧ r'.identity = r.identity

theorem Moves.refl (w : AdmissionWorld) : Moves w w := ⟨fun _ _ h _ => h, fun _ r h => ⟨r, h, rfl⟩⟩

theorem Moves.trans {w₁ w₂ w₃ : AdmissionWorld} (h : Moves w₁ w₂) (h' : Moves w₂ w₃) :
    Moves w₁ w₃ := by
  refine ⟨fun k r hr hst => h'.keys k r (h.keys k r hr hst) hst, fun id r hr => ?_⟩
  obtain ⟨r₂, hr₂, hid₂⟩ := h.runs id r hr
  obtain ⟨r₃, hr₃, hid₃⟩ := h'.runs id r₂ hr₂
  exact ⟨r₃, hr₃, hid₃.trans hid₂⟩

/-- Nothing happens to the keys that are bound. -/
theorem Moves.of_keys {w w' : AdmissionWorld} (hruns : w'.stores.runs = w.stores.runs)
    (hkeys : ∀ k r, w.stores.idempotency.get k = some r → r.status ≠ .reserved →
      w'.stores.idempotency.get k = some r) : Moves w w' :=
  ⟨hkeys, fun _ r hr => ⟨r, hruns ▸ hr, rfl⟩⟩

/-- One run is written, over one of the same identity if there was one. -/
theorem Moves.of_run {w w' : AdmissionWorld}
    (hkeys : w'.stores.idempotency = w.stores.idempotency) {id : String} {run : StoredRun}
    (hruns : w'.stores.runs = w.stores.runs.set id run)
    (hrun : ∀ r, w.stores.runs.get id = some r → run.identity = r.identity) : Moves w w' := by
  refine ⟨fun k r hr _ => hkeys ▸ hr, fun id' r hr => ?_⟩
  rw [hruns, JsMap.get_set]
  split
  · next hid =>
    subst hid
    exact ⟨run, rfl, hrun r hr⟩
  · exact ⟨r, hr, rfl⟩

/-- The protocol of admissions: the stores stay consistent with what each of them holds. -/
def admissions : Protocol admissionSystem ι Holding where
  note := Holding.note
  inv := Consistent X requests
  moves := Moves
  moves_refl := Moves.refl
  moves_trans _ _ _ := Moves.trans
  env_inv _ _ h := ⟨h.keyed, h.created, h.locked⟩
  env_moves _ _ := .of_keys rfl fun _ _ hr _ => hr

end Protocol

variable {X : External} {requests : ι → AdmissionRequest} {i : ι}
  {a b : AdmissionWorld × (ι → Holding)} {h : Holding} {log : Log AdmissionSig}

/-- The states after admission `i` makes the call `o`. -/
abbrev afterCall (i : ι) (a : AdmissionWorld × (ι → Holding)) (o : AdmissionOp) :
    AdmissionWorld × (ι → Holding) :=
  ((admission o a.1).2, Function.update a.2 i ((a.2 i).note ⟨o, (admission o a.1).1⟩))

/-- The call keeps the stores consistent, and the bound keys and the runs as they are. -/
def Kept (X : External) (requests : ι → AdmissionRequest) (i : ι)
    (a : AdmissionWorld × (ι → Holding)) (o : AdmissionOp) : Prop :=
  Consistent X requests (afterCall i a o) ∧ Moves a.1 (admission o a.1).2

/-- A call is made while the stores are consistent, and must keep them so. -/
theorem sat_call {o : AdmissionOp} {Q : Log AdmissionSig → AdmissionWorld × (ι → Holding) →
      Except AdmissionFailure o.Res → Prop} (ha : a.2 i = h)
    (hcall : ∀ b, Consistent X requests b → b.2 i = h → Moves a.1 b.1 →
      Kept X requests i b o ∧
        Q (⟨o, (admission o b.1).1⟩ :: log) (afterCall i b o) (admission o b.1).1) :
    (call o).Sat ((admissions X requests).env i) (admissions X requests).Safe Q log a := by
  refine (Async.sat_await o).mpr fun b r b' hrely hstep => ?_
  obtain ⟨hb, hmoves⟩ := hrely
  obtain ⟨hinv, rfl, rfl⟩ := hstep
  exact hcall b hinv (hb.trans ha) hmoves

/-! ## Calls that leave the stores alone -/

/-- The calls that touch neither the keys, nor the runs, nor the locks. -/
def Uncoupled : AdmissionOp → Prop
  | .resolve .. => True
  | .authorize .. => True
  | .getByKey _ => True
  | .nextIdentity => True
  | .nowIso => True
  | .appendEvent _ => True
  | .saveObjective _ => True
  | .bindRun .. => True
  | .getRun _ => True
  | _ => False

/-- A call that writes neither keys nor runs nor locks, and takes nothing. -/
theorem kept_of_unchanged {o : AdmissionOp} (hb : Consistent X requests b)
    (hkeys : (admission o b.1).2.stores.idempotency = b.1.stores.idempotency)
    (hruns : (admission o b.1).2.stores.runs = b.1.stores.runs)
    (hlocks : (admission o b.1).2.stores.locks = b.1.stores.locks)
    (hnote : (b.2 i).note ⟨o, (admission o b.1).1⟩ = b.2 i) :
    Kept X requests i b o ∧ (afterCall i b o).2 = b.2 := by
  have hstate : afterCall i b o = ((admission o b.1).2, b.2) := by
    rw [afterCall, hnote, Function.update_eq_self]
  refine ⟨⟨?_, .of_keys hruns fun k r hr _ => hkeys ▸ hr⟩, by rw [hstate]⟩
  rw [hstate]
  exact ⟨hkeys ▸ hb.keyed, hruns ▸ hb.created, hlocks ▸ hb.locked⟩

theorem kept_of_uncoupled {o : AdmissionOp} (ho : Uncoupled o) (hb : Consistent X requests b) :
    Kept X requests i b o ∧ (afterCall i b o).2 = b.2 := by
  cases o <;> first | exact kept_of_unchanged hb rfl rfl rfl rfl | exact ho.elim

/-- Such a call is answered, and leaves what the admission holds. -/
theorem sat_uncoupled {o : AdmissionOp} (ho : Uncoupled o)
    {Q : Log AdmissionSig → AdmissionWorld × (ι → Holding) →
      Except AdmissionFailure o.Res → Prop} (ha : a.2 i = h)
    (hQ : ∀ b, Consistent X requests b → b.2 i = h → Moves a.1 b.1 →
      ∀ b', b'.2 i = h → Moves b.1 b'.1 →
        Q (⟨o, (admission o b.1).1⟩ :: log) b' (admission o b.1).1) :
    (call o).Sat ((admissions X requests).env i) (admissions X requests).Safe Q log a := by
  refine sat_call ha fun b hb hh hbound => ?_
  obtain ⟨hkept, hnote⟩ := kept_of_uncoupled (i := i) ho hb
  refine ⟨hkept, hQ b hb hh hbound _ ?_ hkept.2⟩
  rw [hnote, hh]

/-! ## Accepted results -/

/-- The key of admission `i` is bound to a run, for the content that `i` submits. -/
def Accepted (X : External) (requests : ι → AdmissionRequest) (i : ι) (w : AdmissionWorld)
    (runId : String) : Prop :=
  ∃ r, w.stores.idempotency.get (keyOf X requests i) = some r ∧ r.status ≠ .reserved ∧
    r.fingerprint = fingerprintOf X requests i ∧ r.runId = some runId

/-- A result that is accepted names the run its key is bound to. -/
def Answers (X : External) (requests : ι → AdmissionRequest) (i : ι) (w : AdmissionWorld)
    (result : AdmissionResult) : Prop :=
  ∀ runId, result.acceptedRun = some runId → Accepted X requests i w runId

omit [DecidableEq ι] in
theorem Accepted.keeps {w w' : AdmissionWorld} {runId : String}
    (h : Accepted X requests i w runId) (hkeeps : Moves w w') :
    Accepted X requests i w' runId := by
  obtain ⟨r, hr, hst, hrest⟩ := h
  exact ⟨r, hkeeps.keys _ r hr hst, hst, hrest⟩

/-! ## Calls that write -/

section Writes

/-- A new run, or a new state of a run whose key is not bound yet. -/
theorem Consistent.setRun (hb : Consistent X requests b) (hbound : (b.2 i).bound = false)
    {runs : RunStore} {run : StoredRun}
    (hruns : Created X requests runs (Function.update b.2 i { b.2 i with run := some run })) :
    Consistent X requests
      (b.1.setRuns runs, Function.update b.2 i { b.2 i with run := some run }) := by
  refine ⟨hb.keyed.congr (proj_update Holding.reserved (by rfl)) fun j hj =>
    ⟨(proj_update Holding.bound (by rfl) j).trans hj, ?_⟩, hruns,
    hb.locked.congr (proj_update Holding.lock (by rfl))⟩
  have hji : j ≠ i := by
    rintro rfl
    exact absurd (hj.symm.trans hbound) (by simp)
  exact congrArg Holding.run (Function.update_of_ne hji _ _)

theorem RunStore.create_error {runs : RunStore} {r : StoredRun} {e : AdmissionFailure}
    (h : (runs.create r).1 = .error e) : (runs.create r).2 = runs := by
  rw [RunStore.create] at h ⊢
  split
  · rfl
  · next hget =>
    rw [if_neg hget] at h
    split
    · rfl
    · next hnone => simp [hnone] at h

/-- The run of an admission is created, or the call throws and writes nothing. -/
theorem kept_create (hb : Consistent X requests b) (hbound : (b.2 i).bound = false)
    (hnone : (b.2 i).run = none) (run : StoredRun) (hidentity : run.identity = (requests i).identity)
    (hkey : run.idempotencyKey = keyOf X requests i) :
    Kept X requests i b (.createRun run) ∧
      ((admission (.createRun run) b.1).1 = .ok run ∧
          (afterCall i b (.createRun run)).2 i = { b.2 i with run := some run } ∨
        (∃ e, (admission (.createRun run) b.1).1 = .error e) ∧
          (afterCall i b (.createRun run)).2 i = b.2 i) := by
  cases hcreate : (b.1.stores.runs.create run).1 with
  | ok run' =>
    obtain ⟨rfl, hcreated⟩ := hb.created.create hbound hnone hidentity hkey hcreate
    obtain ⟨-, hfresh, hruns, -⟩ := RunStore.create_ok hcreate
    have hstate : afterCall i b (.createRun run') =
        (b.1.setRuns (b.1.stores.runs.create run').2,
          Function.update b.2 i { b.2 i with run := some run' }) := by
      simp only [afterCall, admission, hcreate, Holding.note]
    refine ⟨⟨?_, .of_run rfl hruns fun r hr => ?_⟩, .inl ⟨hcreate, ?_⟩⟩
    · rw [hstate]
      exact hb.setRun hbound hcreated
    · rw [hfresh] at hr
      cases hr
    · rw [hstate]
      exact Function.update_self _ _ _
  | error e =>
    have hstate : afterCall i b (.createRun run) = b := by
      simp only [afterCall, admission, hcreate, Holding.note, Function.update_eq_self,
        RunStore.create_error hcreate]
      rfl
    have hsame : (admission (.createRun run) b.1).2 = b.1 := congrArg Prod.fst hstate
    refine ⟨⟨?_, ?_⟩, .inr ⟨⟨e, hcreate⟩, ?_⟩⟩
    · rwa [hstate]
    · rw [hsame]
      exact .refl b.1
    · rw [hstate]

/-- The run of an admission is moved from the state in which the admission last wrote it. -/
theorem kept_transition (hb : Consistent X requests b) (hbound : (b.2 i).bound = false)
    (run : StoredRun) (hrun : (b.2 i).run = some run) (next : RunState) (t : ℕ)
    (extras : RunExtras) :
    Kept X requests i b
        (.transitionRun run.runId run.state run.recordRevision next t extras) ∧
      (admission (.transitionRun run.runId run.state run.recordRevision next t extras) b.1).1 =
        .ok (RunStore.moved run next t extras) ∧
      (afterCall i b (.transitionRun run.runId run.state run.recordRevision next t extras)).2 i =
        { b.2 i with run := some (RunStore.moved run next t extras) } := by
  obtain ⟨hmoved, hcreated⟩ := hb.created.transition hbound hrun next t extras
  have hstate : afterCall i b
      (.transitionRun run.runId run.state run.recordRevision next t extras) =
        (b.1.setRuns (b.1.stores.runs.transition run.runId run.state run.recordRevision next t
          extras).2,
          Function.update b.2 i { b.2 i with run := some (RunStore.moved run next t extras) }) := by
    simp only [afterCall, admission, hmoved, Holding.note]
  obtain ⟨hget, -⟩ := hb.created.stored i run hrun
  have hruns : (b.1.stores.runs.transition run.runId run.state run.recordRevision next t
      extras).2 = b.1.stores.runs.set run.runId (RunStore.moved run next t extras) := by
    rw [RunStore.transition, hget]
    simp
  refine ⟨⟨?_, .of_run rfl hruns fun r hr => ?_⟩, hmoved, ?_⟩
  · rw [hstate]
    exact hb.setRun hbound hcreated
  · rw [hget] at hr
    cases hr
    rfl
  · rw [hstate]
    exact Function.update_self _ _ _

/-- The reservation of an admission whose run is admitted is bound to that run. -/
theorem kept_complete (hb : Consistent X requests b) (hreserved : (b.2 i).reserved = true)
    (run : StoredRun) (hrun : (b.2 i).run = some run) (hadmitted : run.state = .admitted) (t : ℕ) :
    Kept X requests i b (.completeKey (keyOf X requests i) run.runId t) ∧
      (admission (.completeKey (keyOf X requests i) run.runId t) b.1).1 = .ok () ∧
      (afterCall i b (.completeKey (keyOf X requests i) run.runId t)).2 i =
        { b.2 i with reserved := false, bound := true } ∧
      Accepted X requests i (admission (.completeKey (keyOf X requests i) run.runId t) b.1).2
        run.runId := by
  obtain ⟨hok, hkeyed⟩ := hb.keyed.complete hreserved hrun t
  have hstate : afterCall i b (.completeKey (keyOf X requests i) run.runId t) =
      (b.1.setIdempotency (b.1.stores.idempotency.complete (keyOf X requests i) run.runId t).2,
        Function.update b.2 i { b.2 i with reserved := false, bound := true }) := by
    simp only [afterCall, admission, hok, Holding.note]
  obtain ⟨r₀, hr₀, hst₀, hfp₀⟩ := hb.keyed.reserved i hreserved
  have hkeys : (b.1.stores.idempotency.complete (keyOf X requests i) run.runId t).2 =
      b.1.stores.idempotency.set (keyOf X requests i)
        (IdempotencyStore.bound r₀ run.runId t) := by
    rw [IdempotencyStore.complete, hr₀]
    simp only [if_pos hst₀]
  refine ⟨⟨?_, .of_keys rfl fun k r hr hst => ?_⟩, hok, ?_, ?_⟩
  · rw [hstate]
    exact ⟨hkeyed, hb.created.bind hrun hadmitted,
      hb.locked.congr (proj_update Holding.lock (by rfl))⟩
  · have hk : keyOf X requests i ≠ k := by
      rintro rfl
      rw [hr₀] at hr
      cases hr
      exact hst hst₀
    change JsMap.get (b.1.stores.idempotency.complete (keyOf X requests i) run.runId t).2 k = _
    rw [hkeys, JsMap.get_set_ne _ _ hk, hr]
  · rw [hstate]
    exact Function.update_self _ _ _
  · have hactive : (IdempotencyStore.bound r₀ run.runId t).status ≠ .reserved := by
      simp [IdempotencyStore.bound]
    refine ⟨IdempotencyStore.bound r₀ run.runId t, ?_, hactive, hfp₀, rfl⟩
    change JsMap.get (b.1.stores.idempotency.complete (keyOf X requests i) run.runId t).2 _ = _
    rw [hkeys, JsMap.get_set_self]

/-- The reservation of an admission is dropped. -/
theorem kept_releaseKey (hb : Consistent X requests b) (hreserved : (b.2 i).reserved = true) :
    Kept X requests i b (.releaseKey (keyOf X requests i)) ∧
      (afterCall i b (.releaseKey (keyOf X requests i))).2 i =
        { b.2 i with reserved := false } := by
  refine ⟨⟨⟨hb.keyed.release hreserved, hb.created.congr fun j =>
    ⟨proj_update Holding.run (by rfl) j, proj_update Holding.bound (by rfl) j⟩,
    hb.locked.congr (proj_update Holding.lock (by rfl))⟩, .of_keys rfl fun k r hr hst => ?_⟩,
    Function.update_self _ _ _⟩
  obtain ⟨r₀, hr₀, hst₀, -⟩ := hb.keyed.reserved i hreserved
  have hk : keyOf X requests i ≠ k := by
    rintro rfl
    rw [hr₀] at hr
    cases hr
    exact hst hst₀
  change JsMap.get (b.1.stores.idempotency.release (keyOf X requests i)) k = _
  rw [IdempotencyStore.release, hr₀]
  simp only [if_pos hst₀]
  rw [JsMap.get_delete_ne _ hk, hr]

/-- The lock of an admission is given back. -/
theorem kept_releaseLock (hb : Consistent X requests b) {p runId : String}
    (hlock : (b.2 i).lock = some (p, runId)) :
    Kept X requests i b (.releaseLock p runId) ∧
      (afterCall i b (.releaseLock p runId)).2 i = { b.2 i with lock := none } := by
  exact ⟨⟨⟨hb.keyed.congr (proj_update Holding.reserved (by rfl)) fun j hj =>
    ⟨(proj_update Holding.bound (by rfl) j).trans hj, proj_update Holding.run (by rfl) j⟩,
    hb.created.congr fun j => ⟨proj_update Holding.run (by rfl) j, proj_update Holding.bound (by rfl) j⟩,
    hb.locked.release hlock⟩, .of_keys rfl fun _ _ hr _ => hr⟩, Function.update_self _ _ _⟩

/-- The key of an admission is reserved, or its record tells what became of it. -/
theorem kept_reserve (hb : Consistent X requests b) (t : ℕ) :
    Kept X requests i b (.reserve (keyOf X requests i) (fingerprintOf X requests i) t) ∧
      ∃ answer, (admission (.reserve (keyOf X requests i) (fingerprintOf X requests i) t) b.1).1 =
          .ok answer ∧
        match answer with
        | .new => (afterCall i b (.reserve (keyOf X requests i) (fingerprintOf X requests i) t)).2 i =
            { b.2 i with reserved := true }
        | .activeDuplicate runId _ | .completedDuplicate runId _ =>
            (afterCall i b (.reserve (keyOf X requests i) (fingerprintOf X requests i) t)).2 i =
              b.2 i ∧ ∀ id, runId = some id → Accepted X requests i b.1 id
        | .objectiveVersionConflict _ _ =>
            (afterCall i b (.reserve (keyOf X requests i) (fingerprintOf X requests i) t)).2 i =
              b.2 i := by
  cases hget : JsMap.get b.1.stores.idempotency (keyOf X requests i) with
  | none =>
    have hreserve : b.1.stores.idempotency.reserve (keyOf X requests i)
        (fingerprintOf X requests i) t = (.new, b.1.stores.idempotency.set (keyOf X requests i)
          (IdempotencyStore.reservation (keyOf X requests i) (fingerprintOf X requests i) t)) := by
      rw [IdempotencyStore.reserve, hget]
    have hstate : afterCall i b (.reserve (keyOf X requests i) (fingerprintOf X requests i) t) =
        (b.1.setIdempotency (b.1.stores.idempotency.set (keyOf X requests i)
          (IdempotencyStore.reservation (keyOf X requests i) (fingerprintOf X requests i) t)),
          Function.update b.2 i { b.2 i with reserved := true }) := by
      simp only [afterCall, admission, hreserve, Holding.note]
    refine ⟨⟨?_, .of_keys rfl fun k r hr hst => ?_⟩, .new, ?_, ?_⟩
    · rw [hstate]
      exact ⟨hb.keyed.reserve t hget, hb.created.congr fun j =>
        ⟨proj_update Holding.run (by rfl) j, proj_update Holding.bound (by rfl) j⟩,
        hb.locked.congr (proj_update Holding.lock (by rfl))⟩
    · have hk : keyOf X requests i ≠ k := by
        rintro rfl
        rw [hget] at hr
        cases hr
      simp only [admission, hreserve, AdmissionWorld.setIdempotency]
      rw [JsMap.get_set_ne _ _ hk, hr]
    · simp only [admission, hreserve]
    · rw [hstate]
      exact Function.update_self _ _ _
  | some r =>
    have hstore : (b.1.stores.idempotency.reserve (keyOf X requests i)
        (fingerprintOf X requests i) t).2 = b.1.stores.idempotency := by
      rw [IdempotencyStore.reserve, hget]
    have hsame {answer : IdempotencyReserveResult} (hnew : answer ≠ .new)
        (hanswer : (b.1.stores.idempotency.reserve (keyOf X requests i)
          (fingerprintOf X requests i) t).1 = answer) :
        Kept X requests i b (.reserve (keyOf X requests i) (fingerprintOf X requests i) t) ∧
          (afterCall i b (.reserve (keyOf X requests i) (fingerprintOf X requests i) t)).2 i =
            b.2 i := by
      obtain ⟨hkept, hnote⟩ := kept_of_unchanged (i := i)
        (o := .reserve (keyOf X requests i) (fingerprintOf X requests i) t) hb hstore rfl rfl (by
          simp only [admission, hanswer]
          cases answer <;> first | rfl | exact absurd rfl hnew)
      exact ⟨hkept, congrFun hnote i⟩
    have haccepted (hfp : ¬r.fingerprint ≠ fingerprintOf X requests i) (id : String)
        (hid : r.runId = some id) : Accepted X requests i b.1 id := by
      refine ⟨r, hget, fun hst => ?_, not_not.mp hfp, hid⟩
      rw [hb.keyed.unbound _ r hget hst] at hid
      cases hid
    by_cases hfp : r.fingerprint ≠ fingerprintOf X requests i
    · have hanswer : (b.1.stores.idempotency.reserve (keyOf X requests i)
          (fingerprintOf X requests i) t).1 = .objectiveVersionConflict r.runId r.fingerprint := by
        rw [IdempotencyStore.reserve, hget]
        exact if_pos hfp
      obtain ⟨hkept, hnote⟩ := hsame (by simp) hanswer
      exact ⟨hkept, _, congrArg Except.ok hanswer, hnote⟩
    · by_cases hst : r.status = .completed
      · have hanswer : (b.1.stores.idempotency.reserve (keyOf X requests i)
            (fingerprintOf X requests i) t).1 = .completedDuplicate r.runId r.fingerprint := by
          rw [IdempotencyStore.reserve, hget]
          exact (if_neg hfp).trans (if_pos hst)
        obtain ⟨hkept, hnote⟩ := hsame (by simp) hanswer
        exact ⟨hkept, _, congrArg Except.ok hanswer, hnote, haccepted hfp⟩
      · have hanswer : (b.1.stores.idempotency.reserve (keyOf X requests i)
            (fingerprintOf X requests i) t).1 = .activeDuplicate r.runId r.fingerprint := by
          rw [IdempotencyStore.reserve, hget]
          exact (if_neg hfp).trans (if_neg hst)
        obtain ⟨hkept, hnote⟩ := hsame (by simp) hanswer
        exact ⟨hkept, _, congrArg Except.ok hanswer, hnote, haccepted hfp⟩

/-- The lock of the project is acquired for an admission that holds none, or is someone
else's. -/
theorem kept_acquire (hb : Consistent X requests b) (hlock : (b.2 i).lock = none)
    (command : ProjectLock) :
    Kept X requests i b (.acquire command) ∧
      ∃ answer, (admission (.acquire command) b.1).1 = .ok answer ∧
        match answer with
        | .resourceConflict _ => (afterCall i b (.acquire command)).2 i = b.2 i
        | _ => (afterCall i b (.acquire command)).2 i =
            { b.2 i with lock := some (command.projectId, command.runId) } := by
  have hheld : ∃ held, (b.2 i).note ⟨.acquire command, .ok (b.1.stores.locks.acquire command).1⟩ =
      { b.2 i with lock := held } := by
    cases (b.1.stores.locks.acquire command).1 <;> exact ⟨_, rfl⟩
  obtain ⟨held, hnote⟩ := hheld
  have hlocked := hb.locked.acquire hlock command
  have hstate : afterCall i b (.acquire command) =
      (b.1.setLocks (b.1.stores.locks.acquire command).2,
        Function.update b.2 i { b.2 i with lock := held }) := by
    rw [← hnote]
    rfl
  have hkept : Kept X requests i b (.acquire command) := by
    refine ⟨?_, .of_keys rfl fun _ _ hr _ => hr⟩
    rw [hstate]
    refine ⟨hb.keyed.congr (proj_update Holding.reserved (by rfl)) fun j hj =>
      ⟨(proj_update Holding.bound (by rfl) j).trans hj, proj_update Holding.run (by rfl) j⟩,
      hb.created.congr fun j =>
        ⟨proj_update Holding.run (by rfl) j, proj_update Holding.bound (by rfl) j⟩, ?_⟩
    rw [← hnote]
    exact hlocked
  have hlock' : (afterCall i b (.acquire command)).2 i =
      (b.2 i).note ⟨.acquire command, .ok (b.1.stores.locks.acquire command).1⟩ :=
    Function.update_self _ _ _
  refine ⟨hkept, _, rfl, ?_⟩
  cases hanswer : (b.1.stores.locks.acquire command).1 <;> rw [hlock', hanswer] <;> rfl

end Writes

/-! ## Duplicates -/

theorem duplicateResult_sat {status : IdempotencyRecordStatus} {runId : Option String}
    {key : String} (ha : a.2 i = h)
    (hrun : ∀ id, runId = some id → Accepted X requests i a.1 id) :
    (duplicateResult status runId key).Sat ((admissions X requests).env i)
      (admissions X requests).Safe (fun _ b r => b.2 i = h ∧ Moves a.1 b.1 ∧
        ∃ duplicate, r = .ok duplicate ∧
          ∀ result, duplicate = some result → Answers X requests i b.1 result) log a := by
  have hconflict {code : AdmissionErrorCode} {message : String} (w : AdmissionWorld) :
      Answers X requests i w (.conflict code message) := fun _ h => nomatch h
  have hrefl : Moves a.1 a.1 := .refl a.1
  rw [duplicateResult.eq_def]
  split
  · split
    · exact ⟨ha, hrefl, _, rfl, fun _ h => nomatch h⟩
    · refine ⟨ha, hrefl, _, rfl, ?_⟩
      rintro _ ⟨⟩
      exact hconflict _
  · next id =>
    refine (Async.sat_bind _ _).mpr (sat_uncoupled (o := .getRun id) trivial ha
      fun b hb hh hbound b' hh' hbound' => ?_)
    have hkeeps : Moves a.1 b'.1 := hbound.trans hbound'
    have hanswer : (admission (.getRun id) b.1).1 = .ok (b.1.stores.runs.get id) := rfl
    rw [hanswer, onOk_ok]
    cases hget : b.1.stores.runs.get id with
    | none =>
      refine ⟨hh', hkeeps, _, rfl, ?_⟩
      rintro _ ⟨⟩
      exact hconflict _
    | some run =>
      have hid : run.runId = id := (hb.created.owned id run hget).1
      have haccepted : Accepted X requests i b'.1 run.runId := (hid ▸ hrun id rfl).keeps hkeeps
      simp only
      split <;> refine ⟨hh', hkeeps, _, rfl, ?_⟩ <;> rintro _ ⟨⟩ _ ⟨⟩ <;> exact haccepted

theorem answerDuplicate_sat {status : IdempotencyRecordStatus} {runId : Option String}
    {key : String} (ha : a.2 i = h)
    (hrun : ∀ id, runId = some id → Accepted X requests i a.1 id) :
    (answerDuplicate status runId key).Sat ((admissions X requests).env i)
      (admissions X requests).Safe (fun _ b r => b.2 i = h ∧
        ∃ result, r = .ok result ∧ Answers X requests i b.1 result) log a := by
  refine (Async.sat_bind _ _).mpr ((duplicateResult_sat ha hrun).mono ?_)
  rintro log b _ ⟨hb, -, duplicate, rfl, hanswer⟩
  refine ⟨hb, _, rfl, ?_⟩
  cases duplicate with
  | none => exact fun _ h => nomatch h
  | some result => exact hanswer result rfl

/-! ## The parts of an admission -/

section Parts

variable {identity : AdmissionIdentity} {now : ℕ} {l : Locals}

omit [DecidableEq ι] in
theorem orThrow_sat {α : Type} {E : Env AdmissionSig (AdmissionWorld × (ι → Holding))}
    {P : CallSpec AdmissionSig (AdmissionWorld × (ι → Holding))} {p : Call α}
    {code : AdmissionErrorCode} {message : String}
    {Q : Log AdmissionSig → AdmissionWorld × (ι → Holding) → Except AdmissionFailure α → Prop}
    (hp : p.Sat E P
      (onError (fun log b _ => Q log b (.error (.admission code message))) Q) log a) :
    (orThrow p code message).Sat E P Q log a :=
  (Async.sat_tryCatch _ _).mpr hp

/-- The run is created and admitted, or neither the stores nor the locals change. -/
theorem createRun_sat (ha : a.2 i = h) (hbound : h.bound = false) (hnone : h.run = none) :
    (createRun (requests i) identity (keyOf X requests i) now).Sat ((admissions X requests).env i)
      (admissions X requests).Safe (fun _ b r l' =>
        match r with
        | .ok run => b.2 i = { h with run := some run } ∧ run.state = .admitted ∧
            run.runId = identity.runId ∧ l' = { l with created := some run }
        | .error _ => b.2 i = h ∧ l' = l) log a l := by
  refine Method.Sat.bind_lift (R := fun _ b r => match r with
      | .ok run => run = receivedRun (requests i) identity (keyOf X requests i) now ∧
          b.2 i = { h with run := some run }
      | .error _ => b.2 i = h)
    (orThrow_sat (sat_call ha fun b hb hh _ => ?_)) (fun log b run hR => ?_) fun log b e hR =>
      ⟨hR, rfl⟩
  · subst hh
    obtain ⟨hkept, ⟨hok, hb'⟩ | ⟨⟨e, herror⟩, hb'⟩⟩ := kept_create hb hbound hnone
      (receivedRun (requests i) identity (keyOf X requests i) now) rfl rfl
    · rw [hok]
      exact ⟨hkept, rfl, hb'⟩
    · rw [herror]
      exact ⟨hkept, hb'⟩
  · obtain ⟨rfl, hb⟩ := hR
    refine Method.Sat.bind_assign (Method.Sat.bind_lift (R := fun _ b r => r = .ok () ∧
      b.2 i = { h with run := some (receivedRun (requests i) identity (keyOf X requests i) now) })
      ⟨rfl, hb⟩ (fun log b _ hR => ?_) fun log b e hR => nomatch hR.1)
    refine Method.Sat.bind_lift (R := fun _ b r => ∃ run, r = .ok run ∧ run.state = .admitted ∧
      run.runId = identity.runId ∧ b.2 i = { h with run := some run })
      ?_ (fun log b run hR => ?_) fun log b e hR => ?_
    · refine Async.Sat.bind_ofExcept (fun _ _ => sat_call hR.2 fun c hc hh _ => ?_) fun e he => ?_
      · obtain ⟨hkept, hok, hc'⟩ := kept_transition hc (by rw [hh]; exact hbound)
          (receivedRun (requests i) identity (keyOf X requests i) now) (by rw [hh])
          .admitted now ⟨some now, none⟩
        refine ⟨hkept, _, hok, rfl, rfl, ?_⟩
        rw [hh] at hc'
        exact hc'
      · cases he
    · obtain ⟨_, ⟨⟩, hst, hid, hb⟩ := hR
      exact ⟨hb, hst, hid, rfl⟩
    · obtain ⟨_, h, -⟩ := hR
      cases h

/-- Saving the objective takes nothing and always succeeds. -/
theorem saveObjective_sat {deps : AdmissionDeps} {run : StoredRun} (ha : a.2 i = h) :
    (saveObjective deps (requests i) run).Sat ((admissions X requests).env i)
      (admissions X requests).Safe
      (fun _ b r l' => r = .ok () ∧ b.2 i = h ∧ Moves a.1 b.1 ∧ l' = l) log a l := by
  rw [saveObjective]
  split
  · refine Method.Sat.bind_lift (R := fun _ b r => ∃ o, r = .ok o ∧ b.2 i = h ∧
      Moves a.1 b.1) (sat_uncoupled (o := .saveObjective (parseObjective (requests i)))
        trivial ha fun b _ _ hab b' hb' hbb' => ?_) (fun log b o hR => ?_)
      fun log b e ⟨_, he, _⟩ => nomatch he
    · exact ⟨_, rfl, hb', hab.trans hbb'⟩
    · obtain ⟨_, -, hb, hab⟩ := hR
      refine (Method.sat_lift _).mpr (sat_uncoupled (o := .bindRun run.runId _ _) trivial hb
        fun c _ _ hbc c' hc' hcc' => ⟨rfl, hc', (hab.trans hbc).trans hcc', rfl⟩)
  · exact ⟨rfl, ha, Moves.refl a.1, rfl⟩

/-- An admission that owns its key, under the lock of its project: it binds its key to its run,
or throws with nothing done. -/
theorem persist_sat {deps : AdmissionDeps} (ha : a.2 i = h) (hreserved : h.reserved = true)
    (hbound : h.bound = false) (hnone : h.run = none) :
    (persist deps (requests i) identity (keyOf X requests i) now).Sat
      ((admissions X requests).env i) (admissions X requests).Safe (fun _ b r l' =>
        match r with
        | .ok _ => ∃ run, run.runId = identity.runId ∧ Accepted X requests i b.1 run.runId ∧
            (b.2 i).lock = h.lock ∧ l' = { l with created := some run, bound := true }
        | .error _ => b.2 i = h ∧ l' = l) log a l := by
  refine Method.Sat.bind (createRun_sat ha hbound hnone) (fun log b run l₁ hR => ?_)
    fun log b e l₁ hR => hR
  obtain ⟨hb, hst, hid, rfl⟩ := hR
  refine Method.Sat.bind_lift (R := fun _ b r => ∃ event, r = .ok event ∧
    b.2 i = { h with run := some run })
    (orThrow_sat (sat_uncoupled (o := .appendEvent _) trivial hb fun b _ _ _ b' hb' _ =>
      ⟨_, rfl, hb'⟩)) (fun log b event hR => ?_) fun log b e ⟨_, he, _⟩ => nomatch he
  obtain ⟨_, -, hb⟩ := hR
  refine Method.Sat.bind_lift (R := fun _ b r => r = .ok () ∧
    b.2 i = { h with run := some run, reserved := false, bound := true } ∧
    Accepted X requests i b.1 run.runId) (orThrow_sat (sat_call hb fun c hc hh _ => ?_))
    (fun log b _ hR => ?_) fun log b e hR => nomatch hR.1
  · obtain ⟨hkept, hok, hc', haccepted⟩ := kept_complete hc (by rw [hh]; exact hreserved) run
      (by rw [hh]) hst now
    rw [hok]
    rw [hh] at hc'
    exact ⟨hkept, rfl, hc', haccepted⟩
  · obtain ⟨-, hb, haccepted⟩ := hR
    refine Method.Sat.bind_assign (Method.Sat.bind (saveObjective_sat hb)
      (fun log c _ l₂ hR => ?_) fun log c e l₂ hR => nomatch hR.1)
    obtain ⟨-, hc, hbc, rfl⟩ := hR
    refine ⟨run, hid, haccepted.keeps hbc, ?_, rfl⟩
    rw [hc]

/-- What is left to compensate when an admission that owns its key throws: the reservation, and
perhaps the lock. -/
structure Compensable (requests : ι → AdmissionRequest) (identity : AdmissionIdentity) (i : ι)
    (b : AdmissionWorld × (ι → Holding)) (l : Locals) : Prop where
  created : l.created = none
  bound : l.bound = false
  reserved : l.reserved = true
  holds : (b.2 i).reserved = true
  lock : (b.2 i).lock =
    if l.locked then some ((requests i).projectId, identity.runId) else none

/-- How an admission ends: it gave its lock back, and an accepted result names the run its key is
bound to. -/
def Ended (X : External) (requests : ι → AdmissionRequest) (i : ι)
    (b : AdmissionWorld × (ι → Holding)) (result : AdmissionResult) : Prop :=
  (b.2 i).lock = none ∧ Answers X requests i b.1 result

theorem admitLocked_sat {deps : AdmissionDeps} (hdeps : deps.transactions ≠ some .rollingBack)
    {context : ControlContextReference} (ha : a.2 i = h) (hreserved : h.reserved = true)
    (hbound : h.bound = false) (hnone : h.run = none)
    (hlock : h.lock = some ((requests i).projectId, identity.runId))
    (hl : l.created = none ∧ l.bound = false ∧ l.reserved = true) :
    (admitLocked deps (requests i) context identity (keyOf X requests i) now).Sat
      ((admissions X requests).env i) (admissions X requests).Safe (fun _ b r l' =>
        match r with
        | .ok result => Ended X requests i b result
        | .error _ => Compensable requests identity i b l') log a l := by
  have htransaction : withOptionalTransaction deps.transactions
      (persist deps (requests i) identity (keyOf X requests i) now) =
        persist deps (requests i) identity (keyOf X requests i) now := by
    rw [withOptionalTransaction.eq_def]
    split
    · next htx => exact absurd htx hdeps
    · rfl
  rw [admitLocked, htransaction]
  refine Method.Sat.bind_assign (Method.Sat.bind (persist_sat ha hreserved hbound hnone)
    (fun log b event l₁ hR => ?_) fun log b e l₁ hR => ?_)
  · obtain ⟨run, hid, haccepted, hb, rfl⟩ := hR
    refine Method.Sat.bind_read (Method.Sat.bind_lift (R := fun _ c r => r = .ok () ∧
      (c.2 i).lock = none ∧ Accepted X requests i c.1 run.runId)
      (orThrow_sat (sat_call rfl fun c hc hh hbc => ?_)) (fun log c _ hR => ?_)
      fun log c e hR => nomatch hR.1)
    · have hheld : (c.2 i).lock = some ((requests i).projectId, run.runId) := by
        rw [hh, hb, hlock, hid]
      obtain ⟨hkept, hc'⟩ := kept_releaseLock hc hheld
      refine ⟨hkept, rfl, ?_, (haccepted.keeps hbc).keeps hkept.2⟩
      rw [hc']
    · obtain ⟨-, hc, haccepted⟩ := hR
      exact Method.Sat.bind_assign ⟨hc, by rintro _ ⟨⟩; exact haccepted⟩
  · obtain ⟨hb, rfl⟩ := hR
    exact ⟨hl.1, hl.2.1, hl.2.2, by rw [hb, hreserved], by rw [hb, hlock]; rfl⟩

theorem admitReserved_sat {deps : AdmissionDeps} (hdeps : deps.transactions ≠ some .rollingBack)
    {context : ControlContextReference} (ha : a.2 i = h) (hreserved : h.reserved = true)
    (hbound : h.bound = false) (hnone : h.run = none) (hlock : h.lock = none)
    (hl : l.created = none ∧ l.bound = false ∧ l.reserved = true ∧ l.locked = false) :
    (admitReserved deps (requests i) context identity (keyOf X requests i) now).Sat
      ((admissions X requests).env i) (admissions X requests).Safe (fun _ b r l' =>
        match r with
        | .ok result => Ended X requests i b result
        | .error _ => Compensable requests identity i b l') log a l := by
  refine Method.Sat.bind_lift (R := fun _ b r => ∃ answer, r = .ok answer ∧
      ((∃ lock, answer = .resourceConflict lock) → b.2 i = h) ∧
      ((∀ lock, answer ≠ .resourceConflict lock) →
        b.2 i = { h with lock := some ((requests i).projectId, identity.runId) }))
    (sat_call ha fun b hb hh _ => ?_) (fun log b answer hR => ?_)
    fun log b e ⟨_, he, _⟩ => nomatch he
  · subst hh
    obtain ⟨hkept, answer, hanswer, hb'⟩ := kept_acquire hb hlock
      ⟨(requests i).projectId, identity.runId, (requests i).requesterId, now, now + lockTtlMs⟩
    refine ⟨hkept, answer, hanswer, ?_, fun hnot => ?_⟩
    · rintro ⟨lock, rfl⟩
      exact hb'
    · cases answer with
      | resourceConflict lock => exact absurd rfl (hnot lock)
      | lockAcquired lock => exact hb'
      | lockAlreadyOwned lock => exact hb'
  · obtain ⟨answer, ⟨⟩, hconflict, hheld⟩ := hR
    cases answer with
    | resourceConflict lock =>
      have hb := hconflict ⟨lock, rfl⟩
      refine ⟨hl.1, hl.2.1, hl.2.2.1, by rw [hb, hreserved], ?_⟩
      rw [hb, hlock, hl.2.2.2]
      rfl
    | lockAcquired lock =>
      have hb := hheld (by simp)
      exact admitLocked_sat hdeps hb hreserved hbound hnone rfl ⟨hl.1, hl.2.1, hl.2.2.1⟩
    | lockAlreadyOwned lock =>
      have hb := hheld (by simp)
      exact admitLocked_sat hdeps hb hreserved hbound hnone rfl ⟨hl.1, hl.2.1, hl.2.2.1⟩

/-- Compensation gives back the lock and the reservation, and never throws. -/
theorem compensate_sat (hl : Compensable requests identity i a l) :
    (compensate l (keyOf X requests i) (requests i).projectId identity.runId now).Sat
      ((admissions X requests).env i) (admissions X requests).Safe
      (fun _ b r => r = .ok () ∧ (b.2 i).lock = none) log a := by
  obtain ⟨hcreated, hbound, hreserved, hholds, hlock⟩ := hl
  have hskip : compensateCreated l now = pure () := by
    rw [compensateCreated, hcreated]
  have hrelease : releaseReserved l (keyOf X requests i) =
      call (.releaseKey (keyOf X requests i)) :=
    if_pos ⟨hreserved, by simp [hbound]⟩
  refine orThrow_sat (Async.Sat.bind (R := fun _ b r => r = .ok () ∧ b = a) ?_
    (fun log b _ hR => ?_) fun log b e hR => nomatch hR.1)
  · rw [hskip]
    exact ⟨rfl, rfl⟩
  · obtain ⟨-, rfl⟩ := hR
    refine Async.Sat.bind (R := fun _ c r => r = .ok () ∧ (c.2 i).reserved = true ∧
      (c.2 i).lock = none) ?_ (fun log c _ hR => ?_) fun log c e hR => nomatch hR.1
    · rw [releaseLocked]
      split
      · next hlocked =>
        rw [if_pos hlocked] at hlock
        refine sat_call rfl fun c hc hh _ => ?_
        have hheld : (c.2 i).lock = some ((requests i).projectId, identity.runId) := by
          rw [hh, hlock]
        obtain ⟨hkept, hc'⟩ := kept_releaseLock hc hheld
        refine ⟨hkept, rfl, ?_, ?_⟩
        · rw [hc', hh, hholds]
        · rw [hc']
      · next hlocked =>
        rw [if_neg hlocked] at hlock
        exact ⟨rfl, hholds, hlock⟩
    · obtain ⟨-, hreserved', hlock'⟩ := hR
      rw [hrelease]
      refine sat_call rfl fun d hd hh _ => ?_
      obtain ⟨hkept, hd'⟩ := kept_releaseKey (i := i) hd (by rw [hh, hreserved'])
      refine ⟨hkept, rfl, ?_⟩
      rw [hd', hh, hlock']

theorem admitUnderKey_sat {deps : AdmissionDeps} (hdeps : deps.transactions ≠ some .rollingBack)
    {context : ControlContextReference} (ha : a.2 i = .nothing) :
    (admitUnderKey deps (requests i) context identity (keyOf X requests i)
      (fingerprintOf X requests i) now).Sat ((admissions X requests).env i)
      (admissions X requests).Safe (fun _ b r l' =>
        match r with
        | .ok result => Ended X requests i b result
        | .error _ => Compensable requests identity i b l') log a .initial := by
  refine Method.Sat.bind_lift (R := fun _ b r => ∃ answer, r = .ok answer ∧ match answer with
      | .new => b.2 i = { Holding.nothing with reserved := true }
      | .activeDuplicate runId _ | .completedDuplicate runId _ => b.2 i = .nothing ∧
          ∀ id, runId = some id → Accepted X requests i b.1 id
      | .objectiveVersionConflict _ _ => b.2 i = .nothing)
    (sat_call ha fun b hb hh _ => ?_) (fun log b answer hR => ?_)
    fun log b e ⟨_, he, _⟩ => nomatch he
  · obtain ⟨hkept, answer, hanswer, hb'⟩ := kept_reserve (i := i) hb now
    refine ⟨hkept, answer, hanswer, ?_⟩
    rw [hh] at hb'
    cases answer with
    | new => exact hb'
    | activeDuplicate runId fp => exact ⟨hb'.1, fun id hid => (hb'.2 id hid).keeps hkept.2⟩
    | completedDuplicate runId fp => exact ⟨hb'.1, fun id hid => (hb'.2 id hid).keeps hkept.2⟩
    | objectiveVersionConflict runId fp => exact hb'
  · obtain ⟨answer, ⟨⟩, hb⟩ := hR
    cases answer with
    | new =>
      exact Method.Sat.bind_assign (admitReserved_sat hdeps hb rfl rfl rfl rfl ⟨rfl, rfl, rfl, rfl⟩)
    | activeDuplicate runId fp =>
      refine (Method.sat_lift _).mpr ((answerDuplicate_sat hb.1 hb.2).mono ?_)
      rintro log c _ ⟨hc, result, rfl, hanswer⟩
      exact ⟨by rw [hc]; rfl, hanswer⟩
    | completedDuplicate runId fp =>
      refine (Method.sat_lift _).mpr ((answerDuplicate_sat hb.1 hb.2).mono ?_)
      rintro log c _ ⟨hc, result, rfl, hanswer⟩
      exact ⟨by rw [hc]; rfl, hanswer⟩
    | objectiveVersionConflict runId fp => exact ⟨by rw [hb]; rfl, fun _ h => nomatch h⟩

/-- How an admission is over: it holds no lock, and if it returned, an accepted result names the
run its key is bound to. -/
def Over (X : External) (requests : ι → AdmissionRequest) (i : ι)
    (b : AdmissionWorld × (ι → Holding)) (r : Except AdmissionFailure AdmissionResult) : Prop :=
  (b.2 i).lock = none ∧ ∀ result, r = .ok result → Answers X requests i b.1 result

omit [DecidableEq ι] in
theorem over_error {e : AdmissionFailure} (hb : (b.2 i).lock = none) :
    Over X requests i b (.error e) := ⟨hb, fun _ h => nomatch h⟩

omit [DecidableEq ι] in
theorem over_ok {result : AdmissionResult} (hb : Ended X requests i b result) :
    Over X requests i b (.ok result) := by
  refine ⟨hb.1, ?_⟩
  rintro _ ⟨⟩
  exact hb.2

omit [DecidableEq ι] in
/-- A result that is not accepted needs nothing. -/
theorem ended_of_none {result : AdmissionResult} (hb : b.2 i = .nothing)
    (hresult : result.acceptedRun = none) : Ended X requests i b result := by
  refine ⟨by rw [hb]; rfl, fun runId hrun => ?_⟩
  rw [hresult] at hrun
  cases hrun

theorem admitNew_sat {deps : AdmissionDeps} (hdeps : deps.transactions ≠ some .rollingBack)
    {context : ControlContextReference} (ha : a.2 i = .nothing) :
    (admitNew deps (requests i) context (keyOf X requests i) (fingerprintOf X requests i)).Sat
      ((admissions X requests).env i) (admissions X requests).Safe
      (fun _ b r => Over X requests i b r) log a := by
  refine Async.Sat.bind (R := fun _ b r => ∃ identity, r = .ok identity ∧ b.2 i = .nothing)
    (sat_uncoupled (o := .nextIdentity) trivial ha fun b _ _ _ b' hb' _ => ⟨_, rfl, hb'⟩)
    (fun log b identity hR => ?_) fun log b e ⟨_, he, _⟩ => nomatch he
  obtain ⟨_, -, hb⟩ := hR
  refine Async.Sat.bind (R := fun _ c r => ∃ now, r = .ok now ∧ c.2 i = .nothing)
    (sat_uncoupled (o := .nowIso) trivial hb fun c _ _ _ c' hc' _ => ⟨_, rfl, hc'⟩)
    (fun log c now hR => ?_) fun log c e ⟨_, he, _⟩ => nomatch he
  obtain ⟨_, -, hc⟩ := hR
  refine (Method.sat_asAsync _).mpr (Method.Sat.tryCatch (admitUnderKey_sat hdeps hc)
    (fun log d result l hd => over_ok hd) fun log d error l hd => ?_)
  refine Method.Sat.bind_read (Method.Sat.bind_lift (compensate_sat hd)
    (fun log e _ he => ?_) fun log e _ he => nomatch he.1)
  split
  · exact over_ok ⟨he.2, fun _ h => nomatch h⟩
  · exact over_error he.2

theorem admitAuthorized_sat {deps : AdmissionDeps} (hdeps : deps.transactions ≠ some .rollingBack)
    {context : ControlContextReference} (ha : a.2 i = .nothing) :
    (admitAuthorized X deps (requests i) context).Sat ((admissions X requests).env i)
      (admissions X requests).Safe (fun _ b r => Over X requests i b r) log a := by
  refine Async.Sat.bind (R := fun _ b r => ∃ existing, r = .ok existing ∧ b.2 i = .nothing ∧
      ∀ record, existing = some record → record.fingerprint = fingerprintOf X requests i →
        ∀ id, record.runId = some id → Accepted X requests i b.1 id)
    (sat_uncoupled (o := .getByKey (keyOf X requests i)) trivial ha
      fun b hb _ _ b' hb' hbb' => ?_)
    (fun log b existing hR => ?_) fun log b e ⟨_, he, _⟩ => nomatch he
  · refine ⟨_, rfl, hb', fun record hrecord hfp id hid => ?_⟩
    refine Accepted.keeps ⟨record, hrecord, fun hst => ?_, hfp, hid⟩ hbb'
    rw [hb.keyed.unbound _ record hrecord hst] at hid
    cases hid
  · obtain ⟨existing, ⟨⟩, hb, hrecord⟩ := hR
    cases existing with
    | none => exact admitNew_sat hdeps hb
    | some record =>
      refine (Async.sat_ite _ _ _).mpr ⟨fun _ => over_ok (ended_of_none hb rfl), fun hfp => ?_⟩
      refine Async.Sat.bind (duplicateResult_sat hb (hrecord record rfl (not_not.mp hfp)))
        (fun log c duplicate hR => ?_) fun log c e ⟨_, _, _, he, _⟩ => nomatch he
      obtain ⟨hc, -, duplicate, ⟨⟩, hanswers⟩ := hR
      cases duplicate with
      | none => exact admitNew_sat hdeps hc
      | some result => exact over_ok ⟨by rw [hc]; rfl, hanswers result rfl⟩

theorem resolveContext_sat (ha : a.2 i = h) : (resolveContext (requests i)).Sat
    ((admissions X requests).env i) (admissions X requests).Safe (fun _ b r => b.2 i = h ∧
      ∀ result, r = .ok (.error result) → result.acceptedRun = none) log a := by
  refine (Async.sat_tryCatch _ _).mpr (Async.Sat.bind (R := fun _ b _ => b.2 i = h)
    (sat_uncoupled (o := .resolve _ _) trivial ha fun b _ _ _ b' hb' _ => hb')
    (fun log b context hb => ⟨hb, fun _ h => nomatch h⟩) fun log b error hb => ?_)
  cases error with
  | controlPlane code message =>
    refine ⟨hb, ?_⟩
    rintro _ ⟨⟩
    cases code <;> rfl
  | admission code message => exact ⟨hb, fun _ h => nomatch h⟩
  | other message => exact ⟨hb, fun _ h => nomatch h⟩

/-- Each admission follows the protocol. -/
theorem admit_sat {deps : AdmissionDeps} (hdeps : deps.transactions ≠ some .rollingBack)
    (ha : a.2 i = .nothing) : (admitObjective X deps (.ok (requests i))).Sat
      ((admissions X requests).env i) (admissions X requests).Safe
      (fun _ b r => Over X requests i b r) log a := by
  refine Async.Sat.bind (resolveContext_sat ha) (fun log b answer hR => ?_)
    fun log b e hR => over_error (by rw [hR.1]; rfl)
  obtain ⟨hb, hrejected⟩ := hR
  cases answer with
  | error result => exact over_ok (ended_of_none hb (hrejected result rfl))
  | ok context =>
    refine Async.Sat.bind (R := fun _ c _ => c.2 i = .nothing)
      (sat_uncoupled (o := .authorize _ _ _) trivial hb fun c _ _ _ c' hc' _ => hc')
      (fun log c decision hc => ?_) fun log c e hc => over_error (by rw [hc]; rfl)
    exact (Async.sat_ite _ _ _).mpr ⟨fun _ => over_ok (ended_of_none hc rfl),
      fun _ => admitAuthorized_sat hdeps hc⟩

end Parts

/-! ## Every run -/

section Runs

variable {deps : AdmissionDeps}

/-- The admissions before any call, on empty stores. -/
def admissionPool (X : External) (deps : AdmissionDeps) (surroundings : AdmissionSurroundings)
    (identities : ℕ → AdmissionIdentity) (requests : ι → AdmissionRequest) :
    Pool AdmissionSig ι AdmissionWorld (Except AdmissionFailure AdmissionResult) :=
  Pool.init (.initial surroundings identities) fun i => (admitObjective X deps (.ok (requests i))).prog

/-- The run is in the store, and is `ADMITTED`. -/
def AdmittedIn (w : AdmissionWorld) (r : StoredRun) : Prop :=
  w.stores.runs.get r.runId = some r ∧ r.state = .admitted

/-- The run that a program returned as its request's. -/
def acceptedBy : Option (Prog AdmissionSig (Except AdmissionFailure AdmissionResult)) → Option String
  | some (.pure (.ok result)) => result.acceptedRun
  | _ => none

theorem acceptedBy_eq_some {runId : String}
    {p : Option (Prog AdmissionSig (Except AdmissionFailure AdmissionResult))}
    (h : acceptedBy p = some runId) :
    ∃ result, p = some (.pure (.ok result)) ∧ result.acceptedRun = some runId := by
  unfold acceptedBy at h
  split at h
  · exact ⟨_, rfl, h⟩
  · cases h

/-- Call `i` returned a result that names a run as its request's. -/
def AcceptedAs (pool : Pool AdmissionSig ι AdmissionWorld (Except AdmissionFailure AdmissionResult))
    (i : ι) (runId : String) : Prop :=
  acceptedBy (pool.prog i) = some runId

omit [DecidableEq ι] in
theorem consistent_initial (surroundings : AdmissionSurroundings)
    (identities : ℕ → AdmissionIdentity) :
    Consistent X requests (.initial surroundings identities, fun _ => .nothing) where
  keyed := ⟨(fun _ h => nomatch h), (fun _ _ h => nomatch h), (fun _ _ h => nomatch h),
    (fun _ _ h => nomatch h)⟩
  created := ⟨(fun _ _ h => nomatch h), (fun _ _ h => nomatch h), (fun _ _ _ _ h => nomatch h),
    (fun _ h => nomatch h)⟩
  locked := fun _ _ h => nomatch h

/-- In every run the admissions follow the protocol. -/
theorem admissionPool_holds (hdeps : deps.transactions ≠ some .rollingBack)
    (surroundings : AdmissionSurroundings) (identities : ℕ → AdmissionIdentity)
    (acts : List (Action ι AdmissionSurroundings)) :
    (admissions X requests).Holds (fun _ => .nothing) (fun i _ b r => Over X requests i b r)
      ((admissionPool X deps surroundings identities requests).exec admissionSystem acts) :=
  (Protocol.Holds.exec (Protocol.Holds.init (consistent_initial surroundings identities)
    fun _ => admit_sat hdeps rfl) acts).1

variable {pool : Pool AdmissionSig ι AdmissionWorld (Except AdmissionFailure AdmissionResult)}
  {g : ι → Holding}

/-- The key of an accepted call is bound. -/
theorem accepted_of_acceptedAs {runId : String}
    (hpool : (admissions X requests).Holds g (fun i _ b r => Over X requests i b r) pool)
    (h : AcceptedAs pool i runId) : Accepted X requests i pool.state runId := by
  obtain ⟨result, hprog, hrun⟩ := acceptedBy_eq_some h
  obtain ⟨b, hrely, -, hover⟩ := hpool.returned hprog
  exact (hover result rfl runId hrun).keeps hrely.2

omit [DecidableEq ι] in
/-- The run that a bound key names is admitted, and of the identity of the key. -/
theorem Accepted.admitted {runId : String} {w : AdmissionWorld} (hX : Function.Injective X.sha256)
    (hw : Consistent X requests (w, g)) (h : Accepted X requests i w runId) :
    ∃ r, AdmittedIn w r ∧ r.runId = runId ∧ r.identity = (requests i).identity := by
  obtain ⟨record, hget, hst, -, hid⟩ := h
  obtain ⟨j, run, hkey, hbound, hrun, hrunId, -⟩ := hw.keyed.active _ record hget hst
  obtain ⟨run', hrun', hadmitted⟩ := hw.created.admitted j hbound
  obtain rfl : run = run' := Option.some.inj (hrun.symm.trans hrun')
  obtain ⟨hstored, hidentity, -⟩ := hw.created.stored j run hrun
  exact ⟨run, ⟨hstored, hadmitted⟩, Option.some.inj (hrunId.symm.trans hid),
    hidentity.trans (objectiveIdempotencyKey_inj hX hkey)⟩

omit [DecidableEq ι] in
/-- Two accepted calls of one identity submitted the same content. -/
theorem Accepted.sameContent {j : ι} {runId runId' : String} {w : AdmissionWorld}
    (hX : Function.Injective X.sha256) (h : Accepted X requests i w runId)
    (h' : Accepted X requests j w runId') (hidentity : (requests i).identity = (requests j).identity) :
    SameContent (requests i).content (requests j).content := by
  obtain ⟨record, hget, -, hfp, -⟩ := h
  obtain ⟨record', hget', -, hfp', -⟩ := h'
  have hkey : keyOf X requests i = keyOf X requests j := by
    rw [keyOf, keyOf, hidentity]
  rw [hkey, hget'] at hget
  cases hget
  exact objectiveFingerprint_inj hX (hfp.symm.trans hfp')

/-- When every call has returned, no lock is left. -/
theorem locks_none (hpool : (admissions X requests).Holds g (fun i _ b r => Over X requests i b r)
      pool) (hall : ∀ i, ∃ r, pool.prog i = some (.pure r)) (p : String) :
    pool.state.stores.locks.get p = none := by
  cases hlock : pool.state.stores.locks.get p with
  | none => rfl
  | some lock =>
    obtain ⟨i, hi⟩ := hpool.inv.locked p lock hlock
    obtain ⟨r, hr⟩ := hall i
    obtain ⟨b, hrely, hnone, -⟩ := hpool.returned hr
    rw [hrely.1, hnone] at hi
    cases hi

/-- Over every run of any number of admissions: an identity never has two admitted runs, also
not at different times; an accepted result names the admitted run of its identity; accepted
requests of one identity have the same content; and when every call has returned, no lock is
left. -/
theorem admission_exactly_once (hX : Function.Injective X.sha256)
    (hdeps : deps.transactions ≠ some .rollingBack) (surroundings : AdmissionSurroundings)
    (identities : ℕ → AdmissionIdentity) (acts later : List (Action ι AdmissionSurroundings)) :
    let pool := (admissionPool X deps surroundings identities requests).exec admissionSystem acts
    let pool' := pool.exec admissionSystem later
    (∀ r r', AdmittedIn pool.state r → AdmittedIn pool'.state r' → r.identity = r'.identity →
      r.runId = r'.runId) ∧
    (∀ i runId, AcceptedAs pool i runId →
      ∃ r, AdmittedIn pool.state r ∧ r.runId = runId ∧ r.identity = (requests i).identity) ∧
    (∀ i j runId runId', AcceptedAs pool i runId → AcceptedAs pool j runId' →
      (requests i).identity = (requests j).identity →
      SameContent (requests i).content (requests j).content) ∧
    ((∀ i, ∃ r, pool.prog i = some (.pure r)) → ∀ p, pool.state.stores.locks.get p = none) := by
  intro pool pool'
  have hpool : (admissions X requests).Holds _ _ pool :=
    admissionPool_holds hdeps surroundings identities acts
  obtain ⟨hpool', hmoves⟩ := hpool.exec later
  refine ⟨fun r r' hr hr' hidentity => ?_, fun i runId h =>
    (accepted_of_acceptedAs hpool h).admitted hX hpool.inv, fun i j runId runId' h h' =>
    (accepted_of_acceptedAs hpool h).sameContent hX (accepted_of_acceptedAs hpool h'),
    locks_none hpool⟩
  obtain ⟨r'', hr'', hidentity''⟩ := hmoves.runs _ r hr.1
  have hsame := hpool'.inv.created.unique hr'' hr'.1 (hidentity''.trans hidentity)
  rw [← (hpool'.inv.created.owned _ r'' hr'').1, hsame]

/-- Two admissions of one request, one call of each in turn. -/
def inTurn : Pool AdmissionSig Bool AdmissionWorld (Except AdmissionFailure AdmissionResult) :=
  (admissionPool plainExternal ⟨true, none⟩ openSurroundings sequenceIdentity
    fun _ => exampleRequest "project_1" "production" "a" (by decide)).exec admissionSystem
      (List.replicate 20 [.run false, .run true]).flatten

/-- One of them is accepted, and the run that it names is admitted. -/
theorem admission_exactly_once_in_turn :
    ∃ r, AdmittedIn inTurn.state r ∧ r.runId = "run_1" ∧
      r.identity = ⟨"project_1", "objective_1", 1, "production"⟩ :=
  (admission_exactly_once (X := plainExternal) Function.injective_id (by decide) openSurroundings
    sequenceIdentity _ []).2.1 false "run_1"
      (by change acceptedBy _ = _; decide +kernel)

end Runs

end Orchestrator
