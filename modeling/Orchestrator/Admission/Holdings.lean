import Orchestrator.Admission.Service
import Orchestrator.Atomic.Protocol

/-!
# What admissions hold

Any number of admissions run against the same stores. `Holding` records what each one holds:
the reservation of its key, the lock it has to give back, the run it created, and whether it
bound its key. `Consistent` is what the stores then look like:

* `Keyed`: a reservation belongs to the one admission that made it, and a bound key names the
  run of the admission that bound it;
* `Created`: every run was created by one admission, and no key and no id has two runs;
* `Locked`: every lock is one that an admission has to give back.

Each store operation of an admission keeps them (`Keyed.reserve`, `Created.create`, ...).
-/

namespace Orchestrator

open Atomic Collections

/-! ## Holdings -/

/-- What an admission holds. -/
structure Holding where
  /-- It reserved its key, and has neither bound nor released it. -/
  reserved : Bool
  /-- The project it locked, and the run it locked it for. -/
  lock : Option (String × String)
  /-- The run it created, as it last wrote it. -/
  run : Option StoredRun
  /-- It bound its key. -/
  bound : Bool

namespace Holding

/-- What an admission holds at its start. -/
def nothing : Holding := ⟨false, none, none, false⟩

/-- What an admission holds after one of its calls. -/
def note (h : Holding) : Event AdmissionSig → Holding
  | ⟨.reserve _ _ _, .ok .new⟩ => { h with reserved := true }
  | ⟨.releaseKey _, _⟩ => { h with reserved := false }
  | ⟨.completeKey _ _ _, .ok _⟩ => { h with reserved := false, bound := true }
  | ⟨.acquire command, .ok (.lockAcquired _)⟩ =>
    { h with lock := some (command.projectId, command.runId) }
  | ⟨.acquire command, .ok (.lockAlreadyOwned _)⟩ =>
    { h with lock := some (command.projectId, command.runId) }
  | ⟨.releaseLock _ _, _⟩ => { h with lock := none }
  | ⟨.createRun _, .ok run⟩ => { h with run := some run }
  | ⟨.transitionRun _ _ _ _ _ _, .ok run⟩ => { h with run := some run }
  | _ => h

end Holding

variable {ι : Type} [DecidableEq ι]

section

variable (X : External) (requests : ι → AdmissionRequest)

/-- The idempotency key of an admission. -/
def keyOf (i : ι) : String := objectiveIdempotencyKey X (requests i).identity

/-- The fingerprint of what an admission submits. -/
def fingerprintOf (i : ι) : String := objectiveFingerprint X (requests i).content

/-- What the keys look like while admissions hold `g`. -/
structure Keyed (keys : IdempotencyStore) (g : ι → Holding) : Prop where
  reserved : ∀ i, (g i).reserved = true → ∃ r, keys.get (keyOf X requests i) = some r ∧
    r.status = .reserved ∧ r.fingerprint = fingerprintOf X requests i
  exclusive : ∀ i j, (g i).reserved = true → (g j).reserved = true →
    keyOf X requests i = keyOf X requests j → i = j
  unbound : ∀ k r, keys.get k = some r → r.status = .reserved → r.runId = none
  active : ∀ k r, keys.get k = some r → r.status ≠ .reserved → ∃ i run,
    keyOf X requests i = k ∧ (g i).bound = true ∧ (g i).run = some run ∧
      r.runId = some run.runId ∧ r.fingerprint = fingerprintOf X requests i

/-- What the runs look like while admissions hold `g`. -/
structure Created (runs : RunStore) (g : ι → Holding) : Prop where
  stored : ∀ i run, (g i).run = some run → runs.get run.runId = some run ∧
    run.identity = (requests i).identity ∧ run.idempotencyKey = keyOf X requests i
  owned : ∀ id run, runs.get id = some run → run.runId = id ∧ ∃ i, (g i).run = some run
  distinct : ∀ i j r r', (g i).run = some r → (g j).run = some r' →
    (r.runId = r'.runId ∨ keyOf X requests i = keyOf X requests j) → i = j
  admitted : ∀ i, (g i).bound = true → ∃ run, (g i).run = some run ∧ run.state = .admitted

end

/-- Every lock is one that an admission has to give back. -/
def Locked (locks : ProjectLocks) (g : ι → Holding) : Prop :=
  ∀ p lock, locks.get p = some lock → ∃ i, (g i).lock = some (p, lock.runId)

variable {X : External} {requests : ι → AdmissionRequest} {keys : IdempotencyStore}
  {runs : RunStore} {locks : ProjectLocks} {g g' : ι → Holding} {i : ι}

/-- Only the admission that came to hold `h`, and those that held one before, hold a
reservation. -/
theorem reserved_update {h : Holding} {j : ι} (hj : (Function.update g i h j).reserved = true) :
    (j = i ∧ h.reserved = true) ∨ (j ≠ i ∧ (g j).reserved = true) := by
  by_cases hji : j = i
  · subst hji
    exact .inl ⟨rfl, by simpa using hj⟩
  · exact .inr ⟨hji, by simpa [Function.update_of_ne hji] using hj⟩

/-! ## Keys -/

namespace Keyed

omit [DecidableEq ι] in
/-- The keys depend on the reservations, and on the runs of bound keys. -/
theorem congr (h : Keyed X requests keys g) (hreserved : ∀ j, (g' j).reserved = (g j).reserved)
    (hbound : ∀ j, (g j).bound = true → (g' j).bound = true ∧ (g' j).run = (g j).run) :
    Keyed X requests keys g' := by
  refine ⟨fun j hj => h.reserved j ((hreserved j).symm.trans hj), fun j j' hj hj' =>
    h.exclusive j j' ((hreserved j).symm.trans hj) ((hreserved j').symm.trans hj'),
    h.unbound, fun k r hr hst => ?_⟩
  obtain ⟨j, run, hkey, hj, hrun, hrest⟩ := h.active k r hr hst
  exact ⟨j, run, hkey, (hbound j hj).1, (hbound j hj).2.trans hrun, hrest⟩

/-- A free key is reserved. -/
theorem reserve (h : Keyed X requests keys g) (t : ℕ)
    (hnone : keys.get (keyOf X requests i) = none) :
    Keyed X requests (keys.set (keyOf X requests i) (IdempotencyStore.reservation
      (keyOf X requests i) (fingerprintOf X requests i) t))
      (Function.update g i { g i with reserved := true }) := by
  have hother (j : ι) (hj : (g j).reserved = true) : keyOf X requests j ≠ keyOf X requests i := by
    intro hkey
    obtain ⟨r, hr, -⟩ := h.reserved j hj
    rw [hkey, hnone] at hr
    cases hr
  refine ⟨fun j hj => ?_, fun j j' hj hj' hkey => ?_, fun k r hr => ?_, fun k r hr hst => ?_⟩
  · rcases reserved_update hj with ⟨rfl, -⟩ | ⟨-, hj⟩
    · exact ⟨_, JsMap.get_set_self _ _ _, rfl, rfl⟩
    · rw [JsMap.get_set_ne _ _ (hother j hj).symm]
      exact h.reserved j hj
  · rcases reserved_update hj with ⟨hji, -⟩ | ⟨-, hj⟩ <;>
      rcases reserved_update hj' with ⟨hji', -⟩ | ⟨-, hj'⟩
    · rw [hji, hji']
    · exact absurd (hji ▸ hkey).symm (hother j' hj')
    · exact absurd (hji' ▸ hkey) (hother j hj)
    · exact h.exclusive j j' hj hj' hkey
  · rw [JsMap.get_set] at hr
    split at hr
    · cases hr
      exact fun _ => rfl
    · exact h.unbound k r hr
  · rw [JsMap.get_set] at hr
    split at hr
    · cases hr
      exact absurd rfl hst
    · obtain ⟨j, run, hkey, hbound, hrun, hrest⟩ := h.active k r hr hst
      exact ⟨j, run, hkey, (proj_update Holding.bound (by rfl) j).trans hbound,
        (proj_update Holding.run (by rfl) j).trans hrun, hrest⟩

/-- The admission that reserved a key drops it. -/
theorem release (h : Keyed X requests keys g) (hi : (g i).reserved = true) :
    Keyed X requests (IdempotencyStore.release keys (keyOf X requests i))
      (Function.update g i { g i with reserved := false }) := by
  obtain ⟨r₀, hr₀, hst₀, -⟩ := h.reserved i hi
  rw [IdempotencyStore.release, hr₀]
  simp only [if_pos hst₀]
  have hkept {k : String} {r : IdempotencyRecord}
      (hr : JsMap.get (JsMap.delete keys (keyOf X requests i)) k = some r) :
      keys.get k = some r := by
    rw [JsMap.get_delete] at hr
    split at hr
    · cases hr
    · exact hr
  refine ⟨fun j hj => ?_, fun j j' hj hj' hkey => ?_, fun k r hr => h.unbound k r (hkept hr),
    fun k r hr hst => ?_⟩
  · rcases reserved_update hj with ⟨-, hj⟩ | ⟨hne, hj⟩
    · cases hj
    · rw [JsMap.get_delete_ne _ fun hkey => hne (h.exclusive j i hj hi hkey.symm)]
      exact h.reserved j hj
  · rcases reserved_update hj with ⟨-, hj⟩ | ⟨-, hj⟩
    · cases hj
    · rcases reserved_update hj' with ⟨-, hj'⟩ | ⟨-, hj'⟩
      · cases hj'
      · exact h.exclusive j j' hj hj' hkey
  · obtain ⟨j, run, hkey, hbound, hrun, hrest⟩ := h.active k r (hkept hr) hst
    exact ⟨j, run, hkey, (proj_update Holding.bound (by rfl) j).trans hbound,
      (proj_update Holding.run (by rfl) j).trans hrun, hrest⟩

/-- The admission that reserved a key binds it to its run. -/
theorem complete (h : Keyed X requests keys g) (hi : (g i).reserved = true) {run : StoredRun}
    (hrun : (g i).run = some run) (t : ℕ) :
    (IdempotencyStore.complete keys (keyOf X requests i) run.runId t).1 = .ok () ∧
    Keyed X requests (IdempotencyStore.complete keys (keyOf X requests i) run.runId t).2
      (Function.update g i { g i with reserved := false, bound := true }) := by
  obtain ⟨r₀, hr₀, hst₀, hfp₀⟩ := h.reserved i hi
  rw [IdempotencyStore.complete, hr₀]
  simp only [if_pos hst₀, true_and]
  refine ⟨fun j hj => ?_, fun j j' hj hj' hkey => ?_, fun k r hr => ?_, fun k r hr hst => ?_⟩
  · rcases reserved_update hj with ⟨-, hj⟩ | ⟨hne, hj⟩
    · cases hj
    · rw [JsMap.get_set_ne _ _ fun hkey => hne (h.exclusive j i hj hi hkey.symm)]
      exact h.reserved j hj
  · rcases reserved_update hj with ⟨-, hj⟩ | ⟨-, hj⟩
    · cases hj
    · rcases reserved_update hj' with ⟨-, hj'⟩ | ⟨-, hj'⟩
      · cases hj'
      · exact h.exclusive j j' hj hj' hkey
  · rw [JsMap.get_set] at hr
    split at hr
    · cases hr
      exact fun hst => nomatch hst
    · exact h.unbound k r hr
  · rw [JsMap.get_set] at hr
    split at hr
    · next hkey =>
      cases hr
      refine ⟨i, run, hkey, ?_⟩
      rw [Function.update_self]
      exact ⟨rfl, hrun, rfl, hfp₀⟩
    · obtain ⟨j, run', hkey, hbound, hrun', hrest⟩ := h.active k r hr hst
      refine ⟨j, run', hkey, ?_⟩
      by_cases hji : j = i
      · subst hji
        rw [Function.update_self]
        exact ⟨rfl, hrun', hrest⟩
      · rw [Function.update_of_ne hji]
        exact ⟨hbound, hrun', hrest⟩

end Keyed

/-! ## Runs -/

/-- A run that was created, and a run that the store had, differ in id and in key. -/
theorem RunStore.create_ok {r r' : StoredRun} (h : (runs.create r).1 = .ok r') :
    r' = r ∧ runs.get r.runId = none ∧ (runs.create r).2 = runs.set r.runId r ∧
      ∀ id existing, runs.get id = some existing → existing.idempotencyKey ≠ r.idempotencyKey := by
  rw [RunStore.create] at h ⊢
  by_cases hget : (runs.get r.runId).isSome = true
  · simp [hget] at h
  · rw [if_neg hget] at h ⊢
    cases hrefusal : runs.values.findSome? (RunStore.refusal r) with
    | some message => simp [hrefusal] at h
    | none =>
      simp only [hrefusal] at h
      refine ⟨(Except.ok.inj h).symm, by simpa using hget, rfl, fun id existing hexisting hkey => ?_⟩
      have hnone := List.findSome?_eq_none_iff.mp hrefusal existing
        (JsMap.mem_values.mpr ⟨id, hexisting⟩)
      simp [RunStore.refusal, hkey] at hnone

namespace Created

omit [DecidableEq ι] in
/-- The runs depend on who created and bound them. -/
theorem congr (h : Created X requests runs g)
    (hg : ∀ j, (g' j).run = (g j).run ∧ (g' j).bound = (g j).bound) :
    Created X requests runs g' := by
  obtain ⟨h₁, h₂, h₃, h₄⟩ := h
  simp only [← (hg _).1, ← (hg _).2] at h₁ h₂ h₃ h₄
  exact ⟨h₁, h₂, h₃, h₄⟩

/-- An admission that has no run, or has not bound its run, writes a run under an id that no
other admission's run has. -/
theorem write (h : Created X requests runs g) (hi : (g i).bound = false) {run : StoredRun}
    (hidentity : run.identity = (requests i).identity)
    (hkey : run.idempotencyKey = keyOf X requests i)
    (hother : ∀ j r, j ≠ i → (g j).run = some r →
      r.runId ≠ run.runId ∧ keyOf X requests j ≠ keyOf X requests i)
    (hown : ∀ r, (g i).run = some r → r.runId = run.runId) :
    Created X requests (runs.set run.runId run)
      (Function.update g i { g i with run := some run }) := by
  refine ⟨fun j r hj => ?_, fun id r hget => ?_, fun j j' r r' hj hj' hsame => ?_, fun j hj => ?_⟩
  · by_cases hji : j = i
    · subst hji
      rw [Function.update_self] at hj
      cases hj
      exact ⟨JsMap.get_set_self _ _ _, hidentity, hkey⟩
    · rw [Function.update_of_ne hji] at hj
      rw [JsMap.get_set_ne _ _ (hother j r hji hj).1.symm]
      exact h.stored j r hj
  · rw [JsMap.get_set] at hget
    split at hget
    · next hid =>
      cases hget
      exact ⟨hid, i, by rw [Function.update_self]⟩
    · next hid =>
      obtain ⟨hrun, j, hj⟩ := h.owned id r hget
      have hji : j ≠ i := by
        rintro rfl
        exact hid ((hown r hj).symm.trans hrun)
      exact ⟨hrun, j, by rwa [Function.update_of_ne hji]⟩
  · by_cases hji : j = i <;> by_cases hji' : j' = i
    · rw [hji, hji']
    · subst hji
      rw [Function.update_self] at hj
      rw [Function.update_of_ne hji'] at hj'
      cases hj
      obtain ⟨hid, hkeys⟩ := hother j' r' hji' hj'
      exact (hsame.elim (fun h => hid h.symm) fun h => hkeys h.symm).elim
    · subst hji'
      rw [Function.update_self] at hj'
      rw [Function.update_of_ne hji] at hj
      cases hj'
      obtain ⟨hid, hkeys⟩ := hother j r hji hj
      exact (hsame.elim hid hkeys).elim
    · rw [Function.update_of_ne hji] at hj
      rw [Function.update_of_ne hji'] at hj'
      exact h.distinct j j' r r' hj hj' hsame
  · by_cases hji : j = i
    · subst hji
      rw [Function.update_self] at hj
      exact absurd (hj.symm.trans hi) (by simp)
    · rw [Function.update_of_ne hji] at hj ⊢
      exact h.admitted j hj

/-- The run of an admission is created. -/
theorem create (h : Created X requests runs g) (hi : (g i).bound = false)
    (hnone : (g i).run = none) {run run' : StoredRun}
    (hidentity : run.identity = (requests i).identity)
    (hkey : run.idempotencyKey = keyOf X requests i) (hok : (runs.create run).1 = .ok run') :
    run' = run ∧ Created X requests (runs.create run).2
      (Function.update g i { g i with run := some run }) := by
  obtain ⟨hrun, hfresh, hruns, hkeys⟩ := RunStore.create_ok hok
  refine ⟨hrun, hruns ▸ h.write hi hidentity hkey (fun j r _ hj => ?_) fun r hr => ?_⟩
  · obtain ⟨hget, -, hkeyj⟩ := h.stored j r hj
    refine ⟨?_, fun heq => hkeys _ r hget (hkeyj.trans (heq.trans hkey.symm))⟩
    intro hid
    rw [hid, hfresh] at hget
    cases hget
  · rw [hnone] at hr
    cases hr

/-- The run of an admission is moved, as the admission last wrote it. -/
theorem transition (h : Created X requests runs g) (hi : (g i).bound = false) {run : StoredRun}
    (hrun : (g i).run = some run) (next : RunState) (t : ℕ) (extras : RunExtras) :
    (runs.transition run.runId run.state run.recordRevision next t extras).1 =
      .ok (RunStore.moved run next t extras) ∧
    Created X requests (runs.transition run.runId run.state run.recordRevision next t extras).2
      (Function.update g i { g i with run := some (RunStore.moved run next t extras) }) := by
  obtain ⟨hget, hidentity, hkey⟩ := h.stored i run hrun
  have hmoved : runs.transition run.runId run.state run.recordRevision next t extras =
      (.ok (RunStore.moved run next t extras),
        runs.set run.runId (RunStore.moved run next t extras)) := by
    rw [RunStore.transition, hget]
    exact if_pos ⟨rfl, rfl⟩
  rw [hmoved]
  have hidentity' : (RunStore.moved run next t extras).identity = (requests i).identity := hidentity
  refine ⟨rfl, h.write hi hidentity' hkey
    (fun j r hji hj => ⟨fun hid => hji ?_, fun hkeys => hji ?_⟩) fun r hr => ?_⟩
  · exact h.distinct j i r run hj hrun (.inl hid)
  · exact h.distinct j i r run hj hrun (.inr hkeys)
  · rw [hrun] at hr
    cases hr
    rfl

/-- An admission whose run is admitted binds its key. -/
theorem bind (h : Created X requests runs g) {run : StoredRun} (hrun : (g i).run = some run)
    (hadmitted : run.state = .admitted) :
    Created X requests runs
      (Function.update g i { g i with reserved := false, bound := true }) := by
  have hsame (j : ι) :
      (Function.update g i { g i with reserved := false, bound := true } j).run = (g j).run :=
    proj_update Holding.run (by rfl) j
  refine ⟨fun j r hj => h.stored j r ((hsame j).symm.trans hj), fun id r hget => ?_,
    fun j j' r r' hj hj' => h.distinct j j' r r' ((hsame j).symm.trans hj)
      ((hsame j').symm.trans hj'), fun j hj => ?_⟩
  · obtain ⟨hid, j, hj⟩ := h.owned id r hget
    exact ⟨hid, j, (hsame j).trans hj⟩
  · by_cases hji : j = i
    · subst hji
      exact ⟨run, (hsame j).trans hrun, hadmitted⟩
    · rw [Function.update_of_ne hji] at hj ⊢
      exact h.admitted j hj

omit [DecidableEq ι] in
/-- No identity has two runs in the store. -/
theorem unique (h : Created X requests runs g) {id id' : String} {r r' : StoredRun}
    (hr : runs.get id = some r) (hr' : runs.get id' = some r') (hidentity : r.identity = r'.identity) :
    r = r' := by
  obtain ⟨-, i, hi⟩ := h.owned id r hr
  obtain ⟨-, j, hj⟩ := h.owned id' r' hr'
  obtain ⟨-, hidi, -⟩ := h.stored i r hi
  obtain ⟨-, hidj, -⟩ := h.stored j r' hj
  have hkey : keyOf X requests i = keyOf X requests j := by
    rw [keyOf, keyOf, ← hidi, ← hidj, hidentity]
  cases h.distinct i j r r' hi hj (.inr hkey)
  exact Option.some.inj (hi.symm.trans hj)

end Created

/-! ## Locks -/

namespace Locked

omit [DecidableEq ι] in
/-- The locks depend on who has to give them back. -/
theorem congr (h : Locked locks g) (hg : ∀ j, (g' j).lock = (g j).lock) : Locked locks g' := by
  intro p lock hlock
  obtain ⟨j, hj⟩ := h p lock hlock
  exact ⟨j, (hg j).trans hj⟩

/-- What an admission that held no lock locks, no one else has to give back. -/
theorem hold (h : Locked locks g) (hi : (g i).lock = none) (held : Option (String × String)) :
    Locked locks (Function.update g i { g i with lock := held }) := by
  intro p lock hlock
  obtain ⟨j, hj⟩ := h p lock hlock
  have hji : j ≠ i := by
    rintro rfl
    rw [hi] at hj
    cases hj
  exact ⟨j, by rwa [Function.update_of_ne hji]⟩

/-- An admission that holds no lock asks for one. -/
theorem acquire (h : Locked locks g) (hi : (g i).lock = none) (command : ProjectLock) :
    Locked (ProjectLocks.acquire locks command).2
      (Function.update g i ((g i).note
        ⟨.acquire command, .ok (ProjectLocks.acquire locks command).1⟩)) := by
  have hsame : Locked locks (Function.update g i (g i)) := by
    rwa [Function.update_eq_self]
  rw [ProjectLocks.acquire]
  cases hget : JsMap.get locks command.projectId with
  | some existing =>
    simp only
    split
    · exact hsame
    · split
      · exact h.hold hi _
      · exact hsame
  | none =>
    simp only
    split
    · exact hsame
    · intro p lock hlock
      rw [JsMap.get_set] at hlock
      split at hlock
      · next hp =>
        cases hlock
        exact ⟨i, by rw [Function.update_self, ← hp]; rfl⟩
      · exact h.hold hi _ p lock hlock

/-- The admission that holds a lock releases it. -/
theorem release (h : Locked locks g) {p runId : String} (hi : (g i).lock = some (p, runId)) :
    Locked (ProjectLocks.release locks p runId)
      (Function.update g i { g i with lock := none }) := by
  have hother {q : String} {lock : ProjectLock} (hlock : locks.get q = some lock)
      (hne : q ≠ p ∨ lock.runId ≠ runId) :
      ∃ j, (Function.update g i { g i with lock := none } j).lock = some (q, lock.runId) := by
    obtain ⟨j, hj⟩ := h q lock hlock
    have hji : j ≠ i := by
      rintro rfl
      rw [hi, Option.some.injEq, Prod.mk.injEq] at hj
      exact hne.elim (fun hq => hq hj.1.symm) fun hid => hid hj.2.symm
    exact ⟨j, by rwa [Function.update_of_ne hji]⟩
  intro q lock hlock
  rw [ProjectLocks.release] at hlock
  cases hget : JsMap.get locks p with
  | none =>
    simp only [hget] at hlock
    refine hother hlock (.inl ?_)
    rintro rfl
    rw [hget] at hlock
    cases hlock
  | some existing =>
    simp only [hget] at hlock
    by_cases hid : existing.runId = runId
    · rw [if_pos hid, JsMap.get_delete] at hlock
      split at hlock
      · cases hlock
      · next hp => exact hother hlock (.inl (Ne.symm hp))
    · rw [if_neg hid] at hlock
      refine hother hlock ?_
      by_cases hq : q = p
      · subst hq
        rw [hget] at hlock
        cases hlock
        exact .inr hid
      · exact .inl hq

end Locked

end Orchestrator
