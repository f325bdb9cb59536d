import Mathlib.Data.List.ReduceOption
import Orchestrator.Atomic.Triple
import Orchestrator.Scheduling.Allocation

/-!
# The protocol of the scheduler's loops

What a tick of the claim loop or of the discovery loop relies on while others are at work, and what
it keeps.

* `tracksWork`, `WorkerHoldings`: what a tick holds, read off its calls;
* `SchedulerInvariant`: one tick holds the lock, and one works on each item that is worked on;
* `schedulerProtocol`: what a tick may assume: items only move along their life cycle;
* `updateCas_triple`, `persistCas_triple`: the calls that the others are protected from;
* `run_triple`: every tick keeps the protocol.
-/

namespace Orchestrator

open Atomic Collections

/-! ## Holdings -/

/-- The item that a program has set running and not settled, and whether it was invoked. -/
def tracksWork (e : Event SchedulerSig) (working : Option (String × Bool)) :
    Option (String × Bool) :=
  match e with
  | ⟨.updateCas _ _, .ok next⟩ =>
    if next.status = .running then some (next.workItemId, false)
    else if next.status = .claimed then working
    else if working.map Prod.fst = some next.workItemId then none
    else working
  | ⟨.invoke work, _⟩ => some (work.workItemId, true)
  | _ => working

/-- The item that a program works on. -/
def workingOn (log : Log SchedulerSig) : Option (String × Bool) := log.foldr tracksWork none

/-- What a program holds: the lock, the fairness rows that it has read under the lock, the project
of a claim that it has not charged yet, and the item that it works on. -/
structure WorkerHoldings where
  lock : Bool
  rows : Option (List ProjectFairnessState)
  owes : Option String
  working : Option (String × Bool)
  /-- It has kept the order of the calls so far. -/
  lawful : Prop

namespace WorkerHoldings

/-- Nothing is held. -/
def nothing : WorkerHoldings := ⟨false, none, none, none, True⟩

/-- A call that a program may make, with what it holds. -/
def Lawful (h : WorkerHoldings) (e : Event SchedulerSig) : Prop :=
  match e with
  | ⟨.updateCas _ _, .ok next⟩ =>
    (next.status = .claimed → h.lock = true ∧ h.owes = none) ∧
    (next.status = .running → h.working = none)
  | ⟨.invoke work, _⟩ => h.working = some (work.workItemId, false)
  | ⟨.persistCas charge before, .ok _⟩ =>
    h.lock = true ∧ h.rows = some before ∧ h.owes = some charge.selectedProjectId
  | ⟨.persistCas _ _, .error _⟩ => False
  | ⟨.unlock, _⟩ => h.lock = true ∧ h.owes = none
  | _ => True

def note (h : WorkerHoldings) (e : Event SchedulerSig) : WorkerHoldings where
  lock :=
    match e with
    | ⟨.lock, .ok _⟩ => true
    | ⟨.unlock, _⟩ => false
    | _ => h.lock
  rows :=
    match e with
    | ⟨.loadState, .ok rows⟩ => if h.lock then some rows else h.rows
    | ⟨.persistCas _ _, _⟩ => none
    | ⟨.unlock, _⟩ => none
    | _ => h.rows
  owes :=
    match e with
    | ⟨.updateCas _ _, .ok next⟩ => if next.status = .claimed then some next.projectId else h.owes
    | ⟨.persistCas _ _, .ok _⟩ => none
    | _ => h.owes
  working := tracksWork e h.working
  lawful := h.lawful ∧ h.Lawful e

end WorkerHoldings

/-- The calls that change none of what the invariant speaks of. -/
def SchedulerOp.harmless : SchedulerOp → Bool
  | .save _ | .updateCas _ _ | .lock | .unlock | .loadState | .persistCas _ _ | .invoke _ => false
  | _ => true

/-! ## The invariant -/

section Protocol

variable {ι : Type}

/-- One program holds the lock, and one works on each item that a program works on, which is
running. -/
structure SchedulerInvariant (deps : SchedulerDeps) (a : SchedulerWorld × (ι → WorkerHoldings)) :
    Prop where
  lawful : ∀ i, (a.2 i).lawful
  locked : ∀ i, (a.2 i).lock = true → a.1.locked = true
  one_lock : ∀ i j, (a.2 i).lock = true → (a.2 j).lock = true → i = j
  rows : ∀ i before, (a.2 i).rows = some before →
    (a.2 i).lock = true ∧ before = a.1.fairness.listAll deps.localeLe
  owes : ∀ i p, (a.2 i).owes = some p → (a.2 i).lock = true
  running : ∀ i id invoked, (a.2 i).working = some (id, invoked) →
    ∃ item, a.1.items.getById id = some item ∧ item.status = .running
  exclusive : ∀ i j id invoked invoked', (a.2 i).working = some (id, invoked) →
    (a.2 j).working = some (id, invoked') → i = j

/-- Discovery adds an item only where there is none of that id. -/
def SavesNew (_ : ι) (_ : Log SchedulerSig) (w : SchedulerWorld) : SchedulerOp → Prop
  | .save item => w.items.getById item.workItemId = none
  | _ => True

instance (i : ι) (log : Log SchedulerSig) (w : SchedulerWorld) (o : SchedulerOp) :
    Decidable (SavesNew i log w o) := by
  unfold SavesNew
  apply SchedulerOp.casesOn (motive := fun o => Decidable (match o with
    | .save item => w.items.getById item.workItemId = none
    | _ => True)) o <;> intros <;> infer_instance

def schedulerProtocol (ι : Type) (deps : SchedulerDeps) : Guarded (schedulerSystem deps) ι
    WorkerHoldings where
  note := WorkerHoldings.note
  inv := SchedulerInvariant deps
  moves w w' := ItemsMove w.items w'.items
  moves_refl w := ItemsMove.refl w.items
  moves_trans _ _ _ := ItemsMove.trans
  env_inv _ _ h :=
    ⟨h.lawful, h.locked, h.one_lock, h.rows, h.owes, h.running, h.exclusive⟩
  env_moves _ w := ItemsMove.refl w.items
  guard := SavesNew

variable [DecidableEq ι] {deps : SchedulerDeps} {w : SchedulerWorld} {g : ι → WorkerHoldings}
  {i : ι} {work updated : SchedulerWorkItem} {rev : ℕ}

/-! ## What an update of an item keeps -/

theorem tracksWork_updateCas (item : SchedulerWorkItem) (rev : ℕ) {next : SchedulerWorkItem}
    {working : Option (String × Bool)} {id : String} {invoked : Bool}
    (h : tracksWork ⟨.updateCas item rev, .ok next⟩ working = some (id, invoked)) :
    (next.status = .running ∧ id = next.workItemId) ∨
    (working = some (id, invoked) ∧ (id = next.workItemId → next.status = .claimed)) := by
  simp only [tracksWork] at h
  split_ifs at h with hrunning hclaimed hsame
  · cases h
    exact .inl ⟨hrunning, rfl⟩
  · exact .inr ⟨h, fun _ => hclaimed⟩
  · refine .inr ⟨h, fun hid => absurd ?_ hsame⟩
    rw [h, ← hid]
    rfl

/-- The program that updates an item holds the lock to claim it, works on nothing to run it, and
works on it to settle it. -/
theorem SchedulerInvariant.updateCas (hinv : SchedulerInvariant deps (w, g))
    (hcurrent : w.items.getById work.workItemId = some work) (hupdate : WorkUpdate work updated)
    (hmine : work.status = .running → ∃ invoked, (g i).working = some (work.workItemId, invoked))
    (hlawful : (g i).Lawful ⟨.updateCas updated rev, .ok updated.revised⟩) :
    SchedulerInvariant deps ({ w with items := w.items.save updated.revised },
      Function.update g i ((g i).note ⟨.updateCas updated rev, .ok updated.revised⟩)) := by
  have hid : updated.revised.workItemId = work.workItemId := hupdate.same.1
  have hlock := proj_update WorkerHoldings.lock (g := g) (i := i)
    (h := (g i).note ⟨.updateCas updated rev, .ok updated.revised⟩) rfl
  have hrows := proj_update WorkerHoldings.rows (g := g) (i := i)
    (h := (g i).note ⟨.updateCas updated rev, .ok updated.revised⟩) rfl
  have hrunning : ∀ {j id invoked}, (g j).working = some (id, invoked) →
      id = work.workItemId → work.status = .running := by
    rintro j id invoked hj rfl
    obtain ⟨item, hitem, hstatus⟩ := hinv.running j _ _ hj
    cases hitem.symm.trans hcurrent
    exact hstatus
  have hworks : ∀ j id invoked, (Function.update g i ((g i).note
        ⟨.updateCas updated rev, .ok updated.revised⟩) j).working = some (id, invoked) →
      (j = i ∧ updated.status = .running ∧ id = work.workItemId) ∨
        ((g j).working = some (id, invoked) ∧ id ≠ work.workItemId) := by
    intro j id invoked hj
    by_cases hji : j = i
    · subst hji
      rw [Function.update_self] at hj
      rcases tracksWork_updateCas updated rev hj with ⟨hstatus, rfl⟩ | ⟨hworking, hclaimed⟩
      · exact .inl ⟨rfl, hstatus, hid⟩
      · refine .inr ⟨hworking, fun hsame => ?_⟩
        have hready := hupdate.claimed (hclaimed (hsame.trans hid.symm))
        rw [hrunning hworking hsame] at hready
        rcases hready with hready | hready <;> cases hready
    · rw [Function.update_of_ne hji] at hj
      refine .inr ⟨hj, fun hsame => hji ?_⟩
      obtain ⟨invoked', hmine⟩ := hmine (hrunning hj hsame)
      exact hinv.exclusive j i _ _ _ (hsame ▸ hj) hmine
  constructor
  · intro j
    by_cases hji : j = i
    · subst hji
      simp only [Function.update_self]
      exact ⟨hinv.lawful j, hlawful⟩
    · simp only [Function.update_of_ne hji]
      exact hinv.lawful j
  · intro j hj
    exact hinv.locked j ((hlock j).symm.trans hj)
  · intro j k hj hk
    exact hinv.one_lock j k ((hlock j).symm.trans hj) ((hlock k).symm.trans hk)
  · intro j before hj
    obtain ⟨hheld, hbefore⟩ := hinv.rows j before ((hrows j).symm.trans hj)
    exact ⟨(hlock j).trans hheld, hbefore⟩
  · intro j p hj
    refine (hlock j).trans ?_
    by_cases hji : j = i
    · subst hji
      simp only [Function.update_self, WorkerHoldings.note] at hj
      split_ifs at hj with hclaimed
      · exact (hlawful.1 hclaimed).1
      · exact hinv.owes j p hj
    · simp only [Function.update_of_ne hji] at hj
      exact hinv.owes j p hj
  · intro j id invoked hj
    rcases hworks j id invoked hj with ⟨-, hstatus, rfl⟩ | ⟨hworking, hne⟩
    · refine ⟨updated.revised, ?_, hstatus⟩
      rw [← hid]
      exact Repository.getById_save_self _ _
    · obtain ⟨item, hitem, hstatus⟩ := hinv.running j _ _ hworking
      refine ⟨item, ?_, hstatus⟩
      rw [← hid] at hne
      exact (Repository.getById_save_ne _ hne.symm).trans hitem
  · intro j k id invoked invoked' hj hk
    rcases hworks j id invoked hj with ⟨rfl, -, hsame⟩ | ⟨hj', hne⟩
    · rcases hworks k id invoked' hk with ⟨rfl, -, -⟩ | ⟨-, hne⟩
      · rfl
      · exact absurd hsame hne
    · rcases hworks k id invoked' hk with ⟨-, -, hsame⟩ | ⟨hk', -⟩
      · exact absurd hsame hne
      · exact hinv.exclusive j k id _ _ hj' hk'

/-! ## Calls that leave the items alone -/

variable {o : SchedulerOp}

/-- A harmless call leaves the items, the fairness rows and the lock alone. -/
theorem call_harmless (deps : SchedulerDeps) (ho : o.harmless = true) (w : SchedulerWorld) :
    (w.call deps o).2.items = w.items ∧ (w.call deps o).2.fairness = w.fairness ∧
      (w.call deps o).2.locked = w.locked := by
  cases o with
  | acquire coordinationKey phase ownerId =>
    simp only [SchedulerWorld.call, SchedulerWorld.acquire]
    split <;> exact ⟨rfl, rfl, rfl⟩
  | release coordinationKey ownerId fenceToken =>
    simp only [SchedulerWorld.call, SchedulerWorld.releaseLease]
    split <;> exact ⟨rfl, rfl, rfl⟩
  | save | updateCas | lock | unlock | loadState | persistCas | invoke => cases ho
  | _ => exact ⟨rfl, rfl, rfl⟩

theorem note_harmless (ho : o.harmless = true) (h : WorkerHoldings)
    (r : Except SchedulerError o.Res) :
    h.note ⟨o, r⟩ = { h with lawful := h.lawful ∧ True } := by
  cases o with
  | save | updateCas | lock | unlock | loadState | persistCas | invoke => cases ho
  | _ => rfl

omit [DecidableEq ι] in
/-- The invariant speaks of the items, the fairness rows and the lock only. -/
theorem SchedulerInvariant.of_eq {w' : SchedulerWorld} (hinv : SchedulerInvariant deps (w, g))
    (hitems : w'.items = w.items) (hfairness : w'.fairness = w.fairness)
    (hlocked : w'.locked = w.locked) : SchedulerInvariant deps (w', g) where
  lawful := hinv.lawful
  locked i hi := hlocked.trans (hinv.locked i hi)
  one_lock := hinv.one_lock
  rows i before hi := by
    rw [hfairness]
    exact hinv.rows i before hi
  owes := hinv.owes
  running i id invoked hi := by
    rw [hitems]
    exact hinv.running i id invoked hi
  exclusive := hinv.exclusive

/-- Where only program `i` may hold the lock, it is all that has to be looked at after a call of its
own that leaves the items alone. -/
theorem SchedulerInvariant.holder {w' : SchedulerWorld} {h : WorkerHoldings}
    (hinv : SchedulerInvariant deps (w, g)) (hothers : ∀ j, (g j).lock = true → j = i)
    (hitems : w'.items = w.items) (hlawful : h.lawful) (hworking : h.working = (g i).working)
    (hlocked : h.lock = true → w'.locked = true)
    (hrows : ∀ before, h.rows = some before →
      h.lock = true ∧ before = w'.fairness.listAll deps.localeLe)
    (howes : ∀ p, h.owes = some p → h.lock = true) :
    SchedulerInvariant deps (w', Function.update g i h) := by
  have hworks := proj_update WorkerHoldings.working hworking
  have honly : ∀ j, (Function.update g i h j).lock = true → j = i := by
    intro j hj
    by_contra hji
    rw [Function.update_of_ne hji] at hj
    exact hji (hothers j hj)
  have hcases : ∀ p : WorkerHoldings → Prop, p h → (∀ j, j ≠ i → p (g j)) →
      ∀ j, p (Function.update g i h j) := by
    intro p hi hother j
    by_cases hji : j = i
    · subst hji
      rw [Function.update_self]
      exact hi
    · rw [Function.update_of_ne hji]
      exact hother j hji
  constructor
  · exact hcases WorkerHoldings.lawful hlawful fun j _ => hinv.lawful j
  · exact hcases (·.lock = true → w'.locked = true) hlocked fun j hji hj =>
      absurd (hothers j hj) hji
  · exact fun j k hj hk => (honly j hj).trans (honly k hk).symm
  · exact hcases (fun h => ∀ before, h.rows = some before →
      h.lock = true ∧ before = w'.fairness.listAll deps.localeLe) hrows fun j hji before hj =>
        absurd (hothers j (hinv.rows j before hj).1) hji
  · exact hcases (fun h => ∀ p, h.owes = some p → h.lock = true) howes fun j hji p hj =>
      absurd (hothers j (hinv.owes j p hj)) hji
  · intro j id invoked hj
    obtain ⟨item, hitem, hstatus⟩ := hinv.running j id invoked ((hworks j).symm.trans hj)
    refine ⟨item, ?_, hstatus⟩
    simp only [hitems]
    exact hitem
  · intro j k id invoked invoked' hj hk
    exact hinv.exclusive j k id _ _ ((hworks j).symm.trans hj) ((hworks k).symm.trans hk)

/-! ## Calls -/

section Calls

variable (deps) (i : ι) {A : WorkerHoldings → SchedulerWorld → Prop} {G B : WorkerHoldings → Prop}
  {F : SchedulerError → WorkerHoldings → SchedulerWorld → Prop}

/-- A call is made while the invariant holds, and must keep it. -/
theorem call_triple {B : o.Res → WorkerHoldings → SchedulerWorld → Prop}
    (hA : (schedulerProtocol ι deps).Stable A)
    (hcall : ∀ (log : Log SchedulerSig) (w : SchedulerWorld) (g : ι → WorkerHoldings),
      SchedulerInvariant deps (w, g) → SavesNew i log w o → A (g i) w →
      ∃ r w', w.call deps o = (r, w') ∧
        SchedulerInvariant deps (w', Function.update g i ((g i).note ⟨o, r⟩)) ∧
        ItemsMove w.items w'.items ∧ (∀ v, r = .ok v → B v ((g i).note ⟨o, .ok v⟩) w') ∧
        ∀ e, r = .error e → F e ((g i).note ⟨o, .error e⟩) w') :
    (schedulerProtocol ι deps).Triple i A o.await B F := by
  refine Guarded.triple_call hA fun log w g hinv hguard hA' => ?_
  obtain ⟨r, w', hr, hinv', hmoves, hok, herror⟩ := hcall log w g hinv hguard hA'
  have hhandler : (schedulerSystem deps).handler o w = (r, w') := hr
  rw [hhandler]
  exact ⟨hinv', hmoves, hok, herror⟩

theorem harmless_triple (ho : o.harmless = true) (hA : (schedulerProtocol ι deps).Stable A)
    {R : o.Res → SchedulerWorld → Prop} {E : SchedulerError → Prop}
    (hR : ∀ (w : SchedulerWorld) v, (w.call deps o).1 = .ok v → R v (w.call deps o).2)
    (hE : ∀ (w : SchedulerWorld) e, (w.call deps o).1 = .error e → E e) :
    (schedulerProtocol ι deps).Triple i A o.await (fun v h w => A h w ∧ R v w)
      fun e h w => A h w ∧ E e := by
  refine call_triple deps i hA fun log w g hinv _ hA' => ?_
  obtain ⟨hitems, hfairness, hlocked⟩ := call_harmless deps ho w
  have hmoves : ItemsMove w.items (w.call deps o).2.items := by
    rw [hitems]
    exact ItemsMove.refl _
  have hnote : ∀ r, (g i).note ⟨o, r⟩ = g i := fun r => by
    rw [note_harmless ho, and_true]
  refine ⟨_, _, rfl, ?_, hmoves, fun v hv => ?_, fun e he => ?_⟩
  · rw [hnote, Function.update_eq_self]
    exact hinv.of_eq hitems hfairness hlocked
  · rw [hnote]
    exact ⟨hA _ _ _ hmoves hA', hR w v hv⟩
  · rw [hnote]
    exact ⟨hA _ _ _ hmoves hA', hE w e he⟩

/-- What is stable outlives a harmless call. -/
theorem keeps_triple (ho : o.harmless = true) (hA : (schedulerProtocol ι deps).Stable A) :
    (schedulerProtocol ι deps).Triple i A o.await (fun _ => A) fun _ => A :=
  (harmless_triple deps i ho hA (R := fun _ _ => True) (E := fun _ => True) (fun _ _ _ => trivial)
    fun _ _ _ => trivial).conseq (fun _ _ h => h) (fun _ _ _ h => h.1) fun _ _ _ h => h.1

/-- A call that only reads. -/
theorem read_triple (ho : o.harmless = true) (hA : (schedulerProtocol ι deps).Stable A)
    (f : SchedulerWorld → o.Res) (hcall : ∀ w : SchedulerWorld, w.call deps o = (.ok (f w), w)) :
    (schedulerProtocol ι deps).Triple i A o.await (fun v h w => A h w ∧ v = f w) F := by
  refine (harmless_triple deps i ho hA (R := fun v w => v = f w) (E := fun _ => False)
    (fun w v hv => ?_) fun w e he => ?_).conseq (fun _ _ h => h) (fun _ _ _ h => h) fun _ _ _ h => h.2.elim
  · rw [hcall] at hv ⊢
    cases hv
    rfl
  · rw [hcall] at he
    cases he

/-- An item that was read is updated, or has moved on since. -/
theorem updateCas_triple (hupdate : WorkUpdate work updated)
    (hmine : ∀ h, G h → work.status = .running →
      ∃ invoked, h.working = some (work.workItemId, invoked))
    (hlawful : ∀ h, G h → (updated.status = .claimed → h.lock = true ∧ h.owes = none) ∧
      (updated.status = .running → h.working = none))
    (hG : ∀ h, G h → B (h.note ⟨.updateCas updated work.recordRevision, .ok updated.revised⟩)) :
    (schedulerProtocol ι deps).Triple i (fun h w => G h ∧ Seen work w.items)
      (SchedulerOp.updateCas updated work.recordRevision).await
      (fun next h w => next = updated.revised ∧ B h ∧ Seen updated.revised w.items)
      fun e h _ => e = .scheduling .schedulerCasConflict "Work item revision conflict" ∧ G h := by
  refine call_triple deps i (fun _ _ _ hmoves h => ⟨h.1, h.2.moves hmoves⟩)
    fun log w g hinv _ ⟨hheld, hseen⟩ => ?_
  rcases updateCas_cases hseen hupdate with ⟨hcurrent, hupdated⟩ | hconflict
  · refine ⟨.ok updated.revised, { w with items := w.items.save updated.revised }, ?_,
      hinv.updateCas hcurrent hupdate (hmine _ hheld) (hlawful _ hheld),
      itemsMove_save_step hcurrent ⟨updated, hupdate, rfl⟩ hupdate.same.1, fun v hv => ?_,
      fun e he => (nomatch he)⟩
    · simp only [SchedulerWorld.call, SchedulerWorld.updateCas, hupdated]
    · cases hv
      exact ⟨rfl, hG _ hheld, updated.revised, Repository.getById_save_self _ _, .inl rfl⟩
  · have hnote : (g i).note ⟨.updateCas updated work.recordRevision,
        .error (.scheduling .schedulerCasConflict "Work item revision conflict")⟩ = g i := by
      simp only [WorkerHoldings.note, WorkerHoldings.Lawful, tracksWork, and_true]
    refine ⟨.error (.scheduling .schedulerCasConflict "Work item revision conflict"), w, ?_, ?_,
      ItemsMove.refl _, fun v hv => (nomatch hv), fun e he => ?_⟩
    · simp only [SchedulerWorld.call, SchedulerWorld.updateCas, hconflict]
    · rw [hnote, Function.update_eq_self]
      exact hinv
    · cases he
      rw [hnote]
      exact ⟨rfl, hheld⟩

/-- What a program holds, the rows that it has read apart. -/
def WorkerHoldings.Has (lock : Bool) (owes : Option String) (working : Option (String × Bool))
    (h : WorkerHoldings) : Prop :=
  h.lock = lock ∧ h.owes = owes ∧ h.working = working

/-- An update that neither claims an item nor sets it running settles it. -/
theorem WorkerHoldings.Has.settle {h : WorkerHoldings} {lock : Bool} {owes : Option String}
    {working : Option (String × Bool)} (hheld : h.Has lock owes working)
    (item : SchedulerWorkItem) (rev : ℕ) {next : SchedulerWorkItem}
    (hrunning : next.status ≠ .running) (hclaimed : next.status ≠ .claimed) :
    (h.note ⟨.updateCas item rev, .ok next⟩).Has lock owes
      (if working.map Prod.fst = some next.workItemId then none else working) := by
  obtain ⟨hlock, howes, hworking⟩ := hheld
  refine ⟨hlock, ?_, ?_⟩
  · simp only [WorkerHoldings.note, if_neg hclaimed, howes]
  · simp only [WorkerHoldings.note, tracksWork, if_neg hrunning, if_neg hclaimed, hworking]

theorem lock_triple : (schedulerProtocol ι deps).Triple i (fun h _ => h.Has false none none)
    SchedulerOp.lock.await (fun _ h _ => h.Has true none none) fun _ _ _ => True := by
  refine call_triple deps i Guarded.stable_held fun log w g hinv _ ⟨hlock, howes, hworking⟩ => ?_
  cases hfree : w.locked with
  | true =>
    have hnote : (g i).note ⟨.lock,
        .error (.scheduling .schedulerCasConflict "Fairness lock already held")⟩ = g i := by
      simp only [WorkerHoldings.note, WorkerHoldings.Lawful, tracksWork, and_true]
    refine ⟨.error (.scheduling .schedulerCasConflict "Fairness lock already held"), w, ?_, ?_,
      ItemsMove.refl _, fun v hv => (nomatch hv), fun _ _ => trivial⟩
    · simp only [SchedulerWorld.call, hfree, if_true]
    · rw [hnote, Function.update_eq_self]
      exact hinv
  | false =>
    have hnobody : ∀ j, (g j).lock = true → False := fun j hj => by
      have h := hinv.locked j hj
      rw [hfree] at h
      cases h
    refine ⟨.ok (), { w with locked := true }, ?_, ?_, ItemsMove.refl _,
      fun v _ => ⟨rfl, howes, hworking⟩, fun e he => (nomatch he)⟩
    · simp only [SchedulerWorld.call, hfree, Bool.false_eq_true, if_false]
    · refine hinv.holder (fun j hj => (hnobody j hj).elim) rfl ⟨hinv.lawful i, trivial⟩ rfl
        (fun _ => rfl) (fun before hbefore => ?_) fun p _ => rfl
      exact (hnobody i (hinv.rows i before hbefore).1).elim

theorem unlock_triple (working : Option (String × Bool)) :
    (schedulerProtocol ι deps).Triple i (fun h _ => h.Has true none working)
      SchedulerOp.unlock.await (fun _ h _ => h.Has false none working) F := by
  refine call_triple deps i Guarded.stable_held fun log w g hinv _ ⟨hlock, howes, hworking⟩ => ?_
  refine ⟨.ok (), { w with locked := false }, rfl, ?_, ItemsMove.refl _,
    fun v _ => ⟨rfl, howes, hworking⟩, fun e he => (nomatch he)⟩
  refine hinv.holder (fun j hj => hinv.one_lock j i hj hlock) rfl
    ⟨hinv.lawful i, hlock, howes⟩ rfl (fun h => (nomatch h)) (fun before h => (nomatch h))
    fun p hp => ?_
  have hp' : (g i).owes = some p := hp
  rw [howes] at hp'
  cases hp'

/-- The rows that are read under the lock are those that are stored. -/
theorem loadState_triple {owes : Option String} {working : Option (String × Bool)} :
    (schedulerProtocol ι deps).Triple i (fun h _ => h.Has true owes working)
      SchedulerOp.loadState.await
      (fun rows h _ => h.Has true owes working ∧ h.rows = some rows) F := by
  refine call_triple deps i Guarded.stable_held fun log w g hinv _ ⟨hlock, howes, hworking⟩ => ?_
  have hrows : ((g i).note ⟨.loadState, .ok (w.fairness.listAll deps.localeLe)⟩).rows =
      some (w.fairness.listAll deps.localeLe) := if_pos hlock
  refine ⟨.ok (w.fairness.listAll deps.localeLe), w, rfl, ?_, ItemsMove.refl _, fun v hv => ?_,
    fun e he => (nomatch he)⟩
  · refine hinv.holder (fun j hj => hinv.one_lock j i hj hlock) rfl ⟨hinv.lawful i, trivial⟩ rfl
      (fun _ => hinv.locked i hlock) (fun before hbefore => ?_) fun _ _ => hlock
    rw [hrows, Option.some.injEq] at hbefore
    exact ⟨hlock, hbefore.symm⟩
  · cases hv
    exact ⟨⟨hlock, howes, hworking⟩, hrows⟩

/-- The rows that were read under the lock are still those that are stored: the charge is stored. -/
theorem persistCas_triple {charge : ServiceCharge} {before : List ProjectFairnessState}
    {working : Option (String × Bool)} :
    (schedulerProtocol ι deps).Triple i
      (fun h _ => h.Has true (some charge.selectedProjectId) working ∧ h.rows = some before)
      (SchedulerOp.persistCas charge before).await (fun _ h _ => h.Has true none working) F := by
  refine call_triple deps i Guarded.stable_held
    fun log w g hinv _ ⟨⟨hlock, howes, hworking⟩, hrows⟩ => ?_
  obtain ⟨-, hbefore⟩ := hinv.rows i before hrows
  obtain ⟨rows', hcharge, -⟩ :=
    FairnessRows.rows_after_charge deps.localeLe w.fairness charge
  have hpersist : FairnessRows.persistCas before
      (nextFairnessRowsAfterService deps.localeLe before charge) w.fairness = (.ok (), rows') := by
    rw [hbefore]
    exact hcharge
  refine ⟨.ok (nextFairnessRowsAfterService deps.localeLe before charge),
    { w with fairness := rows' }, ?_, ?_, ItemsMove.refl _, fun v _ => ⟨hlock, rfl, hworking⟩,
    fun e he => (nomatch he)⟩
  · simp only [SchedulerWorld.call, SchedulerWorld.persistCas, hpersist]
  · exact hinv.holder (fun j hj => hinv.one_lock j i hj hlock) rfl
      ⟨hinv.lawful i, hlock, hrows, howes⟩ rfl (fun _ => hinv.locked i hlock)
      (fun before h => (nomatch h)) fun p h => (nomatch h)

/-- The item that a program has set running is invoked. -/
theorem invoke_triple {owes : Option String} :
    (schedulerProtocol ι deps).Triple i
      (fun h w => h.Has false owes (some (work.workItemId, false)) ∧ Seen work w.items)
      (SchedulerOp.invoke work).await
      (fun _ h w => h.Has false owes (some (work.workItemId, true)) ∧ Seen work w.items)
      fun _ h w => h.Has false owes (some (work.workItemId, true)) ∧ Seen work w.items := by
  refine call_triple deps i (fun _ _ _ hmoves h => ⟨h.1, h.2.moves hmoves⟩)
    fun log w g hinv _ ⟨⟨hlock, howes, hworking⟩, hseen⟩ => ?_
  have hafter : ∀ r, ((g i).note ⟨.invoke work, r⟩).Has false owes
      (some (work.workItemId, true)) := fun r => ⟨hlock, howes, rfl⟩
  refine ⟨w.surroundings.invoke work, w, rfl, ?_, ItemsMove.refl _,
    fun v _ => ⟨hafter _, hseen⟩, fun e _ => ⟨hafter _, hseen⟩⟩
  generalize w.surroundings.invoke work = r
  have hlocks := proj_update WorkerHoldings.lock (g := g) (i := i)
    (h := (g i).note ⟨.invoke work, r⟩) rfl
  have hrows := proj_update WorkerHoldings.rows (g := g) (i := i)
    (h := (g i).note ⟨.invoke work, r⟩) rfl
  have hdebts := proj_update WorkerHoldings.owes (g := g) (i := i)
    (h := (g i).note ⟨.invoke work, r⟩) rfl
  have hworks : ∀ j id invoked, (Function.update g i ((g i).note ⟨.invoke work, r⟩) j).working =
      some (id, invoked) → ∃ invoked', (g j).working = some (id, invoked') := by
    intro j id invoked hj
    by_cases hji : j = i
    · subst hji
      rw [Function.update_self] at hj
      cases hj
      exact ⟨false, hworking⟩
    · rw [Function.update_of_ne hji] at hj
      exact ⟨invoked, hj⟩
  constructor
  · intro j
    by_cases hji : j = i
    · subst hji
      simp only [Function.update_self]
      exact ⟨hinv.lawful j, hworking⟩
    · simp only [Function.update_of_ne hji]
      exact hinv.lawful j
  · exact fun j hj => hinv.locked j ((hlocks j).symm.trans hj)
  · exact fun j k hj hk => hinv.one_lock j k ((hlocks j).symm.trans hj) ((hlocks k).symm.trans hk)
  · intro j before hj
    obtain ⟨hheld, hbefore⟩ := hinv.rows j before ((hrows j).symm.trans hj)
    exact ⟨(hlocks j).trans hheld, hbefore⟩
  · exact fun j p hj => (hlocks j).trans (hinv.owes j p ((hdebts j).symm.trans hj))
  · intro j id invoked hj
    obtain ⟨invoked', hj'⟩ := hworks j id invoked hj
    exact hinv.running j id invoked' hj'
  · intro j k id invoked invoked' hj hk
    obtain ⟨_, hj'⟩ := hworks j id invoked hj
    obtain ⟨_, hk'⟩ := hworks k id invoked' hk
    exact hinv.exclusive j k id _ _ hj' hk'

/-- Discovery adds an item. -/
theorem save_triple {item : SchedulerWorkItem} (hA : (schedulerProtocol ι deps).Stable A) :
    (schedulerProtocol ι deps).Triple i A (SchedulerOp.save item).await (fun _ => A)
      fun _ => A := by
  refine call_triple deps i hA fun log w g hinv hnew hA' => ?_
  have hnote : ∀ r, (g i).note ⟨.save item, r⟩ = g i := fun r => by
    simp only [WorkerHoldings.note, WorkerHoldings.Lawful, tracksWork, and_true]
  by_cases hbound : (w.byIdentity.get item.logicalIdentityKey).any (· ≠ item.workItemId) = true
  · refine ⟨_, w, if_pos hbound, ?_, ItemsMove.refl _, fun v hv => (nomatch hv), fun e _ => ?_⟩
    · rw [hnote, Function.update_eq_self]
      exact hinv
    · rw [hnote]
      exact hA'
  · have hmoves : ItemsMove w.items (w.items.save item) := itemsMove_save_new hnew
    refine ⟨_, _, if_neg hbound, ?_, hmoves, fun v _ => ?_, fun e he => (nomatch he)⟩
    · rw [hnote, Function.update_eq_self]
      refine ⟨hinv.lawful, hinv.locked, hinv.one_lock, hinv.rows, hinv.owes, ?_, hinv.exclusive⟩
      intro j id invoked hj
      obtain ⟨other, hother, hstatus⟩ := hinv.running j id invoked hj
      refine ⟨other, (Repository.getById_save_ne _ fun heq => ?_).trans hother, hstatus⟩
      have hnone : w.items.getById item.workItemId = none := hnew
      rw [heq, hother] at hnone
      cases hnone
    · rw [hnote]
      exact hA _ _ _ hmoves hA'

end Calls

/-! ## Selection -/

section Programs

variable (deps) (i : ι)

/-- The item was read, and waited or was eligible. -/
def Claimable (work : SchedulerWorkItem) (items : WorkItems) : Prop :=
  (work.status = .waiting ∨ work.status = .eligible) ∧ Seen work items

theorem Claimable.moves {items items' : WorkItems} (h : Claimable work items)
    (hmoves : ItemsMove items items') : Claimable work items' :=
  ⟨h.1, h.2.moves hmoves⟩

theorem seen_of_mem_list {item : SchedulerWorkItem} (h : item ∈ w.items.list) :
    Seen item w.items :=
  seen_of_getById (Repository.mem_list.mp h)

theorem mem_listExpiredClaimed {item : SchedulerWorkItem} {limit : ℕ}
    (h : item ∈ w.listExpiredClaimed deps limit) : item.status = .claimed ∧ Seen item w.items := by
  have hmem := List.mem_of_mem_take h
  rw [List.mem_insertionSort, List.mem_filter, Bool.and_eq_true, decide_eq_true_eq] at hmem
  exact ⟨hmem.2.1, seen_of_mem_list hmem.1⟩

theorem mem_listCandidateWork {item : SchedulerWorkItem} {projectId : String}
    {statuses : List WorkItemStatus} {limit : ℕ}
    (h : item ∈ w.listCandidateWorkByProject projectId statuses limit) : Seen item w.items := by
  have hmem := List.mem_of_mem_take h
  rw [List.mem_insertionSort, List.mem_filter] at hmem
  exact seen_of_mem_list hmem.1

/-- An expired claim that was listed goes back to the pool. -/
theorem reconcileExpiredClaim_triple {item : SchedulerWorkItem}
    (hclaimed : item.status = .claimed) :
    (schedulerProtocol ι deps).Triple i (fun h w => h.Has false none none ∧ Seen item w.items)
      (reconcileExpiredClaim item) (fun _ h _ => h.Has false none none) fun _ _ _ => True := by
  refine (read_triple deps i rfl (fun _ _ _ hmoves h => ⟨h.1, h.2.moves hmoves⟩)
    (fun w => w.isLiveHeld (schedulerWorkCoordinationKey item.workItemId)) fun _ => rfl).bind
      fun live => Guarded.Triple.ite (fun _ => Guarded.triple_pure fun _ _ h => h.1.1) fun _ => ?_
  have hupdate := updateCas_triple deps i (G := (·.Has false none none))
    (B := (·.Has false none none)) (WorkUpdate.expire hclaimed)
    (fun h _ hrunning => by rw [hclaimed] at hrunning; cases hrunning)
    (fun h _ => ⟨fun hstatus => (nomatch hstatus), fun hstatus => (nomatch hstatus)⟩)
    fun h hheld => hheld.settle _ _ (fun h => (nomatch h)) fun h => (nomatch h)
  refine Guarded.Triple.tryCatch (G := fun _ h _ => h.Has false none none)
    ((hupdate.conseq (fun _ _ h => h.1) (fun _ _ _ h => h) fun _ _ _ h => h.2).bind fun _ =>
      Guarded.triple_pure fun _ _ h => h.2.1) fun e => ?_
  exact Guarded.Triple.ite (fun _ => Guarded.triple_pure fun _ _ h => h) fun _ =>
    Guarded.triple_throw fun _ _ _ => trivial

/-- Expired claims go back to the pool. -/
theorem reconcile_triple (limit : ℕ) :
    (schedulerProtocol ι deps).Triple i (fun h _ => h.Has false none none)
      (reconcileExpiredClaimedWork limit) (fun _ h _ => h.Has false none none)
      fun _ _ _ => True := by
  have hlist : (schedulerProtocol ι deps).Triple i (fun h _ => h.Has false none none)
      (SchedulerOp.listExpiredClaimed limit).await
      (fun expired h w => (∀ item ∈ expired, item.status = .claimed) ∧
        h.Has false none none ∧ ∀ item ∈ expired, Seen item w.items) fun _ _ _ => True := by
    refine (read_triple deps i rfl Guarded.stable_held (fun w => w.listExpiredClaimed deps limit)
      fun _ => rfl).post fun expired h w hread => ?_
    obtain ⟨hheld, rfl⟩ := hread
    exact ⟨fun item hitem => (mem_listExpiredClaimed deps hitem).1, hheld,
      fun item hitem => (mem_listExpiredClaimed deps hitem).2⟩
  refine hlist.bind fun expired => Guarded.Triple.of_pure fun hclaimed => ?_
  refine (Guarded.triple_collect (R := fun _ _ => True) (fun _ _ _ _ _ => trivial)
    (fun item hitem => ?_) fun _ _ _ h => h).bind fun recovered =>
      Guarded.triple_pure fun h w hw => hw.1.1
  have hframe := (reconcileExpiredClaim_triple deps i (hclaimed item hitem)).frame
    (J := fun w => ∀ item ∈ expired, Seen item w.items)
    fun _ _ hmoves h item hitem => (h item hitem).moves hmoves
  exact hframe.conseq (fun _ _ h => ⟨⟨h.1, h.2 item hitem⟩, h.2⟩) (fun _ _ _ h => ⟨h, trivial⟩)
    fun _ _ _ _ => trivial

/-- An item that was read may be unblocked. -/
theorem unblock_triple (now : ℕ) (answer : Scheduling.DependencyAnswer) :
    (schedulerProtocol ι deps).Triple i (fun h w => h.Has true none none ∧ Seen work w.items)
      (unblock now answer work) (fun work h w => h.Has true none none ∧ Seen work w.items)
      fun _ h _ => h.Has true none none := by
  refine Guarded.Triple.ite (fun hblocked => ?_) fun _ => Guarded.triple_pure fun _ _ h => h
  have hupdate := updateCas_triple deps i (G := (·.Has true none none))
    (B := (·.Has true none none)) (WorkUpdate.unblock now hblocked.1)
    (fun h _ hrunning => by rw [hblocked.1] at hrunning; cases hrunning)
    (fun h _ => ⟨fun hstatus => (nomatch hstatus), fun hstatus => (nomatch hstatus)⟩)
    fun h hheld => hheld.settle _ _ (fun h => (nomatch h)) fun h => (nomatch h)
  exact (hupdate.conseq (fun _ _ h => h) (fun _ _ _ h => h) fun _ _ _ h => h.2).bind fun _ =>
    Guarded.triple_pure fun _ _ h => ⟨h.2.1, h.2.2.of_revised⟩

/-- A candidate that is eligible may be claimed. -/
theorem considerCandidate_triple (work : SchedulerWorkItem) (options : SelectWorkOptions)
    (contender : ProjectContender) :
    (schedulerProtocol ι deps).Triple i (fun h w => h.Has true none none ∧ Seen work w.items)
      (considerCandidate deps options contender work)
      (fun scored h w => h.Has true none none ∧ ∀ c ∈ scored, Claimable c.work w.items)
      fun _ h _ => h.Has true none none := by
  refine (read_triple deps i rfl (fun _ _ _ hmoves h => ⟨h.1, h.2.moves hmoves⟩)
    (fun w => Scheduling.areDependenciesSatisfied w.surroundings.view work.runId)
    fun _ => rfl).bind fun answer => ?_
  refine ((unblock_triple deps i contender.now answer).pre fun _ _ h => h.1).bind fun unblocked =>
    Guarded.triple_pure fun h w hread => ⟨hread.1, fun c hc => ?_⟩
  rw [Option.mem_def, Option.ite_none_right_eq_some, Option.some.injEq] at hc
  obtain ⟨heligible, rfl⟩ := hc
  exact ⟨status_of_eligible heligible, hread.2⟩

theorem configFor_triple {A : WorkerHoldings → SchedulerWorld → Prop}
    {F : SchedulerError → WorkerHoldings → SchedulerWorld → Prop}
    (hA : (schedulerProtocol ι deps).Stable A) (projectId : String) :
    (schedulerProtocol ι deps).Triple i A (configFor projectId) (fun _ => A) F :=
  (read_triple deps i rfl hA (·.surroundings.projectConfig projectId) fun _ => rfl).bind fun _ =>
    Guarded.triple_pure fun _ _ h => h.1

/-- One contender brings candidates that may be claimed. -/
theorem considerProject_triple (options : SelectWorkOptions) (fairnessView : JsMap String ℕ)
    (now : ℕ) (globalPaused : Bool) (globalActive : ℕ) (projectId : String) :
    (schedulerProtocol ι deps).Triple i (fun h _ => h.Has true none none)
      (considerProject deps options fairnessView now globalPaused globalActive projectId)
      (fun page h w => h.Has true none none ∧ ∀ c ∈ page.scored, Claimable c.work w.items)
      fun _ h _ => h.Has true none none := by
  have hnone : ∀ (weight : Option (String × ℚ)) (h : WorkerHoldings) (w : SchedulerWorld),
      h.Has true none none →
      h.Has true none none ∧ ∀ c ∈ (⟨weight, []⟩ : ContenderPage).scored,
        Claimable c.work w.items :=
    fun _ _ _ h => ⟨h, fun _ hc => (nomatch hc)⟩
  refine Guarded.Triple.ite (fun _ => Guarded.triple_pure (hnone _)) fun _ => ?_
  refine (configFor_triple deps i Guarded.stable_held projectId).bind fun config => ?_
  refine (read_triple deps i rfl Guarded.stable_held (·.surroundings.projectPaused projectId)
    fun _ => rfl).bind fun projectPaused => ?_
  refine Guarded.Triple.ite (fun _ => Guarded.triple_pure fun h w hw => hnone _ h w hw.1)
    fun _ => ?_
  refine ((read_triple deps i rfl Guarded.stable_held
    (fun w => ((w.active deps).filter fun item => decide (item.projectId = projectId)).length)
    fun _ => rfl).pre fun _ _ h => h.1).bind fun projectActive => ?_
  have hlist : (schedulerProtocol ι deps).Triple i (fun h _ => h.Has true none none)
      (SchedulerOp.listCandidateWorkByProject projectId [.waiting, .eligible, .blockedDependency]
        (options.perProjectLimit.getD 16)).await
      (fun candidates h w => h.Has true none none ∧ ∀ work ∈ candidates, Seen work w.items)
      fun _ h _ => h.Has true none none := by
    refine (read_triple deps i rfl Guarded.stable_held
      (fun w => w.listCandidateWorkByProject projectId [.waiting, .eligible, .blockedDependency] (options.perProjectLimit.getD 16))
      fun _ => rfl).post fun candidates h w hread => ?_
    obtain ⟨hheld, rfl⟩ := hread
    exact ⟨hheld, fun work hwork => mem_listCandidateWork hwork⟩
  refine (hlist.pre fun _ _ h => h.1).bind fun candidates => ?_
  have hloop : (schedulerProtocol ι deps).Triple i
      (fun h w => h.Has true none none ∧ ∀ work ∈ candidates, Seen work w.items)
      (Async.collect (considerCandidate deps options
        { now, globalPaused, projectPaused, projectActive, globalActive, config
          deficit := (fairnessView.get projectId).getD 0 }) candidates)
      (fun scored h w => (h.Has true none none ∧ ∀ work ∈ candidates, Seen work w.items) ∧
        ∀ c ∈ scored, ∀ c' ∈ c, Claimable c'.work w.items)
      fun _ h _ => h.Has true none none := by
    refine Guarded.triple_collect (K := schedulerProtocol ι deps)
      (R := fun (scored : Option ScoredCandidate) w => ∀ c ∈ scored, Claimable c.work w.items)
      (F := fun _ h w => h.Has true none none ∧ ∀ work ∈ candidates, Seen work w.items)
      (fun scored _ _ hmoves h c hc => (h c hc).moves hmoves) (fun work hwork => ?_)
      fun _ _ _ h => h.1
    have hframe := (considerCandidate_triple deps i work options
      { now, globalPaused, projectPaused, projectActive, globalActive, config
        deficit := (fairnessView.get projectId).getD 0 }).frame
      (J := fun w => ∀ work ∈ candidates, Seen work w.items)
      fun _ _ hmoves h work hwork => (h work hwork).moves hmoves
    exact hframe.conseq (fun _ _ h => ⟨⟨h.1, h.2 work hwork⟩, h.2⟩)
      (fun _ _ _ h => ⟨⟨h.1.1, h.2⟩, h.1.2⟩) fun _ _ _ h => h
  refine hloop.bind fun scored => Guarded.triple_pure fun h w hscored =>
    ⟨hscored.1.1, fun c hc => ?_⟩
  exact hscored.2 (some c) (List.reduceOption_mem_iff.mp hc) c rfl

/-- What may be claimed is read under the lock. -/
theorem buildSelectionSnapshot_triple (options : SelectWorkOptions)
    (fairnessView : JsMap String ℕ) :
    (schedulerProtocol ι deps).Triple i (fun h _ => h.Has true none none)
      (buildSelectionSnapshot deps options fairnessView)
      (fun snapshot h w => h.Has true none none ∧ ∀ c ∈ snapshot.scored, Claimable c.work w.items)
      fun _ h _ => h.Has true none none := by
  refine (read_triple deps i rfl Guarded.stable_held (·.surroundings.nowIso)
    fun _ => rfl).bind fun now => ?_
  refine ((read_triple deps i rfl Guarded.stable_held (·.surroundings.globalPaused)
    fun _ => rfl).pre fun _ _ h => h.1).bind fun globalPaused => ?_
  refine ((read_triple deps i rfl Guarded.stable_held (fun w => (w.active deps).length)
    fun _ => rfl).pre fun _ _ h => h.1).bind fun globalActive => ?_
  refine ((read_triple deps i rfl Guarded.stable_held (fun w => w.schedulableProjects deps now)
    fun _ => rfl).pre fun _ _ h => h.1).bind fun contenders => ?_
  have hloop : (schedulerProtocol ι deps).Triple i (fun h _ => h.Has true none none)
      (Async.collect (considerProject deps options fairnessView now globalPaused globalActive)
        contenders)
      (fun pages h w => h.Has true none none ∧
        ∀ page ∈ pages, ∀ c ∈ page.scored, Claimable c.work w.items)
      fun _ h _ => h.Has true none none :=
    Guarded.triple_collect (K := schedulerProtocol ι deps)
      (R := fun (page : ContenderPage) w => ∀ c ∈ page.scored, Claimable c.work w.items)
      (fun page _ _ hmoves h c hc => (h c hc).moves hmoves)
      (fun projectId _ => considerProject_triple deps i options fairnessView now globalPaused
        globalActive projectId) fun _ _ _ h => h
  refine (hloop.pre fun _ _ h => h.1).bind fun pages => Guarded.triple_pure fun h w hpages =>
    ⟨hpages.1, fun c hc => ?_⟩
  rw [List.mem_insertionSort, List.mem_flatMap] at hc
  obtain ⟨page, hpage, hc⟩ := hc
  exact hpages.2 page hpage c hc

/-! ## Claims -/

section Claims

variable {A : WorkerHoldings → SchedulerWorld → Prop} (hA : (schedulerProtocol ι deps).Stable A)

include hA

theorem bestEffortRelease_triple {F : SchedulerError → WorkerHoldings → SchedulerWorld → Prop}
    (coordinationKey ownerId : String) (fenceToken : ℕ) :
    (schedulerProtocol ι deps).Triple i A (bestEffortRelease coordinationKey ownerId fenceToken)
      (fun _ => A) F := by
  exact Guarded.Triple.tryCatch (keeps_triple deps i rfl hA) fun _ =>
    Guarded.triple_pure fun _ _ h => h

theorem acquireLease_triple (ownerId coordinationKey : String) :
    (schedulerProtocol ι deps).Triple i A (acquireLease ownerId coordinationKey) (fun _ => A)
      fun _ => A := by
  refine Guarded.Triple.tryCatch (G := fun _ => A) ?_ fun _ => Guarded.Triple.ite
    (fun _ => Guarded.triple_pure fun _ _ h => h) fun _ => Guarded.triple_throw fun _ _ h => h
  exact (keeps_triple deps i rfl hA).bind fun _ => Guarded.triple_pure fun _ _ h => h

end Claims

/-- What a worker knows about the item that it has claimed, if it has. -/
def ClaimedWork (claimed : Option SchedulerWorkItem) (items : WorkItems) : Prop :=
  ∀ work ∈ claimed, work.status = .claimed ∧ Seen work items

theorem ClaimedWork.moves {claimed : Option SchedulerWorkItem} {items items' : WorkItems}
    (h : ClaimedWork claimed items) (hmoves : ItemsMove items items') :
    ClaimedWork claimed items' :=
  fun work hwork => ⟨(h work hwork).1, (h work hwork).2.moves hmoves⟩

/-- Who claims an item owes its project a charge. -/
theorem claimItem_triple (ownerId : String) (lease : CoordinatorLease) (decisionId : String)
    (hready : work.status = .waiting ∨ work.status = .eligible) :
    (schedulerProtocol ι deps).Triple i (fun h w => h.Has true none none ∧ Seen work w.items)
      (claimItem ownerId work lease decisionId)
      (fun claimed h w => h.Has true (claimed.map (·.projectId)) none ∧
        ClaimedWork claimed w.items)
      fun _ h _ => h.Has true none none := by
  have hupdate := updateCas_triple deps i (G := (·.Has true none none))
    (B := (·.Has true (some work.projectId) none))
    (WorkUpdate.claim ownerId decisionId lease.fenceToken lease.leaseExpiresAt hready)
    (fun h _ hrunning => by
      rw [hrunning] at hready
      rcases hready with hready | hready <;> cases hready)
    (fun h hheld => ⟨fun _ => ⟨hheld.1, hheld.2.1⟩, fun hstatus => (nomatch hstatus)⟩)
    fun h hheld => ⟨hheld.1, rfl, hheld.2.2⟩
  refine Guarded.Triple.tryCatch (G := fun _ h _ => h.Has true none none)
    ((hupdate.conseq (fun _ _ h => h) (fun _ _ _ h => h) fun _ _ _ h => h.2).bind fun claimed =>
      Guarded.triple_pure fun h w hclaimed => ?_) fun e => ?_
  · obtain ⟨rfl, hheld, hseen⟩ := hclaimed
    refine ⟨hheld, fun work hwork => ?_⟩
    cases hwork
    exact ⟨rfl, hseen⟩
  · refine (bestEffortRelease_triple deps i Guarded.stable_held _ _ _).bind fun _ =>
      Guarded.Triple.ite (fun _ => Guarded.triple_pure fun _ _ h => ⟨h, fun _ hw => (nomatch hw)⟩)
        fun _ => Guarded.triple_throw fun _ _ h => h

/-- The charge of a claim is stored. -/
theorem applyCharge_triple {F : SchedulerError → WorkerHoldings → SchedulerWorld → Prop}
    (charge : ServiceCharge) :
    (schedulerProtocol ι deps).Triple i
      (fun h _ => h.Has true (some charge.selectedProjectId) none) (applyCharge charge)
      (fun _ h _ => h.Has true none none) F :=
  (loadState_triple deps i).bind fun _ => (persistCas_triple deps i).bind fun _ =>
    Guarded.triple_pure fun _ _ h => h

/-- One of the candidates is claimed and charged, or none is. -/
theorem claimFirst_triple (ownerId : String) (snapshot : SelectionSnapshot)
    (candidates : List ScoredCandidate) :
    (schedulerProtocol ι deps).Triple i
      (fun h w => h.Has true none none ∧ ∀ c ∈ candidates, Claimable c.work w.items)
      (claimFirst ownerId snapshot candidates)
      (fun claimed h w => h.Has true none none ∧ ClaimedWork (claimed.map Prod.fst) w.items)
      fun _ h _ => h.Has true none none := by
  induction candidates with
  | nil =>
    refine Guarded.Triple.pre (A := fun h _ => h.Has true none none) ?_ fun _ _ h => h.1
    exact (keeps_triple deps i rfl Guarded.stable_held).bind fun decisionId =>
      (keeps_triple deps i rfl Guarded.stable_held).bind fun _ =>
        Guarded.triple_pure fun _ _ h => ⟨h, fun _ hw => (nomatch hw)⟩
  | cons candidate rest ih =>
    have hstable : (schedulerProtocol ι deps).Stable fun h w => h.Has true none none ∧
        ∀ c ∈ candidate :: rest, Claimable c.work w.items :=
      fun _ _ _ hmoves h => ⟨h.1, fun c hc => (h.2 c hc).moves hmoves⟩
    have hrest : ∀ {h : WorkerHoldings} {w : SchedulerWorld}, (h.Has true none none ∧
        ∀ c ∈ candidate :: rest, Claimable c.work w.items) →
        h.Has true none none ∧ ∀ c ∈ rest, Claimable c.work w.items :=
      fun h => ⟨h.1, fun c hc => h.2 c (List.mem_cons_of_mem _ hc)⟩
    refine ((acquireLease_triple deps i hstable ownerId _).conseq (fun _ _ h => h)
      (fun _ _ _ h => h) fun _ _ _ h => h.1).bind fun lease => ?_
    cases lease with
    | none => exact ih.pre fun _ _ h => hrest h
    | some lease =>
      refine ((keeps_triple deps i rfl hstable).conseq (fun _ _ h => h) (fun _ _ _ h => h)
        fun _ _ _ h => h.1).bind fun decisionId => ?_
      refine Guarded.Triple.pre (A := fun h w =>
        (candidate.work.status = .waiting ∨ candidate.work.status = .eligible) ∧
          (h.Has true none none ∧ Seen candidate.work w.items) ∧
            ∀ c ∈ rest, Claimable c.work w.items) (Guarded.Triple.of_pure fun hready => ?_)
        fun h w hread => ?_
      · have hclaim := (claimItem_triple deps i ownerId lease decisionId hready).frame
          (J := fun w => ∀ c ∈ rest, Claimable c.work w.items)
          fun _ _ hmoves h c hc => (h c hc).moves hmoves
        refine (hclaim.conseq (fun _ _ h => h) (fun _ _ _ h => h) fun _ _ _ h => h.1).bind
          fun claimed => ?_
        cases claimed with
        | none => exact ih.pre fun _ _ h => ⟨h.1.1, h.2⟩
        | some claimed =>
          have hcharge := (applyCharge_triple deps i
            (F := fun _ h _ => h.Has true none none)
            ⟨claimed.projectId, snapshot.weights, snapshot.now⟩).frame
              (J := fun w => ClaimedWork (some claimed) w.items) fun _ _ hmoves h => h.moves hmoves
          refine (hcharge.conseq (fun _ _ h => h.1) (fun _ _ _ h => h) fun _ _ _ h => h.1).bind
            fun rows => ?_
          refine ((keeps_triple deps i rfl fun _ _ _ hmoves h => ⟨h.1, h.2.moves hmoves⟩).conseq
            (fun _ _ h => h) (fun _ _ _ h => h) fun _ _ _ h => h.1).bind fun _ => ?_
          exact Guarded.triple_pure fun _ _ h => h
      · obtain ⟨hheld, hclaimable⟩ := hread
        have hcandidate := hclaimable candidate List.mem_cons_self
        exact ⟨hcandidate.1, ⟨hheld, hcandidate.2⟩, fun c hc =>
          hclaimable c (List.mem_cons_of_mem _ hc)⟩

theorem allocate_triple (ownerId : String) (options : SelectWorkOptions) :
    (schedulerProtocol ι deps).Triple i (fun h _ => h.Has true none none)
      (allocate deps ownerId options)
      (fun claimed h w => h.Has true none none ∧ ClaimedWork (claimed.map Prod.fst) w.items)
      fun _ h _ => h.Has true none none :=
  (loadState_triple deps i).bind fun rows =>
    ((buildSelectionSnapshot_triple deps i options (createFairnessState rows)).pre
      fun _ _ h => h.1).bind fun snapshot =>
        claimFirst_triple deps i ownerId snapshot snapshot.scored

/-- The lock is let go of however the allocation ends. -/
theorem runSerializedAllocation_triple {α : Type} {fn : SchedulerAsync α}
    {J : α → WorkItems → Prop}
    (hJ : ∀ v items items', ItemsMove items items' → J v items → J v items')
    (hfn : (schedulerProtocol ι deps).Triple i (fun h _ => h.Has true none none) fn
      (fun v h w => h.Has true none none ∧ J v w.items) fun _ h _ => h.Has true none none) :
    (schedulerProtocol ι deps).Triple i (fun h _ => h.Has false none none)
      (runSerializedAllocation fn) (fun v h w => h.Has false none none ∧ J v w.items)
      fun _ _ _ => True := by
  refine (lock_triple deps i).bind fun _ => (Guarded.Triple.tryCatch hfn fun e =>
    (unlock_triple deps i none).bind fun _ =>
      Guarded.triple_throw fun _ _ _ => trivial).bind fun v => ?_
  have hunlock := (unlock_triple deps i none (F := fun _ _ _ => True)).frame
    (J := fun w => J v w.items) fun _ _ hmoves h => hJ v _ _ hmoves h
  exact (hunlock.conseq (fun _ _ h => h) (fun _ _ _ h => h) fun _ _ _ _ => trivial).bind fun _ =>
    Guarded.triple_pure fun _ _ h => h

/-- An allocation leaves the worker with a claimed item, and with nothing to charge. -/
theorem selectAndClaimWork_triple (ownerId : String) (options : SelectWorkOptions) :
    (schedulerProtocol ι deps).Triple i (fun h _ => h.Has false none none)
      (selectAndClaimWork deps ownerId options)
      (fun claimed h w => h.Has false none none ∧ ClaimedWork (claimed.map Prod.fst) w.items)
      fun _ _ _ => True :=
  (reconcile_triple deps i 200).bind fun _ => runSerializedAllocation_triple deps i
    (J := fun claimed : Option (SchedulerWorkItem × CoordinatorLease) =>
      ClaimedWork (claimed.map Prod.fst)) (fun _ _ _ hmoves h => h.moves hmoves)
    (allocate_triple deps i ownerId options)

/-! ## Dispatch -/

theorem assertFence_triple (fence : LeaseFence) {A : WorkerHoldings → SchedulerWorld → Prop}
    (hA : (schedulerProtocol ι deps).Stable A) :
    (schedulerProtocol ι deps).Triple i A fence.assertFence (fun _ => A)
      fun e h w => A h w ∧ e.isReadinessFailure = false := by
  have hassert : (schedulerProtocol ι deps).Triple i A
      (SchedulerOp.assertWritable fence.coordinationKey fence.ownerId fence.fenceToken).await
      (fun _ => A) fun e h w => e.errorClass = .durabilityError ∧ A h w := by
    refine (harmless_triple deps i rfl hA (R := fun _ _ => True)
      (E := fun e => e.errorClass = .durabilityError) (fun _ _ _ => trivial)
      fun w e he => ?_).conseq (fun _ _ h => h) (fun _ _ _ h => h.1) fun _ _ _ h => ⟨h.2, h.1⟩
    simp only [SchedulerWorld.call, SchedulerWorld.assertWritable] at he
    split at he
    · cases he
    · cases he
      rfl
  refine Guarded.Triple.tryCatch hassert fun e => Guarded.Triple.of_pure fun he => ?_
  refine Guarded.Triple.ite (fun _ => Guarded.triple_throw fun _ _ h => ⟨h, rfl⟩) fun hother => ?_
  exact absurd he hother

/-- The error is no readiness failure, or the worker holds nothing. -/
def FailsIdle (e : SchedulerError) (h : WorkerHoldings) : Prop :=
  e.isReadinessFailure = true → h.Has false none none

theorem failsIdle_of_eq_false {e : SchedulerError} (he : e.isReadinessFailure = false)
    (h : WorkerHoldings) : FailsIdle e h := by
  intro hfailure
  rw [he] at hfailure
  cases hfailure

theorem markStale_triple (fence : LeaseFence) (reasonCode : String)
    (hclaimed : work.status = .claimed) :
    (schedulerProtocol ι deps).Triple i (fun h w => h.Has false none none ∧ Seen work w.items)
      (fence.markStale work reasonCode) (fun _ h _ => h.Has false none none)
      fun e h _ => FailsIdle e h := by
  refine ((assertFence_triple deps i fence fun _ _ _ hmoves h => ⟨h.1, h.2.moves hmoves⟩).conseq
    (fun _ _ h => h) (fun _ _ _ h => h) fun e h w he => fun _ => he.1.1).bind fun _ => ?_
  have hupdate := updateCas_triple deps i (G := (·.Has false none none))
    (B := (·.Has false none none)) (WorkUpdate.stale reasonCode
      (Collections.codeUnits s!"Stale work: {reasonCode}") hclaimed)
    (fun h _ hrunning => by rw [hclaimed] at hrunning; cases hrunning)
    (fun h _ => ⟨fun hstatus => (nomatch hstatus), fun hstatus => (nomatch hstatus)⟩)
    fun h hheld => hheld.settle _ _ (fun h => (nomatch h)) fun h => (nomatch h)
  exact hupdate.conseq (fun _ _ h => h) (fun _ _ _ h => h.2.1) fun e h w he => fun _ => he.2

/-- The worker that sets an item running works on it. -/
theorem markRunning_triple (fence : LeaseFence) (hclaimed : work.status = .claimed) :
    (schedulerProtocol ι deps).Triple i (fun h w => h.Has false none none ∧ Seen work w.items)
      (fence.markRunning work)
      (fun running h w => (running.status = .running ∧ running.workItemId = work.workItemId) ∧
        h.Has false none (some (running.workItemId, false)) ∧ Seen running w.items)
      fun e h _ => FailsIdle e h := by
  refine ((assertFence_triple deps i fence fun _ _ _ hmoves h => ⟨h.1, h.2.moves hmoves⟩).conseq
    (fun _ _ h => h) (fun _ _ _ h => h) fun e h w he => fun _ => he.1.1).bind fun _ => ?_
  have hupdate := updateCas_triple deps i (G := (·.Has false none none))
    (B := (·.Has false none (some (work.workItemId, false)))) (WorkUpdate.run hclaimed)
    (fun h _ hrunning => by rw [hclaimed] at hrunning; cases hrunning)
    (fun h hheld => ⟨fun hstatus => (nomatch hstatus), fun _ => hheld.2.2⟩)
    fun h hheld => ⟨hheld.1, hheld.2.1, rfl⟩
  refine hupdate.conseq (fun _ _ h => h) (fun running h w hrunning => ?_)
    fun e h w he => fun _ => he.2
  obtain ⟨rfl, hheld, hseen⟩ := hrunning
  exact ⟨⟨rfl, rfl⟩, hheld, hseen⟩

/-- The worker settles the item that it works on, or keeps working on it. -/
theorem settle_triple (hrunning : work.status = .running) (hupdate : WorkUpdate work updated)
    (hclaimed : updated.status ≠ .claimed) :
    (schedulerProtocol ι deps).Triple i
      (fun h w => h.Has false none (some (work.workItemId, true)) ∧ Seen work w.items)
      (SchedulerOp.updateCas updated work.recordRevision).await
      (fun _ h _ => h.Has false none none)
      fun e h w => (h.Has false none (some (work.workItemId, true)) ∧ Seen work w.items) ∧
        e.isReadinessFailure = false := by
  have h := (updateCas_triple deps i
    (G := (·.Has false none (some (work.workItemId, true)))) (B := (·.Has false none none)) hupdate
    (fun h hheld _ => ⟨true, hheld.2.2⟩)
    (fun h hheld => ⟨fun hstatus => absurd hstatus hclaimed, fun hstatus =>
      absurd hstatus (hupdate.settles hrunning)⟩) fun h hheld => ?_).frame
    (J := fun w => Seen work w.items) fun _ _ hmoves h => h.moves hmoves
  · refine h.conseq (fun _ _ h => ⟨h, h.2⟩) (fun _ _ _ h => h.1.2.1) fun e h w he => ?_
    obtain ⟨⟨rfl, hG⟩, hseen⟩ := he
    exact ⟨⟨hG, hseen⟩, rfl⟩
  · have hsettled := hheld.settle updated work.recordRevision (hupdate.settles hrunning) hclaimed
    rw [if_pos] at hsettled
    · exact hsettled
    · exact congrArg some hupdate.same.1.symm

theorem markSucceeded_triple (fence : LeaseFence) (resultRef : Option String)
    (hrunning : work.status = .running) :
    (schedulerProtocol ι deps).Triple i
      (fun h w => h.Has false none (some (work.workItemId, true)) ∧ Seen work w.items)
      (fence.markSucceeded work resultRef) (fun _ h _ => h.Has false none none)
      fun e h w => (h.Has false none (some (work.workItemId, true)) ∧ Seen work w.items) ∧
        e.isReadinessFailure = false :=
  (assertFence_triple deps i fence fun _ _ _ hmoves h => ⟨h.1, h.2.moves hmoves⟩).bind fun _ =>
    settle_triple deps i hrunning (.succeed _ hrunning) fun h => (nomatch h)

theorem markFailed_triple (fence : LeaseFence) (failureClass reasonCode : String)
    (message : List ℕ) (retryable : Bool) (hrunning : work.status = .running) :
    (schedulerProtocol ι deps).Triple i
      (fun h w => h.Has false none (some (work.workItemId, true)) ∧ Seen work w.items)
      (fence.markFailed work failureClass reasonCode message retryable)
      (fun _ h _ => h.Has false none none)
      fun e h w => (h.Has false none (some (work.workItemId, true)) ∧ Seen work w.items) ∧
        e.isReadinessFailure = false := by
  refine (assertFence_triple deps i fence fun _ _ _ hmoves h => ⟨h.1, h.2.moves hmoves⟩).bind
    fun _ => ?_
  refine (read_triple deps i rfl (fun _ _ _ hmoves h => ⟨h.1, h.2.moves hmoves⟩)
    (·.surroundings.nowIso) fun _ => rfl).bind fun now => ?_
  cases decide (work.attemptCount ≥ work.maxAttempts) || !retryable with
  | true =>
    exact (settle_triple deps i hrunning
      (.fail failureClass reasonCode (message.take 2000) hrunning) fun h => (nomatch h)).pre fun _ _ h => h.1
  | false =>
    exact (settle_triple deps i hrunning
      (.retry _ failureClass reasonCode (message.take 2000) hrunning) fun h => (nomatch h)).pre fun _ _ h => h.1

/-- A dispatch leaves the worker with nothing, or fails in a way that ends its tick. -/
theorem dispatch_triple (fence : LeaseFence) (hclaimed : work.status = .claimed) :
    (schedulerProtocol ι deps).Triple i (fun h w => h.Has false none none ∧ Seen work w.items)
      (dispatch fence work) (fun _ h _ => h.Has false none none) fun e h _ => FailsIdle e h := by
  refine ((keeps_triple deps i rfl fun _ _ _ hmoves h => ⟨h.1, h.2.moves hmoves⟩).conseq
    (fun _ _ h => h) (fun _ _ _ h => h) fun e h w he => fun _ => he.1).bind fun refusal => ?_
  cases refusal with
  | some refusal =>
    exact (markStale_triple deps i fence refusal.reasonCode hclaimed).bind fun _ =>
      Guarded.triple_throw fun _ _ h => fun _ => h
  | none =>
    refine (markRunning_triple deps i fence hclaimed).bind fun running =>
      Guarded.Triple.of_pure fun hrunning => ?_
    refine Guarded.Triple.tryCatch (G := fun _ h w =>
      h.Has false none (some (running.workItemId, true)) ∧ Seen running w.items)
      ((invoke_triple deps i).bind fun resultRef =>
        (markSucceeded_triple deps i fence resultRef hrunning.1).conseq (fun _ _ h => h)
          (fun _ _ _ h => h) fun _ _ _ h => h.1) fun e => ?_
    exact ((markFailed_triple deps i fence _ _ _ _ hrunning.1).conseq (fun _ _ h => h)
      (fun _ _ _ h => h) fun e h _ he => failsIdle_of_eq_false he.2 h).bind fun _ =>
        Guarded.triple_throw fun _ _ h => fun _ => h

/-! ## Ticks -/

theorem dispatchClaimed_triple (ports : SchedulerLoopPorts) (lease : CoordinatorLease)
    (hclaimed : work.status = .claimed) :
    (schedulerProtocol ι deps).Triple i (fun h w => h.Has false none none ∧ Seen work w.items)
      (dispatchClaimed ports work lease) (fun _ h _ => h.Has false none none)
      fun _ _ _ => True := by
  have hdispatch := (dispatch_triple deps i ⟨schedulerWorkCoordinationKey work.workItemId,
    ports.runtimeId, lease.fenceToken⟩ hclaimed).bind (f := fun _ => Async.pure true)
      (C := fun _ h _ => h.Has false none none) fun _ => Guarded.triple_pure fun _ _ h => h
  refine (Guarded.Triple.tryCatch hdispatch fun e => ?_).bind fun dispatched => ?_
  · refine (bestEffortRelease_triple deps i Guarded.stable_held _ _ _).bind fun _ =>
      Guarded.Triple.ite (fun hready => Guarded.triple_pure fun _ _ h => h hready) fun _ =>
        Guarded.triple_throw fun _ _ _ => trivial
  · cases dispatched with
    | true =>
      exact (bestEffortRelease_triple deps i Guarded.stable_held _ _ _).bind fun _ =>
        Guarded.triple_pure fun _ _ h => h
    | false => exact Guarded.triple_pure fun _ _ h => h

theorem claimTurns_triple (ports : SchedulerLoopPorts) (n : ℕ) (result : ClaimTickResult) :
    (schedulerProtocol ι deps).Triple i (fun h _ => h.Has false none none)
      (claimTurns deps ports n result) (fun _ _ _ => True) fun _ _ _ => True := by
  induction n generalizing result with
  | zero => exact Guarded.triple_pure fun _ _ _ => trivial
  | succ n ih =>
    refine (read_triple deps i rfl Guarded.stable_held (·.surroundings.isAccepting)
      fun _ => rfl).bind fun accepting => Guarded.Triple.ite (fun _ => ?_) fun _ =>
        Guarded.triple_pure fun _ _ _ => trivial
    refine ((selectAndClaimWork_triple deps i ports.runtimeId ports.options).pre
      fun _ _ h => h.1).bind fun claimed => ?_
    cases claimed with
    | none => exact Guarded.triple_pure fun _ _ _ => trivial
    | some claimed =>
      obtain ⟨work, lease⟩ := claimed
      refine Guarded.Triple.pre (A := fun h w => work.status = .claimed ∧
        h.Has false none none ∧ Seen work w.items) (Guarded.Triple.of_pure fun hclaimed => ?_)
        fun h w hw => ⟨(hw.2 work rfl).1, hw.1, (hw.2 work rfl).2⟩
      exact (dispatchClaimed_triple deps i ports lease hclaimed).bind fun dispatched => ih _

theorem claimTick_triple (ports : SchedulerLoopPorts) :
    (schedulerProtocol ι deps).Triple i (fun h _ => h.Has false none none)
      (claimTick deps ports) (fun _ _ _ => True) fun _ _ _ => True := by
  refine (read_triple deps i rfl Guarded.stable_held (·.surroundings.isAccepting)
    fun _ => rfl).bind fun accepting => Guarded.Triple.ite (fun _ => ?_) fun _ =>
      Guarded.triple_pure fun _ _ _ => trivial
  refine ((read_triple deps i rfl Guarded.stable_held (·.surroundings.databaseReachable)
    fun _ => rfl).pre fun _ _ h => h.1).bind fun reachable => Guarded.Triple.ite (fun _ => ?_)
      fun _ => Guarded.triple_pure fun _ _ _ => trivial
  exact (claimTurns_triple deps i ports ports.claimBatchSize ⟨0, 0⟩).pre fun _ _ h => h.1

theorem discoveryTick_triple (ports : SchedulerLoopPorts) :
    (schedulerProtocol ι deps).Triple i (fun _ _ => True) (discoveryTick deps ports)
      (fun _ _ _ => True) fun _ _ _ => True := by
  have hA : (schedulerProtocol ι deps).Stable fun _ _ => True := fun _ _ _ _ _ => trivial
  refine (keeps_triple deps i rfl hA).bind fun _ => Guarded.Triple.ite (fun _ => ?_) fun _ =>
    Guarded.triple_pure fun _ _ h => h
  refine (keeps_triple deps i rfl hA).bind fun _ => Guarded.Triple.ite (fun _ => ?_) fun _ =>
    Guarded.triple_pure fun _ _ h => h
  refine (keeps_triple deps i rfl hA).bind fun runIds => ?_
  refine (Guarded.triple_collect (R := fun _ _ => True) (fun _ _ _ _ _ => trivial)
    (fun runId _ => ?_) fun _ _ _ h => h).bind fun _ => Guarded.triple_pure fun _ _ _ => trivial
  refine (keeps_triple deps i rfl hA).bind fun run => ?_
  cases run with
  | none => exact Guarded.triple_pure fun _ _ _ => ⟨trivial, trivial⟩
  | some run =>
    refine (keeps_triple deps i rfl hA).bind fun kinds =>
      (configFor_triple deps i hA run.projectId).bind fun config => ?_
    refine (Guarded.triple_collect (R := fun _ _ => True) (fun _ _ _ _ _ => trivial)
      (fun workKind _ => ?_) fun _ _ _ h => h).bind fun _ =>
        Guarded.triple_pure fun _ _ _ => ⟨trivial, trivial⟩
    refine (keeps_triple deps i rfl hA).bind fun key =>
      (keeps_triple deps i rfl hA).bind fun existing => ?_
    cases existing with
    | some _ => exact Guarded.triple_pure fun _ _ _ => ⟨trivial, trivial⟩
    | none =>
      exact (keeps_triple deps i rfl hA).bind fun now =>
        (keeps_triple deps i rfl hA).bind fun depsOk => (save_triple deps i hA).bind fun _ => Guarded.triple_pure fun _ _ _ => ⟨trivial, trivial⟩

theorem run_triple (tick : SchedulerTick) :
    (schedulerProtocol ι deps).Triple i (fun h _ => h.Has false none none) (tick.run deps)
      (fun _ _ _ => True) fun _ _ _ => True := by
  cases tick with
  | claim ports =>
    exact (claimTick_triple deps i ports).bind fun _ => Guarded.triple_pure fun _ _ _ => trivial
  | discover ports =>
    exact ((discoveryTick_triple deps i ports).pre fun _ _ _ => trivial).bind fun _ =>
      Guarded.triple_pure fun _ _ _ => trivial

end Programs

end Protocol

end Orchestrator
