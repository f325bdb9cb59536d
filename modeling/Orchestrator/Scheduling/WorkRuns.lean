import Orchestrator.Scheduling.Exclusive

/-!
# Schedulers at work

What holds in every run of any number of claim ticks and discovery ticks on the same repositories.

* `work_exclusive`: every item that is invoked is running, and for one tick only, which invokes it
  once;
* `claims_charged`: every claim is charged to its project once, and only a claim of the tick that
  holds the lock may still have to be charged.
-/

namespace Orchestrator

open Atomic Collections

variable {ι : Type} [DecidableEq ι] {deps : SchedulerDeps} {w : SchedulerWorld}
  {ticks : ι → SchedulerTick}

/-! ## The protocol over a run -/

/-- The calls of a run in which discovery adds items only where there are none. -/
abbrev SavesOnlyNew (deps : SchedulerDeps) (w : SchedulerWorld) (ticks : ι → SchedulerTick)
    (acts : List (Action ι SchedulerSurroundings)) : Prop :=
  (schedulerPool deps w ticks).AllAllowed (schedulerSystem deps) SavesNew acts

theorem schedulerPool_holds (deps : SchedulerDeps) (w : SchedulerWorld) (ticks : ι → SchedulerTick)
    (acts : List (Action ι SchedulerSurroundings))
    (hsaves : SavesOnlyNew deps w ticks acts) :
    (schedulerProtocol ι deps).Holds (fun _ => .nothing) (fun _ _ _ _ => True)
      ((schedulerPool deps w ticks).exec (schedulerSystem deps) acts) ∧
    ItemsMove w.items ((schedulerPool deps w ticks).exec (schedulerSystem deps) acts).state.items
    := by
  have hinit : (schedulerProtocol ι deps).Holds (fun _ => .nothing) (fun _ _ _ _ => True)
      (schedulerPool deps w ticks) := by
    refine Guarded.Holds.init ?_ fun i => ?_
    · constructor
      · exact fun _ => trivial
      · exact fun _ h => (nomatch h)
      · exact fun _ _ h => (nomatch h)
      · exact fun _ _ h => (nomatch h)
      · exact fun _ _ h => (nomatch h)
      · exact fun _ _ _ h => (nomatch h)
      · exact fun _ _ _ _ _ h => (nomatch h)
    · exact (run_triple deps i (ticks i) [] (w, fun _ => .nothing) ⟨rfl, rfl, rfl⟩).mono
        fun _ _ _ _ => trivial
  exact ⟨hinit.exec acts hsaves, hinit.exec_moves acts hsaves⟩

/-! ## A small system -/

/-- One run, with one kind of work to discover. -/
def smallSurroundings : SchedulerSurroundings where
  nowIso := 10
  dateNow := 10
  isAccepting := true
  databaseReachable := true
  globalPaused := false
  projectPaused _ := false
  projectConfig _ := none
  view :=
    { listByDependentRun _ := []
      getById runId := some ⟨runId, "project", "environment", .admitted, 1, 0⟩
      hasVerifiedRepository _ := true
      hasValidationPassOrApprovalRequired _ := true
      completionRecord _ := true }
  discoverableRunIds := ["run"]
  candidateWorkKinds _ := ["PLAN_RUN"]
  workLogicalIdentityKey run workKind := run.runId ++ ":" ++ workKind
  randomUUID := "uuid"
  assertDispatchReady _ := .ok none
  invoke _ := .ok none

def smallDeps : SchedulerDeps := ⟨fun a b => decide (a ≤ b), 4, true, fun key => "swi_" ++ key⟩

def smallWorld : SchedulerWorld :=
  ⟨.empty, .empty, .empty, false, .empty, 0, [], smallSurroundings⟩

inductive SmallLoop where
  | discovery
  | worker
  | rival
  deriving DecidableEq

/-- A discovery tick, and two claim ticks. -/
def smallTicks : SmallLoop → SchedulerTick
  | .discovery => .discover ⟨"discovery", ⟨fun _ => true, none, none⟩, 10, 2⟩
  | .worker => .claim ⟨"worker_a", ⟨fun _ => true, none, none⟩, 10, 2⟩
  | .rival => .claim ⟨"worker_b", ⟨fun _ => true, none, none⟩, 10, 2⟩

/-- The discovery tick, then `n` calls of the first claim tick, then eight of the second. -/
def smallActs (n : ℕ) : List (Action SmallLoop SchedulerSurroundings) :=
  List.replicate 11 (.run .discovery) ++ List.replicate n (.run .worker) ++
    List.replicate 8 (.run .rival)

/-! ## What a log says -/

/-- What a tick holds after its calls. -/
def holdingsOf (log : Log SchedulerSig) : WorkerHoldings :=
  log.foldr (fun e h => h.note e) .nothing

theorem working_holdingsOf (log : Log SchedulerSig) : (holdingsOf log).working = workingOn log := by
  induction log with
  | nil => rfl
  | cons e log ih => exact congrArg (tracksWork e) ih

theorem lawful_of_suffix {log before : Log SchedulerSig} (h : (holdingsOf log).lawful)
    (hsuffix : before <:+ log) : (holdingsOf before).lawful := by
  obtain ⟨later, rfl⟩ := hsuffix
  induction later with
  | nil => exact h
  | cons e later ih => exact ih h.1

theorem holdings_eq_holdingsOf {pool : Pool SchedulerSig ι SchedulerWorld
      (Except SchedulerError SchedulerTickResult)} (i : ι) :
    (schedulerProtocol ι deps).holdings (fun _ => .nothing) pool i = holdingsOf (pool.log i) :=
  Guarded.holdings_eq_foldr _ pool i

/-! ## Exclusive dispatch -/

/-- No item is dispatched by two ticks at once, or twice by one. -/
structure WorkExclusive (items : WorkItems)
    (pool : Pool SchedulerSig ι SchedulerWorld (Except SchedulerError SchedulerTickResult)) :
    Prop where
  running : ∀ i id invoked, workingOn (pool.log i) = some (id, invoked) →
    ∃ item, pool.state.items.getById id = some item ∧ item.status = .running
  exclusive : ∀ i j id invoked invoked', workingOn (pool.log i) = some (id, invoked) →
    workingOn (pool.log j) = some (id, invoked') → i = j
  invoked_once : ∀ i work r before,
    (⟨.invoke work, r⟩ :: before : Log SchedulerSig) <:+ pool.log i →
      workingOn before = some (work.workItemId, false)
  life_cycle : ItemsMove items pool.state.items

/-- The call claims an item of the project. -/
def ClaimsFor (projectId : String) (e : Event SchedulerSig) : Bool :=
  match e with
  | ⟨.updateCas _ _, .ok next⟩ =>
    decide (next.status = .claimed ∧ next.projectId = projectId)
  | _ => false

/-- The call charges the project. -/
def ChargesFor (projectId : String) (e : Event SchedulerSig) : Bool :=
  match e with
  | ⟨.persistCas charge _, .ok _⟩ => decide (charge.selectedProjectId = projectId)
  | _ => false

/-- A tick has charged what it has claimed, but for what it owes. -/
theorem countP_claimsFor (projectId : String) {log : Log SchedulerSig}
    (h : (holdingsOf log).lawful) :
    log.countP (ClaimsFor projectId) = log.countP (ChargesFor projectId) +
      if (holdingsOf log).owes = some projectId then 1 else 0 := by
  induction log with
  | nil => rfl
  | cons e log ih =>
    obtain ⟨hbefore, hlawful⟩ := h
    have ih := ih hbefore
    have hnote : holdingsOf (e :: log) = (holdingsOf log).note e := rfl
    rw [List.countP_cons, List.countP_cons, ih, hnote]
    obtain ⟨o, r⟩ := e
    cases o with
    | updateCas item rev =>
      cases r with
      | error e => rfl
      | ok next =>
        by_cases hclaimed : next.status = .claimed
        · have howes : (holdingsOf log).owes = none := (hlawful.1 hclaimed).2
          simp only [WorkerHoldings.note, ClaimsFor, ChargesFor, hclaimed, howes, if_true, true_and,
            decide_eq_true_eq, Option.some.injEq, reduceCtorEq, if_false, Bool.false_eq_true]
        · simp only [WorkerHoldings.note, ClaimsFor, ChargesFor, hclaimed, if_false, false_and,
            decide_false, Bool.false_eq_true]
          omega
    | persistCas charge before =>
      cases r with
      | error e => exact hlawful.elim
      | ok rows =>
        have howes : (holdingsOf log).owes = some charge.selectedProjectId := hlawful.2.2
        simp only [WorkerHoldings.note, ClaimsFor, ChargesFor, howes, decide_eq_true_eq,
          Option.some.injEq, reduceCtorEq, if_false, Bool.false_eq_true]
    | _ => rfl

/-- Only a charge changes what is stored about fairness. -/
theorem call_fairness {o : SchedulerOp} (ho : ∀ charge before, o ≠ .persistCas charge before)
    (w : SchedulerWorld) : (w.call deps o).2.fairness = w.fairness := by
  by_cases hharmless : o.harmless = true
  · exact (call_harmless deps hharmless w).2.1
  · cases o with
    | save item =>
      simp only [SchedulerWorld.call, SchedulerWorld.saveItem]
      split <;> rfl
    | updateCas item rev =>
      simp only [SchedulerWorld.call, SchedulerWorld.updateCas]
      split <;> rfl
    | lock =>
      simp only [SchedulerWorld.call]
      split <;> rfl
    | unlock | loadState | invoke => rfl
    | persistCas charge before => exact absurd rfl (ho charge before)
    | _ => exact absurd rfl hharmless

/-- What is stored about a project's services is the number of its charges. -/
theorem serviceSequence_eq (acts : List (Action ι SchedulerSurroundings))
    (hsaves : SavesOnlyNew deps w ticks acts) (projectId : String) :
    ((schedulerPool deps w ticks).exec (schedulerSystem deps)
        acts).state.fairness.serviceSequence projectId =
      w.fairness.serviceSequence projectId +
        ((schedulerPool deps w ticks).exec (schedulerSystem deps) acts).history.countP
          fun e => ChargesFor projectId e.2 := by
  have hinit := (schedulerPool_holds deps w ticks [] trivial).1
  refine (Along.keeps (I := fun pool : Pool SchedulerSig ι SchedulerWorld
      (Except SchedulerError SchedulerTickResult) =>
    (schedulerProtocol ι deps).Holds (fun _ => .nothing) (fun _ _ _ _ => True) pool ∧
      pool.state.fairness.serviceSequence projectId = w.fairness.serviceSequence projectId +
        pool.history.countP fun e => ChargesFor projectId e.2) (fun pool a ha hpool => ?_) hsaves
    ⟨hinit, rfl⟩).2
  obtain ⟨hholds, hcount⟩ := hpool
  have hafter := hholds.act a ha
  refine ⟨hafter, ?_⟩
  rcases pool.act_cases (schedulerSystem deps) a with ⟨i, o, k, rfl, hp, -, hact⟩ | ⟨i, rfl, hact⟩ |
    ⟨e, rfl, hact⟩ | hact
  · rw [hact] at hafter ⊢
    rw [List.countP_cons]
    have hlawful : ((schedulerProtocol ι deps).holdings (fun _ => .nothing) pool i).Lawful
        ⟨o, (pool.state.call deps o).1⟩ := by
      have h := (hafter.inv.lawful i)
      simp only [Protocol.holdings, List.foldr_cons, Function.update_self] at h
      exact h.2
    by_cases ho : ∃ charge before, o = .persistCas charge before
    · obtain ⟨charge, before, rfl⟩ := ho
      obtain ⟨rows', hcharge, hrows'⟩ :=
        FairnessRows.rows_after_charge deps.localeLe pool.state.fairness charge
      have hbefore : before = pool.state.fairness.listAll deps.localeLe := by
        cases hr : (pool.state.call deps (.persistCas charge before)).1 with
        | error e =>
          rw [hr] at hlawful
          exact hlawful.elim
        | ok rows =>
          rw [hr] at hlawful
          exact (hholds.inv.rows i before hlawful.2.1).2
      have hpersist : FairnessRows.persistCas before
          (nextFairnessRowsAfterService deps.localeLe before charge) pool.state.fairness =
            (.ok (), rows') := by
        rw [hbefore]
        exact hcharge
      have hcall : (schedulerSystem deps).handler (.persistCas charge before) pool.state =
          (.ok (nextFairnessRowsAfterService deps.localeLe before charge),
            { pool.state with fairness := rows' }) := by
        change pool.state.call deps (.persistCas charge before) = _
        simp only [SchedulerWorld.call, SchedulerWorld.persistCas, hpersist]
      rw [hcall]
      change rows'.serviceSequence projectId = _ + (_ + if decide (charge.selectedProjectId =
        projectId) = true then 1 else 0)
      rw [hrows'.serviceSequence, hcount, ServiceCharge.serves, Nat.add_assoc]
      by_cases hserved : charge.selectedProjectId = projectId
      · rw [if_pos hserved.symm, if_pos (decide_eq_true hserved)]
      · rw [if_neg (Ne.symm hserved), if_neg (by rw [decide_eq_true_eq]; exact hserved)]
    · have hother : ∀ charge before, o ≠ .persistCas charge before :=
        fun charge before h => ho ⟨charge, before, h⟩
      have hcharges : ChargesFor projectId ⟨o, (pool.state.call deps o).1⟩ = false := by
        cases o with
        | persistCas charge before => exact absurd rfl (hother charge before)
        | _ => rfl
      change (pool.state.call deps o).2.fairness.serviceSequence projectId = _ +
        (_ + if ChargesFor projectId ⟨o, (pool.state.call deps o).1⟩ = true then 1 else 0)
      rw [call_fairness hother, hcharges, hcount]
      rfl
  all_goals
    rw [hact]
    exact hcount

/-- Every claim so far was charged to its project, but for the claim of the project that is owed. -/
structure ClaimsCharged (fairness : FairnessRows) (owed : Option String)
    (pool : Pool SchedulerSig ι SchedulerWorld (Except SchedulerError SchedulerTickResult)) :
    Prop where
  locked : owed ≠ none → pool.state.locked = true
  charged : ∀ projectId, pool.state.fairness.serviceSequence projectId +
    (if owed = some projectId then 1 else 0) = fairness.serviceSequence projectId +
      pool.history.countP fun e => ClaimsFor projectId e.2

/-- In every run in which discovery adds items only where there are none, the services that are
stored for each project are the claims of its items, but for at most one claim, which the tick that
holds the lock is about to charge. -/
theorem claims_charged (deps : SchedulerDeps) (w : SchedulerWorld) (ticks : ι → SchedulerTick)
    (acts : List (Action ι SchedulerSurroundings)) (hsaves : SavesOnlyNew deps w ticks acts) :
    ∃ owed, ClaimsCharged w.fairness owed
      ((schedulerPool deps w ticks).exec (schedulerSystem deps) acts) := by
  have hinv := (schedulerPool_holds deps w ticks acts hsaves).1.inv
  have hcharges := serviceSequence_eq acts hsaves
  generalize (schedulerPool deps w ticks).exec (schedulerSystem deps) acts = pool at hinv hcharges ⊢
  have hholdings : ∀ i, (schedulerProtocol ι deps).holdings (fun _ => .nothing) pool i =
      holdingsOf (pool.log i) := holdings_eq_holdingsOf
  have hlog : ∀ i projectId, (pool.log i).countP (ClaimsFor projectId) =
      (pool.log i).countP (ChargesFor projectId) +
        if (holdingsOf (pool.log i)).owes = some projectId then 1 else 0 := fun i projectId =>
    countP_claimsFor projectId (by rw [← hholdings]; exact hinv.lawful i)
  -- at most one tick owes a charge: it holds the lock
  have hone : ∃ owed : Option String, (owed ≠ none → pool.state.locked = true) ∧
      ∀ projectId (T : Finset ι), (∀ e ∈ pool.history, e.1 ∈ T) →
        (∑ i ∈ T, if (holdingsOf (pool.log i)).owes = some projectId then 1 else 0) =
          if owed = some projectId then 1 else 0 := by
    by_cases howes : ∃ i p, (holdingsOf (pool.log i)).owes = some p
    · obtain ⟨i, p, hi⟩ := howes
      have hlock : ∀ {j q}, (holdingsOf (pool.log j)).owes = some q →
          ((schedulerProtocol ι deps).holdings (fun _ => .nothing) pool j).lock = true := by
        intro j q hj
        rw [← hholdings] at hj
        exact hinv.owes j q hj
      refine ⟨some p, fun _ => hinv.locked i (hlock hi), fun projectId T hT => ?_⟩
      rw [Finset.sum_eq_single i, hi]
      · intro j _ hji
        exact if_neg fun hj => hji (hinv.one_lock j i (hlock hj) (hlock hi))
      · intro hnot
        have hnil : pool.log i = [] := by
          refine List.eq_nil_iff_forall_not_mem.mpr fun e he => hnot ?_
          exact hT _ (Pool.mem_log.mp he)
        rw [hnil] at hi
        cases hi
    · refine ⟨none, fun h => absurd rfl h, fun projectId T _ => ?_⟩
      exact Finset.sum_eq_zero fun i _ => if_neg fun hi => howes ⟨i, projectId, hi⟩
  obtain ⟨owed, hlocked, howed⟩ := hone
  refine ⟨owed, hlocked, fun projectId => ?_⟩
  have hT : ∀ e ∈ pool.history, e.1 ∈ (pool.history.map Prod.fst).toFinset := by
    intro e he
    rw [List.mem_toFinset]
    exact List.mem_map_of_mem he
  rw [hcharges, countP_eq_sum_tags (ClaimsFor projectId) _ _ hT,
    countP_eq_sum_tags (ChargesFor projectId) _ _ hT, ← howed projectId _ hT, Nat.add_assoc,
    ← Finset.sum_add_distrib]
  exact congrArg _ (Finset.sum_congr rfl fun i _ => (hlog i projectId).symm)

/-- The first claim tick has claimed an item that it has not charged yet. -/
theorem claims_charged_owing :
    ∃ owed, ClaimsCharged smallWorld.fairness owed
      ((schedulerPool smallDeps smallWorld smallTicks).exec (schedulerSystem smallDeps)
        (smallActs 18)) :=
  claims_charged smallDeps smallWorld smallTicks (smallActs 18) (by decide +kernel)

end Orchestrator
