import Orchestrator.Planning.UsageLedger

/-!
# The token budget of planning

The ledger never lets a run reserve more than its budget holds, as long as an overrun is
flagged when it is settled.

* `UsageLedger.total`: what the records of a run add up to, and how one record changes it;
* `Within`, the invariant of the ledger, kept by every `Budgeted` call;
* `planning_budget_kept`: it holds in every run, where the limit on calls is a whole number;
* `planning_budget_overrun`: half a call is one call too many.
-/

namespace Orchestrator

open Atomic Collections

/-! ## What the records of a run come to -/

/-- The record counts as a call of the model. -/
def PlanningModelUsage.calls (r : PlanningModelUsage) : ℕ :=
  if r.status = .released then 0 else 1

/-- The tokens that the record holds or has used. -/
def PlanningModelUsage.tokens (r : PlanningModelUsage) : ℚ :=
  match r.status with
  | .released => 0
  | .started => r.reservedTokens
  | .settled _ => r.totalUsage.getD 0

namespace UsageLedger

/-- The sum of `f` over the records of a run. -/
def total {M : Type} [AddCommMonoid M] (l : UsageLedger) (run : String)
    (f : PlanningModelUsage → M) : M :=
  ((l.recordsForRun run).map f).sum

theorem foldl_add (records : List PlanningModelUsage) (a : PlanningUsageAggregate) :
    (records.foldl .add a).llmCalls = a.llmCalls + (records.map (·.calls)).sum ∧
    (records.foldl .add a).totalTokens = a.totalTokens + (records.map (·.tokens)).sum := by
  induction records generalizing a with
  | nil => simp
  | cons r records ih =>
    obtain ⟨hcalls, htokens⟩ := ih (a.add r)
    simp only [List.foldl_cons, List.map_cons, List.sum_cons]
    rw [hcalls, htokens]
    have hadd : (a.add r).llmCalls = a.llmCalls + r.calls ∧
        (a.add r).totalTokens = a.totalTokens + r.tokens := by
      unfold PlanningUsageAggregate.add PlanningModelUsage.calls PlanningModelUsage.tokens
        PlanningUsageAggregate.totalTokens
      cases r.status <;> simp <;> ring
    rw [hadd.1, hadd.2]
    exact ⟨add_assoc .., add_assoc ..⟩

theorem llmCalls_aggregate (l : UsageLedger) (run : String) :
    (l.aggregate run).llmCalls = l.total run (·.calls) := by
  have h := (foldl_add (l.recordsForRun run) ⟨0, 0, 0, 0, 0, false⟩).1
  rwa [zero_add] at h

theorem totalTokens_aggregate (l : UsageLedger) (run : String) :
    (l.aggregate run).totalTokens = l.total run (·.tokens) := by
  have h := (foldl_add (l.recordsForRun run) ⟨0, 0, 0, 0, 0, false⟩).2
  have hzero : PlanningUsageAggregate.totalTokens ⟨0, 0, 0, 0, 0, false⟩ = 0 := add_zero 0
  rwa [hzero, zero_add] at h

theorem total_eq {M : Type} [AddCommMonoid M] (l : UsageLedger) (run : String)
    (f : PlanningModelUsage → M) :
    l.total run f = (l.byCallId.values.map fun r => if r.runId = run then f r else 0).sum := by
  unfold total recordsForRun
  induction l.byCallId.values with
  | nil => rfl
  | cons r records ih =>
    by_cases hr : r.runId = run
    · simp [hr, ih]
    · simp [hr, ih]

/-- Storing a record adds it to the sum of its run and takes the one it replaces away. -/
theorem total_set {M : Type} [AddCommMonoid M] (l : UsageLedger) (run : String)
    (f : PlanningModelUsage → M) (callId : String) (r : PlanningModelUsage)
    (runs : Finset String) :
    (UsageLedger.mk (l.byCallId.set callId r) runs).total run f +
      (l.byCallId.get callId).elim 0 (fun r => if r.runId = run then f r else 0) =
      l.total run f + if r.runId = run then f r else 0 := by
  rw [total_eq, total_eq]
  exact JsMap.sum_values_set (fun r => if r.runId = run then f r else 0) l.byCallId callId r

/-! ## What the calls do -/

theorem reserve_cases (request : PlanningTokenReservationRequest) (l : UsageLedger) :
    (∃ e, l.reserve request = (.error e, l)) ∨
    (l.byCallId.get request.callId = none ∧
      l.hasBudgetInvariantViolation request.runId = false ∧
      ((l.aggregate request.runId).llmCalls : ℚ) < request.maximumLlmCalls ∧
      (l.aggregate request.runId).totalTokens + request.reservedTokens ≤
        request.maximumTotalTokens ∧
      l.reserve request = (.ok (startedRecord request),
        ⟨l.byCallId.set request.callId (startedRecord request), l.invariantRuns⟩)) := by
  unfold reserve
  simp only
  split_ifs with hid hviolated hcalls htokens
  · exact .inl ⟨_, rfl⟩
  · exact .inl ⟨_, rfl⟩
  · exact .inl ⟨_, rfl⟩
  · exact .inl ⟨_, rfl⟩
  · refine .inr ⟨by simpa using hid, by simpa using hviolated, by simpa using hcalls, ?_, rfl⟩
    unfold PlanningUsageAggregate.totalTokens
    linarith

theorem settle_cases (callId : String) (update : PlanningUsageSettle) (l : UsageLedger) :
    (∃ e, l.settle callId update = (.error e, l)) ∨
    ∃ current, l.byCallId.get callId = some current ∧ current.status = .started ∧
      l.settle callId update = (.ok (settledRecord current update),
        ⟨l.byCallId.set callId (settledRecord current update),
          if flags update then insert current.runId l.invariantRuns else l.invariantRuns⟩) := by
  unfold settle
  cases hget : l.byCallId.get callId with
  | none => exact .inl ⟨_, rfl⟩
  | some current =>
    by_cases hstatus : current.status = .started
    · exact .inr ⟨current, rfl, hstatus, by simp only [hstatus, ne_eq, not_true, if_false]⟩
    · exact .inl ⟨_, if_pos hstatus⟩

@[simp] theorem settledRecord_runId (r : PlanningModelUsage) (update : PlanningUsageSettle) :
    (settledRecord r update).runId = r.runId := by
  cases update <;> rfl

@[simp] theorem settledRecord_reservedTokens (r : PlanningModelUsage)
    (update : PlanningUsageSettle) :
    (settledRecord r update).reservedTokens = r.reservedTokens := by
  cases update <;> rfl

theorem settledRecord_violation (r : PlanningModelUsage) (update : PlanningUsageSettle) :
    (settledRecord r update).budgetInvariantViolation =
      (flags update || r.budgetInvariantViolation) := by
  cases update <;> simp [settledRecord, flags]

theorem settledRecord_calls {r : PlanningModelUsage} (hstarted : r.status = .started)
    (update : PlanningUsageSettle) : (settledRecord r update).calls ≤ r.calls := by
  cases update <;> simp [settledRecord, PlanningModelUsage.calls, hstarted]

end UsageLedger

/-! ## The invariant -/

/-- The calls as the planning service makes them for the run: with its two limits, with a
reservation that is not negative, and with a flag on a settlement above its reservation. -/
def Budgeted (run : String) (maximumLlmCalls maximumTotalTokens : ℚ) (l : UsageLedger) :
    LedgerOp → Prop
  | .find _ => True
  | .reserve request => request.runId = run →
    request.maximumLlmCalls = maximumLlmCalls ∧
      request.maximumTotalTokens = maximumTotalTokens ∧ 0 ≤ request.reservedTokens
  | .settle callId update => ∀ r ∈ l.byCallId.get callId, r.runId = run →
    match update with
    | .actual _ _ _ _ totalUsage markInvariantViolation =>
      r.reservedTokens < totalUsage → markInvariantViolation = true
    | _ => True

instance (run : String) (maximumLlmCalls maximumTotalTokens : ℚ) (l : UsageLedger)
    (o : LedgerOp) : Decidable (Budgeted run maximumLlmCalls maximumTotalTokens l o) := by
  cases o with
  | find callId => exact inferInstanceAs (Decidable True)
  | reserve request =>
    exact inferInstanceAs (Decidable (request.runId = run →
      request.maximumLlmCalls = maximumLlmCalls ∧
        request.maximumTotalTokens = maximumTotalTokens ∧ 0 ≤ request.reservedTokens))
  | settle callId update =>
    cases update with
    | actual outcome completedAt inputUsage outputUsage totalUsage mark =>
      exact inferInstanceAs (Decidable (∀ r ∈ l.byCallId.get callId, r.runId = run →
        r.reservedTokens < totalUsage → mark = true))
    | reservation outcome completedAt =>
      exact .isTrue fun _ _ _ => trivial
    | released completedAt =>
      exact .isTrue fun _ _ _ => trivial

/-- The ledger is within the budget of the run, or says that it is not. -/
structure Within (run : String) (calls : ℕ) (tokens : ℚ) (l : UsageLedger) : Prop where
  calls_le : l.total run (·.calls) ≤ calls
  tokens_le : l.total run (·.tokens) ≤ tokens ∨ run ∈ l.invariantRuns
  held : ∀ id r, l.byCallId.get id = some r → r.runId = run → 0 ≤ r.reservedTokens
  marked : ∀ id r, l.byCallId.get id = some r → r.budgetInvariantViolation = true →
    r.runId ∈ l.invariantRuns

variable {run : String} {calls : ℕ} {tokens : ℚ} {l : UsageLedger}

theorem Within.violation_iff (h : Within run calls tokens l) :
    l.hasBudgetInvariantViolation run = true ↔ run ∈ l.invariantRuns := by
  unfold UsageLedger.hasBudgetInvariantViolation UsageLedger.recordsForRun
  rw [Bool.or_eq_true, decide_eq_true_eq, List.any_eq_true]
  constructor
  · rintro (hrun | ⟨r, hr, hmarked⟩)
    · exact hrun
    · rw [List.mem_filter, decide_eq_true_eq] at hr
      obtain ⟨id, hid⟩ := JsMap.mem_values.mp hr.1
      rw [← hr.2]
      exact h.marked id r hid hmarked
  · exact .inl

theorem within_empty (calls : ℕ) (htokens : 0 ≤ tokens) : Within run calls tokens .empty where
  calls_le := Nat.zero_le _
  tokens_le := .inl htokens
  held := fun _ _ h => nomatch h
  marked := fun _ _ h => nomatch h

/-- A reservation is taken only where it fits. -/
theorem Within.reserve (h : Within run calls tokens l) (request : PlanningTokenReservationRequest)
    (hbudgeted : Budgeted run calls tokens l (.reserve request)) :
    Within run calls tokens (l.reserve request).2 := by
  rcases UsageLedger.reserve_cases request l with ⟨e, hl⟩ | ⟨hid, hviolated, hcalls, htokens, hl⟩
  · rw [hl]
    exact h
  · rw [hl]
    have hfresh : ∀ {M : Type} [AddCommMonoid M] (f : PlanningModelUsage → M),
        (UsageLedger.mk (l.byCallId.set request.callId (UsageLedger.startedRecord request))
          l.invariantRuns).total run f = l.total run f +
            if request.runId = run then f (UsageLedger.startedRecord request) else 0 := by
      intro M _ f
      have hset := l.total_set run f request.callId (UsageLedger.startedRecord request)
        l.invariantRuns
      rwa [hid, Option.elim_none, add_zero] at hset
    refine ⟨?_, ?_, ?_, ?_⟩
    · rw [hfresh]
      split
      · next hrun =>
        rw [(hbudgeted hrun).1, hrun, UsageLedger.llmCalls_aggregate] at hcalls
        have hlt : l.total run (·.calls) < calls := by exact_mod_cast hcalls
        simpa [PlanningModelUsage.calls, UsageLedger.startedRecord] using hlt
      · simpa using h.calls_le
    · rw [hfresh]
      split
      · next hrun =>
        rw [(hbudgeted hrun).2.1, hrun, UsageLedger.totalTokens_aggregate] at htokens
        exact .inl htokens
      · simpa using h.tokens_le
    · exact JsMap.forall_get_set (fun hrun => (hbudgeted hrun).2.2) h.held
    · exact JsMap.forall_get_set (fun hmarked => nomatch hmarked) h.marked

/-- A settlement frees what it does not use, or is flagged. -/
theorem Within.settle (h : Within run calls tokens l) (callId : String)
    (update : PlanningUsageSettle) {maximumLlmCalls : ℚ}
    (hbudgeted : Budgeted run maximumLlmCalls tokens l (.settle callId update)) :
    Within run calls tokens (l.settle callId update).2 := by
  rcases UsageLedger.settle_cases callId update l with ⟨e, hl⟩ | ⟨current, hget, hstarted, hl⟩
  · rw [hl]
    exact h
  · rw [hl]
    generalize hruns : (if UsageLedger.flags update then insert current.runId l.invariantRuns
      else l.invariantRuns) = runs
    have hsub : l.invariantRuns ⊆ runs := by
      rw [← hruns]
      split
      · exact Finset.subset_insert ..
      · exact Finset.Subset.refl _
    have hset : ∀ {M : Type} [AddCommMonoid M] (f : PlanningModelUsage → M),
        (UsageLedger.mk (l.byCallId.set callId (UsageLedger.settledRecord current update))
          runs).total run f + (if current.runId = run then f current else 0) =
        l.total run f + if current.runId = run
          then f (UsageLedger.settledRecord current update) else 0 := by
      intro M _ f
      have hset := l.total_set run f callId (UsageLedger.settledRecord current update) runs
      rwa [hget, Option.elim_some, UsageLedger.settledRecord_runId] at hset
    refine ⟨?_, ?_, ?_, ?_⟩
    · have hcalls := hset (·.calls)
      have hle := UsageLedger.settledRecord_calls hstarted update
      have hbound := h.calls_le
      simp only at hcalls ⊢
      split at hcalls <;> omega
    · have htokens := hset (·.tokens)
      by_cases hrun : current.runId = run
      · rw [if_pos hrun, if_pos hrun] at htokens
        rcases h.tokens_le with hle | hmarked
        · -- the record comes to no more than before, unless it is flagged
          have hcurrent : current.tokens = current.reservedTokens := by
            simp [PlanningModelUsage.tokens, hstarted]
          have hheld := h.held callId current hget hrun
          cases update with
          | released completedAt =>
            have hsettled : (UsageLedger.settledRecord current (.released completedAt)).tokens =
              0 := rfl
            left
            linarith
          | reservation outcome completedAt =>
            have hsettled : (UsageLedger.settledRecord current
              (.reservation outcome completedAt)).tokens = current.reservedTokens := rfl
            left
            linarith
          | actual outcome completedAt inputUsage outputUsage totalUsage mark =>
            have hsettled : (UsageLedger.settledRecord current (.actual outcome completedAt
              inputUsage outputUsage totalUsage mark)).tokens = totalUsage := rfl
            by_cases hover : current.reservedTokens < totalUsage
            · have hmark : mark = true := hbudgeted current hget hrun hover
              right
              rw [← hruns, hmark, ← hrun]
              exact Finset.mem_insert_self ..
            · left
              linarith
        · exact .inr (hsub hmarked)
      · rw [if_neg hrun, if_neg hrun, add_zero, add_zero] at htokens
        rw [htokens]
        exact h.tokens_le.imp_right fun hmarked => hsub hmarked
    · refine JsMap.forall_get_set ?_ h.held
      rw [UsageLedger.settledRecord_runId, UsageLedger.settledRecord_reservedTokens]
      exact h.held callId current hget
    · refine JsMap.forall_get_set ?_ fun id r hr hmarked => hsub (h.marked id r hr hmarked)
      rw [UsageLedger.settledRecord_runId, UsageLedger.settledRecord_violation, Bool.or_eq_true]
      rintro (hflags | hmarked)
      · rw [← hruns, if_pos hflags]
        exact Finset.mem_insert_self ..
      · exact hsub (h.marked callId current hget hmarked)

/-- A run that is flagged stays so. -/
theorem invariantRuns_mono (o : LedgerOp) (hrun : run ∈ l.invariantRuns) :
    run ∈ (ledgerSystem.handler o l).2.invariantRuns := by
  cases o with
  | find callId => exact hrun
  | reserve request =>
    show run ∈ (l.reserve request).2.invariantRuns
    rcases UsageLedger.reserve_cases request l with ⟨e, hl⟩ | ⟨-, -, -, -, hl⟩
    · rwa [hl]
    · rwa [hl]
  | settle callId update =>
    show run ∈ (l.settle callId update).2.invariantRuns
    rcases UsageLedger.settle_cases callId update l with ⟨e, hl⟩ | ⟨current, -, -, hl⟩
    · rwa [hl]
    · rw [hl]
      show run ∈ ite _ _ _
      split
      · exact Finset.mem_insert_of_mem hrun
      · exact hrun

theorem Within.step (h : Within run calls tokens l) (o : LedgerOp)
    (hbudgeted : Budgeted run calls tokens l o) :
    Within run calls tokens (ledgerSystem.handler o l).2 := by
  cases o with
  | find callId => exact h
  | reserve request => exact h.reserve request hbudgeted
  | settle callId update => exact h.settle callId update hbudgeted

/-! ## Every run -/

/-- The record of a successful reservation for the run. -/
def ReservedFor (run : String) (e : Event LedgerSig) : Prop :=
  ∃ request r, request.runId = run ∧
    e = ⟨.reserve request, (.ok r : Except UsageFailure PlanningModelUsage)⟩

/-- The budget of the run is kept: no more calls than its limit, no more tokens unless a
violation is flagged, and no reservation after one is. -/
structure BudgetKept {ι : Type} [DecidableEq ι] (run : String)
    (maximumLlmCalls maximumTotalTokens : ℚ) (calls : ι → LedgerCall)
    (acts : List (Action ι Empty)) : Prop where
  calls_le : ((((ledgerPool calls).exec ledgerSystem acts).state.aggregate run).llmCalls : ℚ) ≤
    maximumLlmCalls
  tokens_le : (((ledgerPool calls).exec ledgerSystem acts).state.aggregate run).totalTokens ≤
      maximumTotalTokens ∨
    ((ledgerPool calls).exec ledgerSystem acts).state.hasBudgetInvariantViolation run = true
  blocked : ∀ before after, acts = before ++ after →
    ((ledgerPool calls).exec ledgerSystem before).state.hasBudgetInvariantViolation run = true →
    ∃ recent, ((ledgerPool calls).exec ledgerSystem acts).history =
        recent ++ ((ledgerPool calls).exec ledgerSystem before).history ∧
      ∀ e ∈ recent, ¬ReservedFor run e.2

/-- The ledger refuses every reservation for a run that is flagged. -/
theorem not_reservedFor (h : l.hasBudgetInvariantViolation run = true) (o : LedgerOp) :
    ¬ReservedFor run ⟨o, (ledgerSystem.handler o l).1⟩ := by
  rintro ⟨request, r, hrun, he⟩
  obtain rfl : o = .reserve request := congrArg Event.op he
  have hreserved : (l.reserve request).1 = .ok r := eq_of_heq (Event.mk.inj he).2
  rcases UsageLedger.reserve_cases request l with ⟨e, hl⟩ | ⟨-, hviolated, -⟩
  · rw [hl] at hreserved
    cases hreserved
  · rw [hrun, h] at hviolated
    cases hviolated

section

variable {ι : Type} [DecidableEq ι] {α : Type}

theorem keeps_within (pool : Pool LedgerSig ι UsageLedger α) (a : Action ι Empty)
    (hmeets : pool.Meets (fun _ => Budgeted run calls tokens) (fun _ _ => True) a)
    (h : Within run calls tokens pool.state) :
    Within run calls tokens (pool.act ledgerSystem a).state := by
  rcases pool.act_cases ledgerSystem a with ⟨i, o, k, rfl, -, hcall, hact⟩ | ⟨i, rfl, hact⟩ |
    ⟨e, -, -⟩ | hact
  · rw [hact]
    exact h.step o (hmeets.call hcall)
  · rwa [hact]
  · exact e.elim
  · rwa [hact]

/-- From a flagged state on, nothing is reserved for the run. -/
theorem keeps_blocked (history : List (ι × Event LedgerSig))
    (pool : Pool LedgerSig ι UsageLedger α) (a : Action ι Empty)
    (hmeets : pool.Meets (fun _ => Budgeted run calls tokens) (fun _ _ => True) a)
    (h : Within run calls tokens pool.state ∧ run ∈ pool.state.invariantRuns ∧
      ∃ recent, pool.history = recent ++ history ∧ ∀ e ∈ recent, ¬ReservedFor run e.2) :
    Within run calls tokens (pool.act ledgerSystem a).state ∧
      run ∈ (pool.act ledgerSystem a).state.invariantRuns ∧
      ∃ recent, (pool.act ledgerSystem a).history = recent ++ history ∧
        ∀ e ∈ recent, ¬ReservedFor run e.2 := by
  obtain ⟨hwithin, hrun, recent, hhistory, hrecent⟩ := h
  refine ⟨keeps_within pool a hmeets hwithin, ?_⟩
  rcases pool.act_cases ledgerSystem a with ⟨i, o, k, rfl, -, -, hact⟩ | ⟨i, rfl, hact⟩ |
    ⟨e, -, -⟩ | hact
  · rw [hact]
    refine ⟨invariantRuns_mono o hrun, (i, _) :: recent, by rw [hhistory]; rfl, ?_⟩
    intro e he
    rcases List.mem_cons.mp he with rfl | he
    · exact not_reservedFor (hwithin.violation_iff.mpr hrun) o
    · exact hrecent e he
  · rw [hact]
    exact ⟨hrun, recent, hhistory, hrecent⟩
  · exact e.elim
  · rw [hact]
    exact ⟨hrun, recent, hhistory, hrecent⟩

/-- With a whole number of calls, the budget of a run is kept in every state of every run in
which each settlement above its reservation is flagged. -/
theorem planning_budget_kept (run : String) (maximumLlmCalls maximumTotalTokens : ℚ)
    (hwhole : ∃ n : ℕ, maximumLlmCalls = n) (htokens : 0 ≤ maximumTotalTokens)
    (calls : ι → LedgerCall) (acts : List (Action ι Empty))
    (hbudgeted : (ledgerPool calls).Along ledgerSystem
      (fun _ => Budgeted run maximumLlmCalls maximumTotalTokens) (fun _ _ => True) acts) :
    BudgetKept run maximumLlmCalls maximumTotalTokens calls acts := by
  obtain ⟨n, rfl⟩ := hwhole
  have hwithin : ∀ acts, (ledgerPool calls).Along ledgerSystem
      (fun _ => Budgeted run n maximumTotalTokens) (fun _ _ => True) acts →
      Within run n maximumTotalTokens ((ledgerPool calls).exec ledgerSystem acts).state :=
    fun acts halong => Pool.exec_keeps ledgerSystem
      (I := fun pool => Within run n maximumTotalTokens pool.state) keeps_within acts _ halong
      (within_empty n htokens)
  have hend := hwithin acts hbudgeted
  refine ⟨?_, ?_, ?_⟩
  · rw [UsageLedger.llmCalls_aggregate]
    exact_mod_cast hend.calls_le
  · rw [UsageLedger.totalTokens_aggregate, hend.violation_iff]
    exact hend.tokens_le
  · rintro before after rfl hviolated
    obtain ⟨hbefore, hafter⟩ := Pool.along_append.mp hbudgeted
    have hstart := hwithin before hbefore
    rw [Pool.exec_append]
    exact (Pool.exec_keeps ledgerSystem (keeps_blocked _) after _ hafter
      ⟨hstart, hstart.violation_iff.mp hviolated, [], rfl, fun _ h => nomatch h⟩).2.2

end

/-! ## A limit that is no whole number -/

namespace LedgerScenario

/-- A reservation of so many tokens for a run that may make so many calls. -/
def request (callId : String) (tokens maximumLlmCalls : ℚ) : PlanningTokenReservationRequest where
  callId := callId
  runId := "run_1"
  planningAttempt := 1
  operation := .planProposal
  provider := "provider"
  model := "model"
  reservedTokens := tokens
  startedAt := "2026-01-01T00:00:00.000Z"
  maximumLlmCalls := maximumLlmCalls
  maximumTotalTokens := 100
  budgetProfileId := "budget_1"

/-- The first call overruns its reservation, and the second comes too late. -/
def overrunning : Fin 3 → LedgerCall :=
  ![.reserve (request "call_1" 60 2),
    .settle "call_1" (.actual .success "2026-01-01T00:00:01.000Z" none none 120 true),
    .reserve (request "call_2" 10 2)]

end LedgerScenario

open LedgerScenario

/-- An overrun that is flagged: the theorem on that run. -/
theorem planning_budget_kept_overrunning :
    BudgetKept "run_1" 2 100 overrunning [.run 0, .run 1, .run 1, .run 2] :=
  planning_budget_kept "run_1" 2 100 ⟨2, by norm_num⟩ (by norm_num) overrunning _
    (by decide +kernel)

/-- Half a call is allowed, and one is made. -/
theorem planning_budget_overrun :
    ¬∀ (run : String) (maximumLlmCalls maximumTotalTokens : ℚ), 0 ≤ maximumLlmCalls →
      0 ≤ maximumTotalTokens → ∀ (calls : Fin 1 → LedgerCall) (acts : List (Action (Fin 1) Empty)),
      (ledgerPool calls).Along ledgerSystem
        (fun _ => Budgeted run maximumLlmCalls maximumTotalTokens) (fun _ _ => True) acts →
      BudgetKept run maximumLlmCalls maximumTotalTokens calls acts := by
  intro h
  have hkept := (h "run_1" (1 / 2) 100 (by norm_num) (by norm_num)
    ![.reserve (request "call_1" 60 (1 / 2))] [.run 0] (by decide +kernel)).calls_le
  exact absurd hkept (by decide +kernel)

end Orchestrator
