import Orchestrator.Atomic.Serial
import Orchestrator.Authorization.Decide

/-!
# Runs of human authorization

What holds in every run of any number of authorization calls, in any order of their steps, while
other services move runs and the surroundings change.

* `decisions_sound`: nothing is approved that was not decided by a call that took the decision, each
  nonce is spent once, and each request is decided once;
* `decision_returned`: the call that is told that it decided a request is the only one, and what it
  was told lasts.
-/

namespace Orchestrator.Authorization

open Atomic Collections

variable {ι : Type} [DecidableEq ι]

/-- A run of the calls. -/
abbrev authorizationRun (deps : AuthorizationDeps) (w : AuthorizationWorld)
    (calls : ι → AuthorizationCall) (acts : List (Action ι AuthorizationStep)) :
    Pool AuthorizationSig ι AuthorizationWorld (Except AuthorizationFailure AuthorizationAnswer) :=
  (authorizationPool deps w calls).exec (authorizationSystem deps) acts

/-- The call spends the nonce of the request. -/
def SpendsNonce (approvalRequestId : String) (e : Event AuthorizationSig) : Bool :=
  match e with
  | ⟨.consumeNonce request _, .ok _⟩ =>
    Decidable.decide (request.approvalRequestId = approvalRequestId)
  | _ => false

/-- The call appends the record of the request. -/
def AppendsRecord (approvalRequestId : String) (e : Event AuthorizationSig) : Bool :=
  match e with
  | ⟨.append record, .ok _⟩ => Decidable.decide (record.approvalRequestId = approvalRequestId)
  | _ => false

/-! ## The protocol in every run -/

section Runs

variable (deps : AuthorizationDeps) (w : AuthorizationWorld) (calls : ι → AuthorizationCall)
  (acts : List (Action ι AuthorizationStep))

/-- Every run keeps the protocol. -/
theorem authorizationRun_holds :
    (authorizationProtocol deps calls w).Holds (fun _ => [])
      (fun i => ends (fun _ b v => Answers deps (calls i) v (b.2 i) b.1) fun _ _ _ => True)
      (authorizationRun deps w calls acts) ∧
    AuthorizationMoves w (authorizationRun deps w calls acts).state := by
  have hinit : (authorizationProtocol deps calls w).Holds (fun _ => [])
      (fun i => ends (fun _ b v => Answers deps (calls i) v (b.2 i) b.1) fun _ _ _ => True)
      (authorizationPool deps w calls) := by
    refine Guarded.Holds.init ?_ fun i => run_yields i [] (w, fun _ => []) trivial
    exact ⟨fun _ _ h => .inl h, fun _ request _ h hkind => .inl ⟨request, h, hkind⟩,
      fun _ _ h _ => .inl h⟩
  have hallowed := Guarded.allAllowed_of_forall (authorizationProtocol deps calls w)
    (fun _ _ _ _ => trivial) acts (authorizationPool deps w calls)
  exact ⟨hinit.exec acts hallowed, hinit.exec_moves acts hallowed⟩

/-- What a call holds is its log. -/
theorem holdings_eq_log {pool : Pool AuthorizationSig ι AuthorizationWorld
      (Except AuthorizationFailure AuthorizationAnswer)} (i : ι) :
    (authorizationProtocol deps calls w).holdings (fun _ => []) pool i = pool.log i := by
  rw [Guarded.holdings_eq_foldr]
  exact List.foldr_cons_nil

/-- Every run keeps the invariant, and moves its repositories as authorization does. -/
theorem authorizationRun_sound :
    AuthorizationInvariant deps calls w ((authorizationRun deps w calls acts).state,
      (authorizationRun deps w calls acts).log) ∧
    AuthorizationMoves w (authorizationRun deps w calls acts).state := by
  obtain ⟨hholds, hmoves⟩ := authorizationRun_holds deps w calls acts
  have hlog : (authorizationProtocol deps calls w).holdings (fun _ => [])
      (authorizationRun deps w calls acts) = (authorizationRun deps w calls acts).log :=
    funext fun i => holdings_eq_log deps w calls i
  have hinv := hholds.inv
  rw [hlog] at hinv
  exact ⟨hinv, hmoves⟩

/-! ## Once -/

variable (approvalRequestId : String)

/-- Nonces that are spent, or invalidated, stay so. -/
theorem isNonceConsumed_call {w : AuthorizationWorld} (o : AuthorizationOp)
    (h : w.coordinator.isNonceConsumed approvalRequestId = true) :
    (w.call deps o).2.coordinator.isNonceConsumed approvalRequestId = true := by
  simp only [Coordinator.isNonceConsumed, decide_eq_true_eq] at h ⊢
  cases o with
  | consumeNonce request nonce =>
    simp only [AuthorizationWorld.call, Coordinator.consumeNonce]
    split
    · exact h
    · split
      · exact h
      · exact h.imp_left fun hmem => Finset.mem_insert_of_mem hmem
  | invalidateNonce id => exact h.imp_right fun hmem => Finset.mem_insert_of_mem hmem
  | registerPending id key =>
    simp only [AuthorizationWorld.call, Coordinator.registerPending]
    split <;> exact h
  | releaseBinding key id =>
    simp only [AuthorizationWorld.call, Coordinator.releaseBinding]
    split <;> exact h
  | claimReissue id =>
    simp only [AuthorizationWorld.call, Coordinator.claimReissue]
    split <;> exact h
  | saveModification modification =>
    simp only [AuthorizationWorld.call, AuthorizationWorld.saveModification]
    split <;> exact h
  | transition run next updatedAt =>
    simp only [AuthorizationWorld.call, AuthorizationWorld.transition]
    split <;> exact h
  | _ => exact h

theorem step_coordinator (w : AuthorizationWorld) (e : AuthorizationStep) :
    (w.step e).coordinator = w.coordinator := by
  cases e with
  | surroundings surroundings => rfl
  | moveRun id expected revision next updatedAt =>
    simp only [AuthorizationWorld.step]
    split <;> rfl
  | admitRun admitted =>
    simp only [AuthorizationWorld.step]
    split <;> rfl

/-- A nonce is spent where it was not spent before. -/
theorem spendsNonce_once : (authorizationSystem deps).Once (SpendsNonce approvalRequestId)
    fun w => w.coordinator.isNonceConsumed approvalRequestId = true where
  fires o w hshot := by
    cases o with
    | consumeNonce request nonce =>
      simp only [authorizationSystem, AuthorizationWorld.call, Coordinator.consumeNonce] at hshot ⊢
      split at hshot
      · cases hshot
      · next hunspent =>
        rw [if_neg hunspent]
        split at hshot
        · cases hshot
        · next hright =>
          have hid : request.approvalRequestId = approvalRequestId := of_decide_eq_true hshot
          rw [if_neg hright]
          subst hid
          simp only [Coordinator.isNonceConsumed, decide_eq_true_eq]
          exact ⟨fun h => hunspent h.symm, .inl (Finset.mem_insert_self _ _)⟩
    | _ => cases hshot
  keeps o w := isNonceConsumed_call deps approvalRequestId o
  env e w h := by
    change (w.step e).coordinator.isNonceConsumed approvalRequestId = true
    rw [step_coordinator]
    exact h

/-- Every call only adds records. -/
theorem recordsGrow_call (w : AuthorizationWorld) (o : AuthorizationOp) :
    RecordsGrow w.records (w.call deps o).2.records := by
  by_cases hharmless : o.harmless = true
  · rw [(AuthorizationWorld.call_harmless deps hharmless w).2.1]
    exact RecordsGrow.refl _
  · cases o with
    | saveRequest request => exact RecordsGrow.refl _
    | updateStatus id status extras => exact RecordsGrow.refl _
    | transition run next updatedAt =>
      simp only [AuthorizationWorld.call, AuthorizationWorld.transition]
      split <;> exact RecordsGrow.refl _
    | append record =>
      simp only [AuthorizationWorld.call]
      rcases w.records.append_cases record with ⟨hnew, hundecided, happended⟩ | ⟨e, hsame⟩
      · rw [happended]
        exact recordsGrow_add hnew hundecided
      · rw [hsame]
        exact RecordsGrow.refl _
    | _ => exact absurd rfl hharmless

/-- A record is appended where there was none of its request. -/
theorem appendsRecord_once : (authorizationSystem deps).Once (AppendsRecord approvalRequestId)
    fun w => (w.records.getByApprovalRequest approvalRequestId).isSome = true where
  fires o w hshot := by
    cases o with
    | append record =>
      simp only [authorizationSystem, AuthorizationWorld.call] at hshot ⊢
      rcases w.records.append_cases record with ⟨hnew, hundecided, happended⟩ | ⟨e, hsame⟩
      · rw [happended] at hshot ⊢
        have hid : record.approvalRequestId = approvalRequestId := of_decide_eq_true hshot
        rw [AuthorizationRecords.getByApprovalRequest_add, if_pos hid, ← hid, hundecided]
        refine ⟨?_, rfl⟩
        intro hnone
        cases hnone
      · rw [hsame] at hshot
        cases hshot
    | _ => cases hshot
  keeps o w h := by
    obtain ⟨record, hrecord⟩ := Option.isSome_iff_exists.mp h
    exact Option.isSome_iff_exists.mpr ⟨record, recordsGrow_call deps w o _ _ hrecord⟩
  env e w h := by
    change ((w.step e).records.getByApprovalRequest approvalRequestId).isSome = true
    rw [(step_stores w e).2]
    exact h

/-- In every run the nonce of a request is spent at most once, and not at all where it was spent or
invalidated before; its record is appended at most once, and only where its nonce was spent. -/
structure DecidedOnce (w : AuthorizationWorld)
    (pool : Pool AuthorizationSig ι AuthorizationWorld
      (Except AuthorizationFailure AuthorizationAnswer)) : Prop where
  spent : (pool.history.countP fun e => SpendsNonce approvalRequestId e.2) ≤
    if w.coordinator.isNonceConsumed approvalRequestId = true then 0 else 1
  appended : (pool.history.countP fun e => AppendsRecord approvalRequestId e.2) ≤
    if (w.records.getByApprovalRequest approvalRequestId).isSome = true then 0 else 1
  appended_le : (pool.history.countP fun e => AppendsRecord approvalRequestId e.2) ≤
    pool.history.countP fun e => SpendsNonce approvalRequestId e.2

/-- A record that was not there at the start was appended by a call that spent the nonce. -/
theorem spendsNonce_of_recorded {deps : AuthorizationDeps} {w : AuthorizationWorld}
    {calls : ι → AuthorizationCall} {approvalRequestId : String}
    {pool : Pool AuthorizationSig ι AuthorizationWorld
      (Except AuthorizationFailure AuthorizationAnswer)}
    (hinv : AuthorizationInvariant deps calls w (pool.state, pool.log))
    {record : HumanAuthorizationRecord}
    (hrecord : pool.state.records.getByApprovalRequest approvalRequestId = some record)
    (hnew : w.records.getByApprovalRequest approvalRequestId = none) :
    0 < pool.history.countP fun e => SpendsNonce approvalRequestId e.2 := by
  rcases hinv.recorded _ record hrecord with hbefore | ⟨i, decision, request, -, hrequest, htaken⟩
  · rw [hnew] at hbefore
    cases hbefore
  · obtain ⟨-, -, read, hread, hmem⟩ := htaken.spent
    have hid : read.approvalRequestId = approvalRequestId :=
      hread.trans ((Repository.id_of_getById hrequest).trans
        (AuthorizationRecords.request_of_getByApprovalRequest hrecord))
    exact List.countP_pos_iff.mpr ⟨_, Pool.mem_log.mp hmem, decide_eq_true hid⟩

theorem authorizationRun_decidedOnce :
    DecidedOnce approvalRequestId w (authorizationRun deps w calls acts) := by
  have hspent := (spendsNonce_once deps approvalRequestId).exec_le
    (authorizationPool deps w calls) acts
  have happended := (appendsRecord_once deps approvalRequestId).exec_le
    (authorizationPool deps w calls) acts
  have hinv := (authorizationRun_sound deps w calls acts).1
  unfold authorizationRun at hinv ⊢
  generalize (authorizationPool deps w calls).exec (authorizationSystem deps) acts = pool
    at hspent happended hinv ⊢
  change _ ≤ 0 + (if w.coordinator.isNonceConsumed approvalRequestId = true then 0 else 1) at hspent
  change _ ≤ 0 + (if (w.records.getByApprovalRequest approvalRequestId).isSome = true then 0 else 1)
    at happended
  rw [Nat.zero_add] at hspent happended
  refine ⟨(Nat.le_add_right _ _).trans hspent, (Nat.le_add_right _ _).trans happended, ?_⟩
  cases hstart : w.records.getByApprovalRequest approvalRequestId with
  | some record =>
    simp only [hstart, Option.isSome_some, if_true] at happended
    omega
  | none =>
    cases hend : pool.state.records.getByApprovalRequest approvalRequestId with
    | none =>
      simp only [hstart, hend, Option.isSome_none, Bool.false_eq_true, if_false] at happended
      omega
    | some record =>
      have hpos := spendsNonce_of_recorded hinv hend hstart
      simp only [hstart, hend, Option.isSome_none, Option.isSome_some, Bool.false_eq_true,
        if_false, if_true] at happended
      omega

/-- What a call was told about its decision is so. -/
structure DecisionStands (decision : HumanAuthorizationDecision) (result : AuthorizationResult)
    (w : AuthorizationWorld) : Prop where
  told : result.result = decidedResult decision.decision
  request : ∃ request, w.requests.getById decision.approvalRequestId = some request ∧
    request.status = decision.decision.status
  record : ∃ record, w.records.getByApprovalRequest decision.approvalRequestId = some record ∧
    result.authorizationRecordId = some record.authorizationRecordId ∧
    record.approverId = decision.approverId ∧ record.decision = decision.decision

variable {deps w calls acts}

/-- What a call that decided its request returned is known in the end, from its log. -/
theorem decides_of_returned {i : ι} {decision : HumanAuthorizationDecision}
    {result : AuthorizationResult} (hcall : calls i = .decide decision)
    (hreturned : (authorizationRun deps w calls acts).returned i = some (.ok (.decided result)))
    (hnew : result.result ≠ .alreadyDecided) :
    result.result = decidedResult decision.decision ∧ ∃ request record,
      result.authorizationRecordId = some record.authorizationRecordId ∧
        TakenAndDecided deps decision request record ((authorizationRun deps w calls acts).log i)
          (authorizationRun deps w calls acts).state := by
  obtain ⟨b, ⟨hheld, hmoves⟩, hanswers⟩ := (authorizationRun_holds deps w calls acts).1.returned
    (Pool.returned_eq_some.mp hreturned)
  obtain ⟨hresult, request, record, hid, htaken⟩ :=
    (hanswers decision result hcall rfl).resolve_left hnew
  refine ⟨hresult, request, record, hid, ?_⟩
  have hlog : (authorizationRun deps w calls acts).log i = b.2 i :=
    (holdings_eq_log deps w calls i).symm.trans hheld
  rw [hlog]
  exact lasting_takenAndDecided _ _ _ _ (fun _ he => he) hmoves htaken

/-- The record that such a call appended. -/
theorem appendsRecord_of_taken {decision : HumanAuthorizationDecision} {request : ApprovalRequest}
    {record : HumanAuthorizationRecord} {h : Log AuthorizationSig} {w' : AuthorizationWorld}
    (htaken : TakenAndDecided deps decision request record h w') :
    (⟨.append record, .ok record⟩ : Event AuthorizationSig) ∈ h ∧
      AppendsRecord decision.approvalRequestId ⟨.append record, .ok record⟩ = true := by
  refine ⟨htaken.1.2.2, decide_eq_true ?_⟩
  obtain ⟨now, hrecord⟩ := htaken.1.1.2.recorded
  rw [hrecord, htaken.1.1.2.names]
  rfl

/-- In every run the call that is told that it decided a request is the only one that is told so:
its record is the one that is stored, its request has its status, and every other decision on the
request that returns is told that the request was decided already. -/
theorem decision_returned {i : ι} {decision : HumanAuthorizationDecision}
    (result : AuthorizationResult) (hcall : calls i = .decide decision)
    (hreturned : (authorizationRun deps w calls acts).returned i = some (.ok (.decided result)))
    (hnew : result.result ≠ .alreadyDecided) :
    DecisionStands decision result (authorizationRun deps w calls acts).state ∧
      ∀ j decision' result', j ≠ i → calls j = .decide decision' →
        decision'.approvalRequestId = decision.approvalRequestId →
        (authorizationRun deps w calls acts).returned j = some (.ok (.decided result')) →
        result'.result = .alreadyDecided := by
  obtain ⟨hresult, request, record, hid, htaken⟩ := decides_of_returned hcall hreturned hnew
  obtain ⟨hmem, happends⟩ := appendsRecord_of_taken htaken
  obtain ⟨⟨⟨-, hdecision⟩, hrecord, -⟩, request', hrequest', -, hstatus⟩ := htaken
  have hnames := hdecision.names
  refine ⟨⟨hresult, ⟨request', hnames ▸ hrequest', hstatus⟩, record, hnames ▸ hrecord, hid, ?_, ?_⟩,
    fun j decision' result' hji hcall' hsame hreturned' => ?_⟩
  · obtain ⟨now, hrecord⟩ := hdecision.recorded
    rw [hrecord]
    rfl
  · exact hdecision.decision_eq
  · by_contra hnew'
    obtain ⟨-, request'', record', -, htaken'⟩ := decides_of_returned hcall' hreturned' hnew'
    obtain ⟨hmem', happends'⟩ := appendsRecord_of_taken htaken'
    rw [hsame] at happends'
    have hle : ((authorizationRun deps w calls acts).history.countP
        fun e => AppendsRecord decision.approvalRequestId e.2) ≤ 1 :=
      (authorizationRun_decidedOnce deps w calls acts decision.approvalRequestId).appended.trans
        (by split <;> decide)
    have heq := eq_of_countP_le_one hle (Pool.mem_log.mp hmem') (Pool.mem_log.mp hmem)
      happends' happends
    exact hji (congrArg Prod.fst heq)

end Runs

/-! ## A small system -/

/-- The stored plan; it has no steps. -/
def smallPlan : PlanUnderApproval where
  planId := "plan"
  planVersion := 1
  planHash := "plan_hash"
  plan := ⟨"commit", "fingerprint", "policy", [], [], "plan_hash"⟩
  runId := "run"
  status := .validatedPass
  origin := ⟨"context", "prompt", "provider", "model", 3, none, none⟩
  planVersion_pos := Nat.one_pos
  objectiveId := "objective"
  objectiveVersion := 1
  policyBundleId := "bundle"

def smallValidation : ValidationDecision where
  validationDecisionId := "validation"
  decision := .pass
  findings := []
  decidedAt := 1
  validatorId := "validator"
  runId := "run"
  planId := "plan"
  planVersion := 1
  planHash := "plan_hash"
  policyBundleHash := "policy"
  repositoryFingerprint := "fingerprint"
  validationAttempt := 1
  requiresHumanAction := false

def smallSurroundings : AuthorizationSurroundings where
  nowIso := 10
  nextId := "record"
  generateNonce := "nonce"
  plan _ := some smallPlan
  latestPlan _ := some smallPlan
  plansOfRun _ := [smallPlan]
  lockedState _ := some ⟨"commit", .verified⟩
  resolve _ _ := .ok ⟨"project", ["approver"], "bundle", "policy", []⟩
  validationDecision _ := some smallValidation
  decisionOfPlan _ _ _ := some smallValidation
  latestDecision _ := some smallValidation
  objective _ := some ⟨"objective", 1, "project"⟩
  objectiveOfRun _ := ("objective", 1)
  knownApprover _ := true
  institutionalRequirements _ _ _ _ := .ok ()
  deliver _ := .ok ()

def smallDeps : AuthorizationDeps :=
  ⟨plainExternal, fun _ => "plan_hash", fun _ => "card_hash", fun _ _ _ _ => "", 90, false⟩

def smallCard : ApprovalDecisionCard where
  planHash := "plan_hash"
  planVersion := 1
  validationDecisionId := "validation"
  policyBundleHash := "policy"
  repositoryFingerprint := "fingerprint"
  capabilitySetFingerprint := capabilitySetFingerprint plainExternal []
  createdAt := 5
  expiresAt := 95
  display := ""

def smallRequest : ApprovalRequest where
  approvalRequestId := "request"
  runId := "run"
  projectId := "project"
  objectiveId := "objective"
  objectiveVersion := 1
  planId := "plan"
  planVersion := 1
  planHash := "plan_hash"
  repositoryCommitSha := "commit"
  repositoryFingerprint := "fingerprint"
  policyBundleId := "bundle"
  policyBundleHash := "policy"
  validationDecisionId := "validation"
  validationDecision := .pass
  requestReason := .executionAuthorization
  requestedApproverIds := []
  createdAt := 5
  expiresAt := 95
  status := .pending
  decisionCardHash := "card_hash"
  capabilitySetFingerprint := capabilitySetFingerprint plainExternal []
  decisionNonceHash := "nonce"
  replacesApprovalRequestId := none
  deliveryFailedAt := none
  deliveryFailureCode := none
  failureReasonCode := none

/-- One run that waits for its approval. -/
def smallWorld : AuthorizationWorld where
  requests := Repository.empty.save smallRequest
  records := .empty
  modifications := .empty
  cards := JsMap.empty.set "request" smallCard
  coordinator := .empty
  runs := RunRepository.empty.save ⟨"run", "project", "environment", .awaitingApproval, 1, 5⟩
  surroundings := smallSurroundings

inductive SmallCaller where
  | first
  | second
  deriving DecidableEq

/-- Two approvals of the request. -/
def smallCalls : SmallCaller → AuthorizationCall :=
  fun _ => .decide ⟨"request", "approver", .approve, 9, "nonce", none, none⟩

/-- The second call reads the request, the first one decides it, and the second one goes on. -/
def smallActs : List (Action SmallCaller AuthorizationStep) :=
  [.run .second] ++ List.replicate 22 (.run .first) ++ List.replicate 2 (.run .second)

/-- What the first call is told. -/
def smallResult : AuthorizationResult :=
  resultOf smallRequest .approved (some "record") false .approved none

/-- The first call is told that it approved the request. -/
theorem decision_returned_first :
    DecisionStands ⟨"request", "approver", .approve, 9, "nonce", none, none⟩ smallResult
      (authorizationRun smallDeps smallWorld smallCalls smallActs).state ∧
    ∀ j decision' result', j ≠ SmallCaller.first → smallCalls j = .decide decision' →
      decision'.approvalRequestId = "request" →
      (authorizationRun smallDeps smallWorld smallCalls smallActs).returned j =
        some (.ok (.decided result')) →
      result'.result = .alreadyDecided :=
  decision_returned (i := SmallCaller.first) smallResult rfl rfl (by decide)

end Orchestrator.Authorization
