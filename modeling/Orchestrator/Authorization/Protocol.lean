import Orchestrator.Atomic.Triple
import Orchestrator.Authorization.Service

/-!
# The protocol of human authorization

What holds of requests, records and runs while any number of authorization calls are at work.

* `DecisionTaken`: what the calls of a decision say about its record;
* `AuthorizationInvariant`: every record was appended by a call that took the decision, every
  decided request has its record, and every approved run has an approved request;
* `authorizationProtocol`: each call holds its own log;
* `AuthorizationInvariant.ordinary`: the calls that need nothing to be known keep the invariant.
-/

namespace Orchestrator.Authorization

open Atomic Collections

/-! ## Decisions that were taken -/

/-- The nonce of the decision was right, and the call spent it. -/
def NonceSpent (deps : AuthorizationDeps) (decision : HumanAuthorizationDecision)
    (request : ApprovalRequest) (nonceHash : String) (log : Log AuthorizationSig) : Prop :=
  deps.hashDecisionNonce decision.decisionNonce = request.decisionNonceHash ∧
    nonceHash = request.decisionNonceHash ∧
    ∃ read : ApprovalRequest, read.approvalRequestId = request.approvalRequestId ∧
      (⟨.consumeNonce read decision.decisionNonce, .ok nonceHash⟩ : Event AuthorizationSig) ∈ log

/-- The call found the approver to be authorized. -/
def ApproverAuthorized (decision : HumanAuthorizationDecision) (request : ApprovalRequest)
    (log : Log AuthorizationSig) : Prop :=
  ∃ environment, (⟨.authorize decision.approverId request.projectId environment request,
    .ok .authorized⟩ : Event AuthorizationSig) ∈ log

/-- The call found a validation decision that lets the plan of the request be approved. -/
def ValidationEligible (request : ApprovalRequest) (log : Log AuthorizationSig) : Prop :=
  ∃ validation : ValidationDecision,
    (⟨.getDecision request.validationDecisionId, .ok (some validation)⟩ :
      Event AuthorizationSig) ∈ log ∧ validation.runId = request.runId ∧
      validation.planHash = request.planHash ∧
      (validation.decision = .pass ∨ validation.decision = .humanApprovalRequired) ∧
      nonApprovalEligibleBlockingFindings validation.findings = []

/-- What a call has done before it appends the record of a decision on a request: the nonce was
right and is spent, the approver is authorized, and a validation decision lets the plan be approved,
where it is approved. -/
structure DecisionTaken (deps : AuthorizationDeps) (decision : HumanAuthorizationDecision)
    (log : Log AuthorizationSig) (request : ApprovalRequest) (record : HumanAuthorizationRecord) :
    Prop where
  names : decision.approvalRequestId = request.approvalRequestId
  recorded : ∃ now, record =
    decisionRecord decision request record.authorizationRecordId record.nonceHash now
  spent : NonceSpent deps decision request record.nonceHash log
  authorized : ∃ read : ApprovalRequest, read.binding = request.binding ∧
    ApproverAuthorized decision read log
  eligible : decision.decision = .approve → ValidationEligible request log

section Taken

variable {deps : AuthorizationDeps} {decision : HumanAuthorizationDecision}
  {log log' : Log AuthorizationSig} {request request' : ApprovalRequest}
  {record : HumanAuthorizationRecord}

theorem DecisionTaken.decision_eq (h : DecisionTaken deps decision log request record) :
    record.decision = decision.decision := by
  obtain ⟨now, hrecord⟩ := h.recorded
  rw [hrecord]
  rfl

theorem NonceSpent.mono {nonceHash : String} (h : NonceSpent deps decision request nonceHash log)
    (hlog : ∀ e ∈ log, e ∈ log') : NonceSpent deps decision request nonceHash log' := by
  obtain ⟨hright, hhash, read, hread, hmem⟩ := h
  exact ⟨hright, hhash, read, hread, hlog _ hmem⟩

theorem ApproverAuthorized.mono (h : ApproverAuthorized decision request log)
    (hlog : ∀ e ∈ log, e ∈ log') : ApproverAuthorized decision request log' := by
  obtain ⟨environment, hmem⟩ := h
  exact ⟨environment, hlog _ hmem⟩

theorem ValidationEligible.mono (h : ValidationEligible request log)
    (hlog : ∀ e ∈ log, e ∈ log') : ValidationEligible request log' := by
  obtain ⟨validation, hmem, hrest⟩ := h
  exact ⟨validation, hlog _ hmem, hrest⟩

theorem DecisionTaken.mono (h : DecisionTaken deps decision log request record)
    (hlog : ∀ e ∈ log, e ∈ log') : DecisionTaken deps decision log' request record where
  names := h.names
  recorded := h.recorded
  spent := h.spent.mono hlog
  authorized := by
    obtain ⟨read, hread, hauthorized⟩ := h.authorized
    exact ⟨read, hread, hauthorized.mono hlog⟩
  eligible happrove := (h.eligible happrove).mono hlog

/-- Two requests that bind the same differ in their status, and what goes with it. -/
theorem eq_withStatus_of_binding (h : request'.binding = request.binding) :
    ∃ status deliveryFailedAt deliveryFailureCode failureReasonCode,
      request' =
        { request with status, deliveryFailedAt, deliveryFailureCode, failureReasonCode } := by
  refine ⟨request'.status, request'.deliveryFailedAt, request'.deliveryFailureCode,
    request'.failureReasonCode, ?_⟩
  cases request'
  cases request
  simp only [ApprovalRequest.binding, ApprovalRequest.mk.injEq] at h ⊢
  simp_all only [and_self]

/-- What a decision says of a request it says of the request in any status. -/
theorem DecisionTaken.of_binding (h : DecisionTaken deps decision log request record)
    (hbinding : request'.binding = request.binding) :
    DecisionTaken deps decision log request' record := by
  obtain ⟨status, failedAt, failureCode, reasonCode, rfl⟩ := eq_withStatus_of_binding hbinding
  exact ⟨h.names, h.recorded, h.spent, h.authorized, h.eligible⟩

end Taken

/-! ## The invariant -/

section Protocol

variable {ι : Type} (deps : AuthorizationDeps) (calls : ι → AuthorizationCall)

/-- The record was appended by a call that took the decision. -/
def Recorded (a : AuthorizationWorld × (ι → Log AuthorizationSig))
    (record : HumanAuthorizationRecord) : Prop :=
  ∃ i decision request, calls i = .decide decision ∧
    a.1.requests.getById record.approvalRequestId = some request ∧
    DecisionTaken deps decision (a.2 i) request record

/-- The request was decided so, and has its record. -/
def DecidedAs (a : AuthorizationWorld × (ι → Log AuthorizationSig)) (id : String)
    (kind : HumanDecisionKind) : Prop :=
  ∃ record, a.1.records.getByApprovalRequest id = some record ∧ record.decision = kind ∧
    Recorded deps calls a record

/-- The run has a request that was approved. -/
def ApprovedBy (a : AuthorizationWorld × (ι → Log AuthorizationSig)) (runId : String) : Prop :=
  ∃ request, a.1.requests.getById request.approvalRequestId = some request ∧
    request.runId = runId ∧ request.status = .approved ∧
    DecidedAs deps calls a request.approvalRequestId .approve

/-- Beyond what there was at the start: every record is that of a decision that was taken, every
decided request has its record, and every approved run has an approved request. -/
structure AuthorizationInvariant (start : AuthorizationWorld)
    (a : AuthorizationWorld × (ι → Log AuthorizationSig)) : Prop where
  recorded : ∀ id record, a.1.records.getByApprovalRequest id = some record →
    start.records.getByApprovalRequest id = some record ∨ Recorded deps calls a record
  decided : ∀ id request kind, a.1.requests.getById id = some request →
    request.status = kind.status →
      (∃ before, start.requests.getById id = some before ∧ before.status = kind.status) ∨
        DecidedAs deps calls a id kind
  approved : ∀ runId run, a.1.runs.getById runId = some run → run.state = .approved →
    start.runs.getById runId = some run ∨ ApprovedBy deps calls a runId

/-- How authorization moves its repositories. -/
def AuthorizationMoves (w w' : AuthorizationWorld) : Prop :=
  RequestsMove w.requests w'.requests ∧ RecordsGrow w.records w'.records

theorem AuthorizationMoves.refl (w : AuthorizationWorld) : AuthorizationMoves w w :=
  ⟨RequestsMove.refl _, RecordsGrow.refl _⟩

theorem AuthorizationMoves.trans {w w' w'' : AuthorizationWorld} (h : AuthorizationMoves w w')
    (h' : AuthorizationMoves w' w'') : AuthorizationMoves w w'' :=
  ⟨h.1.trans h'.1, h.2.trans h'.2⟩

section Keeping

variable {deps calls} {start w w' : AuthorizationWorld} {g g' : ι → Log AuthorizationSig}
  {record : HumanAuthorizationRecord} {kind : HumanDecisionKind} {id runId : String}

theorem Recorded.moves (h : Recorded deps calls (w, g) record)
    (hmoves : RequestsMove w.requests w'.requests) (hlogs : ∀ j, ∀ e ∈ g j, e ∈ g' j) :
    Recorded deps calls (w', g') record := by
  obtain ⟨i, decision, request, hcall, hrequest, htaken⟩ := h
  obtain ⟨request', hrequest', hmoved⟩ := hmoves _ _ hrequest
  exact ⟨i, decision, request', hcall, hrequest',
    (htaken.mono (hlogs i)).of_binding hmoved.binding⟩

theorem DecidedAs.moves (h : DecidedAs deps calls (w, g) id kind) (hmoves : AuthorizationMoves w w')
    (hlogs : ∀ j, ∀ e ∈ g j, e ∈ g' j) : DecidedAs deps calls (w', g') id kind := by
  obtain ⟨record, hrecord, hkind, hrecorded⟩ := h
  exact ⟨record, hmoves.2 _ _ hrecord, hkind, hrecorded.moves hmoves.1 hlogs⟩

theorem ApprovedBy.moves (h : ApprovedBy deps calls (w, g) runId)
    (hmoves : AuthorizationMoves w w') (hlogs : ∀ j, ∀ e ∈ g j, e ∈ g' j) :
    ApprovedBy deps calls (w', g') runId := by
  obtain ⟨request, hrequest, hrun, hstatus, hdecided⟩ := h
  obtain ⟨request', hrequest', hmoved⟩ := hmoves.1 _ _ hrequest
  have hid : request'.approvalRequestId = request.approvalRequestId :=
    Repository.id_of_getById hrequest'
  have hne : request.status ≠ .pending := by
    rw [hstatus]
    exact fun h => (nomatch h)
  refine ⟨request', by rw [hid]; exact hrequest', ?_, (hmoved.status_eq hne).trans hstatus, ?_⟩
  · obtain ⟨status, failedAt, failureCode, reasonCode, rfl⟩ :=
      eq_withStatus_of_binding hmoved.binding
    exact hrun
  · rw [hid]
    exact hdecided.moves hmoves hlogs

/-- What a call adds has to be justified; what there was stays so. -/
theorem AuthorizationInvariant.next (hinv : AuthorizationInvariant deps calls start (w, g))
    (hmoves : AuthorizationMoves w w') (hlogs : ∀ j, ∀ e ∈ g j, e ∈ g' j)
    (hrecorded : ∀ id record, w'.records.getByApprovalRequest id = some record →
      w.records.getByApprovalRequest id = some record ∨ Recorded deps calls (w', g') record)
    (hdecided : ∀ id request kind, w'.requests.getById id = some request →
      request.status = HumanDecisionKind.status kind →
        (∃ before, w.requests.getById id = some before ∧ before.status = kind.status) ∨
          DecidedAs deps calls (w', g') id kind)
    (happroved : ∀ runId run, w'.runs.getById runId = some run → run.state = .approved →
      w.runs.getById runId = some run ∨ ApprovedBy deps calls (w', g') runId) :
    AuthorizationInvariant deps calls start (w', g') := by
  constructor
  · intro id record hrecord
    rcases hrecorded id record hrecord with hbefore | hnew
    · exact (hinv.recorded id record hbefore).imp_right fun h => h.moves hmoves.1 hlogs
    · exact .inr hnew
  · intro id request kind hrequest hstatus
    rcases hdecided id request kind hrequest hstatus with ⟨before, hbefore, hkind⟩ | hnew
    · exact (hinv.decided id before kind hbefore hkind).imp_right fun h => h.moves hmoves hlogs
    · exact .inr hnew
  · intro runId run hrun hstate
    rcases happroved runId run hrun hstate with hbefore | hnew
    · exact (hinv.approved runId run hbefore hstate).imp_right fun h => h.moves hmoves hlogs
    · exact .inr hnew

end Keeping

/-! ## The protocol -/

/-- A run in a repository that another service moved was there before, or is not approved. -/
theorem step_runs (w : AuthorizationWorld) (e : AuthorizationStep) {runId : String}
    {run : RunRecord} (hrun : (w.step e).runs.getById runId = some run)
    (hstate : run.state = .approved) : w.runs.getById runId = some run := by
  cases e with
  | surroundings surroundings => exact hrun
  | moveRun id expected revision next updatedAt =>
    simp only [AuthorizationWorld.step] at hrun
    split at hrun
    · exact hrun
    · next hnext =>
      rcases RunRepository.getById_transition w.runs id runId expected revision next updatedAt with
        hsame | ⟨r, -, hmoved⟩
      · exact hsame.symm.trans hrun
      · have heq : RunRepository.moved r next updatedAt = run :=
          Option.some.inj (hmoved.symm.trans hrun)
        rw [← heq] at hstate
        exact absurd hstate hnext
  | admitRun admitted =>
    simp only [AuthorizationWorld.step] at hrun
    split at hrun
    · exact hrun
    · next hnew =>
      by_cases hid : admitted.runId = runId
      · have heq : admitted = run := by
          subst hid
          exact Option.some.inj ((JsMap.get_set_self _ _ _).symm.trans hrun)
        exact absurd (.inr (heq ▸ hstate)) hnew
      · exact (JsMap.get_set_ne _ _ hid).symm.trans hrun

theorem step_stores (w : AuthorizationWorld) (e : AuthorizationStep) :
    (w.step e).requests = w.requests ∧ (w.step e).records = w.records := by
  cases e with
  | surroundings surroundings => exact ⟨rfl, rfl⟩
  | moveRun id expected revision next updatedAt =>
    simp only [AuthorizationWorld.step]
    split <;> exact ⟨rfl, rfl⟩
  | admitRun admitted =>
    simp only [AuthorizationWorld.step]
    split <;> exact ⟨rfl, rfl⟩

theorem step_moves (w : AuthorizationWorld) (e : AuthorizationStep) :
    AuthorizationMoves w (w.step e) := by
  obtain ⟨hrequests, hrecords⟩ := step_stores w e
  rw [AuthorizationMoves, hrequests, hrecords]
  exact ⟨RequestsMove.refl _, RecordsGrow.refl _⟩

/-- Each call holds its own log. -/
def authorizationProtocol (start : AuthorizationWorld) :
    Guarded (authorizationSystem deps) ι (Log AuthorizationSig) where
  note log e := e :: log
  inv := AuthorizationInvariant deps calls start
  moves := AuthorizationMoves
  moves_refl := AuthorizationMoves.refl
  moves_trans _ _ _ := AuthorizationMoves.trans
  env_inv e a hinv := by
    obtain ⟨w, g⟩ := a
    obtain ⟨hrequests, hrecords⟩ := step_stores w e
    refine hinv.next (step_moves w e) (fun _ _ h => h) (fun id record h => .inl ?_)
      (fun id request kind h hkind => .inl ⟨request, ?_, hkind⟩)
      fun runId run hrun hstate => .inl (step_runs w e hrun hstate)
    · exact hrecords ▸ h
    · exact hrequests ▸ h
  env_moves e w := step_moves w e
  guard _ _ _ _ := True

/-! ## Calls that need nothing to be known -/

section Calls

variable {deps : AuthorizationDeps} {calls : ι → AuthorizationCall} {start : AuthorizationWorld}
  [DecidableEq ι] {w w' : AuthorizationWorld} {g : ι → Log AuthorizationSig} {i : ι}

theorem mem_update_cons {g : ι → Log AuthorizationSig} {i : ι} (e : Event AuthorizationSig) (j : ι)
    {e' : Event AuthorizationSig} (h : e' ∈ g j) : e' ∈ Function.update g i (e :: g i) j := by
  by_cases hji : j = i
  · subst hji
    rw [Function.update_self]
    exact List.mem_cons_of_mem _ h
  · rw [Function.update_of_ne hji]
    exact h

/-- A new request is pending. -/
theorem AuthorizationInvariant.saveRequest (hinv : AuthorizationInvariant deps calls start (w, g))
    {request : ApprovalRequest} (hnew : w.requests.getById request.approvalRequestId = none)
    (hpending : request.status = .pending) (e : Event AuthorizationSig) :
    AuthorizationInvariant deps calls start ({ w with requests := w.requests.save request },
      Function.update g i (e :: g i)) := by
  refine hinv.next ⟨requestsMove_save_new hnew, RecordsGrow.refl _⟩
    (fun j e' he' => mem_update_cons e j he') (fun _ _ h => .inl h)
    (fun id other kind h hkind => ?_) fun _ _ h _ => .inl h
  by_cases hid : request.approvalRequestId = id
  · subst hid
    have heq : request = other := Option.some.inj ((Repository.getById_save_self _ _).symm.trans h)
    rw [← heq, hpending] at hkind
    cases kind <;> cases hkind
  · exact .inl ⟨other, (Repository.getById_save_ne _ hid).symm.trans h, hkind⟩

/-- A request takes a status that it may take: one that decides nothing, or one that it has a record
for. -/
theorem AuthorizationInvariant.updateStatus
    (hinv : AuthorizationInvariant deps calls start (w, g)) {request : ApprovalRequest}
    {id : String} {status : ApprovalRequestStatus} (extras : ApprovalRequestStatusExtras)
    (hrequest : w.requests.getById id = some request)
    (hmay : request.status = .pending ∨ status = request.status) (e : Event AuthorizationSig)
    (hdecided : ∀ kind, status = HumanDecisionKind.status kind →
      DecidedAs deps calls (w, g) id kind) :
    AuthorizationInvariant deps calls start
      ({ w with requests := w.requests.save (request.withStatus status extras) },
        Function.update g i (e :: g i)) := by
  have hmoves : AuthorizationMoves w
      { w with requests := w.requests.save (request.withStatus status extras) } :=
    ⟨requestsMove_save_status hrequest hmay extras, RecordsGrow.refl _⟩
  refine hinv.next hmoves (fun j e' he' => mem_update_cons e j he') (fun _ _ h => .inl h)
    (fun k other kind h hkind => ?_) fun _ _ h _ => .inl h
  by_cases hid : request.approvalRequestId = k
  · have hk : k = id := hid.symm.trans (Repository.id_of_getById hrequest)
    subst hid
    have heq : request.withStatus status extras = other :=
      Option.some.inj ((Repository.getById_save_self _ _).symm.trans h)
    rw [← heq] at hkind
    refine .inr ?_
    rw [hk]
    exact (hdecided kind hkind).moves hmoves fun j e' he' => mem_update_cons e j he'
  · exact .inl ⟨other, (Repository.getById_save_ne (v := request.withStatus status extras) _
      hid).symm.trans h, hkind⟩

/-- A run is moved: not to `approved`, or it has a request that was approved. -/
theorem AuthorizationInvariant.transition
    (hinv : AuthorizationInvariant deps calls start (w, g)) {run : RunRecord} {next : RunState}
    {updatedAt : ℕ} (e : Event AuthorizationSig)
    (happroved : next = .approved → ApprovedBy deps calls (w, g) run.runId) :
    AuthorizationInvariant deps calls start ((w.transition run next updatedAt).2,
        Function.update g i (e :: g i)) := by
  have hcases : (∃ runs, (w.transition run next updatedAt).2 = { w with runs } ∧
      runs = (w.runs.transition run.runId run.state run.recordRevision next updatedAt).2) := by
    unfold AuthorizationWorld.transition
    generalize w.runs.transition run.runId run.state run.recordRevision next updatedAt = r
    obtain ⟨r, runs⟩ := r
    cases r <;> exact ⟨runs, rfl, rfl⟩
  obtain ⟨runs, hw, hruns⟩ := hcases
  rw [hw]
  have hmoves : AuthorizationMoves w { w with runs } :=
    ⟨RequestsMove.refl _, RecordsGrow.refl _⟩
  refine hinv.next hmoves (fun j e' he' => mem_update_cons e j he') (fun _ _ h => .inl h)
    (fun _ other _ h hkind => .inl ⟨other, h, hkind⟩) fun runId other hrun hstate => ?_
  change runs.getById runId = some other at hrun
  rcases RunRepository.transition_cases w.runs run.runId run.state run.recordRevision next
      updatedAt with ⟨r, hr, -, -, hmoved⟩ | ⟨-, e', hsame⟩
  · rw [hruns, hmoved] at hrun
    have hrid : r.runId = run.runId := w.runs.keyed _ _ hr
    by_cases hid : run.runId = runId
    · subst hid
      have heq : RunRepository.moved r next updatedAt = other := by
        refine Option.some.inj (Eq.trans ?_ hrun)
        rw [← hrid]
        exact (JsMap.get_set_self _ _ _).symm
      have hnext : next = .approved := by
        rw [← hstate, ← heq]
        rfl
      exact .inr ((happroved hnext).moves hmoves fun j e' he' => mem_update_cons e j he')
    · refine .inl (Eq.trans ?_ hrun)
      exact (JsMap.get_set_ne _ _ (by rw [← hrid] at hid; exact hid)).symm
  · rw [hruns, hsame] at hrun
    exact .inl hrun

/-- A record is appended of a decision that was taken. -/
theorem AuthorizationInvariant.append (hinv : AuthorizationInvariant deps calls start (w, g))
    {record : HumanAuthorizationRecord}
    (hnew : w.records.byId.getById record.authorizationRecordId = none)
    (hundecided : w.records.getByApprovalRequest record.approvalRequestId = none)
    (e : Event AuthorizationSig) (hrecorded : Recorded deps calls (w, g) record) :
    AuthorizationInvariant deps calls start ({ w with records := w.records.add record hnew },
      Function.update g i (e :: g i)) := by
  refine hinv.next ⟨RequestsMove.refl _, recordsGrow_add hnew hundecided⟩
    (fun j e' he' => mem_update_cons e j he') (fun id other h => ?_)
    (fun _ other _ h hkind => .inl ⟨other, h, hkind⟩) fun _ _ h _ => .inl h
  change (w.records.add record hnew).getByApprovalRequest id = some other at h
  rw [AuthorizationRecords.getByApprovalRequest_add] at h
  split at h
  · cases h
    exact .inr (hrecorded.moves (RequestsMove.refl _) fun j e' he' => mem_update_cons e j he')
  · exact .inl h

/-- A call that leaves requests, records and runs alone keeps the invariant. -/
theorem AuthorizationInvariant.logged (hinv : AuthorizationInvariant deps calls start (w, g))
    (hrequests : w'.requests = w.requests) (hrecords : w'.records = w.records)
    (hruns : w'.runs = w.runs) (e : Event AuthorizationSig) :
    AuthorizationInvariant deps calls start (w', Function.update g i (e :: g i)) := by
  refine hinv.next ⟨?_, ?_⟩ (fun j e' he' => mem_update_cons e j he') (fun id record h => .inl ?_)
    (fun id request kind h hkind => .inl ⟨request, ?_, hkind⟩) fun runId run h _ => .inl ?_
  · rw [hrequests]
    exact RequestsMove.refl _
  · rw [hrecords]
    exact RecordsGrow.refl _
  · exact hrecords ▸ h
  · exact hrequests ▸ h
  · exact hruns ▸ h

/-- Every ordinary call keeps the invariant. -/
theorem AuthorizationInvariant.ordinary (hinv : AuthorizationInvariant deps calls start (w, g))
    {o : AuthorizationOp} (ho : o.Ordinary) (e : Event AuthorizationSig) :
    AuthorizationInvariant deps calls start ((w.call deps o).2,
      Function.update g i (e :: g i)) ∧ AuthorizationMoves w (w.call deps o).2 := by
  by_cases hharmless : o.harmless = true
  · obtain ⟨hrequests, hrecords, hruns⟩ := AuthorizationWorld.call_harmless deps hharmless w
    refine ⟨hinv.logged hrequests hrecords hruns e, ?_⟩
    rw [AuthorizationMoves, hrequests, hrecords]
    exact ⟨RequestsMove.refl _, RecordsGrow.refl _⟩
  · cases o with
    | saveRequest request =>
      simp only [AuthorizationWorld.call]
      rcases w.requests.store_cases request with ⟨hnew, hstored⟩ | ⟨e', hsame⟩
      · rw [hstored]
        exact ⟨hinv.saveRequest hnew ho e, requestsMove_save_new hnew, RecordsGrow.refl _⟩
      · rw [hsame]
        exact ⟨hinv.logged rfl rfl rfl e, AuthorizationMoves.refl _⟩
    | updateStatus id status extras =>
      simp only [AuthorizationWorld.call]
      rcases w.requests.updateStatus_cases id status extras with
        ⟨request, hrequest, hmay, hstored⟩ | ⟨e', hsame⟩
      · rw [hstored]
        exact ⟨hinv.updateStatus extras hrequest hmay e fun kind hkind => absurd hkind (ho kind),
          requestsMove_save_status hrequest hmay extras, RecordsGrow.refl _⟩
      · rw [hsame]
        exact ⟨hinv.logged rfl rfl rfl e, AuthorizationMoves.refl _⟩
    | append record => exact ho.elim
    | transition run next updatedAt =>
      refine ⟨hinv.transition e fun hnext => absurd hnext ho, ?_⟩
      simp only [AuthorizationWorld.call, AuthorizationWorld.transition]
      split <;> exact ⟨RequestsMove.refl _, RecordsGrow.refl _⟩
    | _ => exact absurd rfl hharmless

end Calls

end Protocol

end Orchestrator.Authorization
