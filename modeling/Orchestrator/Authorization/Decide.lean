import Orchestrator.Authorization.Ordinary
import Orchestrator.Authorization.Protocol

/-!
# Calls under the protocol

Every call of human authorization keeps the protocol. The calls that decide nothing keep it by what
they may call at all; a decision keeps it by what it knows.

* `Lasting`: what a call knows and others do not take away;
* `Yields`, `only_yields`, `answer_yields`: the triples of the protocol, and its rules;
* `TakenAndDecided`, `settleDecision_yields`: the transaction of a decision;
* `decide_yields`, `run_yields`: every call keeps the protocol.
-/

namespace Orchestrator.Authorization

open Atomic Collections

variable {ι : Type} [DecidableEq ι] {deps : AuthorizationDeps} {calls : ι → AuthorizationCall}
  {start : AuthorizationWorld}

/-! ## Knowledge -/

/-- What stays true while the log of the call grows and the repositories move. -/
def Lasting (A : Log AuthorizationSig → AuthorizationWorld → Prop) : Prop :=
  ∀ h h' w w', (∀ e ∈ h, e ∈ h') → AuthorizationMoves w w' → A h w → A h' w'

/-- The request was read, and may have moved on since. -/
def SeenRequest (request : ApprovalRequest) (w : AuthorizationWorld) : Prop :=
  ∃ request', w.requests.getById request.approvalRequestId = some request' ∧
    RequestMoves request request'

section Knowledge

variable {A A' : Log AuthorizationSig → AuthorizationWorld → Prop} {request : ApprovalRequest}
  {w w' : AuthorizationWorld}

omit [DecidableEq ι] in
theorem Lasting.stable (hA : Lasting A) : (authorizationProtocol deps calls start).Stable A :=
  fun h _ _ hmoves hA' => hA h h _ _ (fun _ he => he) hmoves hA'

theorem Lasting.and (hA : Lasting A) (hA' : Lasting A') : Lasting fun h w => A h w ∧ A' h w :=
  fun h h' w w' hlog hmoves hboth =>
    ⟨hA h h' w w' hlog hmoves hboth.1, hA' h h' w w' hlog hmoves hboth.2⟩

theorem lasting_true : Lasting fun _ _ => True := fun _ _ _ _ _ _ _ => trivial

theorem lasting_log {G : Log AuthorizationSig → Prop}
    (hG : ∀ h h', (∀ e ∈ h, e ∈ h') → G h → G h') : Lasting fun h _ => G h :=
  fun h h' _ _ hlog _ => hG h h' hlog

theorem SeenRequest.moves (h : SeenRequest request w) (hmoves : AuthorizationMoves w w') :
    SeenRequest request w' := by
  obtain ⟨request', hrequest', hmoved⟩ := h
  obtain ⟨request'', hrequest'', hmoved'⟩ := hmoves.1 _ _ hrequest'
  exact ⟨request'', hrequest'', hmoved.trans hmoved'⟩

theorem seenRequest_of_getById {id : String} (h : w.requests.getById id = some request) :
    SeenRequest request w := by
  refine ⟨request, ?_, RequestMoves.refl _⟩
  rw [Repository.id_of_getById h]
  exact h

theorem lasting_seen (request : ApprovalRequest) : Lasting fun _ w => SeenRequest request w :=
  fun _ _ _ _ _ hmoves hseen => hseen.moves hmoves

end Knowledge

/-! ## Calls -/

/-- From `A` the function returns with `B`, where it returns, and keeps the protocol. -/
abbrev Yields {α : Type} (deps : AuthorizationDeps) (calls : ι → AuthorizationCall)
    (start : AuthorizationWorld) (i : ι) (A : Log AuthorizationSig → AuthorizationWorld → Prop)
    (p : AuthorizationAsync α) (B : α → Log AuthorizationSig → AuthorizationWorld → Prop) : Prop :=
  (authorizationProtocol deps calls start).Triple i A p B fun _ _ _ => True

section Calls

variable {i : ι} {A : Log AuthorizationSig → AuthorizationWorld → Prop}

/-- An ordinary call is in the log once it is made, and takes nothing away. -/
theorem ordinary_triple {o : AuthorizationOp} (ho : o.Ordinary) (hA : Lasting A)
    {R : o.Res → AuthorizationWorld → Prop}
    (hR : ∀ (w : AuthorizationWorld) v, (w.call deps o).1 = .ok v → R v (w.call deps o).2) :
    (authorizationProtocol deps calls start).Triple i A o.await
      (fun v h w => (A h w ∧ (⟨o, .ok v⟩ : Event AuthorizationSig) ∈ h) ∧ R v w) fun _ => A := by
  refine Guarded.triple_call hA.stable fun log w g hinv _ hheld => ?_
  obtain ⟨hinv', hmoves⟩ := hinv.ordinary ho (i := i) ⟨o, (w.call deps o).1⟩
  refine ⟨hinv', hmoves, fun v hv => ⟨⟨?_, List.mem_cons_self⟩, hR w v hv⟩, fun e _ => ?_⟩
  · exact hA _ _ _ _ (fun _ he => List.mem_cons_of_mem _ he) hmoves hheld
  · exact hA _ _ _ _ (fun _ he => List.mem_cons_of_mem _ he) hmoves hheld

/-- What lasts outlives every function that makes ordinary calls only. -/
theorem only_triple {α : Type} {p : AuthorizationAsync α} (hp : p.Only AuthorizationOp.Ordinary)
    (hA : Lasting A) :
    (authorizationProtocol deps calls start).Triple i A p (fun _ => A) fun _ => A :=
  Guarded.triple_only hp fun _ ho =>
    (ordinary_triple ho hA (R := fun _ _ => True) fun _ _ _ => trivial).post fun _ _ _ h => h.1.1

theorem only_yields {α : Type} {p : AuthorizationAsync α} (hp : p.Only AuthorizationOp.Ordinary)
    (hA : Lasting A) : Yields deps calls start i A p fun _ => A :=
  (only_triple hp hA).conseq (fun _ _ h => h) (fun _ _ _ h => h) fun _ _ _ _ => trivial

/-- What a call answers is known afterwards, as far as it lasts. -/
theorem answer_yields {o : AuthorizationOp} (ho : o.Ordinary) (hA : Lasting A)
    {R : o.Res → AuthorizationWorld → Prop}
    (hR : ∀ (w : AuthorizationWorld) v, (w.call deps o).1 = .ok v → R v (w.call deps o).2) :
    Yields deps calls start i A o.await
      fun v h w => (A h w ∧ (⟨o, .ok v⟩ : Event AuthorizationSig) ∈ h) ∧ R v w :=
  (ordinary_triple ho hA hR).conseq (fun _ _ h => h) (fun _ _ _ h => h) fun _ _ _ _ => trivial

theorem require_yields (holds : Bool) (code : AuthorizationErrorCode) (message : String) :
    Yields deps calls start i A (require holds code message) fun _ h w => holds = true ∧ A h w :=
  Guarded.Triple.ite (fun hholds => Guarded.triple_pure fun _ _ h => ⟨hholds, h⟩) fun _ =>
    Guarded.triple_throw fun _ _ _ => trivial

theorem orThrow_yields {α : Type} (found : Option α) (code : AuthorizationErrorCode)
    (message : String) :
    Yields deps calls start i A (orThrow found code message)
      fun v h w => found = some v ∧ A h w := by
  cases found with
  | some v => exact Guarded.triple_pure fun _ _ h => ⟨rfl, h⟩
  | none => exact Guarded.triple_throw fun _ _ _ => trivial

end Calls

/-! ## Decisions -/

section Decisions

variable {i : ι} {A : Log AuthorizationSig → AuthorizationWorld → Prop}
  {decision : HumanAuthorizationDecision} {request : ApprovalRequest}

/-- The validation decision that is read lets the plan be approved. -/
theorem eligible_yields (hA : Lasting A) :
    Yields deps calls start i A (assertBoundValidationApprovalEligible request)
      fun _ h w => A h w ∧ ValidationEligible request h := by
  unfold assertBoundValidationApprovalEligible
  refine (answer_yields (by trivial) hA (R := fun _ _ => True) fun _ _ _ => trivial).bind
    fun found => (orThrow_yields found _ _).bind fun validation => ?_
  refine Guarded.Triple.of_pure fun hfound => (require_yields _ _ _).bind fun _ =>
    Guarded.Triple.of_pure fun hnames => ?_
  refine (require_yields _ _ _).bind fun _ => Guarded.Triple.of_pure fun hdecision =>
    (require_yields _ _ _).post fun _ h w hknown => ?_
  obtain ⟨hfindings, ⟨hknown, hread⟩, -⟩ := hknown
  rw [decide_eq_true_eq] at hnames hdecision hfindings
  rw [hfound] at hread
  exact ⟨hknown, validation, hread, hnames.1, hnames.2, hdecision, hfindings⟩

/-- The nonce is checked against the request that was read, and spent. -/
theorem beginDecision_yields :
    Yields deps calls start i (fun _ w => SeenRequest request w)
      (beginDecision request.approvalRequestId decision.decisionNonce)
      fun nonceHash h w => SeenRequest request w ∧
        NonceSpent deps decision request nonceHash h := by
  unfold beginDecision
  have hpeek : ∀ (w : AuthorizationWorld) v,
      (w.call deps (.peekDecision request.approvalRequestId)).1 = .ok v →
        v = w.requests.getById request.approvalRequestId := by
    intro w v hv
    simp only [AuthorizationWorld.call, AuthorizationWorld.peekDecision] at hv
    split at hv
    · cases hv
    · exact (Except.ok.inj hv).symm
  refine (answer_yields (by trivial) (lasting_seen request)
    (R := fun v w => v = w.requests.getById request.approvalRequestId) hpeek).bind fun found =>
      (orThrow_yields found _ _).bind fun read => Guarded.Triple.of_pure fun hfound => ?_
  have hmoved : ∀ (h : Log AuthorizationSig) (w : AuthorizationWorld),
      (SeenRequest request w ∧
        (⟨.peekDecision request.approvalRequestId, .ok found⟩ : Event AuthorizationSig) ∈ h) ∧
        found = w.requests.getById request.approvalRequestId →
      RequestMoves request read ∧ SeenRequest request w := by
    intro h w hknown
    obtain ⟨⟨hseen, -⟩, hstored⟩ := hknown
    have hseen' := hseen
    obtain ⟨request', hrequest', hmoves⟩ := hseen'
    rw [← hstored, hfound, Option.some.injEq] at hrequest'
    rw [hrequest']
    exact ⟨hmoves, hseen⟩
  refine Guarded.Triple.pre ?_ hmoved
  refine Guarded.Triple.of_pure fun hmoves => (require_yields _ _ _).bind fun _ =>
    Guarded.Triple.of_pure fun _ => (require_yields _ _ _).bind fun _ =>
      Guarded.Triple.of_pure fun _ => ?_
  have hconsume : ∀ (w : AuthorizationWorld) v,
      (w.call deps (.consumeNonce read decision.decisionNonce)).1 = .ok v →
        deps.hashDecisionNonce decision.decisionNonce = read.decisionNonceHash ∧
          v = read.decisionNonceHash := by
    intro w v hv
    simp only [AuthorizationWorld.call, Coordinator.consumeNonce] at hv
    split at hv
    · cases hv
    · split at hv
      · cases hv
      · next hright =>
        have hright := not_not.mp hright
        exact ⟨hright, (Except.ok.inj hv).symm.trans hright⟩
  refine (answer_yields (by trivial) (lasting_seen request)
    (R := fun v _ => deps.hashDecisionNonce decision.decisionNonce = read.decisionNonceHash ∧
      v = read.decisionNonceHash) hconsume).post fun nonceHash h w hknown => ?_
  obtain ⟨⟨hseen, hmem⟩, hright, hhash⟩ := hknown
  have hsame : read.binding.decisionNonceHash = request.binding.decisionNonceHash ∧
      read.binding.approvalRequestId = request.binding.approvalRequestId := by
    rw [hmoves.binding]
    exact ⟨rfl, rfl⟩
  exact ⟨hseen, hright.trans hsame.1, hhash.trans hsame.1, read, hsame.2, hmem⟩

/-! ### The transaction -/

/-- The decision was taken on a request that is stored. -/
def Taken (deps : AuthorizationDeps) (decision : HumanAuthorizationDecision)
    (request : ApprovalRequest) (record : HumanAuthorizationRecord)
    (h : Log AuthorizationSig) (w : AuthorizationWorld) : Prop :=
  SeenRequest request w ∧ DecisionTaken deps decision h request record

/-- Its record is stored. -/
def TakenAndRecorded (deps : AuthorizationDeps) (decision : HumanAuthorizationDecision)
    (request : ApprovalRequest) (record : HumanAuthorizationRecord)
    (h : Log AuthorizationSig) (w : AuthorizationWorld) : Prop :=
  Taken deps decision request record h w ∧
    w.records.getByApprovalRequest request.approvalRequestId = some record ∧
    (⟨.append record, .ok record⟩ : Event AuthorizationSig) ∈ h

/-- Its request was moved. -/
def TakenAndDecided (deps : AuthorizationDeps) (decision : HumanAuthorizationDecision)
    (request : ApprovalRequest) (record : HumanAuthorizationRecord)
    (h : Log AuthorizationSig) (w : AuthorizationWorld) : Prop :=
  TakenAndRecorded deps decision request record h w ∧
    ∃ request', w.requests.getById request.approvalRequestId = some request' ∧
      request'.binding = request.binding ∧ request'.status = decision.decision.status

variable {record : HumanAuthorizationRecord}

theorem lasting_taken : Lasting (Taken deps decision request record) :=
  fun _ _ _ _ hlog hmoves h => ⟨h.1.moves hmoves, h.2.mono hlog⟩

theorem lasting_takenAndRecorded : Lasting (TakenAndRecorded deps decision request record) :=
  fun _ _ _ _ hlog hmoves h =>
    ⟨lasting_taken _ _ _ _ hlog hmoves h.1, hmoves.2 _ _ h.2.1, hlog _ h.2.2⟩

theorem lasting_takenAndDecided : Lasting (TakenAndDecided deps decision request record) := by
  intro h h' w w' hlog hmoves hknown
  obtain ⟨hrecorded, request', hrequest', hbinding, hstatus⟩ := hknown
  obtain ⟨request'', hrequest'', hmoved⟩ := hmoves.1 _ _ hrequest'
  have hne : request'.status ≠ .pending := by
    rw [hstatus]
    cases decision.decision <;> decide
  exact ⟨lasting_takenAndRecorded _ _ _ _ hlog hmoves hrecorded, request'', hrequest'',
    hmoved.binding.trans hbinding, (hmoved.status_eq hne).trans hstatus⟩

omit [DecidableEq ι] in
theorem Taken.recorded {w : AuthorizationWorld} {g : ι → Log AuthorizationSig}
    (h : Taken deps decision request record (g i) w) (hcall : calls i = .decide decision) :
    Recorded deps calls (w, g) record := by
  obtain ⟨⟨request', hrequest', hmoves⟩, htaken⟩ := h
  obtain ⟨now, hrecord⟩ := htaken.recorded
  have hid : record.approvalRequestId = request.approvalRequestId := by
    rw [hrecord]
    rfl
  refine ⟨i, decision, request', hcall, ?_, htaken.of_binding hmoves.binding⟩
  rw [hid]
  exact hrequest'

omit [DecidableEq ι] in
theorem TakenAndRecorded.decidedAs {w : AuthorizationWorld} {g : ι → Log AuthorizationSig}
    (h : TakenAndRecorded deps decision request record (g i) w)
    (hcall : calls i = .decide decision) :
    DecidedAs deps calls (w, g) request.approvalRequestId decision.decision :=
  ⟨record, h.2.1, h.1.2.decision_eq, h.1.recorded hcall⟩

/-- The record of a decision that was taken is appended. -/
theorem append_yields (hcall : calls i = .decide decision) :
    Yields deps calls start i (Taken deps decision request record)
      (AuthorizationOp.append record).await
      fun _ => TakenAndRecorded deps decision request record := by
  refine Guarded.triple_call lasting_taken.stable fun log w g hinv _ htaken => ?_
  have hid : record.approvalRequestId = request.approvalRequestId := by
    obtain ⟨now, hrecord⟩ := htaken.2.recorded
    rw [hrecord]
    rfl
  simp only [authorizationSystem, AuthorizationWorld.call]
  rcases w.records.append_cases record with ⟨hnew, hundecided, happended⟩ | ⟨e, hsame⟩
  · have hmoves : AuthorizationMoves w { w with records := w.records.add record hnew } :=
      ⟨RequestsMove.refl _, recordsGrow_add hnew hundecided⟩
    simp only [happended]
    refine ⟨hinv.append hnew hundecided _ (htaken.recorded hcall), hmoves, fun v hv => ⟨?_, ?_, ?_⟩,
      fun _ _ => trivial⟩
    · exact lasting_taken _ _ _ _ (fun _ he => List.mem_cons_of_mem _ he) hmoves htaken
    · rw [AuthorizationRecords.getByApprovalRequest_add, if_pos hid]
    · rw [← Except.ok.inj hv]
      exact List.mem_cons_self
  · simp only [hsame]
    refine ⟨hinv.logged rfl rfl rfl _, AuthorizationMoves.refl _, ?_, fun _ _ => trivial⟩
    intro v hv
    cases hv

/-- The request of a decision that is recorded takes its status. -/
theorem updateStatus_yields (hcall : calls i = .decide decision)
    (extras : ApprovalRequestStatusExtras) :
    Yields deps calls start i (TakenAndRecorded deps decision request record)
      (AuthorizationOp.updateStatus request.approvalRequestId decision.decision.status extras).await
      fun _ => TakenAndDecided deps decision request record := by
  refine Guarded.triple_call lasting_takenAndRecorded.stable fun log w g hinv _ hknown => ?_
  simp only [authorizationSystem, AuthorizationWorld.call]
  rcases w.requests.updateStatus_cases request.approvalRequestId decision.decision.status
    extras with ⟨stored, hstored, hmay, hmoved⟩ | ⟨e, hsame⟩
  · have hmoves : AuthorizationMoves w { w with
        requests := w.requests.save (stored.withStatus decision.decision.status extras) } :=
      ⟨requestsMove_save_status hstored hmay extras, RecordsGrow.refl _⟩
    have hdecided : ∀ kind, decision.decision.status = HumanDecisionKind.status kind →
        DecidedAs deps calls (w, g) request.approvalRequestId kind := by
      intro kind hkind
      have heq : decision.decision = kind := by
        cases hdecision : decision.decision <;> cases kind <;> simp_all [HumanDecisionKind.status]
      exact heq ▸ hknown.decidedAs hcall
    have hbinding : stored.binding = request.binding := by
      obtain ⟨request', hrequest', hrequestMoves⟩ := hknown.1.1
      rw [hstored, Option.some.injEq] at hrequest'
      rw [hrequest']
      exact hrequestMoves.binding
    simp only [hmoved]
    refine ⟨hinv.updateStatus extras hstored hmay _ hdecided, hmoves, fun _ _ => ⟨?_, ?_⟩,
      fun _ _ => trivial⟩
    · exact lasting_takenAndRecorded _ _ _ _ (fun _ he => List.mem_cons_of_mem _ he) hmoves hknown
    · refine ⟨stored.withStatus decision.decision.status extras, ?_, hbinding, rfl⟩
      have hid : stored.approvalRequestId = request.approvalRequestId :=
        Repository.id_of_getById hstored
      rw [← hid]
      exact Repository.getById_save_self _ _
  · simp only [hsame]
    refine ⟨hinv.logged rfl rfl rfl _, AuthorizationMoves.refl _, ?_, fun _ _ => trivial⟩
    intro v hv
    cases hv

/-- The run of a request that was decided takes its state. -/
theorem transition_yields (hcall : calls i = .decide decision) {run : RunRecord}
    (hrun : run.runId = request.runId) (updatedAt : ℕ) :
    Yields deps calls start i (TakenAndDecided deps decision request record)
      (AuthorizationOp.transition run (decidedRunState decision.decision) updatedAt).await
      fun _ => TakenAndDecided deps decision request record := by
  refine Guarded.triple_call lasting_takenAndDecided.stable fun log w g hinv _ hknown => ?_
  have hmoves : AuthorizationMoves w (w.call deps
      (.transition run (decidedRunState decision.decision) updatedAt)).2 := by
    simp only [AuthorizationWorld.call, AuthorizationWorld.transition]
    split <;> exact ⟨RequestsMove.refl _, RecordsGrow.refl _⟩
  refine ⟨hinv.transition _ fun hnext => ?_, hmoves, fun _ _ => lasting_takenAndDecided _ _ _ _
    (fun _ he => List.mem_cons_of_mem _ he) hmoves hknown, fun _ _ => trivial⟩
  have happrove : decision.decision = .approve := by
    cases hdecision : decision.decision with
    | approve => rfl
    | reject | requestModification =>
      rw [hdecision] at hnext
      cases hnext
  obtain ⟨hrecorded, request', hrequest', hbinding, hstatus⟩ := hknown
  have hid : request'.approvalRequestId = request.approvalRequestId :=
    Repository.id_of_getById hrequest'
  have hrunId : request'.binding.runId = request.binding.runId := by rw [hbinding]
  refine ⟨request', ?_, hrunId.trans hrun.symm, ?_, ?_⟩
  · rw [hid]
    exact hrequest'
  · rw [hstatus, happrove]
    rfl
  · rw [hid, ← happrove]
    exact hrecorded.decidedAs hcall

/-- What a call of `decide` returns: the request was decided before, or the call decided it. -/
def Decides (deps : AuthorizationDeps) (decision : HumanAuthorizationDecision)
    (result : AuthorizationResult) (h : Log AuthorizationSig) (w : AuthorizationWorld) : Prop :=
  result.result = .alreadyDecided ∨
    (result.result = decidedResult decision.decision ∧
      ∃ request record, result.authorizationRecordId = some record.authorizationRecordId ∧
        TakenAndDecided deps decision request record h w)

theorem settleDecision_yields (hcall : calls i = .decide decision) {run : RunRecord}
    (hrun : run.runId = request.runId) (now : ℕ) :
    Yields deps calls start i (Taken deps decision request record)
      (settleDecision decision request run record now) (Decides deps decision) := by
  refine (append_yields hcall).bind fun _ =>
    (only_yields (saveModification_only decision request) lasting_takenAndRecorded).bind fun _ =>
      (updateStatus_yields hcall _).bind fun _ =>
        (only_yields (Async.only_ofExcept _) lasting_takenAndDecided).bind fun _ => ?_
  have hcommit : Yields deps calls start i (TakenAndDecided deps decision request record)
      (commitRunTransition run (decidedRunState decision.decision) now)
      fun _ => TakenAndDecided deps decision request record :=
    (only_yields (Async.only_ofExcept _) lasting_takenAndDecided).bind fun _ =>
      (transition_yields hcall hrun now).bind fun _ => Guarded.triple_pure fun _ _ h => h
  refine hcommit.bind fun _ => (only_yields (only_await (by trivial))
    lasting_takenAndDecided).bind fun _ => Guarded.triple_pure fun h w hknown => ?_
  exact .inr ⟨rfl, request, record, rfl, hknown⟩

/-! ### The decision -/

/-- The nonce is spent on a request that was read. -/
def Deciding (deps : AuthorizationDeps) (decision : HumanAuthorizationDecision)
    (request : ApprovalRequest) (nonceHash : String) (h : Log AuthorizationSig)
    (w : AuthorizationWorld) : Prop :=
  SeenRequest request w ∧ NonceSpent deps decision request nonceHash h

theorem lasting_deciding (nonceHash : String) :
    Lasting (Deciding deps decision request nonceHash) :=
  (lasting_seen request).and (lasting_log fun _ _ hlog h => h.mono hlog)

theorem assertEligibleToApprove_yields (hA : Lasting A) :
    Yields deps calls start i A (assertEligibleToApprove decision request)
      fun _ h w => A h w ∧ (decision.decision = .approve → ValidationEligible request h) :=
  Guarded.Triple.ite (fun _ => (eligible_yields hA).post fun _ _ _ h => ⟨h.1, fun _ => h.2⟩)
    fun hother => Guarded.triple_pure fun _ _ h => ⟨h, fun happrove => absurd happrove hother⟩

theorem takeDecision_yields (hcall : calls i = .decide decision)
    (hnames : decision.approvalRequestId = request.approvalRequestId) (nonceHash : String)
    (now : ℕ) :
    Yields deps calls start i (Deciding deps decision request nonceHash)
      (takeDecision deps decision request nonceHash now) (Decides deps decision) := by
  unfold takeDecision
  have hkeyed : ∀ (w : AuthorizationWorld) (v : Option RunRecord),
      (w.call deps (.getRun request.runId)).1 = .ok v →
        ∀ run, v = some run → run.runId = request.runId := by
    intro w v hv run hrun
    have hstored : w.runs.getById request.runId = some run := (Except.ok.inj hv).trans hrun
    exact w.runs.keyed _ _ hstored
  have hlasting : Lasting fun h w => Deciding deps decision request nonceHash h w ∧
      ApproverAuthorized decision request h :=
    (lasting_deciding nonceHash).and (lasting_log fun _ _ hlog h => h.mono hlog)
  refine (answer_yields (o := .getRun request.runId) (by trivial) (lasting_deciding nonceHash)
    (R := fun v _ => ∀ run, v = some run → run.runId = request.runId) hkeyed).bind fun found =>
      (orThrow_yields found _ _).bind fun run => Guarded.Triple.of_pure fun hfound => ?_
  refine Guarded.Triple.pre (A := fun h w => run.runId = request.runId ∧
    Deciding deps decision request nonceHash h w) ?_ fun h w hknown =>
      ⟨hknown.2 run hfound, hknown.1.1⟩
  refine Guarded.Triple.of_pure fun hrun => (require_yields _ _ _).bind fun _ =>
    Guarded.Triple.of_pure fun _ => ?_
  refine (answer_yields (by trivial) (lasting_deciding nonceHash) (R := fun _ _ => True)
    fun _ _ _ => trivial).bind fun outcome => (require_yields _ _ _).bind fun _ =>
      Guarded.Triple.of_pure fun _ => (require_yields _ _ _).bind fun _ =>
        Guarded.Triple.of_pure fun houtcome => ?_
  rw [decide_eq_true_eq] at houtcome
  subst houtcome
  refine Guarded.Triple.pre (A := fun h w => Deciding deps decision request nonceHash h w ∧
    ApproverAuthorized decision request h) ?_ fun h w hknown =>
      ⟨hknown.1.1, run.requestedEnvironment, hknown.1.2⟩
  refine (only_yields (verifyBindingFreshness_only request) hlasting).bind fun _ =>
    (assertEligibleToApprove_yields hlasting).bind fun _ => ?_
  have hlasting' : Lasting fun h w => (Deciding deps decision request nonceHash h w ∧
      ApproverAuthorized decision request h) ∧
      (decision.decision = .approve → ValidationEligible request h) :=
    hlasting.and (lasting_log fun _ _ hlog h happrove => (h happrove).mono hlog)
  refine (require_yields _ _ _).bind fun _ => Guarded.Triple.of_pure fun _ =>
    (only_yields (only_await (by trivial)) hlasting').bind fun authorizationRecordId => ?_
  refine (settleDecision_yields hcall hrun now).pre fun h w hknown => ?_
  obtain ⟨⟨⟨hseen, hspent⟩, hauthorized⟩, heligible⟩ := hknown
  exact ⟨hseen, hnames, ⟨now, rfl⟩, hspent, ⟨request, rfl, hauthorized⟩, heligible⟩

theorem decideRequest_yields (hcall : calls i = .decide decision)
    (hnames : decision.approvalRequestId = request.approvalRequestId) :
    Yields deps calls start i (fun _ w => SeenRequest request w)
      (decideRequest deps decision request) (Decides deps decision) := by
  have hseen : Lasting fun _ w => SeenRequest request w := lasting_seen request
  refine (only_yields (checkInstitution_only decision request) hseen).bind fun _ =>
    (only_yields (require_only _ _ _) hseen).bind fun _ =>
      (only_yields (require_only _ _ _) hseen).bind fun _ =>
        (only_yields (only_await (by trivial)) hseen).bind fun now => ?_
  refine Guarded.Triple.ite (fun _ => ?_) fun _ => ?_
  · exact (only_yields (expireRequest_only request now) hseen).bind fun _ =>
      Guarded.triple_throw fun _ _ _ => trivial
  · refine (only_yields (assertEligibleToApprove_only decision request) hseen).bind fun _ =>
      beginDecision_yields.bind fun nonceHash => ?_
    refine (takeDecision_yields hcall hnames nonceHash now).tryCatch fun e => ?_
    exact (only_yields (only_await (by trivial)) lasting_true).bind fun _ =>
      Guarded.triple_throw fun _ _ _ => trivial

/-- A decision keeps the protocol. -/
theorem decide_yields (hcall : calls i = .decide decision) :
    Yields deps calls start i (fun _ _ => True) (Authorization.decide deps decision)
      (Decides deps decision) := by
  have hread : ∀ (w : AuthorizationWorld) (v : Option ApprovalRequest),
      (w.call deps (.getRequest decision.approvalRequestId)).1 = .ok v →
        ∀ request, v = some request →
          decision.approvalRequestId = request.approvalRequestId ∧ SeenRequest request w := by
    intro w v hv request hrequest
    have hstored : w.requests.getById decision.approvalRequestId = some request :=
      (Except.ok.inj hv).trans hrequest
    exact ⟨(Repository.id_of_getById hstored).symm, seenRequest_of_getById hstored⟩
  refine (answer_yields (o := .getRequest decision.approvalRequestId) (by trivial) lasting_true
    (R := fun v w => ∀ request, v = some request →
      decision.approvalRequestId = request.approvalRequestId ∧ SeenRequest request w) hread).bind
      fun found => (orThrow_yields found _ _).bind fun request =>
        Guarded.Triple.of_pure fun hfound => ?_
  refine Guarded.Triple.pre (A := fun _ w =>
    decision.approvalRequestId = request.approvalRequestId ∧ SeenRequest request w) ?_
      fun h w hknown => hknown.2 request hfound
  refine Guarded.Triple.of_pure fun hnames =>
    (only_yields (only_await (by trivial)) (lasting_seen request)).bind fun existing => ?_
  cases existing with
  | some record =>
    exact (only_yields (only_await (by trivial)) (lasting_seen request)).bind fun _ =>
      Guarded.triple_pure fun _ _ _ => .inl rfl
  | none => exact decideRequest_yields hcall hnames

end Decisions

/-! ## Every call -/

/-- What a call returns, where it is a decision. -/
def Answers (deps : AuthorizationDeps) (call : AuthorizationCall) (answer : AuthorizationAnswer)
    (h : Log AuthorizationSig) (w : AuthorizationWorld) : Prop :=
  ∀ decision result, call = .decide decision → answer = .decided result →
    Decides deps decision result h w

/-- A call that makes ordinary calls only is no decision. -/
theorem ordinary_yields {i : ι} {call : AuthorizationCall}
    (hp : (call.run deps).Only AuthorizationOp.Ordinary)
    (hne : ∀ decision, call ≠ .decide decision) :
    Yields deps calls start i (fun _ _ => True) (call.run deps) (Answers deps call) :=
  (only_yields hp lasting_true).post fun _ _ _ _ decision _ hcall => absurd hcall (hne decision)

/-- Every call keeps the protocol. -/
theorem run_yields (i : ι) :
    Yields deps calls start i (fun _ _ => True) ((calls i).run deps) (Answers deps (calls i)) := by
  cases hcall : calls i with
  | decide decision =>
    refine (decide_yields hcall).bind fun result => Guarded.triple_pure fun h w hknown => ?_
    intro decision' result' hdecision hresult
    cases hdecision
    cases hresult
    exact hknown
  | route runId =>
    exact ordinary_yields ((route_only runId).bind fun _ => Async.only_pure _) (by nofun)
  | reissue runId replaced =>
    exact ordinary_yields ((reissueApprovalRequest_only runId replaced).bind fun _ =>
      Async.only_pure _) (by nofun)
  | recover id reason =>
    exact ordinary_yields ((recoverUnreachableApprovalDelivery_only id reason).bind fun _ =>
      Async.only_pure _) (by nofun)
  | expire nowIso =>
    exact ordinary_yields ((expireDueRequests_only nowIso).bind fun _ => Async.only_pure _)
      (by nofun)

end Orchestrator.Authorization
