import Orchestrator.Collections.Repository
import Orchestrator.Domain.Run
import Orchestrator.Domain.Validation

/-!
# Approval requests and authorization records

What human authorization stores, and the rules of its repositories.

* `ApprovalRequest`, `ApprovalRequests.updateStatus`: a request leaves `pending` once, for good, and
  what it binds never changes;
* `AuthorizationRecord`, `AuthorizationRecords.append`: there is one record for each request;
* `RequestMoves`, `RequestsMove`: how requests may move;
* `RecordsGrow`: records are only added.
-/

namespace Orchestrator

open Collections

/-! ## Errors -/

/-- `AUTHORIZATION_ERROR_CODES`. -/
inductive AuthorizationErrorCode where
  | authorizationNotReady
  | approvalRequestAlreadyExists
  | approvalRequestNotFound
  | approvalRequestNotPending
  | approvalRequestExpired
  | approvalRequestImmutable
  | approverUnauthorized
  | unknownApprover
  | authorizationDecisionReplayed
  | invalidDecisionNonce
  | authorizationBindingMismatch
  | authorizationBindingStale
  | approvalDeliveryFailed
  | decisionCardHashMismatch
  | planSuperseded
  | policyChangedDuringApproval
  | repositoryChangedDuringApproval
  | capabilityChangedDuringApproval
  | authorizationPersistenceFailed
  | modificationRequestInvalid
  | authorizationDecisionNotTerminal
  | invalidAuthorizationState
  | authorizationAlreadyDecided
  | projectAccessDenied
  | approvalReissueNotEligible
  | validationNotApprovalEligible
  deriving DecidableEq, Repr

/-- What authorization throws: an `AuthorizationError`, or an error of another service. -/
inductive AuthorizationFailure where
  | authorization (code : AuthorizationErrorCode) (message : String)
  | other (error : JsError)
  deriving DecidableEq, Repr

/-! ## Approval requests -/

inductive ApprovalRequestStatus where
  | pending
  | approved
  | rejected
  | modificationRequested
  | expired
  | cancelled
  | superseded
  deriving DecidableEq, Repr

namespace ApprovalRequestStatus

/-- The status's name in the source. -/
def text : ApprovalRequestStatus → String
  | .pending => "PENDING"
  | .approved => "APPROVED"
  | .rejected => "REJECTED"
  | .modificationRequested => "MODIFICATION_REQUESTED"
  | .expired => "EXPIRED"
  | .cancelled => "CANCELLED"
  | .superseded => "SUPERSEDED"

/-- `isTerminalApprovalRequestStatus`. -/
def isTerminal (status : ApprovalRequestStatus) : Bool :=
  status ∈ [.approved, .rejected, .modificationRequested, .expired, .cancelled, .superseded]

theorem isTerminal_iff {status : ApprovalRequestStatus} :
    status.isTerminal = true ↔ status ≠ .pending := by
  cases status <;> decide

end ApprovalRequestStatus

inductive ApprovalRequestReason where
  | executionAuthorization
  | humanApprovalRequired
  | policyRequireApproval
  | planningException
  deriving DecidableEq, Repr

/-- `HumanDecisionKind`. -/
inductive HumanDecisionKind where
  | approve
  | reject
  | requestModification
  deriving DecidableEq, Repr

/-- The status of a request that was decided. -/
def HumanDecisionKind.status : HumanDecisionKind → ApprovalRequestStatus
  | .approve => .approved
  | .reject => .rejected
  | .requestModification => .modificationRequested

/-- A request for an approval; instants are in milliseconds. -/
structure ApprovalRequest where
  approvalRequestId : String
  runId : String
  projectId : String
  objectiveId : String
  objectiveVersion : ℕ
  planId : String
  planVersion : ℕ
  planHash : String
  repositoryCommitSha : String
  repositoryFingerprint : String
  policyBundleId : String
  policyBundleHash : String
  validationDecisionId : String
  validationDecision : ValidationDecisionClass
  requestReason : ApprovalRequestReason
  requestedApproverIds : List String
  createdAt : ℕ
  expiresAt : ℕ
  status : ApprovalRequestStatus
  decisionCardHash : String
  capabilitySetFingerprint : String
  decisionNonceHash : String
  replacesApprovalRequestId : Option String
  deliveryFailedAt : Option ℕ
  deliveryFailureCode : Option String
  failureReasonCode : Option String
  deriving DecidableEq, Repr

/-- `ApprovalRequestStatusExtras`. -/
structure ApprovalRequestStatusExtras where
  deliveryFailedAt : Option ℕ
  deliveryFailureCode : Option String
  failureReasonCode : Option String
  deriving DecidableEq, Repr

/-- No extras but a reason. -/
def ApprovalRequestStatusExtras.because (failureReasonCode : Option String) :
    ApprovalRequestStatusExtras := ⟨none, none, failureReasonCode⟩

namespace ApprovalRequest

/-- The request with another status. -/
def withStatus (request : ApprovalRequest) (status : ApprovalRequestStatus)
    (extras : ApprovalRequestStatusExtras) : ApprovalRequest :=
  { request with
    status := status
    deliveryFailedAt := extras.deliveryFailedAt <|> request.deliveryFailedAt
    deliveryFailureCode := extras.deliveryFailureCode <|> request.deliveryFailureCode
    failureReasonCode := extras.failureReasonCode <|> request.failureReasonCode }

/-- What a request binds: all but its status, and what goes with its status. -/
def binding (request : ApprovalRequest) : ApprovalRequest :=
  { request with
    status := .pending
    deliveryFailedAt := none
    deliveryFailureCode := none
    failureReasonCode := none }

@[simp] theorem withStatus_status (request : ApprovalRequest) (status : ApprovalRequestStatus)
    (extras : ApprovalRequestStatusExtras) :
    (request.withStatus status extras).status = status := rfl

@[simp] theorem withStatus_id (request : ApprovalRequest) (status : ApprovalRequestStatus)
    (extras : ApprovalRequestStatusExtras) :
    (request.withStatus status extras).approvalRequestId = request.approvalRequestId := rfl

@[simp] theorem binding_withStatus (request : ApprovalRequest) (status : ApprovalRequestStatus)
    (extras : ApprovalRequestStatusExtras) :
    (request.withStatus status extras).binding = request.binding := rfl

end ApprovalRequest

/-- `approvalBindingKey`. -/
def approvalBindingKey (runId planId : String) (planVersion : ℕ)
    (planHash validationDecisionId decisionCardHash : String) : String :=
  ":".intercalate
    [runId, planId, toString planVersion, planHash, validationDecisionId, decisionCardHash]

/-- The key of what a request binds. -/
def ApprovalRequest.bindingKey (request : ApprovalRequest) : String :=
  approvalBindingKey request.runId request.planId request.planVersion request.planHash
    request.validationDecisionId request.decisionCardHash

/-- `InMemoryApprovalRequestRepository`. -/
abbrev ApprovalRequests := Repository ApprovalRequest.approvalRequestId

namespace ApprovalRequests

/-- `save`: a request is stored once. -/
def store (requests : ApprovalRequests) (request : ApprovalRequest) :
    Except AuthorizationFailure ApprovalRequest × ApprovalRequests :=
  match requests.getById request.approvalRequestId with
  | some _ =>
    (.error (.authorization .approvalRequestAlreadyExists
      s!"Approval request already exists: {request.approvalRequestId}"), requests)
  | none => (.ok request, requests.save request)

def listByRun (requests : ApprovalRequests) (runId : String) : List ApprovalRequest :=
  requests.list.filter (·.runId = runId)

def getPendingByRun (requests : ApprovalRequests) (runId : String) : Option ApprovalRequest :=
  (requests.listByRun runId).find? (·.status = .pending)

/-- Why a request in this status does not take that one, if it does not. -/
def statusRefusal (approvalRequestId : String) (current status : ApprovalRequestStatus) :
    Option String :=
  if current.isTerminal then
    if status = .pending then
      some (s!"Terminal approval request {approvalRequestId} ({current.text}) cannot return " ++
        "to PENDING")
    else if status ≠ current then
      some (s!"Terminal approval request {approvalRequestId} is {current.text} and cannot " ++
        s!"transition to {status.text}")
    else none
  else none

def updateStatus (requests : ApprovalRequests) (approvalRequestId : String)
    (status : ApprovalRequestStatus) (extras : ApprovalRequestStatusExtras) :
    Except AuthorizationFailure ApprovalRequest × ApprovalRequests :=
  match requests.getById approvalRequestId with
  | none =>
    (.error (.authorization .approvalRequestNotFound
      s!"Unknown approval request: {approvalRequestId}"), requests)
  | some existing =>
    match statusRefusal approvalRequestId existing.status status with
    | some message => (.error (.authorization .approvalRequestImmutable message), requests)
    | none =>
      (.ok (existing.withStatus status extras), requests.save (existing.withStatus status extras))

theorem statusRefusal_eq_none {approvalRequestId : String}
    {current status : ApprovalRequestStatus} :
    statusRefusal approvalRequestId current status = none ↔
      current = .pending ∨ status = current := by
  cases current <;> cases status <;> simp [statusRefusal, ApprovalRequestStatus.isTerminal]

end ApprovalRequests

/-! ## How requests move -/

/-- A request leaves `pending` once, and what it binds stays. -/
structure RequestMoves (request request' : ApprovalRequest) : Prop where
  status : request.status = .pending ∨ request'.status = request.status
  binding : request'.binding = request.binding

/-- No request is lost, and each moves as requests do. -/
def RequestsMove (requests requests' : ApprovalRequests) : Prop :=
  ∀ id request, requests.getById id = some request →
    ∃ request', requests'.getById id = some request' ∧ RequestMoves request request'

section Moves

variable {requests requests' requests'' : ApprovalRequests}
  {request request' request'' : ApprovalRequest} {id : String}

theorem RequestMoves.refl (request : ApprovalRequest) : RequestMoves request request :=
  ⟨.inr rfl, rfl⟩

theorem RequestMoves.trans (h : RequestMoves request request')
    (h' : RequestMoves request' request'') : RequestMoves request request'' := by
  refine ⟨?_, h'.binding.trans h.binding⟩
  rcases h.status with hpending | hsame
  · exact .inl hpending
  · rcases h'.status with hpending | hsame'
    · exact .inl (hsame.symm.trans hpending)
    · exact .inr (hsame'.trans hsame)

/-- Once decided, a request stays as it was decided. -/
theorem RequestMoves.status_eq (h : RequestMoves request request')
    (hstatus : request.status ≠ .pending) : request'.status = request.status :=
  h.status.resolve_left hstatus

theorem RequestsMove.refl (requests : ApprovalRequests) : RequestsMove requests requests :=
  fun _ request h => ⟨request, h, RequestMoves.refl _⟩

theorem RequestsMove.trans (h : RequestsMove requests requests')
    (h' : RequestsMove requests' requests'') : RequestsMove requests requests'' := by
  intro id request hrequest
  obtain ⟨request', hrequest', hmoves⟩ := h id request hrequest
  obtain ⟨request'', hrequest'', hmoves'⟩ := h' id request' hrequest'
  exact ⟨request'', hrequest'', hmoves.trans hmoves'⟩

/-- A new request moves no other. -/
theorem requestsMove_save_new (h : requests.getById request.approvalRequestId = none) :
    RequestsMove requests (requests.save request) := by
  intro id other hother
  refine ⟨other, (Repository.getById_save_ne _ fun heq => ?_).trans hother, RequestMoves.refl _⟩
  rw [heq, hother] at h
  cases h

/-- A request is stored in another status that it may take. -/
theorem requestsMove_save_status {status : ApprovalRequestStatus}
    (h : requests.getById id = some request)
    (hstatus : request.status = .pending ∨ status = request.status)
    (extras : ApprovalRequestStatusExtras) :
    RequestsMove requests (requests.save (request.withStatus status extras)) := by
  intro k other hother
  by_cases hk : request.approvalRequestId = k
  · have hrequest : request.approvalRequestId = id := Repository.id_of_getById h
    have hsame : other = request := by
      rw [← hk, hrequest, h, Option.some.injEq] at hother
      exact hother.symm
    subst hsame
    refine ⟨other.withStatus status extras, ?_, hstatus, rfl⟩
    rw [← hk]
    exact Repository.getById_save_self _ _
  · refine ⟨other, ?_, RequestMoves.refl _⟩
    rw [Repository.getById_save_ne requests (v := request.withStatus status extras) hk]
    exact hother

end Moves

namespace ApprovalRequests

variable (requests : ApprovalRequests)

/-- A request is stored where there is none of its id, or nothing happens. -/
theorem store_cases (request : ApprovalRequest) :
    (requests.getById request.approvalRequestId = none ∧
      requests.store request = (.ok request, requests.save request)) ∨
    ∃ e, requests.store request = (.error e, requests) := by
  unfold store
  cases h : requests.getById request.approvalRequestId with
  | none => exact .inl ⟨rfl, rfl⟩
  | some _ => exact .inr ⟨_, rfl⟩

/-- A request takes a status that it may take, or nothing happens. -/
theorem updateStatus_cases (approvalRequestId : String) (status : ApprovalRequestStatus)
    (extras : ApprovalRequestStatusExtras) :
    (∃ request, requests.getById approvalRequestId = some request ∧
      (request.status = .pending ∨ status = request.status) ∧
      requests.updateStatus approvalRequestId status extras =
        (.ok (request.withStatus status extras),
          requests.save (request.withStatus status extras))) ∨
    ∃ e, requests.updateStatus approvalRequestId status extras = (.error e, requests) := by
  unfold updateStatus
  cases h : requests.getById approvalRequestId with
  | none => exact .inr ⟨_, rfl⟩
  | some request =>
    cases hrefusal : statusRefusal approvalRequestId request.status status with
    | some message =>
      refine .inr ⟨.authorization .approvalRequestImmutable message, ?_⟩
      simp only [hrefusal]
    | none =>
      refine .inl ⟨request, rfl, statusRefusal_eq_none.mp hrefusal, ?_⟩
      simp only [hrefusal]

end ApprovalRequests

/-! ## Authorization records -/

/-- `AuthorizationRecord`, whole. -/
structure HumanAuthorizationRecord where
  authorizationRecordId : String
  approvalRequestId : String
  runId : String
  projectId : String
  objectiveId : String
  objectiveVersion : ℕ
  planId : String
  planVersion : ℕ
  planHash : String
  repositoryFingerprint : String
  policyBundleHash : String
  validationDecisionId : String
  approverId : String
  decision : HumanDecisionKind
  decisionTimestamp : ℕ
  decisionCardHash : String
  capabilitySetFingerprint : String
  nonceHash : String
  createdAt : ℕ
  note : Option String
  deriving DecidableEq, Repr

/-- `InMemoryAuthorizationRecordRepository`, with a record for each request that is decided. -/
structure AuthorizationRecords where
  byId : Repository HumanAuthorizationRecord.authorizationRecordId
  byApproval : JsMap String String
  linked : ∀ approvalRequestId id, byApproval.get approvalRequestId = some id →
    ∃ record, byId.getById id = some record ∧ record.approvalRequestId = approvalRequestId

namespace AuthorizationRecords

def empty : AuthorizationRecords := ⟨.empty, .empty, fun _ _ h => (nomatch h)⟩

def getByApprovalRequest (records : AuthorizationRecords) (approvalRequestId : String) :
    Option HumanAuthorizationRecord :=
  (records.byApproval.get approvalRequestId).bind records.byId.getById

/-- The records with one more, under an id that is not used. -/
def add (records : AuthorizationRecords) (record : HumanAuthorizationRecord)
    (hnew : records.byId.getById record.authorizationRecordId = none) :
    AuthorizationRecords where
  byId := records.byId.save record
  byApproval := records.byApproval.set record.approvalRequestId record.authorizationRecordId
  linked approvalRequestId id h := by
    rw [JsMap.get_set] at h
    split at h
    · next heq =>
      cases h
      exact ⟨record, Repository.getById_save_self _ _, heq⟩
    · obtain ⟨other, hother, hrequest⟩ := records.linked _ _ h
      refine ⟨other, (Repository.getById_save_ne _ fun heq => ?_).trans hother, hrequest⟩
      rw [heq, hother] at hnew
      cases hnew

def append (records : AuthorizationRecords) (record : HumanAuthorizationRecord) :
    Except AuthorizationFailure HumanAuthorizationRecord × AuthorizationRecords :=
  if hnew : records.byId.getById record.authorizationRecordId = none then
    if records.byApproval.has record.approvalRequestId then
      (.error (.authorization .authorizationAlreadyDecided
        s!"Authorization already recorded for request {record.approvalRequestId}"), records)
    else (.ok record, records.add record hnew)
  else
    (.error (.authorization .authorizationPersistenceFailed
      s!"Authorization record already exists: {record.authorizationRecordId}"), records)

variable {records records' records'' : AuthorizationRecords} {record : HumanAuthorizationRecord}

theorem request_of_getByApprovalRequest {approvalRequestId : String}
    (h : records.getByApprovalRequest approvalRequestId = some record) :
    record.approvalRequestId = approvalRequestId := by
  rw [getByApprovalRequest, Option.bind_eq_some_iff] at h
  obtain ⟨id, hid, hrecord⟩ := h
  obtain ⟨other, hother, hrequest⟩ := records.linked _ _ hid
  rw [hrecord, Option.some.injEq] at hother
  rw [hother]
  exact hrequest

theorem getByApprovalRequest_eq_none {approvalRequestId : String} :
    records.getByApprovalRequest approvalRequestId = none ↔
      records.byApproval.get approvalRequestId = none := by
  rw [getByApprovalRequest]
  cases h : records.byApproval.get approvalRequestId with
  | none => simp
  | some id =>
    obtain ⟨record, hrecord, -⟩ := records.linked _ _ h
    simp [hrecord]

/-- The record that was added is found under its request, and the others are as before. -/
theorem getByApprovalRequest_add
    (hnew : records.byId.getById record.authorizationRecordId = none) (approvalRequestId : String) :
    (records.add record hnew).getByApprovalRequest approvalRequestId =
      if record.approvalRequestId = approvalRequestId then some record
      else records.getByApprovalRequest approvalRequestId := by
  simp only [getByApprovalRequest, add, JsMap.get_set]
  split
  · rw [Option.bind_some, Repository.getById_save_self]
  · cases h : records.byApproval.get approvalRequestId with
    | none => rfl
    | some id =>
      obtain ⟨other, hother, -⟩ := records.linked _ _ h
      rw [Option.bind_some, Option.bind_some]
      refine Repository.getById_save_ne _ fun heq => ?_
      rw [heq, hother] at hnew
      cases hnew

/-- A record is added where its request has none, or nothing happens. -/
theorem append_cases (records : AuthorizationRecords) (record : HumanAuthorizationRecord) :
    (∃ hnew, records.getByApprovalRequest record.approvalRequestId = none ∧
      records.append record = (.ok record, records.add record hnew)) ∨
    ∃ e, records.append record = (.error e, records) := by
  unfold append
  split
  · next hnew =>
    split
    · exact .inr ⟨_, rfl⟩
    · next hhas =>
      refine .inl ⟨hnew, getByApprovalRequest_eq_none.mpr ?_, rfl⟩
      rw [JsMap.has, Bool.not_eq_true, Option.isSome_eq_false_iff, Option.isNone_iff_eq_none]
        at hhas
      exact hhas
  · exact .inr ⟨_, rfl⟩

end AuthorizationRecords

/-- Records are only added. -/
def RecordsGrow (records records' : AuthorizationRecords) : Prop :=
  ∀ id record, records.getByApprovalRequest id = some record →
    records'.getByApprovalRequest id = some record

theorem RecordsGrow.refl (records : AuthorizationRecords) : RecordsGrow records records :=
  fun _ _ h => h

theorem RecordsGrow.trans {records records' records'' : AuthorizationRecords}
    (h : RecordsGrow records records') (h' : RecordsGrow records' records'') :
    RecordsGrow records records'' :=
  fun id record hrecord => h' id record (h id record hrecord)

theorem recordsGrow_add {records : AuthorizationRecords} {record : HumanAuthorizationRecord}
    (hnew : records.byId.getById record.authorizationRecordId = none)
    (hundecided : records.getByApprovalRequest record.approvalRequestId = none) :
    RecordsGrow records (records.add record hnew) := by
  intro id other hother
  rw [AuthorizationRecords.getByApprovalRequest_add, if_neg]
  · exact hother
  · rintro rfl
    rw [hother] at hundecided
    cases hundecided

end Orchestrator
