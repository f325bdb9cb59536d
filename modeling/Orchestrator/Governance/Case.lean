import Orchestrator.Atomic.Exec
import Orchestrator.Governance.Issuance

/-!
# Governance cases

A case is opened over mandates, principals attest to it, and a quorum that is reached mints a
proof.

* `openGovernanceCase`: what the mandates of a case make of it;
* `CaseOp`, `governance`: the calls that `attest` makes, and what each does to the stores;
* `attest`, with `attestNew` for a vote that is not stored yet;
* `validContributions`: what stored attestations amount to at an instant.

Every call of a repository is one step. The resolution of authority reads several stores; no
attestation writes them, so it is one step too. Audit events are left out.
-/

namespace Orchestrator

open Atomic Collections

/-! ## Holds -/

/-- A string that may be empty, as an optional check takes it. -/
def given (s : String) : Option String := if s = "" then none else some s

/-- `assertNoActiveHold`, once the active holds of the project are read. -/
def assertNoneCovers (holds : List GovernanceHold) (environment authorityRole : String)
    (at_ : ℕ) : Except GovernanceFailure Unit :=
  match holds.find? fun h => holdCovers h (some environment) (given authorityRole) none at_ with
  | some hold =>
    .error (.governance .governanceHoldActive
      ("Active governance hold " ++ hold.holdId ++ ": " ++ hold.reason))
  | none => .ok ()

/-! ## Opening a case -/

/-- What `openGovernanceCase` is given. -/
structure CaseInput where
  subjectType : String
  subjectId : String
  subjectHash : String
  subjectVersion : Option ℕ
  requiredRole : String
  action : Option String
  projectIds : List String
  environmentScope : List String
  mandateIds : List String
  expiresAt : ℕ
  deriving DecidableEq, Repr

/-- `mintGovernanceCaseId`. -/
def mintGovernanceCaseId (X : GovernanceExternal) (input : CaseInput) (createdAt : ℕ) : String :=
  X.mint "gcase_" (.object [
    ("subjectId", .string input.subjectId),
    ("subjectType", .string input.subjectType),
    ("requiredRole", .string input.requiredRole),
    ("createdAt", .number createdAt)])

/-- The requirement of a case: that of the first mandate that has one. -/
def caseQuorum (mandates : List GovernanceMandate) : GovernanceQuorumRequirement :=
  (mandates.findSome? (·.quorumRequirement)).getD
    { kind := .anyOne
      k := none
      n := none
      roles := []
      rejectBlocksImmediately := true
      rejectThreshold := none }

/-- `withCaseHash`, before the schema. -/
def withCaseHash (X : GovernanceExternal) (c : GovernanceCase) : GovernanceCase :=
  { c with caseHash := computeCaseHash X c }

/-- The case that a request over these mandates becomes. -/
def newCase (X : GovernanceExternal) (now : ℕ) (input : CaseInput)
    (mandates : List GovernanceMandate) : GovernanceCase :=
  withCaseHash X
    { governanceCaseId := mintGovernanceCaseId X input now
      caseVersion := 1
      subjectType := input.subjectType
      subjectId := input.subjectId
      subjectVersion := input.subjectVersion
      subjectHash := input.subjectHash
      requiredRole := input.requiredRole
      action := input.action
      projectIds := input.projectIds
      environmentScope := input.environmentScope
      mandateIds := mandates.map (·.mandateId)
      mandateVersions := mandates.map (·.mandateVersion)
      mandateHashes := mandates.map (·.mandateHash)
      quorumRequirement := caseQuorum mandates
      separationRules := mandates.flatMap (·.separationOfDutyRules)
      status := .open_
      expiresAt := input.expiresAt
      caseHash := ""
      institutionalProofId := none
      createdAt := now
      recordRevision := 1 }

/-- The fields that `GovernanceCaseSchema` does not accept; those of the mandates passed their own
schemas. -/
def caseIssues (c : GovernanceCase) : List String :=
  minOne "subjectType" c.subjectType ++ minOne "subjectId" c.subjectId ++
  positiveOption "subjectVersion" c.subjectVersion ++
  minOne "subjectHash" c.subjectHash ++ minOne "requiredRole" c.requiredRole ++
  (if c.action = some "" then ["action"] else []) ++
  someTextItems "projectIds" c.projectIds ++
  someTextItems "environmentScope" c.environmentScope

/-- One bound mandate: stored and `ACTIVE`. -/
def requireActiveMandate (w : GovernanceWorld) (mandateId : String) :
    Except GovernanceFailure GovernanceMandate :=
  match w.mandates.getById mandateId with
  | none =>
    .error (.governance .governanceMandateNotFound s!"Mandate {mandateId} not found")
  | some m =>
    if m.status ≠ .active then
      .error (.governance .governanceMandateStateConflict s!"Mandate {mandateId} is not ACTIVE")
    else .ok m

/-- No hold covers any of the case's projects. -/
def assertProjectsOpen (w : GovernanceWorld) (input : CaseInput) (now : ℕ) :
    Except GovernanceFailure Unit :=
  input.projectIds.forM fun projectId =>
    assertNoneCovers (w.authority.listActiveByProject projectId)
      (input.environmentScope.headD "") input.requiredRole now

/-- The case of a request that is accepted. -/
def acceptCase (X : GovernanceExternal) (w : GovernanceWorld) (now : ℕ) (input : CaseInput) :
    Except GovernanceFailure GovernanceCase := do
  if input.mandateIds = [] then
    throw (.governance .governanceMandateInvalid
      "openGovernanceCase requires at least one mandate")
  let mandates ← input.mandateIds.mapM (requireActiveMandate w)
  assertProjectsOpen w input now
  parseRecord caseIssues (newCase X now input mandates)

/-- `openGovernanceCase`: one that throws writes nothing. -/
def openGovernanceCase (X : GovernanceExternal) (w : GovernanceWorld) (now : ℕ)
    (input : CaseInput) : Except GovernanceFailure GovernanceCase × GovernanceWorld :=
  match acceptCase X w now input with
  | .error e => (.error e, w)
  | .ok c => (.ok c, { w with cases := w.cases.save c })

/-! ## Calls -/

/-- The calls that `attest` makes on the clock and the repositories. -/
inductive CaseOp where
  | nowIso
  | getCase (governanceCaseId : String)
  | transitionCase (governanceCaseId : String) (fromStatus : GovernanceCaseState)
      (expectedRevision : ℕ) (toStatus : GovernanceCaseState)
      (institutionalProofId : Option String)
  | listActiveHolds (projectId : String)
  | resolveAuthority (q : AuthorityQuestion)
  | saveSnapshot (s : AuthoritySnapshot)
  | getAttestation (logicalKey : String)
  | listAttestations (governanceCaseId : String)
  | saveAttestation (a : GovernanceAttestation)
  | getProof (proofId : String)
  | getProofByCase (governanceCaseId : String)
  | saveProof (p : AuthorizationProof)
  deriving DecidableEq

/-- What a call answers with. -/
def CaseOp.Res : CaseOp → Type
  | .nowIso => ℕ
  | .getCase _ => Option GovernanceCase
  | .transitionCase .. => GovernanceCase
  | .listActiveHolds _ => List GovernanceHold
  | .resolveAuthority _ => AuthorityResolution
  | .saveSnapshot _ => AuthoritySnapshot
  | .getAttestation _ => Option GovernanceAttestation
  | .listAttestations _ => List GovernanceAttestation
  | .saveAttestation _ => GovernanceAttestation
  | .getProof _ => Option AuthorizationProof
  | .getProofByCase _ => Option AuthorizationProof
  | .saveProof _ => AuthorizationProof

abbrev CaseSig : Sig := Sig.throwing CaseOp CaseOp.Res GovernanceFailure

/-- The stores, and what the clock shows. -/
structure CaseWorld where
  stores : GovernanceWorld
  clock : ℕ

def caseRevised : Revised GovernanceCase where
  entity := "GovernanceCase"
  id := GovernanceCase.governanceCaseId
  status c := c.status.text
  revision := GovernanceCase.recordRevision

/-- A case in another status, with the patch of its proof. -/
def movedCase (status : GovernanceCaseState) (institutionalProofId : Option String)
    (c : GovernanceCase) : GovernanceCase :=
  { c with
    status := status
    institutionalProofId := institutionalProofId <|> c.institutionalProofId
    recordRevision := c.recordRevision + 1 }

/-- `cases.transition`. -/
def GovernanceWorld.transitionCase (w : GovernanceWorld) (governanceCaseId : String)
    (fromStatus : GovernanceCaseState) (expectedRevision : ℕ) (toStatus : GovernanceCaseState)
    (institutionalProofId : Option String) :
    Except GovernanceFailure GovernanceCase × GovernanceWorld :=
  let (r, cases) := casTransition caseRevised
    (.governance .governanceCaseNotFound s!"Governance case {governanceCaseId} not found") w.cases
    governanceCaseId fromStatus.text expectedRevision (movedCase toStatus institutionalProofId)
  (r, { w with cases := cases })

/-- What each call does to the stores. -/
def governance (X : GovernanceExternal) : Handler CaseSig CaseWorld
  | .nowIso, w => (.ok w.clock, w)
  | .getCase id, w => (.ok (w.stores.cases.getById id), w)
  | .transitionCase id fromStatus revision toStatus proofId, w =>
    ((w.stores.transitionCase id fromStatus revision toStatus proofId).1,
      { w with stores := (w.stores.transitionCase id fromStatus revision toStatus proofId).2 })
  | .listActiveHolds projectId, w => (.ok (w.stores.authority.listActiveByProject projectId), w)
  | .resolveAuthority q, w => (.ok (w.stores.authority.resolveAuthority X q), w)
  | .saveSnapshot s, w =>
    (.ok s, { w with stores := { w.stores with snapshots := w.stores.snapshots.save s } })
  | .getAttestation key, w => (.ok (w.stores.attestations.getByLogicalKey key), w)
  | .listAttestations id, w => (.ok (w.stores.attestations.listByCase id), w)
  | .saveAttestation a, w =>
    (.ok a, { w with stores := { w.stores with attestations := w.stores.attestations.save a } })
  | .getProof id, w => (.ok (w.stores.proofs.byId.getById id), w)
  | .getProofByCase id, w => (.ok (w.stores.proofs.getByCase id), w)
  | .saveProof p, w =>
    (.ok p, { w with stores := { w.stores with proofs := w.stores.proofs.save p } })

namespace GovernanceService

abbrev Call (α : Type) := Async CaseSig GovernanceFailure α

/-- One call. -/
def call (o : CaseOp) : Call o.Res := Async.await o

/-! ## The checks of an attestation -/

/-- What `attest` is given. -/
structure AttestInput where
  governanceCaseId : String
  principalId : String
  authorityRole : String
  decision : AttestationDecision
  nonce : String
  nonceHash : Option String
  subjectHash : Option String
  deriving DecidableEq, Repr

/-- `requireCase`. -/
def requireCase (governanceCaseId : String) : Call GovernanceCase := do
  let found ← call (.getCase governanceCaseId)
  match (found : Option GovernanceCase) with
  | none =>
    throw (.governance .governanceCaseNotFound s!"Governance case {governanceCaseId} not found")
  | some c => pure c

/-- A case that takes attestations: neither expired nor decided. -/
def assertAttestable (c : GovernanceCase) (now : ℕ) : Except GovernanceFailure Unit :=
  if c.status = .expired ∨ c.expiresAt < now then
    .error (.governance .governanceCaseExpired s!"Governance case {c.governanceCaseId} expired")
  else if c.status = .satisfied ∨ c.status = .blocked ∨ c.status = .cancelled ∨
      c.status = .stale then
    .error (.governance .governanceCaseStateConflict
      ("Governance case " ++ c.governanceCaseId ++ " is " ++ c.status.text))
  else .ok ()

/-- The seats that a case takes attestations from. -/
def allowedRoles (c : GovernanceCase) : List String := c.requiredRole :: c.quorumRequirement.roles

/-- The attestation is for this case, from one of its seats. -/
def assertContribution (nonceHash : String → String) (input : AttestInput) (c : GovernanceCase) :
    Except GovernanceFailure Unit :=
  if input.nonceHash.any fun h => h ≠ nonceHash input.nonce then
    .error (.governance .governanceAttestationInvalid "nonceHash does not match nonce")
  else if input.subjectHash.any fun h => h ≠ c.subjectHash then
    .error (.governance .governanceCrossCaseAttestation
      "Attestation subjectHash does not match case")
  else if !(allowedRoles c).contains input.authorityRole then
    .error (.governance .approvalLaundering
      ("Authority role " ++ input.authorityRole ++ " is not a required seat for this case"))
  else .ok ()

/-- The case's first project, under which authority is resolved. -/
def caseProject (c : GovernanceCase) : String := c.projectIds.headD ""

/-- The case's first environment. -/
def caseEnvironment (c : GovernanceCase) : String := c.environmentScope.headD ""

/-- `assertNoActiveHold`, for the case's project and environment. -/
def assertNoActiveHold (c : GovernanceCase) (authorityRole : String) (now : ℕ) : Call Unit := do
  let holds ← call (.listActiveHolds (caseProject c))
  Async.ofExcept (assertNoneCovers holds (caseEnvironment c) authorityRole now)

/-- The question whether a principal may act in a role on the case. -/
def caseQuestion (c : GovernanceCase) (principalId authorityRole : String)
    (action : Option String) (at_ : ℕ) : AuthorityQuestion where
  principalId := principalId
  requiredRole := authorityRole
  projectId := caseProject c
  environment := caseEnvironment c
  action := action
  atIso := at_

/-- The principal may act in the role now, for the case's action. -/
def requireAuthority (c : GovernanceCase) (input : AttestInput) (now : ℕ) :
    Call AuthorityResolution := do
  let resolution ← call (.resolveAuthority
    (caseQuestion c input.principalId input.authorityRole c.action now))
  if resolution.outcome ≠ .authorized then
    throw (.governance .authorityDenied
      ("Principal " ++ input.principalId ++ " lacks " ++ input.authorityRole))
  else pure resolution

/-! ## A vote that is stored already -/

/-- What `attest` returns. -/
structure AttestResult where
  attestation : GovernanceAttestation
  governanceCase : GovernanceCase
  proof : Option AuthorizationProof
  quorumOutcome : QuorumOutcome
  deriving DecidableEq, Repr

/-- The outcome that a case's status stands for. -/
def outcomeOf (c : GovernanceCase) : QuorumOutcome :=
  if c.status = .satisfied then .satisfied
  else if c.status = .blocked then .blocked
  else .pending

/-- The answer to a principal whose vote under this role is stored already. -/
def attestExisting (input : AttestInput) (existing : GovernanceAttestation) :
    Call AttestResult := do
  if existing.decision ≠ input.decision then
    throw (.governance .governanceAttestationReplay
      "Conflicting attestation decision for same logical key")
  let currentCase ← requireCase input.governanceCaseId
  match currentCase.institutionalProofId with
  | none => pure ⟨existing, currentCase, none, outcomeOf currentCase⟩
  | some proofId =>
    let proof ← call (.getProof proofId)
    pure ⟨existing, currentCase, proof, outcomeOf currentCase⟩

/-! ## A new vote -/

/-- The fields that `InstitutionalAuthoritySnapshotSchema` does not accept. -/
def snapshotIssues (s : AuthoritySnapshot) : List String :=
  minOne "principalId" s.principalId ++ minOne "role" s.role ++
  minOne "projectId" s.projectId ++ minOne "environment" s.environment

/-- `createAuthoritySnapshot`. -/
def createAuthoritySnapshot (X : GovernanceExternal) (resolution : AuthorityResolution) :
    Call AuthoritySnapshot := do
  let snapshot ← Async.ofExcept
    (parseRecord snapshotIssues (buildAuthoritySnapshot X resolution))
  call (.saveSnapshot snapshot)

/-- One principal for each role: the last to approve under it. -/
def occupy (roleOccupancy : JsMap String String) (a : GovernanceAttestation) :
    JsMap String String :=
  if a.decision = .approve then roleOccupancy.set a.authorityRole a.principalId
  else roleOccupancy

/-- The map that the separation of duties is checked on. -/
def roleOccupancy (prior : List GovernanceAttestation) (input : AttestInput) :
    JsMap String String :=
  let occupied := prior.foldl occupy .empty
  if input.decision = .approve then occupied.set input.authorityRole input.principalId
  else occupied

/-- `withAttestationHash`. -/
def withAttestationHash (X : GovernanceExternal) (a : GovernanceAttestation) :
    GovernanceAttestation :=
  { a with attestationHash := computeAttestationHash X a }

/-- The attestation that a vote becomes. -/
def newAttestation (X : GovernanceExternal) (nonceHash : String → String) (input : AttestInput)
    (snapshot : AuthoritySnapshot) (now : ℕ) : GovernanceAttestation :=
  withAttestationHash X
    { attestationId :=
        mintAttestationId X input.governanceCaseId input.principalId input.authorityRole
      governanceCaseId := input.governanceCaseId
      principalId := input.principalId
      authorityRole := input.authorityRole
      authoritySnapshotId := snapshot.authoritySnapshotId
      authoritySnapshotHash := snapshot.snapshotHash
      decision := input.decision
      nonceHash := nonceHash input.nonce
      submittedAt := now
      attestationHash := "" }

/-- The contribution of an attestation to the quorum. -/
def contribution (a : GovernanceAttestation) : QuorumSeatContribution where
  principalId := a.principalId
  authorityRole := a.authorityRole
  decision := a.decision
  attestationId := a.attestationId

/-- `collectValidContributions`: those whose principals are authorized now, for any action. -/
def collectValidContributions (c : GovernanceCase) (at_ : ℕ) :
    List GovernanceAttestation → Call (List QuorumSeatContribution)
  | [] => pure []
  | a :: attestations => do
    let resolution ← call (.resolveAuthority
      (caseQuestion c a.principalId a.authorityRole none at_))
    let out ← collectValidContributions c at_ attestations
    pure (if resolution.outcome ≠ .authorized then out else contribution a :: out)

/-- The proof of a case, on the attestations that approve. -/
def newProof (X : GovernanceExternal) (c : GovernanceCase)
    (approving : List GovernanceAttestation) (now : ℕ) : AuthorizationProof where
  institutionalAuthorizationProofId := mintProofId X c.caseHash
  governanceCaseId := c.governanceCaseId
  governanceCaseHash := c.caseHash
  subjectType := c.subjectType
  subjectId := c.subjectId
  subjectVersion := c.subjectVersion
  subjectHash := c.subjectHash
  mandateIds := c.mandateIds
  mandateHashes := c.mandateHashes
  attestationIds := approving.map (·.attestationId)
  attestationHashes := approving.map (·.attestationHash)
  authoritySnapshotIds := approving.map (·.authoritySnapshotId)
  authoritySnapshotHashes := approving.map (·.authoritySnapshotHash)
  projectScope := c.projectIds
  environmentScope := c.environmentScope
  separationOfDutyProof := c.separationRules.map (·.ruleId)
  createdAt := now
  expiresAt := c.expiresAt
  status := .active

/-- The attestations that approve and count. -/
def approvingAttestations (attestations : List GovernanceAttestation)
    (contributions : List QuorumSeatContribution) : List GovernanceAttestation :=
  attestations.filter fun a => a.decision = .approve &&
    contributions.any fun c => c.decision = .approve && c.attestationId = a.attestationId

/-- `ensureProofForCase`. -/
def ensureProofForCase (X : GovernanceExternal) (c : GovernanceCase)
    (attestations : List GovernanceAttestation) (now : ℕ) : Call AuthorizationProof := do
  let existing ← call (.getProofByCase c.governanceCaseId)
  match (existing : Option AuthorizationProof) with
  | some proof => pure proof
  | none =>
    assertNoActiveHold c c.requiredRole now
    let contributions ← collectValidContributions c now attestations
    if (evaluateGovernanceQuorum c.quorumRequirement contributions).outcome ≠ .satisfied then
      throw (.governance .governanceQuorumPending
        "Quorum no longer satisfied at proof creation — authority or hold drift")
    call (.saveProof (newProof X c (approvingAttestations attestations contributions) now))

/-- The case is moved from the status and the revision that it was read with. -/
def transition (c : GovernanceCase) (toStatus : GovernanceCaseState)
    (institutionalProofId : Option String) : Call GovernanceCase :=
  call (.transitionCase c.governanceCaseId c.status c.recordRevision toStatus
    institutionalProofId)

/-- The case once its quorum is evaluated, and its proof. -/
def settle (X : GovernanceExternal) (c : GovernanceCase)
    (attestations : List GovernanceAttestation) (now : ℕ) :
    QuorumOutcome → Call (GovernanceCase × Option AuthorizationProof)
  | .blocked => do
    let c ← transition c .blocked none
    pure (c, none)
  | .satisfied => do
    let proof ← ensureProofForCase X c attestations now
    let c ← transition c .satisfied (some proof.institutionalAuthorizationProofId)
    pure (c, some proof)
  | .pending => pure (c, none)

/-- The case that a vote was stored for: collecting, if it was open. -/
def beginCollecting (c : GovernanceCase) : Call GovernanceCase :=
  if c.status = .open_ then transition c .collecting none else pure c

/-- The quorum of the attestations that are stored now. -/
def evaluateCase (X : GovernanceExternal) (governanceCaseId : String)
    (savedAttestation : GovernanceAttestation) (c : GovernanceCase) (now : ℕ) :
    Call AttestResult := do
  let allAttestations ← call (.listAttestations governanceCaseId)
  let contributions ← collectValidContributions c now allAttestations
  let quorum := evaluateGovernanceQuorum c.quorumRequirement contributions
  let (c, proof) ← settle X c allAttestations now quorum.outcome
  pure ⟨savedAttestation, c, proof, quorum.outcome⟩

/-- `attest`, for a vote that is not stored yet. -/
def attestNew (X : GovernanceExternal) (nonceHash : String → String) (input : AttestInput)
    (c : GovernanceCase) (resolution : AuthorityResolution) (now : ℕ) : Call AttestResult := do
  let snapshot ← createAuthoritySnapshot X resolution
  let prior ← call (.listAttestations input.governanceCaseId)
  Async.ofExcept (assertSeparationOfDuties c.separationRules (roleOccupancy prior input))
  let savedAttestation ←
    call (.saveAttestation (newAttestation X nonceHash input snapshot now))
  let workingCase ← beginCollecting c
  evaluateCase X input.governanceCaseId savedAttestation workingCase now

/-- `attest`. -/
def attest (X : GovernanceExternal) (nonceHash : String → String) (input : AttestInput) :
    Call AttestResult := do
  let now ← call .nowIso
  let c ← requireCase input.governanceCaseId
  Async.ofExcept (assertAttestable c now)
  Async.ofExcept (assertContribution nonceHash input c)
  assertNoActiveHold c input.authorityRole now
  let resolution ← requireAuthority c input now
  let existing ← call (.getAttestation
    (attestationLogicalKey input.governanceCaseId input.principalId input.authorityRole))
  match (existing : Option GovernanceAttestation) with
  | some existing => attestExisting input existing
  | none => attestNew X nonceHash input c resolution now

end GovernanceService

end Orchestrator
