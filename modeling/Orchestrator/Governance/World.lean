import Orchestrator.Governance.Quorum
import Orchestrator.Governance.Resolution
import Orchestrator.Domain.Schema

/-!
# The governance stores

Mandates, cases, attestations, authority snapshots and proofs, beside the stores that authority
rests on.

* `GovernanceMandate`, `GovernanceCase`, `GovernanceAttestation`, `AuthoritySnapshot`,
  `AuthorizationProof`: the records, with the hashes that bind them;
* `assertCasTransition`, the check of every status change;
* `AttestationStore`, `ProofStore`: records with a second way in;
* `GovernanceWorld`, all the stores.
-/

namespace Orchestrator

open Collections

/-! ## Schemas -/

/-- A record that its schema accepts, or the fields it does not. -/
def parseRecord {α : Type} (issues : α → List String) (a : α) : Except GovernanceFailure α :=
  if issues a = [] then .ok a else .error (.invalid (issues a))

theorem parseRecord_ok {α : Type} {issues : α → List String} {a b : α}
    (h : parseRecord issues a = .ok b) : b = a ∧ issues a = [] := by
  unfold parseRecord at h
  split_ifs at h with hissues
  cases h
  exact ⟨rfl, hissues⟩

/-! ## JSON -/

/-- The fields of a requirement, in the order of its schema. -/
def GovernanceQuorumRequirement.fields (req : GovernanceQuorumRequirement) :
    List (String × Json) :=
  [("kind", .string req.kind.text)] ++
  Json.present "k" .number req.k ++
  Json.present "n" .number req.n ++
  [("roles", jsonStrings req.roles),
    ("rejectBlocksImmediately", Json.ofText req.rejectBlocksImmediately)] ++
  Json.present "rejectThreshold" .number req.rejectThreshold

def GovernanceQuorumRequirement.json (req : GovernanceQuorumRequirement) : Json :=
  .object req.fields

/-- The fields of a rule, in the order of its schema. -/
def SeparationOfDutyRule.fields (rule : SeparationOfDutyRule) : List (String × Json) :=
  [("ruleId", .string rule.ruleId),
    ("kind", .string "FORBID_SAME_PRINCIPAL"),
    ("roleA", .string rule.roleA),
    ("roleB", .string rule.roleB),
    ("notes", .string rule.notes)]

def SeparationOfDutyRule.json (rule : SeparationOfDutyRule) : Json := .object rule.fields

/-- A resource envelope or scope, entry by entry. -/
def resourceJson (entries : List (String × ℚ)) : Json :=
  .object (entries.map fun e => (e.1, Json.ofText e.2))

/-! ## Mandates -/

/-- `MANDATE_STATES`. -/
inductive MandateState where
  | draft
  | active
  | suspended
  | superseded
  | revoked
  deriving DecidableEq, Repr

/-- The state's name in the source. -/
def MandateState.text : MandateState → String
  | .draft => "DRAFT"
  | .active => "ACTIVE"
  | .suspended => "SUSPENDED"
  | .superseded => "SUPERSEDED"
  | .revoked => "REVOKED"

/-- A `GovernanceDelegationPolicy`. -/
structure GovernanceDelegationPolicy where
  allowDelegation : Bool
  maximumDelegationDepth : ℕ
  redelegationForbidden : Bool
  deriving DecidableEq, Repr

/-- The fields of a policy, in the order of its schema. -/
def GovernanceDelegationPolicy.fields (policy : GovernanceDelegationPolicy) :
    List (String × Json) :=
  [("allowDelegation", Json.ofText policy.allowDelegation),
    ("maximumDelegationDepth", .number policy.maximumDelegationDepth),
    ("redelegationForbidden", Json.ofText policy.redelegationForbidden)]

/-- A `GovernanceMandate`. -/
structure GovernanceMandate where
  mandateId : String
  mandateVersion : ℕ
  institutionId : String
  subjectClasses : List String
  requiredAuthorities : List String
  projectScope : List String
  environmentScope : List String
  quorumRequirement : Option GovernanceQuorumRequirement
  separationOfDutyRules : List SeparationOfDutyRule
  delegationPolicy : GovernanceDelegationPolicy
  maximumAuthorityDurationMs : Option ℕ
  maximumDelegationDepth : Option ℕ
  riskScope : List String
  resourceScope : List (String × ℚ)
  effectiveFrom : ℕ
  effectiveUntil : Option ℕ
  status : MandateState
  mandateHash : String
  createdBy : String
  createdAt : ℕ
  recordRevision : ℕ
  deriving DecidableEq, Repr

/-- The objects inside a mandate, which are hashed as they are. -/
structure MandateObjects where
  quorumRequirement : Option Json
  separationOfDutyRules : List Json
  delegationPolicy : Json
  resourceScope : Json

/-- The objects of a mandate that its schema has parsed. -/
def GovernanceMandate.objects (m : GovernanceMandate) : MandateObjects where
  quorumRequirement := m.quorumRequirement.map (·.json)
  separationOfDutyRules := m.separationOfDutyRules.map (·.json)
  delegationPolicy := .object m.delegationPolicy.fields
  resourceScope := resourceJson m.resourceScope

/-- What `computeMandateHash` digests: a mandate with these objects inside it. -/
def mandateDigest (X : GovernanceExternal) (m : GovernanceMandate) (o : MandateObjects) : String :=
  X.sha256 (Json.object [
    ("mandateId", .string m.mandateId),
    ("mandateVersion", .number m.mandateVersion),
    ("institutionId", .string m.institutionId),
    ("subjectClasses", sortedIds m.subjectClasses),
    ("requiredAuthorities", sortedIds m.requiredAuthorities),
    ("projectScope", sortedIds m.projectScope),
    ("environmentScope", sortedIds m.environmentScope),
    ("quorumRequirement", Json.orNull id o.quorumRequirement),
    ("separationOfDutyRules", .array o.separationOfDutyRules),
    ("delegationPolicy", o.delegationPolicy),
    ("maximumAuthorityDurationMs", Json.orNull .number m.maximumAuthorityDurationMs),
    ("maximumDelegationDepth", Json.orNull .number m.maximumDelegationDepth),
    ("riskScope", sortedIds m.riskScope),
    ("resourceScope", o.resourceScope),
    ("effectiveFrom", .number m.effectiveFrom),
    ("effectiveUntil", Json.orNull .number m.effectiveUntil),
    ("status", .string m.status.text),
    ("createdBy", .string m.createdBy),
    ("createdAt", .number m.createdAt)]).stringify

/-- `computeMandateHash`, of a mandate that its schema has parsed. -/
def computeMandateHash (X : GovernanceExternal) (m : GovernanceMandate) : String :=
  mandateDigest X m m.objects

/-! ## Cases -/

/-- `GOVERNANCE_CASE_STATES`. -/
inductive GovernanceCaseState where
  | open_
  | collecting
  | satisfied
  | blocked
  | expired
  | cancelled
  | stale
  deriving DecidableEq, Repr

/-- The state's name in the source. -/
def GovernanceCaseState.text : GovernanceCaseState → String
  | .open_ => "OPEN"
  | .collecting => "COLLECTING"
  | .satisfied => "SATISFIED"
  | .blocked => "BLOCKED"
  | .expired => "EXPIRED"
  | .cancelled => "CANCELLED"
  | .stale => "STALE"

/-- A `GovernanceCase`. -/
structure GovernanceCase where
  governanceCaseId : String
  caseVersion : ℕ
  subjectType : String
  subjectId : String
  subjectVersion : Option ℕ
  subjectHash : String
  requiredRole : String
  action : Option String
  projectIds : List String
  environmentScope : List String
  mandateIds : List String
  mandateVersions : List ℕ
  mandateHashes : List String
  quorumRequirement : GovernanceQuorumRequirement
  separationRules : List SeparationOfDutyRule
  status : GovernanceCaseState
  expiresAt : ℕ
  caseHash : String
  institutionalProofId : Option String
  createdAt : ℕ
  recordRevision : ℕ
  deriving DecidableEq, Repr

/-- `computeCaseHash`. -/
def computeCaseHash (X : GovernanceExternal) (c : GovernanceCase) : String :=
  X.sha256 (Json.object [
    ("governanceCaseId", .string c.governanceCaseId),
    ("caseVersion", .number c.caseVersion),
    ("subjectType", .string c.subjectType),
    ("subjectId", .string c.subjectId),
    ("subjectVersion", Json.orNull .number c.subjectVersion),
    ("subjectHash", .string c.subjectHash),
    ("requiredRole", .string c.requiredRole),
    ("action", Json.orNull .string c.action),
    ("projectIds", sortedIds c.projectIds),
    ("environmentScope", sortedIds c.environmentScope),
    ("mandateIds", sortedIds c.mandateIds),
    ("mandateVersions", .array (c.mandateVersions.map .number)),
    ("mandateHashes", sortedIds c.mandateHashes),
    ("quorumRequirement", c.quorumRequirement.json),
    ("separationRules", .array (c.separationRules.map (·.json))),
    ("expiresAt", .number c.expiresAt),
    ("createdAt", .number c.createdAt)]).stringify

/-! ## Attestations -/

/-- A `GovernanceAttestation`. -/
structure GovernanceAttestation where
  attestationId : String
  governanceCaseId : String
  principalId : String
  authorityRole : String
  authoritySnapshotId : String
  authoritySnapshotHash : String
  decision : AttestationDecision
  nonceHash : String
  submittedAt : ℕ
  attestationHash : String
  deriving DecidableEq, Repr

/-- `computeAttestationHash`. -/
def computeAttestationHash (X : GovernanceExternal) (a : GovernanceAttestation) : String :=
  X.sha256 (Json.object [
    ("attestationId", .string a.attestationId),
    ("governanceCaseId", .string a.governanceCaseId),
    ("principalId", .string a.principalId),
    ("authorityRole", .string a.authorityRole),
    ("authoritySnapshotId", .string a.authoritySnapshotId),
    ("authoritySnapshotHash", .string a.authoritySnapshotHash),
    ("decision", .string a.decision.text),
    ("nonceHash", .string a.nonceHash),
    ("submittedAt", .number a.submittedAt)]).stringify

/-- `mintAttestationId`. -/
def mintAttestationId (X : GovernanceExternal)
    (governanceCaseId principalId authorityRole : String) : String :=
  X.mint "gatt_" (.object [
    ("governanceCaseId", .string governanceCaseId),
    ("principalId", .string principalId),
    ("authorityRole", .string authorityRole)])

/-- `attestationLogicalKey`. -/
def attestationLogicalKey (governanceCaseId principalId authorityRole : String) : String :=
  s!"{governanceCaseId}:{principalId}:{authorityRole}"

/-- The key of a stored attestation. -/
def GovernanceAttestation.logicalKey (a : GovernanceAttestation) : String :=
  attestationLogicalKey a.governanceCaseId a.principalId a.authorityRole

/-- The attestations, and the latest under each logical key. -/
structure AttestationStore where
  byId : Repository GovernanceAttestation.attestationId
  byLogicalKey : JsMap String String

namespace AttestationStore

def empty : AttestationStore := ⟨.empty, .empty⟩

def save (s : AttestationStore) (a : GovernanceAttestation) : AttestationStore where
  byId := s.byId.save a
  byLogicalKey := s.byLogicalKey.set a.logicalKey a.attestationId

def getByLogicalKey (s : AttestationStore) (logicalKey : String) : Option GovernanceAttestation :=
  (s.byLogicalKey.get logicalKey).bind s.byId.getById

def listByCase (s : AttestationStore) (governanceCaseId : String) : List GovernanceAttestation :=
  s.byId.list.filter fun a => a.governanceCaseId = governanceCaseId

end AttestationStore

/-! ## Authority snapshots -/

/-- An `InstitutionalAuthoritySnapshot`; its lists of mandates, revocations and holds are always
empty, and both of its fingerprints are `fingerprint`. -/
structure AuthoritySnapshot where
  authoritySnapshotId : String
  principalId : String
  role : String
  projectId : String
  environment : String
  directGrantIds : List String
  delegationChain : List String
  resolvedProjectIds : List String
  resolvedEnvironments : List String
  fingerprint : String
  snapshotHash : String
  deriving DecidableEq, Repr

/-- `computeSnapshotHash`. -/
def computeSnapshotHash (X : GovernanceExternal) (s : AuthoritySnapshot) : String :=
  X.sha256 (Json.object [
    ("principalId", .string s.principalId),
    ("role", .string s.role),
    ("projectId", .string s.projectId),
    ("environment", .string s.environment),
    ("directGrantIds", jsonStrings s.directGrantIds),
    ("delegationChain", jsonStrings s.delegationChain),
    ("mandateIds", .array []),
    ("mandateHashes", .array []),
    ("revocationIds", .array []),
    ("holdIds", .array []),
    ("resolvedScope", .object [
      ("projectIds", jsonStrings s.resolvedProjectIds),
      ("environments", jsonStrings s.resolvedEnvironments)]),
    ("sourceAuthorityFingerprint", .string s.fingerprint),
    ("institutionalAuthorityFingerprint", .string s.fingerprint)]).stringify

/-- `buildAuthoritySnapshot`, of what `createAuthoritySnapshot` makes of a resolution. -/
def buildAuthoritySnapshot (X : GovernanceExternal) (r : AuthorityResolution) :
    AuthoritySnapshot :=
  let payload : AuthoritySnapshot :=
    { authoritySnapshotId := ""
      principalId := r.principalId
      role := r.requiredRole
      projectId := r.projectId
      environment := r.environment
      directGrantIds := r.directGrantIds
      delegationChain := r.delegationChain
      resolvedProjectIds := r.scope.projectIds
      resolvedEnvironments := r.scope.environments
      fingerprint := r.fingerprint
      snapshotHash := "" }
  let snapshotHash := computeSnapshotHash X payload
  { payload with
    authoritySnapshotId := "ias_" ++ X.slice24 snapshotHash
    snapshotHash := snapshotHash }

/-! ## Proofs -/

inductive ProofStatus where
  | active
  | stale
  | revoked
  deriving DecidableEq, Repr

/-- The status's name in the source. -/
def ProofStatus.text : ProofStatus → String
  | .active => "ACTIVE"
  | .stale => "STALE"
  | .revoked => "REVOKED"

/-- An `InstitutionalAuthorizationProof`. -/
structure AuthorizationProof where
  institutionalAuthorizationProofId : String
  governanceCaseId : String
  governanceCaseHash : String
  subjectType : String
  subjectId : String
  subjectVersion : Option ℕ
  subjectHash : String
  mandateIds : List String
  mandateHashes : List String
  attestationIds : List String
  attestationHashes : List String
  authoritySnapshotIds : List String
  authoritySnapshotHashes : List String
  projectScope : List String
  environmentScope : List String
  separationOfDutyProof : List String
  createdAt : ℕ
  expiresAt : ℕ
  status : ProofStatus
  deriving DecidableEq, Repr

/-- `mintProofId`. -/
def mintProofId (X : GovernanceExternal) (caseHash : String) : String :=
  "iap_" ++ X.slice24 caseHash

/-- The proofs, and the latest of each case. -/
structure ProofStore where
  byId : Repository AuthorizationProof.institutionalAuthorizationProofId
  byCase : JsMap String String

namespace ProofStore

def empty : ProofStore := ⟨.empty, .empty⟩

def save (s : ProofStore) (p : AuthorizationProof) : ProofStore where
  byId := s.byId.save p
  byCase := s.byCase.set p.governanceCaseId p.institutionalAuthorizationProofId

def getByCase (s : ProofStore) (governanceCaseId : String) : Option AuthorizationProof :=
  (s.byCase.get governanceCaseId).bind s.byId.getById

/-- `markStale`. -/
def markStale (s : ProofStore) (proofId : String) :
    Except GovernanceFailure AuthorizationProof × ProofStore :=
  match s.byId.getById proofId with
  | none => (.error (.governance .governanceProofNotFound s!"Proof {proofId} not found"), s)
  | some existing =>
    (.ok { existing with status := .stale },
      { s with byId := s.byId.save { existing with status := .stale } })

end ProofStore

/-! ## Status changes -/

/-- `assertCasTransition`, on the statuses' names. -/
def assertCasTransition (entity id existingStatus fromStatus : String)
    (existingRevision expectedRevision : ℕ) : Except GovernanceFailure Unit :=
  if existingStatus ≠ fromStatus then
    .error (.governance .governanceCasConflict
      s!"{entity} {id} status mismatch (expected {fromStatus}, have {existingStatus})")
  else if existingRevision ≠ expectedRevision then
    .error (.governance .governanceVersionConflict
      s!"{entity} {id} revision mismatch (expected {expectedRevision}, have {existingRevision})")
  else .ok ()

/-- The status's name in the source. -/
def DelegationState.text : DelegationState → String
  | .proposed => "PROPOSED"
  | .active => "ACTIVE"
  | .suspended => "SUSPENDED"
  | .expired => "EXPIRED"
  | .revoked => "REVOKED"
  | .superseded => "SUPERSEDED"

/-- The status's name in the source. -/
def HoldState.text : HoldState → String
  | .active => "ACTIVE"
  | .released => "RELEASED"
  | .expired => "EXPIRED"

/-- A record with a status and a revision that only a CAS transition moves. -/
structure Revised (α : Type) where
  entity : String
  id : α → String
  status : α → String
  revision : α → ℕ

/-- `transition` of an in-memory repository: the record `moved` in place of the one under `id`. -/
def casTransition {α : Type} (R : Revised α) (notFound : GovernanceFailure)
    (r : Repository R.id) (id fromStatus : String) (expectedRevision : ℕ) (moved : α → α) :
    Except GovernanceFailure α × Repository R.id :=
  match r.getById id with
  | none => (.error notFound, r)
  | some existing =>
    match assertCasTransition R.entity id (R.status existing) fromStatus (R.revision existing)
        expectedRevision with
    | .error e => (.error e, r)
    | .ok () => (.ok (moved existing), r.save (moved existing))

/-- A transition that succeeds found the record as expected, and saves it as moved. -/
theorem casTransition_ok {α : Type} {R : Revised α} {notFound : GovernanceFailure}
    {r r' : Repository R.id} {id fromStatus : String} {expectedRevision : ℕ} {moved : α → α} {a : α}
    (h : casTransition R notFound r id fromStatus expectedRevision moved = (.ok a, r')) :
    ∃ existing, r.getById id = some existing ∧ R.status existing = fromStatus ∧
      R.revision existing = expectedRevision ∧ a = moved existing ∧
      r' = r.save (moved existing) := by
  unfold casTransition at h
  split at h
  · cases h
  · next existing hget =>
    split at h
    · cases h
    · next hcas =>
      cases h
      unfold assertCasTransition at hcas
      split_ifs at hcas with hstatus hrevision
      exact ⟨existing, hget, not_not.mp hstatus, not_not.mp hrevision, rfl, rfl⟩

/-- A transition that fails writes nothing. -/
theorem casTransition_error {α : Type} {R : Revised α} {notFound e : GovernanceFailure}
    {r r' : Repository R.id} {id fromStatus : String} {expectedRevision : ℕ} {moved : α → α}
    (h : casTransition R notFound r id fromStatus expectedRevision moved = (.error e, r')) :
    r' = r := by
  unfold casTransition at h
  split at h
  · cases h; rfl
  · split at h
    · cases h; rfl
    · cases h

/-! ## The world -/

/-- A direct grant record; revoking one only marks it. -/
structure DirectAuthorityGrant where
  grantId : String
  revoked : Bool
  deriving DecidableEq, Repr

/-- The governance stores. -/
structure GovernanceWorld where
  authority : AuthorityStores
  mandates : Repository GovernanceMandate.mandateId
  directGrants : Repository DirectAuthorityGrant.grantId
  cases : Repository GovernanceCase.governanceCaseId
  attestations : AttestationStore
  snapshots : Repository AuthoritySnapshot.authoritySnapshotId
  proofs : ProofStore

namespace GovernanceWorld

def empty : GovernanceWorld where
  authority := .empty
  mandates := .empty
  directGrants := .empty
  cases := .empty
  attestations := .empty
  snapshots := .empty
  proofs := .empty

/-- The same stores, with other authority stores. -/
def setAuthority (w : GovernanceWorld) (authority : AuthorityStores) : GovernanceWorld :=
  { w with authority := authority }

@[simp] theorem authority_setAuthority (w : GovernanceWorld) (authority : AuthorityStores) :
    (w.setAuthority authority).authority = authority := rfl

end GovernanceWorld

end Orchestrator
