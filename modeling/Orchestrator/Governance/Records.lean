import Orchestrator.Collections.Repository
import Orchestrator.Collections.Json
import Mathlib.Data.Rat.Defs

/-!
# Governance records

The records of institutional governance that authority rests on, and the in-memory stores that
keep them.

* `CanonicalAuthorityGrant`, `AuthorityDelegation`, `AuthorityRevocation`, `GovernanceHold`: the
  records;
* `GovernanceStores`, the stores, with `listByPrincipal`, `listByDelegate`, `listByTarget`, ...;
* `GovernanceError`, what governance code throws.

An instant is a number of milliseconds, in the records and in the text that is hashed.
-/

namespace Orchestrator

open Collections

/-! ## Errors -/

/-- The `GovernanceErrorCode`s that authority, delegation, mandates, holds and cases use. -/
inductive GovernanceErrorCode where
  | governanceMandateNotFound
  | governanceMandateStateConflict
  | governanceMandateInvalid
  | governanceAdminScopeInsufficient
  | governanceSelfEscalation
  | authorityDelegationNotFound
  | delegationScopeExpansion
  | authorityDelegationCycle
  | delegationDepthExceeded
  | delegationSourceAuthorityMissing
  | authorityDenied
  | governanceCaseNotFound
  | governanceCaseStateConflict
  | governanceCaseExpired
  | governanceAttestationInvalid
  | governanceAttestationReplay
  | governanceCrossCaseAttestation
  | governanceQuorumPending
  | separationOfDutiesViolation
  | approvalLaundering
  | governanceProofNotFound
  | governanceProofSubjectMismatch
  | governanceProofStale
  | governanceProofExpired
  | authorityRevocationInvalid
  | governanceHoldActive
  | governanceHoldNotFound
  | governanceHoldScopeInsufficient
  | governanceHoldOperatorScopeInsufficient
  | governanceVersionConflict
  | governanceCasConflict
  | constitutionalMutationBypassDenied
  deriving DecidableEq, Repr

/-- What governance code throws: a `GovernanceError`, or the `ZodError` of a record whose fields
at these paths do not pass its schema. -/
inductive GovernanceFailure where
  | governance (code : GovernanceErrorCode) (message : String)
  | invalid (paths : List String)
  deriving DecidableEq, Repr

/-- What governance uses of `node:crypto` and of the language's own collation. -/
structure GovernanceExternal where
  /-- The hex SHA-256 digest of a UTF-8 string. -/
  sha256 : String → String
  /-- `digest.slice(0, 16)`. -/
  slice16 : String → String
  /-- `digest.slice(0, 24)`. -/
  slice24 : String → String
  /-- `a.localeCompare(b) <= 0`. -/
  localeLe : String → String → Bool

/-- The short digests in ids do not collide. -/
structure GovernanceExternal.CollisionFree (X : GovernanceExternal) : Prop where
  short : Function.Injective fun text => X.slice16 (X.sha256 text)
  long : Function.Injective fun text => X.slice24 (X.sha256 text)

/-- An id: a prefix and a short digest. -/
def GovernanceExternal.mint (X : GovernanceExternal) (label : String) (fields : Json) : String :=
  label ++ X.slice16 (X.sha256 fields.stringify)

/-- Ids minted under one prefix differ where the fields do. -/
theorem GovernanceExternal.CollisionFree.mint_inj {X : GovernanceExternal} (hX : X.CollisionFree)
    {label : String} {fields fields' : Json} (h : X.mint label fields = X.mint label fields') :
    fields = fields' := by
  unfold GovernanceExternal.mint at h
  exact Json.stringify_inj (hX.short (String.append_right_inj label |>.mp h))

/-! ## Scopes -/

/-- The levels of `maximumRisk`. -/
inductive RiskLevel where
  | low
  | medium
  | high
  | critical
  deriving DecidableEq, Repr

/-- `RISK_RANK`. -/
def RiskLevel.rank : RiskLevel → ℕ
  | .low => 1
  | .medium => 2
  | .high => 3
  | .critical => 4

/-- `isSubset`. -/
def isSubset (inner outer : List String) : Bool := inner.all outer.contains

@[simp] theorem isSubset_iff {inner outer : List String} :
    isSubset inner outer = true ↔ inner ⊆ outer := by
  simp [isSubset, List.subset_def]

/-- `inTimeWindow`. -/
def inTimeWindow (at_ effectiveFrom : ℕ) (effectiveUntil : Option ℕ) : Bool :=
  effectiveFrom ≤ at_ && effectiveUntil.all fun until_ => at_ ≤ until_

/-- A resource envelope, as `Object.entries` lists it. -/
abbrev ResourceEnvelope := List (String × ℚ)

/-! ## Records -/

/-- A `CanonicalAuthorityGrant`. -/
structure CanonicalAuthorityGrant where
  grantId : String
  principalId : String
  authorityRole : String
  projectId : String
  environmentScope : List String
  enabled : Bool
  effectiveFrom : Option ℕ
  effectiveUntil : Option ℕ
  actionScope : List String
  maximumRisk : Option RiskLevel
  maximumResourceEnvelope : ResourceEnvelope
  deriving DecidableEq, Repr

/-- `DELEGATION_STATES`. -/
inductive DelegationState where
  | proposed
  | active
  | suspended
  | expired
  | revoked
  | superseded
  deriving DecidableEq, Repr

/-- An `AuthorityDelegation`. -/
structure AuthorityDelegation where
  delegationId : String
  delegationVersion : ℕ
  delegatorPrincipalId : String
  delegatePrincipalId : String
  authorityRole : String
  projectScope : List String
  environmentScope : List String
  actionScope : List String
  subjectScope : List String
  effectiveFrom : ℕ
  effectiveUntil : ℕ
  maximumRisk : Option RiskLevel
  maximumResourceEnvelope : ResourceEnvelope
  sourceAuthorityGrantIds : List String
  sourceDelegationIds : List String
  delegationDepth : ℕ
  reason : String
  status : DelegationState
  createdAt : ℕ
  recordRevision : ℕ
  deriving DecidableEq, Repr

/-- `REVOCATION_TARGET_TYPES`. -/
inductive RevocationTargetType where
  | directGrant
  | delegation
  | mandate
  | institutionalProof
  deriving DecidableEq, Repr

/-- The target type's name in the source. -/
def RevocationTargetType.text : RevocationTargetType → String
  | .directGrant => "DIRECT_GRANT"
  | .delegation => "DELEGATION"
  | .mandate => "MANDATE"
  | .institutionalProof => "INSTITUTIONAL_PROOF"

/-- An `AuthorityRevocation`. -/
structure AuthorityRevocation where
  revocationId : String
  targetType : RevocationTargetType
  targetId : String
  reason : String
  effectiveAt : ℕ
  principalId : String
  createdAt : ℕ
  deriving DecidableEq, Repr

/-- `HOLD_STATES`. -/
inductive HoldState where
  | active
  | released
  | expired
  deriving DecidableEq, Repr

inductive HoldEffect where
  | block
  | pause
  | contain
  deriving DecidableEq, Repr

/-- A `GovernanceHold`. -/
structure GovernanceHold where
  holdId : String
  institutionId : String
  projectScope : List String
  environmentScope : List String
  subjectClasses : List String
  authorityRoles : List String
  reason : String
  effect : HoldEffect
  effectiveFrom : ℕ
  effectiveUntil : Option ℕ
  createdBy : String
  status : HoldState
  createdAt : ℕ
  recordRevision : ℕ
  deriving DecidableEq, Repr

/-! ## Stores -/

/-- The stores that the resolution of authority reads. -/
structure AuthorityStores where
  canonicalAuthority : Repository CanonicalAuthorityGrant.grantId
  delegations : Repository AuthorityDelegation.delegationId
  revocations : Repository AuthorityRevocation.revocationId
  holds : Repository GovernanceHold.holdId

namespace AuthorityStores

def empty : AuthorityStores := ⟨.empty, .empty, .empty, .empty⟩

variable (s : AuthorityStores)

/-- `canonicalAuthority.listByPrincipal`. -/
def listByPrincipal (principalId : String) : List CanonicalAuthorityGrant :=
  s.canonicalAuthority.list.filter fun g => g.principalId = principalId && g.enabled

/-- `delegations.listByDelegate`. -/
def listByDelegate (principalId : String) : List AuthorityDelegation :=
  s.delegations.list.filter fun d => d.delegatePrincipalId = principalId

/-- `delegations.listActive`. -/
def listActive : List AuthorityDelegation :=
  s.delegations.list.filter fun d => d.status = .active

/-- `revocations.listByTarget`. -/
def listByTarget (targetType : RevocationTargetType) (targetId : String) :
    List AuthorityRevocation :=
  s.revocations.list.filter fun r => r.targetType = targetType && r.targetId = targetId

/-- `holds.listActiveByProject`. -/
def listActiveByProject (projectId : String) : List GovernanceHold :=
  s.holds.list.filter fun h => h.status = .active && h.projectScope.contains projectId

/-- Some revocation of the target is in effect at `at_`. -/
def revokedAt (targetType : RevocationTargetType) (targetId : String) (at_ : ℕ) : Bool :=
  (s.listByTarget targetType targetId).any fun r => r.effectiveAt ≤ at_

end AuthorityStores

end Orchestrator
