import Orchestrator.Governance.Case

/-!
# A governance scenario

A canonical grant and requests that pass it on; mandates, a case over them, and votes.
-/

namespace Orchestrator.GovernanceScenario

open Collections AuthorityStores

/-- Digests that keep what they digest. -/
def external : GovernanceExternal where
  sha256 text := text
  slice16 digest := digest
  slice24 digest := digest
  localeLe a b := decide (a ≤ b)

theorem external_collisionFree : external.CollisionFree := ⟨fun _ _ h => h, fun _ _ h => h⟩

/-- Alice may approve deployments to production, at a low risk. -/
def aliceGrant : CanonicalAuthorityGrant where
  grantId := "grant_1"
  principalId := "alice"
  authorityRole := "APPROVER"
  projectId := "project_1"
  environmentScope := ["production"]
  enabled := true
  effectiveFrom := some 0
  effectiveUntil := some 1000
  actionScope := ["DEPLOY"]
  maximumRisk := some .low
  maximumResourceEnvelope := [("api_calls", 10)]

def authority : AuthorityStores :=
  { AuthorityStores.empty with canonicalAuthority := Repository.empty.save aliceGrant }

def world : GovernanceWorld := GovernanceWorld.empty.setAuthority authority

/-- Alice asks for what she may do herself, for Bob. -/
def toBob : DelegationInput where
  delegatorPrincipalId := "alice"
  delegatePrincipalId := "bob"
  authorityRole := "APPROVER"
  projectScope := ["project_1"]
  environmentScope := ["production"]
  actionScope := some ["DEPLOY"]
  subjectScope := none
  effectiveFrom := none
  effectiveUntil := 900
  maximumRisk := some .low
  maximumResourceEnvelope := some [("api_calls", 5)]
  reason := "on leave"
  maximumDelegationDepth := none

/-- Bob passes it on to Carol. -/
def toCarol : DelegationInput :=
  { toBob with
    delegatorPrincipalId := "bob"
    delegatePrincipalId := "carol"
    effectiveUntil := 800
    maximumDelegationDepth := some 2 }

/-- What Alice may pass on. -/
def aliceScope : DelegatorEffectiveScope where
  projectScope := ["project_1"]
  environmentScope := ["production"]
  authorityRole := "APPROVER"
  effectiveFrom := some 0
  effectiveUntil := some 1000
  maximumRisk := some .low
  maximumResourceEnvelope := [("api_calls", 10)]
  actionScope := ["DEPLOY"]
  sourceAuthorityGrantIds := ["grant_1"]
  sourceDelegationIds := []
  delegationDepth := 0

/-- Alice names neither actions nor a risk. -/
def openToBob : DelegationInput := { toBob with actionScope := none, maximumRisk := none }

/-! ## A case -/

/-- Digests that keep what they digest, and one long digest for all. -/
def brief : GovernanceExternal where
  sha256 text := text
  slice16 digest := digest
  slice24 _ := "digest"
  localeLe a b := decide (a ≤ b)

/-- A grant like Alice's. -/
def grantTo (principalId authorityRole : String) : CanonicalAuthorityGrant :=
  { aliceGrant with
    grantId := principalId ++ "_" ++ authorityRole
    principalId := principalId
    authorityRole := authorityRole }

/-- Alice may approve and audit, Bob may approve. -/
def voters : AuthorityStores :=
  { AuthorityStores.empty with
    canonicalAuthority := ((Repository.empty.save (grantTo "alice" "APPROVER")).save
      (grantTo "alice" "AUDITOR")).save (grantTo "bob" "APPROVER") }

/-- `n` distinct principals. -/
def approvals (n : ℕ) : GovernanceQuorumRequirement where
  kind := .kOfN
  k := some n
  n := none
  roles := ["AUDITOR"]
  rejectBlocksImmediately := true
  rejectThreshold := none

/-- An active mandate with this requirement and these rules. -/
def mandateOf (mandateId : String) (quorumRequirement : Option GovernanceQuorumRequirement)
    (rules : List SeparationOfDutyRule) : GovernanceMandate where
  mandateId := mandateId
  mandateVersion := 1
  institutionId := "institution_1"
  subjectClasses := ["PLAN"]
  requiredAuthorities := ["APPROVER"]
  projectScope := ["project_1"]
  environmentScope := ["production"]
  quorumRequirement := quorumRequirement
  separationOfDutyRules := rules
  delegationPolicy := ⟨true, 1, false⟩
  maximumAuthorityDurationMs := none
  maximumDelegationDepth := none
  riskScope := []
  resourceScope := []
  effectiveFrom := 1
  effectiveUntil := none
  status := .active
  mandateHash := mandateId ++ "_hash"
  createdBy := "olivia"
  createdAt := 1
  recordRevision := 2

/-- The stores with these mandates and the voters, at the instant 10. -/
def mandated (mandates : List GovernanceMandate) : CaseWorld where
  stores := { GovernanceWorld.empty.setAuthority voters with
    mandates := mandates.foldl Repository.save .empty }
  clock := 10

/-- A case on a plan, over mandates. -/
def caseOver (mandates : List GovernanceMandate) : CaseInput where
  subjectType := "PLAN"
  subjectId := "plan_1"
  subjectHash := "hash_1"
  subjectVersion := none
  requiredRole := "APPROVER"
  action := none
  projectIds := ["project_1"]
  environmentScope := ["production"]
  mandateIds := mandates.map (·.mandateId)
  expiresAt := 500

/-- A vote on the case. -/
def vote (principalId authorityRole : String) : GovernanceService.AttestInput where
  governanceCaseId := mintGovernanceCaseId brief (caseOver []) 10
  principalId := principalId
  authorityRole := authorityRole
  decision := .approve
  nonce := "nonce_1"
  nonceHash := none
  subjectHash := none

end Orchestrator.GovernanceScenario
