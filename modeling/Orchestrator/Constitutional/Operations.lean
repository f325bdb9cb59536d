import Orchestrator.Governance.World

/-!
# Constitutional change operations

* `ConstitutionalChangeOperation`: the typed changes of a proposal;
* `projectMandatesAfterOperations`, `projectInstitutionAfterOperations`: the state that the
  operations of a proposal lead to, without writing it.
-/

namespace Orchestrator

open Collections

/-! ## Institutions and errors -/

/-- `INSTITUTION_STATES`. -/
inductive InstitutionState where
  | active
  | suspended
  | retired
  deriving DecidableEq, Repr

/-- An `Institution`. -/
structure Institution where
  institutionId : String
  name : String
  projectIds : List String
  organizationalUnitIds : List String
  constitutionalControlEnabled : Bool
  createdAt : ℕ
  status : InstitutionState
  recordRevision : ℕ
  deriving DecidableEq, Repr

/-- The `ConstitutionalErrorCode` of the continuity check. -/
inductive ConstitutionalErrorCode where
  | constitutionalGovernanceLockout
  deriving DecidableEq, Repr

/-- A `ConstitutionalError`, with the role in its details. -/
structure ConstitutionalError where
  code : ConstitutionalErrorCode
  message : String
  role : String
  deriving DecidableEq, Repr

/-! ## Operations -/

/-- What a new version of a mandate is made of, in the operations that spell it out. -/
structure MandateTerms where
  subjectClasses : List String
  requiredAuthorities : List String
  projectScope : List String
  environmentScope : List String
  quorumRequirement : Option GovernanceQuorumRequirement
  separationOfDutyRules : List SeparationOfDutyRule
  delegationPolicy : Option GovernanceDelegationPolicy
  maximumDelegationDepth : Option ℕ
  effectiveFrom : Option ℕ
  effectiveUntil : Option ℕ
  deriving DecidableEq, Repr

/-- A `ConstitutionalChangeOperation`. -/
inductive ConstitutionalChangeOperation where
  | createMandateVersion (institutionId : String) (terms : MandateTerms)
      (mandateVersion : Option ℕ) (selfGrantOperationalAuthority : Bool)
  | supersedeMandateVersion (mandateId : String) (newMandateVersion : ℕ) (terms : MandateTerms)
  | changeMandateQuorum (mandateId : String) (quorumRequirement : GovernanceQuorumRequirement)
      (deleteHistoricalRecords : Bool)
  | changeMandateSeparationOfDuties (mandateId : String)
      (separationOfDutyRules : List SeparationOfDutyRule)
  | changeMandateScope (mandateId : String) (projectScope environmentScope : List String)
      (grantAuthorityViaHold : Bool)
  | changeDelegationLimits (mandateId : String) (maximumDelegationDepth : ℕ)
      (delegationPolicy : Option GovernanceDelegationPolicy)
  | changeGovernanceAdminScope (institutionId : String) (projectScope : List String)
  | createOrganizationalUnit (institutionId name description : String)
      (projectScope : List String) (parentUnitId : Option String)
  | changeOrganizationalUnitRelationship (organizationalUnitId : String)
      (parentUnitId : Option String)
  | retireOrganizationalUnit (organizationalUnitId : String)
  deriving DecidableEq, Repr

/-- The operation's `kind`. -/
def ConstitutionalChangeOperation.kind : ConstitutionalChangeOperation → String
  | .createMandateVersion .. => "CREATE_MANDATE_VERSION"
  | .supersedeMandateVersion .. => "SUPERSEDE_MANDATE_VERSION"
  | .changeMandateQuorum .. => "CHANGE_MANDATE_QUORUM"
  | .changeMandateSeparationOfDuties .. => "CHANGE_MANDATE_SEPARATION_OF_DUTIES"
  | .changeMandateScope .. => "CHANGE_MANDATE_SCOPE"
  | .changeDelegationLimits .. => "CHANGE_DELEGATION_LIMITS"
  | .changeGovernanceAdminScope .. => "CHANGE_GOVERNANCE_ADMIN_SCOPE"
  | .createOrganizationalUnit .. => "CREATE_ORGANIZATIONAL_UNIT"
  | .changeOrganizationalUnitRelationship .. => "CHANGE_ORGANIZATIONAL_UNIT_RELATIONSHIP"
  | .retireOrganizationalUnit .. => "RETIRE_ORGANIZATIONAL_UNIT"

/-! ## Projected mandates -/

/-- The mandates under their ids, and the ids that an operation supersedes. -/
structure MandateProjection where
  byId : JsMap String GovernanceMandate
  superseded : List String

/-- The next version of a mandate, before what the operation changes in it. -/
def GovernanceMandate.next (m : GovernanceMandate) (kind actorPrincipalId : String) (now : ℕ) :
    GovernanceMandate :=
  { m with
    mandateId := s!"{m.mandateId}_v{m.mandateVersion + 1}"
    mandateVersion := m.mandateVersion + 1
    status := .active
    createdAt := now
    createdBy := actorPrincipalId
    recordRevision := 1
    mandateHash := s!"projected_{kind}_{m.mandateId}" }

/-- The mandate that the terms of an operation come to. -/
def MandateTerms.mandate (terms : MandateTerms) (mandateId institutionId kind : String)
    (mandateVersion : ℕ) (actorPrincipalId : String) (now : ℕ) : GovernanceMandate where
  mandateId
  mandateVersion
  institutionId
  subjectClasses := terms.subjectClasses
  requiredAuthorities := terms.requiredAuthorities
  projectScope := terms.projectScope
  environmentScope := terms.environmentScope
  quorumRequirement := terms.quorumRequirement
  separationOfDutyRules := terms.separationOfDutyRules
  delegationPolicy := terms.delegationPolicy.getD ⟨true, 1, false⟩
  maximumAuthorityDurationMs := none
  maximumDelegationDepth := terms.maximumDelegationDepth
  riskScope := []
  resourceScope := []
  effectiveFrom := terms.effectiveFrom.getD now
  effectiveUntil := terms.effectiveUntil
  status := .active
  mandateHash := s!"projected_{kind}"
  createdBy := actorPrincipalId
  createdAt := now
  recordRevision := 1

section Projection

variable (currentMandates : List GovernanceMandate) (now : ℕ) (actorPrincipalId : String)

/-- A changed version takes the place of the mandate under `mandateId`, if there is one. -/
def MandateProjection.patch (p : MandateProjection) (mandateId kind : String)
    (change : GovernanceMandate → GovernanceMandate) : MandateProjection :=
  match p.byId.get mandateId with
  | none => p
  | some current =>
    -- the map's key of a mandate is its id, so the source's two ids of it are one
    let next := change (current.next kind actorPrincipalId now)
    ⟨p.byId.set next.mandateId next, p.superseded ++ [mandateId]⟩

/-- One operation. -/
def projectMandateOperation (p : MandateProjection) (op : ConstitutionalChangeOperation) :
    MandateProjection :=
  match op with
  | .changeMandateQuorum mandateId quorumRequirement _ =>
    p.patch now actorPrincipalId mandateId op.kind fun m =>
      { m with quorumRequirement := some quorumRequirement }
  | .changeMandateSeparationOfDuties mandateId separationOfDutyRules =>
    p.patch now actorPrincipalId mandateId op.kind fun m => { m with separationOfDutyRules }
  | .changeMandateScope mandateId projectScope environmentScope _ =>
    p.patch now actorPrincipalId mandateId op.kind fun m =>
      { m with projectScope, environmentScope }
  | .changeDelegationLimits mandateId maximumDelegationDepth delegationPolicy =>
    p.patch now actorPrincipalId mandateId op.kind fun m =>
      { m with
        maximumDelegationDepth := some maximumDelegationDepth
        delegationPolicy := delegationPolicy.getD m.delegationPolicy }
  | .createMandateVersion institutionId terms mandateVersion _ =>
    let version := mandateVersion.getD 1
    let next := terms.mandate s!"new_{institutionId}_v{version}" institutionId op.kind version
      actorPrincipalId now
    { p with byId := p.byId.set next.mandateId next }
  | .supersedeMandateVersion mandateId newMandateVersion terms =>
    let institutionId :=
      ((currentMandates.find? (·.mandateId = mandateId)).map (·.institutionId)).getD ""
    let next := terms.mandate s!"{mandateId}_v{newMandateVersion}" institutionId op.kind
      newMandateVersion actorPrincipalId now
    ⟨p.byId.set next.mandateId next, p.superseded ++ [mandateId]⟩
  | _ => p

/-- `projectMandatesAfterOperations`. -/
def projectMandatesAfterOperations (operations : List ConstitutionalChangeOperation) :
    List GovernanceMandate :=
  let start : MandateProjection := ⟨.ofList (currentMandates.map fun m => (m.mandateId, m)), []⟩
  let projected :=
    operations.foldl (projectMandateOperation currentMandates now actorPrincipalId) start
  projected.byId.values.filter fun m =>
    m.status = .active && !projected.superseded.contains m.mandateId

end Projection

/-! ## Projected institution -/

/-- `projectInstitutionAfterOperations`: the last change of the scope stands. -/
def projectInstitutionAfterOperations (institution : Institution)
    (operations : List ConstitutionalChangeOperation) : Institution :=
  { institution with
    projectIds := operations.foldl (fun projectIds op =>
      match op with
      | .changeGovernanceAdminScope _ projectScope => projectScope
      | _ => projectIds) institution.projectIds }

end Orchestrator
