import Orchestrator.Constitutional.Operations
import Orchestrator.Governance.Scenario

/-!
# Governance continuity

* `assertProjectedGovernanceContinuity`: the check before a constitutional change is staged and
  activated;
* `RoleHolder`: who holds a role in the projected state;
* `continuity_ok`: what the check comes to;
* `continuity_keeps_holders`: what it leaves for later changes.
-/

namespace Orchestrator

open Collections

/-! ## The check -/

/-- `META_ROLES`. -/
inductive MetaGovernanceRole where
  | governanceAdmin
  | constitutionalReviewer
  | constitutionalActivator
  deriving DecidableEq, Repr

/-- The role's name in the source. -/
def MetaGovernanceRole.text : MetaGovernanceRole → String
  | .governanceAdmin => "GOVERNANCE_ADMIN"
  | .constitutionalReviewer => "CONSTITUTIONAL_REVIEWER"
  | .constitutionalActivator => "CONSTITUTIONAL_ACTIVATOR"

/-- `isViableCanonicalGrant`. -/
def isViableCanonicalGrant (grant : CanonicalAuthorityGrant) (institution : Institution)
    (role : MetaGovernanceRole) : Bool :=
  if !grant.enabled || grant.authorityRole ≠ role.text then false
  else institution.projectIds.contains grant.projectId

/-- `countViableRoleHolders`: the size of the set of their principals. -/
def countViableRoleHolders (institution : Institution) (grants : List CanonicalAuthorityGrant)
    (role : MetaGovernanceRole) : ℕ :=
  ((grants.filter (isViableCanonicalGrant · institution role)).map (·.principalId)).dedup.length

/-- The input of `assertProjectedGovernanceContinuity`; the units are left out, whose projection it
drops. -/
structure ContinuityInput where
  institution : Institution
  mandates : List GovernanceMandate
  grants : List CanonicalAuthorityGrant
  operations : List ConstitutionalChangeOperation
  now : ℕ
  actorPrincipalId : String
  deriving DecidableEq, Repr

namespace ContinuityInput

variable (input : ContinuityInput)

/-- `projectedInstitution`. -/
def projectedInstitution : Institution :=
  projectInstitutionAfterOperations input.institution input.operations

/-- `projectedMandates`. -/
def projectedMandates : List GovernanceMandate :=
  projectMandatesAfterOperations input.mandates input.now input.actorPrincipalId input.operations

/-- The holders of a role in the projected state. -/
def holders (role : MetaGovernanceRole) : ℕ :=
  countViableRoleHolders input.projectedInstitution input.grants role

end ContinuityInput

/-- The mandate covers constitutional changes. -/
def GovernanceMandate.coversConstitutionalChange (m : GovernanceMandate) : Bool :=
  m.subjectClasses.contains "CONSTITUTIONAL_CHANGE"

/-- The error of a role that no principal holds any more. -/
def governanceLockout (role : MetaGovernanceRole) : ConstitutionalError where
  code := .constitutionalGovernanceLockout
  message := s!"Projected state removes all viable {role.text} paths"
  role := role.text

/-- `assertProjectedGovernanceContinuity`. -/
def assertProjectedGovernanceContinuity (input : ContinuityInput) :
    Except ConstitutionalError Unit :=
  if !input.institution.constitutionalControlEnabled then .ok ()
  else if input.holders .governanceAdmin < 1 then .error (governanceLockout .governanceAdmin)
  else if input.projectedMandates.any (·.coversConstitutionalChange) then
    if input.holders .constitutionalReviewer < 1 then
      .error (governanceLockout .constitutionalReviewer)
    else if input.holders .constitutionalActivator < 1 then
      .error (governanceLockout .constitutionalActivator)
    else .ok ()
  else .ok ()

/-- `requiredReviewApprovals`. -/
def requiredReviewApprovals (mandates : List GovernanceMandate) : ℕ :=
  mandates.foldl (fun max_ m =>
    match m.quorumRequirement with
    | none => max_
    | some q =>
      match q.kind with
      | .kOfN => max max_ (q.k.getD 1)
      | .allOf => max max_ (if q.roles.length = 0 then 1 else q.roles.length)
      | _ => max_) 1

/-! ## Holders -/

section Holders

variable {institution : Institution} {grants : List CanonicalAuthorityGrant}
  {role : MetaGovernanceRole}

theorem isViableCanonicalGrant_iff {grant : CanonicalAuthorityGrant} :
    isViableCanonicalGrant grant institution role = true ↔
      grant.enabled = true ∧ grant.authorityRole = role.text ∧
        grant.projectId ∈ institution.projectIds := by
  unfold isViableCanonicalGrant
  by_cases henabled : grant.enabled <;> by_cases hrole : grant.authorityRole = role.text <;>
    simp [henabled, hrole]

/-- The principal has a viable grant of the role. -/
def RoleHolder (institution : Institution) (grants : List CanonicalAuthorityGrant)
    (role : MetaGovernanceRole) (principalId : String) : Prop :=
  ∃ grant ∈ grants, grant.principalId = principalId ∧ grant.enabled = true ∧
    grant.authorityRole = role.text ∧ grant.projectId ∈ institution.projectIds

theorem mem_holders {principalId : String} :
    principalId ∈ ((grants.filter (isViableCanonicalGrant · institution role)).map
      (·.principalId)).dedup ↔ RoleHolder institution grants role principalId := by
  simp only [List.mem_dedup, List.mem_map, List.mem_filter, isViableCanonicalGrant_iff, RoleHolder]
  refine exists_congr fun grant => ?_
  tauto

/-- A role is counted at least once exactly where someone holds it. -/
theorem one_le_holders_iff :
    1 ≤ countViableRoleHolders institution grants role ↔
      ∃ principalId, RoleHolder institution grants role principalId := by
  unfold countViableRoleHolders
  rw [Nat.one_le_iff_ne_zero, Ne, List.length_eq_zero_iff, List.eq_nil_iff_forall_not_mem,
    not_forall]
  refine exists_congr fun principalId => ?_
  rw [not_not, mem_holders]

end Holders

/-! ## What the check leaves -/

namespace ContinuityInput

variable (input : ContinuityInput)

/-- The principal holds the role in the projected state. -/
def Holds (role : MetaGovernanceRole) (principalId : String) : Prop :=
  RoleHolder input.projectedInstitution input.grants role principalId

/-- Some projected mandate covers constitutional changes. -/
def Covered : Prop := ∃ m ∈ input.projectedMandates, "CONSTITUTIONAL_CHANGE" ∈ m.subjectClasses

/-- The approvals that the projected mandates ask of the next proposal. -/
def approvalsNeeded : ℕ :=
  requiredReviewApprovals (input.projectedMandates.filter (·.coversConstitutionalChange))

/-- As many principals can review as approvals are needed. -/
def ReviewQuorum : Prop := input.approvalsNeeded ≤ input.holders .constitutionalReviewer

/-- A principal can activate what two others propose and review. -/
def DistinctActivator : Prop :=
  ∃ proposer reviewer activator, input.Holds .governanceAdmin proposer ∧
    input.Holds .constitutionalReviewer reviewer ∧ input.Holds .constitutionalActivator activator ∧
      activator ≠ proposer ∧ activator ≠ reviewer

/-- The activators hold neither of the other roles. -/
def ActivatorsApart : Prop :=
  ∀ principalId, input.Holds .constitutionalActivator principalId →
    ¬input.Holds .governanceAdmin principalId ∧ ¬input.Holds .constitutionalReviewer principalId

end ContinuityInput

variable {input : ContinuityInput}

/-- Each role that the projected state needs is counted on its own, up to the first holder. -/
theorem continuity_ok (hcontrol : input.institution.constitutionalControlEnabled = true) :
    assertProjectedGovernanceContinuity input = .ok () ↔
      (∃ p, input.Holds .governanceAdmin p) ∧
        (input.Covered → (∃ p, input.Holds .constitutionalReviewer p) ∧
          ∃ p, input.Holds .constitutionalActivator p) := by
  have hcovered : input.Covered ↔
      input.projectedMandates.any (·.coversConstitutionalChange) = true := by
    simp [ContinuityInput.Covered, GovernanceMandate.coversConstitutionalChange]
  have hholds (role : MetaGovernanceRole) :
      (∃ p, input.Holds role p) ↔ ¬input.holders role < 1 := by
    rw [Nat.not_lt]
    exact one_le_holders_iff.symm
  rw [hcovered, hholds, hholds, hholds]
  unfold assertProjectedGovernanceContinuity
  simp only [hcontrol, Bool.not_true, Bool.false_eq_true, if_false]
  split_ifs <;> simp_all

/-- Under constitutional control, a change that passes leaves an admin, and a reviewer and an
activator where a mandate covers constitutional changes. They suffice for the next change where one
approval is needed and no activator holds another role. -/
theorem continuity_keeps_holders (input : ContinuityInput)
    (hcontrol : input.institution.constitutionalControlEnabled = true)
    (hok : assertProjectedGovernanceContinuity input = .ok ()) :
    (∃ p, input.Holds .governanceAdmin p) ∧
      (input.Covered →
        (∃ p, input.Holds .constitutionalReviewer p) ∧
          (∃ p, input.Holds .constitutionalActivator p) ∧
          (input.approvalsNeeded = 1 → input.ReviewQuorum) ∧
          (input.ActivatorsApart → input.DistinctActivator)) := by
  obtain ⟨⟨admin, hadmin⟩, hcovered⟩ := (continuity_ok hcontrol).mp hok
  refine ⟨⟨admin, hadmin⟩, fun hcov => ?_⟩
  obtain ⟨⟨reviewer, hreviewer⟩, ⟨activator, hactivator⟩⟩ := hcovered hcov
  refine ⟨⟨reviewer, hreviewer⟩, ⟨activator, hactivator⟩, fun hone => ?_, fun hapart => ?_⟩
  · unfold ContinuityInput.ReviewQuorum
    rw [hone]
    exact one_le_holders_iff.mpr ⟨reviewer, hreviewer⟩
  · obtain ⟨hnotAdmin, hnotReviewer⟩ := hapart activator hactivator
    refine ⟨admin, reviewer, activator, hadmin, hreviewer, hactivator, ?_, ?_⟩
    · exact fun heq => hnotAdmin (heq ▸ hadmin)
    · exact fun heq => hnotReviewer (heq ▸ hreviewer)

/-! ## An institution of three -/

open GovernanceScenario

/-- An institution under constitutional control, with one project. -/
def controlledInstitution : Institution where
  institutionId := "institution_1"
  name := "Institution"
  projectIds := ["project_1"]
  organizationalUnitIds := []
  constitutionalControlEnabled := true
  createdAt := 1
  status := .active
  recordRevision := 1

/-- A change of the institution's only mandate, which covers constitutional changes, to `n`
approvals. -/
def quorumChange (n : ℕ) (grants : List CanonicalAuthorityGrant) : ContinuityInput where
  institution := controlledInstitution
  mandates := [{ mandateOf "mandate_1" none [] with subjectClasses := ["CONSTITUTIONAL_CHANGE"] }]
  grants := grants
  operations := [.changeMandateQuorum "mandate_1" (approvals n) false]
  now := 10
  actorPrincipalId := "continuity-check"

/-- One principal for each role. -/
def threeOffices : List CanonicalAuthorityGrant :=
  [grantTo "ada" "GOVERNANCE_ADMIN", grantTo "rob" "CONSTITUTIONAL_REVIEWER",
    grantTo "ava" "CONSTITUTIONAL_ACTIVATOR"]

/-- One principal for all of them. -/
def oneOfficer : List CanonicalAuthorityGrant :=
  [grantTo "ada" "GOVERNANCE_ADMIN", grantTo "ada" "CONSTITUTIONAL_REVIEWER",
    grantTo "ada" "CONSTITUTIONAL_ACTIVATOR"]

theorem quorumChange_covered (n : ℕ) (grants : List CanonicalAuthorityGrant) :
    (quorumChange n grants).Covered :=
  ⟨_, List.mem_singleton_self _, List.mem_singleton_self "CONSTITUTIONAL_CHANGE"⟩

/-- A change to one approval leaves the three offices able to make the next change. -/
theorem continuity_keeps_holders_three :
    (∃ p, (quorumChange 1 threeOffices).Holds .governanceAdmin p) ∧
      (quorumChange 1 threeOffices).ReviewQuorum := by
  obtain ⟨hadmin, hcovered⟩ :=
    continuity_keeps_holders (quorumChange 1 threeOffices) rfl (by decide)
  obtain ⟨_, _, hquorum, _⟩ := hcovered (quorumChange_covered 1 threeOffices)
  exact ⟨hadmin, hquorum (by decide)⟩

/-- The check lets pass a change to two approvals with one reviewer, and a change with one principal
in every role. -/
theorem continuity_allows_lockout :
    ¬(∀ input : ContinuityInput, input.institution.constitutionalControlEnabled = true →
        assertProjectedGovernanceContinuity input = .ok () → input.Covered →
          input.ReviewQuorum) ∧
      ¬∀ input : ContinuityInput, input.institution.constitutionalControlEnabled = true →
        assertProjectedGovernanceContinuity input = .ok () → input.Covered →
          input.DistinctActivator := by
  constructor
  · intro h
    have hquorum := h (quorumChange 2 threeOffices) rfl (by decide)
      (quorumChange_covered 2 threeOffices)
    unfold ContinuityInput.ReviewQuorum at hquorum
    revert hquorum
    decide
  · intro h
    obtain ⟨proposer, _, activator, hproposer, _, hactivator, hne, _⟩ :=
      h (quorumChange 1 oneOfficer) rfl (by decide) (quorumChange_covered 1 oneOfficer)
    have hada (role : MetaGovernanceRole) (p : String)
        (hp : (quorumChange 1 oneOfficer).Holds role p) : p = "ada" := by
      obtain ⟨grant, hgrant, rfl, _⟩ := hp
      have hall : ∀ g ∈ oneOfficer, g.principalId = "ada" := by decide
      exact hall grant hgrant
    exact hne ((hada _ _ hactivator).trans (hada _ _ hproposer).symm)

end Orchestrator
