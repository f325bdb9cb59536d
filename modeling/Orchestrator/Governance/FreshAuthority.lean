import Orchestrator.Governance.Delegation
import Orchestrator.Governance.Freshness
import Orchestrator.Governance.Scenario

/-!
# Freshness and live resolution

A snapshot is taken of an authorized resolution; later, on other stores, it is found fresh for a
project, an environment and a role.

* `WellFormed`: no record names an empty project or environment;
* `fresh_iff_authorized`: the resolution at that instant then authorizes exactly where the project
  and the environment are named, and no hold of the project covers them;
* `fresh_under_hold`: a hold of a project that the snapshot covers, but was not taken for.
-/

namespace Orchestrator

open Collections

namespace AuthorityStores

/-- The schemas of grants and delegations accept no empty project or environment. -/
structure WellFormed (s : AuthorityStores) : Prop where
  grants : ∀ id g, s.canonicalAuthority.getById id = some g →
    g.projectId ≠ "" ∧ "" ∉ g.environmentScope
  delegations : ∀ id d, s.delegations.getById id = some d →
    "" ∉ d.projectScope ∧ "" ∉ d.environmentScope

variable {X : GovernanceExternal} {s s' : AuthorityStores} {q : AuthorityQuestion}

/-- What is authorized is authorized on a named project and environment. -/
theorem WellFormed.named (h : s.WellFormed)
    (hauthorized : (s.resolveAuthority X q).outcome = .authorized) :
    q.projectId ≠ "" ∧ q.environment ≠ "" := by
  obtain ⟨-, hbasis⟩ := resolveAuthority_authorized.mp hauthorized
  rcases hbasis with hgrants | hchain
  · obtain ⟨g, hg⟩ := List.exists_mem_of_ne_nil _ hgrants
    obtain ⟨hstored, -, hmatches, -⟩ := mem_matchingGrants.mp hg
    simp only [matchesGrant, Bool.and_eq_true, decide_eq_true_eq, List.contains_iff_mem]
      at hmatches
    obtain ⟨hproject, henvironment⟩ := h.grants _ g hstored
    refine ⟨hmatches.1.1.2 ▸ hproject, fun hempty => henvironment ?_⟩
    exact hempty ▸ hmatches.1.2
  · obtain ⟨d, hd⟩ := Option.isSome_iff_exists.mp hchain
    obtain ⟨hstored, -, hcandidate, -⟩ := findValidDelegationChain_some hd
    simp only [isCandidate, Bool.and_eq_true, decide_eq_true_eq, List.contains_iff_mem]
      at hcandidate
    obtain ⟨hproject, henvironment⟩ := h.delegations _ d hstored
    refine ⟨fun hempty => hproject ?_, fun hempty => henvironment ?_⟩
    · exact hempty ▸ hcandidate.1.1.1.2
    · exact hempty ▸ hcandidate.1.1.2

end AuthorityStores

open AuthorityStores GovernanceWorld

variable {X : GovernanceExternal} {s : AuthorityStores} {q : AuthorityQuestion}
  {w : GovernanceWorld}

/-- The question that a live resolution is asked for a snapshot. -/
def liveQuestion (snapshot : AuthoritySnapshot) (projectId environment : String) (at_ : ℕ) :
    AuthorityQuestion where
  principalId := snapshot.principalId
  requiredRole := snapshot.role
  projectId := projectId
  environment := environment
  action := none
  atIso := at_

/-- What freshness is asked about a project, an environment and a role. -/
def freshnessFor (authoritySnapshotId : String) (authoritySnapshotHash : Option String)
    (projectId environment requiredRole : String) (at_ : ℕ) : FreshnessInput where
  authoritySnapshotId := authoritySnapshotId
  authoritySnapshotHash := authoritySnapshotHash
  projectId := some projectId
  environment := some environment
  requiredRole := some requiredRole
  atIso := at_

theorem truthy_some {a b : String} (h : a ≠ "") : b ∈ truthy (some a) ↔ a = b := by
  simp [truthy, Option.filter, h]

/-- The last delegation of the snapshot's chain, where it is still stored, has the terms that it had
when the snapshot was taken. -/
def KeepsTerms (s s' : AuthorityStores) (snapshot : AuthoritySnapshot) : Prop :=
  ∀ id ∈ snapshot.delegationChain.getLast?, ∀ d d', s.delegations.getById id = some d →
    s'.delegations.getById id = some d' → SameTerms d d'

/-- What a snapshot says is fresh, for a named project and environment, is something that the
resolution would rest on. -/
theorem basis_of_fresh (hauthorized : (s.resolveAuthority X q).outcome = .authorized)
    (hterms : KeepsTerms s w.authority (buildAuthoritySnapshot X (s.resolveAuthority X q)))
    {snapshotId : String} {snapshotHash : Option String} {projectId environment role : String}
    {t : ℕ} (hfresh : w.validateAuthoritySnapshotFreshness X
      (freshnessFor snapshotId snapshotHash projectId environment role t) =
        .fresh (buildAuthoritySnapshot X (s.resolveAuthority X q)))
    (hproject : projectId ≠ "") (henvironment : environment ≠ "") :
    let question := liveQuestion (buildAuthoritySnapshot X (s.resolveAuthority X q)) projectId
      environment t
    w.authority.matchingGrants question ≠ [] ∨
      (w.authority.findValidDelegationChain question).isSome = true := by
  intro question
  obtain ⟨-, hstale⟩ := validateAuthoritySnapshotFreshness_fresh.mp hfresh
  obtain ⟨-, -, -, hprojects, henvironments, -, hbasis⟩ := snapshotStale_eq_none.mp hstale
  have hprojects := hprojects projectId ((truthy_some hproject).mpr rfl)
  have henvironments := henvironments environment ((truthy_some henvironment).mpr rfl)
  rcases basisStale_eq_none.mp hbasis with ⟨hsome, -, hgrants⟩ | ⟨hchain, hmembers, leaf', hleaf'⟩
  · left
    obtain ⟨id, hid⟩ := List.exists_mem_of_ne_nil _ hsome
    obtain ⟨g, hg, hprincipal, hrole, hgproject, hgenvironment, henabled, hwindow, hrevoked⟩ :=
      grantStale_eq_none (hgrants id hid)
    have hgid : g.grantId = id := Repository.id_of_getById hg
    have hmem : g ∈ w.authority.matchingGrants question := by
      refine mem_matchingGrants.mpr ⟨hgid ▸ hg, hprincipal, ?_, hgid ▸ hrevoked⟩
      have hgproject := hgproject projectId ((truthy_some hproject).mpr rfl)
      have hgenvironment := hgenvironment environment ((truthy_some henvironment).mpr rfl)
      simp only [matchesGrant, Bool.and_eq_true, decide_eq_true_eq, List.contains_iff_mem]
      exact ⟨⟨⟨⟨henabled, hrole⟩, hgproject⟩, hgenvironment⟩, hwindow⟩
    exact List.ne_nil_of_mem hmem
  · right
    obtain ⟨-, ⟨-, hres⟩ | ⟨-, d, hd, hres⟩⟩ := resolveAuthority_cases hauthorized
    · rw [hres] at hchain
      exact absurd rfl hchain
    rw [hres] at hterms hprojects henvironments hmembers hleaf'
    obtain ⟨hstored, -, -, -⟩ := findValidDelegationChain_some hd
    have hlast : (chainOf d).getLast? = some d.delegationId := List.getLast?_concat
    have hlastD : (chainOf d).getLastD "" = d.delegationId := by
      rw [List.getLastD_eq_getLast?, hlast]
      rfl
    obtain ⟨hget, hdelegate, hrole⟩ := hleaf'
    rw [show (buildAuthoritySnapshot X (delegatedResolution X q d)).delegationChain = chainOf d from
      rfl, hlastD] at hget
    have hsame : SameTerms d leaf' := hterms d.delegationId hlast d leaf' hstored hget
    have hid : leaf'.delegationId = d.delegationId := Repository.id_of_getById hget
    have hvalid := hmembers d.delegationId (List.mem_append_right _ List.mem_cons_self)
    unfold chainMemberValid at hvalid
    rw [hget] at hvalid
    simp only [Bool.and_eq_true, decide_eq_true_eq] at hvalid
    refine findValidDelegationChain_isSome (d := leaf') (hid ▸ hget) ?_ ?_ ?_
    · rw [hdelegate]
      show _ = (buildAuthoritySnapshot X (s.resolveAuthority X q)).principalId
      rw [hres]
    · simp only [isCandidate, Bool.and_eq_true, decide_eq_true_eq, List.contains_iff_mem]
      refine ⟨⟨⟨⟨⟨hvalid.1.1.1, ?_⟩, ?_⟩, ?_⟩, hvalid.1.1.2⟩, rfl⟩
      · rw [hrole]
        show _ = (buildAuthoritySnapshot X (s.resolveAuthority X q)).role
        rw [hres]
      · rw [hsame]
        exact hprojects
      · rw [hsame]
        exact henvironments
    · simp only [chainValid, Bool.and_eq_true, List.all_eq_true]
      refine ⟨⟨hid ▸ hvalid.1.2, hvalid.2⟩, fun id hancestor => hmembers id ?_⟩
      rw [hsame] at hancestor
      exact List.mem_append_left _ hancestor

/-- A snapshot of an authorized resolution is found fresh for a project, an environment and a role.
The resolution for its principal and role there and then authorizes exactly if both are named and no
active hold of the project covers them. -/
theorem fresh_iff_authorized (X : GovernanceExternal) (s : AuthorityStores) (q : AuthorityQuestion)
    (hauthorized : (s.resolveAuthority X q).outcome = .authorized) (w : GovernanceWorld)
    (hwell : w.authority.WellFormed)
    (hterms : KeepsTerms s w.authority (buildAuthoritySnapshot X (s.resolveAuthority X q)))
    (snapshotId : String) (snapshotHash : Option String) (projectId environment role : String)
    (t : ℕ) (hfresh : w.validateAuthoritySnapshotFreshness X
      (freshnessFor snapshotId snapshotHash projectId environment role t) =
        .fresh (buildAuthoritySnapshot X (s.resolveAuthority X q))) :
    let snapshot := buildAuthoritySnapshot X (s.resolveAuthority X q)
    (w.authority.resolveAuthority X (liveQuestion snapshot projectId environment t)).outcome =
        .authorized ↔
      projectId ≠ "" ∧ environment ≠ "" ∧ ∀ h ∈ w.authority.listActiveByProject projectId,
        holdCovers h (some environment) (some snapshot.role) none t = false := by
  intro snapshot
  constructor
  · intro hlive
    obtain ⟨hproject, henvironment⟩ := hwell.named hlive
    exact ⟨hproject, henvironment, blockingHold_eq_none.mp (resolveAuthority_authorized.mp hlive).1⟩
  · rintro ⟨hproject, henvironment, hholds⟩
    exact resolveAuthority_authorized.mpr ⟨blockingHold_eq_none.mpr hholds,
      basis_of_fresh hauthorized hterms hfresh hproject henvironment⟩

/-! ## A delegation over two projects -/

namespace GovernanceScenario

/-- Bob acts for Alice on two projects. -/
def wideDelegation : AuthorityDelegation where
  delegationId := "delegation_1"
  delegationVersion := 1
  delegatorPrincipalId := "alice"
  delegatePrincipalId := "bob"
  authorityRole := "APPROVER"
  projectScope := ["project_1", "project_2"]
  environmentScope := ["production"]
  actionScope := []
  subjectScope := []
  effectiveFrom := 5
  effectiveUntil := 900
  maximumRisk := none
  maximumResourceEnvelope := []
  sourceAuthorityGrantIds := ["grant_1"]
  sourceDelegationIds := []
  delegationDepth := 1
  reason := "on leave"
  status := .active
  createdAt := 5
  recordRevision := 1

/-- The second project is held. -/
def secondHeld : GovernanceHold where
  holdId := "hold_1"
  institutionId := "institution_1"
  projectScope := ["project_2"]
  environmentScope := []
  subjectClasses := []
  authorityRoles := []
  reason := "audit"
  effect := .block
  effectiveFrom := 0
  effectiveUntil := none
  createdBy := "olivia"
  status := .active
  createdAt := 1
  recordRevision := 1

/-- Bob's authority, and the hold. -/
def wideAuthority : AuthorityStores :=
  { authority with
    delegations := Repository.empty.save wideDelegation
    holds := Repository.empty.save secondHeld }

/-- Bob is asked about on the first project. -/
def bobsQuestion : AuthorityQuestion where
  principalId := "bob"
  requiredRole := "APPROVER"
  projectId := "project_1"
  environment := "production"
  action := none
  atIso := 10

/-- The snapshot of Bob's authority. -/
def bobsSnapshot : AuthoritySnapshot :=
  buildAuthoritySnapshot brief (wideAuthority.resolveAuthority brief bobsQuestion)

/-- The stores with that snapshot. -/
def wideWorld : GovernanceWorld :=
  let w := GovernanceWorld.empty.setAuthority wideAuthority
  { w with snapshots := w.snapshots.save bobsSnapshot }

end GovernanceScenario

open GovernanceScenario

theorem wideWorld_wellFormed : wideWorld.authority.WellFormed where
  grants := by
    intro id g hg
    have hmem : g ∈ [aliceGrant] := Repository.mem_list_of_getById hg
    obtain rfl := List.mem_singleton.mp hmem
    decide
  delegations := by
    intro id d hd
    have hmem : d ∈ [wideDelegation] := Repository.mem_list_of_getById hd
    obtain rfl := List.mem_singleton.mp hmem
    decide

theorem keepsTerms_self (s : AuthorityStores) (snapshot : AuthoritySnapshot) :
    KeepsTerms s s snapshot := by
  intro id _ d d' hd hd'
  cases hd.symm.trans hd'
  exact .refl d

/-- Bob's snapshot is fresh for both projects. -/
theorem bobsSnapshot_fresh {projectId : String} (h : projectId ∈ ["project_1", "project_2"]) :
    wideWorld.validateAuthoritySnapshotFreshness brief
      (freshnessFor bobsSnapshot.authoritySnapshotId none projectId "production" "APPROVER" 20) =
        .fresh bobsSnapshot := by
  refine validateAuthoritySnapshotFreshness_fresh.mpr
    ⟨Repository.getById_save_self _ bobsSnapshot, snapshotStale_eq_none.mpr ⟨rfl, ?_⟩⟩
  revert projectId
  decide

/-- On the first project the theorem says that the resolution authorizes Bob. -/
theorem fresh_authorized_first : (wideWorld.authority.resolveAuthority brief
    (liveQuestion bobsSnapshot "project_1" "production" 20)).outcome = .authorized :=
  (fresh_iff_authorized brief wideAuthority bobsQuestion (by decide) wideWorld
    wideWorld_wellFormed (keepsTerms_self _ _) _ none "project_1" "production" "APPROVER" 20
    (bobsSnapshot_fresh (by decide))).mpr (by decide)

/-- On the second project, which is held, the snapshot is as fresh, and Bob is not authorized. -/
theorem fresh_under_hold :
    ¬∀ (s : AuthorityStores) (q : AuthorityQuestion),
      (s.resolveAuthority brief q).outcome = .authorized → ∀ (w : GovernanceWorld),
      w.authority = s → ∀ (snapshotId projectId environment role : String) (t : ℕ),
      w.validateAuthoritySnapshotFreshness brief
        (freshnessFor snapshotId none projectId environment role t) =
          .fresh (buildAuthoritySnapshot brief (s.resolveAuthority brief q)) →
      (w.authority.resolveAuthority brief (liveQuestion
        (buildAuthoritySnapshot brief (s.resolveAuthority brief q)) projectId environment t)).outcome =
          .authorized := by
  intro h
  have hlive := h wideAuthority bobsQuestion (by decide) wideWorld rfl _ "project_2"
    "production" "APPROVER" 20 (bobsSnapshot_fresh (by decide))
  exact absurd hlive (by decide)

end Orchestrator
