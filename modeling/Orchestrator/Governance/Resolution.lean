import Orchestrator.Governance.Records
import Mathlib.Data.List.Sort

/-!
# Resolution of authority

`resolveAuthority`: who may act in a role on a project and an environment, at an instant, by a
canonical grant or by a delegation.

* `holdCovers`, `grantInWindow`, `sourceGrantsValid`: the checks the service makes again and again;
* `findValidDelegationChain`: the first delegation to a principal whose whole chain is valid;
* `resolveAuthority`, with `resolveAuthority_cases`, what an authorized resolution rests on.

The service reads its stores one by one, and nothing here writes them: the functions take the
stores as they are.
-/

namespace Orchestrator

open Collections

/-! ## Checks -/

/-- A hold in its window, for this environment, role and subject class. One that is not given is
not looked at. -/
def holdCovers (hold : GovernanceHold) (environment authorityRole subjectClass : Option String)
    (at_ : ℕ) : Bool :=
  inTimeWindow at_ hold.effectiveFrom hold.effectiveUntil &&
    (hold.environmentScope.isEmpty || environment.all hold.environmentScope.contains) &&
    (hold.authorityRoles.isEmpty || authorityRole.all hold.authorityRoles.contains) &&
    (hold.subjectClasses.isEmpty || subjectClass.all hold.subjectClasses.contains)

/-- A grant is in its window; it need not have one. -/
def grantInWindow (g : CanonicalAuthorityGrant) (at_ : ℕ) : Bool :=
  match g.effectiveFrom with
  | some from_ => inTimeWindow at_ from_ g.effectiveUntil
  | none => g.effectiveUntil.all fun until_ => at_ ≤ until_

/-- What `resolveAuthority` is asked. -/
structure AuthorityQuestion where
  principalId : String
  requiredRole : String
  projectId : String
  environment : String
  action : Option String
  atIso : ℕ
  deriving DecidableEq, Repr

inductive AuthorityOutcome where
  | authorized
  | denied
  deriving DecidableEq, Repr

/-- The scope of a resolution. -/
structure ResolvedScope where
  projectIds : List String
  environments : List String
  effectiveFrom : Option ℕ
  effectiveUntil : Option ℕ
  deriving DecidableEq, Repr

/-- An `InstitutionalAuthorityResolution`. Both of its fingerprints are `fingerprint`, and its
lists of mandates are always empty. -/
structure AuthorityResolution where
  outcome : AuthorityOutcome
  principalId : String
  requiredRole : String
  projectId : String
  environment : String
  directGrantIds : List String
  delegationChain : List String
  scope : ResolvedScope
  reasons : List String
  fingerprint : String
  resolvedAt : ℕ
  deriving DecidableEq, Repr

/-- `a <= b` for strings, as `sort` without a comparison orders them. -/
def SortsUpTo (a b : String) : Prop := a ≤ b

instance : DecidableRel SortsUpTo := fun a b => inferInstanceAs (Decidable (a ≤ b))

/-- `[...ids].sort()`, as JSON. -/
def sortedIds (ids : List String) : Json := .array ((ids.insertionSort SortsUpTo).map .string)

/-- `computeAuthorityFingerprint`. -/
def computeAuthorityFingerprint (X : GovernanceExternal) (q : AuthorityQuestion)
    (directGrantIds delegationChain revocationIds holdIds : List String)
    (projectScope environmentScope : List String) : String :=
  X.sha256 (Json.object [
    ("principalId", .string q.principalId),
    ("role", .string q.requiredRole),
    ("projectId", .string q.projectId),
    ("environment", .string q.environment),
    ("directGrantIds", sortedIds directGrantIds),
    ("delegationChain", .array (delegationChain.map .string)),
    ("mandateIds", .array []),
    ("mandateHashes", .array []),
    ("revocationIds", sortedIds revocationIds),
    ("holdIds", sortedIds holdIds),
    ("projectScope", sortedIds projectScope),
    ("environmentScope", sortedIds environmentScope)]).stringify

namespace AuthorityStores

variable (s : AuthorityStores)

/-! ## Delegated authority -/

/-- One source grant: stored, enabled, in its window and not revoked. -/
def sourceGrantValid (at_ : ℕ) (grantId : String) : Bool :=
  match s.canonicalAuthority.getById grantId with
  | none => false
  | some g => g.enabled && grantInWindow g at_ && !s.revokedAt .directGrant grantId at_

/-- `sourceGrantsValid`; where it is `ok`, it names no revocations. -/
def sourceGrantsValid (grantIds : List String) (at_ : ℕ) : Bool :=
  !grantIds.isEmpty && grantIds.all (s.sourceGrantValid at_)

/-- A delegation of the chain is still valid: stored, `ACTIVE`, in its window, not revoked, and
its source grants are valid. -/
def chainMemberValid (at_ : ℕ) (delegationId : String) : Bool :=
  match s.delegations.getById delegationId with
  | none => false
  | some d => d.status = .active && inTimeWindow at_ d.effectiveFrom d.effectiveUntil &&
      !s.revokedAt .delegation delegationId at_ &&
      s.sourceGrantsValid d.sourceAuthorityGrantIds at_

/-- A candidate for the question: to the principal, `ACTIVE`, for the role, project,
environment, instant and action. -/
def isCandidate (q : AuthorityQuestion) (d : AuthorityDelegation) : Bool :=
  d.status = .active && d.authorityRole = q.requiredRole && d.projectScope.contains q.projectId &&
    d.environmentScope.contains q.environment &&
    inTimeWindow q.atIso d.effectiveFrom d.effectiveUntil &&
    -- an empty action scope allows every action
    (q.action.all fun action =>
      action = "" || d.actionScope.isEmpty || d.actionScope.contains action)

/-- The candidate's chain is valid: it is not revoked, its source grants are valid, and so is each
of its ancestors. -/
def chainValid (at_ : ℕ) (d : AuthorityDelegation) : Bool :=
  !s.revokedAt .delegation d.delegationId at_ &&
    s.sourceGrantsValid d.sourceAuthorityGrantIds at_ &&
    d.sourceDelegationIds.all (s.chainMemberValid at_)

/-- `findValidDelegationChain`: the leaf of the chain. -/
def findValidDelegationChain (q : AuthorityQuestion) : Option AuthorityDelegation :=
  ((s.listByDelegate q.principalId).filter (isCandidate q)).find? (s.chainValid q.atIso)

/-! ## Direct authority -/

/-- An active hold of the project that covers the question. -/
def blockingHold (q : AuthorityQuestion) : Option GovernanceHold :=
  (s.listActiveByProject q.projectId).find? fun h =>
    holdCovers h (some q.environment) (some q.requiredRole) none q.atIso

/-- The grant is for the question, whether it is revoked or not. -/
def matchesGrant (q : AuthorityQuestion) (g : CanonicalAuthorityGrant) : Bool :=
  g.enabled && g.authorityRole = q.requiredRole && g.projectId = q.projectId &&
    g.environmentScope.contains q.environment && grantInWindow g q.atIso

/-- `matchingGrants`, before they are sorted. -/
def matchingGrants (q : AuthorityQuestion) : List CanonicalAuthorityGrant :=
  (s.listByPrincipal q.principalId).filter fun g =>
    matchesGrant q g && !s.revokedAt .directGrant g.grantId q.atIso

/-- The revocations of the grants that are for the question but revoked. -/
def grantRevocationIds (q : AuthorityQuestion) : List String :=
  ((s.listByPrincipal q.principalId).filter fun g =>
    matchesGrant q g && s.revokedAt .directGrant g.grantId q.atIso).flatMap fun g =>
      (s.listByTarget .directGrant g.grantId).map (·.revocationId)

variable (X : GovernanceExternal)

/-- `matchingGrants.sort((a, b) => a.grantId.localeCompare(b.grantId))`. -/
def sortGrants (grants : List CanonicalAuthorityGrant) : List CanonicalAuthorityGrant :=
  grants.insertionSort fun a b => X.localeLe a.grantId b.grantId = true

/-- `deniedResolution`. -/
def deniedResolution (q : AuthorityQuestion) (holdIds revocationIds reasons : List String) :
    AuthorityResolution where
  outcome := .denied
  principalId := q.principalId
  requiredRole := q.requiredRole
  projectId := q.projectId
  environment := q.environment
  directGrantIds := []
  delegationChain := []
  scope := ⟨[q.projectId], [q.environment], none, none⟩
  reasons := reasons
  fingerprint := computeAuthorityFingerprint X q [] [] revocationIds holdIds [q.projectId]
    [q.environment]
  resolvedAt := q.atIso

/-- The resolution by canonical grants, sorted by their ids. -/
def directResolution (q : AuthorityQuestion) (revocationIds : List String)
    (grants : List CanonicalAuthorityGrant) : AuthorityResolution :=
  let projectIds := (grants.map (·.projectId)).eraseDups
  let environments := (grants.flatMap (·.environmentScope)).eraseDups
  { outcome := .authorized
    principalId := q.principalId
    requiredRole := q.requiredRole
    projectId := q.projectId
    environment := q.environment
    directGrantIds := grants.map (·.grantId)
    delegationChain := []
    scope :=
      { projectIds := projectIds
        environments := environments
        effectiveFrom := (grants.filterMap (·.effectiveFrom)).max?
        effectiveUntil := (grants.filterMap (·.effectiveUntil)).min? }
    reasons := ["Direct canonical authority grant"]
    fingerprint := computeAuthorityFingerprint X q (grants.map (·.grantId)) [] revocationIds []
      projectIds environments
    resolvedAt := q.atIso }

/-- The chain that ends in a delegation. -/
def chainOf (d : AuthorityDelegation) : List String := d.sourceDelegationIds ++ [d.delegationId]

/-- The resolution by the delegation at the end of a valid chain. -/
def delegatedResolution (q : AuthorityQuestion) (d : AuthorityDelegation) : AuthorityResolution where
  outcome := .authorized
  principalId := q.principalId
  requiredRole := q.requiredRole
  projectId := q.projectId
  environment := q.environment
  directGrantIds := d.sourceAuthorityGrantIds
  delegationChain := chainOf d
  scope := ⟨d.projectScope, d.environmentScope, none, none⟩
  reasons := ["Valid delegated authority"]
  fingerprint := computeAuthorityFingerprint X q d.sourceAuthorityGrantIds (chainOf d) [] []
    d.projectScope d.environmentScope
  resolvedAt := q.atIso

/-- `resolveAuthority`. -/
def resolveAuthority (q : AuthorityQuestion) : AuthorityResolution :=
  match s.blockingHold q with
  | some hold =>
    deniedResolution X q [hold.holdId] [] ["Active hold " ++ hold.holdId ++ ": " ++ hold.reason]
  | none =>
    match s.matchingGrants q with
    | g :: gs => directResolution X q (s.grantRevocationIds q) (sortGrants X (g :: gs))
    | [] =>
      match s.findValidDelegationChain q with
      | some d => delegatedResolution X q d
      | none =>
        deniedResolution X q [] (s.grantRevocationIds q)
          ["No matching direct grant or valid delegation"]

/-! ## What an authorized resolution rests on -/

variable {s X} {q : AuthorityQuestion}

theorem mem_sortGrants {grants : List CanonicalAuthorityGrant} {g : CanonicalAuthorityGrant} :
    g ∈ sortGrants X grants ↔ g ∈ grants := List.mem_insertionSort _

/-- An authorized resolution rests on canonical grants, or on a delegation. -/
theorem resolveAuthority_cases (h : (s.resolveAuthority X q).outcome = .authorized) :
    s.blockingHold q = none ∧
      ((s.matchingGrants q ≠ [] ∧ s.resolveAuthority X q =
          directResolution X q (s.grantRevocationIds q) (sortGrants X (s.matchingGrants q))) ∨
        (s.matchingGrants q = [] ∧ ∃ d, s.findValidDelegationChain q = some d ∧
          s.resolveAuthority X q = delegatedResolution X q d)) := by
  unfold resolveAuthority at h ⊢
  cases hhold : s.blockingHold q with
  | some hold =>
    rw [hhold] at h
    exact absurd h (by simp [deniedResolution])
  | none =>
    refine ⟨rfl, ?_⟩
    rw [hhold] at h
    cases hgrants : s.matchingGrants q with
    | cons g gs => exact .inl ⟨List.cons_ne_nil g gs, rfl⟩
    | nil =>
      refine .inr ⟨rfl, ?_⟩
      rw [hgrants] at h
      cases hd : s.findValidDelegationChain q with
      | some d => exact ⟨d, rfl, rfl⟩
      | none =>
        rw [hd] at h
        exact absurd h (by simp [deniedResolution])

/-- A resolution is about the principal that was asked about. -/
theorem resolveAuthority_principalId (s : AuthorityStores) (q : AuthorityQuestion) :
    (s.resolveAuthority X q).principalId = q.principalId := by
  unfold resolveAuthority
  cases s.blockingHold q with
  | some hold => rfl
  | none =>
    cases s.matchingGrants q with
    | cons g gs => rfl
    | nil => cases s.findValidDelegationChain q <;> rfl

/-- A question is authorized exactly when no hold blocks it, and a grant matches or a valid chain
ends in a candidate. -/
theorem resolveAuthority_authorized : (s.resolveAuthority X q).outcome = .authorized ↔
    s.blockingHold q = none ∧
      (s.matchingGrants q ≠ [] ∨ (s.findValidDelegationChain q).isSome = true) := by
  constructor
  · intro h
    obtain ⟨hhold, ⟨hgrants, -⟩ | ⟨-, d, hd, -⟩⟩ := resolveAuthority_cases h
    · exact ⟨hhold, .inl hgrants⟩
    · exact ⟨hhold, .inr (by rw [hd]; rfl)⟩
  · rintro ⟨hhold, h⟩
    unfold resolveAuthority
    rw [hhold]
    cases hgrants : s.matchingGrants q with
    | cons g gs => rfl
    | nil =>
      obtain ⟨d, hd⟩ := Option.isSome_iff_exists.mp (h.resolve_left fun hne => hne hgrants)
      rw [hd]
      rfl

/-- A matching grant: the principal's, for the question, enabled and not revoked. -/
theorem mem_matchingGrants {g : CanonicalAuthorityGrant} : g ∈ s.matchingGrants q ↔
    s.canonicalAuthority.getById g.grantId = some g ∧ g.principalId = q.principalId ∧
      matchesGrant q g = true ∧ s.revokedAt .directGrant g.grantId q.atIso = false := by
  simp only [matchingGrants, listByPrincipal, List.mem_filter, Repository.mem_list, Bool.and_eq_true,
    decide_eq_true_eq, Bool.not_eq_true']
  constructor
  · rintro ⟨⟨hstored, hprincipal, -⟩, hmatches, hrevoked⟩
    exact ⟨hstored, hprincipal, hmatches, hrevoked⟩
  · rintro ⟨hstored, hprincipal, hmatches, hrevoked⟩
    refine ⟨⟨hstored, hprincipal, ?_⟩, hmatches, hrevoked⟩
    simp only [matchesGrant, Bool.and_eq_true] at hmatches
    exact hmatches.1.1.1.1

/-- The leaf that is found is stored, to the principal, and its chain is valid. -/
theorem findValidDelegationChain_some {d : AuthorityDelegation}
    (h : s.findValidDelegationChain q = some d) :
    s.delegations.getById d.delegationId = some d ∧ d.delegatePrincipalId = q.principalId ∧
      isCandidate q d = true ∧ s.chainValid q.atIso d = true := by
  have hvalid := List.find?_some h
  have hmem := List.mem_of_find?_eq_some h
  simp only [listByDelegate, List.mem_filter, Repository.mem_list, decide_eq_true_eq] at hmem
  exact ⟨hmem.1.1, hmem.1.2, hmem.2, hvalid⟩

/-- A valid chain that ends in a candidate is enough to find one. -/
theorem findValidDelegationChain_isSome {d : AuthorityDelegation}
    (hstored : s.delegations.getById d.delegationId = some d) (hto : d.delegatePrincipalId = q.principalId)
    (hcandidate : isCandidate q d = true) (hvalid : s.chainValid q.atIso d = true) :
    (s.findValidDelegationChain q).isSome = true := by
  rw [findValidDelegationChain, List.find?_isSome]
  refine ⟨d, ?_, hvalid⟩
  simp only [listByDelegate, List.mem_filter, Repository.mem_list, decide_eq_true_eq]
  exact ⟨⟨hstored, hto⟩, hcandidate⟩

/-- No hold blocks the question exactly when no active hold of the project covers it. -/
theorem blockingHold_eq_none : s.blockingHold q = none ↔
    ∀ h ∈ s.listActiveByProject q.projectId,
      holdCovers h (some q.environment) (some q.requiredRole) none q.atIso = false := by
  simp [blockingHold, List.find?_eq_none]

end AuthorityStores

end Orchestrator
