import Orchestrator.Governance.Case

/-!
# Freshness of snapshots, and validity of proofs

* `validateAuthoritySnapshotFreshness`: is what a snapshot was taken of still there;
* `validateProof`, with `countedAttestations`, the attestations that it counts;
* `AuthorityBasis`: the grants and the chain of delegations that a resolution, a delegation or a
  snapshot rests on, and `AuthorityStores.Holds`, that all of them are in force;
* `resolveAuthority_holds`, `fresh_holds`: what is authorized, and what is fresh, rests on authority
  in force.

As in the resolution of authority, the functions take the stores as they are.
-/

namespace Orchestrator

open Collections GovernanceService

/-! ## Freshness -/

/-- What `validateAuthoritySnapshotFreshness` is given. -/
structure FreshnessInput where
  authoritySnapshotId : String
  authoritySnapshotHash : Option String
  projectId : Option String
  environment : Option String
  requiredRole : Option String
  atIso : ℕ
  deriving DecidableEq, Repr

/-- What it answers. -/
inductive Freshness where
  | fresh (snapshot : AuthoritySnapshot)
  | stale (reasons : List String)
  deriving DecidableEq, Repr

/-- A string that is looked at: there, and not empty. -/
def truthy (s : Option String) : Option String := s.filter (· ≠ "")

namespace AuthorityStores

variable (s : AuthorityStores)

/-- Why a grant of the snapshot is stale. -/
def grantStale (input : FreshnessInput) (snapshot : AuthoritySnapshot) (grantId : String) :
    Option String :=
  let because := fun reason : String => some ("Canonical grant " ++ grantId ++ " " ++ reason)
  match s.canonicalAuthority.getById grantId with
  | none => because "not found or disabled"
  | some g =>
    if !g.enabled then because "not found or disabled"
    else if g.principalId ≠ snapshot.principalId then because "principal mismatch"
    else if g.authorityRole ≠ snapshot.role then because "role mismatch"
    else if (truthy input.projectId).any (g.projectId ≠ ·) then because "project mismatch"
    else if (truthy input.environment).any (!g.environmentScope.contains ·) then
      because "environment mismatch"
    else if g.effectiveFrom.any (!inTimeWindow input.atIso · g.effectiveUntil) then
      because "outside effective window"
    else if g.effectiveFrom = none && g.effectiveUntil.any (· < input.atIso) then
      because "expired"
    else if s.revokedAt .directGrant grantId input.atIso then because "revoked"
    else none

/-- Why a delegation of the snapshot's chain is stale. -/
def delegationStale (at_ : ℕ) (delegationId : String) : Option String :=
  let because := fun reason : String => some ("Delegation " ++ delegationId ++ " " ++ reason)
  match s.delegations.getById delegationId with
  | none => because "not ACTIVE"
  | some d =>
    if d.status ≠ .active then because "not ACTIVE"
    else if !inTimeWindow at_ d.effectiveFrom d.effectiveUntil then
      because "outside effective window"
    else if s.revokedAt .delegation delegationId at_ then because "revoked"
    else if !s.sourceGrantsValid d.sourceAuthorityGrantIds at_ then
      some ("Source grant in delegation chain " ++ delegationId ++ " revoked or invalid")
    else none

/-- Why the last delegation of the chain is not the snapshot's. -/
def leafStale (snapshot : AuthoritySnapshot) : Option String :=
  let leafId := snapshot.delegationChain.getLastD ""
  let mismatch := some ("Leaf delegation " ++ leafId ++ " delegate/role mismatch")
  match s.delegations.getById leafId with
  | none => mismatch
  | some leaf =>
    if leaf.delegatePrincipalId ≠ snapshot.principalId ∨ leaf.authorityRole ≠ snapshot.role then
      mismatch
    else none

/-- Why what the snapshot rests on is stale. -/
def basisStale (input : FreshnessInput) (snapshot : AuthoritySnapshot) : Option String :=
  if snapshot.directGrantIds ≠ [] ∧ snapshot.delegationChain = [] then
    snapshot.directGrantIds.findSome? (s.grantStale input snapshot)
  else if snapshot.delegationChain ≠ [] then
    (snapshot.delegationChain.findSome? (s.delegationStale input.atIso)).or (s.leafStale snapshot)
  else some "No direct grants or delegation chain in snapshot"

/-- An active hold of the snapshot's project that covers its role. -/
def snapshotHold (input : FreshnessInput) (snapshot : AuthoritySnapshot) :
    Option GovernanceHold :=
  (s.listActiveByProject snapshot.projectId).find? fun h =>
    holdCovers h (truthy input.environment) (some snapshot.role) none input.atIso

/-- Why a snapshot is stale. -/
def snapshotStale (X : GovernanceExternal) (input : FreshnessInput)
    (snapshot : AuthoritySnapshot) : Option String :=
  let named := "Authority snapshot " ++ input.authoritySnapshotId
  if snapshot.snapshotHash ≠ computeSnapshotHash X snapshot then some (named ++ " hash mismatch")
  else if input.authoritySnapshotHash.any (· ≠ snapshot.snapshotHash) then
    some (named ++ " expected hash mismatch")
  else if (truthy input.requiredRole).any (snapshot.role ≠ ·) then
    some ("Snapshot role " ++ snapshot.role ++ " does not match required role " ++
      input.requiredRole.getD "")
  else if (truthy input.projectId).any (!snapshot.resolvedProjectIds.contains ·) then
    some ("Snapshot project scope does not include project " ++ input.projectId.getD "")
  else if (truthy input.environment).any (!snapshot.resolvedEnvironments.contains ·) then
    some ("Snapshot environment scope does not include environment " ++
      input.environment.getD "")
  else
    match s.snapshotHold input snapshot with
    | some hold => some ("Active hold " ++ hold.holdId ++ " blocks authority snapshot")
    | none => s.basisStale input snapshot

end AuthorityStores

namespace GovernanceWorld

variable (X : GovernanceExternal) (w : GovernanceWorld)

/-- `validateAuthoritySnapshotFreshness`. -/
def validateAuthoritySnapshotFreshness (input : FreshnessInput) : Freshness :=
  match w.snapshots.getById input.authoritySnapshotId with
  | none => .stale ["Authority snapshot " ++ input.authoritySnapshotId ++ " not found"]
  | some snapshot =>
    match w.authority.snapshotStale X input snapshot with
    | some reason => .stale [reason]
    | none => .fresh snapshot

/-! ## Proofs -/

/-- What `validateProof` is given. -/
structure ProofInput where
  proofId : String
  subjectType : String
  subjectId : String
  subjectHash : String
  subjectVersion : Option ℕ
  requiredRole : String
  action : Option String
  projectId : String
  environment : String
  atIso : ℕ
  deriving DecidableEq, Repr

/-- Two values that are both there, and differ. -/
def differ {α : Type} [DecidableEq α] (a b : Option α) : Bool :=
  a.any fun x => b.any fun y => x ≠ y

/-- `assertProofSubjectBinding`. -/
def assertProofSubjectBinding (proof : AuthorizationProof) (input : ProofInput) :
    Except GovernanceFailure Unit :=
  let mismatch := fun detail : String =>
    .error (.governance .governanceProofSubjectMismatch detail)
  if proof.subjectType ≠ input.subjectType then mismatch "Proof subjectType mismatch"
  else if proof.subjectId ≠ input.subjectId then mismatch "Proof subjectId mismatch"
  else if proof.subjectHash ≠ input.subjectHash then mismatch "Proof subjectHash mismatch"
  else if differ input.subjectVersion proof.subjectVersion then
    mismatch "Proof subjectVersion mismatch"
  else if !proof.projectScope.contains input.projectId then
    mismatch "Proof project scope mismatch"
  else if !proof.environmentScope.contains input.environment then
    mismatch "Proof environment scope mismatch"
  else .ok ()

/-- `GOVERNANCE_PROOF_STALE`. -/
def proofStale {α : Type} (message : String) : Except GovernanceFailure α :=
  .error (.governance .governanceProofStale message)

/-- One mandate of the proof: `ACTIVE`, with the hash that the proof has of it, in its window. -/
def assertMandateFresh (at_ : ℕ) (mandateId : String) (expectedHash : Option String) :
    Except GovernanceFailure Unit :=
  match w.mandates.getById mandateId with
  | none => proofStale ("Mandate " ++ mandateId ++ " no longer ACTIVE for proof")
  | some mandate =>
    if mandate.status ≠ .active then
      proofStale ("Mandate " ++ mandateId ++ " no longer ACTIVE for proof")
    else if expectedHash.any (mandate.mandateHash ≠ ·) then
      proofStale ("Mandate " ++ mandateId ++ " version/hash drift — proof stale")
    else if !inTimeWindow at_ mandate.effectiveFrom mandate.effectiveUntil then
      proofStale ("Mandate " ++ mandateId ++ " outside effective window")
    else .ok ()

/-- `assertMandatesFreshForProof`. -/
def assertMandatesFreshForProof (proof : AuthorizationProof) (at_ : ℕ) :
    Except GovernanceFailure Unit :=
  proof.mandateIds.zipIdx.forM fun (mandateId, i) =>
    w.assertMandateFresh at_ mandateId proof.mandateHashes[i]?

/-- An attestation of a proof, with the snapshot that it is counted on. -/
structure CountedAttestation where
  attestation : GovernanceAttestation
  snapshot : AuthoritySnapshot
  deriving DecidableEq, Repr

/-- The attestation at one position of the proof, if it counts. -/
def countAttestation (proof : AuthorizationProof) (input : ProofInput) (attestationId : String)
    (i : ℕ) : Except GovernanceFailure (Option CountedAttestation) :=
  match (w.attestations.listByCase proof.governanceCaseId).find?
      fun a => a.attestationId = attestationId with
  | none => proofStale ("Proof attestation " ++ attestationId ++ " missing or not APPROVE")
  | some att =>
    if att.decision ≠ .approve then
      proofStale ("Proof attestation " ++ attestationId ++ " missing or not APPROVE")
    else if proof.attestationHashes[i]?.any (att.attestationHash ≠ ·) then
      proofStale ("Proof attestation " ++ attestationId ++ " hash drift")
    else
      match w.validateAuthoritySnapshotFreshness X
        { authoritySnapshotId := proof.authoritySnapshotIds[i]?.getD att.authoritySnapshotId
          authoritySnapshotHash :=
            some (proof.authoritySnapshotHashes[i]?.getD att.authoritySnapshotHash)
          projectId := some input.projectId
          environment := some input.environment
          requiredRole := some att.authorityRole
          atIso := input.atIso } with
      | .fresh snapshot => .ok (some ⟨att, snapshot⟩)
      | .stale _ => .ok none

/-- The attestations of the proof that count. -/
def countedAttestations (proof : AuthorizationProof) (input : ProofInput) :
    Except GovernanceFailure (List CountedAttestation) := do
  let counted ← proof.attestationIds.zipIdx.mapM fun (attestationId, i) =>
    w.countAttestation X proof input attestationId i
  pure (counted.filterMap id)

/-- `requireCase`, of the stores as they are. -/
def requireCase (governanceCaseId : String) : Except GovernanceFailure GovernanceCase :=
  match w.cases.getById governanceCaseId with
  | none =>
    .error (.governance .governanceCaseNotFound s!"Governance case {governanceCaseId} not found")
  | some c => .ok c

/-- The proof is there, neither stale nor revoked. -/
def requireProof (proofId : String) : Except GovernanceFailure AuthorizationProof :=
  match w.proofs.byId.getById proofId with
  | none => .error (.governance .governanceProofNotFound s!"Proof {proofId} not found")
  | some proof =>
    if proof.status = .revoked ∨ proof.status = .stale then
      proofStale ("Proof " ++ proofId ++ " is " ++ proof.status.text)
    else if w.authority.listByTarget .institutionalProof
        proof.institutionalAuthorizationProofId ≠ [] then
      proofStale ("Proof " ++ proofId ++ " has been revoked")
    else .ok proof

/-- The outcome's name in the source. -/
def outcomeText : QuorumOutcome → String
  | .pending => "PENDING"
  | .satisfied => "SATISFIED"
  | .blocked => "BLOCKED"

/-- `validateProof`. -/
def validateProof (input : ProofInput) : Except GovernanceFailure AuthorizationProof := do
  let proof ← w.requireProof input.proofId
  assertProofSubjectBinding proof input
  let governanceCase ← w.requireCase proof.governanceCaseId
  if governanceCase.requiredRole ≠ input.requiredRole then
    throw (.governance .governanceProofSubjectMismatch "Proof requiredRole mismatch")
  if differ input.action governanceCase.action then
    throw (.governance .governanceProofSubjectMismatch "Proof action mismatch")
  if proof.expiresAt < input.atIso then
    throw (.governance .governanceProofExpired s!"Proof {input.proofId} expired")
  w.assertMandatesFreshForProof proof input.atIso
  -- no role is given: a hold on any role covers
  assertNoneCovers (w.authority.listActiveByProject input.projectId) input.environment ""
    input.atIso
  let counted ← w.countedAttestations X proof input
  let quorum := evaluateGovernanceQuorum governanceCase.quorumRequirement
    (counted.map fun c => contribution c.attestation)
  if quorum.outcome ≠ .satisfied then
    proofStale ("Proof quorum no longer SATISFIED (now " ++ outcomeText quorum.outcome ++
      ") — attestor authority loss or drift")
  else pure proof

end GovernanceWorld

/-! ## What authority rests on -/

/-- The canonical grants and the chain of delegations that authority rests on. -/
structure AuthorityBasis where
  grantIds : List String
  chain : List String
  deriving DecidableEq, Repr

/-- The basis of a resolution. -/
def AuthorityResolution.basis (r : AuthorityResolution) : AuthorityBasis :=
  ⟨r.directGrantIds, r.delegationChain⟩

/-- The basis of a snapshot. -/
def AuthoritySnapshot.basis (s : AuthoritySnapshot) : AuthorityBasis :=
  ⟨s.directGrantIds, s.delegationChain⟩

/-- The basis of what a delegation passes on. -/
def AuthorityDelegation.basis (d : AuthorityDelegation) : AuthorityBasis :=
  ⟨d.sourceAuthorityGrantIds, AuthorityStores.chainOf d⟩

namespace AuthorityStores

variable {X : GovernanceExternal} {s : AuthorityStores} {t : ℕ}

/-- A delegation in force: stored, `ACTIVE`, in its window, and not revoked. -/
def delegationHolds (s : AuthorityStores) (t : ℕ) (delegationId : String) : Bool :=
  match s.delegations.getById delegationId with
  | none => false
  | some d => d.status = .active && inTimeWindow t d.effectiveFrom d.effectiveUntil &&
      !s.revokedAt .delegation delegationId t

/-- Everything that a basis names is in force: no grant is missing, disabled, outside its window or
revoked, and no delegation is missing, not `ACTIVE`, outside its window or revoked. -/
structure Holds (s : AuthorityStores) (t : ℕ) (b : AuthorityBasis) : Prop where
  grants : ∀ id ∈ b.grantIds, s.sourceGrantValid t id = true
  chain : ∀ id ∈ b.chain, s.delegationHolds t id = true

instance (s : AuthorityStores) (t : ℕ) (b : AuthorityBasis) : Decidable (s.Holds t b) :=
  decidable_of_iff ((∀ id ∈ b.grantIds, s.sourceGrantValid t id = true) ∧
    ∀ id ∈ b.chain, s.delegationHolds t id = true) ⟨fun h => ⟨h.1, h.2⟩, fun h => ⟨h.1, h.2⟩⟩

theorem delegationHolds_iff {id : String} : s.delegationHolds t id = true ↔
    ∃ d, s.delegations.getById id = some d ∧ d.status = .active ∧
      inTimeWindow t d.effectiveFrom d.effectiveUntil = true ∧
      s.revokedAt .delegation id t = false := by
  unfold delegationHolds
  cases s.delegations.getById id with
  | none => simp
  | some d => simp [and_assoc]

theorem delegationHolds_of_member {id : String} (h : s.chainMemberValid t id = true) :
    s.delegationHolds t id = true := by
  unfold chainMemberValid at h
  unfold delegationHolds
  cases hd : s.delegations.getById id with
  | none =>
    rw [hd] at h
    cases h
  | some d =>
    rw [hd] at h
    simp only [Bool.and_eq_true] at h ⊢
    exact h.1

/-- What is authorized rests on authority in force. -/
theorem resolveAuthority_holds {q : AuthorityQuestion}
    (h : (s.resolveAuthority X q).outcome = .authorized) :
    s.Holds q.atIso (s.resolveAuthority X q).basis := by
  obtain ⟨-, ⟨-, hres⟩ | ⟨-, d, hd, hres⟩⟩ := resolveAuthority_cases h
  · rw [hres]
    refine ⟨fun id hid => ?_, fun _ h => nomatch h⟩
    obtain ⟨g, hg, rfl⟩ := List.mem_map.mp hid
    obtain ⟨hstored, -, hmatches, hrevoked⟩ := mem_matchingGrants.mp (mem_sortGrants.mp hg)
    simp only [matchesGrant, Bool.and_eq_true] at hmatches
    unfold sourceGrantValid
    rw [hstored]
    simp [hmatches.1.1.1.1, hmatches.2, hrevoked]
  · rw [hres]
    obtain ⟨hstored, -, hcandidate, hvalid⟩ := findValidDelegationChain_some hd
    simp only [chainValid, Bool.and_eq_true, sourceGrantsValid, List.all_eq_true] at hvalid
    simp only [isCandidate, Bool.and_eq_true, decide_eq_true_eq] at hcandidate
    refine ⟨hvalid.1.2.2, fun id hid => ?_⟩
    rcases List.mem_append.mp hid with hancestor | hleaf
    · exact delegationHolds_of_member (hvalid.2 id hancestor)
    · obtain rfl := List.mem_singleton.mp hleaf
      refine delegationHolds_iff.mpr ⟨d, hstored, hcandidate.1.1.1.1.1, hcandidate.1.2, ?_⟩
      simpa using hvalid.1.1

/-! ## What is fresh -/

variable {input : FreshnessInput} {snapshot : AuthoritySnapshot}

/-- A grant of a fresh snapshot: the principal's, for the role, project and environment that are
given, and in force. -/
theorem grantStale_eq_none {id : String} (h : s.grantStale input snapshot id = none) :
    ∃ g, s.canonicalAuthority.getById id = some g ∧ g.principalId = snapshot.principalId ∧
      g.authorityRole = snapshot.role ∧ (∀ p ∈ truthy input.projectId, g.projectId = p) ∧
      (∀ e ∈ truthy input.environment, e ∈ g.environmentScope) ∧ g.enabled = true ∧
      grantInWindow g input.atIso = true ∧
      s.revokedAt .directGrant id input.atIso = false := by
  unfold grantStale at h
  cases hg : s.canonicalAuthority.getById id with
  | none =>
    rw [hg] at h
    cases h
  | some g =>
    rw [hg] at h
    dsimp only at h
    split_ifs at h with henabled hprincipal hrole hproject henvironment hwindow hexpired hrevoked
    simp only [Option.any_eq_true, not_exists, not_and, decide_eq_true_eq, not_not,
      Bool.not_eq_true', Bool.not_eq_false, ne_eq, List.contains_eq_mem] at *
    refine ⟨g, rfl, hprincipal, hrole, hproject, henvironment, henabled, ?_, ?_⟩
    · unfold grantInWindow
      cases hfrom : g.effectiveFrom with
      | some from_ => exact hwindow from_ hfrom
      | none =>
        simp only [hfrom, decide_true, Bool.true_and, Option.any_eq_true, not_exists, not_and,
          decide_eq_true_eq, Nat.not_lt] at hexpired
        simpa [Option.all_eq_true] using hexpired
    · simpa using hrevoked

/-- A delegation of a fresh snapshot's chain is one of a valid chain. -/
theorem delegationStale_eq_none {id : String} :
    s.delegationStale t id = none ↔ s.chainMemberValid t id = true := by
  unfold delegationStale chainMemberValid
  cases s.delegations.getById id with
  | none => simp
  | some d =>
    dsimp only
    split_ifs <;> simp_all

theorem ite_some_eq_none {α : Type} {c : Prop} [Decidable c] {a : α} {b : Option α} :
    (if c then some a else b) = none ↔ ¬c ∧ b = none := by
  split_ifs with h <;> simp [h]

/-- What the snapshot rests on is fresh: its grants, or every delegation of its chain and who holds
the last. -/
theorem basisStale_eq_none : s.basisStale input snapshot = none ↔
    (snapshot.directGrantIds ≠ [] ∧ snapshot.delegationChain = [] ∧
      ∀ id ∈ snapshot.directGrantIds, s.grantStale input snapshot id = none) ∨
    (snapshot.delegationChain ≠ [] ∧
      (∀ id ∈ snapshot.delegationChain, s.chainMemberValid input.atIso id = true) ∧
      ∃ leaf, s.delegations.getById (snapshot.delegationChain.getLastD "") = some leaf ∧
        leaf.delegatePrincipalId = snapshot.principalId ∧ leaf.authorityRole = snapshot.role) := by
  have hleaf : s.leafStale snapshot = none ↔
      ∃ leaf, s.delegations.getById (snapshot.delegationChain.getLastD "") = some leaf ∧
        leaf.delegatePrincipalId = snapshot.principalId ∧ leaf.authorityRole = snapshot.role := by
    unfold leafStale
    dsimp only
    cases s.delegations.getById (snapshot.delegationChain.getLastD "") with
    | none => simp
    | some leaf => simp [not_or]
  unfold basisStale
  by_cases hchain : snapshot.delegationChain = []
  · by_cases hgrants : snapshot.directGrantIds = []
    · simp [hchain, hgrants]
    · simp [hchain, hgrants, List.findSome?_eq_none_iff]
  · simp only [hchain, and_false, if_false, false_and, ne_eq, not_false_eq_true, if_true,
      Option.or_eq_none_iff, List.findSome?_eq_none_iff, delegationStale_eq_none, hleaf, false_or,
      true_and]

/-- A fresh snapshot, check by check. -/
theorem snapshotStale_eq_none : s.snapshotStale X input snapshot = none ↔
    snapshot.snapshotHash = computeSnapshotHash X snapshot ∧
      (∀ h ∈ input.authoritySnapshotHash, h = snapshot.snapshotHash) ∧
      (∀ role ∈ truthy input.requiredRole, snapshot.role = role) ∧
      (∀ p ∈ truthy input.projectId, p ∈ snapshot.resolvedProjectIds) ∧
      (∀ e ∈ truthy input.environment, e ∈ snapshot.resolvedEnvironments) ∧
      s.snapshotHold input snapshot = none ∧ s.basisStale input snapshot = none := by
  unfold snapshotStale
  simp only [ite_some_eq_none, ne_eq, not_not, Option.any_eq_true, not_exists, not_and,
    decide_eq_true_eq, Bool.not_eq_true', List.contains_eq_mem, decide_eq_false_iff_not]
  cases s.snapshotHold input snapshot <;> simp

end AuthorityStores

namespace GovernanceWorld

variable {X : GovernanceExternal} {w : GovernanceWorld} {input : FreshnessInput}
  {snapshot : AuthoritySnapshot}

theorem validateAuthoritySnapshotFreshness_fresh :
    w.validateAuthoritySnapshotFreshness X input = .fresh snapshot ↔
      w.snapshots.getById input.authoritySnapshotId = some snapshot ∧
        w.authority.snapshotStale X input snapshot = none := by
  unfold validateAuthoritySnapshotFreshness
  cases w.snapshots.getById input.authoritySnapshotId with
  | none => simp
  | some stored =>
    dsimp only
    cases hstale : w.authority.snapshotStale X input stored with
    | none =>
      simp only [Freshness.fresh.injEq, Option.some.injEq]
      constructor
      · rintro rfl
        exact ⟨rfl, hstale⟩
      · exact fun h => h.1
    | some reason =>
      simp only [reduceCtorEq, Option.some.injEq, false_iff, not_and]
      rintro rfl
      rw [hstale]
      exact Option.some_ne_none reason

/-- Where the last delegation of its chain still names the grants that it named, a fresh snapshot
rests on authority in force. -/
theorem fresh_holds (h : w.validateAuthoritySnapshotFreshness X input = .fresh snapshot)
    (hkept : ∀ leaf, w.authority.delegations.getById (snapshot.delegationChain.getLastD "") =
      some leaf → snapshot.delegationChain ≠ [] →
      leaf.sourceAuthorityGrantIds = snapshot.directGrantIds) :
    w.authority.Holds input.atIso snapshot.basis := by
  obtain ⟨-, hstale⟩ := validateAuthoritySnapshotFreshness_fresh.mp h
  have hbasis := (AuthorityStores.snapshotStale_eq_none.mp hstale).2.2.2.2.2.2
  rcases AuthorityStores.basisStale_eq_none.mp hbasis with ⟨-, hchain, hgrants⟩ |
    ⟨hchain, hmembers, leaf, hleaf, -, -⟩
  · refine ⟨fun id hid => ?_, fun id hid => ?_⟩
    · obtain ⟨g, hg, -, -, -, -, henabled, hwindow, hrevoked⟩ :=
        AuthorityStores.grantStale_eq_none (hgrants id hid)
      unfold AuthorityStores.sourceGrantValid
      rw [hg]
      simp [henabled, hwindow, hrevoked]
    · rw [show snapshot.basis.chain = [] from hchain] at hid
      cases hid
  · refine ⟨fun id hid => ?_, fun id hid => AuthorityStores.delegationHolds_of_member (hmembers id hid)⟩
    have hlast : snapshot.delegationChain.getLastD "" ∈ snapshot.delegationChain := by
      rw [List.getLastD_eq_getLast?, List.getLast?_eq_some_getLast hchain]
      exact List.getLast_mem hchain
    have hvalid := hmembers _ hlast
    unfold AuthorityStores.chainMemberValid at hvalid
    rw [hleaf] at hvalid
    simp only [Bool.and_eq_true, AuthorityStores.sourceGrantsValid, List.all_eq_true] at hvalid
    exact hvalid.2.2 id ((hkept leaf hleaf hchain) ▸ hid)

end GovernanceWorld

end Orchestrator
