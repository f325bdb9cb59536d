import Orchestrator.Governance.World
import Orchestrator.Graph.DepthFirst

/-!
# Delegation and revocation

* `assertDelegationAttenuation`, `assertNoDelegationCycle`, `assertDelegationDepth`: the checks of
  a proposed delegation;
* `resolveDelegatorScope`: what the delegator may pass on;
* `createDelegation`, with `createDelegation_ok`, what an accepted delegation is;
* `revokeTarget`.
-/

namespace Orchestrator

open Collections

/-! ## Attenuation -/

/-- The fields of a proposed delegation that attenuation compares. -/
structure ProposedScope where
  projectScope : List String
  environmentScope : List String
  authorityRole : String
  effectiveFrom : ℕ
  effectiveUntil : ℕ
  maximumRisk : Option RiskLevel
  maximumResourceEnvelope : ResourceEnvelope
  actionScope : List String
  deriving DecidableEq, Repr

/-- A `DelegatorEffectiveScope`. -/
structure DelegatorEffectiveScope where
  projectScope : List String
  environmentScope : List String
  authorityRole : String
  effectiveFrom : Option ℕ
  effectiveUntil : Option ℕ
  maximumRisk : Option RiskLevel
  maximumResourceEnvelope : ResourceEnvelope
  actionScope : List String
  sourceAuthorityGrantIds : List String
  sourceDelegationIds : List String
  delegationDepth : ℕ
  deriving DecidableEq, Repr

/-- The properties that every JavaScript object inherits. -/
def inheritedProperties : List String :=
  ["constructor", "__defineGetter__", "__defineSetter__", "hasOwnProperty", "__lookupGetter__",
    "__lookupSetter__", "isPrototypeOf", "propertyIsEnumerable", "toString", "valueOf",
    "toLocaleString", "__proto__"]

/-- `envelopeContained`: no comparison with an inherited property fails. -/
def envelopeContained (inner outer : ResourceEnvelope) : Bool :=
  inner.all fun e =>
    match lookupEntry e.1 outer with
    | some max => e.2 ≤ max
    | none => inheritedProperties.contains e.1

/-- `DELEGATION_SCOPE_EXPANSION`. -/
def scopeExpansion (message : String) : Except GovernanceFailure Unit :=
  .error (.governance .delegationScopeExpansion message)

/-- The proposed risk exceeds the delegator's; a risk that is absent is not compared. -/
def riskExceeds (proposed delegator : Option RiskLevel) : Bool :=
  match proposed, delegator with
  | some risk, some max => max.rank < risk.rank
  | _, _ => false

/-- `assertDelegationAttenuation`. -/
def assertDelegationAttenuation (proposed : ProposedScope) (delegator : DelegatorEffectiveScope) :
    Except GovernanceFailure Unit :=
  if !isSubset proposed.projectScope delegator.projectScope then
    scopeExpansion "Delegate projectScope is not ⊆ delegator.projectScope"
  else if !isSubset proposed.environmentScope delegator.environmentScope then
    scopeExpansion "Delegate environmentScope is not ⊆ delegator.environmentScope"
  else if proposed.authorityRole ≠ delegator.authorityRole then
    scopeExpansion "Delegate role must equal permitted delegated role"
  else if !((delegator.effectiveFrom.all fun from_ => from_ ≤ proposed.effectiveFrom) &&
      delegator.effectiveUntil.all fun until_ => proposed.effectiveUntil ≤ until_) then
    scopeExpansion "Delegate timeWindow is not ⊆ delegator authority time window"
  else if riskExceeds proposed.maximumRisk delegator.maximumRisk then
    scopeExpansion "Delegate risk envelope exceeds delegator"
  else if !envelopeContained proposed.maximumResourceEnvelope delegator.maximumResourceEnvelope then
    scopeExpansion "Delegate resource envelope exceeds delegator"
  else if !isSubset proposed.actionScope delegator.actionScope then
    scopeExpansion "Delegate actionScope is not ⊆ delegator action scope"
  else .ok ()

/-- A proposed delegation that passes, field by field. -/
structure Attenuates (proposed : ProposedScope) (delegator : DelegatorEffectiveScope) : Prop where
  projects : proposed.projectScope ⊆ delegator.projectScope
  environments : proposed.environmentScope ⊆ delegator.environmentScope
  role : proposed.authorityRole = delegator.authorityRole
  from_le : ∀ t ∈ delegator.effectiveFrom, t ≤ proposed.effectiveFrom
  le_until : ∀ t ∈ delegator.effectiveUntil, proposed.effectiveUntil ≤ t
  risk : riskExceeds proposed.maximumRisk delegator.maximumRisk = false
  envelope :
    envelopeContained proposed.maximumResourceEnvelope delegator.maximumResourceEnvelope = true
  actions : proposed.actionScope ⊆ delegator.actionScope

theorem assertDelegationAttenuation_ok {proposed : ProposedScope}
    {delegator : DelegatorEffectiveScope} :
    assertDelegationAttenuation proposed delegator = .ok () ↔ Attenuates proposed delegator := by
  unfold assertDelegationAttenuation scopeExpansion
  constructor
  · intro h
    split_ifs at h with h₁ h₂ h₃ h₄ h₅ h₆ h₇
    simp only [Bool.not_eq_true, Bool.not_eq_false', isSubset_iff] at h₁ h₂ h₅ h₆ h₇
    simp only [Bool.not_eq_true, Bool.not_eq_false', Bool.and_eq_true, Option.all_eq_true,
      decide_eq_true_eq] at h₄
    exact ⟨h₁, h₂, not_not.mp h₃, h₄.1, h₄.2, h₅, h₆, h₇⟩
  · rintro ⟨h₁, h₂, h₃, h₄, h₄', h₅, h₆, h₇⟩
    have hwindow : ((delegator.effectiveFrom.all fun from_ => from_ ≤ proposed.effectiveFrom) &&
        delegator.effectiveUntil.all fun until_ => proposed.effectiveUntil ≤ until_) = true := by
      rw [Bool.and_eq_true, Option.all_eq_true, Option.all_eq_true]
      exact ⟨fun t ht => decide_eq_true (h₄ t ht), fun t ht => decide_eq_true (h₄' t ht)⟩
    rw [if_neg (by simpa using h₁), if_neg (by simpa using h₂), if_neg (by simpa using h₃),
      if_neg (by simp only [hwindow, Bool.not_true, Bool.false_eq_true, not_false_eq_true]), if_neg (by simp [h₅]), if_neg (by simp [h₆]),
      if_neg (by simpa using h₇)]

/-! ## Cycles and depth -/

/-- An edge from a delegator to a delegate. -/
structure DelegationEdge where
  from_ : String
  to_ : String
  deriving DecidableEq, Repr

/-- `assertNoDelegationCycle`: a search from the delegator, along the edges and the new one. -/
def assertNoDelegationCycle (delegatorPrincipalId delegatePrincipalId : String)
    (edges : List DelegationEdge) : Except GovernanceFailure Unit :=
  if delegatorPrincipalId = delegatePrincipalId then
    .error (.governance .authorityDelegationCycle "Self-delegation is a cycle")
  else
    let all := edges ++ [⟨delegatorPrincipalId, delegatePrincipalId⟩]
    let adj := fun node => (all.filter fun e => e.from_ = node).map (·.to_)
    -- no path without a repetition is longer than this
    match Graph.dfs adj (all.length + 2) [] [] delegatorPrincipalId with
    | .error _ =>
      .error (.governance .authorityDelegationCycle "Authority delegation cycle detected")
    | .ok _ => .ok ()

/-- `assertDelegationDepth`. -/
def assertDelegationDepth (depth : ℕ) (maximum : ℚ) : Except GovernanceFailure Unit :=
  if maximum < depth then
    .error (.governance .delegationDepthExceeded
      ("Delegation depth " ++ toString depth ++ " exceeds maximum " ++ toString maximum))
  else .ok ()

/-! ## The delegator's scope -/

namespace AuthorityStores

variable (X : GovernanceExternal) (s : AuthorityStores)

/-- The first project and environment of the scope are the ones the delegator is resolved for. -/
def delegatorQuestion (delegatorPrincipalId authorityRole projectId environment : String)
    (at_ : ℕ) : AuthorityQuestion where
  principalId := delegatorPrincipalId
  requiredRole := authorityRole
  projectId := projectId
  environment := environment
  action := none
  atIso := at_

/-- The scope of a delegator with canonical grants: projects and environments of all of them, and
the rest of the first one. -/
def directDelegatorScope (authorityRole : String) (r : AuthorityResolution) :
    DelegatorEffectiveScope :=
  let canonicalGrant := r.directGrantIds.head?.bind s.canonicalAuthority.getById
  { projectScope := r.scope.projectIds
    environmentScope := r.scope.environments
    authorityRole := authorityRole
    effectiveFrom := (canonicalGrant.bind (·.effectiveFrom)).or r.scope.effectiveFrom
    effectiveUntil := (canonicalGrant.bind (·.effectiveUntil)).or r.scope.effectiveUntil
    maximumRisk := canonicalGrant.bind (·.maximumRisk)
    maximumResourceEnvelope := (canonicalGrant.map (·.maximumResourceEnvelope)).getD []
    actionScope := (canonicalGrant.map (·.actionScope)).getD []
    sourceAuthorityGrantIds := r.directGrantIds
    sourceDelegationIds := []
    delegationDepth := 0 }

/-- The scope of a delegator who holds a delegation: the leaf's. -/
def delegatedDelegatorScope (authorityRole : String) (r : AuthorityResolution)
    (leaf : AuthorityDelegation) : DelegatorEffectiveScope where
  projectScope := r.scope.projectIds
  environmentScope := r.scope.environments
  authorityRole := authorityRole
  effectiveFrom := some leaf.effectiveFrom
  effectiveUntil := some leaf.effectiveUntil
  maximumRisk := leaf.maximumRisk
  maximumResourceEnvelope := leaf.maximumResourceEnvelope
  actionScope := leaf.actionScope
  sourceAuthorityGrantIds := r.directGrantIds
  sourceDelegationIds := r.delegationChain
  delegationDepth := leaf.delegationDepth

/-- `resolveDelegatorScope`. -/
def resolveDelegatorScope (delegatorPrincipalId authorityRole : String)
    (projectScope environmentScope : List String) (at_ : ℕ) :
    Except GovernanceFailure DelegatorEffectiveScope :=
  let lacks : GovernanceFailure := .governance .delegationSourceAuthorityMissing
    s!"Delegator {delegatorPrincipalId} lacks delegable {authorityRole}"
  match projectScope, environmentScope with
  | projectId :: _, environment :: _ =>
    let r := s.resolveAuthority X
      (delegatorQuestion delegatorPrincipalId authorityRole projectId environment at_)
    if r.outcome = .authorized then
      if r.directGrantIds ≠ [] ∧ r.delegationChain = [] then
        .ok (s.directDelegatorScope authorityRole r)
      else
        match r.delegationChain.getLast?.bind s.delegations.getById with
        | some leaf => .ok (delegatedDelegatorScope authorityRole r leaf)
        | none =>
          .error (.governance .authorityDenied
            "Delegator effective scope could not be materialized")
    else .error lacks
  -- nobody is authorized for an undefined project or environment
  | _, _ => .error lacks

/-! ## Creating a delegation -/

/-- What `createDelegation` is given. -/
structure DelegationInput where
  delegatorPrincipalId : String
  delegatePrincipalId : String
  authorityRole : String
  projectScope : List String
  environmentScope : List String
  actionScope : Option (List String)
  subjectScope : Option (List String)
  effectiveFrom : Option ℕ
  effectiveUntil : ℕ
  maximumRisk : Option RiskLevel
  maximumResourceEnvelope : Option ResourceEnvelope
  reason : String
  maximumDelegationDepth : Option ℚ
  deriving DecidableEq, Repr

/-- `mintDelegationId`. -/
def mintDelegationId (delegatorPrincipalId delegatePrincipalId : String) (createdAt : ℕ) :
    String :=
  X.mint "adel_" (.object [
    ("delegatorPrincipalId", .string delegatorPrincipalId),
    ("delegatePrincipalId", .string delegatePrincipalId),
    ("createdAt", .number createdAt)])

/-- What is asked for, with the defaults. -/
def DelegationInput.proposed (input : DelegationInput) (now : ℕ) : ProposedScope where
  projectScope := input.projectScope
  environmentScope := input.environmentScope
  authorityRole := input.authorityRole
  effectiveFrom := input.effectiveFrom.getD now
  effectiveUntil := input.effectiveUntil
  maximumRisk := input.maximumRisk
  maximumResourceEnvelope := input.maximumResourceEnvelope.getD []
  actionScope := input.actionScope.getD []

/-- The delegation that an accepted request becomes. The schema drops a `__proto__` key. -/
def newDelegation (now : ℕ) (input : DelegationInput) (scope : DelegatorEffectiveScope) :
    AuthorityDelegation where
  delegationId := mintDelegationId X input.delegatorPrincipalId input.delegatePrincipalId now
  delegationVersion := 1
  delegatorPrincipalId := input.delegatorPrincipalId
  delegatePrincipalId := input.delegatePrincipalId
  authorityRole := input.authorityRole
  projectScope := input.projectScope
  environmentScope := input.environmentScope
  actionScope := input.actionScope.getD []
  subjectScope := input.subjectScope.getD []
  effectiveFrom := input.effectiveFrom.getD now
  effectiveUntil := input.effectiveUntil
  maximumRisk := input.maximumRisk
  maximumResourceEnvelope :=
    (input.maximumResourceEnvelope.getD []).filter fun e => e.1 ≠ "__proto__"
  sourceAuthorityGrantIds := scope.sourceAuthorityGrantIds
  sourceDelegationIds := scope.sourceDelegationIds
  delegationDepth := scope.delegationDepth + 1
  reason := input.reason
  status := .active
  createdAt := now
  recordRevision := 1

/-- The fields that `AuthorityDelegationSchema` does not accept. -/
def delegationIssues (d : AuthorityDelegation) : List String :=
  minOne "delegatorPrincipalId" d.delegatorPrincipalId ++
  minOne "delegatePrincipalId" d.delegatePrincipalId ++
  minOne "authorityRole" d.authorityRole ++
  someTextItems "projectScope" d.projectScope ++
  someTextItems "environmentScope" d.environmentScope ++
  textItems "actionScope" d.actionScope ++
  textItems "subjectScope" d.subjectScope ++
  (if d.maximumResourceEnvelope.any fun e => e.2 < 0 then ["maximumResourceEnvelope"] else []) ++
  textItems "sourceAuthorityGrantIds" d.sourceAuthorityGrantIds ++
  textItems "sourceDelegationIds" d.sourceDelegationIds ++
  minOne "reason" d.reason ++ maxText "reason" (some d.reason)

/-- The edges of the active delegations. -/
def activeEdges : List DelegationEdge :=
  s.listActive.map fun d => ⟨d.delegatorPrincipalId, d.delegatePrincipalId⟩

/-- `createDelegation`, up to the delegation it saves. -/
def acceptDelegation (now : ℕ) (input : DelegationInput) :
    Except GovernanceFailure AuthorityDelegation := do
  let scope ← s.resolveDelegatorScope X input.delegatorPrincipalId input.authorityRole
    input.projectScope input.environmentScope now
  assertDelegationAttenuation (input.proposed now) scope
  assertDelegationDepth (scope.delegationDepth + 1) (input.maximumDelegationDepth.getD 1)
  assertNoDelegationCycle input.delegatorPrincipalId input.delegatePrincipalId s.activeEdges
  parseRecord delegationIssues (newDelegation X now input scope)

/-- `createDelegation`: one that throws writes nothing. -/
def createDelegation (now : ℕ) (input : DelegationInput) :
    Except GovernanceFailure AuthorityDelegation × AuthorityStores :=
  match s.acceptDelegation X now input with
  | .error e => (.error e, s)
  | .ok d => (.ok d, { s with delegations := s.delegations.save d })

variable {X s} {now : ℕ} {input : DelegationInput}

/-- An accepted delegation: what the delegator's scope lets the request become. -/
theorem acceptDelegation_ok {d : AuthorityDelegation} (h : s.acceptDelegation X now input = .ok d) :
    ∃ scope, s.resolveDelegatorScope X input.delegatorPrincipalId input.authorityRole
        input.projectScope input.environmentScope now = .ok scope ∧
      Attenuates (input.proposed now) scope ∧ d = newDelegation X now input scope := by
  unfold acceptDelegation at h
  cases hscope : s.resolveDelegatorScope X input.delegatorPrincipalId input.authorityRole
      input.projectScope input.environmentScope now with
  | error e =>
    rw [hscope] at h
    cases h
  | ok scope =>
    rw [hscope] at h
    refine ⟨scope, rfl, ?_⟩
    simp only [bind, Except.bind] at h
    split at h
    · cases h
    · next hattenuation =>
      refine ⟨assertDelegationAttenuation_ok.mp hattenuation, ?_⟩
      split at h
      · cases h
      · split at h
        · cases h
        · exact (parseRecord_ok h).1

/-- A delegation that is created was accepted, and is saved. -/
theorem createDelegation_ok {d : AuthorityDelegation} {s' : AuthorityStores}
    (h : s.createDelegation X now input = (.ok d, s')) :
    s.acceptDelegation X now input = .ok d ∧
      s' = { s with delegations := s.delegations.save d } := by
  unfold createDelegation at h
  split at h
  · cases h
  · next d' haccept =>
    cases h
    exact ⟨haccept, rfl⟩

theorem createDelegation_error {e : GovernanceFailure} {s' : AuthorityStores}
    (h : s.createDelegation X now input = (.error e, s')) : s' = s := by
  unfold createDelegation at h
  split at h
  · cases h; rfl
  · cases h

/-- The scope of an authorized delegator rests on canonical grants, or on a delegation that is
stored. -/
theorem resolveDelegatorScope_ok {delegator role : String} {projects environments : List String}
    {at_ : ℕ} {scope : DelegatorEffectiveScope}
    (h : s.resolveDelegatorScope X delegator role projects environments at_ = .ok scope) :
    ∃ p ps e es, projects = p :: ps ∧ environments = e :: es ∧
      ((s.matchingGrants (delegatorQuestion delegator role p e at_) ≠ [] ∧
          scope = s.directDelegatorScope role (s.resolveAuthority X
            (delegatorQuestion delegator role p e at_)) ∧
          s.resolveAuthority X (delegatorQuestion delegator role p e at_) =
            directResolution X (delegatorQuestion delegator role p e at_)
              (s.grantRevocationIds (delegatorQuestion delegator role p e at_))
              (sortGrants X (s.matchingGrants (delegatorQuestion delegator role p e at_)))) ∨
        ∃ leaf, s.matchingGrants (delegatorQuestion delegator role p e at_) = [] ∧
          s.findValidDelegationChain (delegatorQuestion delegator role p e at_) = some leaf ∧
          scope = delegatedDelegatorScope role
            (delegatedResolution X (delegatorQuestion delegator role p e at_) leaf) leaf) := by
  unfold resolveDelegatorScope at h
  rcases projects with _ | ⟨p, ps⟩
  · cases h
  rcases environments with _ | ⟨e, es⟩
  · cases h
  refine ⟨p, ps, e, es, rfl, rfl, ?_⟩
  dsimp only at h
  split_ifs at h with hauthorized hdirect
  · cases h
    obtain ⟨-, ⟨hgrants, hres⟩ | ⟨-, d, hd, hres⟩⟩ := resolveAuthority_cases hauthorized
    · exact .inl ⟨hgrants, rfl, hres⟩
    · rw [hres] at hdirect
      exact absurd hdirect.2 (by simp [delegatedResolution, chainOf])
  · obtain ⟨-, ⟨hgrants, hres⟩ | ⟨hnone, d, hd, hres⟩⟩ := resolveAuthority_cases hauthorized
    · -- canonical grants would have been the direct basis
      refine absurd ?_ hdirect
      rw [hres]
      refine ⟨fun hnil => hgrants ?_, rfl⟩
      have hsorted := List.map_eq_nil_iff.mp hnil
      exact List.eq_nil_iff_forall_not_mem.mpr fun g hg =>
        (List.eq_nil_iff_forall_not_mem.mp hsorted) g (mem_sortGrants.mpr hg)
    · have hstored := (findValidDelegationChain_some hd).1
      have hleaf : (s.resolveAuthority X
          (delegatorQuestion delegator role p e at_)).delegationChain.getLast?.bind
            s.delegations.getById = some d := by
        rw [hres]
        simpa [delegatedResolution, chainOf] using hstored
      rw [hleaf] at h
      cases h
      exact .inr ⟨d, hnone, hd, by rw [hres]⟩

end AuthorityStores

/-! ## Revocation -/

namespace GovernanceWorld

/-- What `revokeTarget` is given. -/
structure RevocationInput where
  targetType : RevocationTargetType
  targetId : String
  reason : String
  principalId : String
  effectiveAt : Option ℕ
  deriving DecidableEq, Repr

/-- `mintRevocationId`. -/
def mintRevocationId (X : GovernanceExternal) (targetType : RevocationTargetType)
    (targetId : String) (effectiveAt : ℕ) : String :=
  X.mint "arev_" (.object [
    ("targetType", .string targetType.text),
    ("targetId", .string targetId),
    ("effectiveAt", .number effectiveAt)])

/-- The revocation that a request becomes. -/
def newRevocation (X : GovernanceExternal) (now : ℕ) (input : RevocationInput) :
    AuthorityRevocation where
  revocationId := mintRevocationId X input.targetType input.targetId (input.effectiveAt.getD now)
  targetType := input.targetType
  targetId := input.targetId
  reason := input.reason
  effectiveAt := input.effectiveAt.getD now
  principalId := input.principalId
  createdAt := now

/-- The fields that `AuthorityRevocationSchema` does not accept. -/
def revocationIssues (r : AuthorityRevocation) : List String :=
  minOne "targetId" r.targetId ++ minOne "reason" r.reason ++
  maxText "reason" (some r.reason) ++ minOne "principalId" r.principalId

def delegationRevised : Revised AuthorityDelegation where
  entity := "Delegation"
  id := AuthorityDelegation.delegationId
  status d := d.status.text
  revision := AuthorityDelegation.recordRevision

def mandateRevised : Revised GovernanceMandate where
  entity := "Mandate"
  id := GovernanceMandate.mandateId
  status m := m.status.text
  revision := GovernanceMandate.recordRevision

/-- A delegation in another status. -/
def movedDelegation (status : DelegationState) (d : AuthorityDelegation) : AuthorityDelegation :=
  { d with status := status, recordRevision := d.recordRevision + 1 }

/-- A mandate in another status. -/
def movedMandate (status : MandateState) (m : GovernanceMandate) : GovernanceMandate :=
  { m with status := status, recordRevision := m.recordRevision + 1 }

/-- `revokeTarget` for a direct grant: a canonical one is left as it is. -/
def revokeDirectGrant (w : GovernanceWorld) (targetId : String) :
    Except GovernanceFailure Unit × GovernanceWorld :=
  match w.authority.canonicalAuthority.getById targetId with
  | some _ => (.ok (), w)
  | none =>
    match w.directGrants.getById targetId with
    | none =>
      (.error (.governance .authorityRevocationInvalid s!"Direct grant {targetId} not found"), w)
    | some g => (.ok (), { w with directGrants := w.directGrants.save { g with revoked := true } })

/-- `revokeTarget` for a delegation: an open one becomes `REVOKED` at once. -/
def revokeDelegation (w : GovernanceWorld) (targetId : String) :
    Except GovernanceFailure Unit × GovernanceWorld :=
  let notFound : GovernanceFailure :=
    .governance .authorityDelegationNotFound s!"Delegation {targetId} not found"
  match w.authority.delegations.getById targetId with
  | none => (.error notFound, w)
  | some d =>
    if d.status = .active ∨ d.status = .proposed ∨ d.status = .suspended then
      let (r, delegations) := casTransition delegationRevised notFound w.authority.delegations
        targetId d.status.text d.recordRevision (movedDelegation .revoked)
      (r.map fun _ => (), w.setAuthority { w.authority with delegations := delegations })
    else (.ok (), w)

/-- `revokeTarget` for a mandate. -/
def revokeMandate (w : GovernanceWorld) (targetId : String) :
    Except GovernanceFailure Unit × GovernanceWorld :=
  let notFound : GovernanceFailure :=
    .governance .governanceMandateNotFound s!"Mandate {targetId} not found"
  match w.mandates.getById targetId with
  | none => (.error notFound, w)
  | some m =>
    if m.status = .active ∨ m.status = .draft ∨ m.status = .suspended then
      let (r, mandates) := casTransition mandateRevised notFound w.mandates targetId m.status.text
        m.recordRevision (movedMandate .revoked)
      (r.map fun _ => (), { w with mandates := mandates })
    else (.ok (), w)

/-- `revokeTarget` for a proof. -/
def revokeProof (w : GovernanceWorld) (targetId : String) :
    Except GovernanceFailure Unit × GovernanceWorld :=
  let (r, proofs) := w.proofs.markStale targetId
  (r.map fun _ => (), { w with proofs := proofs })

/-- The part of `revokeTarget` that acts on the target. -/
def revokeOn (w : GovernanceWorld) : RevocationTargetType → String →
    Except GovernanceFailure Unit × GovernanceWorld
  | .directGrant, targetId => w.revokeDirectGrant targetId
  | .delegation, targetId => w.revokeDelegation targetId
  | .mandate, targetId => w.revokeMandate targetId
  | .institutionalProof, targetId => w.revokeProof targetId

/-- `revokeTarget`: the revocation is saved before its target is looked up. -/
def revokeTarget (X : GovernanceExternal) (w : GovernanceWorld) (now : ℕ)
    (input : RevocationInput) : Except GovernanceFailure AuthorityRevocation × GovernanceWorld :=
  match parseRecord revocationIssues (newRevocation X now input) with
  | .error e => (.error e, w)
  | .ok revocation =>
    let saved := w.setAuthority
      { w.authority with revocations := w.authority.revocations.save revocation }
    let (r, w') := saved.revokeOn input.targetType input.targetId
    (r.map fun _ => revocation, w')

/-! ## What a revocation leaves -/

/-- Two versions of a delegation: only the status and the revision may differ. -/
def SameTerms (d d' : AuthorityDelegation) : Prop :=
  d' = { d with status := d'.status, recordRevision := d'.recordRevision }

theorem SameTerms.refl (d : AuthorityDelegation) : SameTerms d d := rfl

theorem SameTerms.trans {d d' d'' : AuthorityDelegation} (h : SameTerms d d')
    (h' : SameTerms d' d'') : SameTerms d d'' := by
  unfold SameTerms at h h' ⊢
  rw [h', h]

/-- The stores after `s` as a revocation leaves them: the grants and the holds are those of `s`,
and every delegation is still there on the same terms, `REVOKED` or as it was. -/
structure Revoked (s s' : AuthorityStores) : Prop where
  grants : s'.canonicalAuthority = s.canonicalAuthority
  holds : s'.holds = s.holds
  delegations : ∀ id, s'.delegations.getById id = s.delegations.getById id ∨
    ∃ d, s.delegations.getById id = some d ∧
      s'.delegations.getById id = some (movedDelegation .revoked d)

theorem Revoked.refl (s : AuthorityStores) : Revoked s s := ⟨rfl, rfl, fun _ => .inl rfl⟩

/-- What is stored after a revocation was stored before it, on the same terms. -/
theorem Revoked.sameTerms {s s' : AuthorityStores} (h : Revoked s s') {id : String}
    {d' : AuthorityDelegation} (hd : s'.delegations.getById id = some d') :
    ∃ d, s.delegations.getById id = some d ∧ SameTerms d d' := by
  rcases h.delegations id with hsame | ⟨d, hget, hmoved⟩
  · exact ⟨d', hsame ▸ hd, .refl d'⟩
  · rw [hmoved] at hd
    cases hd
    exact ⟨d, hget, rfl⟩

/-- What is stored before a revocation is stored after it, on the same terms. -/
theorem Revoked.keeps {s s' : AuthorityStores} (h : Revoked s s') {id : String}
    {d : AuthorityDelegation} (hd : s.delegations.getById id = some d) :
    ∃ d', s'.delegations.getById id = some d' ∧ SameTerms d d' := by
  rcases h.delegations id with hsame | ⟨d₀, hget, hmoved⟩
  · exact ⟨d, hsame.trans hd, .refl d⟩
  · rw [hd] at hget
    cases hget
    exact ⟨_, hmoved, rfl⟩

theorem revokeDelegation_revoked (w : GovernanceWorld) (targetId : String) :
    Revoked w.authority (w.revokeDelegation targetId).2.authority := by
  unfold revokeDelegation
  cases hget : w.authority.delegations.getById targetId with
  | none => exact .refl _
  | some d =>
    dsimp only
    split_ifs
    · refine ⟨rfl, rfl, fun id => ?_⟩
      rcases hcas : casTransition delegationRevised (.governance .authorityDelegationNotFound
          s!"Delegation {targetId} not found") w.authority.delegations targetId d.status.text
          d.recordRevision (movedDelegation .revoked) with ⟨_ | a, r⟩
      · exact .inl (by rw [casTransition_error hcas]; rfl)
      · obtain ⟨existing, hexisting, -, -, -, rfl⟩ := casTransition_ok hcas
        have hid : existing.delegationId = targetId := Repository.id_of_getById hexisting
        by_cases hk : targetId = id
        · subst hk
          refine .inr ⟨existing, hexisting, ?_⟩
          exact (Repository.getById_save _ _ _).trans (if_pos hid)
        · refine .inl ((Repository.getById_save _ _ _).trans (if_neg fun h => hk (hid.symm.trans h)))
    · exact .refl _

/-- A revocation saves its record, marks its target, and leaves everything else that authority
rests on. -/
theorem revokeTarget_revoked (X : GovernanceExternal) (w : GovernanceWorld) (now : ℕ)
    (input : RevocationInput) : Revoked w.authority (w.revokeTarget X now input).2.authority := by
  unfold revokeTarget
  cases parseRecord revocationIssues (newRevocation X now input) with
  | error e => exact .refl _
  | ok revocation =>
    dsimp only
    cases input.targetType with
    | directGrant =>
      rw [revokeOn, revokeDirectGrant]
      split
      · exact ⟨rfl, rfl, fun _ => .inl rfl⟩
      · split <;> exact ⟨rfl, rfl, fun _ => .inl rfl⟩
    | delegation =>
      have hrevoked := revokeDelegation_revoked (w.setAuthority
        { w.authority with revocations := w.authority.revocations.save revocation }) input.targetId
      exact ⟨hrevoked.grants, hrevoked.holds, hrevoked.delegations⟩
    | mandate =>
      rw [revokeOn, revokeMandate]
      split
      · exact ⟨rfl, rfl, fun _ => .inl rfl⟩
      · split_ifs <;> exact ⟨rfl, rfl, fun _ => .inl rfl⟩
    | institutionalProof => exact ⟨rfl, rfl, fun _ => .inl rfl⟩

end GovernanceWorld

end Orchestrator
