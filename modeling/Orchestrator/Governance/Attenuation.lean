import Orchestrator.Atomic.Steps
import Orchestrator.Governance.Delegation
import Orchestrator.Governance.Scenario
import Mathlib.Order.Basic

/-!
# Delegation attenuates

What a delegation authorizes, and when that is no more than what its delegator was authorized for.

* `AuthorityScope`, `AuthorityScope.Authorizes`: the fields of a grant or of a delegation, read as
  the resolution reads them, where an empty action scope and an absent risk are unlimited;
* `AuthorityScope.Within`, field by field, and `Within.authorizes`;
* `SpelledOut`: the request leaves no field open that its source limits;
* `delegation_attenuates`: along every history whose requests are spelled out, what a delegation
  authorizes is authorized by its source and by a root grant.
-/

namespace Orchestrator

open Atomic Collections

/-! ## Scopes -/

theorem RiskLevel.rank_le_critical (r : RiskLevel) :
    r.rank ≤ RiskLevel.critical.rank := by
  cases r <;> decide

/-- The limits of a grant or of a delegation. -/
structure AuthorityScope where
  projects : List String
  environments : List String
  /-- Every action, if it is empty. -/
  actions : List String
  /-- Every risk, if it is absent. -/
  maximumRisk : Option RiskLevel
  resources : ResourceEnvelope
  effectiveFrom : Option ℕ
  effectiveUntil : Option ℕ

/-- A use of authority: an action on a project and an environment, at a risk, with some amounts of
some resources, at an instant. -/
structure AuthorityUse where
  project : String
  environment : String
  action : String
  risk : RiskLevel
  amounts : List (String × ℚ)
  instant : ℕ

namespace AuthorityScope

/-- The use is within every limit of the scope. -/
structure Authorizes (s : AuthorityScope) (u : AuthorityUse) : Prop where
  project : u.project ∈ s.projects
  environment : u.environment ∈ s.environments
  action : s.actions = [] ∨ u.action ∈ s.actions
  risk : ∀ max ∈ s.maximumRisk, u.risk.rank ≤ max.rank
  amounts : ∀ a ∈ u.amounts, ∃ max ∈ lookupEntry a.1 s.resources, a.2 ≤ max
  since : ∀ t ∈ s.effectiveFrom, t ≤ u.instant
  until_ : ∀ t ∈ s.effectiveUntil, u.instant ≤ t

/-- The limits of `s` lie within those of `r`. -/
structure Within (s r : AuthorityScope) : Prop where
  projects : s.projects ⊆ r.projects
  environments : s.environments ⊆ r.environments
  actions : r.actions = [] ∨ (s.actions ≠ [] ∧ s.actions ⊆ r.actions)
  risk : ∀ max ∈ r.maximumRisk, max = .critical ∨ ∃ m ∈ s.maximumRisk, m.rank ≤ max.rank
  resources : ∀ k, ∀ m ∈ lookupEntry k s.resources, ∃ max ∈ lookupEntry k r.resources, m ≤ max
  since : ∀ t ∈ r.effectiveFrom, ∃ m ∈ s.effectiveFrom, t ≤ m
  until_ : ∀ t ∈ r.effectiveUntil, ∃ m ∈ s.effectiveUntil, m ≤ t

/-- A scope within another authorizes no more. -/
theorem Within.authorizes {s r : AuthorityScope} (h : s.Within r) {u : AuthorityUse}
    (hu : s.Authorizes u) : r.Authorizes u where
  project := h.projects hu.project
  environment := h.environments hu.environment
  action := by
    rcases h.actions with hall | ⟨hsome, hsub⟩
    · exact .inl hall
    · exact .inr (hsub (hu.action.resolve_left hsome))
  risk := by
    intro max hmax
    rcases h.risk max hmax with rfl | ⟨m, hm, hle⟩
    · exact u.risk.rank_le_critical
    · exact (hu.risk m hm).trans hle
  amounts := by
    intro a ha
    obtain ⟨m, hm, hle⟩ := hu.amounts a ha
    obtain ⟨max, hmax, hle'⟩ := h.resources a.1 m hm
    exact ⟨max, hmax, hle.trans hle'⟩
  since := by
    intro t ht
    obtain ⟨m, hm, hle⟩ := h.since t ht
    exact hle.trans (hu.since m hm)
  until_ := by
    intro t ht
    obtain ⟨m, hm, hle⟩ := h.until_ t ht
    exact (hu.until_ m hm).trans hle

end AuthorityScope

/-- The limits of a canonical grant. -/
def CanonicalAuthorityGrant.scope (g : CanonicalAuthorityGrant) : AuthorityScope where
  projects := [g.projectId]
  environments := g.environmentScope
  actions := g.actionScope
  maximumRisk := g.maximumRisk
  resources := g.maximumResourceEnvelope
  effectiveFrom := g.effectiveFrom
  effectiveUntil := g.effectiveUntil

/-- The limits of a delegation. -/
def AuthorityDelegation.scope (d : AuthorityDelegation) : AuthorityScope where
  projects := d.projectScope
  environments := d.environmentScope
  actions := d.actionScope
  maximumRisk := d.maximumRisk
  resources := d.maximumResourceEnvelope
  effectiveFrom := some d.effectiveFrom
  effectiveUntil := some d.effectiveUntil

/-- The instants of a scope are those of the grant's window. -/
theorem CanonicalAuthorityGrant.inWindow_iff {g : CanonicalAuthorityGrant} {t : ℕ} :
    grantInWindow g t = true ↔
      (∀ from_ ∈ g.scope.effectiveFrom, from_ ≤ t) ∧
        ∀ until_ ∈ g.scope.effectiveUntil, t ≤ until_ := by
  simp only [grantInWindow, scope, inTimeWindow]
  cases g.effectiveFrom <;> cases g.effectiveUntil <;> simp

/-- The resolution reads a delegation's fields as its scope does. -/
theorem AuthorityDelegation.isCandidate_of_authorizes {d : AuthorityDelegation} {u : AuthorityUse}
    {principalId : String} (hactive : d.status = .active) (hu : d.scope.Authorizes u) :
    AuthorityStores.isCandidate ⟨principalId, d.authorityRole, u.project, u.environment,
      some u.action, u.instant⟩ d = true := by
  have hproject : d.projectScope.contains u.project = true :=
    List.contains_iff_mem.mpr hu.project
  have henvironment : d.environmentScope.contains u.environment = true :=
    List.contains_iff_mem.mpr hu.environment
  have hsince : d.effectiveFrom ≤ u.instant := hu.since _ rfl
  have huntil : u.instant ≤ d.effectiveUntil := hu.until_ _ rfl
  have haction : d.actionScope = [] ∨ u.action ∈ d.actionScope := hu.action
  simp only [AuthorityStores.isCandidate, hactive, inTimeWindow, hproject, henvironment, hsince,
    huntil, decide_true, Bool.and_self, Option.all_some, Bool.true_and, Bool.or_eq_true,
    List.isEmpty_iff, List.contains_iff_mem, decide_eq_true_eq]
  exact haction.elim (fun h => .inl (.inr h)) .inr

/-! ## What a delegation is derived from -/

namespace AuthorityStores

variable (X : GovernanceExternal) (s : AuthorityStores)

/-- The question that the delegator of a request is resolved for. -/
def DelegationInput.question (input : DelegationInput) (now : ℕ) : AuthorityQuestion :=
  delegatorQuestion input.delegatorPrincipalId input.authorityRole
    (input.projectScope.headD "") (input.environmentScope.headD "") now

/-- The scope whose fields the request is compared with: that of the delegator's first grant by
id, or of the delegation that authorizes the delegator. -/
def comparedScope (q : AuthorityQuestion) : Option AuthorityScope :=
  match sortGrants X (s.matchingGrants q) with
  | g :: _ => some g.scope
  | [] => (s.findValidDelegationChain q).map (·.scope)

/-- A request that leaves no field open: its environments are those of the compared scope, it
names actions where that scope does, and a risk unless that scope allows every risk; and it lists
no resource that it inherits from `Object.prototype` alone. -/
structure SpelledOut (p : ProposedScope) (r : AuthorityScope) : Prop where
  environments : p.environmentScope ⊆ r.environments
  actions : r.actions ≠ [] → p.actionScope ≠ []
  risk : ∀ max ∈ r.maximumRisk, max ≠ .critical → p.maximumRisk ≠ none
  resources : ∀ e ∈ p.maximumResourceEnvelope, e.1 ∈ inheritedProperties → e.1 ≠ "__proto__" →
    (lookupEntry e.1 r.resources).isSome = true

instance (p : ProposedScope) (r : AuthorityScope) : Decidable (SpelledOut p r) :=
  decidable_of_iff
    (p.environmentScope ⊆ r.environments ∧ (r.actions ≠ [] → p.actionScope ≠ []) ∧
      (∀ max ∈ r.maximumRisk, max ≠ .critical → p.maximumRisk ≠ none) ∧
      ∀ e ∈ p.maximumResourceEnvelope, e.1 ∈ inheritedProperties → e.1 ≠ "__proto__" →
        (lookupEntry e.1 r.resources).isSome = true)
    ⟨fun h => ⟨h.1, h.2.1, h.2.2.1, h.2.2.2⟩,
      fun h => ⟨h.environments, h.actions, h.risk, h.resources⟩⟩

variable {X s} {now : ℕ} {input : DelegationInput}

/-- A contained envelope is one resource by resource, but for inherited names. -/
theorem envelopeContained_lookup {inner outer : ResourceEnvelope}
    (h : envelopeContained inner outer = true)
    (hnames : ∀ e ∈ inner, e.1 ∈ inheritedProperties → e.1 ≠ "__proto__" →
      (lookupEntry e.1 outer).isSome = true) {k : String} {m : ℚ}
    (hm : lookupEntry k (inner.filter fun e => e.1 ≠ "__proto__") = some m) :
    ∃ max ∈ lookupEntry k outer, m ≤ max := by
  induction inner with
  | nil => cases hm
  | cons e inner ih =>
    obtain ⟨k', m'⟩ := e
    simp only [envelopeContained, List.all_cons, Bool.and_eq_true] at h
    have htail := ih h.2 fun e he => hnames e (List.mem_cons_of_mem _ he)
    by_cases hproto : k' = "__proto__"
    · refine htail ?_
      rwa [List.filter_cons_of_neg (by simpa using hproto)] at hm
    · rw [List.filter_cons_of_pos (by simpa using hproto), lookupEntry] at hm
      split_ifs at hm with hk
      · subst hk
        cases hm
        cases hmax : lookupEntry k' outer with
        | some max =>
          rw [hmax] at h
          exact ⟨max, rfl, of_decide_eq_true h.1⟩
        | none =>
          rw [hmax] at h
          have hsome := hnames (k', m) List.mem_cons_self (List.contains_iff_mem.mp h.1) hproto
          rw [hmax] at hsome
          cases hsome
      · exact htail hm

/-- An attenuated, spelled out request becomes a delegation within the scope it was compared
with, when the delegator's scope has that scope's fields. -/
theorem within_of_attenuates {scope : DelegatorEffectiveScope} {r : AuthorityScope}
    (h : Attenuates (input.proposed now) scope) (hspelled : SpelledOut (input.proposed now) r)
    (hprojects : scope.projectScope ⊆ r.projects) (hactions : scope.actionScope = r.actions)
    (hrisk : scope.maximumRisk = r.maximumRisk)
    (hresources : scope.maximumResourceEnvelope = r.resources)
    (hsince : ∀ t ∈ r.effectiveFrom, t ∈ scope.effectiveFrom)
    (huntil : ∀ t ∈ r.effectiveUntil, t ∈ scope.effectiveUntil) :
    (newDelegation X now input scope).scope.Within r where
  projects := List.Subset.trans h.projects hprojects
  environments := hspelled.environments
  actions := by
    by_cases hall : r.actions = []
    · exact .inl hall
    · exact .inr ⟨hspelled.actions hall, hactions ▸ h.actions⟩
  risk := by
    intro max hmax
    by_cases hcritical : max = .critical
    · exact .inl hcritical
    · obtain ⟨m, hm⟩ := Option.ne_none_iff_exists'.mp (hspelled.risk max hmax hcritical)
      refine .inr ⟨m, hm, ?_⟩
      have hexceeds := h.risk
      rw [hrisk, hm, show r.maximumRisk = some max from hmax] at hexceeds
      exact not_lt.mp (of_decide_eq_false hexceeds)
  resources := fun k m hm =>
    envelopeContained_lookup (hresources ▸ h.envelope) hspelled.resources hm
  since := fun t ht => ⟨_, rfl, h.from_le t (hsince t ht)⟩
  until_ := fun t ht => ⟨_, rfl, h.le_until t (huntil t ht)⟩

/-- The grant or the delegation that an accepted delegation comes from authorizes the use for the
delegator. -/
def SourceAuthorizes (s : AuthorityStores) (d : AuthorityDelegation) (u : AuthorityUse) : Prop :=
  (∃ g, s.canonicalAuthority.getById g.grantId = some g ∧ g.grantId ∈ d.sourceAuthorityGrantIds ∧
    d.sourceDelegationIds = [] ∧ g.principalId = d.delegatorPrincipalId ∧
    g.authorityRole = d.authorityRole ∧ g.scope.Authorizes u) ∨
  ∃ parent, s.delegations.getById parent.delegationId = some parent ∧
    d.sourceDelegationIds = chainOf parent ∧
    d.sourceAuthorityGrantIds = parent.sourceAuthorityGrantIds ∧
    parent.delegatePrincipalId = d.delegatorPrincipalId ∧
    parent.authorityRole = d.authorityRole ∧ parent.scope.Authorizes u

/-- A canonical grant at the root of a delegation authorizes the use. -/
def RootAuthorizes (s : AuthorityStores) (d : AuthorityDelegation) (u : AuthorityUse) : Prop :=
  ∃ g, s.canonicalAuthority.getById g.grantId = some g ∧ g.grantId ∈ d.sourceAuthorityGrantIds ∧
    g.authorityRole = d.authorityRole ∧ g.scope.Authorizes u

/-- What an accepted, spelled out delegation authorizes, its source does. -/
theorem acceptDelegation_source {d : AuthorityDelegation}
    (h : s.acceptDelegation X now input = .ok d)
    (hspelled : ∀ r ∈ s.comparedScope X (input.question now), SpelledOut (input.proposed now) r)
    {u : AuthorityUse} (hu : d.scope.Authorizes u) : s.SourceAuthorizes d u := by
  obtain ⟨scope, hscope, hattenuates, rfl⟩ := acceptDelegation_ok h
  obtain ⟨p, ps, e, es, hp, he, hbasis⟩ := resolveDelegatorScope_ok hscope
  have hq : input.question now = delegatorQuestion input.delegatorPrincipalId input.authorityRole
      p e now := by
    rw [DelegationInput.question, hp, he]
    rfl
  rw [hq] at hspelled
  rcases hbasis with ⟨hgrants, hdirect, hres⟩ | ⟨leaf, hnone, hleaf, rfl⟩
  · -- the first grant by id is the one whose fields were compared
    obtain ⟨g, gs, hsorted⟩ : ∃ g gs, sortGrants X (s.matchingGrants (delegatorQuestion
        input.delegatorPrincipalId input.authorityRole p e now)) = g :: gs := by
      refine List.exists_cons_of_ne_nil fun hnil => hgrants ?_
      exact List.eq_nil_iff_forall_not_mem.mpr fun g hg =>
        (List.eq_nil_iff_forall_not_mem.mp hnil) g (mem_sortGrants.mpr hg)
    have hmem : ∀ g' ∈ g :: gs, g' ∈ s.matchingGrants (delegatorQuestion
        input.delegatorPrincipalId input.authorityRole p e now) := fun g' hg' =>
      mem_sortGrants.mp (hsorted ▸ hg')
    obtain ⟨hstored, hprincipal, hmatches, -⟩ := mem_matchingGrants.mp (hmem g List.mem_cons_self)
    simp only [matchesGrant, Bool.and_eq_true, decide_eq_true_eq] at hmatches
    obtain ⟨⟨⟨⟨-, hrole⟩, hproject⟩, -⟩, -⟩ := hmatches
    rw [hsorted] at hres
    have hcompared : s.comparedScope X (delegatorQuestion input.delegatorPrincipalId
        input.authorityRole p e now) = some g.scope := by
      rw [comparedScope, hsorted]
    have hcanonical : (s.resolveAuthority X (delegatorQuestion input.delegatorPrincipalId
        input.authorityRole p e now)).directGrantIds.head?.bind s.canonicalAuthority.getById =
          some g := by
      rw [hres]
      exact hstored
    have hprojects : scope.projectScope ⊆ g.scope.projects := by
      intro project hmember
      rw [hdirect, directDelegatorScope, hres] at hmember
      simp only [directResolution, List.mem_eraseDups, List.mem_map] at hmember
      obtain ⟨g', hg', rfl⟩ := hmember
      have hmatches' := (mem_matchingGrants.mp (hmem g' hg')).2.2.1
      simp only [matchesGrant, Bool.and_eq_true, decide_eq_true_eq] at hmatches'
      exact List.mem_singleton.mpr (hmatches'.1.1.2.trans hproject.symm)
    have hwithin : (newDelegation X now input scope).scope.Within g.scope := by
      refine within_of_attenuates hattenuates (hspelled _ hcompared) hprojects ?_ ?_ ?_ ?_ ?_
      · rw [hdirect, directDelegatorScope, hcanonical]
        rfl
      · rw [hdirect, directDelegatorScope, hcanonical]
        rfl
      · rw [hdirect, directDelegatorScope, hcanonical]
        rfl
      · intro t ht
        rw [hdirect, directDelegatorScope, hcanonical]
        simp only [Option.bind_some]
        rw [show g.effectiveFrom = some t from ht]
        rfl
      · intro t ht
        rw [hdirect, directDelegatorScope, hcanonical]
        simp only [Option.bind_some]
        rw [show g.effectiveUntil = some t from ht]
        rfl
    refine .inl ⟨g, hstored, ?_, ?_, hprincipal, hrole, hwithin.authorizes hu⟩
    · rw [hdirect, hres]
      exact List.mem_cons_self
    · rw [hdirect]
      rfl
  · obtain ⟨hstored, hto, hcandidate, -⟩ := findValidDelegationChain_some hleaf
    simp only [isCandidate, Bool.and_eq_true, decide_eq_true_eq] at hcandidate
    have hrole : leaf.authorityRole = input.authorityRole := hcandidate.1.1.1.1.2
    have hcompared : s.comparedScope X (delegatorQuestion input.delegatorPrincipalId
        input.authorityRole p e now) = some leaf.scope := by
      rw [comparedScope, hnone, hleaf]
      rfl
    have hwithin := within_of_attenuates (X := X) hattenuates (hspelled _ hcompared)
      (List.Subset.refl _) rfl rfl rfl (fun _ ht => ht) fun _ ht => ht
    exact .inr ⟨leaf, hstored, rfl, rfl, hto, hrole, hwithin.authorizes hu⟩

/-! ## Roots -/

/-- What a stored delegation authorizes, a canonical grant at its root does. -/
def Rooted (s : AuthorityStores) : Prop :=
  ∀ id d, s.delegations.getById id = some d → ∀ u, d.scope.Authorizes u → s.RootAuthorizes d u

/-- A delegation whose source is rooted is rooted. -/
theorem Rooted.of_source (h : s.Rooted) {d : AuthorityDelegation} {u : AuthorityUse}
    (hu : s.SourceAuthorizes d u) : s.RootAuthorizes d u := by
  rcases hu with ⟨g, hstored, hmem, -, -, hrole, hg⟩ | ⟨parent, hstored, -, hgrants, -, hrole, hp⟩
  · exact ⟨g, hstored, hmem, hrole, hg⟩
  · obtain ⟨g, hg, hmem, hgrole, hauthorizes⟩ := h _ _ hstored u hp
    exact ⟨g, hg, hgrants ▸ hmem, hgrole.trans hrole, hauthorizes⟩

theorem rooted_of_empty (h : s.delegations = .empty) : s.Rooted := by
  intro id d hd
  rw [h] at hd
  cases hd

/-- An accepted, spelled out delegation keeps the delegations rooted. -/
theorem Rooted.createDelegation (h : s.Rooted)
    (hspelled : ∀ r ∈ s.comparedScope X (input.question now),
      SpelledOut (input.proposed now) r) : (s.createDelegation X now input).2.Rooted := by
  rcases hcreate : s.createDelegation X now input with ⟨_ | d, s'⟩
  · rw [createDelegation_error hcreate]
    exact h
  · obtain ⟨haccept, rfl⟩ := createDelegation_ok hcreate
    intro id d' hd' u hu
    rw [show (({ s with delegations := s.delegations.save d } : AuthorityStores).delegations.getById
      id) = _ from Repository.getById_save _ _ _] at hd'
    split at hd'
    · cases hd'
      exact h.of_source (acceptDelegation_source haccept hspelled hu)
    · exact h id d' hd' u hu

/-- Revocations keep the delegations rooted. -/
theorem Rooted.revoked {s' : AuthorityStores} (h : s.Rooted)
    (hrevoked : GovernanceWorld.Revoked s s') : s'.Rooted := by
  intro id d' hd' u hu
  obtain ⟨d, hd, hterms⟩ := hrevoked.sameTerms hd'
  rw [hterms] at hu ⊢
  obtain ⟨g, hg, hmem, hrole, hauthorizes⟩ := h id d hd u hu
  exact ⟨g, hrevoked.grants ▸ hg, hmem, hrole, hauthorizes⟩

end AuthorityStores

/-! ## Histories -/

open AuthorityStores

/-- A step of a history of delegations and revocations. -/
inductive DelegationStep where
  | createDelegation (now : ℕ) (input : DelegationInput)
  | revokeTarget (now : ℕ) (input : GovernanceWorld.RevocationInput)

namespace GovernanceWorld

variable (X : GovernanceExternal)

/-- One step; one that throws leaves what it has written. -/
def delegationStep (w : GovernanceWorld) : DelegationStep → GovernanceWorld
  | .createDelegation now input => w.setAuthority (w.authority.createDelegation X now input).2
  | .revokeTarget now input => (w.revokeTarget X now input).2

/-- A delegation that is asked for is spelled out. -/
def AsksSpelledOut (w : GovernanceWorld) : DelegationStep → Prop
  | .createDelegation now input => ∀ r ∈ w.authority.comparedScope X (input.question now),
      SpelledOut (input.proposed now) r
  | .revokeTarget _ _ => True

instance (w : GovernanceWorld) (step : DelegationStep) : Decidable (w.AsksSpelledOut X step) := by
  cases step <;> unfold AsksSpelledOut <;> infer_instance

variable {X}

theorem rooted_delegationStep (w : GovernanceWorld) (step : DelegationStep)
    (hasks : w.AsksSpelledOut X step) (h : w.authority.Rooted) :
    (w.delegationStep X step).authority.Rooted := by
  cases step with
  | createDelegation now input => exact h.createDelegation hasks
  | revokeTarget now input => exact h.revoked (revokeTarget_revoked X w now input)

end GovernanceWorld

open GovernanceWorld

/-- Along every history of delegations and revocations, over any canonical grants, in which every
request is spelled out: whatever an accepted delegation authorizes, its source authorized for the
delegator, and so did a canonical grant at the root; and so it stays for every delegation that is
stored. -/
theorem delegation_attenuates (X : GovernanceExternal) (w₀ : GovernanceWorld)
    (h₀ : w₀.authority.delegations = .empty) (history : List DelegationStep)
    (hasks : Along (delegationStep X) (AsksSpelledOut X) w₀ history) :
    (∀ before now input rest d,
      history = before ++ .createDelegation now input :: rest →
      ((after (delegationStep X) w₀ before).authority.createDelegation X now input).1 = .ok d →
      ∀ u, d.scope.Authorizes u →
        (after (delegationStep X) w₀ before).authority.SourceAuthorizes d u ∧
          (after (delegationStep X) w₀ before).authority.RootAuthorizes d u) ∧
    ∀ id d, (after (delegationStep X) w₀ history).authority.delegations.getById id = some d →
      ∀ u, d.scope.Authorizes u →
        (after (delegationStep X) w₀ history).authority.RootAuthorizes d u := by
  constructor
  · rintro before now input rest d rfl hok u hu
    obtain ⟨hbefore, hstep, -⟩ := along_append.mp hasks
    have hrooted := hbefore.keeps rooted_delegationStep (rooted_of_empty h₀)
    have haccept := (createDelegation_ok (Prod.ext hok rfl)).1
    have hsource := acceptDelegation_source haccept hstep hu
    exact ⟨hsource, hrooted.of_source hsource⟩
  · exact hasks.keeps rooted_delegationStep (rooted_of_empty h₀)

open GovernanceScenario

/-- What Alice delegates to Bob, and Bob to Carol, is rooted in Alice's grant. -/
theorem delegation_attenuates_redelegated :
    let history : List DelegationStep := [.createDelegation 5 toBob, .createDelegation 6 toCarol]
    (∀ before now input rest d,
      history = before ++ .createDelegation now input :: rest →
      ((after (delegationStep external) world before).authority.createDelegation external now
        input).1 = .ok d →
      ∀ u, d.scope.Authorizes u →
        (after (delegationStep external) world before).authority.SourceAuthorizes d u ∧
          (after (delegationStep external) world before).authority.RootAuthorizes d u) ∧
    ∀ id d, (after (delegationStep external) world history).authority.delegations.getById id =
        some d →
      ∀ u, d.scope.Authorizes u →
        (after (delegationStep external) world history).authority.RootAuthorizes d u :=
  delegation_attenuates external world rfl _ (by decide)

/-- A deletion, at the highest risk. -/
def deletion : AuthorityUse where
  project := "project_1"
  environment := "production"
  action := "DELETE"
  risk := .critical
  amounts := []
  instant := 10

/-- Alice may only deploy, at a low risk. A delegation of hers that names neither actions nor a
risk is accepted, and authorizes Bob to delete. -/
theorem delegation_expands :
    (world.authority.createDelegation external 5 openToBob).1 =
        .ok (newDelegation external 5 openToBob aliceScope) ∧
      (newDelegation external 5 openToBob aliceScope).scope.Authorizes deletion ∧
      ¬world.authority.SourceAuthorizes (newDelegation external 5 openToBob aliceScope) deletion ∧
      ¬world.authority.RootAuthorizes (newDelegation external 5 openToBob aliceScope) deletion := by
  have honly : ∀ g, world.authority.canonicalAuthority.getById g.grantId = some g →
      ¬g.scope.Authorizes deletion := by
    intro g hg hauthorizes
    have hmem : g ∈ [aliceGrant] := Repository.mem_list.mpr hg
    obtain rfl := List.mem_singleton.mp hmem
    exact absurd hauthorizes.action (by decide)
  refine ⟨by decide, ⟨by decide, by decide, .inl rfl, (fun _ h => nomatch h),
    (fun _ h => nomatch h), ?_, ?_⟩, ?_, ?_⟩
  · rintro t ⟨⟩
    decide
  · rintro t ⟨⟩
    decide
  · rintro (⟨g, hg, -, -, -, -, hauthorizes⟩ | ⟨parent, hparent, -⟩)
    · exact honly g hg hauthorizes
    · exact nomatch hparent
  · rintro ⟨g, hg, -, -, hauthorizes⟩
    exact honly g hg hauthorizes

end Orchestrator
