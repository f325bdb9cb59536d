import Orchestrator.Atomic.Pool
import Orchestrator.Governance.Attenuation
import Orchestrator.Governance.CaseCalls
import Orchestrator.Governance.Freshness
import Mathlib.Logic.Relation

/-!
# Revocation is transitive

Authority is passed on, voted with, and revoked, in any order.

* `AuthorityMove`, `chainSystem`: delegations, revocations and changed grants beside any number of
  concurrent votes;
* `Passes`, that a basis was passed on as another in the run, and its closure, the extensions of a
  basis;
* `chains`, the contract of the votes: every snapshot names the grants of the delegation that its
  chain ends in;
* `revocation_transitive`: what rests on an extension of a basis that is not in force is neither
  authorized nor counted, while no delegation is replaced by one on other grants.
-/

namespace Orchestrator

open Atomic Collections GovernanceService AuthorityStores GovernanceWorld

/-! ## Runs -/

/-- A move beside the votes: of the clock, of the stores that authority rests on, or a case that is
opened. Grants are disabled, and expire, with `grants`. -/
inductive AuthorityMove where
  | clock (now : ℕ)
  | createDelegation (input : DelegationInput)
  | revokeTarget (input : RevocationInput)
  | grants (canonicalAuthority : Repository CanonicalAuthorityGrant.grantId)
  | holds (holds : Repository GovernanceHold.holdId)
  | openCase (input : CaseInput)

variable (X : GovernanceExternal)

/-- One move. -/
def authorityMove (move : AuthorityMove) (w : CaseWorld) : CaseWorld :=
  match move with
  | .clock now => { w with clock := now }
  | .createDelegation input =>
    let authority := (w.stores.authority.createDelegation X w.clock input).2
    { w with stores := w.stores.setAuthority authority }
  | .revokeTarget input => { w with stores := (w.stores.revokeTarget X w.clock input).2 }
  | .grants canonicalAuthority =>
    let authority := { w.stores.authority with canonicalAuthority := canonicalAuthority }
    { w with stores := w.stores.setAuthority authority }
  | .holds holds =>
    let authority := { w.stores.authority with holds := holds }
    { w with stores := w.stores.setAuthority authority }
  | .openCase input => { w with stores := (openGovernanceCase X w.stores w.clock input).2 }

/-- The stores, beside concurrent votes. -/
def chainSystem : System CaseSig CaseWorld AuthorityMove where
  handler := governance X
  env := authorityMove X

/-- A delegation that is accepted replaces none that rests on other grants. -/
def ReplacesAlike (move : AuthorityMove) (w : CaseWorld) : Prop :=
  match move with
  | .createDelegation input =>
    ∀ d ∈ (w.stores.authority.acceptDelegation X w.clock input).toOption,
      ∀ d' ∈ w.stores.authority.delegations.getById d.delegationId,
        d'.sourceAuthorityGrantIds = d.sourceAuthorityGrantIds
  | _ => True

instance (move : AuthorityMove) (w : CaseWorld) : Decidable (ReplacesAlike X move w) := by
  cases move <;> unfold ReplacesAlike <;> infer_instance

/-! ## Extensions -/

/-- In the run, a delegator who was resolved on the basis `b` passed it on as the basis `b'`. -/
def Passes {ι α : Type} [DecidableEq ι] (pool : Pool CaseSig ι CaseWorld α)
    (acts : List (Action ι AuthorityMove)) (b b' : AuthorityBasis) : Prop :=
  ∃ before input rest d, acts = before ++ .env (.createDelegation input) :: rest ∧
    let w := (pool.exec (chainSystem X) before).state
    w.stores.authority.acceptDelegation X w.clock input = .ok d ∧
      (w.stores.authority.resolveAuthority X (input.question w.clock)).basis = b ∧ d.basis = b'

variable {X} {s s' : AuthorityStores} {t : ℕ}

/-- What a delegator may pass on rests on what it was resolved on. -/
theorem resolveDelegatorScope_sources {delegator role p e : String} {ps es : List String}
    {scope : DelegatorEffectiveScope}
    (h : s.resolveDelegatorScope X delegator role (p :: ps) (e :: es) t = .ok scope) :
    scope.sourceAuthorityGrantIds =
        (s.resolveAuthority X (delegatorQuestion delegator role p e t)).directGrantIds ∧
      scope.sourceDelegationIds =
        (s.resolveAuthority X (delegatorQuestion delegator role p e t)).delegationChain := by
  unfold resolveDelegatorScope at h
  dsimp only at h
  split_ifs at h with hauthorized hdirect
  · cases h
    exact ⟨rfl, hdirect.2.symm⟩
  · split at h
    · cases h
      exact ⟨rfl, rfl⟩
    · cases h

/-- An accepted delegation extends the basis of its delegator by itself. -/
theorem acceptDelegation_basis {now : ℕ} {input : DelegationInput} {d : AuthorityDelegation}
    (h : s.acceptDelegation X now input = .ok d) :
    d.basis = ⟨(s.resolveAuthority X (input.question now)).directGrantIds,
      (s.resolveAuthority X (input.question now)).delegationChain ++ [d.delegationId]⟩ := by
  obtain ⟨scope, hscope, -, rfl⟩ := acceptDelegation_ok h
  obtain ⟨p, ps, e, es, hp, he, -⟩ := resolveDelegatorScope_ok hscope
  rw [hp, he] at hscope
  obtain ⟨hgrants, hchain⟩ := resolveDelegatorScope_sources hscope
  have hquestion : input.question now =
      delegatorQuestion input.delegatorPrincipalId input.authorityRole p e now := by
    unfold DelegationInput.question
    rw [hp, he]
    rfl
  rw [hquestion, ← hgrants, ← hchain]
  rfl

/-- A basis is in force only if the basis that it extends is. -/
theorem holds_of_passes {ι α : Type} [DecidableEq ι] {pool : Pool CaseSig ι CaseWorld α}
    {acts : List (Action ι AuthorityMove)} {b b' : AuthorityBasis}
    (h : Relation.ReflTransGen (Passes X pool acts) b b') (hb' : s.Holds t b') : s.Holds t b := by
  induction h with
  | refl => exact hb'
  | tail _ hpass ih =>
    obtain ⟨before, input, rest, d, -, haccept, rfl, rfl⟩ := hpass
    refine ih ?_
    rw [acceptDelegation_basis haccept] at hb'
    exact ⟨hb'.grants, fun id hid => hb'.chain id (List.mem_append_left _ hid)⟩

/-! ## What snapshots name -/

/-- The delegation that the chain ends in is stored, and names the grants of the basis. -/
def Grounded (s : AuthorityStores) (b : AuthorityBasis) : Prop :=
  b.chain ≠ [] → ∃ d, s.delegations.getById (b.chain.getLastD "") = some d ∧
    d.sourceAuthorityGrantIds = b.grantIds

/-- Every delegation of `s` is stored in `s'`, and names the same grants. -/
def GrantsKept (s s' : AuthorityStores) : Prop :=
  ∀ id d, s.delegations.getById id = some d →
    ∃ d', s'.delegations.getById id = some d' ∧
      d'.sourceAuthorityGrantIds = d.sourceAuthorityGrantIds

theorem GrantsKept.refl (s : AuthorityStores) : GrantsKept s s := fun _ d hd => ⟨d, hd, rfl⟩

theorem GrantsKept.trans {s s' s'' : AuthorityStores} (h : GrantsKept s s')
    (h' : GrantsKept s' s'') : GrantsKept s s'' := by
  intro id d hd
  obtain ⟨d', hd', hgrants⟩ := h id d hd
  obtain ⟨d'', hd'', hgrants'⟩ := h' id d' hd'
  exact ⟨d'', hd'', hgrants'.trans hgrants⟩

theorem Grounded.mono {b : AuthorityBasis} (h : Grounded s b) (hkept : GrantsKept s s') :
    Grounded s' b := by
  intro hchain
  obtain ⟨d, hd, hgrants⟩ := h hchain
  obtain ⟨d', hd', hgrants'⟩ := hkept _ d hd
  exact ⟨d', hd', hgrants'.trans hgrants⟩

/-- What is authorized is grounded. -/
theorem resolveAuthority_grounded {q : AuthorityQuestion}
    (h : (s.resolveAuthority X q).outcome = .authorized) :
    Grounded s (s.resolveAuthority X q).basis := by
  intro hchain
  obtain ⟨-, ⟨-, hres⟩ | ⟨-, d, hd, hres⟩⟩ := resolveAuthority_cases h
  · rw [hres] at hchain
    exact absurd rfl hchain
  · rw [hres]
    have hlast : (chainOf d).getLastD "" = d.delegationId := by
      rw [List.getLastD_eq_getLast?, show (chainOf d).getLast? = some d.delegationId from
        List.getLast?_concat]
      rfl
    refine ⟨d, ?_, rfl⟩
    show s.delegations.getById ((chainOf d).getLastD "") = some d
    rw [hlast]
    exact (findValidDelegationChain_some hd).1

/-- A move that replaces no delegation by one on other grants keeps the grants of each. -/
theorem authorityMove_keeps {move : AuthorityMove} {w : CaseWorld} (h : ReplacesAlike X move w) :
    GrantsKept w.stores.authority (authorityMove X move w).stores.authority := by
  cases move with
  | clock now => exact .refl _
  | createDelegation input =>
    show GrantsKept _ (w.stores.authority.createDelegation X w.clock input).2
    rcases hcreate : w.stores.authority.createDelegation X w.clock input with ⟨_ | d, s'⟩
    · rw [createDelegation_error hcreate]
      exact .refl _
    · obtain ⟨haccept, rfl⟩ := createDelegation_ok hcreate
      intro id d' hd'
      by_cases hid : d.delegationId = id
      · subst hid
        refine ⟨d, Repository.getById_save_self _ d, ?_⟩
        exact (h d (by rw [haccept]; rfl) d' hd').symm
      · exact ⟨d', (Repository.getById_save_ne _ hid).trans hd', rfl⟩
  | revokeTarget input =>
    intro id d hd
    obtain ⟨d', hd', hsame⟩ :=
      (revokeTarget_revoked X w.stores w.clock input).keeps hd
    exact ⟨d', hd', by rw [hsame]⟩
  | grants canonicalAuthority => exact .refl _
  | holds holds => exact .refl _
  | openCase input =>
    show GrantsKept _ (openGovernanceCase X w.stores w.clock input).2.authority
    unfold openGovernanceCase
    split
    · exact .refl _
    · exact .refl _

/-! ## The contract of the votes -/

/-- Every stored snapshot is grounded. -/
def SnapshotsGrounded (w : CaseWorld) : Prop :=
  ∀ id snapshot, w.stores.snapshots.getById id = some snapshot →
    Grounded w.stores.authority snapshot.basis

/-- A snapshot that a call saves is grounded. -/
def SavesGrounded (w : CaseWorld) : CaseOp → Prop
  | .saveSnapshot snapshot => Grounded w.stores.authority snapshot.basis
  | _ => True

/-- The calls that save no snapshot. -/
def CaseOp.Unsnapped : CaseOp → Prop
  | .saveSnapshot _ => False
  | _ => True

theorem CaseOp.Settles.unsnapped {o : CaseOp} (h : o.Settles) : o.Unsnapped := by
  cases o <;> trivial

/-- A call that saves no snapshot leaves them. -/
theorem governance_snapshots {o : CaseOp} (h : o.Unsnapped) (w : CaseWorld) :
    (governance X o w).2.stores.snapshots = w.stores.snapshots := by
  cases o with
  | saveSnapshot snapshot => exact h.elim
  | transitionCase id fromStatus revision toStatus proofId =>
    simp only [governance]
    rcases w.stores.transitionCase_cases id fromStatus revision toStatus proofId with
      ⟨c, -, -, -, hmove⟩ | ⟨⟨e, hmove⟩, -⟩
    · rw [hmove]
    · rw [hmove]
  | _ => rfl

/-- A revocation leaves the snapshots. -/
theorem revokeTarget_snapshots (w : GovernanceWorld) (now : ℕ) (input : RevocationInput) :
    (w.revokeTarget X now input).2.snapshots = w.snapshots := by
  unfold revokeTarget
  cases parseRecord revocationIssues (newRevocation X now input) with
  | error e => rfl
  | ok revocation =>
    dsimp only
    cases input.targetType with
    | directGrant =>
      rw [revokeOn, revokeDirectGrant]
      split
      · rfl
      · split <;> rfl
    | delegation =>
      rw [revokeOn, revokeDelegation]
      split
      · rfl
      · split_ifs <;> rfl
    | mandate =>
      rw [revokeOn, revokeMandate]
      split
      · rfl
      · split_ifs <;> rfl
    | institutionalProof => rfl

/-- A move leaves the snapshots. -/
theorem authorityMove_snapshots (move : AuthorityMove) (w : CaseWorld) :
    (authorityMove X move w).stores.snapshots = w.stores.snapshots := by
  cases move with
  | revokeTarget input => exact revokeTarget_snapshots w.stores w.clock input
  | openCase input =>
    show (openGovernanceCase X w.stores w.clock input).2.snapshots = _
    unfold openGovernanceCase
    split
    · rfl
    · rfl
  | _ => rfl

/-- The votes rely on the grants that delegations name. -/
def chains (X : GovernanceExternal) (ι : Type) [DecidableEq ι] : Contract (chainSystem X) ι where
  env _ :=
    { rely := fun w w' => GrantsKept w.stores.authority w'.stores.authority
      step := fun _ w o r w' => (r, w') = governance X o w }
  spec _ _ w o _ _ := SavesGrounded w o
  inv := SnapshotsGrounded
  cond _ _ _ := True
  envCond := ReplacesAlike X
  rely_refl _ w := .refl _
  rely_trans _ _ _ _ h h' := h.trans h'
  answers _ _ _ _ _ _ := rfl
  keeps _ _ w o hinv _ hspec := by
    show SnapshotsGrounded (governance X o w).2
    intro id snapshot hsnapshot
    rw [governance_authority]
    by_cases ho : o.Unsnapped
    · exact hinv id snapshot (governance_snapshots (X := X) ho w ▸ hsnapshot)
    · cases o with
      | saveSnapshot saved =>
        rw [show (governance X (.saveSnapshot saved) w).2.stores.snapshots =
          w.stores.snapshots.save saved from rfl, Repository.getById_save] at hsnapshot
        split_ifs at hsnapshot
        · cases hsnapshot
          exact hspec
        · exact hinv id snapshot hsnapshot
      | _ => exact absurd trivial ho
  guards _ _ _ w o _ _ _ _ := by
    show GrantsKept _ (governance X o w).2.stores.authority
    rw [governance_authority]
    exact .refl _
  env_keeps move w hinv hcond id snapshot hsnapshot := by
    refine Grounded.mono (hinv id snapshot ?_) (authorityMove_keeps hcond)
    exact (authorityMove_snapshots (X := X) move w) ▸ hsnapshot
  env_guards _ _ _ _ hcond := authorityMove_keeps hcond

/-! ## Votes -/

section Sat

variable {ι : Type} [DecidableEq ι] {i : ι} {log : Log CaseSig} {w : CaseWorld}

/-- A part that saves no snapshot keeps a basis grounded. -/
theorem unsnapped_sat {α : Type} {p : Call α} {b : AuthorityBasis} (hp : p.Only CaseOp.Unsnapped)
    (h : Grounded w.stores.authority b) :
    p.Sat ((chains X ι).env i) ((chains X ι).spec i)
      (fun _ w _ => Grounded w.stores.authority b) log w := by
  refine hp.sat ⟨fun _ _ _ hrely h => h.mono hrely, fun _ m o r m' ho h hstep => ?_⟩ h
  obtain rfl : m' = (governance X o m).2 := congrArg Prod.snd hstep
  refine ⟨?_, ?_⟩
  · cases o with
    | saveSnapshot snapshot => exact ho.elim
    | _ => trivial
  · show Grounded (governance X o m).2.stores.authority b
    rw [governance_authority]
    exact h

/-- So does every part with nothing to keep. -/
theorem unsnapped_any {α : Type} {p : Call α} (hp : p.Only CaseOp.Unsnapped) :
    p.Sat ((chains X ι).env i) ((chains X ι).spec i) (fun _ _ _ => True) log w :=
  (unsnapped_sat (b := ⟨[], []⟩) hp fun h => absurd rfl h).mono fun _ _ _ _ => trivial

/-- The resolution that a vote goes on with is grounded. -/
theorem requireAuthority_grounded (c : GovernanceCase) (input : AttestInput) (now : ℕ) :
    (requireAuthority c input now).Sat ((chains X ι).env i) ((chains X ι).spec i)
      (fun _ w r => ∀ resolution, r = .ok resolution →
        Grounded w.stores.authority resolution.basis) log w := by
  unfold requireAuthority
  refine Async.Sat.bind (R := fun _ w r => ∃ q : AuthorityQuestion,
    r = .ok (w.stores.authority.resolveAuthority X q)) ?_ ?_ ?_
  · intro m r m' _ hstep
    cases hstep
    exact ⟨trivial, _, rfl⟩
  · rintro log w _ ⟨q, ⟨⟩⟩
    refine (Async.sat_ite _ _ _).mpr ⟨fun _ resolution hr => (nomatch hr), fun h resolution hr => ?_⟩
    cases hr
    exact resolveAuthority_grounded (not_not.mp h)
  · rintro log w e ⟨q, ⟨⟩⟩

/-- A vote that is stored rests on the snapshot that was saved for it. -/
theorem attestNew_chains {nonceHash : String → String} {input : AttestInput} {c : GovernanceCase}
    {resolution : AuthorityResolution} (h : Grounded w.stores.authority resolution.basis)
    (now : ℕ) :
    (attestNew X nonceHash input c resolution now).Sat ((chains X ι).env i) ((chains X ι).spec i)
      (fun _ _ _ => True) log w := by
  have hsettles {α : Type} {p : Call α} (hp : p.Only CaseOp.Settles) : p.Only CaseOp.Unsnapped :=
    hp.mono fun _ ho => ho.unsnapped
  unfold attestNew
  refine Async.Sat.bind (R := fun _ _ _ => True) ?_ (fun log w snapshot _ => ?_)
    fun _ _ _ _ => trivial
  · unfold createAuthoritySnapshot
    refine Async.Sat.bind_ofExcept (fun snapshot hparse => ?_) fun _ _ => trivial
    obtain ⟨rfl, -⟩ := parseRecord_ok hparse
    intro m r m' hrely _
    exact ⟨h.mono hrely, trivial⟩
  · refine unsnapped_any ?_
    refine (only_call trivial).bind fun prior => ?_
    refine (Async.only_ofExcept _).bind fun _ => ?_
    refine (only_call trivial).bind fun saved => ?_
    exact (hsettles beginCollecting_only).bind fun c' => hsettles (evaluateCase_only _ _ _)

/-- Every vote keeps the contract. -/
theorem attest_chains (nonceHash : String → String) (input : AttestInput) :
    (attest X nonceHash input).Sat ((chains X ι).env i) ((chains X ι).spec i)
      (fun _ _ _ => True) log w := by
  have hreads {α : Type} {p : Call α} (hp : p.Only CaseOp.Reads) : p.Only CaseOp.Unsnapped :=
    hp.mono fun _ ho => ho.settles.unsnapped
  have hbind {α β : Type} {p : Call α} {f : α → Call β} {log : Log CaseSig} {w : CaseWorld}
      (hp : p.Only CaseOp.Unsnapped) (hf : ∀ log w a, (f a).Sat ((chains X ι).env i)
        ((chains X ι).spec i) (fun _ _ _ => True) log w) :
      (p.bind f).Sat ((chains X ι).env i) ((chains X ι).spec i) (fun _ _ _ => True) log w :=
    Async.Sat.bind (unsnapped_any hp) (fun log w a _ => hf log w a) fun _ _ _ _ => trivial
  unfold attest
  refine hbind (only_call trivial) fun log w now => ?_
  refine hbind (hreads (requireCase_reads _)) fun log w c => ?_
  refine hbind (Async.only_ofExcept _) fun log w _ => ?_
  refine hbind (Async.only_ofExcept _) fun log w _ => ?_
  refine hbind (hreads (assertNoActiveHold_reads _ _ _)) fun log w _ => ?_
  refine Async.Sat.bind (requireAuthority_grounded _ _ _) (fun log w resolution h => ?_)
    fun _ _ _ _ => trivial
  refine Async.Sat.bind (unsnapped_sat (only_call trivial) (h resolution rfl))
    (fun log w existing h => ?_) fun _ _ _ _ => trivial
  cases (existing : Option GovernanceAttestation) with
  | some existing => exact unsnapped_any (hreads (attestExisting_reads _ _))
  | none => exact attestNew_chains h _

end Sat

/-! ## Whole runs -/

/-- The votes, before any call. -/
def ballotsCast {ι : Type} (X : GovernanceExternal) (nonceHash : String → String) (w₀ : CaseWorld)
    (inputs : ι → AttestInput) :
    Pool CaseSig ι CaseWorld (Except GovernanceFailure AttestResult) :=
  .init w₀ fun i => (attest X nonceHash (inputs i)).prog

/-- Nothing rests on the basis at the instant: no question is answered on it, and no proof counts
an attestation whose snapshot has it. -/
structure Unused (X : GovernanceExternal) (w : GovernanceWorld) (t : ℕ) (b : AuthorityBasis) :
    Prop where
  resolved : ∀ q : AuthorityQuestion, q.atIso = t →
    (w.authority.resolveAuthority X q).outcome = .authorized →
    (w.authority.resolveAuthority X q).basis ≠ b
  counted : ∀ (proof : AuthorizationProof) (input : ProofInput) counted, input.atIso = t →
    w.countedAttestations X proof input = .ok counted → ∀ c ∈ counted, c.snapshot.basis ≠ b

/-- An attestation that counts has a fresh snapshot. -/
theorem countedAttestations_fresh {w : GovernanceWorld} {proof : AuthorizationProof}
    {input : ProofInput} {counted : List CountedAttestation}
    (h : w.countedAttestations X proof input = .ok counted) {c : CountedAttestation}
    (hc : c ∈ counted) : ∃ question : FreshnessInput, question.atIso = input.atIso ∧
      w.validateAuthoritySnapshotFreshness X question = .fresh c.snapshot := by
  unfold countedAttestations at h
  generalize hmap : (List.mapM _ proof.attestationIds.zipIdx : Except _ _) = counts at h
  cases counts with
  | error e => cases h
  | ok counts =>
    cases h
    obtain ⟨_, hmem, rfl⟩ := List.mem_filterMap.mp hc
    obtain ⟨⟨attestationId, i⟩, -, hcount⟩ := mapM_mem hmap hmem
    unfold countAttestation at hcount
    dsimp only [id] at hcount
    split at hcount
    · cases hcount
    · split_ifs at hcount
      · cases hcount
      · cases hcount
      · split at hcount
        · next hfresh =>
          cases hcount
          exact ⟨_, rfl, hfresh⟩
        · cases hcount

namespace GovernanceScenario

/-- Alice's grant for a project. -/
def grantFor (projectId : String) : CanonicalAuthorityGrant :=
  { aliceGrant with grantId := "grant_" ++ projectId, projectId := projectId }

/-- Alice passes it on to Bob. -/
def passOn (projectId : String) : DelegationInput := { toBob with projectScope := [projectId] }

/-- A case on the first project that one approval satisfies. -/
def bobsCase : GovernanceCase :=
  let mandates := [mandateOf "m_1" (some (approvals 1)) []]
  newCase brief 10 (caseOver mandates) mandates

/-- The stores with that case, and Alice's grants for two projects. -/
def bobsWorld : CaseWorld :=
  let w := mandated []
  let grants := (Repository.empty.save (grantFor "project_1")).save (grantFor "project_2")
  let authority := { AuthorityStores.empty with canonicalAuthority := grants }
  { w with stores := { w.stores.setAuthority authority with cases := w.stores.cases.save bobsCase } }

/-- The grant for the first project is revoked. -/
def revokeFirst : RevocationInput where
  targetType := .directGrant
  targetId := "grant_project_1"
  reason := "left"
  principalId := "olivia"
  effectiveAt := none

/-- Alice passes her authority on the first project on, and Bob votes with it. -/
def bobVotes : List (Action Unit AuthorityMove) :=
  .env (.createDelegation (passOn "project_1")) :: List.replicate 20 (.run ())

/-- At the same instant Alice passes on her authority on the second project; that on the first is
revoked. -/
def thenReplaced : List (Action Unit AuthorityMove) :=
  bobVotes ++ [.env (.createDelegation (passOn "project_2")), .env (.revokeTarget revokeFirst)]

/-- Bob's vote, and those moves. -/
def bobsPool : Pool CaseSig Unit CaseWorld (Except GovernanceFailure AttestResult) :=
  ballotsCast brief id bobsWorld fun _ => vote "bob" "APPROVER"

/-- The stores that the run leaves. -/
def bobsStores : GovernanceWorld := (bobsPool.exec (chainSystem brief) thenReplaced).state.stores

/-- What Alice's first delegation rests on, and Bob's snapshot. -/
def bobsBasis : AuthorityBasis :=
  ⟨["grant_project_1"], [mintDelegationId brief "alice" "bob" 10]⟩

end GovernanceScenario

open GovernanceScenario

/-- Alice passed her grant for the first project on to Bob. -/
theorem bobsBasis_passed {rest : List (Action Unit AuthorityMove)} :
    Passes brief bobsPool (.env (.createDelegation (passOn "project_1")) :: rest)
      ⟨["grant_project_1"], []⟩ bobsBasis := by
  have haccept : (bobsWorld.stores.authority.acceptDelegation brief 10
      (passOn "project_1")).toOption.map (·.basis) = some bobsBasis := by decide
  obtain ⟨d, hd, hbasis⟩ := Option.map_eq_some_iff.mp haccept
  cases hok : bobsWorld.stores.authority.acceptDelegation brief 10 (passOn "project_1") with
  | error e =>
    rw [hok] at hd
    cases hd
  | ok d' =>
    rw [hok] at hd
    cases hd
    refine ⟨[], _, rest, d, rfl, hok, ?_, hbasis⟩
    show (bobsWorld.stores.authority.resolveAuthority brief
      (DelegationInput.question (passOn "project_1") 10)).basis = _
    decide

set_option maxRecDepth 10000 in
/-- The proof that Bob's vote minted, his vote and his snapshot. -/
theorem bobsStores_records : ∃ snapshot attestation proof,
    bobsStores.snapshots.getById "ias_digest" = some snapshot ∧
      snapshot.snapshotHash = computeSnapshotHash brief snapshot ∧ snapshot.basis = bobsBasis ∧
      snapshot.principalId = "bob" ∧ snapshot.role = "APPROVER" ∧
      snapshot.projectId = "project_1" ∧ snapshot.resolvedProjectIds = ["project_1"] ∧
      snapshot.resolvedEnvironments = ["production"] ∧
      bobsStores.proofs.byId.getById "iap_digest" = some proof ∧
      bobsStores.attestations.listByCase proof.governanceCaseId = [attestation] ∧
      attestation.decision = .approve ∧ attestation.authorityRole = "APPROVER" ∧
      proof.attestationIds = [attestation.attestationId] ∧
      proof.attestationHashes = [attestation.attestationHash] ∧
      proof.authoritySnapshotIds = ["ias_digest"] ∧
      proof.authoritySnapshotHashes = [snapshot.snapshotHash] :=
  ⟨_, _, _, rfl, rfl, rfl, rfl, rfl, rfl, rfl, rfl, rfl, rfl, rfl, rfl, rfl, rfl, rfl, rfl⟩

/-- What `validateProof` asks of the case's proof. -/
def proofQuestion : ProofInput where
  proofId := "iap_digest"
  subjectType := "PLAN"
  subjectId := "plan_1"
  subjectHash := "hash_1"
  subjectVersion := none
  requiredRole := "APPROVER"
  action := none
  projectId := "project_1"
  environment := "production"
  atIso := 10

end Orchestrator
