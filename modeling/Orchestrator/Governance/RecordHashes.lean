import Orchestrator.Atomic.Pool
import Orchestrator.Governance.MandateMoves
import Orchestrator.Governance.MandateQuorums

/-!
# Hashes of stored records

Whether the hash of a stored mandate, delegation or case can be recomputed from the record.

* `HashedWorld`, the stores, with the hashes of the delegations beside them;
* `RecordMove`, `recordSystem`: the calls that create records or move them, beside any number of
  concurrent votes;
* `Verifiable`: every stored record recomputes to its stored hash;
* `KeepsHashes`, the moves that rewrite nothing that was hashed, with `verifiable_move`, what one
  move does;
* `verifiable_throughout`, that runs of such moves leave every record verifiable, and
  `keepsHashes_throughout`, that no other runs do.
-/

namespace Orchestrator

open Atomic Collections GovernanceService AuthorityStores GovernanceWorld

/-! ## Delegation hashes -/

/-- The level's name in the source. -/
def RiskLevel.text : RiskLevel → String
  | .low => "LOW"
  | .medium => "MEDIUM"
  | .high => "HIGH"
  | .critical => "CRITICAL"

/-- `computeDelegationHash`: the whole record, but for its hash and its revision. -/
def computeDelegationHash (X : GovernanceExternal) (d : AuthorityDelegation) : String :=
  X.sha256 (Json.object ([
    ("delegationId", .string d.delegationId),
    ("delegationVersion", .number d.delegationVersion),
    ("delegatorPrincipalId", .string d.delegatorPrincipalId),
    ("delegatePrincipalId", .string d.delegatePrincipalId),
    ("authorityRole", .string d.authorityRole),
    ("projectScope", jsonStrings d.projectScope),
    ("environmentScope", jsonStrings d.environmentScope),
    ("actionScope", jsonStrings d.actionScope),
    ("subjectScope", jsonStrings d.subjectScope),
    ("effectiveFrom", .number d.effectiveFrom),
    ("effectiveUntil", .number d.effectiveUntil)] ++
    Json.present "maximumRisk" (fun risk => .string risk.text) d.maximumRisk ++ [
    ("maximumResourceEnvelope", resourceJson d.maximumResourceEnvelope),
    ("sourceAuthorityGrantIds", jsonStrings d.sourceAuthorityGrantIds),
    ("sourceDelegationIds", jsonStrings d.sourceDelegationIds),
    ("delegationDepth", .number d.delegationDepth),
    ("reason", .string d.reason),
    ("status", .string d.status.text),
    ("createdAt", .number d.createdAt)])).stringify

/-- The `delegationHash` of a delegation that is created: the hash of the caller's own envelope. -/
def createdDelegationHash (X : GovernanceExternal) (input : DelegationInput)
    (d : AuthorityDelegation) : String :=
  computeDelegationHash X
    { d with maximumResourceEnvelope := input.maximumResourceEnvelope.getD [] }

/-! ## Runs -/

/-- The stores, with the clock and the `delegationHash` of every stored delegation. -/
structure HashedWorld where
  stores : GovernanceWorld
  clock : ℕ
  delegationHashes : JsMap String String

/-- Nothing is stored yet. -/
def HashedWorld.empty (clock : ℕ) : HashedWorld := ⟨.empty, clock, .empty⟩

/-- A move beside the votes: a call that creates records or moves them, or a change of the clock, of
the canonical grants or of the holds. -/
inductive RecordMove where
  | clock (now : ℕ)
  | grants (canonicalAuthority : Repository CanonicalAuthorityGrant.grantId)
  | holds (holds : Repository GovernanceHold.holdId)
  | createMandate (S : GovernanceSurroundings) (orders : PropertyOrders) (input : MandateInput)
  | activateMandate (S : GovernanceSurroundings) (input : MandateMoveInput)
  | supersedeMandate (S : GovernanceSurroundings) (input : MandateMoveInput)
  | transitionMandate (mandateId : String) (fromStatus : MandateState) (expectedRevision : ℕ)
      (toStatus : MandateState)
  | createDelegation (input : DelegationInput)
  | transitionDelegation (delegationId : String) (fromStatus : DelegationState)
      (expectedRevision : ℕ) (toStatus : DelegationState)
  | openGovernanceCase (input : CaseInput)
  | transitionCase (governanceCaseId : String) (fromStatus : GovernanceCaseState)
      (expectedRevision : ℕ) (toStatus : GovernanceCaseState)
      (institutionalProofId : Option String)
  | revokeTarget (input : RevocationInput)

variable (X : GovernanceExternal)

namespace HashedWorld

variable (w : HashedWorld)

/-- `createMandate`: one that throws writes nothing. -/
def createMandate (S : GovernanceSurroundings) (orders : PropertyOrders) (input : MandateInput) :
    HashedWorld :=
  match acceptHashedMandate X { S with now := w.clock } orders input with
  | .error _ => w
  | .ok m => { w with stores := { w.stores with mandates := w.stores.mandates.save m } }

/-- `createDelegation`, with the hash of a delegation that is created. -/
def createDelegation (input : DelegationInput) : HashedWorld :=
  let (r, authority) := w.stores.authority.createDelegation X w.clock input
  { w with
    stores := w.stores.setAuthority authority
    delegationHashes :=
      match r with
      | .error _ => w.delegationHashes
      | .ok d => w.delegationHashes.set d.delegationId (createdDelegationHash X input d) }

end HashedWorld

/-- One move. -/
def recordMove (move : RecordMove) (w : HashedWorld) : HashedWorld :=
  match move with
  | .clock now => { w with clock := now }
  | .grants canonicalAuthority =>
    let authority := { w.stores.authority with canonicalAuthority := canonicalAuthority }
    { w with stores := w.stores.setAuthority authority }
  | .holds holds =>
    { w with stores := w.stores.setAuthority { w.stores.authority with holds := holds } }
  | .createMandate S orders input => w.createMandate X S orders input
  | .activateMandate S input => { w with stores := (w.stores.activateMandate S input).2 }
  | .supersedeMandate S input => { w with stores := (w.stores.supersedeMandate S input).2 }
  | .transitionMandate id fromStatus revision toStatus =>
    { w with stores := (w.stores.transitionMandate id fromStatus revision toStatus).2 }
  | .createDelegation input => w.createDelegation X input
  | .transitionDelegation id fromStatus revision toStatus =>
    { w with stores := (w.stores.transitionDelegation id fromStatus revision toStatus).2 }
  | .openGovernanceCase input =>
    { w with stores := (Orchestrator.openGovernanceCase X w.stores w.clock input).2 }
  | .transitionCase id fromStatus revision toStatus proofId =>
    { w with stores := (w.stores.transitionCase id fromStatus revision toStatus proofId).2 }
  | .revokeTarget input => { w with stores := (w.stores.revokeTarget X w.clock input).2 }

/-- What each call of a vote does. -/
def hashedGovernance : Handler CaseSig HashedWorld := fun o w =>
  let (r, w') := governance X o ⟨w.stores, w.clock⟩
  (r, { w with stores := w'.stores, clock := w'.clock })

/-- The stores, beside concurrent votes. -/
def recordSystem : System CaseSig HashedWorld RecordMove where
  handler := hashedGovernance X
  env := recordMove X

/-- Votes on empty stores, before any call. -/
def recordPool {ι : Type} (nonceHash : String → String) (clock : ℕ) (inputs : ι → AttestInput) :
    Pool CaseSig ι HashedWorld (Except GovernanceFailure AttestResult) :=
  .init (.empty clock) fun i => (attest X nonceHash (inputs i)).prog

/-! ## What is verifiable -/

/-- The mandate recomputes to its hash. -/
def MandateVerifies (m : GovernanceMandate) : Prop := computeMandateHash X m = m.mandateHash

/-- The delegation recomputes to the hash that is kept for it. -/
def DelegationVerifies (delegationHashes : JsMap String String) (d : AuthorityDelegation) : Prop :=
  delegationHashes.get d.delegationId = some (computeDelegationHash X d)

/-- The case recomputes to its hash. -/
def CaseVerifies (c : GovernanceCase) : Prop := computeCaseHash X c = c.caseHash

/-- Every stored record recomputes to its stored hash. -/
structure Verifiable (w : HashedWorld) : Prop where
  mandates : ∀ m ∈ w.stores.mandates.list, MandateVerifies X m
  delegations : ∀ d ∈ w.stores.authority.delegations.list, DelegationVerifies X w.delegationHashes d
  cases : ∀ c ∈ w.stores.cases.list, CaseVerifies X c

theorem verifiable_empty (clock : ℕ) : Verifiable X (.empty clock) where
  mandates _ h := nomatch h
  delegations _ h := nomatch h
  cases _ h := nomatch h

/-- A revocation moves the mandate. -/
def RevocableMandate (m : GovernanceMandate) : Prop :=
  m.status = .active ∨ m.status = .draft ∨ m.status = .suspended

instance (m : GovernanceMandate) : Decidable (RevocableMandate m) :=
  inferInstanceAs (Decidable (_ ∨ _ ∨ _))

/-- A revocation moves the delegation. -/
def RevocableDelegation (d : AuthorityDelegation) : Prop :=
  d.status = .active ∨ d.status = .proposed ∨ d.status = .suspended

instance (d : AuthorityDelegation) : Decidable (RevocableDelegation d) :=
  inferInstanceAs (Decidable (_ ∨ _ ∨ _))

/-- A revocation moves no record under this id. -/
def TargetSettled (w : GovernanceWorld) : RevocationTargetType → String → Prop
  | .mandate, targetId => ∀ m ∈ w.mandates.getById targetId, ¬RevocableMandate m
  | .delegation, targetId =>
    ∀ d ∈ w.authority.delegations.getById targetId, ¬RevocableDelegation d
  | _, _ => True

instance (w : GovernanceWorld) (targetType : RevocationTargetType) (targetId : String) :
    Decidable (TargetSettled w targetType targetId) := by
  cases targetType <;> unfold TargetSettled <;> infer_instance

/-- The moves that rewrite nothing that was hashed: a mandate or a delegation is created from objects
that are built as the schema rebuilds them, and no stored one gets another status. -/
def KeepsHashes (move : RecordMove) (w : HashedWorld) : Prop :=
  match move with
  | .createMandate S orders input =>
    (acceptHashedMandate X { S with now := w.clock } orders input).isOk → BuiltAsParsed orders input
  | .activateMandate S input => ¬(w.stores.requireActivatable S input).isOk
  | .supersedeMandate S input => ¬(w.stores.requireSupersedable S input).isOk
  | .transitionMandate id fromStatus revision toStatus =>
    ∀ m ∈ w.stores.mandates.getById id, m.status = fromStatus → m.recordRevision = revision →
      toStatus = fromStatus
  | .createDelegation input =>
    (w.stores.authority.acceptDelegation X w.clock input).isOk →
      ∀ entry ∈ input.maximumResourceEnvelope.getD [], entry.1 ≠ "__proto__"
  | .transitionDelegation id fromStatus revision toStatus =>
    ∀ d ∈ w.stores.authority.delegations.getById id, d.status = fromStatus →
      d.recordRevision = revision → toStatus = fromStatus
  | .revokeTarget input =>
    revocationIssues (newRevocation X w.clock input) = [] →
      TargetSettled w.stores input.targetType input.targetId
  | _ => True

instance (move : RecordMove) (w : HashedWorld) : Decidable (KeepsHashes X move w) := by
  cases move <;> unfold KeepsHashes <;> infer_instance

variable {X} {w : HashedWorld}

/-! ## Records in another status -/

theorem mandateVerifies_same {m : GovernanceMandate} (hm : MandateVerifies X m) :
    MandateVerifies X (movedMandate m.status m) := hm

/-- Without collisions, a mandate that is moved recomputes to its hash only in the status it had. -/
theorem status_of_mandateVerifies (hX : Function.Injective X.sha256) {m : GovernanceMandate}
    (hm : MandateVerifies X m) {status : MandateState}
    (h : MandateVerifies X (movedMandate status m)) : status = m.status := by
  have hhash : mandateDigest X (movedMandate status m) m.objects = mandateDigest X m m.objects :=
    Eq.trans h hm.symm
  have hjson := Json.stringify_inj (hX hhash)
  simp only [movedMandate, Json.object.injEq, List.cons.injEq, Prod.mk.injEq, Json.string.injEq,
    true_and, and_true] at hjson
  exact MandateState.text_inj hjson

theorem delegationVerifies_same {delegationHashes : JsMap String String} {d : AuthorityDelegation}
    (hd : DelegationVerifies X delegationHashes d) :
    DelegationVerifies X delegationHashes (movedDelegation d.status d) := hd

/-- So does a delegation. -/
theorem status_of_delegationVerifies (hX : Function.Injective X.sha256)
    {delegationHashes : JsMap String String} {d : AuthorityDelegation}
    (hd : DelegationVerifies X delegationHashes d) {status : DelegationState}
    (h : DelegationVerifies X delegationHashes (movedDelegation status d)) : status = d.status := by
  have hhash : computeDelegationHash X (movedDelegation status d) = computeDelegationHash X d :=
    Option.some.inj (h.symm.trans hd)
  have hjson := Json.stringify_inj (hX hhash)
  simp only [movedDelegation, Json.object.injEq, List.append_cancel_left_eq, List.cons.injEq,
    Prod.mk.injEq, Json.string.injEq, true_and, and_true] at hjson
  exact DelegationState.text_inj hjson

/-- The hash of a case does not cover what a transition writes. -/
theorem caseVerifies_moved {c : GovernanceCase} (hc : CaseVerifies X c)
    (status : GovernanceCaseState) (institutionalProofId : Option String) :
    CaseVerifies X (movedCase status institutionalProofId c) := hc

/-! ## Transitions -/

theorem verifiable_transitionMandate (hw : Verifiable X w) {id : String}
    {fromStatus toStatus : MandateState} {revision : ℕ} :
    Verifiable X { w with
        stores := (w.stores.transitionMandate id fromStatus revision toStatus).2 } ↔
      ∀ m ∈ w.stores.mandates.getById id, m.status = fromStatus → m.recordRevision = revision →
        MandateVerifies X (movedMandate toStatus m) := by
  have hmoved := @casTransition_forall _ mandateRevised
    (.governance .governanceMandateNotFound s!"Mandate {id} not found") w.stores.mandates id
    fromStatus.text revision (movedMandate toStatus) _ hw.mandates
  constructor
  · intro h m hm hstatus hrevision
    exact hmoved.mp h.mandates m hm (congrArg MandateState.text hstatus) hrevision
  · intro h
    refine ⟨hmoved.mpr fun m hm hstatus hrevision => ?_, hw.delegations, hw.cases⟩
    exact h m hm (MandateState.text_inj hstatus) hrevision

theorem verifiable_transitionDelegation (hw : Verifiable X w) {id : String}
    {fromStatus toStatus : DelegationState} {revision : ℕ} :
    Verifiable X { w with
        stores := (w.stores.transitionDelegation id fromStatus revision toStatus).2 } ↔
      ∀ d ∈ w.stores.authority.delegations.getById id, d.status = fromStatus →
        d.recordRevision = revision →
          DelegationVerifies X w.delegationHashes (movedDelegation toStatus d) := by
  have hmoved := @casTransition_forall _ delegationRevised
    (.governance .authorityDelegationNotFound s!"Delegation {id} not found")
    w.stores.authority.delegations id fromStatus.text revision (movedDelegation toStatus) _
    hw.delegations
  constructor
  · intro h d hd hstatus hrevision
    exact hmoved.mp h.delegations d hd (congrArg DelegationState.text hstatus) hrevision
  · intro h
    refine ⟨hw.mandates, hmoved.mpr fun d hd hstatus hrevision => ?_, hw.cases⟩
    exact h d hd (DelegationState.text_inj hstatus) hrevision

theorem verifiable_transitionCase (hw : Verifiable X w) (id : String)
    (fromStatus : GovernanceCaseState) (revision : ℕ) (toStatus : GovernanceCaseState)
    (proofId : Option String) :
    Verifiable X { w with
      stores := (w.stores.transitionCase id fromStatus revision toStatus proofId).2 } := by
  refine ⟨hw.mandates, hw.delegations, ?_⟩
  refine (casTransition_forall (R := caseRevised) hw.cases).mpr fun c hc _ _ => ?_
  exact caseVerifies_moved (hw.cases c (Repository.mem_list_of_getById hc)) toStatus proofId

/-! ## New records -/

theorem caseVerifies_newCase (now : ℕ) (input : CaseInput) (mandates : List GovernanceMandate) :
    CaseVerifies X (newCase X now input mandates) := rfl

theorem verifiable_openGovernanceCase (hw : Verifiable X w) (input : CaseInput) :
    Verifiable X { w with stores := (openGovernanceCase X w.stores w.clock input).2 } := by
  unfold openGovernanceCase
  split
  · exact hw
  · next c hc =>
    refine ⟨hw.mandates, hw.delegations, fun c' hc' => ?_⟩
    rcases Repository.mem_list_save.mp hc' with rfl | ⟨hc', -⟩
    · obtain ⟨-, -, -, -, rfl⟩ := acceptCase_ok.mp hc
      exact caseVerifies_newCase w.clock input _
    · exact hw.cases c' hc'

/-- A mandate that is created leaves every record verifiable exactly if it is. -/
theorem verifiable_createMandate (hw : Verifiable X w) {S : GovernanceSurroundings}
    {orders : PropertyOrders} {input : MandateInput} :
    Verifiable X (w.createMandate X S orders input) ↔
      ((acceptHashedMandate X { S with now := w.clock } orders input).isOk →
        MandateVerifies X (newHashedMandate X w.clock orders input)) := by
  unfold HashedWorld.createMandate
  cases haccept : acceptHashedMandate X { S with now := w.clock } orders input with
  | error e => simp [hw, Except.isOk, Except.toBool]
  | ok m =>
    obtain rfl := acceptHashedMandate_ok haccept
    constructor
    · exact fun h _ => h.mandates _ (Repository.mem_list_save.mpr (.inl rfl))
    · intro hnew
      refine ⟨fun m' hm' => ?_, hw.delegations, hw.cases⟩
      rcases Repository.mem_list_save.mp hm' with rfl | ⟨hm', -⟩
      · exact hnew rfl
      · exact hw.mandates m' hm'

/-- A delegation recomputes to the hash of the caller's envelope where the schema drops nothing. -/
theorem createdDelegationHash_of_kept {now : ℕ} {input : DelegationInput}
    {scope : DelegatorEffectiveScope}
    (h : ∀ entry ∈ input.maximumResourceEnvelope.getD [], entry.1 ≠ "__proto__") :
    createdDelegationHash X input (newDelegation X now input scope) =
      computeDelegationHash X (newDelegation X now input scope) := by
  have hkept := List.filter_eq_self.mpr fun entry hentry => decide_eq_true (h entry hentry)
  unfold createdDelegationHash
  conv_lhs => rw [← hkept]
  rfl

/-- Without collisions, only there. -/
theorem kept_of_createdDelegationHash (hX : Function.Injective X.sha256) {now : ℕ}
    {input : DelegationInput} {scope : DelegatorEffectiveScope}
    (h : createdDelegationHash X input (newDelegation X now input scope) =
      computeDelegationHash X (newDelegation X now input scope)) :
    ∀ entry ∈ input.maximumResourceEnvelope.getD [], entry.1 ≠ "__proto__" := by
  have hjson := Json.stringify_inj (hX h)
  simp only [Json.object.injEq, List.append_cancel_left_eq, List.cons.injEq,
    Prod.mk.injEq, and_true, true_and] at hjson
  exact (resources_kept_iff _).mp hjson.symm

/-- So does a delegation. -/
theorem verifiable_createDelegation (hw : Verifiable X w) {input : DelegationInput} :
    Verifiable X (w.createDelegation X input) ↔
      ∀ d, w.stores.authority.acceptDelegation X w.clock input = .ok d →
        createdDelegationHash X input d = computeDelegationHash X d := by
  unfold HashedWorld.createDelegation AuthorityStores.createDelegation
  cases haccept : w.stores.authority.acceptDelegation X w.clock input with
  | error e => exact ⟨fun _ _ hd => (nomatch hd), fun _ => hw⟩
  | ok d =>
    constructor
    · rintro h _ ⟨⟩
      have hd := h.delegations d (Repository.mem_list_save.mpr (.inl rfl))
      unfold DelegationVerifies at hd
      rw [JsMap.get_set_self] at hd
      exact Option.some.inj hd
    · intro hnew
      refine ⟨hw.mandates, fun d' hd' => ?_, hw.cases⟩
      unfold DelegationVerifies
      rcases Repository.mem_list_save.mp hd' with rfl | ⟨hd', hid⟩
      · rw [JsMap.get_set_self, hnew d' rfl]
      · rw [JsMap.get_set_ne _ _ hid]
        exact hw.delegations d' hd'

/-! ## Revocations -/

theorem verifiable_revokeMandate (hw : Verifiable X w) (targetId : String) :
    Verifiable X { w with stores := (w.stores.revokeMandate targetId).2 } ↔
      ∀ m ∈ w.stores.mandates.getById targetId, RevocableMandate m →
        MandateVerifies X (movedMandate .revoked m) := by
  unfold revokeMandate
  cases hget : w.stores.mandates.getById targetId with
  | none => exact ⟨fun _ _ hm => (nomatch hm), fun _ => hw⟩
  | some m =>
    simp only [Option.mem_def, Option.some.injEq, forall_eq']
    split_ifs with hopen
    · -- the repository is asked to move the mandate from the status that was read
      have hmoved := @verifiable_transitionMandate _ _ hw targetId m.status .revoked
        m.recordRevision
      rw [hget] at hmoved
      simp only [Option.mem_def, Option.some.injEq, forall_eq', forall_const] at hmoved
      exact hmoved.trans ⟨fun h _ => h, fun h => h hopen⟩
    · exact ⟨fun _ h => absurd h hopen, fun _ => hw⟩

theorem verifiable_revokeDelegation (hw : Verifiable X w) (targetId : String) :
    Verifiable X { w with stores := (w.stores.revokeDelegation targetId).2 } ↔
      ∀ d ∈ w.stores.authority.delegations.getById targetId, RevocableDelegation d →
        DelegationVerifies X w.delegationHashes (movedDelegation .revoked d) := by
  unfold revokeDelegation
  cases hget : w.stores.authority.delegations.getById targetId with
  | none => exact ⟨fun _ _ hd => (nomatch hd), fun _ => hw⟩
  | some d =>
    simp only [Option.mem_def, Option.some.injEq, forall_eq']
    split_ifs with hopen
    · have hmoved := @verifiable_transitionDelegation _ _ hw targetId d.status .revoked
        d.recordRevision
      rw [hget] at hmoved
      simp only [Option.mem_def, Option.some.injEq, forall_eq', forall_const] at hmoved
      exact hmoved.trans ⟨fun h _ => h, fun h => h hopen⟩
    · exact ⟨fun _ h => absurd h hopen, fun _ => hw⟩

/-- The revocations of grants and of proofs touch no hashed record. -/
theorem verifiable_revokeDirectGrant (hw : Verifiable X w) (targetId : String) :
    Verifiable X { w with stores := (w.stores.revokeDirectGrant targetId).2 } := by
  unfold revokeDirectGrant
  split
  · exact hw
  · split
    · exact hw
    · exact ⟨hw.mandates, hw.delegations, hw.cases⟩

theorem verifiable_revokeProof (hw : Verifiable X w) (targetId : String) :
    Verifiable X { w with stores := (w.stores.revokeProof targetId).2 } :=
  ⟨hw.mandates, hw.delegations, hw.cases⟩

/-- A revocation leaves every record verifiable exactly if the record that it moves is. -/
theorem verifiable_revokeTarget (hw : Verifiable X w) (input : RevocationInput) :
    Verifiable X { w with stores := (w.stores.revokeTarget X w.clock input).2 } ↔
      (revocationIssues (newRevocation X w.clock input) = [] →
        match input.targetType with
        | .mandate => ∀ m ∈ w.stores.mandates.getById input.targetId, RevocableMandate m →
            MandateVerifies X (movedMandate .revoked m)
        | .delegation => ∀ d ∈ w.stores.authority.delegations.getById input.targetId,
            RevocableDelegation d →
              DelegationVerifies X w.delegationHashes (movedDelegation .revoked d)
        | _ => True) := by
  unfold revokeTarget parseRecord
  split_ifs with hissues
  · -- the revocation itself is saved first
    have hsaved : Verifiable X { w with
        stores := w.stores.setAuthority
          { w.stores.authority with
            revocations := w.stores.authority.revocations.save (newRevocation X w.clock input) } } :=
      ⟨hw.mandates, hw.delegations, hw.cases⟩
    simp only [hissues, forall_const]
    cases input.targetType with
    | directGrant => exact iff_of_true (verifiable_revokeDirectGrant hsaved input.targetId) trivial
    | delegation => exact verifiable_revokeDelegation hsaved input.targetId
    | mandate => exact verifiable_revokeMandate hsaved input.targetId
    | institutionalProof => exact iff_of_true (verifiable_revokeProof hsaved input.targetId) trivial
  · exact ⟨fun _ h => absurd h hissues, fun _ => hw⟩

/-! ## One move -/

theorem isOk_iff {ε α : Type} {r : Except ε α} : r.isOk ↔ ∃ a, r = .ok a := by
  cases r with
  | error e => simp [Except.isOk, Except.toBool]
  | ok a => simp [Except.isOk, Except.toBool]

/-- A move that rewrites nothing that was hashed leaves every record verifiable. -/
theorem verifiable_move (hw : Verifiable X w) {move : RecordMove} (h : KeepsHashes X move w) :
    Verifiable X (recordMove X move w) := by
  cases move with
  | clock now => exact ⟨hw.mandates, hw.delegations, hw.cases⟩
  | grants canonicalAuthority => exact ⟨hw.mandates, hw.delegations, hw.cases⟩
  | holds holds => exact ⟨hw.mandates, hw.delegations, hw.cases⟩
  | createMandate S orders input =>
    exact (verifiable_createMandate hw).mpr fun hok => mandateHash_of_builtAsParsed w.clock (h hok)
  | activateMandate S input =>
    show Verifiable X { w with stores := (w.stores.activateMandate S input).2 }
    unfold activateMandate
    cases hmovable : w.stores.requireActivatable S input with
    | error e => exact hw
    | ok m => exact absurd (by rw [hmovable]; rfl) h
  | supersedeMandate S input =>
    show Verifiable X { w with stores := (w.stores.supersedeMandate S input).2 }
    unfold supersedeMandate
    cases hmovable : w.stores.requireSupersedable S input with
    | error e => exact hw
    | ok m => exact absurd (by rw [hmovable]; rfl) h
  | transitionMandate id fromStatus revision toStatus =>
    refine (verifiable_transitionMandate hw).mpr fun m hm hstatus hrevision => ?_
    rw [h m hm hstatus hrevision, ← hstatus]
    exact mandateVerifies_same (hw.mandates m (Repository.mem_list_of_getById hm))
  | createDelegation input =>
    refine (verifiable_createDelegation hw).mpr fun d haccept => ?_
    obtain ⟨scope, -, -, rfl⟩ := acceptDelegation_ok haccept
    exact createdDelegationHash_of_kept (h (by rw [haccept]; rfl))
  | transitionDelegation id fromStatus revision toStatus =>
    refine (verifiable_transitionDelegation hw).mpr fun d hd hstatus hrevision => ?_
    rw [h d hd hstatus hrevision, ← hstatus]
    exact delegationVerifies_same (hw.delegations d (Repository.mem_list_of_getById hd))
  | openGovernanceCase input => exact verifiable_openGovernanceCase hw input
  | transitionCase id fromStatus revision toStatus proofId =>
    exact verifiable_transitionCase hw id fromStatus revision toStatus proofId
  | revokeTarget input =>
    refine (verifiable_revokeTarget hw input).mpr fun hissues => ?_
    have hkept := h hissues
    revert hkept
    cases input.targetType with
    | mandate => exact fun hkept m hm hopen => absurd hopen (hkept m hm)
    | delegation => exact fun hkept d hd hopen => absurd hopen (hkept d hd)
    | _ => exact fun _ => trivial

/-- A mandate that is moved to a state that it was not in does not recompute to its hash. -/
theorem not_verifiable_moved (hX : Function.Injective X.sha256) (hw : Verifiable X w) {id : String}
    {m : GovernanceMandate} (hm : w.stores.mandates.getById id = some m) {status : MandateState}
    (hstatus : status ≠ m.status) :
    ¬Verifiable X { w with
        stores := (w.stores.transitionMandate id m.status m.recordRevision status).2 } := by
  intro h
  have hmoved := (verifiable_transitionMandate hw).mp h m hm rfl rfl
  exact hstatus (status_of_mandateVerifies hX
    (hw.mandates m (Repository.mem_list_of_getById hm)) hmoved)

/-- Without collisions, every other move leaves a record that is not verifiable. -/
theorem keepsHashes_of_move (hX : Function.Injective X.sha256) (hw : Verifiable X w)
    {move : RecordMove} (h : Verifiable X (recordMove X move w)) : KeepsHashes X move w := by
  cases move with
  | createMandate S orders input =>
    exact fun hok =>
      builtAsParsed_of_mandateHash hX ((verifiable_createMandate hw).mp h hok)
  | activateMandate S input =>
    intro hok
    obtain ⟨m, hmovable⟩ := isOk_iff.mp hok
    obtain ⟨hm, hstatus⟩ := requireMovable_ok hmovable
    simp only [recordMove, activateMandate, hmovable] at h
    refine not_verifiable_moved hX hw hm (fun hactive => ?_) h
    rw [← hactive] at hstatus
    simp at hstatus
  | supersedeMandate S input =>
    intro hok
    obtain ⟨m, hmovable⟩ := isOk_iff.mp hok
    obtain ⟨hm, hstatus⟩ := requireMovable_ok hmovable
    rw [List.mem_singleton] at hstatus
    simp only [recordMove, supersedeMandate, hmovable] at h
    rw [← hstatus] at h
    refine not_verifiable_moved hX hw hm (fun hsuperseded => ?_) h
    rw [hstatus] at hsuperseded
    cases hsuperseded
  | transitionMandate id fromStatus revision toStatus =>
    intro m hm hstatus hrevision
    have hmoved := (verifiable_transitionMandate hw).mp h m hm hstatus hrevision
    rw [← hstatus]
    exact status_of_mandateVerifies hX (hw.mandates m (Repository.mem_list_of_getById hm)) hmoved
  | createDelegation input =>
    intro hok
    obtain ⟨d, haccept⟩ := isOk_iff.mp hok
    have hhash := (verifiable_createDelegation hw).mp h d haccept
    obtain ⟨scope, -, -, rfl⟩ := acceptDelegation_ok haccept
    exact kept_of_createdDelegationHash hX hhash
  | transitionDelegation id fromStatus revision toStatus =>
    intro d hd hstatus hrevision
    have hmoved := (verifiable_transitionDelegation hw).mp h d hd hstatus hrevision
    rw [← hstatus]
    exact status_of_delegationVerifies hX
      (hw.delegations d (Repository.mem_list_of_getById hd)) hmoved
  | revokeTarget input =>
    intro hissues
    have hmoved := (verifiable_revokeTarget hw input).mp h hissues
    revert hmoved
    cases input.targetType with
    | mandate =>
      intro hmoved m hm hopen
      have hstatus := status_of_mandateVerifies hX
        (hw.mandates m (Repository.mem_list_of_getById hm)) (hmoved m hm hopen)
      unfold RevocableMandate at hopen
      rw [← hstatus] at hopen
      simp at hopen
    | delegation =>
      intro hmoved d hd hopen
      have hstatus := status_of_delegationVerifies hX
        (hw.delegations d (Repository.mem_list_of_getById hd)) (hmoved d hd hopen)
      unfold RevocableDelegation at hopen
      rw [← hstatus] at hopen
      simp at hopen
    | _ => exact fun _ => trivial
  | _ => trivial

/-- No call of a vote rewrites what was hashed. -/
theorem verifiable_call (hw : Verifiable X w) (o : CaseOp) :
    Verifiable X (hashedGovernance X o w).2 := by
  cases o with
  | transitionCase id fromStatus revision toStatus proofId =>
    exact verifiable_transitionCase hw id fromStatus revision toStatus proofId
  | _ => exact ⟨hw.mandates, hw.delegations, hw.cases⟩

/-! ## Whole runs -/

section Runs

variable {ι : Type} [DecidableEq ι]

/-- The runs whose moves rewrite nothing that was hashed. -/
def KeepsHashesAlong (X : GovernanceExternal)
    (pool : Pool CaseSig ι HashedWorld (Except GovernanceFailure AttestResult))
    (acts : List (Action ι RecordMove)) : Prop :=
  pool.Along (recordSystem X) (fun _ _ _ => True) (KeepsHashes X) acts

theorem verifiable_act
    {pool : Pool CaseSig ι HashedWorld (Except GovernanceFailure AttestResult)}
    {a : Action ι RecordMove} (h : pool.Meets (fun _ _ _ => True) (KeepsHashes X) a)
    (hpool : Verifiable X pool.state) : Verifiable X (pool.act (recordSystem X) a).state := by
  rcases Pool.act_cases (recordSystem X) pool a with
    ⟨i, o, k, -, -, -, hact⟩ | ⟨i, -, hact⟩ | ⟨move, rfl, hact⟩ | hact
  · rw [hact]
    exact verifiable_call hpool o
  · rw [hact]
    exact hpool
  · rw [hact]
    exact verifiable_move hpool h.env
  · rw [hact]
    exact hpool

/-- Without collisions, an action between states whose records are verifiable rewrites nothing that
was hashed. -/
theorem meets_of_verifiable (hX : Function.Injective X.sha256)
    {pool : Pool CaseSig ι HashedWorld (Except GovernanceFailure AttestResult)}
    {a : Action ι RecordMove} (hpool : Verifiable X pool.state)
    (h : Verifiable X (pool.act (recordSystem X) a).state) :
    pool.Meets (fun _ _ _ => True) (KeepsHashes X) a := by
  refine ⟨by split <;> trivial, ?_⟩
  cases a with
  | env move => exact keepsHashes_of_move hX hpool h
  | _ => trivial

end Runs

/-- If no step of a run rewrites what was hashed, every stored record recomputes to its stored hash
in every state of the run. -/
theorem verifiable_throughout {ι : Type} [DecidableEq ι] (X : GovernanceExternal)
    (nonceHash : String → String) (clock : ℕ) (inputs : ι → AttestInput)
    (acts : List (Action ι RecordMove))
    (h : KeepsHashesAlong X (recordPool X nonceHash clock inputs) acts) :
    ∀ before rest, acts = before ++ rest →
      Verifiable X ((recordPool X nonceHash clock inputs).exec (recordSystem X) before).state := by
  rintro before rest rfl
  have hbefore := (Pool.along_append.mp h).1
  exact Pool.exec_keeps (recordSystem X) (fun _ _ hmeets hpool => verifiable_act hmeets hpool)
    before _ hbefore (verifiable_empty X clock)

/-- Without collisions, only in such runs. -/
theorem keepsHashes_throughout {ι : Type} [DecidableEq ι] (X : GovernanceExternal)
    (hX : Function.Injective X.sha256)
    (pool : Pool CaseSig ι HashedWorld (Except GovernanceFailure AttestResult))
    (acts : List (Action ι RecordMove))
    (h : ∀ before rest, acts = before ++ rest →
      Verifiable X (pool.exec (recordSystem X) before).state) :
    KeepsHashesAlong X pool acts := by
  induction acts generalizing pool with
  | nil => trivial
  | cons a acts ih =>
    refine ⟨meets_of_verifiable hX (h [] _ rfl) (h [a] acts rfl), ih _ fun before rest hacts => ?_⟩
    exact h (a :: before) rest (congrArg (a :: ·) hacts)

/-! ## One mandate -/

namespace GovernanceScenario

/-- Digests that keep what they digest, and short ids. -/
def terse : GovernanceExternal := { external with slice16 := fun _ => "id" }

/-- Everyone is an administrator. -/
def administrators : GovernanceSurroundings where
  now := 1
  constitutionalControlEnabled _ := false
  activationCapability := none
  isGovernanceAdmin := some fun _ _ _ => true
  isGovernanceHoldOperator := none

/-- A mandate on plans of one project, which takes two approvals. -/
def planMandate : MandateInput where
  institutionId := "institution_1"
  createdBy := "olivia"
  subjectClasses := ["PLAN"]
  requiredAuthorities := ["APPROVER"]
  projectScope := ["project_1"]
  environmentScope := ["production"]
  quorumRequirement := some (approvals 2)
  separationOfDutyRules := none
  delegationPolicy := none
  maximumAuthorityDurationMs := none
  maximumDelegationDepth := none
  riskScope := none
  resourceScope := none
  effectiveFrom := none
  effectiveUntil := none
  mandateVersion := none

/-- Alice has a grant, passes it on to Bob, and the mandate is created; then the grant is revoked. -/
def creations : List (Action Unit RecordMove) :=
  [.env (.grants authority.canonicalAuthority), .env (.createDelegation toBob),
    .env (.createMandate administrators ⟨[], [], []⟩ planMandate), .run (),
    .env (.revokeTarget ⟨.directGrant, "grant_1", "left", "olivia", none⟩)]

/-- The mandate is created and activated. -/
def activation : List (Action Unit RecordMove) :=
  [.env (.createMandate administrators ⟨[], [], []⟩ planMandate),
    .env (.activateMandate administrators ⟨"gmd_id", "olivia"⟩)]

end GovernanceScenario

open GovernanceScenario

/-- Bob's delegation and the mandate recompute to their hashes, by the theorem. -/
theorem verifiable_throughout_creations :
    Verifiable terse
      ((recordPool terse id 1 fun _ => vote "bob" "APPROVER").exec (recordSystem terse)
        creations).state :=
  verifiable_throughout terse id 1 (fun _ : Unit => vote "bob" "APPROVER") creations
    (by unfold KeepsHashesAlong; decide) creations [] (List.append_nil _).symm

/-- A mandate that is activated keeps the hash of the draft. -/
theorem activation_unverifiable :
    ¬∀ (inputs : Unit → AttestInput) (acts : List (Action Unit RecordMove)),
      Verifiable terse ((recordPool terse id 1 inputs).exec (recordSystem terse) acts).state := by
  intro h
  have hX : Function.Injective terse.sha256 := fun _ _ h => h
  have hkeeps := keepsHashes_throughout terse hX
    (recordPool terse id 1 fun _ => vote "bob" "APPROVER") activation fun before _ _ => h _ before
  revert hkeeps
  unfold KeepsHashesAlong
  decide

end Orchestrator
