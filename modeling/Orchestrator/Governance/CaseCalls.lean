import Orchestrator.Governance.Case

/-!
# What the calls of an attestation do

* `SameCase`: two versions of one case;
* `CaseOp.Reads`, the calls that write nothing, and which parts of `attest` make only such calls;
* `transitionCase_cases`: a transition succeeds on the case as it was read, or writes nothing;
* `validContributions`: what stored attestations amount to at an instant.
-/

namespace Orchestrator

open Atomic Collections GovernanceService

/-! ## Versions of a case -/

/-- Two versions of a case: only the status, the proof and the revision may differ. -/
def SameCase (c c' : GovernanceCase) : Prop :=
  c' = { c with
    status := c'.status
    institutionalProofId := c'.institutionalProofId
    recordRevision := c'.recordRevision }

theorem SameCase.refl (c : GovernanceCase) : SameCase c c := rfl

theorem SameCase.trans {c c' c'' : GovernanceCase} (h : SameCase c c') (h' : SameCase c' c'') :
    SameCase c c'' := by
  unfold SameCase at h h' ⊢
  rw [h', h]

theorem sameCase_moved (c : GovernanceCase) (status : GovernanceCaseState)
    (institutionalProofId : Option String) :
    SameCase c (movedCase status institutionalProofId c) := rfl

section SameCase

variable {c c' : GovernanceCase} (h : SameCase c c')

include h

theorem SameCase.governanceCaseId : c'.governanceCaseId = c.governanceCaseId := by rw [h]

theorem SameCase.quorumRequirement : c'.quorumRequirement = c.quorumRequirement := by rw [h]

theorem SameCase.separationRules : c'.separationRules = c.separationRules := by rw [h]

theorem SameCase.requiredRole : c'.requiredRole = c.requiredRole := by rw [h]

theorem SameCase.caseHash : c'.caseHash = c.caseHash := by rw [h]

theorem SameCase.project : caseProject c' = caseProject c := by
  unfold caseProject
  rw [h]

theorem SameCase.environment : caseEnvironment c' = caseEnvironment c := by
  unfold caseEnvironment
  rw [h]

/-- The questions about both are the same. -/
theorem SameCase.question (principalId authorityRole : String) (action : Option String) (at_ : ℕ) :
    caseQuestion c' principalId authorityRole action at_ =
      caseQuestion c principalId authorityRole action at_ := by
  unfold caseQuestion
  rw [h.project, h.environment]

end SameCase

/-! ## Transitions -/

theorem GovernanceCaseState.text_inj {a b : GovernanceCaseState} (h : a.text = b.text) : a = b := by
  revert h
  cases a <;> cases b <;> decide

/-- A transition of the record as it was read succeeds. -/
theorem casTransition_of_current {α : Type} {R : Revised α} (notFound : GovernanceFailure)
    {r : Repository R.id} {id : String} (moved : α → α) {a : α} (h : r.getById id = some a) :
    casTransition R notFound r id (R.status a) (R.revision a) moved =
      (.ok (moved a), r.save (moved a)) := by
  unfold casTransition assertCasTransition
  rw [h]
  simp

/-- A transition of a stored record fails where its status or revision is another. -/
theorem casTransition_stale {α : Type} {R : Revised α} {notFound e : GovernanceFailure}
    {r r' : Repository R.id} {id fromStatus : String} {revision : ℕ} {moved : α → α} {a : α}
    (h : r.getById id = some a)
    (hcas : casTransition R notFound r id fromStatus revision moved = (.error e, r')) :
    assertCasTransition R.entity id (R.status a) fromStatus (R.revision a) revision = .error e := by
  unfold casTransition at hcas
  rw [h] at hcas
  cases hassert : assertCasTransition R.entity id (R.status a) fromStatus (R.revision a) revision with
  | error e' =>
    simp only [hassert] at hcas
    cases hcas
    rfl
  | ok u =>
    simp only [hassert] at hcas
    cases hcas

/-- So does the transition of a case. -/
theorem GovernanceWorld.transitionCase_stale {w : GovernanceWorld} {id : String}
    {fromStatus toStatus : GovernanceCaseState} {revision : ℕ} {proofId : Option String}
    {e : GovernanceFailure} {c : GovernanceCase} (h : w.cases.getById id = some c)
    (hmove : w.transitionCase id fromStatus revision toStatus proofId = (.error e, w)) :
    assertCasTransition "GovernanceCase" id c.status.text fromStatus.text c.recordRevision
      revision = .error e := by
  unfold transitionCase at hmove
  rcases hcas : casTransition caseRevised
    (.governance .governanceCaseNotFound s!"Governance case {id} not found") w.cases id
    fromStatus.text revision (movedCase toStatus proofId) with ⟨r, cases⟩
  rw [hcas] at hmove
  obtain rfl : r = .error e := congrArg Prod.fst hmove
  exact casTransition_stale (R := caseRevised) h hcas

/-- A transition succeeds on the case as it was read, or writes nothing. -/
theorem GovernanceWorld.transitionCase_cases (w : GovernanceWorld) (id : String)
    (fromStatus : GovernanceCaseState) (revision : ℕ) (toStatus : GovernanceCaseState)
    (proofId : Option String) :
    (∃ c, w.cases.getById id = some c ∧ c.status = fromStatus ∧ c.recordRevision = revision ∧
      w.transitionCase id fromStatus revision toStatus proofId =
        (.ok (movedCase toStatus proofId c),
          { w with cases := w.cases.save (movedCase toStatus proofId c) })) ∨
    ((∃ e, w.transitionCase id fromStatus revision toStatus proofId = (.error e, w)) ∧
      ∀ c, w.cases.getById id = some c → c.status = fromStatus → c.recordRevision ≠ revision) := by
  unfold transitionCase
  by_cases hcurrent : ∃ c, w.cases.getById id = some c ∧ c.status = fromStatus ∧
      c.recordRevision = revision
  · obtain ⟨c, hc, rfl, rfl⟩ := hcurrent
    refine .inl ⟨c, hc, rfl, rfl, ?_⟩
    have hmove := casTransition_of_current (R := caseRevised)
      (.governance .governanceCaseNotFound s!"Governance case {id} not found")
      (movedCase toStatus proofId) hc
    simp only [caseRevised] at hmove ⊢
    rw [hmove]
  · refine .inr ⟨?_, fun c hc hstatus hrevision => hcurrent ⟨c, hc, hstatus, hrevision⟩⟩
    rcases hcas : casTransition caseRevised
      (.governance .governanceCaseNotFound s!"Governance case {id} not found") w.cases id
      fromStatus.text revision (movedCase toStatus proofId) with ⟨e | c, cases⟩
    · obtain rfl := casTransition_error hcas
      exact ⟨e, rfl⟩
    · obtain ⟨c', hc', hstatus, hrevision, -, -⟩ := casTransition_ok hcas
      exact absurd ⟨c', hc', GovernanceCaseState.text_inj hstatus, hrevision⟩ hcurrent

/-! ## Calls -/

/-- The calls that write nothing. -/
def CaseOp.Reads : CaseOp → Prop
  | .nowIso => True
  | .getCase _ => True
  | .listActiveHolds _ => True
  | .resolveAuthority _ => True
  | .getAttestation _ => True
  | .listAttestations _ => True
  | .getProof _ => True
  | .getProofByCase _ => True
  | _ => False

variable {X : GovernanceExternal} {w : CaseWorld}

theorem governance_reads {o : CaseOp} (h : o.Reads) (w : CaseWorld) :
    (governance X o w).2 = w := by
  cases o <;> first | rfl | exact h.elim

/-- No call of an attestation touches the stores that authority rests on. -/
theorem governance_authority (o : CaseOp) (w : CaseWorld) :
    (governance X o w).2.stores.authority = w.stores.authority := by
  cases o <;> rfl

theorem governance_clock (o : CaseOp) (w : CaseWorld) : (governance X o w).2.clock = w.clock := by
  cases o <;> rfl

/-- A case that is stored stays, in some version. -/
theorem governance_case (o : CaseOp) {id : String} {c : GovernanceCase}
    (h : w.stores.cases.getById id = some c) :
    ∃ c', (governance X o w).2.stores.cases.getById id = some c' ∧ SameCase c c' := by
  cases o with
  | transitionCase id' fromStatus revision toStatus proofId =>
    simp only [governance]
    rcases w.stores.transitionCase_cases id' fromStatus revision toStatus proofId with
      ⟨c', hc', -, -, hmove⟩ | ⟨⟨e, hmove⟩, -⟩
    · rw [hmove]
      by_cases hid : id' = id
      · subst hid
        obtain rfl := Option.some.inj (h.symm.trans hc')
        have hkey := Repository.id_of_getById hc'
        refine ⟨movedCase toStatus proofId c, ?_, sameCase_moved _ _ _⟩
        rw [← hkey]
        exact Repository.getById_save_self _ (movedCase toStatus proofId c)
      · refine ⟨c, ?_, .refl c⟩
        have hkey := Repository.id_of_getById hc'
        rw [Repository.getById_save_ne _ (by simpa [movedCase, hkey] using hid)]
        exact h
    · rw [hmove]
      exact ⟨c, h, .refl c⟩
  | _ => exact ⟨c, h, .refl c⟩

/-- The calls that store no attestation. -/
def CaseOp.Silent : CaseOp → Prop
  | .saveAttestation _ => False
  | _ => True

theorem CaseOp.Reads.silent {o : CaseOp} (h : o.Reads) : o.Silent := by
  cases o <;> trivial

/-- The calls once a vote is stored: they read, move the case, or save its proof. -/
def CaseOp.Settles : CaseOp → Prop
  | .transitionCase .. => True
  | .saveProof _ => True
  | o => o.Reads

theorem CaseOp.Reads.settles {o : CaseOp} (h : o.Reads) : o.Settles := by
  cases o <;> trivial

theorem CaseOp.Settles.silent {o : CaseOp} (h : o.Settles) : o.Silent := by
  cases o <;> trivial

/-! ## Parts that only read -/

namespace GovernanceService

theorem only_call {C : CaseOp → Prop} {o : CaseOp} (h : C o) : (call o).Only C := Async.only_await h

theorem requireCase_reads (id : String) : (requireCase id).Only CaseOp.Reads := by
  refine (only_call trivial).bind fun found => ?_
  cases (found : Option GovernanceCase) with
  | none => exact Async.only_throw _
  | some c => exact Async.only_pure c

theorem assertNoActiveHold_reads (c : GovernanceCase) (authorityRole : String) (now : ℕ) :
    (assertNoActiveHold c authorityRole now).Only CaseOp.Reads :=
  (only_call trivial).bind fun _ => Async.only_ofExcept _

theorem requireAuthority_reads (c : GovernanceCase) (input : AttestInput) (now : ℕ) :
    (requireAuthority c input now).Only CaseOp.Reads :=
  (only_call trivial).bind fun _ => .ite (Async.only_throw _) (Async.only_pure _)

theorem attestExisting_reads (input : AttestInput) (existing : GovernanceAttestation) :
    (attestExisting input existing).Only CaseOp.Reads := by
  unfold attestExisting
  refine .ite (Async.only_throw _) ((requireCase_reads _).bind fun c => ?_)
  cases c.institutionalProofId with
  | none => exact Async.only_pure _
  | some proofId => exact (only_call trivial).bind fun _ => Async.only_pure _

theorem collectValidContributions_reads (c : GovernanceCase) (at_ : ℕ)
    (attestations : List GovernanceAttestation) :
    (collectValidContributions c at_ attestations).Only CaseOp.Reads := by
  induction attestations with
  | nil => exact Async.only_pure _
  | cons a attestations ih =>
    exact (only_call trivial).bind fun _ => ih.bind fun _ => Async.only_pure _

/-! ## Parts that settle a case -/

section Settles

variable {c : GovernanceCase}

theorem transition_only {C : CaseOp → Prop} {toStatus : GovernanceCaseState}
    {proofId : Option String}
    (h : C (.transitionCase c.governanceCaseId c.status c.recordRevision toStatus proofId)) :
    (transition c toStatus proofId).Only C := only_call h

theorem ensureProofForCase_only (attestations : List GovernanceAttestation) (now : ℕ) :
    (ensureProofForCase X c attestations now).Only CaseOp.Settles := by
  have hreads {α : Type} {p : Call α} (hp : p.Only CaseOp.Reads) : p.Only CaseOp.Settles :=
    hp.mono fun _ ho => ho.settles
  refine (only_call trivial).bind fun existing => ?_
  cases (existing : Option AuthorizationProof) with
  | some proof => exact Async.only_pure _
  | none =>
    refine (hreads (assertNoActiveHold_reads _ _ _)).bind fun _ => ?_
    refine (hreads (collectValidContributions_reads _ _ _)).bind fun _ => ?_
    exact .ite (Async.only_throw _) (only_call trivial)

theorem settle_only (attestations : List GovernanceAttestation) (now : ℕ)
    (outcome : QuorumOutcome) :
    (settle X c attestations now outcome).Only CaseOp.Settles := by
  cases outcome with
  | pending => exact Async.only_pure _
  | blocked => exact (transition_only trivial).bind fun _ => Async.only_pure _
  | satisfied =>
    exact (ensureProofForCase_only _ _).bind fun _ =>
      (transition_only trivial).bind fun _ => Async.only_pure _

theorem createAuthoritySnapshot_only {C : CaseOp → Prop} {resolution : AuthorityResolution}
    (h : C (.saveSnapshot (buildAuthoritySnapshot X resolution))) :
    (createAuthoritySnapshot X resolution).Only C := by
  unfold createAuthoritySnapshot parseRecord
  split
  · exact only_call h
  · trivial

theorem beginCollecting_only : (beginCollecting c).Only CaseOp.Settles :=
  .ite (transition_only trivial) (Async.only_pure _)

theorem evaluateCase_only (governanceCaseId : String) (saved : GovernanceAttestation) (now : ℕ) :
    (evaluateCase X governanceCaseId saved c now).Only CaseOp.Settles := by
  have hreads {α : Type} {p : Call α} (hp : p.Only CaseOp.Reads) : p.Only CaseOp.Settles :=
    hp.mono fun _ ho => ho.settles
  refine (only_call trivial).bind fun attestations => ?_
  refine (hreads (collectValidContributions_reads _ _ _)).bind fun contributions => ?_
  exact (settle_only _ _ _).bind fun _ => Async.only_pure _

end Settles

/-- A transition of the case, alone. -/
theorem exec_transition (c : GovernanceCase) (toStatus : GovernanceCaseState)
    (proofId : Option String) :
    (transition c toStatus proofId).exec (governance X) w =
      let moved := w.stores.transitionCase c.governanceCaseId c.status c.recordRevision toStatus
        proofId
      (moved.1, { w with stores := moved.2 }) := rfl

/-! ## Contributions -/

/-- The contributions of the attestations whose principals are authorized at the instant. -/
def validContributions (X : GovernanceExternal) (s : AuthorityStores) (c : GovernanceCase)
    (at_ : ℕ) (attestations : List GovernanceAttestation) : List QuorumSeatContribution :=
  (attestations.filter fun a =>
    (s.resolveAuthority X (caseQuestion c a.principalId a.authorityRole none at_)).outcome =
      .authorized).map contribution

/-- Alone, the service collects the valid contributions. -/
theorem exec_collectValidContributions (c : GovernanceCase) (at_ : ℕ)
    (attestations : List GovernanceAttestation) :
    (collectValidContributions c at_ attestations).exec (governance X) w =
      (.ok (validContributions X w.stores.authority c at_ attestations), w) := by
  induction attestations with
  | nil => rfl
  | cons a attestations ih =>
    rw [collectValidContributions, Async.bind_eq, Async.exec_bind, call, Async.exec_await]
    simp only [governance]
    rw [Async.exec_bind_of_ok ih]
    by_cases hauthorized : (w.stores.authority.resolveAuthority X
        (caseQuestion c a.principalId a.authorityRole none at_)).outcome = .authorized
    · simp [validContributions, hauthorized]
    · simp [validContributions, hauthorized]

end GovernanceService

/-- The contributions to two versions of a case are the same. -/
theorem SameCase.validContributions {c c' : GovernanceCase} (h : SameCase c c')
    (s : AuthorityStores) (at_ : ℕ) (attestations : List GovernanceAttestation) :
    validContributions X s c' at_ attestations = validContributions X s c at_ attestations := by
  unfold GovernanceService.validContributions
  simp only [h.question]

end Orchestrator
