import Orchestrator.Atomic.Guarded
import Orchestrator.Governance.CaseDecision
import Orchestrator.Governance.Scenario

/-!
# Reached quorums

Any number of votes on one case, in any order of their calls, each made again when it throws.

* `Undisturbed`: no vote is stored by a call that then loses the race for the case's first move,
  or that is kept from the proof, and votes count as they do in the end;
* `reaching`: a caller owes a count from the moment it stores a vote until it has listed the votes
  and found too few; while the votes suffice and the case is not satisfied, somebody owes;
* `quorum_kept`: once every call has returned, votes that suffice have satisfied the case.
-/

namespace Orchestrator

open Atomic Collections GovernanceService GovernanceQuorum

/-! ## What counts -/

/-- Whether the attestations of a principal under a role count. -/
abbrev Counts := String → String → Bool

/-- Those count whose principals the state authorizes. -/
def countsIn (X : GovernanceExternal) (c₀ : GovernanceCase) (w : CaseWorld) : Counts :=
  fun principalId authorityRole => decide ((w.stores.authority.resolveAuthority X
    (caseQuestion c₀ principalId authorityRole none w.clock)).outcome = .authorized)

/-- The contributions that count. -/
def counted (A : Counts) (attestations : List GovernanceAttestation) :
    List QuorumSeatContribution :=
  (attestations.filter fun a => A a.principalId a.authorityRole).map contribution

theorem counted_cons (A : Counts) (a : GovernanceAttestation)
    (attestations : List GovernanceAttestation) :
    counted A (a :: attestations) =
      if A a.principalId a.authorityRole then contribution a :: counted A attestations
      else counted A attestations := by
  unfold counted
  rw [List.filter_cons]
  split_ifs <;> rfl

/-- The attestations that count reach the quorum of the case. -/
def Suffice (A : Counts) (c₀ : GovernanceCase) (attestations : List GovernanceAttestation) : Prop :=
  (evaluateGovernanceQuorum c₀.quorumRequirement (counted A attestations)).outcome = .satisfied

instance (A : Counts) (c₀ : GovernanceCase) (attestations : List GovernanceAttestation) :
    Decidable (Suffice A c₀ attestations) :=
  inferInstanceAs (Decidable (_ = _))

/-! ## What must not happen -/

/-- In its current attempt the caller has stored its vote. -/
def hasVoted : Log CaseSig → Bool
  | [] => false
  | ⟨.nowIso, _⟩ :: _ => false
  | ⟨.saveAttestation _, _⟩ :: _ => true
  | _ :: log => hasVoted log

/-- The instant of the caller's last question of authority. -/
def askedAt : Log CaseSig → ℕ
  | [] => 0
  | ⟨.resolveAuthority q, _⟩ :: _ => q.atIso
  | _ :: log => askedAt log

/-- A call that would start the collection finds it not started; and once the caller has voted, a
question of authority is answered as `A` says, and no hold covers the role that the case
requires. -/
def Undisturbed (X : GovernanceExternal) (A : Counts) (c₀ : GovernanceCase) (log : Log CaseSig)
    (w : CaseWorld) : CaseOp → Prop
  | .transitionCase _ .open_ _ _ _ => statusOf w.stores c₀.governanceCaseId ≠ some .collecting
  | .resolveAuthority q => hasVoted log = true →
      decide ((w.stores.authority.resolveAuthority X q).outcome = .authorized) =
        A q.principalId q.requiredRole
  | .listActiveHolds projectId => hasVoted log = true →
      ∀ h ∈ w.stores.authority.listActiveByProject projectId,
        holdCovers h (some (caseEnvironment c₀)) (given c₀.requiredRole) none (askedAt log) = false
  | _ => True

instance (X : GovernanceExternal) (A : Counts) (c₀ : GovernanceCase) (log : Log CaseSig)
    (w : CaseWorld) (o : CaseOp) : Decidable (Undisturbed X A c₀ log w o) := by
  unfold Undisturbed
  split <;> infer_instance

/-! ## The course of a case -/

/-- How far a case has come. -/
def stage : Option GovernanceCaseState → ℕ
  | some .open_ => 0
  | some .collecting => 1
  | _ => 2

/-- The case comes further or stays in its status, and a proof of it stays. -/
def Onward (id : String) (w w' : CaseWorld) : Prop :=
  (statusOf w'.stores id = statusOf w.stores id ∨
    stage (statusOf w.stores id) < stage (statusOf w'.stores id)) ∧
  (w.stores.proofs.getByCase id ≠ none → w'.stores.proofs.getByCase id ≠ none)

theorem stage_le (status : Option GovernanceCaseState) : stage status ≤ 2 := by
  unfold stage
  split <;> omega

theorem one_le_stage {status : Option GovernanceCaseState} (h : status ≠ some .open_) :
    1 ≤ stage status := by
  unfold stage
  split
  · exact absurd rfl h
  · omega
  · omega

/-- A case that has left `OPEN` and is not collecting takes no more votes. -/
theorem stage_eq_two {status : Option GovernanceCaseState} (h : 1 ≤ stage status)
    (hne : status ≠ some .collecting) : stage status = 2 := by
  unfold stage at h ⊢
  split at h
  · omega
  · exact absurd rfl hne
  · rfl

theorem Onward.refl (id : String) (w : CaseWorld) : Onward id w w := ⟨.inl rfl, fun h => h⟩

theorem Onward.trans {id : String} {w w' w'' : CaseWorld} (h : Onward id w w')
    (h' : Onward id w' w'') : Onward id w w'' := by
  refine ⟨?_, fun hproof => h'.2 (h.2 hproof)⟩
  rcases h.1 with hsame | hlt
  · rw [← hsame]
    exact h'.1
  · rcases h'.1 with hsame' | hlt'
    · exact .inr (hsame' ▸ hlt)
    · exact .inr (hlt.trans hlt')

theorem Onward.stage_le {id : String} {w w' : CaseWorld} (h : Onward id w w') :
    stage (statusOf w.stores id) ≤ stage (statusOf w'.stores id) := by
  rcases h.1 with hsame | hlt
  · rw [hsame]
  · exact hlt.le

/-- What is satisfied stays so. -/
theorem Onward.satisfied {id : String} {w w' : CaseWorld} (h : Onward id w w')
    (hw : statusOf w.stores id = some .satisfied) : statusOf w'.stores id = some .satisfied := by
  rcases h.1 with hsame | hlt
  · rw [hsame, hw]
  · rw [hw] at hlt
    exact absurd hlt (Nat.not_lt.mpr (Orchestrator.stage_le _))

/-! ## Debts -/

variable {ι : Type} [DecidableEq ι] (X : GovernanceExternal) (A : Counts) (c₀ : GovernanceCase)

/-- What a caller owes after a call: a count, once it has stored a vote, until it lists votes that do
not suffice. -/
def owesAfter (owes : Bool) : Event CaseSig → Bool
  | ⟨.saveAttestation _, _⟩ => true
  | ⟨.listAttestations _, .ok (attestations : List GovernanceAttestation)⟩ =>
    owes && decide (Suffice A c₀ attestations)
  | _ => owes

/-- The case `c₀` as it is stored now. -/
structure Version (w : CaseWorld) (c : GovernanceCase) : Prop where
  same : SameCase c₀ c
  started : c.status = .open_ → c.recordRevision = c₀.recordRevision
  collecting : c.status = .collecting → c.recordRevision = c₀.recordRevision + 1
  satisfied : c.status = .satisfied → c.institutionalProofId = some (mintProofId X c₀.caseHash) ∧
    w.stores.proofs.getByCase c₀.governanceCaseId ≠ none

/-- The case is stored, with its proof once it is satisfied; and unless it is satisfied, somebody owes
a count of votes that suffice. -/
structure Accounted (a : CaseWorld × (ι → Bool)) : Prop where
  version : ∃ c, a.1.stores.cases.getById c₀.governanceCaseId = some c ∧ Version X c₀ a.1 c
  proof : ∀ p, a.1.stores.proofs.getByCase c₀.governanceCaseId = some p →
    p.institutionalAuthorizationProofId = mintProofId X c₀.caseHash
  owed : statusOf a.1.stores c₀.governanceCaseId ≠ some .satisfied →
    Suffice A c₀ (a.1.stores.attestations.listByCase c₀.governanceCaseId) → ∃ j, a.2 j = true

/-- Votes on the case, with what their callers owe. -/
def reaching : Guarded (votingSystem X) ι Bool where
  note := owesAfter A c₀
  inv := Accounted X A c₀
  moves := Onward c₀.governanceCaseId
  moves_refl := .refl _
  moves_trans _ _ _ := .trans
  env_inv _ _ h := by
    obtain ⟨⟨c, hc, hversion⟩, hproof, howed⟩ := h
    exact ⟨⟨c, hc, hversion.same, hversion.started, hversion.collecting, hversion.satisfied⟩,
      hproof, howed⟩
  env_moves _ _ := ⟨.inl rfl, fun h => h⟩
  guard _ := Undisturbed X A c₀

/-- What a caller knows for good: whether it owes a count, and how far the case has come at least. -/
def Knows (i : ι) (owes : Bool) (k : ℕ) (a : CaseWorld × (ι → Bool)) : Prop :=
  a.2 i = owes ∧ k ≤ stage (statusOf a.1.stores c₀.governanceCaseId)

/-- The caller owes nothing, or the case is satisfied. -/
def Paid (i : ι) (a : CaseWorld × (ι → Bool)) : Prop :=
  a.2 i = false ∨ statusOf a.1.stores c₀.governanceCaseId = some .satisfied

/-- The caller owes nothing, or the case takes no more votes. -/
def Discharged (i : ι) (a : CaseWorld × (ι → Bool)) : Prop :=
  a.2 i = false ∨ stage (statusOf a.1.stores c₀.governanceCaseId) = 2

/-- A case that is collecting, as a caller has read it. -/
structure Working (c : GovernanceCase) : Prop where
  same : SameCase c₀ c
  status : c.status = .collecting
  revision : c.recordRevision = c₀.recordRevision + 1

section Calls

variable {X A c₀} {i : ι} {a b : CaseWorld × (ι → Bool)} {owes : Bool} {k : ℕ}
  {log : Log CaseSig}

omit [DecidableEq ι] in
theorem Knows.rely (h : Knows c₀ i owes k a) (hrely : (reaching X A c₀).Rely i a b) :
    Knows c₀ i owes k b :=
  ⟨hrely.1.trans h.1, h.2.trans hrely.2.stage_le⟩

omit [DecidableEq ι] in
theorem Discharged.rely (h : Discharged c₀ i a) (hrely : (reaching X A c₀).Rely i a b) :
    Discharged c₀ i b := by
  rcases h with hpaid | hstage
  · exact .inl (hrely.1.trans hpaid)
  · exact .inr (le_antisymm (stage_le _) (hstage ▸ hrely.2.stage_le))

omit [DecidableEq ι] in
theorem Paid.rely (h : Paid c₀ i a) (hrely : (reaching X A c₀).Rely i a b) : Paid c₀ i b := by
  rcases h with hpaid | hsatisfied
  · exact .inl (hrely.1.trans hpaid)
  · exact .inr (hrely.2.satisfied hsatisfied)

/-- The calls that leave the case, its votes and its proof. -/
def CaseOp.Idle : CaseOp → Prop
  | .transitionCase .. => False
  | .saveAttestation _ => False
  | .saveProof _ => False
  | _ => True

theorem CaseOp.Reads.idle {o : CaseOp} (h : o.Reads) : o.Idle := by
  cases o <;> trivial

/-- An idle call by a caller that owes nothing changes nothing that matters. -/
theorem idle_after {o : CaseOp} (ho : o.Idle) (hinv : Accounted X A c₀ b) (hpaid : b.2 i = false) :
    Accounted X A c₀ ((reaching X A c₀).after i b o) ∧
      Onward c₀.governanceCaseId b.1 ((reaching X A c₀).after i b o).1 ∧
      ((reaching X A c₀).after i b o).2 i = false := by
  have hnote : owesAfter A c₀ (b.2 i) ⟨o, (governance X o b.1).1⟩ = b.2 i := by
    rw [hpaid]
    cases o with
    | saveAttestation a => exact ho.elim
    | _ => rfl
  have hholdings : ((reaching X A c₀).after i b o).2 = b.2 := by
    show Function.update b.2 i (owesAfter A c₀ (b.2 i) ⟨o, (governance X o b.1).1⟩) = b.2
    rw [hnote, Function.update_eq_self]
  obtain ⟨⟨c, hc, hversion⟩, hproof, howed⟩ := hinv
  refine ⟨⟨⟨c, ?_, hversion.same, hversion.started, hversion.collecting, ?_⟩, ?_, ?_⟩, ?_, ?_⟩
  · cases o <;> first | exact ho.elim | exact hc
  · cases o <;> first | exact ho.elim | exact hversion.satisfied
  · cases o <;> first | exact ho.elim | exact hproof
  · rw [hholdings]
    cases o <;> first | exact ho.elim | exact howed
  · cases o <;> first | exact ho.elim | exact .refl _ _
  · rw [hholdings]
    exact hpaid

/-- One idle call, and what it adds to the log. -/
theorem idle_call {o : CaseOp} (ho : o.Idle) (h : Knows c₀ i false k a) :
    (call o).Sat ((reaching X A c₀).env i) (reaching X A c₀).Safe
      (fun log' b r => Knows c₀ i false k b ∧ log' = ⟨o, r⟩ :: log) log a := by
  refine Guarded.sat_await fun b hrely hinv _ => ?_
  have hb := h.rely hrely
  obtain ⟨hinv', hmoves, hpaid⟩ := idle_after ho hinv hb.1
  exact ⟨⟨hinv', hmoves⟩, ⟨hpaid, hb.2.trans hmoves.stage_le⟩, rfl⟩

/-- The parts of an attempt before the vote is stored. -/
theorem idle_sat {α : Type} {p : Call α} (hp : p.Only CaseOp.Idle) (h : Knows c₀ i false k a) :
    p.Sat ((reaching X A c₀).env i) (reaching X A c₀).Safe
      (fun _ b _ => Knows c₀ i false k b) log a := by
  refine hp.sat ⟨fun _ _ _ hrely h => h.rely hrely, fun _ b o r b' ho hb hstep => ?_⟩ h
  obtain ⟨-, hinv, rfl, rfl⟩ := hstep
  obtain ⟨hinv', hmoves, hpaid⟩ := idle_after ho hinv hb.1
  exact ⟨⟨hinv', hmoves⟩, hpaid, hb.2.trans hmoves.stage_le⟩

theorem statusOf_eq {w : GovernanceWorld} {id : String} {c : GovernanceCase}
    (h : w.cases.getById id = some c) : statusOf w id = some c.status := by
  rw [statusOf, h]
  rfl

/-- A move of the case succeeds on the version that it expects, or changes nothing. -/
theorem transition_after {fromStatus toStatus : GovernanceCaseState} {revision : ℕ}
    (proofId : Option String) (hinv : Accounted X A c₀ b)
    (hforward : stage (some fromStatus) < stage (some toStatus))
    (hrevision : ∀ c, Version X c₀ b.1 c → c.status = fromStatus → c.recordRevision = revision)
    (hproof : toStatus = .satisfied → proofId = some (mintProofId X c₀.caseHash) ∧
      b.1.stores.proofs.getByCase c₀.governanceCaseId ≠ none) :
    let o := CaseOp.transitionCase c₀.governanceCaseId fromStatus revision toStatus proofId
    let b' := (reaching X A c₀).after i b o
    Accounted X A c₀ b' ∧ Onward c₀.governanceCaseId b.1 b'.1 ∧ b'.2 i = b.2 i ∧
      ((∃ c, Version X c₀ b.1 c ∧ c.status = fromStatus ∧
          (governance X o b.1).1 = .ok (movedCase toStatus proofId c) ∧
          statusOf b'.1.stores c₀.governanceCaseId = some toStatus) ∨
        ((∃ e, (governance X o b.1).1 = .error e) ∧ b' = b ∧
          statusOf b.1.stores c₀.governanceCaseId ≠ some fromStatus)) := by
  intro o b'
  have hholdings : b'.2 = b.2 := Function.update_eq_self _ _
  obtain ⟨⟨c, hc, hversion⟩, hproofs, howed⟩ := hinv
  rcases b.1.stores.transitionCase_cases c₀.governanceCaseId fromStatus revision toStatus proofId
    with ⟨c', hc', hstatus, -, hmove⟩ | ⟨⟨e, hmove⟩, hstale⟩
  · obtain rfl := Option.some.inj (hc.symm.trans hc')
    have hstores : b'.1.stores =
        { b.1.stores with cases := b.1.stores.cases.save (movedCase toStatus proofId c) } :=
      congrArg Prod.snd hmove
    have hstored : b'.1.stores.cases.getById c₀.governanceCaseId =
        some (movedCase toStatus proofId c) := by
      rw [hstores, ← hversion.same.governanceCaseId]
      exact Repository.getById_save_self _ (movedCase toStatus proofId c)
    have hbefore := statusOf_eq hc
    have hafter := statusOf_eq hstored
    refine ⟨⟨⟨_, hstored, ⟨hversion.same.trans (sameCase_moved _ _ _), ?_, ?_, ?_⟩⟩, ?_, ?_⟩,
      ⟨.inr ?_, ?_⟩, congrFun hholdings i, .inl ⟨c, hversion, hstatus, congrArg Prod.fst hmove, hafter⟩⟩
    · rintro (hopen : toStatus = .open_)
      rw [hopen] at hforward
      exact absurd hforward (Nat.not_lt_zero _)
    · rintro (hcollecting : toStatus = .collecting)
      have hfrom : fromStatus = .open_ := by
        rw [hcollecting] at hforward
        cases fromStatus <;> first | rfl | exact absurd hforward (by decide)
      show c.recordRevision + 1 = c₀.recordRevision + 1
      rw [hversion.started (hstatus.trans hfrom)]
    · rintro (hsatisfied : toStatus = .satisfied)
      obtain ⟨hid, hpresent⟩ := hproof hsatisfied
      rw [hstores]
      refine ⟨?_, hpresent⟩
      show (proofId <|> c.institutionalProofId) = _
      rw [hid]
      rfl
    · rw [hstores]
      exact hproofs
    · intro _ hsuffice
      rw [hholdings]
      rw [hstores] at hsuffice
      refine howed ?_ hsuffice
      rw [hbefore, hstatus]
      rintro ⟨⟩
      exact absurd hforward (Nat.not_lt.mpr (stage_le _))
    · rw [hbefore, hafter, hstatus]
      exact hforward
    · rw [hstores]
      exact fun h => h
  · have hstate : b'.1 = b.1 := by
      have hstores : b'.1.stores = b.1.stores := congrArg Prod.snd hmove
      show ({ b.1 with stores := b'.1.stores } : CaseWorld) = b.1
      rw [hstores]
    have hsame : b' = b := Prod.ext hstate hholdings
    rw [hsame]
    refine ⟨⟨⟨c, hc, hversion⟩, hproofs, howed⟩, .refl _ _, rfl,
      .inr ⟨⟨e, congrArg Prod.fst hmove⟩, rfl, fun hfrom => ?_⟩⟩
    rw [statusOf_eq hc] at hfrom
    have hstatus := Option.some.inj hfrom
    exact hstale c hc hstatus (hrevision c hversion hstatus)

/-- The move of a case that is collecting. -/
theorem transition_sat {toStatus : GovernanceCaseState} {proofId : Option String}
    {c : GovernanceCase} (hc : Working c₀ c) (hto : stage (some toStatus) = 2)
    (h : Knows c₀ i owes 1 a)
    (hproof : toStatus = .satisfied → proofId = some (mintProofId X c₀.caseHash) ∧
      a.1.stores.proofs.getByCase c₀.governanceCaseId ≠ none) :
    (transition c toStatus proofId).Sat ((reaching X A c₀).env i) (reaching X A c₀).Safe
      (ends (fun _ b _ => Knows c₀ i owes 2 b ∧
          statusOf b.1.stores c₀.governanceCaseId = some toStatus)
        fun _ b _ => Knows c₀ i owes 2 b) log a := by
  unfold transition
  refine Guarded.sat_await fun b hrely hinv _ => ?_
  have hb := h.rely hrely
  have hforward : stage (some c.status) < stage (some toStatus) := by
    rw [hc.status, hto]
    decide
  have hrevision : ∀ c', Version X c₀ b.1 c' → c'.status = c.status →
      c'.recordRevision = c.recordRevision := fun c' hversion hstatus =>
    (hversion.collecting (hstatus.trans hc.status)).trans hc.revision.symm
  obtain ⟨hinv', hmoves, howes, hend⟩ := transition_after (i := i) proofId hinv hforward
    hrevision
    fun hsatisfied => ⟨(hproof hsatisfied).1, hrely.2.2 (hproof hsatisfied).2⟩
  rw [hc.same.governanceCaseId, show (votingSystem X).handler = governance X from rfl]
  refine ⟨⟨hinv', hmoves⟩, ?_⟩
  rcases hend with ⟨c', -, -, hanswer, hstatus⟩ | ⟨⟨e, hanswer⟩, hsame, hstatus⟩
  · rw [hanswer]
    exact ⟨⟨howes.trans hb.1, by rw [hstatus, hto]⟩, hstatus⟩
  · rw [hanswer, hsame]
    refine ⟨hb.1, (stage_eq_two hb.2 fun hcollecting => ?_).ge⟩
    exact hstatus (hcollecting.trans (congrArg some hc.status.symm))

/-! ## Counting -/

/-- The caller has voted in this attempt, and asks about one instant. -/
def Voted (now : ℕ) (log : Log CaseSig) : Prop := hasVoted log = true ∧ askedAt log = now

/-- What is counted is what counts. -/
theorem collectValidContributions_counts {c : GovernanceCase} {now : ℕ}
    (h : Knows c₀ i owes k a) (hlog : Voted now log) (attestations : List GovernanceAttestation) :
    (collectValidContributions c now attestations).Sat ((reaching X A c₀).env i)
      (reaching X A c₀).Safe
      (fun log b r => Knows c₀ i owes k b ∧ Voted now log ∧ r = .ok (counted A attestations))
      log a := by
  induction attestations generalizing log a with
  | nil => exact ⟨h, hlog, rfl⟩
  | cons attestation attestations ih =>
    unfold collectValidContributions
    let q := caseQuestion c attestation.principalId attestation.authorityRole none now
    refine Async.Sat.bind (R := fun log b r => Knows c₀ i owes k b ∧ Voted now log ∧
      ∃ resolution : AuthorityResolution, r = .ok resolution ∧
        decide (resolution.outcome = .authorized) =
          A attestation.principalId attestation.authorityRole) ?_ ?_ ?_
    · refine Guarded.sat_await fun b hrely hinv hguard => ?_
      have hafter : (reaching X A c₀).after i b (.resolveAuthority q) = b :=
        Prod.ext rfl (Function.update_eq_self _ _)
      rw [hafter]
      exact ⟨⟨hinv, .refl _ _⟩, h.rely hrely, ⟨hlog.1, rfl⟩, _, rfl, hguard hlog.1⟩
    · rintro log b _ ⟨hb, hlog, resolution, ⟨⟩, hanswer⟩
      refine Async.Sat.bind (ih hb hlog) ?_ ?_
      · rintro log b _ ⟨hb, hlog, ⟨⟩⟩
        refine ⟨hb, hlog, congrArg Except.ok ?_⟩
        rw [counted_cons, ← hanswer]
        show (if _ then _ else _) = _
        split_ifs <;> simp_all
      · rintro log b e ⟨-, -, ⟨⟩⟩
    · rintro log b _ ⟨-, -, resolution, ⟨⟩, -⟩

/-- The case has a proof. -/
def Proven (c₀ : GovernanceCase) (a : CaseWorld × (ι → Bool)) : Prop :=
  a.1.stores.proofs.getByCase c₀.governanceCaseId ≠ none

omit [DecidableEq ι] in
theorem Proven.rely (h : Proven c₀ a) (hrely : (reaching X A c₀).Rely i a b) : Proven c₀ b :=
  hrely.2.2 h

/-- Saving the proof of the case. -/
theorem saveProof_sat {p : AuthorizationProof} (h : Knows c₀ i owes k a)
    (hid : p.institutionalAuthorizationProofId = mintProofId X c₀.caseHash)
    (hcase : p.governanceCaseId = c₀.governanceCaseId) :
    (call (.saveProof p)).Sat ((reaching X A c₀).env i) (reaching X A c₀).Safe
      (fun _ b r => Knows c₀ i owes k b ∧ Proven c₀ b ∧ r = .ok p) log a := by
  refine Guarded.sat_await fun b hrely hinv _ => ?_
  have hget : (b.1.stores.proofs.save p).getByCase c₀.governanceCaseId = some p := by
    simp only [ProofStore.getByCase, ProofStore.save, hcase, JsMap.get_set, if_true,
      Option.bind_some]
    exact Repository.getById_save_self _ p
  have hpresent : (b.1.stores.proofs.save p).getByCase c₀.governanceCaseId ≠ none := by
    rw [hget]
    exact Option.some_ne_none p
  have hholdings : ((reaching X A c₀).after i b (.saveProof p)).2 = b.2 :=
    Function.update_eq_self _ _
  obtain ⟨⟨c, hc, hversion⟩, hproofs, howed⟩ := hinv
  have hb := h.rely hrely
  refine ⟨⟨⟨⟨c, hc, hversion.same, hversion.started, hversion.collecting, fun hsatisfied => ?_⟩,
    fun p' hp' => ?_, ?_⟩, ⟨.inl rfl, fun _ => hpresent⟩⟩, ⟨?_, hb.2⟩, hpresent, rfl⟩
  · exact ⟨(hversion.satisfied hsatisfied).1, hpresent⟩
  · obtain rfl := Option.some.inj (hget.symm.trans hp')
    exact hid
  · rw [hholdings]
    exact howed
  · rw [hholdings]
    exact hb.1

/-- No hold keeps the proof back. -/
theorem assertNoActiveHold_sat {c : GovernanceCase} {now : ℕ} (hc : SameCase c₀ c)
    (h : Knows c₀ i owes k a) (hlog : Voted now log) :
    (assertNoActiveHold c c.requiredRole now).Sat ((reaching X A c₀).env i)
      (reaching X A c₀).Safe
      (fun log b r => Knows c₀ i owes k b ∧ Voted now log ∧ r = .ok ()) log a := by
  unfold assertNoActiveHold
  refine Async.Sat.bind (R := fun log b r => Knows c₀ i owes k b ∧ Voted now log ∧
    ∃ holds : List GovernanceHold, r = .ok holds ∧ ∀ h ∈ holds,
      holdCovers h (some (caseEnvironment c₀)) (given c₀.requiredRole) none now = false) ?_ ?_ ?_
  · refine Guarded.sat_await fun b hrely hinv hguard => ?_
    have hafter : (reaching X A c₀).after i b (.listActiveHolds (caseProject c)) = b :=
      Prod.ext rfl (Function.update_eq_self _ _)
    rw [hafter]
    refine ⟨⟨hinv, .refl _ _⟩, h.rely hrely, hlog, _, rfl, ?_⟩
    have hnone := hguard hlog.1
    rw [hlog.2] at hnone
    exact hnone
  · rintro log b (holds : List GovernanceHold) ⟨hb, hlog, _, ⟨⟩, hnone⟩
    refine ⟨hb, hlog, ?_⟩
    have hfind : (holds.find? fun h => holdCovers h (some (caseEnvironment c))
        (given c.requiredRole) none now) = none := by
      rw [List.find?_eq_none, hc.environment, hc.requiredRole]
      intro h hh
      rw [hnone h hh]
      decide
    unfold assertNoneCovers
    rw [hfind]
  · rintro log b _ ⟨-, -, holds, ⟨⟩, -⟩

/-- Where the votes suffice, the proof is not kept back. -/
theorem ensureProofForCase_sat {c : GovernanceCase} {now : ℕ}
    {attestations : List GovernanceAttestation} (hc : SameCase c₀ c) (h : Knows c₀ i owes k a)
    (hlog : Voted now log) (hsuffice : Suffice A c₀ attestations) :
    (ensureProofForCase X c attestations now).Sat ((reaching X A c₀).env i)
      (reaching X A c₀).Safe
      (fun _ b r => Knows c₀ i owes k b ∧ Proven c₀ b ∧
        ∃ p : AuthorizationProof, r = .ok p ∧
          p.institutionalAuthorizationProofId = mintProofId X c₀.caseHash) log a := by
  unfold ensureProofForCase
  refine Async.Sat.bind (R := fun log b r => Knows c₀ i owes k b ∧ Voted now log ∧
    ∃ existing : Option AuthorizationProof, r = .ok existing ∧ ∀ p, existing = some p →
      Proven c₀ b ∧ p.institutionalAuthorizationProofId = mintProofId X c₀.caseHash) ?_ ?_ ?_
  · refine Guarded.sat_read (fun _ => rfl) (fun _ => rfl) fun b hrely hinv => ?_
    refine ⟨h.rely hrely, hlog, _, rfl, fun p hp => ?_⟩
    rw [hc.governanceCaseId] at hp
    refine ⟨?_, hinv.proof p hp⟩
    unfold Proven
    rw [hp]
    exact Option.some_ne_none p
  · rintro log b (existing : Option AuthorizationProof) ⟨hb, hlog, _, ⟨⟩, hexisting⟩
    cases existing with
    | some p =>
      obtain ⟨hproven, hid⟩ := hexisting p rfl
      exact ⟨hb, hproven, p, rfl, hid⟩
    | none =>
      refine Async.Sat.bind (R := fun log b r => Knows c₀ i owes k b ∧ Voted now log ∧ r = .ok ())
        ?_ ?_ (fun _ _ _ hr => nomatch hr.2.2)
      · exact assertNoActiveHold_sat hc hb hlog
      · rintro log b _ ⟨hb, hlog, ⟨⟩⟩
        refine Async.Sat.bind (collectValidContributions_counts hb hlog attestations) ?_
          (fun _ _ _ hr => nomatch hr.2.2)
        rintro log b _ ⟨hb, hlog, ⟨⟩⟩
        refine (Async.sat_ite _ _ _).mpr ⟨fun hne => absurd ?_ hne, fun _ => ?_⟩
        · rw [hc.quorumRequirement]
          exact hsuffice
        · refine (saveProof_sat hb ?_ hc.governanceCaseId).mono fun _ _ _ hr => ?_
          · exact congrArg (mintProofId X) hc.caseHash
          · exact ⟨hr.1, hr.2.1, _, hr.2.2, congrArg (mintProofId X) hc.caseHash⟩
  · rintro log b _ ⟨-, -, existing, ⟨⟩, -⟩

/-- How an attempt ends: it returned and its caller has paid, or it threw and the caller owes nothing
or has no vote to add. -/
abbrev Ends {α : Type} (c₀ : GovernanceCase) (i : ι) : Log CaseSig → CaseWorld × (ι → Bool) →
    Except GovernanceFailure α → Prop :=
  ends (fun _ b _ => Paid c₀ i b) fun _ b _ => Discharged c₀ i b

/-- What is owed is settled once the quorum is evaluated. -/
theorem settle_sat {c : GovernanceCase} {now : ℕ} {attestations : List GovernanceAttestation}
    (hc : Working c₀ c) (h : Knows c₀ i owes 1 a) (hlog : Voted now log) {outcome : QuorumOutcome}
    (howes : owes = true → outcome = .satisfied)
    (hsuffice : outcome = .satisfied → Suffice A c₀ attestations) :
    (settle X c attestations now outcome).Sat ((reaching X A c₀).env i) (reaching X A c₀).Safe
      (Ends c₀ i) log a := by
  have hfree : outcome ≠ .satisfied → owes = false := by
    intro hne
    cases owes with
    | false => rfl
    | true => exact absurd (howes rfl) hne
  cases outcome with
  | pending => exact .inl (h.1.trans (hfree fun h => nomatch h))
  | blocked =>
    have howes : owes = false := hfree fun h => nomatch h
    unfold settle
    refine Async.Sat.bind (transition_sat hc rfl h fun h => nomatch h) ?_ ?_
    · exact fun _ _ _ hb => .inl (hb.1.1.trans howes)
    · exact fun _ _ _ hb => .inl (hb.1.trans howes)
  | satisfied =>
    unfold settle
    refine Async.Sat.bind (ensureProofForCase_sat hc.same h hlog (hsuffice rfl)) ?_ ?_
    · rintro log b proof ⟨hb, hproven, _, ⟨⟩, hid⟩
      refine Async.Sat.bind (transition_sat hc rfl hb fun _ => ⟨congrArg some hid, hproven⟩) ?_ ?_
      · exact fun _ _ _ hb => .inr hb.2
      · exact fun _ _ _ hb => .inr (le_antisymm (stage_le _) hb.2)
    · rintro log b e ⟨-, -, _, ⟨⟩, -⟩

/-- The votes are listed, and what they come to is settled. -/
theorem evaluateCase_settles {c : GovernanceCase} {now : ℕ} (hc : Working c₀ c)
    (h : Knows c₀ i true 1 a) (hlog : Voted now log) (saved : GovernanceAttestation) :
    (evaluateCase X c₀.governanceCaseId saved c now).Sat ((reaching X A c₀).env i)
      (reaching X A c₀).Safe (Ends c₀ i) log a := by
  unfold evaluateCase
  refine Async.Sat.bind (R := fun log b r => Voted now log ∧
    ∃ attestations : List GovernanceAttestation, r = .ok attestations ∧
      Knows c₀ i (decide (Suffice A c₀ attestations)) 1 b) ?_ ?_ ?_
  · refine Guarded.sat_await fun b hrely hinv _ => ?_
    have hb := h.rely hrely
    let attestations := b.1.stores.attestations.listByCase c₀.governanceCaseId
    have howes : owesAfter A c₀ (b.2 i)
        ⟨.listAttestations c₀.governanceCaseId, .ok attestations⟩ =
          decide (Suffice A c₀ attestations) := by
      rw [hb.1]
      exact Bool.true_and _
    have hholdings : ((reaching X A c₀).after i b (.listAttestations c₀.governanceCaseId)).2 =
        Function.update b.2 i (decide (Suffice A c₀ attestations)) :=
      congrArg (Function.update b.2 i) howes
    obtain ⟨⟨c, hc, hversion⟩, hproofs, howed⟩ := hinv
    refine ⟨⟨⟨⟨c, hc, hversion.same, hversion.started, hversion.collecting, hversion.satisfied⟩,
      hproofs, fun _ hsuffice => ⟨i, ?_⟩⟩, .refl _ _⟩, hlog, attestations, rfl, ?_, hb.2⟩
    · rw [hholdings, Function.update_self]
      exact decide_eq_true hsuffice
    · rw [hholdings, Function.update_self]
  · rintro log b (attestations : List GovernanceAttestation) ⟨hlog, _, ⟨⟩, hb⟩
    refine Async.Sat.bind (collectValidContributions_counts hb hlog attestations) ?_
      (fun _ _ _ hr => nomatch hr.2.2)
    rintro log b _ ⟨hb, hlog, ⟨⟩⟩
    have houtcome : (evaluateGovernanceQuorum c.quorumRequirement
        (counted A attestations)).outcome = .satisfied ↔ Suffice A c₀ attestations := by
      rw [hc.same.quorumRequirement]
      exact Iff.rfl
    refine Async.Sat.bind (settle_sat hc hb hlog (fun howes => ?_) houtcome.mp) ?_ ?_
    · exact houtcome.mpr (of_decide_eq_true howes)
    · exact fun _ _ _ hb => hb
    · exact fun _ _ _ hb => hb
  · rintro log b e ⟨-, _, ⟨⟩, -⟩

/-! ## Voting -/

/-- A case that takes votes, as a caller has read it. -/
structure Attestable (c₀ c : GovernanceCase) : Prop where
  same : SameCase c₀ c
  status : c.status = .open_ ∨ c.status = .collecting
  started : c.status = .open_ → c.recordRevision = c₀.recordRevision
  collecting : c.status = .collecting → c.recordRevision = c₀.recordRevision + 1

/-- Who stores a vote owes a count. -/
theorem saveAttestation_sat (now : ℕ) (h : Knows c₀ i owes k a) (hlog : askedAt log = now)
    (attestation : GovernanceAttestation) :
    (call (.saveAttestation attestation)).Sat ((reaching X A c₀).env i) (reaching X A c₀).Safe
      (fun log b r => Knows c₀ i true k b ∧ Voted now log ∧ ∃ saved, r = .ok saved) log a := by
  refine Guarded.sat_await fun b hrely hinv _ => ?_
  have howes : ((reaching X A c₀).after i b (.saveAttestation attestation)).2 i = true :=
    Function.update_self _ _ _
  obtain ⟨⟨c, hc, hversion⟩, hproofs, -⟩ := hinv
  exact ⟨⟨⟨⟨c, hc, hversion.same, hversion.started, hversion.collecting, hversion.satisfied⟩,
    hproofs, fun _ _ => ⟨i, howes⟩⟩, .refl _ _⟩, ⟨howes, (h.rely hrely).2⟩, ⟨rfl, hlog⟩, _, rfl⟩

/-- The caller finds the case collecting, or it takes no more votes. -/
theorem beginCollecting_settles {c : GovernanceCase} {now : ℕ} (hc : Attestable c₀ c)
    (h : Knows c₀ i true (stage (some c.status)) a) (hlog : Voted now log) :
    (beginCollecting c).Sat ((reaching X A c₀).env i) (reaching X A c₀).Safe
      (ends (fun log b c' => Knows c₀ i true 1 b ∧ Voted now log ∧ Working c₀ c')
        fun _ b _ => Discharged c₀ i b) log a := by
  unfold beginCollecting
  refine (Async.sat_ite _ _ _).mpr ⟨fun hopen => ?_, fun hopen => ?_⟩
  · refine Guarded.sat_await fun b hrely hinv hguard => ?_
    have hb := h.rely hrely
    rw [hopen] at hguard
    have hforward : stage (some c.status) < stage (some .collecting) := by
      rw [hopen]
      decide
    have hrevision : ∀ c', Version X c₀ b.1 c' → c'.status = c.status →
        c'.recordRevision = c.recordRevision := fun c' hversion hstatus =>
      (hversion.started (hstatus.trans hopen)).trans (hc.started hopen).symm
    obtain ⟨hinv', hmoves, howes, hend⟩ := transition_after (i := i) none hinv
      hforward hrevision fun h => nomatch h
    rw [hc.same.governanceCaseId, show (votingSystem X).handler = governance X from rfl]
    refine ⟨⟨hinv', hmoves⟩, ?_⟩
    rcases hend with ⟨c', hversion, hstatus, hanswer, hcollecting⟩ |
      ⟨⟨e, hanswer⟩, hsame, hstatus⟩
    · rw [hanswer]
      refine ⟨⟨howes.trans hb.1, by rw [hcollecting]; decide⟩, hlog,
        hversion.same.trans (sameCase_moved _ _ _), rfl, ?_⟩
      exact congrArg (· + 1) (hversion.started (hstatus.trans hopen))
    · -- it has been started by another, but it is not collecting: it takes no more votes
      rw [hanswer, hsame]
      rw [hopen] at hstatus
      exact .inr (stage_eq_two (one_le_stage hstatus) hguard)
  · have hcollecting := hc.status.resolve_left hopen
    rw [hcollecting] at h
    exact ⟨h, hlog, hc.same, hcollecting, hc.collecting hcollecting⟩

theorem assertAttestable_ok {c : GovernanceCase} {now : ℕ} (h : assertAttestable c now = .ok ()) :
    c.status = .open_ ∨ c.status = .collecting := by
  unfold assertAttestable at h
  split_ifs at h with hexpired hdecided
  cases hstatus : c.status <;> simp_all

/-- A new vote. -/
theorem attestNew_settles {c : GovernanceCase} {nonceHash : String → String}
    {input : AttestInput} {now : ℕ} (hc : Attestable c₀ c)
    (hid : input.governanceCaseId = c₀.governanceCaseId)
    (h : Knows c₀ i false (stage (some c.status)) a) (hlog : askedAt log = now)
    (resolution : AuthorityResolution) :
    (attestNew X nonceHash input c resolution now).Sat ((reaching X A c₀).env i)
      (reaching X A c₀).Safe (Ends c₀ i) log a := by
  unfold attestNew createAuthoritySnapshot
  refine Async.Sat.bind (R := fun log b _ => Knows c₀ i false (stage (some c.status)) b ∧
    askedAt log = now) ?_ ?_ fun _ _ _ hb => .inl hb.1.1
  · refine Async.Sat.bind_ofExcept (fun snapshot _ => ?_) fun e _ => ⟨h, hlog⟩
    have hsave : CaseOp.Idle (.saveSnapshot snapshot) := trivial
    refine (idle_call hsave h).mono fun log' b r hb => ⟨hb.1, ?_⟩
    rw [hb.2]
    exact hlog
  rintro log b snapshot ⟨h, hlog⟩
  refine Async.Sat.bind (idle_call trivial h) ?_ fun _ _ _ hb => .inl hb.1.1
  rintro log' b prior ⟨h, rfl⟩
  refine Async.Sat.bind_ofExcept (fun _ _ => ?_) fun e _ => .inl h.1
  refine Async.Sat.bind (saveAttestation_sat now h ?_ _) ?_
    fun _ _ _ hb => by obtain ⟨-, -, _, ⟨⟩⟩ := hb
  · exact hlog
  rintro log b saved ⟨h, hlog, -⟩
  refine Async.Sat.bind (beginCollecting_settles hc h hlog) ?_ fun _ _ _ hb => hb
  rintro log b c' ⟨h, hlog, hworking⟩
  rw [hid]
  exact evaluateCase_settles hworking h hlog saved

/-- While the case that is read takes votes, the caller owes nothing. -/
theorem requireCase_sat (h : Discharged c₀ i a) :
    (requireCase c₀.governanceCaseId).Sat ((reaching X A c₀).env i) (reaching X A c₀).Safe
      (fun _ b r => Discharged c₀ i b ∧ ∀ c, r = .ok c →
        stage (some c.status) ≤ stage (statusOf b.1.stores c₀.governanceCaseId) ∧
        ((c.status = .open_ ∨ c.status = .collecting) → Attestable c₀ c ∧ b.2 i = false)) log a := by
  unfold requireCase
  refine Async.Sat.bind (R := fun _ b r => Discharged c₀ i b ∧ ∃ c, r = .ok (some c) ∧
    Version X c₀ b.1 c ∧ statusOf b.1.stores c₀.governanceCaseId = some c.status) ?_ ?_ ?_
  · refine Guarded.sat_read (fun _ => rfl) (fun _ => rfl) fun b hrely hinv => ?_
    obtain ⟨c, hc, hversion⟩ := hinv.version
    exact ⟨h.rely hrely, c, congrArg Except.ok hc, hversion, statusOf_eq hc⟩
  · rintro log b _ ⟨h, c, ⟨⟩, hversion, hstatus⟩
    refine ⟨h, fun c' hc' => ?_⟩
    cases hc'
    refine ⟨hstatus ▸ le_rfl, fun hopen => ⟨?_, ?_⟩⟩
    · exact ⟨hversion.same, hopen, hversion.started, hversion.collecting⟩
    · refine h.resolve_right ?_
      rw [hstatus]
      rcases hopen with hopen | hopen <;> rw [hopen] <;> decide
  · rintro log b e ⟨-, c, ⟨⟩, -⟩

/-- One attempt at a vote. -/
theorem attest_settles {nonceHash : String → String} {input : AttestInput}
    (hid : input.governanceCaseId = c₀.governanceCaseId) (h : Discharged c₀ i a) :
    (attest X nonceHash input).Sat ((reaching X A c₀).env i) (reaching X A c₀).Safe
      (Ends c₀ i) log a := by
  have hidle {α : Type} {p : Call α} (hp : p.Only CaseOp.Reads) : p.Only CaseOp.Idle :=
    hp.mono fun _ ho => ho.idle
  unfold attest
  refine Async.Sat.bind (R := fun _ b _ => Discharged c₀ i b) ?_ ?_ fun _ _ _ hb => hb
  · exact Guarded.sat_read (fun _ => rfl) (fun _ => rfl) fun b hrely _ => h.rely hrely
  intro log b now h
  -- the case as it is read: while it takes votes, the caller owes nothing
  refine Async.Sat.bind (R := fun _ b r => Discharged c₀ i b ∧ ∀ c, r = .ok c →
    stage (some c.status) ≤ stage (statusOf b.1.stores c₀.governanceCaseId) ∧
    ((c.status = .open_ ∨ c.status = .collecting) → Attestable c₀ c ∧ b.2 i = false)) ?_ ?_
    fun _ _ _ hb => hb.1
  · rw [hid]
    exact requireCase_sat h
  rintro log b c ⟨h, hread⟩
  obtain ⟨hstage, hread⟩ := hread c rfl
  refine Async.Sat.bind_ofExcept (fun _ hattestable => ?_) fun e _ => h
  obtain ⟨hc, hpaid⟩ := hread (assertAttestable_ok hattestable)
  have h : Knows c₀ i false (stage (some c.status)) b := ⟨hpaid, hstage⟩
  refine Async.Sat.bind_ofExcept (fun _ _ => ?_) fun e _ => .inl hpaid
  refine Async.Sat.bind (idle_sat (hidle (assertNoActiveHold_reads _ _ _)) h) ?_
    fun _ _ _ hb => .inl hb.1
  intro log b _ h
  refine Async.Sat.bind (R := fun log b _ => Knows c₀ i false (stage (some c.status)) b ∧
    askedAt log = now) ?_ ?_ fun _ _ _ hb => .inl hb.1.1
  · unfold requireAuthority
    refine Async.Sat.bind (R := fun log b _ => Knows c₀ i false (stage (some c.status)) b ∧
      askedAt log = now) ?_ ?_ fun _ _ _ hb => hb
    · exact (idle_call (o := .resolveAuthority _) trivial h).mono fun _ _ _ hb => ⟨hb.1, hb.2 ▸ rfl⟩
    · exact fun _ _ _ hb => (Async.sat_ite _ _ _).mpr ⟨fun _ => hb, fun _ => hb⟩
  rintro log b resolution ⟨h, hlog⟩
  refine Async.Sat.bind (idle_call trivial h) ?_ fun _ _ _ hb => .inl hb.1.1
  rintro log' b existing ⟨h, rfl⟩
  cases (existing : Option GovernanceAttestation) with
  | some existing =>
    refine (idle_sat (hidle (attestExisting_reads _ _)) h).mono fun log b r hb => ?_
    cases r with
    | ok result => exact .inl hb.1
    | error e => exact .inl hb.1
  | none =>
    refine attestNew_settles hc hid h ?_ resolution
    exact hlog

end Calls

/-! ## Whole runs -/

/-- Votes on the case under `id`, each made again up to `retries` times when it throws. -/
def retriedVotes (X : GovernanceExternal) (nonceHash : String → String) (id : String)
    (w : CaseWorld) (inputs : ι → AttestInput) (retries : ι → ℕ) :
    Pool CaseSig ι CaseWorld (Except GovernanceFailure AttestResult) :=
  Pool.init w fun i => ((attestCase X nonceHash id (inputs i)).retrying (retries i)).prog

/-- The call of `i` has returned normally. -/
def Finished (pool : Pool CaseSig ι CaseWorld (Except GovernanceFailure AttestResult)) (i : ι) :
    Prop :=
  (pool.returned i).any Except.isOk = true

instance (pool : Pool CaseSig ι CaseWorld (Except GovernanceFailure AttestResult)) (i : ι) :
    Decidable (Finished pool i) :=
  inferInstanceAs (Decidable (_ = _))

omit [DecidableEq ι] in
theorem Finished.ok {pool : Pool CaseSig ι CaseWorld (Except GovernanceFailure AttestResult)} {i : ι}
    (h : Finished pool i) : ∃ result, pool.prog i = some (.pure (.ok result)) := by
  obtain ⟨r, hr, hok⟩ := (Option.any_eq_true _ _).mp h
  cases r with
  | ok result => exact ⟨result, Pool.returned_eq_some.mp hr⟩
  | error e => cases hok

/-- The votes that count in the end are those that are still authorized. -/
theorem suffice_countsIn {X : GovernanceExternal} {c₀ : GovernanceCase} {w : CaseWorld} :
    Suffice (countsIn X c₀ w) c₀ (w.stores.attestations.listByCase c₀.governanceCaseId) ↔
      Reaches X c₀ c₀.quorumRequirement w := by
  have hcounted (attestations : List GovernanceAttestation) :
      counted (countsIn X c₀ w) attestations =
        validContributions X w.stores.authority c₀ w.clock attestations := rfl
  unfold Suffice Reaches
  rw [hcounted]

/-- Nobody is not enough. -/
theorem countTo_nil {reasons : List String} {needed : ℕ} {missing : String} (h : 0 < needed) :
    (countTo [] reasons needed missing).outcome ≠ .satisfied := by
  unfold countTo
  rw [List.length_nil, if_neg (Nat.not_le.mpr h)]
  exact fun h => nomatch h

/-- No votes reach no quorum. -/
theorem not_suffice_nil {A : Counts} {c₀ : GovernanceCase}
    (hquorum : quorumIssues c₀.quorumRequirement = []) : ¬Suffice A c₀ [] := by
  have hk : 0 < c₀.quorumRequirement.k.getD 1 := by
    unfold quorumIssues positiveOption at hquorum
    cases hk : c₀.quorumRequirement.k with
    | none => decide
    | some k =>
      simp [hk] at hquorum
      simp only [Option.getD_some]
      omega
  have hseats (seats : Seats) (roles : List String) : roles.foldl (Seats.fill []) seats = seats := by
    induction roles with
    | nil => rfl
    | cons role roles ih => exact ih
  unfold Suffice
  show (evaluateApprovals c₀.quorumRequirement []).outcome ≠ .satisfied
  unfold evaluateApprovals
  cases c₀.quorumRequirement.kind with
  | anyOne => exact countTo_nil Nat.one_pos
  | kOfN => exact countTo_nil hk
  | allOf =>
    dsimp only
    split_ifs with hn
    · exact fun h => nomatch h
    · exact countTo_nil (Nat.pos_of_ne_zero hn)
  | roleSet =>
    dsimp only [evaluateRoleSet]
    rw [hseats]
    split_ifs with hroles hfilled
    · exact fun h => nomatch h
    · exact absurd (List.length_eq_zero_iff.mp hfilled.symm) hroles
    · exact fun h => nomatch h

/-- From an open case without votes: in every run that is undisturbed, once every call has returned,
votes that are still authorized and reach the quorum have satisfied the case, and its proof is
stored. -/
theorem quorum_kept (X : GovernanceExternal) (nonceHash : String → String) (c₀ : GovernanceCase)
    (w₀ : CaseWorld) (hstored : w₀.stores.cases.getById c₀.governanceCaseId = some c₀)
    (hopen : c₀.status = .open_) (hquorum : quorumIssues c₀.quorumRequirement = [])
    (hvotes : w₀.stores.attestations.listByCase c₀.governanceCaseId = [])
    (hproof : w₀.stores.proofs.getByCase c₀.governanceCaseId = none)
    (inputs : ι → AttestInput) (retries : ι → ℕ) (acts : List (Action ι (ℕ × AuthorityStores))) :
    let start := retriedVotes X nonceHash c₀.governanceCaseId w₀ inputs retries
    let pool := start.exec (votingSystem X) acts
    start.AllAllowed (votingSystem X) (fun _ => Undisturbed X (countsIn X c₀ pool.state) c₀) acts →
    (∀ i, Finished pool i) →
    Reaches X c₀ c₀.quorumRequirement pool.state →
    ∃ c proof, pool.state.stores.cases.getById c₀.governanceCaseId = some c ∧
      c.status = .satisfied ∧
      c.institutionalProofId = some proof.institutionalAuthorizationProofId ∧
      pool.state.stores.proofs.getByCase c₀.governanceCaseId = some proof := by
  intro start pool hundisturbed hreturned hreached
  let A := countsIn X c₀ pool.state
  have hinit : (reaching X A c₀).Holds (fun _ => false)
      (fun i => Ends c₀ i) start := by
    refine Guarded.Holds.init ⟨⟨c₀, hstored, .refl c₀, fun _ => rfl, ?_, ?_⟩, ?_, ?_⟩ fun i => ?_
    · rw [hopen]
      exact fun h => nomatch h
    · rw [hopen]
      exact fun h => nomatch h
    · intro p hp
      rw [hproof] at hp
      cases hp
    · rw [hvotes]
      exact fun _ h => absurd h (not_suffice_nil hquorum)
    · exact Async.sat_retrying (J := Discharged c₀ i) (fun log a h => attest_settles rfl h) (retries i)
        [] _ (.inl rfl)
  have hpool := hinit.exec acts hundisturbed
  obtain ⟨⟨c, hc, hversion⟩, hproofs, howed⟩ := hpool.inv
  -- nobody owes a count any more
  have hpaid : statusOf pool.state.stores c₀.governanceCaseId = some .satisfied := by
    by_contra hunsatisfied
    obtain ⟨j, hj⟩ := howed hunsatisfied (suffice_countsIn.mpr hreached)
    obtain ⟨result, hresult⟩ := (hreturned j).ok
    obtain ⟨b, hrely, hpaid⟩ := hpool.returned hresult
    rcases Paid.rely hpaid hrely with hfree | hsatisfied
    · rw [hfree] at hj
      cases hj
    · exact hunsatisfied hsatisfied
  rw [statusOf_eq hc] at hpaid
  have hstatus := Option.some.inj hpaid
  obtain ⟨hid, hpresent⟩ := hversion.satisfied hstatus
  obtain ⟨proof, hproof⟩ := Option.ne_none_iff_exists'.mp hpresent
  exact ⟨c, proof, hc, hstatus, hid.trans (congrArg some (hproofs proof hproof).symm), hproof⟩

/-! ## Alice and Bob -/

namespace GovernanceScenario

/-- A case that two approvals satisfy. -/
def pairCase : GovernanceCase :=
  let mandates := [mandateOf "m_1" (some (approvals 2)) []]
  newCase brief 10 (caseOver mandates) mandates

/-- The stores with that case. -/
def pairWorld : CaseWorld :=
  let w := mandated []
  { w with stores := { w.stores with cases := w.stores.cases.save pairCase } }

/-- Alice's approval, and Bob's. -/
def pairVote (bob : Bool) : AttestInput := vote (if bob then "bob" else "alice") "APPROVER"

/-- `n` calls by Alice, or by Bob. -/
def calls (bob : Bool) (n : ℕ) : List (Action Bool (ℕ × AuthorityStores)) :=
  List.replicate n (.run bob)

/-- Bob votes once Alice is done. -/
def inOrder : List (Action Bool (ℕ × AuthorityStores)) := calls false 30 ++ calls true 30

/-- Alice does all but read and list while Bob is about to store his vote. -/
def overtaken : List (Action Bool (ℕ × AuthorityStores)) :=
  calls true 7 ++ calls false 30 ++ calls true 30

end GovernanceScenario

open GovernanceScenario

theorem pairWorld_stored :
    pairWorld.stores.cases.getById pairCase.governanceCaseId = some pairCase :=
  Repository.getById_save_self _ pairCase

/-- Alice votes, then Bob: the theorem on this run. -/
theorem quorum_kept_in_order :
    let pool := (retriedVotes brief id pairCase.governanceCaseId pairWorld pairVote fun _ => 1).exec
      (votingSystem brief) inOrder
    ∃ c proof, pool.state.stores.cases.getById pairCase.governanceCaseId = some c ∧
      c.status = .satisfied ∧
      c.institutionalProofId = some proof.institutionalAuthorizationProofId ∧
      pool.state.stores.proofs.getByCase pairCase.governanceCaseId = some proof := by
  have hkept := quorum_kept brief id pairCase pairWorld pairWorld_stored rfl (by decide) rfl rfl
    pairVote (fun _ => 1) inOrder
  dsimp only at hkept ⊢
  rw [← and_imp, ← and_imp] at hkept
  exact hkept (by decide +kernel)

/-- Both calls return, both approvals are stored and still authorized, and the case collects. -/
theorem quorum_lost :
    ¬∀ (c₀ : GovernanceCase) (w₀ : CaseWorld),
      w₀.stores.cases.getById c₀.governanceCaseId = some c₀ → c₀.status = .open_ →
      quorumIssues c₀.quorumRequirement = [] →
      w₀.stores.attestations.listByCase c₀.governanceCaseId = [] →
      w₀.stores.proofs.getByCase c₀.governanceCaseId = none →
      ∀ (inputs : Bool → AttestInput) (retries : Bool → ℕ)
        (acts : List (Action Bool (ℕ × AuthorityStores))),
        let pool := (retriedVotes brief id c₀.governanceCaseId w₀ inputs retries).exec
          (votingSystem brief) acts
        (∀ i, Finished pool i) → Reaches brief c₀ c₀.quorumRequirement pool.state →
        statusOf pool.state.stores c₀.governanceCaseId = some .satisfied := by
  intro h
  have hlost := h pairCase pairWorld pairWorld_stored rfl (by decide) rfl rfl pairVote (fun _ => 1)
    overtaken
  dsimp only at hlost
  revert hlost
  decide +kernel

end Orchestrator
