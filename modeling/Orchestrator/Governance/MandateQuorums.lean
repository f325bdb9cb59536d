import Orchestrator.Atomic.Simulation
import Orchestrator.Governance.CaseDecision
import Orchestrator.Governance.Scenario

/-!
# The quorums of a case's mandates

A case keeps one quorum requirement, that of the first mandate that has one.

* `QuorumsAgree`: the requirements of the mandates come to the same;
* `Reordered`, `attest_alike`: cases whose mandates are bound in different orders go the same way;
* `mandate_quorums_enforced`: if the mandates' requirements agree, each of them is enforced, and
  their order is immaterial.
-/

namespace Orchestrator

open Atomic Collections GovernanceService

/-! ## Opening -/

/-- The mandates under these ids. -/
def boundMandates (w : GovernanceWorld) (mandateIds : List String) : List GovernanceMandate :=
  mandateIds.filterMap w.mandates.getById

variable {X : GovernanceExternal}

theorem requireActiveMandate_ok {w : GovernanceWorld} {mandateId : String} {m : GovernanceMandate} :
    requireActiveMandate w mandateId = .ok m ↔
      w.mandates.getById mandateId = some m ∧ m.status = .active := by
  unfold requireActiveMandate
  cases w.mandates.getById mandateId with
  | none => simp
  | some m' =>
    by_cases hactive : m'.status = .active
    · simp only [hactive, ne_eq, not_true_eq_false, if_false, Except.ok.injEq, Option.some.injEq]
      exact ⟨fun h => ⟨h, h ▸ hactive⟩, fun h => h.1⟩
    · simp only [ne_eq, hactive, not_false_eq_true, if_true, reduceCtorEq, Option.some.injEq,
        false_iff, not_and]
      rintro rfl
      exact hactive

/-- The mandates are found exactly when each is stored and `ACTIVE`. -/
theorem requireActiveMandates_ok {w : GovernanceWorld} {mandateIds : List String}
    {mandates : List GovernanceMandate} :
    mandateIds.mapM (requireActiveMandate w) = .ok mandates ↔
      (∀ id ∈ mandateIds, ∃ m, requireActiveMandate w id = .ok m) ∧
        mandates = boundMandates w mandateIds := by
  induction mandateIds generalizing mandates with
  | nil => simp [boundMandates, pure, Except.pure, eq_comm]
  | cons id ids ih =>
    rw [List.mapM_cons]
    cases hm : requireActiveMandate w id with
    | error e => simp [bind, Except.bind, hm]
    | ok m =>
      have hstored := (requireActiveMandate_ok.mp hm).1
      cases hms : ids.mapM (requireActiveMandate w) with
      | error e =>
        have hsome : ¬∀ id ∈ ids, ∃ m, requireActiveMandate w id = .ok m := fun hall => by
          have hok := ih.mpr ⟨hall, rfl⟩
          rw [hms] at hok
          cases hok
        simp only [bind, Except.bind, reduceCtorEq, List.mem_cons, forall_eq_or_imp, false_iff,
          not_and]
        exact fun hall => absurd hall.2 hsome
      | ok ms =>
        obtain ⟨hall, rfl⟩ := ih.mp hms
        simp only [bind, Except.bind, pure, Except.pure, Except.ok.injEq, List.mem_cons,
          forall_eq_or_imp, hm, exists_eq', true_and, boundMandates, List.filterMap_cons, hstored]
        exact ⟨fun h => ⟨hall, h.symm⟩, fun h => h.2.symm⟩

theorem acceptCase_ok {w : GovernanceWorld} {now : ℕ} {input : CaseInput} {c : GovernanceCase} :
    acceptCase X w now input = .ok c ↔
      input.mandateIds ≠ [] ∧
        (∀ id ∈ input.mandateIds, ∃ m, requireActiveMandate w id = .ok m) ∧
        assertProjectsOpen w input now = .ok () ∧ caseIssues c = [] ∧
        c = newCase X now input (boundMandates w input.mandateIds) := by
  unfold acceptCase
  by_cases hnone : input.mandateIds = []
  · simp [hnone, throw, throwThe, MonadExceptOf.throw, bind, Except.bind]
  · cases hms : input.mandateIds.mapM (requireActiveMandate w) with
    | error e =>
      have hsome : ¬∀ id ∈ input.mandateIds, ∃ m, requireActiveMandate w id = .ok m :=
        fun hall => by
          have hok := requireActiveMandates_ok.mpr ⟨hall, rfl⟩
          rw [hms] at hok
          cases hok
      simp only [hnone, if_false, bind, Except.bind, reduceCtorEq, false_iff]
      exact fun h => hsome h.2.1
    | ok ms =>
      obtain ⟨hall, rfl⟩ := requireActiveMandates_ok.mp hms
      cases hopen : assertProjectsOpen w input now with
      | error e => simp [hnone, bind, Except.bind]
      | ok u =>
        simp only [hnone, if_false, bind, Except.bind, parseRecord, ne_eq, not_false_eq_true,
          true_and]
        constructor
        · intro h
          split_ifs at h with hissues
          cases h
          exact ⟨hall, hissues, rfl⟩
        · rintro ⟨-, hissues, rfl⟩
          rw [if_pos hissues]

/-! ## Requirements that agree -/

/-- Two requirements come to the same: they have the same seats, and evaluate every list of
contributions to the same outcome. -/
structure SameQuorum (requiredRole : String) (req req' : GovernanceQuorumRequirement) : Prop where
  seats : ∀ role, role ∈ requiredRole :: req.roles ↔ role ∈ requiredRole :: req'.roles
  outcome : ∀ contributions, (evaluateGovernanceQuorum req contributions).outcome =
    (evaluateGovernanceQuorum req' contributions).outcome

theorem SameQuorum.refl (requiredRole : String) (req : GovernanceQuorumRequirement) :
    SameQuorum requiredRole req req := ⟨fun _ => Iff.rfl, fun _ => rfl⟩

/-- The mandates that have a requirement have requirements that come to the same. -/
def QuorumsAgree (requiredRole : String) (mandates : List GovernanceMandate) : Prop :=
  ∀ m ∈ mandates, ∀ m' ∈ mandates, ∀ req req', m.quorumRequirement = some req →
    m'.quorumRequirement = some req' → SameQuorum requiredRole req req'

section Agree

variable {requiredRole : String} {mandates : List GovernanceMandate}
  (hagree : QuorumsAgree requiredRole mandates)

include hagree

/-- The requirement of the case comes to the same as that of each mandate. -/
theorem QuorumsAgree.caseQuorum {m : GovernanceMandate} (hm : m ∈ mandates)
    {req : GovernanceQuorumRequirement} (hreq : m.quorumRequirement = some req) :
    SameQuorum requiredRole (caseQuorum mandates) req := by
  unfold Orchestrator.caseQuorum
  cases hfirst : mandates.findSome? (·.quorumRequirement) with
  | none =>
    rw [List.findSome?_eq_none_iff] at hfirst
    rw [hfirst m hm] at hreq
    cases hreq
  | some first =>
    obtain ⟨m', hm', hfirst⟩ := List.exists_of_findSome?_eq_some hfirst
    exact hagree m' hm' m hm first req hfirst hreq

/-- Over the same mandates in another order, a case has a requirement that comes to the same. -/
theorem QuorumsAgree.perm {mandates' : List GovernanceMandate} (hperm : mandates.Perm mandates') :
    SameQuorum requiredRole (Orchestrator.caseQuorum mandates)
      (Orchestrator.caseQuorum mandates') := by
  cases hfirst : mandates'.findSome? (·.quorumRequirement) with
  | none =>
    have hnone : mandates.findSome? (·.quorumRequirement) = none := by
      rw [List.findSome?_eq_none_iff] at hfirst ⊢
      exact fun m hm => hfirst m (hperm.mem_iff.mp hm)
    unfold Orchestrator.caseQuorum
    rw [hfirst, hnone]
    exact .refl _ _
  | some first =>
    obtain ⟨m, hm, hreq⟩ := List.exists_of_findSome?_eq_some hfirst
    have hsame := hagree.caseQuorum (hperm.mem_iff.mpr hm) hreq
    unfold Orchestrator.caseQuorum at hsame ⊢
    rw [hfirst]
    exact hsame

end Agree

/-! ## Cases over the same mandates -/

/-- Two cases over the same mandates, bound in different orders. -/
structure SameSeats (c c' : GovernanceCase) : Prop where
  governanceCaseId : c'.governanceCaseId = c.governanceCaseId
  subjectHash : c'.subjectHash = c.subjectHash
  requiredRole : c'.requiredRole = c.requiredRole
  action : c'.action = c.action
  projectIds : c'.projectIds = c.projectIds
  environmentScope : c'.environmentScope = c.environmentScope
  status : c'.status = c.status
  expiresAt : c'.expiresAt = c.expiresAt
  recordRevision : c'.recordRevision = c.recordRevision
  quorum : SameQuorum c.requiredRole c.quorumRequirement c'.quorumRequirement
  rules : c.separationRules.Perm c'.separationRules

/-- Two worlds that differ in the order in which the mandates of the case `id` were bound. -/
structure Reordered (id : String) (w w' : CaseWorld) : Prop where
  clock : w'.clock = w.clock
  authority : w'.stores.authority = w.stores.authority
  attestations : w'.stores.attestations = w.stores.attestations
  cases : ∃ c c', w.stores.cases.getById id = some c ∧ w'.stores.cases.getById id = some c' ∧
    SameSeats c c'
  proofs : (w'.stores.proofs.getByCase id).isSome = (w.stores.proofs.getByCase id).isSome

/-- Failures of one kind; which rule of several is named first depends on their order. -/
def SameFailure : GovernanceFailure → GovernanceFailure → Prop
  | .governance code _, .governance code' _ => code = code'
  | .invalid paths, .invalid paths' => paths = paths'
  | _, _ => False

theorem SameFailure.refl (e : GovernanceFailure) : SameFailure e e := by
  cases e <;> rfl

/-- Answers to one vote, in two such worlds. -/
structure SameAnswer (r r' : AttestResult) : Prop where
  attestation : r'.attestation = r.attestation
  quorumOutcome : r'.quorumOutcome = r.quorumOutcome
  status : r'.governanceCase.status = r.governanceCase.status

/-- Functions that go the same way in two such worlds. -/
abbrev Alike (X : GovernanceExternal) (id : String) {α β : Type} (V : α → β → Prop) (p : Call α)
    (p' : Call β) : Prop :=
  Async.Alike (governance X) (governance X) (Reordered id) SameFailure V p p'

section Alike

variable {id : String} {c c' : GovernanceCase}

theorem SameSeats.question (h : SameSeats c c') (principalId authorityRole : String)
    (action : Option String) (at_ : ℕ) :
    caseQuestion c' principalId authorityRole action at_ =
      caseQuestion c principalId authorityRole action at_ := by
  unfold caseQuestion caseProject caseEnvironment
  rw [h.projectIds, h.environmentScope]

theorem SameSeats.moved (h : SameSeats c c') (status : GovernanceCaseState)
    (proofId proofId' : Option String) :
    SameSeats (movedCase status proofId c) (movedCase status proofId' c') where
  governanceCaseId := h.governanceCaseId
  subjectHash := h.subjectHash
  requiredRole := h.requiredRole
  action := h.action
  projectIds := h.projectIds
  environmentScope := h.environmentScope
  status := rfl
  expiresAt := h.expiresAt
  recordRevision := congrArg (· + 1) h.recordRevision
  quorum := h.quorum
  rules := h.rules

/-- A check whose outcome is the same in both worlds. -/
theorem bothEnd_eq {ε α : Type} {F : ε → ε → Prop} (hF : ∀ e, F e e) {r r' : Except ε α}
    (h : r' = r) : BothEnd F Eq r r' := by
  subst h
  cases r' with
  | error e => exact hF e
  | ok a => rfl

/-- The calls that are answered alike: all but those on cases and proofs. -/
def CaseOp.Plain : CaseOp → Prop
  | .nowIso => True
  | .listActiveHolds _ => True
  | .resolveAuthority _ => True
  | .saveSnapshot _ => True
  | .getAttestation _ => True
  | .listAttestations _ => True
  | .saveAttestation _ => True
  | _ => False

theorem alike_call {o o' : CaseOp} {V : o.Res → o'.Res → Prop}
    (hcall : ∀ w w', Reordered id w w' →
      BothEnd SameFailure V (governance X o w).1 (governance X o' w').1 ∧
        Reordered id (governance X o w).2 (governance X o' w').2) :
    Alike X id V (call o) (call o') := hcall

theorem alike_plain {o : CaseOp} (ho : o.Plain) : Alike X id Eq (call o) (call o) := by
  refine alike_call fun w w' h => ?_
  have hclock := h.clock
  have hauthority := h.authority
  have hattestations := h.attestations
  refine ⟨bothEnd_eq SameFailure.refl ?_, ⟨?_, ?_, ?_, ?_, ?_⟩⟩
  · cases o <;> first | exact ho.elim | simp only [governance, hclock, hauthority, hattestations]
  · rw [governance_clock, governance_clock, hclock]
  · rw [governance_authority, governance_authority, hauthority]
  · cases o <;> first | exact ho.elim | simp only [governance, hattestations]
  · cases o <;> first | exact h.cases | exact ho.elim
  · cases o <;> first | exact h.proofs | exact ho.elim

/-- A plain call comes first. -/
theorem alike_plain_bind {o : CaseOp} {α β : Type} {V : α → β → Prop} {f : o.Res → Call α}
    {f' : o.Res → Call β} (ho : o.Plain) (hf : ∀ a, Alike X id V (f a) (f' a)) :
    Alike X id V ((call o).bind f) ((call o).bind f') := by
  refine (alike_plain ho).bind fun a a' ha => ?_
  subst ha
  exact hf a

/-- The case that is read. -/
def ReadAlike (id : String) (c c' : GovernanceCase) : Prop :=
  SameSeats c c' ∧ c.governanceCaseId = id

theorem requireCase_alike : Alike X id (ReadAlike id) (requireCase id) (requireCase id) := by
  have hget : Alike X id
      (fun (found found' : Option GovernanceCase) =>
        ∃ c c', found = some c ∧ found' = some c' ∧ ReadAlike id c c')
      (call (.getCase id)) (call (.getCase id)) := by
    intro w w' h
    obtain ⟨c, c', hc, hc', hsame⟩ := h.cases
    exact ⟨⟨c, c', hc, hc', hsame, Repository.id_of_getById hc⟩, h⟩
  unfold requireCase
  refine hget.bind ?_
  rintro _ _ ⟨c, c', rfl, rfl, hsame⟩
  exact Async.alike_pure hsame

theorem transition_alike (h : ReadAlike id c c') (toStatus : GovernanceCaseState)
    (proofId proofId' : Option String) :
    Alike X id (ReadAlike id) (transition c toStatus proofId) (transition c' toStatus proofId') := by
  intro w w' hw
  obtain ⟨hsame, hid⟩ := h
  obtain ⟨d, d', hd, hd', hstored⟩ := hw.cases
  rw [exec_transition, exec_transition, hsame.governanceCaseId, hsame.status, hsame.recordRevision, hid]
  rcases w.stores.transitionCase_cases id c.status c.recordRevision toStatus proofId with
    ⟨e, he, hstatus, hrevision, hmove⟩ | ⟨⟨e, hmove⟩, hstale⟩
  · obtain rfl := Option.some.inj (hd.symm.trans he)
    rcases w'.stores.transitionCase_cases id c.status c.recordRevision toStatus proofId' with
      ⟨e', he', -, -, hmove'⟩ | ⟨-, hstale'⟩
    · obtain rfl := Option.some.inj (hd'.symm.trans he')
      have hmoved := hstored.moved toStatus proofId proofId'
      have hkey := Repository.id_of_getById hd
      have hkey' := Repository.id_of_getById hd'
      rw [hmove, hmove']
      refine ⟨⟨hmoved, hkey⟩, hw.clock, hw.authority, hw.attestations, ?_, hw.proofs⟩
      refine ⟨movedCase toStatus proofId d, movedCase toStatus proofId' d', ?_, ?_, hmoved⟩
      · exact hkey ▸ Repository.getById_save_self _ (movedCase toStatus proofId d)
      · exact hkey' ▸ Repository.getById_save_self _ (movedCase toStatus proofId' d')
    · exact absurd (hstored.recordRevision.trans hrevision)
        (hstale' d' hd' (hstored.status.trans hstatus))
  · rcases w'.stores.transitionCase_cases id c.status c.recordRevision toStatus proofId' with
      ⟨e', he', hstatus', hrevision', -⟩ | ⟨⟨e', hmove'⟩, -⟩
    · obtain rfl := Option.some.inj (hd'.symm.trans he')
      exact absurd (hstored.recordRevision.symm.trans hrevision')
        (hstale d hd (hstored.status.symm.trans hstatus'))
    · rw [hmove, hmove']
      -- both find the same status and the same revision
      have hcas := GovernanceWorld.transitionCase_stale hd hmove
      have hcas' := GovernanceWorld.transitionCase_stale hd' hmove'
      rw [hstored.status, hstored.recordRevision, hcas] at hcas'
      cases hcas'
      exact ⟨SameFailure.refl _, hw⟩

theorem SameSeats.project (h : SameSeats c c') : caseProject c' = caseProject c := by
  unfold caseProject
  rw [h.projectIds]

theorem SameSeats.environment (h : SameSeats c c') : caseEnvironment c' = caseEnvironment c := by
  unfold caseEnvironment
  rw [h.environmentScope]

theorem alike_ofExcept_eq {α : Type} {r r' : Except GovernanceFailure α} (h : r' = r) :
    Alike X id Eq (Async.ofExcept r) (Async.ofExcept r') :=
  Async.alike_ofExcept (bothEnd_eq SameFailure.refl h)

/-- Whether the rules are broken does not depend on their order. -/
theorem assertSeparationOfDuties_perm {rules rules' : List SeparationOfDutyRule}
    (h : rules.Perm rules') (roleOccupancy : JsMap String String) :
    BothEnd SameFailure Eq (assertSeparationOfDuties rules roleOccupancy)
      (assertSeparationOfDuties rules' roleOccupancy) := by
  have hiff : assertSeparationOfDuties rules roleOccupancy = .ok () ↔
      assertSeparationOfDuties rules' roleOccupancy = .ok () := by
    rw [assertSeparationOfDuties_ok, assertSeparationOfDuties_ok]
    simp only [h.mem_iff]
  unfold assertSeparationOfDuties at hiff ⊢
  cases hfirst : rules.findSome? fun rule => (rule.violator roleOccupancy).map fun a => (rule, a) <;>
    cases hfirst' : rules'.findSome? fun rule =>
      (rule.violator roleOccupancy).map fun a => (rule, a) <;>
    simp_all [BothEnd, SameFailure]

theorem assertNoActiveHold_alike (h : SameSeats c c') (authorityRole : String) (now : ℕ) :
    Alike X id Eq (assertNoActiveHold c authorityRole now)
      (assertNoActiveHold c' authorityRole now) := by
  unfold assertNoActiveHold
  rw [h.project, h.environment]
  exact alike_plain_bind trivial fun _ => alike_ofExcept_eq rfl

theorem collectValidContributions_alike (h : SameSeats c c') (at_ : ℕ)
    (attestations : List GovernanceAttestation) :
    Alike X id Eq (collectValidContributions c at_ attestations)
      (collectValidContributions c' at_ attestations) := by
  induction attestations with
  | nil => exact Async.alike_pure rfl
  | cons a attestations ih =>
    unfold collectValidContributions
    rw [h.question]
    refine alike_plain_bind trivial fun resolution => ?_
    refine ih.bind fun out out' hout => ?_
    subst hout
    exact Async.alike_pure rfl

/-- A proof of the case is there afterwards, in both worlds. -/
theorem saveProof_alike {p p' : AuthorizationProof} (hp : p.governanceCaseId = id)
    (hp' : p'.governanceCaseId = id) :
    Alike X id (fun _ _ => True) (call (.saveProof p)) (call (.saveProof p')) := by
  have hstored (s : ProofStore) {q : AuthorizationProof} (hq : q.governanceCaseId = id) :
      ((s.save q).getByCase id).isSome = true := by
    unfold ProofStore.getByCase ProofStore.save
    simp only [hq, JsMap.get_set_self, Option.bind_some]
    rw [Repository.getById_save_self]
    rfl
  intro w w' h
  refine ⟨trivial, h.clock, h.authority, h.attestations, h.cases, ?_⟩
  exact (hstored w'.stores.proofs hp').trans (hstored w.stores.proofs hp).symm

theorem ensureProofForCase_alike (h : ReadAlike id c c') (attestations : List GovernanceAttestation)
    (now : ℕ) :
    Alike X id (fun _ _ => True) (ensureProofForCase X c attestations now)
      (ensureProofForCase X c' attestations now) := by
  obtain ⟨hsame, hid⟩ := h
  have hget : Alike X id
      (fun (found found' : Option AuthorizationProof) => found'.isSome = found.isSome)
      (call (.getProofByCase c.governanceCaseId)) (call (.getProofByCase c'.governanceCaseId)) := by
    intro w w' h
    rw [hsame.governanceCaseId, hid]
    exact ⟨h.proofs, h⟩
  unfold ensureProofForCase
  refine hget.bind fun found found' hfound => ?_
  cases found with
  | some proof =>
    obtain ⟨proof', rfl⟩ := Option.isSome_iff_exists.mp hfound
    exact Async.alike_pure trivial
  | none =>
    obtain rfl := Option.isNone_iff_eq_none.mp (by simpa using hfound)
    rw [hsame.requiredRole]
    refine (assertNoActiveHold_alike hsame _ now).bind fun _ _ _ => ?_
    refine (collectValidContributions_alike hsame now attestations).bind
      fun contributions contributions' hcontributions => ?_
    subst hcontributions
    refine Async.alike_ite ?_ (Async.alike_throw (SameFailure.refl _)) (saveProof_alike hid ?_)
    · rw [hsame.quorum.outcome]
    · exact hsame.governanceCaseId.trans hid

theorem settle_alike (h : ReadAlike id c c') (attestations : List GovernanceAttestation) (now : ℕ)
    (outcome : QuorumOutcome) :
    Alike X id (fun r r' => ReadAlike id r.1 r'.1) (settle X c attestations now outcome)
      (settle X c' attestations now outcome) := by
  cases outcome with
  | pending => exact Async.alike_pure h
  | blocked =>
    exact (transition_alike h .blocked none none).bind fun _ _ hmoved => Async.alike_pure hmoved
  | satisfied =>
    refine (ensureProofForCase_alike h attestations now).bind fun proof proof' _ => ?_
    exact (transition_alike h .satisfied _ _).bind fun _ _ hmoved => Async.alike_pure hmoved

theorem beginCollecting_alike (h : ReadAlike id c c') :
    Alike X id (ReadAlike id) (beginCollecting c) (beginCollecting c') :=
  Async.alike_ite (by rw [h.1.status]) (transition_alike h .collecting none none)
    (Async.alike_pure h)

theorem evaluateCase_alike (h : ReadAlike id c c') (saved : GovernanceAttestation) (now : ℕ) :
    Alike X id SameAnswer (evaluateCase X id saved c now) (evaluateCase X id saved c' now) := by
  unfold evaluateCase
  refine alike_plain_bind trivial fun (all : List GovernanceAttestation) => ?_
  refine (collectValidContributions_alike h.1 now all).bind
    fun contributions contributions' hcontributions => ?_
  subst hcontributions
  simp only [← h.1.quorum.outcome contributions]
  refine (settle_alike h all now _).bind fun r r' hr => ?_
  exact Async.alike_pure ⟨rfl, rfl, hr.1.status⟩

variable {nonceHash : String → String} {input : AttestInput}

theorem attestNew_alike (h : ReadAlike id c c') (hinput : input.governanceCaseId = id)
    (resolution : AuthorityResolution) (now : ℕ) :
    Alike X id SameAnswer (attestNew X nonceHash input c resolution now)
      (attestNew X nonceHash input c' resolution now) := by
  have hsnapshot : Alike X id Eq (createAuthoritySnapshot X resolution)
      (createAuthoritySnapshot X resolution) := by
    refine (alike_ofExcept_eq rfl).bind fun snapshot snapshot' hsnapshot => ?_
    subst hsnapshot
    exact alike_plain (o := .saveSnapshot snapshot) trivial
  unfold attestNew
  refine hsnapshot.bind fun snapshot snapshot' hsnapshot => ?_
  subst hsnapshot
  refine alike_plain_bind trivial fun prior => ?_
  refine (Async.alike_ofExcept (assertSeparationOfDuties_perm h.1.rules _)).bind fun _ _ _ => ?_
  refine alike_plain_bind trivial fun saved => ?_
  refine (beginCollecting_alike h).bind fun d d' hd => ?_
  rw [hinput]
  exact evaluateCase_alike hd saved now

theorem attestExisting_alike (hinput : input.governanceCaseId = id)
    (existing : GovernanceAttestation) :
    Alike X id SameAnswer (attestExisting input existing) (attestExisting input existing) := by
  unfold attestExisting
  refine Async.alike_ite Iff.rfl (Async.alike_throw (SameFailure.refl _)) ?_
  rw [hinput]
  refine requireCase_alike.bind fun c c' h => ?_
  have houtcome : outcomeOf c' = outcomeOf c := by
    unfold outcomeOf
    rw [h.1.status]
  intro w w' hw
  -- what is read of the proofs does not matter
  cases c.institutionalProofId <;> cases c'.institutionalProofId <;>
    exact ⟨⟨rfl, houtcome, h.1.status⟩, hw⟩

theorem requireAuthority_alike (h : SameSeats c c') (now : ℕ) :
    Alike X id Eq (requireAuthority c input now) (requireAuthority c' input now) := by
  unfold requireAuthority
  rw [h.action, h.question]
  refine alike_plain_bind trivial fun resolution => ?_
  exact Async.alike_ite Iff.rfl (Async.alike_throw (SameFailure.refl _)) (Async.alike_pure rfl)

theorem assertAttestable_alike (h : SameSeats c c') (now : ℕ) :
    assertAttestable c' now = assertAttestable c now := by
  unfold assertAttestable
  rw [h.status, h.expiresAt, h.governanceCaseId]

theorem assertContribution_alike (h : SameSeats c c') :
    assertContribution nonceHash input c' = assertContribution nonceHash input c := by
  have hroles : (allowedRoles c').contains input.authorityRole =
      (allowedRoles c).contains input.authorityRole := by
    rw [Bool.eq_iff_iff, List.contains_iff_mem, List.contains_iff_mem]
    unfold allowedRoles
    rw [h.requiredRole, h.quorum.seats]
  unfold assertContribution
  rw [h.subjectHash, hroles]

/-- An attestation goes the same way, whatever the order of the case's mandates. -/
theorem attest_alike (hinput : input.governanceCaseId = id) :
    Alike X id SameAnswer (attest X nonceHash input) (attest X nonceHash input) := by
  unfold attest
  refine alike_plain_bind trivial fun (now : ℕ) => ?_
  rw [hinput]
  refine requireCase_alike.bind fun c c' h => ?_
  refine (alike_ofExcept_eq (assertAttestable_alike h.1 now)).bind fun _ _ _ => ?_
  refine (alike_ofExcept_eq (assertContribution_alike h.1)).bind fun _ _ _ => ?_
  refine (assertNoActiveHold_alike h.1 _ now).bind fun _ _ _ => ?_
  refine (requireAuthority_alike h.1 now).bind fun resolution resolution' hresolution => ?_
  subst hresolution
  refine alike_plain_bind trivial fun (existing : Option GovernanceAttestation) => ?_
  cases existing with
  | some existing => exact attestExisting_alike hinput existing
  | none => exact attestNew_alike h hinput resolution now

end Alike

/-! ## Whole runs -/

section Runs

variable {id : String} {w w' : CaseWorld}

theorem Reordered.step (X : GovernanceExternal) (nonceHash : String → String)
    (h : Reordered id w w') (step : CaseStep) :
    Reordered id (caseStep X nonceHash id w step) (caseStep X nonceHash id w' step) := by
  cases step with
  | attest input =>
    have hid : ({ input with governanceCaseId := id } : AttestInput).governanceCaseId = id := rfl
    exact (attest_alike hid w w' h).2
  | clock now => exact ⟨rfl, h.authority, h.attestations, h.cases, h.proofs⟩
  | authority a => exact ⟨h.clock, rfl, h.attestations, h.cases, h.proofs⟩

/-- Every run goes the same way. -/
theorem Reordered.after (X : GovernanceExternal) (nonceHash : String → String)
    (h : Reordered id w w') (steps : List CaseStep) :
    Reordered id (after (caseStep X nonceHash id) w steps)
        (after (caseStep X nonceHash id) w' steps) ∧
      List.Forall₂ (BothEnd SameFailure SameAnswer) (answers X nonceHash id w steps)
        (answers X nonceHash id w' steps) := by
  induction steps generalizing w w' with
  | nil => exact ⟨h, .nil⟩
  | cons step steps ih =>
    obtain ⟨hend, hanswers⟩ := ih (h.step X nonceHash step)
    refine ⟨hend, ?_⟩
    cases step with
    | attest input =>
      have hid : ({ input with governanceCaseId := id } : AttestInput).governanceCaseId = id := rfl
      exact .cons (attest_alike hid w w' h).1 hanswers
    | clock now => exact hanswers
    | authority a => exact hanswers

theorem Reordered.status (h : Reordered id w w') : statusOf w'.stores id = statusOf w.stores id := by
  obtain ⟨c, c', hc, hc', hsame⟩ := h.cases
  unfold statusOf
  rw [hc, hc', Option.map_some, Option.map_some, hsame.status]

end Runs

/-- The world once the case is open. -/
def opened (X : GovernanceExternal) (w : CaseWorld) (input : CaseInput) : CaseWorld :=
  { w with stores := (openGovernanceCase X w.stores w.clock input).2 }

theorem openGovernanceCase_ok {w : CaseWorld} {input : CaseInput} {c : GovernanceCase} :
    (openGovernanceCase X w.stores w.clock input).1 = .ok c ↔
      acceptCase X w.stores w.clock input = .ok c := by
  unfold openGovernanceCase
  cases acceptCase X w.stores w.clock input <;> simp

theorem opened_of_ok {w : CaseWorld} {input : CaseInput} {c : GovernanceCase}
    (h : acceptCase X w.stores w.clock input = .ok c) :
    opened X w input = { w with stores := { w.stores with cases := w.stores.cases.save c } } := by
  unfold opened openGovernanceCase
  rw [h]

/-- Cases over the same mandates in another order, opened from one world. -/
theorem newCase_sameSeats (X : GovernanceExternal) (now : ℕ) {input : CaseInput}
    {mandates mandates' : List GovernanceMandate} (mandateIds : List String) (hagree : QuorumsAgree input.requiredRole mandates)
    (hperm : mandates.Perm mandates') :
    SameSeats (newCase X now input mandates)
      (newCase X now { input with mandateIds := mandateIds } mandates') where
  governanceCaseId := rfl
  subjectHash := rfl
  requiredRole := rfl
  action := rfl
  projectIds := rfl
  environmentScope := rfl
  status := rfl
  expiresAt := rfl
  recordRevision := rfl
  quorum := hagree.perm hperm
  rules := hperm.flatMap_right _

/-- A case over mandates whose requirements agree: a step of any run that makes it `SATISFIED`, or
mints its proof, reaches the quorum of every mandate that has one; and over the same mandates in any
other order the case opens under the same id, answers every vote the same, and ends in the same
status, with a proof or without. -/
theorem mandate_quorums_enforced (X : GovernanceExternal) (nonceHash : String → String)
    (w : CaseWorld) (input : CaseInput) (c : GovernanceCase)
    (hopen : (openGovernanceCase X w.stores w.clock input).1 = .ok c)
    (hagree : QuorumsAgree input.requiredRole (boundMandates w.stores input.mandateIds))
    (steps : List CaseStep) :
    let id := c.governanceCaseId
    let v := after (caseStep X nonceHash id) (opened X w input) steps
    (∀ step, Decides id v.stores (caseStep X nonceHash id v step).stores →
      ∀ m ∈ boundMandates w.stores input.mandateIds, ∀ req, m.quorumRequirement = some req →
        Reaches X c req (caseStep X nonceHash id v step)) ∧
    ∀ mandateIds, input.mandateIds.Perm mandateIds →
      let input' := { input with mandateIds := mandateIds }
      let v' := after (caseStep X nonceHash id) (opened X w input') steps
      (∃ c', (openGovernanceCase X w.stores w.clock input').1 = .ok c' ∧
        c'.governanceCaseId = id) ∧
      List.Forall₂ (BothEnd SameFailure SameAnswer)
        (answers X nonceHash id (opened X w input) steps)
        (answers X nonceHash id (opened X w input') steps) ∧
      statusOf v'.stores id = statusOf v.stores id ∧
      (v'.stores.proofs.getByCase id).isSome = (v.stores.proofs.getByCase id).isSome := by
  rw [openGovernanceCase_ok] at hopen
  have hopened := opened_of_ok hopen
  obtain ⟨hsome, hactive, hprojects, hissues, hc⟩ := acceptCase_ok.mp hopen
  intro id v
  have hkept : (w.stores.cases.save c).getById c.governanceCaseId = some c :=
    Repository.getById_save_self _ c
  constructor
  · intro step hdecides m hm req hreq
    have hstored : Stored c (opened X w input) := by
      rw [hopened]
      exact ⟨c, hkept, .refl c⟩
    have hreached := step_decides (hstored.after steps) step hdecides
    -- the case's own requirement comes to the same as that of the mandate
    have hsame := (hagree.caseQuorum hm hreq).outcome
    have hquorum : c.quorumRequirement =
        caseQuorum (boundMandates w.stores input.mandateIds) := by
      rw [hc]
      rfl
    unfold Reaches at hreached ⊢
    rw [← hsame, ← hquorum]
    exact hreached
  · intro mandateIds hperm input' v'
    have hbound : (boundMandates w.stores input.mandateIds).Perm
        (boundMandates w.stores mandateIds) := hperm.filterMap _
    have hseats := newCase_sameSeats X w.clock mandateIds hagree hbound
    rw [← hc] at hseats
    have hopen' : acceptCase X w.stores w.clock input' =
        .ok (newCase X w.clock input' (boundMandates w.stores mandateIds)) := by
      rw [acceptCase_ok]
      refine ⟨fun hnil => hsome ?_, fun id hid => hactive id (hperm.mem_iff.mpr hid), hprojects,
        ?_, rfl⟩
      · exact List.Perm.nil_eq (hnil ▸ hperm.symm) |>.symm
      · rw [hc] at hissues
        exact hissues
    have hopened' := opened_of_ok hopen'
    have hreordered : Reordered id (opened X w input) (opened X w input') := by
      rw [hopened, hopened']
      refine ⟨rfl, rfl, rfl, ⟨c, _, hkept, ?_, hseats⟩, rfl⟩
      have hid : (newCase X w.clock input' (boundMandates w.stores mandateIds)).governanceCaseId =
          id := hseats.governanceCaseId
      rw [← hid]
      exact Repository.getById_save_self _ _
    obtain ⟨hend, hanswers⟩ := hreordered.after X nonceHash steps
    exact ⟨⟨_, openGovernanceCase_ok.mpr hopen', hseats.governanceCaseId⟩, hanswers, hend.status,
      hend.proofs⟩

open GovernanceScenario

/-- A case over these mandates is opened. -/
theorem opens_over {mandates : List GovernanceMandate}
    (hbound : boundMandates (mandated mandates).stores (mandates.map (·.mandateId)) = mandates)
    (hids : mandates.map (·.mandateId) ≠ [])
    (hactive : ∀ id ∈ mandates.map (·.mandateId),
      (requireActiveMandate (mandated mandates).stores id).toOption.isSome = true) :
    (openGovernanceCase brief (mandated mandates).stores (mandated mandates).clock
      (caseOver mandates)).1 = .ok (newCase brief 10 (caseOver mandates) mandates) := by
  rw [openGovernanceCase_ok, acceptCase_ok]
  refine ⟨hids, fun id hid => ?_, rfl, rfl, ?_⟩
  · have hsome := hactive id hid
    cases hm : requireActiveMandate (mandated mandates).stores id with
    | ok m => exact ⟨m, rfl⟩
    | error e =>
      rw [hm] at hsome
      cases hsome
  · rw [show (caseOver mandates).mandateIds = mandates.map (·.mandateId) from rfl, hbound]
    rfl

/-- Two mandates that both ask for one approval: the theorem on Alice's vote. -/
theorem mandate_quorums_enforced_two :
    let mandates := [mandateOf "m_1" (some (approvals 1)) [], mandateOf "m_2" (some (approvals 1)) []]
    let w := mandated mandates
    let c := newCase brief 10 (caseOver mandates) mandates
    let v := caseStep brief id c.governanceCaseId (opened brief w (caseOver mandates))
      (.attest (vote "alice" "APPROVER"))
    Decides c.governanceCaseId w.stores v.stores ∧ Reaches brief c (approvals 1) v := by
  intro mandates w c v
  have hbound : boundMandates w.stores (caseOver mandates).mandateIds = mandates := by
    decide
  have hagree : QuorumsAgree "APPROVER" mandates := by
    have hreq : ∀ m ∈ mandates, m.quorumRequirement = some (approvals 1) := by decide
    intro m hm m' hm' req req' h h'
    rw [hreq m hm] at h
    rw [hreq m' hm'] at h'
    cases h
    cases h'
    exact .refl _ _
  have hopen : (openGovernanceCase brief w.stores w.clock (caseOver mandates)).1 = .ok c :=
    opens_over hbound (by decide) (by decide)
  have henforced := (mandate_quorums_enforced brief id w (caseOver mandates) c hopen
    (by rw [hbound]; exact hagree) []).1 (.attest (vote "alice" "APPROVER")) (by decide)
    (mandateOf "m_2" (some (approvals 1)) [])
  refine ⟨by decide, henforced ?_ _ rfl⟩
  rw [hbound]
  exact List.mem_cons_of_mem _ List.mem_cons_self

/-- The first mandate asks for one approval and the second for two: Alice's vote alone satisfies
the case. -/
theorem mandate_quorum_ignored :
    ¬∀ (w : CaseWorld) (input : CaseInput) (c : GovernanceCase) (step : CaseStep),
      (openGovernanceCase brief w.stores w.clock input).1 = .ok c →
      Decides c.governanceCaseId w.stores
        (caseStep brief id c.governanceCaseId (opened brief w input) step).stores →
      ∀ m ∈ boundMandates w.stores input.mandateIds, ∀ req, m.quorumRequirement = some req →
        Reaches brief c req
          (caseStep brief id c.governanceCaseId (opened brief w input) step) := by
  intro h
  let mandates := [mandateOf "m_1" (some (approvals 1)) [], mandateOf "m_2" (some (approvals 2)) []]
  have hbound : boundMandates (mandated mandates).stores (caseOver mandates).mandateIds =
      mandates := by
    decide
  have hopen := opens_over hbound (by decide) (by decide)
  have hmem : mandateOf "m_2" (some (approvals 2)) [] ∈
      boundMandates (mandated mandates).stores (caseOver mandates).mandateIds := by
    rw [hbound]
    exact List.mem_cons_of_mem _ List.mem_cons_self
  have hreached := h _ _ _ (.attest (vote "alice" "APPROVER")) hopen (by decide) _ hmem _ rfl
  exact absurd hreached (by decide)

end Orchestrator
