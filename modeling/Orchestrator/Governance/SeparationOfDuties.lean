import Orchestrator.Atomic.Guarded
import Orchestrator.Atomic.Throws
import Orchestrator.Governance.CaseDecision
import Orchestrator.Governance.Scenario

/-!
# Separation of duties

Any number of votes on one case, in any order of their calls.

* `Separated`: no principal has approved under both roles of a rule;
* `SeesOwn`: an approval is checked against a list in which the approvals that its principal has
  stored are the last of their roles;
* `separated_save`: such an approval, if it passes the check, leaves the attestations separated;
* `duties_separated`: in every run whose approvals are all checked so, the attestations stay
  separated, and an approval is refused only where it would join two roles of a rule.
-/

namespace Orchestrator

open Atomic Collections GovernanceService

/-! ## Separated attestations -/

/-- No principal has approved under both roles of a rule. -/
def Separated (rules : List SeparationOfDutyRule) (attestations : List GovernanceAttestation) :
    Prop :=
  ∀ rule ∈ rules, ∀ a ∈ attestations, ∀ b ∈ attestations, a.decision = .approve →
    b.decision = .approve → a.authorityRole = rule.roleA → b.authorityRole = rule.roleB →
    a.principalId ≠ b.principalId

/-- The roles of the rule, in one of the two orders. -/
def SeparationOfDutyRule.Joins (rule : SeparationOfDutyRule) (role other : String) : Prop :=
  (rule.roleA = role ∧ rule.roleB = other) ∨ (rule.roleB = role ∧ rule.roleA = other)

/-- The last to approve under a role. -/
def lastApprover (prior : List GovernanceAttestation) (role : String) : Option String :=
  (prior.foldl occupy .empty).get role

/-- The approvals that the principal of `a` has stored under the other role of a rule are the last
under their roles in the list `prior` that `a` was checked on. -/
def SeesOwn (rules : List SeparationOfDutyRule) (prior stored : List GovernanceAttestation)
    (a : GovernanceAttestation) : Prop :=
  a.decision = .approve → ∀ rule ∈ rules, ∀ b ∈ stored, b.decision = .approve →
    b.principalId = a.principalId → rule.Joins a.authorityRole b.authorityRole →
    lastApprover prior b.authorityRole = some b.principalId

/-- The vote would join two roles of a rule in its principal. -/
def WouldJoin (rules : List SeparationOfDutyRule) (prior : List GovernanceAttestation)
    (input : AttestInput) : Prop :=
  ∃ rule ∈ rules, ∃ other, rule.Joins input.authorityRole other ∧
    (other = input.authorityRole ∨ ∃ b ∈ prior, b.decision = .approve ∧
      b.principalId = input.principalId ∧ b.authorityRole = other)

instance (rules : List SeparationOfDutyRule) (attestations : List GovernanceAttestation) :
    Decidable (Separated rules attestations) := by
  unfold Separated
  infer_instance

instance (rule : SeparationOfDutyRule) (role other : String) : Decidable (rule.Joins role other) :=
  inferInstanceAs (Decidable (_ ∨ _))

instance (rules : List SeparationOfDutyRule) (prior stored : List GovernanceAttestation)
    (a : GovernanceAttestation) : Decidable (SeesOwn rules prior stored a) := by
  unfold SeesOwn
  infer_instance

/-! ## The map of the check -/

section Check

variable {rules : List SeparationOfDutyRule} {prior : List GovernanceAttestation}
  {input : AttestInput} {role p : String}

theorem get_occupy (occupancy : JsMap String String) (a : GovernanceAttestation) (role : String) :
    (occupy occupancy a).get role =
      if a.decision = .approve ∧ a.authorityRole = role then some a.principalId
      else occupancy.get role := by
  unfold occupy
  by_cases happrove : a.decision = .approve
  · rw [if_pos happrove, JsMap.get_set]
    simp [happrove]
  · rw [if_neg happrove, if_neg fun h => happrove h.1]

/-- The last to approve under a role has approved under it. -/
theorem mem_of_lastApprover (h : lastApprover prior role = some p) :
    ∃ b ∈ prior, b.decision = .approve ∧ b.principalId = p ∧ b.authorityRole = role := by
  unfold lastApprover at h
  induction prior using List.reverseRecOn with
  | nil => cases h
  | append_singleton prior a ih =>
    rw [List.foldl_append, List.foldl_cons, List.foldl_nil, get_occupy] at h
    split_ifs at h with ha
    · exact ⟨a, List.mem_append_right _ List.mem_cons_self, ha.1, Option.some.inj h, ha.2⟩
    · obtain ⟨b, hb, hrest⟩ := ih h
      exact ⟨b, List.mem_append_left _ hb, hrest⟩

/-- The map on which an approval is checked. -/
theorem get_roleOccupancy (happrove : input.decision = .approve) (role : String) :
    (roleOccupancy prior input).get role =
      if input.authorityRole = role then some input.principalId else lastApprover prior role := by
  unfold roleOccupancy lastApprover
  rw [if_pos happrove, JsMap.get_set]

/-- A vote that passes the check, and sees its principal's own approvals, leaves the attestations
separated. -/
theorem separated_save {s : AttestationStore} {id : String} {a : GovernanceAttestation}
    (hs : Separated rules (s.listByCase id)) (hprincipal : a.principalId = input.principalId)
    (hrole : a.authorityRole = input.authorityRole) (hdecision : a.decision = input.decision)
    (hname : input.principalId ≠ "")
    (hcheck : assertSeparationOfDuties rules (roleOccupancy prior input) = .ok ())
    (hsees : SeesOwn rules prior (s.listByCase id) a) :
    Separated rules ((s.save a).listByCase id) := by
  have hmem {b : GovernanceAttestation} (hb : b ∈ (s.save a).listByCase id) :
      b = a ∨ b ∈ s.listByCase id := by
    simp only [AttestationStore.listByCase, AttestationStore.save, List.mem_filter,
      Repository.mem_list_save] at hb ⊢
    rcases hb with ⟨hb | hb, hcase⟩
    · exact .inl hb
    · exact .inr ⟨hb.1, hcase⟩
  rw [assertSeparationOfDuties_ok] at hcheck
  -- the map has the vote's principal under its role, so it has another under the other role
  have hother {rule : SeparationOfDutyRule} (hrule : rule ∈ rules) {other : String}
      (hjoins : rule.Joins input.authorityRole other) (happrove : input.decision = .approve)
      (hget : (roleOccupancy prior input).get other = some input.principalId) : False := by
    have hown : (roleOccupancy prior input).get input.authorityRole = some input.principalId := by
      rw [get_roleOccupancy happrove, if_pos rfl]
    have hviolator : rule.violator (roleOccupancy prior input) = some input.principalId := by
      rw [SeparationOfDutyRule.violator_eq_some]
      rcases hjoins with ⟨hA, hB⟩ | ⟨hB, hA⟩
      · exact ⟨hA ▸ hown, hB ▸ hget, hname⟩
      · exact ⟨hA ▸ hget, hB ▸ hown, hname⟩
    rw [hcheck rule hrule] at hviolator
    cases hviolator
  have hpair {rule : SeparationOfDutyRule} (hrule : rule ∈ rules) {b : GovernanceAttestation}
      (hb : b ∈ (s.save a).listByCase id) (ha' : a.decision = .approve)
      (hb' : b.decision = .approve) (hjoins : rule.Joins a.authorityRole b.authorityRole) :
      b.principalId ≠ a.principalId := by
    intro hsame
    have happrove : input.decision = .approve := hdecision ▸ ha'
    rw [hrole] at hjoins
    refine hother hrule hjoins happrove ?_
    rw [get_roleOccupancy happrove]
    split_ifs with hown
    · rfl
    · rcases hmem hb with rfl | hb
      · exact absurd hrole.symm hown
      · rw [hsees ha' rule hrule b hb hb' hsame (hrole ▸ hjoins), hsame, hprincipal]
  intro rule hrule x hx y hy hxa hya hxrole hyrole hsame
  rcases hmem hx with rfl | hx'
  · exact hpair hrule hy hxa hya (.inl ⟨hxrole.symm, hyrole.symm⟩) hsame.symm
  · rcases hmem hy with rfl | hy'
    · exact hpair hrule hx hya hxa (.inr ⟨hyrole.symm, hxrole.symm⟩) hsame
    · exact hs rule hrule x hx' y hy' hxa hya hxrole hyrole hsame

/-- A refused approval would join two roles of a rule. -/
theorem wouldJoin_of_refused (hprior : Separated rules prior)
    (happrove : input.decision = .approve)
    (hrefused : assertSeparationOfDuties rules (roleOccupancy prior input) ≠ .ok ()) :
    WouldJoin rules prior input := by
  rw [ne_eq, assertSeparationOfDuties_ok] at hrefused
  push Not at hrefused
  obtain ⟨rule, hrule, hviolated⟩ := hrefused
  obtain ⟨p, hp⟩ := Option.ne_none_iff_exists'.mp hviolated
  obtain ⟨hA, hB, -⟩ := SeparationOfDutyRule.violator_eq_some.mp hp
  rw [get_roleOccupancy happrove] at hA hB
  by_cases hroleA : input.authorityRole = rule.roleA
  · refine ⟨rule, hrule, rule.roleB, .inl ⟨hroleA.symm, rfl⟩, ?_⟩
    by_cases hroleB : input.authorityRole = rule.roleB
    · exact .inl hroleB.symm
    · rw [if_pos hroleA] at hA
      rw [if_neg hroleB, ← hA] at hB
      exact .inr (mem_of_lastApprover hB)
  · by_cases hroleB : input.authorityRole = rule.roleB
    · rw [if_neg hroleA] at hA
      rw [if_pos hroleB] at hB
      rw [← hB] at hA
      exact ⟨rule, hrule, rule.roleA, .inr ⟨hroleB.symm, rfl⟩, .inr (mem_of_lastApprover hA)⟩
    · -- neither role is the vote's: the two approvals are there already
      rw [if_neg hroleA] at hA
      rw [if_neg hroleB] at hB
      obtain ⟨x, hx, hxa, hxp, hxrole⟩ := mem_of_lastApprover hA
      obtain ⟨y, hy, hya, hyp, hyrole⟩ := mem_of_lastApprover hB
      exact absurd (hxp.trans hyp.symm) (hprior rule hrule x hx y hy hxa hya hxrole hyrole)

end Check

/-! ## What an attestation throws -/

/-- A failure other than a refusal by the separation of duties. -/
def OtherFailure (e : GovernanceFailure) : Prop :=
  ∀ message, e ≠ .governance .separationOfDutiesViolation message

theorem otherFailure {code : GovernanceErrorCode} {message : String}
    (h : code ≠ .separationOfDutiesViolation) : OtherFailure (.governance code message) := by
  rintro message' hmessage
  cases hmessage
  exact h rfl

section Throws

variable {X : GovernanceExternal} {nonceHash : String → String} {c : GovernanceCase}
  {input : AttestInput}

/-- No call refuses a vote. -/
theorem governance_throws (o : CaseOp) (w : CaseWorld) :
    ErrorsAre OtherFailure (governance X o w).1 := by
  cases o with
  | transitionCase id fromStatus revision toStatus proofId =>
    intro e he
    simp only [governance, GovernanceWorld.transitionCase] at he
    rcases hcas : casTransition caseRevised
      (.governance .governanceCaseNotFound s!"Governance case {id} not found") w.stores.cases id
      fromStatus.text revision (movedCase toStatus proofId) with ⟨r, cases⟩
    rw [hcas] at he
    obtain rfl : r = .error e := he
    unfold casTransition assertCasTransition at hcas
    split at hcas
    · cases hcas
      exact otherFailure (by decide)
    · split_ifs at hcas
      · cases hcas
        exact otherFailure (by decide)
      · cases hcas
        exact otherFailure (by decide)
      · cases hcas
  | _ =>
    intro e he
    cases he

theorem throws_call (o : CaseOp) : (call o).Throws OtherFailure := Async.throws_await o

theorem requireCase_throws (id : String) : (requireCase id).Throws OtherFailure := by
  refine (throws_call _).bind fun found => ?_
  cases (found : Option GovernanceCase) with
  | none => exact Async.throws_throw (otherFailure (by decide))
  | some c => exact Async.throws_pure c

theorem assertAttestable_throws (now : ℕ) :
    (Async.ofExcept (assertAttestable c now) : Call Unit).Throws OtherFailure := by
  refine Async.throws_ofExcept fun e he => ?_
  unfold assertAttestable at he
  split_ifs at he <;> cases he <;> exact otherFailure (by decide)

theorem assertContribution_throws :
    (Async.ofExcept (assertContribution nonceHash input c) : Call Unit).Throws OtherFailure := by
  refine Async.throws_ofExcept fun e he => ?_
  unfold assertContribution at he
  split_ifs at he <;> cases he <;> exact otherFailure (by decide)

theorem assertNoActiveHold_throws (authorityRole : String) (now : ℕ) :
    (assertNoActiveHold c authorityRole now).Throws OtherFailure := by
  refine (throws_call _).bind fun holds => Async.throws_ofExcept fun e he => ?_
  unfold assertNoneCovers at he
  split at he
  · cases he
    exact otherFailure (by decide)
  · cases he

theorem requireAuthority_throws (now : ℕ) :
    (requireAuthority c input now).Throws OtherFailure :=
  (throws_call _).bind fun _ =>
    .ite (Async.throws_throw (otherFailure (by decide))) (Async.throws_pure _)

theorem attestExisting_throws (existing : GovernanceAttestation) :
    (attestExisting input existing).Throws OtherFailure := by
  unfold attestExisting
  refine .ite (Async.throws_throw (otherFailure (by decide)))
    ((requireCase_throws _).bind fun c => ?_)
  cases c.institutionalProofId with
  | none => exact Async.throws_pure _
  | some proofId => exact (throws_call _).bind fun _ => Async.throws_pure _

theorem createAuthoritySnapshot_throws (resolution : AuthorityResolution) :
    (createAuthoritySnapshot X resolution).Throws OtherFailure := by
  refine (Async.throws_ofExcept fun e he => ?_).bind fun _ => throws_call _
  unfold parseRecord at he
  split_ifs at he
  cases he
  exact fun _ h => nomatch h

theorem collectValidContributions_throws (at_ : ℕ) (attestations : List GovernanceAttestation) :
    (collectValidContributions c at_ attestations).Throws OtherFailure := by
  induction attestations with
  | nil => exact Async.throws_pure _
  | cons a attestations ih =>
    exact (throws_call _).bind fun _ => ih.bind fun _ => Async.throws_pure _

theorem ensureProofForCase_throws (attestations : List GovernanceAttestation) (now : ℕ) :
    (ensureProofForCase X c attestations now).Throws OtherFailure := by
  refine (throws_call _).bind fun existing => ?_
  cases (existing : Option AuthorizationProof) with
  | some proof => exact Async.throws_pure _
  | none =>
    refine (assertNoActiveHold_throws _ _).bind fun _ => ?_
    refine (collectValidContributions_throws _ _).bind fun _ => ?_
    exact .ite (Async.throws_throw (otherFailure (by decide))) (throws_call _)

theorem settle_throws (attestations : List GovernanceAttestation) (now : ℕ)
    (outcome : QuorumOutcome) : (settle X c attestations now outcome).Throws OtherFailure := by
  cases outcome with
  | pending => exact Async.throws_pure _
  | blocked => exact (throws_call _).bind fun _ => Async.throws_pure _
  | satisfied =>
    exact (ensureProofForCase_throws _ _).bind fun _ => (throws_call _).bind fun _ =>
      Async.throws_pure _

theorem beginCollecting_throws : (beginCollecting c).Throws OtherFailure :=
  .ite (throws_call _) (Async.throws_pure _)

theorem evaluateCase_throws (id : String) (saved : GovernanceAttestation) (now : ℕ) :
    (evaluateCase X id saved c now).Throws OtherFailure :=
  (throws_call _).bind fun _ => (collectValidContributions_throws _ _).bind fun _ =>
    (settle_throws _ _ _).bind fun _ => Async.throws_pure _

end Throws

/-! ## Votes -/

/-- The attestations that a caller listed last. -/
def listed : Log CaseSig → List GovernanceAttestation
  | [] => []
  | ⟨.listAttestations _, .ok attestations⟩ :: _ => attestations
  | _ :: log => listed log

/-- An approval is stored only where it sees its principal's own approvals. -/
def StoresSeen (c₀ : GovernanceCase) (log : Log CaseSig) (w : CaseWorld) : CaseOp → Prop
  | .saveAttestation a => SeesOwn c₀.separationRules (listed log)
      (w.stores.attestations.listByCase c₀.governanceCaseId) a
  | _ => True

instance (c₀ : GovernanceCase) (log : Log CaseSig) (w : CaseWorld) (o : CaseOp) :
    Decidable (StoresSeen c₀ log w o) := by
  apply CaseOp.casesOn (motive := fun o => Decidable (StoresSeen c₀ log w o)) o <;> intros <;>
    unfold StoresSeen <;> infer_instance

/-- Votes on the case under `id`. -/
def votes {ι : Type} (X : GovernanceExternal) (nonceHash : String → String) (id : String)
    (w : CaseWorld) (inputs : ι → AttestInput) :
    Pool CaseSig ι CaseWorld (Except GovernanceFailure AttestResult) :=
  Pool.init w fun i => (attestCase X nonceHash id (inputs i)).prog

variable {ι : Type} [DecidableEq ι]

/-- The attestations of the case stay separated. -/
def duties (X : GovernanceExternal) (c₀ : GovernanceCase) : Guarded (votingSystem X) ι Unit where
  note h _ := h
  inv a := Stored c₀ a.1 ∧ Separated c₀.separationRules
    (a.1.stores.attestations.listByCase c₀.governanceCaseId)
  moves _ _ := True
  moves_refl _ := trivial
  moves_trans _ _ _ _ _ := trivial
  env_inv _ _ h := h
  env_moves _ _ := trivial
  guard _ := StoresSeen c₀

/-- A vote that was refused for the separation of duties would join two roles of a rule. -/
def RefusedFairly {α : Type} (c₀ : GovernanceCase) (input : AttestInput) (log : Log CaseSig)
    (r : Except GovernanceFailure α) : Prop :=
  ∀ message, r = .error (.governance .separationOfDutiesViolation message) →
    input.decision = .approve →
    ∃ prior, ⟨.listAttestations c₀.governanceCaseId, .ok prior⟩ ∈ log ∧
      WouldJoin c₀.separationRules prior input

section Sat

variable {X : GovernanceExternal} {nonceHash : String → String} {c₀ c : GovernanceCase} {i : ι}
  {input : AttestInput} {log : Log CaseSig} {a : CaseWorld × (ι → Unit)}

/-- A call that stores no attestation. -/
theorem keeps_duties : Keeps ((duties X c₀).env i) (duties (ι := ι) X c₀).Safe CaseOp.Silent
    fun _ _ => True := by
  refine ⟨fun _ _ _ _ _ => trivial, fun _ b o r b' ho _ hstep => ⟨⟨⟨?_, ?_⟩, trivial⟩, trivial⟩⟩
  all_goals obtain ⟨-, ⟨⟨c, hc, hsame⟩, hseparated⟩, rfl, rfl⟩ := hstep
  · obtain ⟨c', hc', hsame'⟩ := governance_case (X := X) o hc
    exact ⟨c', hc', hsame.trans hsame'⟩
  · have hattestations : (governance X o b.1).2.stores.attestations = b.1.stores.attestations := by
      cases o with
      | saveAttestation a => exact ho.elim
      | _ => rfl
    exact hattestations ▸ hseparated

theorem refusedFairly_of_other {α : Type} {e : GovernanceFailure} (h : OtherFailure e) :
    RefusedFairly c₀ input log (.error e : Except GovernanceFailure α) := by
  rintro message he
  cases he
  exact absurd rfl (h message)

/-- A part that stores no attestation, and refuses no vote. -/
theorem silent_sat {α : Type} {p : Call α} (hp : p.Only CaseOp.Silent)
    (hthrows : p.Throws OtherFailure) :
    p.Sat ((duties X c₀).env i) (duties X c₀).Safe (fun _ _ r => ErrorsAre OtherFailure r) log a := by
  refine ((hp.sat keeps_duties trivial).throws hthrows fun _ b o r b' hstep => ?_).mono
    fun _ _ _ h => h.2
  obtain ⟨-, -, rfl, -⟩ := hstep
  exact governance_throws o b.1

/-- Such a part comes first. -/
theorem silent_bind {α β : Type} {p : Call α} {f : α → Call β} (hp : p.Only CaseOp.Silent)
    (hthrows : p.Throws OtherFailure)
    (hf : ∀ log b v, (f v).Sat ((duties X c₀).env i) (duties X c₀).Safe
      (fun log _ r => RefusedFairly c₀ input log r) log b) :
    (p.bind f).Sat ((duties X c₀).env i) (duties X c₀).Safe
      (fun log _ r => RefusedFairly c₀ input log r) log a :=
  Async.Sat.bind (silent_sat hp hthrows) (fun _ _ _ _ => hf _ _ _) fun _ _ _ h =>
    refusedFairly_of_other (h _ rfl)

/-- The case is read in some version. -/
theorem requireCase_fair :
    (requireCase c₀.governanceCaseId).Sat ((duties X c₀).env i) (duties X c₀).Safe
      (fun _ _ r => ErrorsAre OtherFailure r ∧ ∀ c, r = .ok c → SameCase c₀ c) log a := by
  unfold requireCase
  refine Async.Sat.bind (R := fun _ _ r => ∃ c, SameCase c₀ c ∧ r = .ok (some c)) ?_ ?_ ?_
  · refine Guarded.sat_read (fun _ => rfl) (fun _ => rfl) fun b _ hinv => ?_
    obtain ⟨⟨c, hc, hsame⟩, -⟩ := hinv
    exact ⟨c, hsame, congrArg Except.ok hc⟩
  · rintro log b _ ⟨c, hsame, ⟨⟩⟩
    refine ⟨fun _ h => (nomatch h), fun c' hc' => ?_⟩
    cases hc'
    exact hsame
  · rintro log b _ ⟨c, -, ⟨⟩⟩

/-- The resolution that a vote rests on is its principal's. -/
theorem requireAuthority_fair (now : ℕ) :
    (requireAuthority c input now).Sat ((duties X c₀).env i) (duties X c₀).Safe
      (fun _ _ r => ErrorsAre OtherFailure r ∧
        ∀ resolution, r = .ok resolution → resolution.principalId = input.principalId) log a := by
  unfold requireAuthority
  refine Async.Sat.bind (R := fun _ _ r => ∃ resolution : AuthorityResolution,
    resolution.principalId = input.principalId ∧ r = .ok resolution) ?_ ?_ ?_
  · exact Guarded.sat_read (fun _ => rfl) (fun _ => rfl) fun b _ _ =>
      ⟨_, AuthorityStores.resolveAuthority_principalId _ _, rfl⟩
  · rintro log b _ ⟨resolution, hprincipal, ⟨⟩⟩
    refine (Async.sat_ite _ _ _).mpr ⟨fun _ => ?_, fun _ => ?_⟩
    · refine ⟨fun e he => ?_, fun _ h => nomatch h⟩
      cases he
      exact otherFailure (by decide)
    · refine ⟨fun _ h => (nomatch h), fun r hr => ?_⟩
      cases hr
      exact hprincipal
  · rintro log b _ ⟨resolution, -, ⟨⟩⟩

/-- A snapshot is taken of a principal that has a name. -/
theorem createAuthoritySnapshot_fair {resolution : AuthorityResolution} :
    (createAuthoritySnapshot X resolution).Sat ((duties X c₀).env i) (duties X c₀).Safe
      (fun _ _ r => ErrorsAre OtherFailure r ∧ (r.isOk → resolution.principalId ≠ "")) log a := by
  unfold createAuthoritySnapshot
  refine Async.Sat.bind_ofExcept (fun snapshot hparse => ?_) fun e hparse => ?_
  · have hname : resolution.principalId ≠ "" := by
      have hissues := (parseRecord_ok hparse).2
      intro hempty
      simp [snapshotIssues, buildAuthoritySnapshot, minOne, hempty] at hissues
    have hsave : (call (.saveSnapshot snapshot)).Only CaseOp.Silent := only_call trivial
    exact (silent_sat hsave (throws_call _)).mono fun _ _ _ hr => ⟨hr, fun _ => hname⟩
  · unfold parseRecord at hparse
    split_ifs at hparse
    cases hparse
    refine ⟨fun e he => ?_, fun h => nomatch h⟩
    cases he
    exact fun _ h => nomatch h

/-- A new vote keeps the attestations separated, and is refused fairly. -/
theorem attestNew_fair (hc : SameCase c₀ c) (hid : input.governanceCaseId = c₀.governanceCaseId)
    {resolution : AuthorityResolution} (hprincipal : resolution.principalId = input.principalId)
    (now : ℕ) :
    (attestNew X nonceHash input c resolution now).Sat ((duties X c₀).env i) (duties X c₀).Safe
      (fun log _ r => RefusedFairly c₀ input log r) log a := by
  unfold attestNew
  refine Async.Sat.bind createAuthoritySnapshot_fair ?_
    fun _ _ _ h => refusedFairly_of_other (h.1 _ rfl)
  rintro log b snapshot ⟨-, hname⟩
  have hname : input.principalId ≠ "" := hprincipal ▸ hname rfl
  -- what the call lists is separated, for it is stored
  refine Async.Sat.bind (R := fun log' _ r => ∃ prior, Separated c₀.separationRules prior ∧
    r = .ok prior ∧ log' = ⟨.listAttestations c₀.governanceCaseId, .ok prior⟩ :: log) ?_ ?_
    fun _ _ _ h => by obtain ⟨_, -, h, -⟩ := h; cases h
  · rw [hid]
    exact Guarded.sat_read (fun _ => rfl) (fun _ => rfl) fun b _ hinv => ⟨_, hinv.2, rfl, rfl⟩
  rintro log' b _ ⟨prior, hprior, ⟨⟩, rfl⟩
  rw [hc.separationRules]
  refine Async.Sat.bind_ofExcept (fun _ hcheck => ?_) fun e hcheck => ?_
  · refine Async.Sat.bind (R := fun _ _ r => ErrorsAre OtherFailure r) ?_ ?_
      fun _ _ _ h => refusedFairly_of_other (h _ rfl)
    · refine Guarded.sat_await fun b' _ hinv hseen => ⟨⟨⟨hinv.1, ?_⟩, trivial⟩, fun _ h => nomatch h⟩
      exact separated_save hinv.2 rfl rfl rfl hname hcheck hseen
    intro log b saved _
    have hsilent {α : Type} {p : Call α} (hp : p.Only CaseOp.Settles) : p.Only CaseOp.Silent :=
      hp.mono fun _ ho => ho.silent
    refine silent_bind (hsilent beginCollecting_only) beginCollecting_throws fun log b c' => ?_
    exact (silent_sat (hsilent (evaluateCase_only _ _ _)) (evaluateCase_throws _ _ _)).mono
      fun _ _ r hr message hrefused => absurd rfl (hr _ hrefused message)
  · rintro message ⟨⟩ happrove
    refine ⟨_, List.mem_cons_self, wouldJoin_of_refused hprior happrove ?_⟩
    rw [hcheck]
    exact fun h => nomatch h

/-- So does every vote. -/
theorem attest_fair (hid : input.governanceCaseId = c₀.governanceCaseId) :
    (attest X nonceHash input).Sat ((duties X c₀).env i) (duties X c₀).Safe
      (fun log _ r => RefusedFairly c₀ input log r) log a := by
  have hsilent {α : Type} {p : Call α} (hp : p.Only CaseOp.Reads) : p.Only CaseOp.Silent :=
    hp.mono fun _ ho => ho.silent
  unfold attest
  refine silent_bind (only_call trivial) (throws_call _) fun log b now => ?_
  refine Async.Sat.bind (hid ▸ requireCase_fair) ?_ fun _ _ _ h => refusedFairly_of_other (h.1 _ rfl)
  rintro log b c ⟨-, hsame⟩
  have hsame : SameCase c₀ c := hsame c rfl
  refine silent_bind (Async.only_ofExcept _) (assertAttestable_throws _) fun log b _ => ?_
  refine silent_bind (Async.only_ofExcept _) assertContribution_throws fun log b _ => ?_
  refine silent_bind (hsilent (assertNoActiveHold_reads _ _ _)) (assertNoActiveHold_throws _ _)
    fun log b _ => ?_
  refine Async.Sat.bind (requireAuthority_fair _) ?_ fun _ _ _ h => refusedFairly_of_other (h.1 _ rfl)
  rintro log b resolution ⟨-, hprincipal⟩
  refine silent_bind (only_call trivial) (throws_call _) fun log b existing => ?_
  cases (existing : Option GovernanceAttestation) with
  | some existing =>
    exact (silent_sat (hsilent (attestExisting_reads _ _)) (attestExisting_throws _)).mono
      fun _ _ r hr message hrefused => absurd rfl (hr _ hrefused message)
  | none => exact attestNew_fair hsame hid (hprincipal _ rfl) now

end Sat

/-- While every approval that is stored sees its principal's own approvals, no principal has
approved under both roles of a rule, and an approval is refused only where it would join them. -/
theorem duties_separated (X : GovernanceExternal) (nonceHash : String → String)
    (c₀ : GovernanceCase) (w₀ : CaseWorld) (hstored : Stored c₀ w₀)
    (hseparated : Separated c₀.separationRules
      (w₀.stores.attestations.listByCase c₀.governanceCaseId))
    (inputs : ι → AttestInput) (acts : List (Action ι (ℕ × AuthorityStores)))
    (hseen : (votes X nonceHash c₀.governanceCaseId w₀ inputs).AllAllowed (votingSystem X)
      (fun _ => StoresSeen c₀) acts) :
    let pool := (votes X nonceHash c₀.governanceCaseId w₀ inputs).exec (votingSystem X) acts
    Separated c₀.separationRules
        (pool.state.stores.attestations.listByCase c₀.governanceCaseId) ∧
      ∀ i message,
        pool.returned i = some (.error (.governance .separationOfDutiesViolation message)) →
        (inputs i).decision = .approve →
        ∃ prior, ⟨.listAttestations c₀.governanceCaseId, .ok prior⟩ ∈ pool.log i ∧
          WouldJoin c₀.separationRules prior (inputs i) := by
  intro pool
  have hinit : (duties X c₀).Holds (fun _ => ())
      (fun i log _ r => RefusedFairly c₀ (inputs i) log r)
      (votes X nonceHash c₀.governanceCaseId w₀ inputs) := by
    refine Guarded.Holds.init ⟨hstored, hseparated⟩ fun i => ?_
    have hid : ({ inputs i with governanceCaseId := c₀.governanceCaseId } :
        AttestInput).governanceCaseId = c₀.governanceCaseId := rfl
    exact attest_fair hid
  have hpool := hinit.exec acts hseen
  refine ⟨hpool.inv.2, fun i message hrefused happrove => ?_⟩
  obtain ⟨-, -, hfair⟩ := hpool.returned (Pool.returned_eq_some.mp hrefused)
  exact hfair message rfl happrove

/-! ## Alice and Bob -/

namespace GovernanceScenario

/-- Whoever approves may not audit; three approvals are asked for. -/
def dutiesApart : GovernanceMandate :=
  mandateOf "m_1" (some (approvals 3)) [⟨"rule_1", "APPROVER", "AUDITOR", ""⟩]

/-- The case over that mandate. -/
def splitCase : GovernanceCase := newCase brief 10 (caseOver [dutiesApart]) [dutiesApart]

/-- The stores with that case. -/
def splitWorld : CaseWorld :=
  let w := mandated [dutiesApart]
  { w with stores := { w.stores with cases := w.stores.cases.save splitCase } }

/-- Alice approves, Bob approves, and Alice approves as an auditor. -/
def ballots : Fin 3 → AttestInput :=
  ![vote "alice" "APPROVER", vote "bob" "APPROVER", vote "alice" "AUDITOR"]

/-- The callers, one after the other, each with enough calls to return. -/
def eachInTurn (callers : List (Fin 3)) : List (Action (Fin 3) (ℕ × AuthorityStores)) :=
  callers.flatMap fun i => List.replicate 16 (.run i)

end GovernanceScenario

open GovernanceScenario

theorem splitWorld_stored : Stored splitCase splitWorld :=
  ⟨splitCase, Repository.getById_save_self _ splitCase, .refl splitCase⟩

theorem splitWorld_separated : Separated splitCase.separationRules
    (splitWorld.stores.attestations.listByCase splitCase.governanceCaseId) :=
  fun _ _ _ h => nomatch h

/-- Alice has approved, and audits: the theorem on the refusal. -/
theorem duties_separated_alice :
    let pool := (votes brief id splitCase.governanceCaseId splitWorld ballots).exec
      (votingSystem brief) (eachInTurn [0, 2])
    Separated splitCase.separationRules
        (pool.state.stores.attestations.listByCase splitCase.governanceCaseId) ∧
      ∃ prior, ⟨.listAttestations splitCase.governanceCaseId, .ok prior⟩ ∈ pool.log 2 ∧
        WouldJoin splitCase.separationRules prior (ballots 2) := by
  dsimp only
  have hseen : (votes brief id splitCase.governanceCaseId splitWorld ballots).AllAllowed
      (votingSystem brief) (fun _ => StoresSeen splitCase) (eachInTurn [0, 2]) := by
    decide
  obtain ⟨hseparated, hfair⟩ := duties_separated brief id splitCase splitWorld splitWorld_stored
    splitWorld_separated ballots (eachInTurn [0, 2]) hseen
  refine ⟨hseparated, ?_⟩
  exact hfair 2 "Principal alice cannot occupy both APPROVER and AUDITOR" (by decide)
    (by decide)

/-- Alice approves, Bob approves under the same role, and Alice's audit is not refused. -/
theorem duties_joined :
    ¬∀ (w₀ : CaseWorld) (c₀ : GovernanceCase), Stored c₀ w₀ →
      w₀.stores.attestations.listByCase c₀.governanceCaseId = [] →
      ∀ (inputs : Fin 3 → AttestInput) (acts : List (Action (Fin 3) (ℕ × AuthorityStores))),
        Separated c₀.separationRules
          (((votes brief id c₀.governanceCaseId w₀ inputs).exec (votingSystem brief)
            acts).state.stores.attestations.listByCase c₀.governanceCaseId) := by
  intro h
  have hseparated := h splitWorld splitCase splitWorld_stored rfl ballots (eachInTurn [0, 1, 2])
  exact absurd hseparated (by decide +kernel)

end Orchestrator
