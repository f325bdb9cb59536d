import Orchestrator.Governance.Records

/-!
# Quorum and separation of duties

* `evaluateGovernanceQuorum`: what a set of attestations amounts to under a requirement;
* `assertSeparationOfDuties`: the `FORBID_SAME_PRINCIPAL` rules, on one principal for each role.
-/

namespace Orchestrator

open Collections

/-! ## Quorum -/

/-- `QUORUM_KINDS`. -/
inductive QuorumKind where
  | anyOne
  | kOfN
  | allOf
  | roleSet
  deriving DecidableEq, Repr

/-- The kind's name in the source. -/
def QuorumKind.text : QuorumKind → String
  | .anyOne => "ANY_ONE"
  | .kOfN => "K_OF_N"
  | .allOf => "ALL_OF"
  | .roleSet => "ROLE_SET"

/-- A `GovernanceQuorumRequirement`. -/
structure GovernanceQuorumRequirement where
  kind : QuorumKind
  k : Option ℕ
  n : Option ℕ
  roles : List String
  rejectBlocksImmediately : Bool
  rejectThreshold : Option ℕ
  deriving DecidableEq, Repr

inductive QuorumOutcome where
  | pending
  | satisfied
  | blocked
  deriving DecidableEq, Repr

inductive AttestationDecision where
  | approve
  | reject
  deriving DecidableEq, Repr

/-- The decision's name in the source. -/
def AttestationDecision.text : AttestationDecision → String
  | .approve => "APPROVE"
  | .reject => "REJECT"

/-- A `QuorumSeatContribution`. -/
structure QuorumSeatContribution where
  principalId : String
  authorityRole : String
  decision : AttestationDecision
  attestationId : String
  deriving DecidableEq, Repr

/-- What `evaluateGovernanceQuorum` returns. -/
structure QuorumEvaluation where
  outcome : QuorumOutcome
  distinctApprovingPrincipals : List String
  reasons : List String
  deriving DecidableEq, Repr

namespace GovernanceQuorum

/-- The first approval of each principal, and what was noted about the others. -/
structure Approvals where
  byPrincipal : JsMap String QuorumSeatContribution
  reasons : List String

/-- The same principal cannot count twice. -/
def Approvals.count (acc : Approvals) (a : QuorumSeatContribution) : Approvals :=
  match acc.byPrincipal.get a.principalId with
  | none => { acc with byPrincipal := acc.byPrincipal.set a.principalId a }
  | some existing =>
    if existing.authorityRole ≠ a.authorityRole then
      { acc with reasons := acc.reasons ++
          [s!"Principal {a.principalId} already counted; duplicate seat ignored"] }
    else acc

/-- The seats of a role set so far, and who sits on them. -/
structure Seats where
  filled : List String
  usedPrincipals : List String

/-- One required role: the first approval under it by a principal without a seat. -/
def Seats.fill (approvals : List QuorumSeatContribution) (seats : Seats) (role : String) : Seats :=
  match approvals.find? fun a =>
      a.authorityRole = role && !seats.usedPrincipals.contains a.principalId with
  | some seat => ⟨seats.filled ++ [role], seats.usedPrincipals ++ [seat.principalId]⟩
  | none => seats

/-- The evaluation of a number of distinct principals against the number needed. -/
def countTo (principals reasons : List String) (needed : ℕ) (missing : String) :
    QuorumEvaluation :=
  if needed ≤ principals.length then ⟨.satisfied, principals, reasons⟩
  else ⟨.pending, principals, reasons ++ [missing]⟩

/-- The rejections block, or `none` where the approvals decide. -/
def rejectsBlock (req : GovernanceQuorumRequirement) (rejects : List QuorumSeatContribution) :
    Option QuorumEvaluation :=
  match rejects with
  | [] => none
  | r :: _ =>
    if !req.rejectBlocksImmediately then none
    else
      match req.kind with
      | .kOfN =>
        match req.rejectThreshold with
        | some threshold =>
          if threshold ≤ rejects.length then
            some ⟨.blocked, [], [s!"Reject threshold {threshold} reached"]⟩
          else none
        | none => none
      | _ =>
        some ⟨.blocked, [],
          [s!"Valid REJECT from {r.principalId} blocks quorum (rejectBlocksImmediately)"]⟩

/-- The evaluation of a role set. -/
def evaluateRoleSet (req : GovernanceQuorumRequirement) (approvals : List QuorumSeatContribution)
    (reasons : List String) : QuorumEvaluation :=
  let needed := req.roles.eraseDups
  if needed = [] then ⟨.blocked, [], ["ROLE_SET requires roles"]⟩
  else
    let seats := needed.foldl (Seats.fill approvals) ⟨[], []⟩
    if seats.filled.length = needed.length then ⟨.satisfied, seats.usedPrincipals, reasons⟩
    else
      let missing := ",".intercalate (needed.filter fun r => !seats.filled.contains r)
      ⟨.pending, seats.usedPrincipals, reasons ++ [s!"Missing role seats: {missing}"]⟩

/-- The evaluation of the approvals. -/
def evaluateApprovals (req : GovernanceQuorumRequirement)
    (approvals : List QuorumSeatContribution) : QuorumEvaluation :=
  let counted := approvals.foldl Approvals.count ⟨.empty, []⟩
  let principals := counted.byPrincipal.values.map (·.principalId)
  match req.kind with
  | .anyOne => countTo principals counted.reasons 1 "Need any one distinct approving principal"
  | .kOfN =>
    let k := req.k.getD 1
    let have_ := principals.length
    countTo principals counted.reasons k
      s!"Need {k} distinct approving principals (have {have_})"
  | .allOf =>
    let n := req.n.getD req.roles.length
    let have_ := principals.length
    if n = 0 then ⟨.blocked, [], ["ALL_OF requires n > 0 or roles"]⟩
    else countTo principals counted.reasons n
      s!"Need all {n} distinct approving principals (have {have_})"
  | .roleSet => evaluateRoleSet req approvals counted.reasons

end GovernanceQuorum

open GovernanceQuorum in
/-- `evaluateGovernanceQuorum`. -/
def evaluateGovernanceQuorum (req : GovernanceQuorumRequirement)
    (contributions : List QuorumSeatContribution) : QuorumEvaluation :=
  match rejectsBlock req (contributions.filter fun c => c.decision = .reject) with
  | some blocked => blocked
  | none => evaluateApprovals req (contributions.filter fun c => c.decision = .approve)

/-! ## Separation of duties -/

/-- A `SeparationOfDutyRule`; its kind is always `FORBID_SAME_PRINCIPAL`. -/
structure SeparationOfDutyRule where
  ruleId : String
  roleA : String
  roleB : String
  notes : String
  deriving DecidableEq, Repr

/-- The rule is broken by the one principal that holds both of its roles. -/
def SeparationOfDutyRule.violator (rule : SeparationOfDutyRule)
    (roleOccupancy : JsMap String String) : Option String :=
  match roleOccupancy.get rule.roleA, roleOccupancy.get rule.roleB with
  | some a, some b => if a = b && a ≠ "" then some a else none
  | _, _ => none

/-- `assertSeparationOfDuties`: the map has one principal for each role. -/
def assertSeparationOfDuties (rules : List SeparationOfDutyRule)
    (roleOccupancy : JsMap String String) : Except GovernanceFailure Unit :=
  match rules.findSome? fun rule => (rule.violator roleOccupancy).map fun a => (rule, a) with
  | some (rule, a) =>
    .error (.governance .separationOfDutiesViolation
      s!"Principal {a} cannot occupy both {rule.roleA} and {rule.roleB}")
  | none => .ok ()

/-- The assertion passes exactly when one principal is at both ends of no rule. -/
theorem assertSeparationOfDuties_ok {rules : List SeparationOfDutyRule}
    {roleOccupancy : JsMap String String} :
    assertSeparationOfDuties rules roleOccupancy = .ok () ↔
      ∀ rule ∈ rules, rule.violator roleOccupancy = none := by
  unfold assertSeparationOfDuties
  have hnone : (rules.findSome? fun rule => (rule.violator roleOccupancy).map fun a => (rule, a)) =
      none ↔ ∀ rule ∈ rules, rule.violator roleOccupancy = none := by
    simp [List.findSome?_eq_none_iff]
  rw [← hnone]
  cases rules.findSome? fun rule => (rule.violator roleOccupancy).map fun a => (rule, a) <;> simp

theorem SeparationOfDutyRule.violator_eq_some {rule : SeparationOfDutyRule}
    {roleOccupancy : JsMap String String} {a : String} :
    rule.violator roleOccupancy = some a ↔
      roleOccupancy.get rule.roleA = some a ∧ roleOccupancy.get rule.roleB = some a ∧ a ≠ "" := by
  unfold violator
  cases hA : roleOccupancy.get rule.roleA with
  | none => simp
  | some p =>
    cases hB : roleOccupancy.get rule.roleB with
    | none => simp
    | some p' =>
      by_cases hp : p = p' ∧ p ≠ ""
      · obtain ⟨rfl, hne⟩ := hp
        simp only [decide_true, hne, ne_eq, not_false_eq_true, Bool.and_self, if_true,
          Option.some.injEq]
        exact ⟨fun h => ⟨h, h, h ▸ hne⟩, fun h => h.1⟩
      · have hcond : (decide (p = p') && decide (p ≠ "")) = false := by
          simpa [not_and] using hp
        simp only [hcond, Bool.false_eq_true, if_false, reduceCtorEq, Option.some.injEq, false_iff,
          not_and]
        rintro rfl rfl hne
        exact hp ⟨rfl, hne⟩

end Orchestrator
