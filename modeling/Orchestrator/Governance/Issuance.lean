import Orchestrator.Governance.Delegation

/-!
# Mandates and holds

* `createMandate`, `createHold`: who may create them, and the records they become;
* `assertCreatable`, the checks before a mandate, and `assertHoldOperator`, the one before a hold;
* `createMandate_ok`, `createHold_ok`: what a call that succeeds writes.
-/

namespace Orchestrator

open Collections

/-! ## What a call finds around it -/

/-- A minted `ConstitutionalActivationCapability`. -/
structure ActivationCapability where
  institutionId : String
  authorizedProtectedMutations : List String
  deriving DecidableEq, Repr

/-- What one call reads beside the stores: the clock, the institution's constitutional control, the
capability it was given, and the two checkers, where they are configured. -/
structure GovernanceSurroundings where
  now : ℕ
  constitutionalControlEnabled : String → Bool
  activationCapability : Option ActivationCapability
  isGovernanceAdmin : Option (String → String → List String → Bool)
  isGovernanceHoldOperator : Option (String → List String → Bool)

/-- `hasValidActivationCapability`. -/
def hasValidActivationCapability (S : GovernanceSurroundings) (institutionId : String) : Bool :=
  S.activationCapability.any fun c => c.institutionId = institutionId

/-- `assertConstitutionalMutationAllowed`. -/
def assertConstitutionalMutationAllowed (S : GovernanceSurroundings)
    (institutionId mutation : String) : Except GovernanceFailure Unit :=
  let denied (message : String) : Except GovernanceFailure Unit :=
    .error (.governance .constitutionalMutationBypassDenied message)
  if !S.constitutionalControlEnabled institutionId then .ok ()
  else
    match S.activationCapability with
    | none => denied <| "Protected governance mutation on " ++ institutionId ++
        " requires constitutional activation capability"
    | some capability =>
      if capability.institutionId ≠ institutionId then
        denied "Activation capability institution mismatch"
      else if !capability.authorizedProtectedMutations.contains mutation then
        denied s!"Activation capability does not authorize protected mutation {mutation}"
      else .ok ()

/-- `requireGovernanceAdmin`. -/
def requireGovernanceAdmin (S : GovernanceSurroundings) (principalId institutionId : String)
    (projectIds : List String) : Except GovernanceFailure Unit :=
  match S.isGovernanceAdmin with
  | none =>
    .error (.governance .governanceAdminScopeInsufficient
      "Governance admin checker not configured")
  | some check =>
    if check principalId institutionId projectIds then .ok ()
    else
      .error (.governance .governanceAdminScopeInsufficient
        s!"Principal {principalId} is not GOVERNANCE_ADMIN for institution {institutionId}")

/-- `requireHoldOperator`. -/
def requireHoldOperator (S : GovernanceSurroundings) (principalId : String)
    (projectIds : List String) : Except GovernanceFailure Unit :=
  match S.isGovernanceHoldOperator with
  | none =>
    .error (.governance .governanceHoldOperatorScopeInsufficient
      "Hold operator checker not configured")
  | some check =>
    if check principalId projectIds then .ok ()
    else
      .error (.governance .governanceHoldOperatorScopeInsufficient
        s!"Principal {principalId} is not GOVERNANCE_HOLD_OPERATOR")

/-! ## Mandates -/

/-- What `createMandate` is given. -/
structure MandateInput where
  institutionId : String
  createdBy : String
  subjectClasses : List String
  requiredAuthorities : List String
  projectScope : List String
  environmentScope : List String
  quorumRequirement : Option GovernanceQuorumRequirement
  separationOfDutyRules : Option (List SeparationOfDutyRule)
  delegationPolicy : Option GovernanceDelegationPolicy
  maximumAuthorityDurationMs : Option ℕ
  maximumDelegationDepth : Option ℕ
  riskScope : Option (List String)
  resourceScope : Option (List (String × ℚ))
  effectiveFrom : Option ℕ
  effectiveUntil : Option ℕ
  mandateVersion : Option ℕ
  deriving DecidableEq, Repr

/-- `mintMandateId`. -/
def mintMandateId (X : GovernanceExternal) (institutionId : String) (createdAt : ℕ) : String :=
  X.mint "gmd_" (.object [
    ("institutionId", .string institutionId),
    ("createdAt", .number createdAt)])

/-- `withMandateHash`. -/
def withMandateHash (X : GovernanceExternal) (m : GovernanceMandate) : GovernanceMandate :=
  { m with mandateHash := computeMandateHash X m }

/-- The mandate that a request becomes. -/
def newMandate (X : GovernanceExternal) (now : ℕ) (input : MandateInput) : GovernanceMandate :=
  withMandateHash X
    { mandateId := mintMandateId X input.institutionId now
      mandateVersion := input.mandateVersion.getD 1
      institutionId := input.institutionId
      subjectClasses := input.subjectClasses
      requiredAuthorities := input.requiredAuthorities
      projectScope := input.projectScope
      environmentScope := input.environmentScope
      quorumRequirement := input.quorumRequirement
      separationOfDutyRules := input.separationOfDutyRules.getD []
      delegationPolicy := input.delegationPolicy.getD ⟨true, 1, false⟩
      maximumAuthorityDurationMs := input.maximumAuthorityDurationMs
      maximumDelegationDepth := input.maximumDelegationDepth
      riskScope := input.riskScope.getD []
      resourceScope := input.resourceScope.getD []
      effectiveFrom := input.effectiveFrom.getD now
      effectiveUntil := input.effectiveUntil
      status := .draft
      mandateHash := ""
      createdBy := input.createdBy
      createdAt := now
      recordRevision := 1 }

/-- The fields that `GovernanceQuorumRequirementSchema` does not accept. -/
def quorumIssues (req : GovernanceQuorumRequirement) : List String :=
  positiveOption "quorumRequirement.k" req.k ++ positiveOption "quorumRequirement.n" req.n ++
  textItems "quorumRequirement.roles" req.roles ++
  positiveOption "quorumRequirement.rejectThreshold" req.rejectThreshold

/-- The fields that `SeparationOfDutyRuleSchema` does not accept. -/
def ruleIssues (rule : SeparationOfDutyRule) : List String :=
  minOne "ruleId" rule.ruleId ++ minOne "roleA" rule.roleA ++ minOne "roleB" rule.roleB ++
  (if 2000 < jsLength rule.notes then ["notes"] else [])

/-- The fields that `GovernanceMandateSchema` does not accept. -/
def mandateIssues (m : GovernanceMandate) : List String :=
  positive "mandateVersion" m.mandateVersion ++
  minOne "institutionId" m.institutionId ++
  someTextItems "subjectClasses" m.subjectClasses ++
  someTextItems "requiredAuthorities" m.requiredAuthorities ++
  someTextItems "projectScope" m.projectScope ++
  someTextItems "environmentScope" m.environmentScope ++
  (m.quorumRequirement.map quorumIssues).getD [] ++
  m.separationOfDutyRules.flatMap ruleIssues ++
  positiveOption "maximumAuthorityDurationMs" m.maximumAuthorityDurationMs ++
  textItems "riskScope" m.riskScope ++
  minOne "createdBy" m.createdBy

/-- `assertMandateNotSelfEscalation`; what it reads of the creator's grants decides nothing. -/
def assertMandateNotSelfEscalation (input : MandateInput) : Except GovernanceFailure Unit :=
  if input.requiredAuthorities.contains input.createdBy then
    .error (.governance .governanceSelfEscalation
      "Mandate requiredAuthorities must not list the creating principal")
  else .ok ()

/-- The checks before a mandate is made. -/
def assertCreatable (S : GovernanceSurroundings) (input : MandateInput) :
    Except GovernanceFailure Unit := do
  assertConstitutionalMutationAllowed S input.institutionId "createMandate"
  if !hasValidActivationCapability S input.institutionId then
    requireGovernanceAdmin S input.createdBy input.institutionId input.projectScope
  assertMandateNotSelfEscalation input

/-- The mandate of a request that is accepted. -/
def acceptMandate (X : GovernanceExternal) (S : GovernanceSurroundings) (input : MandateInput) :
    Except GovernanceFailure GovernanceMandate := do
  assertCreatable S input
  parseRecord mandateIssues (newMandate X S.now input)

/-! ## Holds -/

/-- What `createHold` is given. -/
structure HoldInput where
  createdBy : String
  institutionId : String
  projectScope : List String
  environmentScope : Option (List String)
  subjectClasses : Option (List String)
  authorityRoles : Option (List String)
  reason : String
  effect : Option HoldEffect
  effectiveFrom : Option ℕ
  effectiveUntil : Option ℕ
  deriving DecidableEq, Repr

/-- `mintHoldId`. -/
def mintHoldId (X : GovernanceExternal) (institutionId : String) (createdAt : ℕ) : String :=
  X.mint "ghold_" (.object [
    ("institutionId", .string institutionId),
    ("createdAt", .number createdAt)])

/-- The hold that a request becomes. -/
def newHold (X : GovernanceExternal) (now : ℕ) (input : HoldInput) : GovernanceHold where
  holdId := mintHoldId X input.institutionId now
  institutionId := input.institutionId
  projectScope := input.projectScope
  environmentScope := input.environmentScope.getD []
  subjectClasses := input.subjectClasses.getD []
  authorityRoles := input.authorityRoles.getD []
  reason := input.reason
  effect := input.effect.getD .block
  effectiveFrom := input.effectiveFrom.getD now
  effectiveUntil := input.effectiveUntil
  createdBy := input.createdBy
  status := .active
  createdAt := now
  recordRevision := 1

/-- The fields that `GovernanceHoldSchema` does not accept. -/
def holdIssues (h : GovernanceHold) : List String :=
  minOne "institutionId" h.institutionId ++
  someTextItems "projectScope" h.projectScope ++
  textItems "environmentScope" h.environmentScope ++
  textItems "subjectClasses" h.subjectClasses ++
  textItems "authorityRoles" h.authorityRoles ++
  minOne "reason" h.reason ++ maxText "reason" (some h.reason) ++
  minOne "createdBy" h.createdBy

/-- The hold of a request that is accepted. -/
def acceptHold (X : GovernanceExternal) (S : GovernanceSurroundings) (input : HoldInput) :
    Except GovernanceFailure GovernanceHold := do
  requireHoldOperator S input.createdBy input.projectScope
  parseRecord holdIssues (newHold X S.now input)

/-! ## Calls -/

namespace GovernanceWorld

variable (X : GovernanceExternal) (w : GovernanceWorld) (S : GovernanceSurroundings)

/-- `createMandate`: one that throws writes nothing. -/
def createMandate (input : MandateInput) :
    Except GovernanceFailure GovernanceMandate × GovernanceWorld :=
  match acceptMandate X S input with
  | .error e => (.error e, w)
  | .ok m => (.ok m, { w with mandates := w.mandates.save m })

/-- The world with a hold saved. -/
def saveHold (h : GovernanceHold) : GovernanceWorld :=
  w.setAuthority { w.authority with holds := w.authority.holds.save h }

/-- The world with a delegation saved. -/
def saveDelegation (d : AuthorityDelegation) : GovernanceWorld :=
  w.setAuthority { w.authority with delegations := w.authority.delegations.save d }

/-- `createHold`: one that throws writes nothing. -/
def createHold (input : HoldInput) : Except GovernanceFailure GovernanceHold × GovernanceWorld :=
  match acceptHold X S input with
  | .error e => (.error e, w)
  | .ok h => (.ok h, w.saveHold h)

end GovernanceWorld

variable {X : GovernanceExternal} {S : GovernanceSurroundings}

theorem acceptMandate_ok {input : MandateInput} {m : GovernanceMandate}
    (h : acceptMandate X S input = .ok m) : m = newMandate X S.now input := by
  unfold acceptMandate at h
  simp only [bind, Except.bind] at h
  split at h
  · cases h
  · exact (parseRecord_ok h).1

theorem acceptHold_ok {input : HoldInput} {hold : GovernanceHold}
    (h : acceptHold X S input = .ok hold) : hold = newHold X S.now input := by
  unfold acceptHold at h
  simp only [bind, Except.bind] at h
  split at h
  · cases h
  · exact (parseRecord_ok h).1

end Orchestrator
