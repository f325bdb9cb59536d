import Orchestrator.Collections.Latest
import Orchestrator.Governance.World
import Orchestrator.Numbers.Double

/-!
# Which mandates apply

`resolveMandateApplicability`: the active mandates for a role, a project, an environment and a
subject at an instant, with the risk and the material amounts where they are given.

* `matchesBaseDimensions`, `resolveMandateApplicability`: what the code computes;
* `Applies`: a mandate applies, and the context that it asks for is given;
* `Completes`: the given values, with values for the missing context;
* `resolution_fails_closed_iff`: when no missing value is taken for one that does not matter.
-/

namespace Orchestrator

open Collections Numbers

/-! ## Resolution -/

/-- What `resolveMandateApplicability` is asked. `Date.parse` reads no instant from some texts. -/
structure MandateApplicabilityInput where
  requiredRole : String
  projectId : String
  environment : String
  subjectClass : String
  atIso : Option ℕ
  riskLevel : Option String
  materialityContext : Option (JsMap String JsNumber)

inductive MandateResolutionResult where
  | resolvedNone
  | resolvedApplicable (mandates : List GovernanceMandate)
  | contextInsufficient (reason : String) (mandateIds : List String)
  | resolutionFailed (reason : String)

def mandateRequiresMaterialityContext (mandate : GovernanceMandate) : Bool :=
  0 < mandate.resourceScope.length

def mandateRequiresRiskContext (mandate : GovernanceMandate) : Bool := 0 < mandate.riskScope.length

/-- `value >= threshold`. -/
def atLeast (threshold : ℚ) : JsNumber → Bool
  | .nan => false
  | .infinity negative => !negative
  | .finite negative x => threshold ≤ if negative then -x.value else x.value

/-- `materialityMatchesMandate`. A property that the context inherits is no number, so it reaches
no threshold, and is passed over like one that is missing. -/
def materialityMatchesMandate (mandate : GovernanceMandate)
    (materialityContext : JsMap String JsNumber) : Bool :=
  mandate.resourceScope.any (fun (key, threshold) =>
    match materialityContext.get key with
    | none => false
    | some value => atLeast threshold value) ||
  mandate.resourceScope.length = 0

/-- The scopes, the status and the window of a mandate. -/
def matchesFixedDimensions (mandate : GovernanceMandate) (input : MandateApplicabilityInput) :
    Bool :=
  mandate.projectScope.contains input.projectId &&
    mandate.environmentScope.contains input.environment &&
    mandate.subjectClasses.contains input.subjectClass &&
    mandate.requiredAuthorities.contains input.requiredRole &&
    mandate.status = .active &&
    match input.atIso with
    | none => false
    | some t => !decide (t < mandate.effectiveFrom) &&
      match mandate.effectiveUntil with
      | none => true
      | some until_ => !decide (until_ < t)

/-- The risk is not given, or the mandate is for it. -/
def matchesRisk (mandate : GovernanceMandate) (input : MandateApplicabilityInput) : Bool :=
  !(mandateRequiresRiskContext mandate &&
    match input.riskLevel with
    | none => false
    | some riskLevel => !mandate.riskScope.contains riskLevel)

/-- The material amounts are not given, or they reach the mandate. -/
def matchesMateriality (mandate : GovernanceMandate) (input : MandateApplicabilityInput) : Bool :=
  !(mandateRequiresMaterialityContext mandate &&
    match input.materialityContext with
    | none => false
    | some context => !materialityMatchesMandate mandate context)

/-- `matchesBaseDimensions`. -/
def matchesBaseDimensions (mandate : GovernanceMandate) (input : MandateApplicabilityInput) :
    Bool :=
  matchesFixedDimensions mandate input && matchesRisk mandate input &&
    matchesMateriality mandate input

/-- The mandate asks for the risk or for material amounts, which are not given. -/
def lacksContext (mandate : GovernanceMandate) (input : MandateApplicabilityInput) : Bool :=
  (mandateRequiresRiskContext mandate && input.riskLevel.isNone) ||
    (mandateRequiresMaterialityContext mandate && input.materialityContext.isNone)

/-- `resolveMandateApplicability`. -/
def resolveMandateApplicability (activeMandates : List GovernanceMandate)
    (input : MandateApplicabilityInput) : MandateResolutionResult :=
  let contextInsufficient := (activeMandates.filter fun mandate =>
    matchesBaseDimensions mandate input && lacksContext mandate input).map (·.mandateId)
  if 0 < contextInsufficient.length then
    .contextInsufficient
      "Active mandate matching requires risk or materiality context that was not supplied"
      contextInsufficient.eraseDups
  else
    let applicable := activeMandates.filter fun mandate => matchesBaseDimensions mandate input
    if applicable.length = 0 then .resolvedNone else .resolvedApplicable applicable

/-! ## What it is meant to say -/

/-- The mandate matches, and the context that it asks for is given. -/
def Applies (mandate : GovernanceMandate) (input : MandateApplicabilityInput) : Prop :=
  matchesBaseDimensions mandate input = true ∧ lacksContext mandate input = false

/-- A way to supply the missing context: a risk, and an amount for each key of the mandates. What
is given stays as it is. -/
structure Completes (mandates : List GovernanceMandate) (input input' : MandateApplicabilityInput) :
    Prop where
  requiredRole : input'.requiredRole = input.requiredRole
  projectId : input'.projectId = input.projectId
  environment : input'.environment = input.environment
  subjectClass : input'.subjectClass = input.subjectClass
  atIso : input'.atIso = input.atIso
  riskLevel : ∃ risk, input'.riskLevel = some risk ∧ ∀ given, input.riskLevel = some given →
    risk = given
  materialityContext : ∃ context, input'.materialityContext = some context ∧
    (∀ given, input.materialityContext = some given →
      ∀ key value, given.get key = some value → context.get key = some value) ∧
    ∀ mandate ∈ mandates, ∀ entry ∈ mandate.resourceScope, (context.get entry.1).isSome = true

/-- The mandates that could apply once the missing context is supplied are not resolved to none,
and those that apply without it are among the ones returned. -/
def FailsClosed (mandates : List GovernanceMandate) (input : MandateApplicabilityInput) : Prop :=
  (∀ input', Completes mandates input input' → (∃ mandate ∈ mandates, Applies mandate input') →
    resolveMandateApplicability mandates input ≠ .resolvedNone) ∧
  ∀ applicable, resolveMandateApplicability mandates input = .resolvedApplicable applicable →
    ∀ mandate ∈ mandates, Applies mandate input → mandate ∈ applicable

/-- No amount is missing from a given context: every mandate whose other dimensions match finds
there all the keys of its resource scope. -/
def AmountsGiven (mandates : List GovernanceMandate) (input : MandateApplicabilityInput) : Prop :=
  ∀ mandate ∈ mandates, matchesFixedDimensions mandate input = true →
    matchesRisk mandate input = true → ∀ context, input.materialityContext = some context →
      ∀ entry ∈ mandate.resourceScope, (context.get entry.1).isSome = true

/-! ## The resolution -/

section

variable {mandates : List GovernanceMandate} {mandate : GovernanceMandate}
  {input input' : MandateApplicabilityInput}

/-- Nothing is resolved where no mandate matches. -/
theorem resolve_eq_none : resolveMandateApplicability mandates input = .resolvedNone ↔
    ∀ mandate ∈ mandates, matchesBaseDimensions mandate input = false := by
  unfold resolveMandateApplicability
  dsimp only
  constructor
  · intro h
    split at h
    · exact nomatch h
    · split at h
      next hnone =>
        rw [List.length_eq_zero_iff, List.filter_eq_nil_iff] at hnone
        exact fun mandate hmandate => by simpa using hnone mandate hmandate
      · exact nomatch h
  · intro h
    have hlacks : mandates.filter (fun mandate =>
        matchesBaseDimensions mandate input && lacksContext mandate input) = [] := by
      rw [List.filter_eq_nil_iff]
      intro mandate hmandate
      simp [h mandate hmandate]
    have happlicable : mandates.filter (fun mandate => matchesBaseDimensions mandate input) = [] := by
      rw [List.filter_eq_nil_iff]
      intro mandate hmandate
      simp [h mandate hmandate]
    rw [hlacks, happlicable]
    rfl

/-- What is returned as applicable is all that matches. -/
theorem resolve_eq_applicable {applicable : List GovernanceMandate}
    (h : resolveMandateApplicability mandates input = .resolvedApplicable applicable) :
    applicable = mandates.filter fun mandate => matchesBaseDimensions mandate input := by
  unfold resolveMandateApplicability at h
  dsimp only at h
  split at h
  · exact nomatch h
  · split at h
    · exact nomatch h
    · exact (MandateResolutionResult.resolvedApplicable.inj h).symm

/-! ## Completions -/

theorem Completes.fixed (h : Completes mandates input input') :
    matchesFixedDimensions mandate input' = matchesFixedDimensions mandate input := by
  unfold matchesFixedDimensions
  rw [h.requiredRole, h.projectId, h.environment, h.subjectClass, h.atIso]

/-- A risk that matches matches before it is given. -/
theorem Completes.risk (h : Completes mandates input input')
    (hrisk : matchesRisk mandate input' = true) : matchesRisk mandate input = true := by
  obtain ⟨risk, hgiven', hsame⟩ := h.riskLevel
  unfold matchesRisk at hrisk ⊢
  cases hgiven : input.riskLevel with
  | none => simp
  | some given =>
    rw [hgiven', hsame given hgiven] at hrisk
    exact hrisk

/-- Only the amounts under the mandate's own keys count. -/
theorem materialityMatches_congr {context context' : JsMap String JsNumber}
    (h : ∀ entry ∈ mandate.resourceScope, context'.get entry.1 = context.get entry.1) :
    materialityMatchesMandate mandate context' = materialityMatchesMandate mandate context := by
  unfold materialityMatchesMandate
  congr 1
  rw [Bool.eq_iff_iff, List.any_eq_true, List.any_eq_true]
  refine exists_congr fun entry => and_congr_right fun hentry => ?_
  obtain ⟨key, threshold⟩ := entry
  have hkey : context'.get key = context.get key := h _ hentry
  simp only [hkey]

/-- Where no amount is missing, the given ones decide. -/
theorem Completes.materiality (h : Completes mandates input input')
    (hgiven : ∀ context, input.materialityContext = some context →
      ∀ entry ∈ mandate.resourceScope, (context.get entry.1).isSome = true)
    (hmaterial : matchesMateriality mandate input' = true) :
    matchesMateriality mandate input = true := by
  obtain ⟨context', hcontext', hkeeps, _⟩ := h.materialityContext
  unfold matchesMateriality at hmaterial ⊢
  cases hcontext : input.materialityContext with
  | none => simp
  | some context =>
    have hsame : materialityMatchesMandate mandate context' =
        materialityMatchesMandate mandate context := by
      apply materialityMatches_congr
      intro entry hentry
      obtain ⟨value, hvalue⟩ := Option.isSome_iff_exists.mp (hgiven context hcontext entry hentry)
      rw [hkeeps context hcontext entry.1 value hvalue, hvalue]
    simp only [hcontext', hsame] at hmaterial
    exact hmaterial

/-- The context with an amount above all thresholds under each missing key. -/
def fillMissing (context : JsMap String JsNumber) (keys : List String) : JsMap String JsNumber :=
  keys.foldl (fun filled key =>
    if (filled.get key).isSome then filled else filled.set key (.infinity false)) context

theorem get_fillMissing (context : JsMap String JsNumber) (keys : List String) (key : String) :
    (fillMissing context keys).get key =
      (context.get key).or (if key ∈ keys then some (.infinity false) else none) := by
  induction keys using List.reverseRecOn with
  | nil => simp [fillMissing]
  | append_singleton keys last ih =>
    unfold fillMissing at ih ⊢
    rw [List.foldl_append, List.foldl_cons, List.foldl_nil]
    by_cases hkey : last = key
    · subst hkey
      rw [ih]
      cases hget : context.get last with
      | some value => simp [ih, hget]
      | none =>
        by_cases hmem : last ∈ keys
        · simp [ih, hget, hmem]
        · simp [hmem]
    · have hstep : ∀ filled : JsMap String JsNumber,
          (if (filled.get last).isSome = true then filled
            else filled.set last (.infinity false)).get key = filled.get key := by
        intro filled
        split
        · rfl
        · exact JsMap.get_set_ne _ _ hkey
      rw [hstep, ih]
      simp [Ne.symm hkey]

/-- The input in which a mandate's missing risk and all missing amounts are supplied. -/
def completion (mandates : List GovernanceMandate) (mandate : GovernanceMandate)
    (context : JsMap String JsNumber) (input : MandateApplicabilityInput) :
    MandateApplicabilityInput :=
  { input with
    riskLevel := some (input.riskLevel.getD (mandate.riskScope.headD ""))
    materialityContext := some (fillMissing context
      (mandates.flatMap fun other => other.resourceScope.map Prod.fst)) }

theorem completes_completion {context : JsMap String JsNumber}
    (hcontext : input.materialityContext = some context) :
    Completes mandates input (completion mandates mandate context input) where
  requiredRole := rfl
  projectId := rfl
  environment := rfl
  subjectClass := rfl
  atIso := rfl
  riskLevel := ⟨_, rfl, fun given hgiven => by rw [hgiven]; rfl⟩
  materialityContext := by
    refine ⟨_, rfl, ?_, ?_⟩
    · intro given hgiven key value hvalue
      obtain rfl := Option.some.inj (hcontext.symm.trans hgiven)
      rw [get_fillMissing, hvalue, Option.some_or]
    · intro other hother entry hentry
      have hmem : entry.1 ∈ mandates.flatMap fun other => other.resourceScope.map Prod.fst :=
        List.mem_flatMap.mpr ⟨other, hother, List.mem_map_of_mem hentry⟩
      rw [get_fillMissing, if_pos hmem]
      cases context.get entry.1 <;> rfl

/-- A mandate with a missing amount applies once all that is missing is supplied. -/
theorem applies_completion {context : JsMap String JsNumber} (hmandate : mandate ∈ mandates)
    (hfixed : matchesFixedDimensions mandate input = true)
    (hrisk : matchesRisk mandate input = true) {entry : String × ℚ}
    (hentry : entry ∈ mandate.resourceScope) (hmissing : context.get entry.1 = none) :
    Applies mandate (completion mandates mandate context input) := by
  have hfilled : (fillMissing context
      (mandates.flatMap fun other => other.resourceScope.map Prod.fst)).get entry.1 =
        some (.infinity false) := by
    have hmem : entry.1 ∈ mandates.flatMap fun other => other.resourceScope.map Prod.fst :=
      List.mem_flatMap.mpr ⟨mandate, hmandate, List.mem_map_of_mem hentry⟩
    rw [get_fillMissing, hmissing, if_pos hmem, Option.none_or]
  have hmaterial : materialityMatchesMandate mandate (fillMissing context
      (mandates.flatMap fun other => other.resourceScope.map Prod.fst)) = true := by
    unfold materialityMatchesMandate
    rw [Bool.or_eq_true, List.any_eq_true]
    refine Or.inl ⟨entry, hentry, ?_⟩
    simp only [hfilled, atLeast, Bool.not_false]
  have hrisk' : matchesRisk mandate (completion mandates mandate context input) = true := by
    unfold matchesRisk mandateRequiresRiskContext at hrisk ⊢
    unfold completion
    cases hgiven : input.riskLevel with
    | some given =>
      rw [hgiven] at hrisk
      exact hrisk
    | none =>
      cases hscope : mandate.riskScope with
      | nil => simp
      | cons risk rest => simp
  refine ⟨?_, ?_⟩
  · unfold matchesBaseDimensions matchesMateriality
    rw [hrisk']
    have hfixed' : matchesFixedDimensions mandate (completion mandates mandate context input) =
        true := hfixed
    rw [hfixed']
    simp [completion, hmaterial]
  · simp [lacksContext, completion]

end

/-! ## Failing closed -/

/-- Nothing that could apply is resolved to none where some mandate matches, or no amount is
missing from a given context. -/
theorem resolution_fails_closed_iff (mandates : List GovernanceMandate)
    (input : MandateApplicabilityInput) :
    FailsClosed mandates input ↔
      (∃ mandate ∈ mandates, matchesBaseDimensions mandate input = true) ∨
        AmountsGiven mandates input := by
  constructor
  · rintro ⟨hclosed, _⟩
    by_contra hneither
    push Not at hneither
    obtain ⟨hnone, hmissing⟩ := hneither
    unfold AmountsGiven at hmissing
    push Not at hmissing
    obtain ⟨mandate, hmandate, hfixed, hrisk, context, hcontext, entry, hentry, habsent⟩ := hmissing
    have habsent' : context.get entry.1 = none := by
      rw [← Option.not_isSome_iff_eq_none]
      exact habsent
    refine hclosed _ (completes_completion hcontext)
      ⟨mandate, hmandate, applies_completion hmandate hfixed hrisk hentry habsent'⟩ ?_
    rw [resolve_eq_none]
    intro other hother
    simpa using hnone other hother
  · intro h
    refine ⟨?_, ?_⟩
    · rintro input' hcompletes ⟨mandate, hmandate, happlies⟩ hresolved
      have hnone := resolve_eq_none.mp hresolved
      rcases h with ⟨other, hother, hmatches⟩ | hgiven
      · exact absurd hmatches (by rw [hnone other hother]; decide)
      · obtain ⟨hmatches, _⟩ := happlies
        unfold matchesBaseDimensions at hmatches
        simp only [Bool.and_eq_true] at hmatches
        obtain ⟨⟨hfixed', hrisk'⟩, hmaterial'⟩ := hmatches
        have hfixed : matchesFixedDimensions mandate input = true := hcompletes.fixed ▸ hfixed'
        have hrisk := hcompletes.risk hrisk'
        have hmaterial :=
          hcompletes.materiality (hgiven mandate hmandate hfixed hrisk) hmaterial'
        have hhere := hnone mandate hmandate
        unfold matchesBaseDimensions at hhere
        rw [hfixed, hrisk, hmaterial] at hhere
        exact nomatch hhere
    · intro applicable hresolved mandate hmandate happlies
      rw [resolve_eq_applicable hresolved]
      exact List.mem_filter.mpr ⟨hmandate, happlies.1⟩

/-! ## A missing amount -/

/-- A mandate for allocations from a million on. -/
def allocationMandate : GovernanceMandate :=
  { mandateId := "gmd_1", mandateVersion := 1, institutionId := "inst_1"
    subjectClasses := ["PORTFOLIO_AUTHORIZATION"]
    requiredAuthorities := ["PORTFOLIO_ALLOCATOR"]
    projectScope := ["p1"], environmentScope := ["staging"]
    quorumRequirement := none, separationOfDutyRules := []
    delegationPolicy := ⟨true, 1, false⟩
    maximumAuthorityDurationMs := none, maximumDelegationDepth := none
    riskScope := [], resourceScope := [("allocation_usd", 1000000)]
    effectiveFrom := 0, effectiveUntil := none, status := .active, mandateHash := "h"
    createdBy := "gov_admin", createdAt := 0, recordRevision := 1 }

/-- Material amounts are given, but not that of the allocation. -/
def noAllocation : MandateApplicabilityInput :=
  { requiredRole := "PORTFOLIO_ALLOCATOR", projectId := "p1", environment := "staging"
    subjectClass := "PORTFOLIO_AUTHORIZATION", atIso := some 1, riskLevel := none
    materialityContext := some .empty }

/-- The mandate is resolved to none, though an allocation of a million would make it apply. -/
theorem missing_amount_resolved_none :
    ¬∀ (mandates : List GovernanceMandate) (input : MandateApplicabilityInput),
      FailsClosed mandates input := by
  intro hclaim
  refine (hclaim [allocationMandate] noAllocation).1
    (completion [allocationMandate] allocationMandate .empty noAllocation)
    (completes_completion rfl) ⟨allocationMandate, List.mem_singleton_self _, ?_⟩ ?_
  · exact applies_completion (List.mem_singleton_self _) (by decide) (by decide)
      (List.mem_singleton_self _) rfl
  · rw [resolve_eq_none]
    decide

end Orchestrator
