import Orchestrator.Collections.JsObject
import Orchestrator.Collections.Repository
import Orchestrator.Decisions.Policies
import Orchestrator.Domain.Schema

/-!
# The resolution of decision states

A snapshot of the state variables of a context, read from their sources, and the recommendation
that an active policy makes of it.

* `DecisionStateResolutionService.resolve`: the snapshot;
* `computeAuthoritativeSnapshotHash`: its hash;
* `recommend`: the recommendation, which is made once for each identity.

An instant is its text; `dateParse` is the number of milliseconds that it stands for.
-/

namespace Orchestrator.Decisions

open Collections Numbers

/-! ## Names in the source -/

def QuantityUnit.text : QuantityUnit → String
  | percent => "PERCENT"
  | ratio => "RATIO"
  | count => "COUNT"
  | dimensionless => "DIMENSIONLESS"
  | usd => "USD"
  | tokens => "TOKENS"
  | milliseconds => "MILLISECONDS"

def StateSourceClass.text : StateSourceClass → String
  | currentControlPlaneTruth => "CURRENT_CONTROL_PLANE_TRUTH"
  | verifiedProgramOutcome => "VERIFIED_PROGRAM_OUTCOME"
  | verifiedPortfolioOutcome => "VERIFIED_PORTFOLIO_OUTCOME"
  | observationalData => "OBSERVATIONAL_DATA"
  | promotedCausalClaim => "PROMOTED_CAUSAL_CLAIM"
  | phase16ScenarioContext => "PHASE16_SCENARIO_CONTEXT"

inductive MeasurementQuality where
  | validated
  | partly
  | degraded
  | unknown
  deriving DecidableEq, Repr

def MeasurementQuality.text : MeasurementQuality → String
  | validated => "VALIDATED"
  | partly => "PARTIAL"
  | degraded => "DEGRADED"
  | unknown => "UNKNOWN"

/-! ## Errors -/

inductive DecisionPolicyErrorCode where
  | decisionStateScopeMismatch
  | decisionStateUnitMismatch
  | decisionStateStale
  | decisionStateInsufficient
  | decisionActionIneligible
  deriving DecidableEq, Repr

/-- A `DecisionPolicyError`, or the `ZodError` of a snapshot whose fields at these paths do not pass
its schema. -/
inductive DecisionFailure where
  | policy (code : DecisionPolicyErrorCode) (message : String)
  | invalid (paths : List String)
  deriving DecidableEq, Repr

/-- What resolution uses of `node:crypto` and of `Date`. -/
structure DecisionExternal where
  /-- The hex SHA-256 digest of a UTF-8 string. -/
  sha256 : String → String
  /-- `digest.slice(0, 24)`. -/
  slice24 : String → String
  /-- `Date.parse`, of a datetime that its schema accepts. -/
  dateParse : String → ℤ

/-- The digest of the JSON text of a value. -/
def DecisionExternal.hash (X : DecisionExternal) (v : JsValue) : String :=
  X.sha256 (v.stringify.getD "")

/-! ## Observations -/

/-- A `ResolvedStateObservation`. -/
structure ResolvedStateObservation where
  variableId : String
  value : Option DecisionValue
  unit : String
  sourceId : String
  sourceHash : String
  sourceClass : String
  projectId : String
  environment : String
  observedAt : String
  validUntil : Option String
  quality : MeasurementQuality
  missing : Bool
  deriving DecidableEq

/-- A call of `resolve`: the context and the environment, what the sources answer, and the instants
that the clock reads, one reading after the other. -/
structure Resolving where
  context : DecisionContext
  environment : String
  resolverVersion : String := "decision_state_resolver_v1"
  source : DecisionStateVariable → List String → String → Option ResolvedStateObservation
  nowIso : ℕ → String

/-- What a variable is recorded as. -/
structure AppliedObservation where
  value : Option DecisionValue
  sourceId : String
  sourceHash : String
  observedAt : String
  quality : MeasurementQuality
  deriving DecidableEq

/-- The value of an observation that is there. -/
def presentValue (observation : Option ResolvedStateObservation) :
    Option (ResolvedStateObservation × DecisionValue) :=
  observation.bind fun o => if o.missing then none else o.value.map (o, ·)

/-- The value of a variable that is missing, read at an instant. -/
def missingRecord (variable_ : DecisionStateVariable) (value : Option DecisionValue)
    (sourceHash nowIso : String) : AppliedObservation where
  value := value
  sourceId := "missing:" ++ variable_.variableId
  sourceHash := sourceHash
  observedAt := nowIso
  quality := .unknown

/-- `applyMissing`. -/
def applyMissing (variable_ : DecisionStateVariable) (nowIso : String) :
    Except DecisionFailure AppliedObservation :=
  match variable_.missingValuePolicy with
  | .failClosed => .error (.policy .decisionStateInsufficient
      s!"Missing required state variable {variable_.variableId}")
  | .useDefault =>
    match variable_.defaultValue with
    | none => .error (.policy .decisionStateInsufficient
        s!"USE_DEFAULT configured but no defaultValue for {variable_.variableId}")
    | some value => .ok (missingRecord variable_ (some value) "missing_default" nowIso)
  | .noAction => .ok (missingRecord variable_ none "missing_null" nowIso)

/-- A number below or above the allowed range. -/
def rangeError (variable_ : DecisionStateVariable) : DecisionValue → Option DecisionFailure
  | .number n =>
    if variable_.allowedMin.any (isAbove · n) then
      some (.policy .decisionStateInsufficient
        s!"State variable {variable_.variableId} below allowed range")
    else if variable_.allowedMax.any (isBelow · n) then
      some (.policy .decisionStateInsufficient
        s!"State variable {variable_.variableId} above allowed range")
    else none
  | _ => none

/-- `applyObservation`; `nowIso` is the instant that is read where the variable is missing. -/
def applyObservation (X : DecisionExternal) (R : Resolving) (variable_ : DecisionStateVariable)
    (observation : Option ResolvedStateObservation) (nowIso : String) :
    Except DecisionFailure AppliedObservation :=
  let nowMs := X.dateParse (R.nowIso 0)
  match presentValue observation with
  | none => applyMissing variable_ nowIso
  | some (o, value) =>
    if !R.context.projectIds.contains o.projectId then
      .error (.policy .decisionStateScopeMismatch
        s!"State source project {o.projectId} is outside decision context")
    else if o.environment ≠ R.environment then
      .error (.policy .decisionStateScopeMismatch
        s!"State source environment {o.environment} does not match request")
    else if o.unit ≠ variable_.unit.text then
      .error (.policy .decisionStateUnitMismatch <|
        "State source unit " ++ o.unit ++ " does not match variable unit " ++ variable_.unit.text)
    else if (variable_.freshnessRequirementMs : ℤ) < nowMs - X.dateParse o.observedAt then
      .error (.policy .decisionStateStale s!"State variable {variable_.variableId} is stale")
    else if o.validUntil.any fun until_ => X.dateParse until_ < nowMs then
      .error (.policy .decisionStateStale
        s!"State variable {variable_.variableId} validUntil elapsed")
    else if variable_.qualityRequirement = .validated ∧ o.quality ≠ .validated then
      .error (.policy .decisionStateInsufficient <|
        "State variable " ++ variable_.variableId ++ " quality " ++ o.quality.text ++
          " below VALIDATED")
    else
      match rangeError variable_ value with
      | some failure => .error failure
      | none => .ok ⟨some value, o.sourceId, o.sourceHash, o.observedAt, o.quality⟩

/-! ## Snapshots -/

/-- A variable and what it is recorded as. -/
abbrev Reading := DecisionStateVariable × AppliedObservation

/-- A `DecisionStateSnapshot`. -/
structure DecisionStateSnapshot where
  decisionStateSnapshotId : String
  decisionContextId : String
  decisionContextVersion : ℕ
  projectIds : List String
  environment : String
  values : JsMap String (Option DecisionValue)
  units : JsMap String QuantityUnit
  sourceClasses : JsMap String StateSourceClass
  variableDefinitionIds : List String
  sourceIdentities : JsMap String String
  sourceHashes : JsMap String String
  capturedAtByVariable : JsMap String String
  measurementQualityByVariable : JsMap String MeasurementQuality
  resolverVersion : String
  resolverConfigHash : String
  snapshotHash : String

/-- `[...xs].sort()`. -/
def sortedTexts (xs : List String) : JsValue := .array ((xs.insertionSort UpTo).map .string)

/-- A record of the snapshot. -/
def jsRecord {β : Type} (m : JsMap String β) (json : β → JsValue) : JsValue :=
  .object (objectFields (m.mapValues json))

/-- `computeResolverConfigHash`. -/
def computeResolverConfigHash (X : DecisionExternal) (resolverVersion : String)
    (stateVariableIds : List String) : String :=
  X.hash (.object [
    ("resolverVersion", .string resolverVersion),
    ("stateVariableIds", sortedTexts stateVariableIds)])

/-- A value in the text that is hashed. -/
def valueJson : Option DecisionValue → JsValue
  | none => .null
  | some value => value.toValue

/-- What `computeAuthoritativeSnapshotHash` hashes. -/
def snapshotJson (s : DecisionStateSnapshot) : JsValue :=
  .object [
    ("decisionContextId", .string s.decisionContextId),
    ("decisionContextVersion", .number (JsNumber.round false s.decisionContextVersion)),
    ("projectIds", sortedTexts s.projectIds),
    ("environment", .string s.environment),
    ("variableDefinitionIds", sortedTexts s.variableDefinitionIds),
    ("values", jsRecord s.values valueJson),
    ("units", jsRecord s.units (.string ·.text)),
    ("sourceClasses", jsRecord s.sourceClasses (.string ·.text)),
    ("sourceIdentities", jsRecord s.sourceIdentities .string),
    ("sourceHashes", jsRecord s.sourceHashes .string),
    ("observedAtByVariable", jsRecord s.capturedAtByVariable .string),
    ("measurementQualityByVariable", jsRecord s.measurementQualityByVariable (.string ·.text)),
    ("resolverVersion", .string s.resolverVersion),
    ("resolverConfigHash", .string s.resolverConfigHash)]

/-- `computeAuthoritativeSnapshotHash`. -/
def computeAuthoritativeSnapshotHash (X : DecisionExternal) (s : DecisionStateSnapshot) : String :=
  X.hash (snapshotJson s)

/-- The paths at which `DecisionStateSnapshotSchema` rejects a snapshot. -/
def DecisionStateSnapshot.issues (s : DecisionStateSnapshot) : List String :=
  minOne "decisionContextId" s.decisionContextId ++
  positive "decisionContextVersion" s.decisionContextVersion ++
  someTextItems "projectIds" s.projectIds ++ minOne "environment" s.environment ++
  (if s.values.values.contains (some (.number .nan)) then ["values"] else []) ++
  textItems "variableDefinitionIds" s.variableDefinitionIds ++
  textItems "sourceIdentities" s.sourceIdentities.values ++
  textItems "sourceHashes" s.sourceHashes.values ++
  minOne "resolverVersion" s.resolverVersion ++ minOne "resolverConfigHash" s.resolverConfigHash ++
  minOne "snapshotHash" s.snapshotHash

/-- The variables with what their sources answer. -/
def Resolving.observations (R : Resolving) :
    List (DecisionStateVariable × Option ResolvedStateObservation) :=
  R.context.stateVariables.map fun v => (v, R.source v R.context.projectIds R.environment)

/-- The variables that are read, each missing one at the next instant of the clock. -/
def readVariables (X : DecisionExternal) (R : Resolving) :
    ℕ → List (DecisionStateVariable × Option ResolvedStateObservation) →
      Except DecisionFailure (List Reading)
  | _, [] => .ok []
  | clock, (v, observation) :: rest => do
    let applied ← applyObservation X R v observation (R.nowIso clock)
    let clock := if (presentValue observation).isNone then clock + 1 else clock
    let readings ← readVariables X R clock rest
    .ok ((v, applied) :: readings)

/-- The snapshot of what was read, before its schema is checked. -/
def snapshotOf (X : DecisionExternal) (R : Resolving) (readings : List Reading) :
    DecisionStateSnapshot :=
  let record {β : Type} (f : Reading → β) : JsMap String β :=
    table (fun r : Reading => r.1.variableId) f readings
  let ids := R.context.stateVariables.map (·.variableId)
  let s : DecisionStateSnapshot :=
    { decisionStateSnapshotId := ""
      decisionContextId := R.context.decisionContextId
      decisionContextVersion := R.context.decisionContextVersion
      projectIds := R.context.projectIds
      environment := R.environment
      values := record (·.2.value)
      units := record (·.1.unit)
      sourceClasses := record (·.1.sourceClass)
      variableDefinitionIds := ids
      sourceIdentities := record (·.2.sourceId)
      sourceHashes := record (·.2.sourceHash)
      capturedAtByVariable := record (·.2.observedAt)
      measurementQualityByVariable := record (·.2.quality)
      resolverVersion := R.resolverVersion
      resolverConfigHash := computeResolverConfigHash X R.resolverVersion ids
      snapshotHash := "" }
  let snapshotHash := computeAuthoritativeSnapshotHash X s
  { s with
    decisionStateSnapshotId := "dss_" ++ X.slice24 snapshotHash
    snapshotHash := snapshotHash }

/-- `DecisionStateResolutionService.resolve`. -/
def resolve (X : DecisionExternal) (R : Resolving) : Except DecisionFailure DecisionStateSnapshot :=
  if !R.context.environmentScope.contains R.environment then
    .error (.policy .decisionStateScopeMismatch
      s!"Environment {R.environment} is not in decision context scope")
  else do
    -- the first reading of the clock is the instant of the resolution
    let readings ← readVariables X R 1 R.observations
    let s := snapshotOf X R readings
    if s.issues = [] then .ok s else .error (.invalid s.issues)

/-! ## Recommendations -/

/-- An active policy with its activation. -/
structure ActivePolicy where
  decisionPolicyId : String
  decisionPolicyVersion : ℕ
  policyHash : String
  candidate : DecisionPolicyCandidate
  activationRecordId : String
  activationHash : String

/-- A `DecisionRecommendation`, less what it copies from the rule and the action. -/
structure DecisionRecommendation where
  decisionRecommendationId : String
  decisionPolicyId : String
  decisionPolicyVersion : ℕ
  policyHash : String
  activationRecordId : String
  activationHash : String
  stateSnapshotId : String
  stateSnapshotHash : String
  matchedRuleId : Option String
  recommendedActionId : String
  recommendationHash : String
  createdAt : String
  deriving DecidableEq

/-- `computeRecommendationIdentity`. -/
def computeRecommendationIdentity (X : DecisionExternal) (policy : ActivePolicy)
    (stateSnapshotHash : String) : String :=
  X.hash (.object [
    ("policyId", .string policy.decisionPolicyId),
    ("policyVersion", .number (JsNumber.round false policy.decisionPolicyVersion)),
    ("policyHash", .string policy.policyHash),
    ("activationHash", .string policy.activationHash),
    ("stateSnapshotHash", .string stateSnapshotHash)])

/-- The recommendations, by their identity. -/
abbrev Recommendations := Repository DecisionRecommendation.recommendationHash

/-- `recommend`, from the resolution of the state on: the recommendation, and the recommendations
that are stored then. -/
def recommend (X : DecisionExternal) (collation : Collation) (policy : ActivePolicy)
    (R : Resolving) (createdAt : String) (stored : Recommendations) :
    Except DecisionFailure (DecisionRecommendation × Recommendations) := do
  let s ← resolve X R
  let selected := selectActionForState collation policy.candidate R.context fun v =>
    (s.values.get v).join
  if !isEligible R.context selected.actionId then
    .error (.policy .decisionActionIneligible
      s!"Recommended action {selected.actionId} not eligible")
  else
    let identityHash := computeRecommendationIdentity X policy s.snapshotHash
    match stored.getById identityHash with
    | some existing => .ok (existing, stored)
    | none =>
      let recommendation : DecisionRecommendation :=
        { decisionRecommendationId := "drec_" ++ X.slice24 identityHash
          decisionPolicyId := policy.decisionPolicyId
          decisionPolicyVersion := policy.decisionPolicyVersion
          policyHash := policy.policyHash
          activationRecordId := policy.activationRecordId
          activationHash := policy.activationHash
          stateSnapshotId := s.decisionStateSnapshotId
          stateSnapshotHash := s.snapshotHash
          matchedRuleId := selected.matchedRuleId
          recommendedActionId := selected.actionId
          recommendationHash := identityHash
          createdAt := createdAt }
      .ok (recommendation, stored.save recommendation)

end Orchestrator.Decisions
