import Orchestrator.Domain.PlanHasher

/-!
# The schema of execution plans

A plan is an object that `ExecutionPlanSchema` accepts. Plans that are accepted are plain, so by
`plan_hash_identity` their canonical text says what they are.

* `ZodSchema`, `ZodSchema.accepts`: schemas and what they accept;
* `executionPlanSchema`: the schema of plans;
* `ZodSchema.plain_of_accepts`: what a proper schema accepts is plain;
* `plan_hash_identity`: plans have the same hash where they are the same but for the hash.
-/

namespace Orchestrator

open Collections Numbers
open JsValue (property)

/-! ## Schemas -/

/-- The checks of a `z.number()`. -/
inductive NumberCheck where
  | int
  | nonnegative
  | positive
  deriving DecidableEq

def NumberCheck.holds : NumberCheck → JsNumber → Bool
  | .int, n => n.isInteger
  | .nonnegative, .finite negative x => !negative || x.value = 0
  | .positive, .finite negative x => !negative && x.value ≠ 0
  | .nonnegative, .infinity negative => !negative
  | .positive, .infinity negative => !negative
  | _, .nan => false

/-- A `zod` schema, with the least lengths of its strings and arrays. Objects are strict. -/
inductive ZodSchema where
  | string (min : ℕ)
  | enum (values : List String)
  | boolean
  | number (checks : List NumberCheck)
  | array (min : ℕ) (item : ZodSchema)
  | optional (schema : ZodSchema)
  | object (shape : List (String × ZodSchema))

namespace ZodSchema

mutual

/-- `schema.safeParse(value).success`. -/
def accepts : ZodSchema → JsValue → Bool
  | string min, .string s => min ≤ (Collections.codeUnits s).length
  | enum values, .string s => values.contains s
  | boolean, .bool _ => true
  | number checks, .number n => n ≠ .nan && checks.all fun check => check.holds n
  | array min item, .array vs => min ≤ vs.length && vs.all (accepts item)
  | optional _, .undefined => true
  | optional schema, v => accepts schema v
  | object shape, .object fields =>
    acceptsShape shape fields && fields.all fun f => shape.any fun entry => entry.1 = f.1
  | _, _ => false

/-- Every property that the shape of an object names is accepted. -/
def acceptsShape : List (String × ZodSchema) → List (String × JsValue) → Bool
  | [], _ => true
  | (key, schema) :: shape, fields =>
    accepts schema (property key fields) && acceptsShape shape fields

end

/-- `schema.isOptional()`, of schemas that are not `z.undefined()`. -/
def isOptional : ZodSchema → Bool
  | optional _ => true
  | _ => false

mutual

/-- No number may be negative, and no item of an array may be undefined. -/
def proper : ZodSchema → Bool
  | number checks => checks.contains .nonnegative || checks.contains .positive
  | array _ item => !item.isOptional && proper item
  | optional schema => proper schema
  | object shape => properShape shape
  | _ => true

def properShape : List (String × ZodSchema) → Bool
  | [] => true
  | (_, schema) :: shape => proper schema && properShape shape

end

/-! ## The schema of plans -/

def strings : ZodSchema := array 0 (string 0)

/-- `z.array(z.string().min(1))`. -/
def texts : ZodSchema := array 0 (string 1)

end ZodSchema

open ZodSchema

/-- `ResourceEstimateSchema`. -/
def resourceEstimateSchema : ZodSchema := .object [
  ("cpuUnits", .optional (.number [.nonnegative])),
  ("memoryMb", .optional (.number [.nonnegative])),
  ("durationMs", .optional (.number [.nonnegative])),
  ("tokenEstimate", .optional (.number [.nonnegative])),
  ("costEstimateUsd", .optional (.number [.nonnegative]))]

/-- `StepRiskSchema`. -/
def stepRiskSchema : ZodSchema := .object [
  ("level", .enum ["LOW", "MEDIUM", "HIGH", "CRITICAL"]),
  ("categories", strings),
  ("notes", .optional strings)]

/-- `StepValidationSpecSchema`. -/
def stepValidationSpecSchema : ZodSchema := .object [
  ("checks", texts),
  ("requiredEvidenceRefs", .optional strings)]

/-- `StepRollbackSpecSchema`. -/
def stepRollbackSpecSchema : ZodSchema := .object [
  ("strategy", .enum ["NONE", "COMPENSATING_ACTION", "MANUAL"]),
  ("compensatingStepIds", .optional strings),
  ("instructions", .optional strings)]

/-- `ExecutionStepSchema`. -/
def executionStepSchema : ZodSchema := .object [
  ("stepId", .string 1),
  ("actionType", .string 1),
  ("description", .string 1),
  ("targetIds", strings),
  ("evidenceRefs", strings),
  ("dependsOn", strings),
  ("preconditions", strings),
  ("expectedPostconditions", strings),
  ("resourceEstimate", resourceEstimateSchema),
  ("risk", stepRiskSchema),
  ("validation", stepValidationSpecSchema),
  ("rollback", stepRollbackSpecSchema),
  ("idempotencyKey", .string 1)]

/-- `WorkstreamSchema`. -/
def workstreamSchema : ZodSchema := .object [
  ("workstreamId", .string 1),
  ("name", .string 1),
  ("stepIds", .array 1 (.string 1))]

/-- `ApprovalRequirementSchema`. -/
def approvalRequirementSchema : ZodSchema := .object [
  ("requirementId", .string 1),
  ("kind", .enum ["HUMAN", "POLICY", "BUDGET", "SECURITY"]),
  ("description", .string 1),
  ("requiredRoleIds", .optional strings)]

/-- `FailurePolicySchema`. -/
def failurePolicySchema : ZodSchema := .object [
  ("onStepFailure", .enum ["FAIL_RUN", "BLOCK", "ESCALATE", "ROLLBACK_REQUIRED", "CONTAIN"]),
  ("maxRetries", .number [.int, .nonnegative]),
  ("escalateAfterFailures", .optional (.number [.int, .positive]))]

/-- `ResourceTotalsSchema`. -/
def resourceTotalsSchema : ZodSchema := .object [
  ("cpuUnits", .optional (.number [.nonnegative])),
  ("memoryMb", .optional (.number [.nonnegative])),
  ("durationMs", .optional (.number [.nonnegative])),
  ("tokenEstimate", .optional (.number [.nonnegative])),
  ("costEstimateUsd", .optional (.number [.nonnegative]))]

/-- `AcceptanceCriterionVerificationBindingSchema`. -/
def acceptanceCriterionVerificationBindingSchema : ZodSchema := .object [
  ("criterionId", .string 1),
  ("criterionTextHash", .string 1),
  ("verificationMethod", .enum ["STEP_POSTCONDITION", "REGISTERED_TEST_RESULT",
    "EXECUTION_ARTIFACT", "TASK_RECORD", "PR_PREPARATION_ARTIFACT", "ACTION_OUTCOME"]),
  ("stepIds", .array 1 (.string 1)),
  ("verificationRequirementIds", texts),
  ("postconditionIds", texts),
  ("requiredEvidenceClasses", .array 1
    (.enum ["SYSTEM_OBSERVED", "SYSTEM_RECOMPUTED", "VERIFIED_EXECUTION_RECORD"])),
  ("requireAll", .boolean),
  ("testProfileId", .optional (.string 1)),
  ("artifactTypes", .optional texts)]

/-- `ExecutionPlanSchema`. -/
def executionPlanSchema : ZodSchema := .object [
  ("planId", .string 1),
  ("planVersion", .number [.int, .positive]),
  ("objectiveId", .string 1),
  ("objectiveVersion", .number [.int, .positive]),
  ("repositoryCommitSha", .string 1),
  ("repositoryFingerprint", .string 1),
  ("policyBundleId", .string 1),
  ("policyBundleHash", .string 1),
  ("schemaVersion", .string 1),
  ("assumptions", strings),
  ("unknowns", strings),
  ("successDefinition", .array 1 (.string 1)),
  ("resourceTotals", resourceTotalsSchema),
  ("criticalPath", strings),
  ("workstreams", .array 0 workstreamSchema),
  ("steps", .array 0 executionStepSchema),
  ("approvalRequirements", .array 0 approvalRequirementSchema),
  ("failurePolicy", failurePolicySchema),
  ("acceptanceCriterionVerificationBindings",
    .array 0 acceptanceCriterionVerificationBindingSchema),
  ("planHash", .string 1)]

/-- A plan that the schema accepts, as its properties. -/
structure AcceptedPlan where
  fields : List (String × JsValue)
  accepted : executionPlanSchema.accepts (.object fields) = true

theorem executionPlanSchema_proper : executionPlanSchema.proper = true := by decide

/-! ## What is accepted is plain -/

theorem NumberCheck.not_negative {check : NumberCheck} {n : JsNumber} (h : check.holds n = true)
    (hcheck : check = .nonnegative ∨ check = .positive) : n ≠ .infinity true := by
  rintro rfl
  rcases hcheck with rfl | rfl <;> cases h

/-- Only an optional value may be undefined. -/
theorem isOptional_of_accepts {schema : ZodSchema} (h : schema.accepts .undefined = true) :
    schema.isOptional = true := by
  cases schema with
  | optional schema => rfl
  | _ => simp [accepts] at h

mutual

/-- What a proper schema accepts is plain. -/
theorem plain_of_accepts : (schema : ZodSchema) → schema.proper = true → (v : JsValue) →
    schema.accepts v = true → Plain v
  | .string min, _, v, h => by
    cases v with
    | string s => exact Plain.string s
    | _ => simp [accepts] at h
  | .enum values, _, v, h => by
    cases v with
    | string s => exact Plain.string s
    | _ => simp [accepts] at h
  | .boolean, _, v, h => by
    cases v with
    | bool b => exact Plain.bool b
    | _ => simp [accepts] at h
  | .number checks, hproper, v, h => by
    cases v with
    | number n =>
      rw [accepts, Bool.and_eq_true, decide_eq_true_eq, List.all_eq_true] at h
      rw [proper, Bool.or_eq_true, List.contains_iff_mem, List.contains_iff_mem] at hproper
      refine Plain.number h.1 ?_
      rcases hproper with hmem | hmem
      · exact NumberCheck.not_negative (h.2 _ hmem) (Or.inl rfl)
      · exact NumberCheck.not_negative (h.2 _ hmem) (Or.inr rfl)
    | _ => simp [accepts] at h
  | .array min item, hproper, v, h => by
    cases v with
    | array vs =>
      rw [accepts, Bool.and_eq_true, List.all_eq_true] at h
      rw [proper, Bool.and_eq_true, Bool.not_eq_true'] at hproper
      refine Plain.array (fun v hv => plain_of_accepts item hproper.2 v (h.2 v hv)) ?_
      rintro v hv rfl
      rw [isOptional_of_accepts (h.2 _ hv)] at hproper
      cases hproper.1
    | _ => simp [accepts] at h
  | .optional schema, hproper, v, h => by
    cases v with
    | undefined => exact Plain.undefined
    | _ => exact plain_of_accepts schema hproper _ h
  | .object shape, hproper, v, h => by
    cases v with
    | object fields =>
      rw [accepts, Bool.and_eq_true, List.all_eq_true] at h
      refine Plain.object fun k => ?_
      by_cases hk : k ∈ fields.map Prod.fst
      · obtain ⟨f, hf, rfl⟩ := List.mem_map.mp hk
        exact plain_of_acceptsShape shape hproper fields h.1 f.1 (h.2 f hf)
      · rw [JsValue.property_eq_undefined hk]
        exact Plain.undefined
    | _ => simp [accepts] at h

theorem plain_of_acceptsShape : (shape : List (String × ZodSchema)) → properShape shape = true →
    (fields : List (String × JsValue)) → acceptsShape shape fields = true → (k : String) →
    (shape.any fun entry => entry.1 = k) = true → Plain (property k fields)
  | [], _, _, _, _, hk => by cases hk
  | (key, schema) :: shape, hproper, fields, h, k, hk => by
    rw [acceptsShape, Bool.and_eq_true] at h
    rw [properShape, Bool.and_eq_true] at hproper
    rw [List.any_cons, Bool.or_eq_true, decide_eq_true_eq] at hk
    rcases hk with rfl | hk
    · exact plain_of_accepts schema hproper.1 _ h.1
    · exact plain_of_acceptsShape shape hproper.2 fields h.2 k hk

end

/-! ## Identity -/

theorem property_withoutHash (k : String) (plan : List (String × JsValue)) :
    property k (withoutHash plan) = if k = "planHash" then .undefined else property k plan := by
  unfold withoutHash property
  induction plan with
  | nil => rw [List.filter_nil, List.lookup_nil, Option.getD_none, ite_self]
  | cons f plan ih =>
    obtain ⟨key, v⟩ := f
    rw [List.filter_cons, List.lookup_cons]
    by_cases hkey : key = "planHash"
    · rw [if_neg (by simp [hkey]), ih]
      by_cases hk : k = "planHash"
      · rw [if_pos hk, if_pos hk]
      · rw [if_neg hk, if_neg hk, beq_false_of_ne (by rwa [hkey])]
    · rw [if_pos (by simp [hkey]), List.lookup_cons]
      by_cases hk : k = key
      · rw [hk, beq_self_eq_true, if_neg hkey]
      · rw [beq_false_of_ne hk]
        exact ih

/-- A plan that is accepted is plain. -/
theorem AcceptedPlan.plain (p : AcceptedPlan) : Plain (.object (withoutHash p.fields)) := by
  have hplain := plain_of_accepts _ executionPlanSchema_proper _ p.accepted
  cases hplain with
  | object h =>
    refine Plain.object fun k => ?_
    rw [property_withoutHash]
    split
    · exact Plain.undefined
    · exact h k

/-- Two accepted plans have the same canonical text exactly where they are the same values but for
their hash and the order of keys; where SHA-256 has no collision, so has their hash. -/
theorem plan_hash_identity (p q : AcceptedPlan) :
    (canonicalizePlan p.fields).isSome = true ∧
      (canonicalizePlan p.fields = canonicalizePlan q.fields ↔
        SameJson (.object (withoutHash p.fields)) (.object (withoutHash q.fields))) ∧
      ∀ sha256 : String → String, Function.Injective sha256 →
        (hash sha256 p.fields = hash sha256 q.fields ↔
          SameJson (.object (withoutHash p.fields)) (.object (withoutHash q.fields))) := by
  have hiff : canonicalizePlan p.fields = canonicalizePlan q.fields ↔
      SameJson (.object (withoutHash p.fields)) (.object (withoutHash q.fields)) := by
    unfold canonicalizePlan
    rw [JsValue.stringify_inj]
    exact canonicalTree_iff p.plain q.plain
  refine ⟨?_, hiff, fun sha256 hsha256 => ?_⟩
  · unfold canonicalizePlan JsValue.stringify
    rw [Option.isSome_map]
    exact congrArg Option.isSome (canonicalTree_object (withoutHash p.fields))
  · unfold hash
    rw [(Option.map_injective hsha256).eq_iff]
    exact hiff

/-- The number one. -/
def oneNumber : JsNumber :=
  .finite false ⟨1, by norm_num, by simpa using roundDouble_natCast (n := 1) (by norm_num)⟩

/-- A plan with no steps for an objective. -/
def smallPlan (objectiveId : String) : List (String × JsValue) := [
  ("planHash", .string objectiveId),
  ("planId", .string "plan"),
  ("planVersion", .number oneNumber),
  ("objectiveId", .string objectiveId),
  ("objectiveVersion", .number oneNumber),
  ("repositoryCommitSha", .string "sha"),
  ("repositoryFingerprint", .string "fp"),
  ("policyBundleId", .string "policy"),
  ("policyBundleHash", .string "hash"),
  ("schemaVersion", .string "1"),
  ("assumptions", .array []),
  ("unknowns", .array []),
  ("successDefinition", .array [.string "done"]),
  ("resourceTotals", .object [("cpuUnits", .number oneNumber)]),
  ("criticalPath", .array []),
  ("workstreams", .array []),
  ("steps", .array []),
  ("approvalRequirements", .array []),
  ("failurePolicy", .object [("maxRetries", .number oneNumber),
    ("onStepFailure", .string "BLOCK")]),
  ("acceptanceCriterionVerificationBindings", .array [])]

/-- Plans for different objectives have different hashes. -/
theorem plan_hash_identity_objectives :
    hash id (smallPlan "a") ≠ hash id (smallPlan "b") := by
  intro h
  have hsame := ((plan_hash_identity ⟨smallPlan "a", by decide⟩
    ⟨smallPlan "b", by decide⟩).2.2 id Function.injective_id).mp h
  cases hsame with
  | object hsame =>
    have hid := hsame "objectiveId"
    rw [property_withoutHash, property_withoutHash, if_neg (by decide)] at hid
    have htree : some (JsonTree.string "a") = some (JsonTree.string "b") := hid.canonicalTree_eq
    exact absurd (JsonTree.string.inj (Option.some.inj htree)) (by decide)

end Orchestrator
