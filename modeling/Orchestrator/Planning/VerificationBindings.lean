import Orchestrator.Domain.Objective
import Orchestrator.Validation.Fingerprint

/-!
# Verification bindings

`compileAcceptanceCriterionVerificationBindings`: the bindings that a model proposes quote the
acceptance criteria of the objective; each is given the identity of the criterion it quotes, checked
against the steps of the proposal, and the compiled bindings come in the order of the criteria.

* `deriveFromFingerprintContent`: the identities of the criteria, one for each place in the list;
* `WellFormed`: what a binding has to say about the steps;
* `bindings_complete_iff`: an objective can be bound exactly if no two of its criteria are the same
  text up to case and blanks, since a criterion is looked up by that text.
-/

namespace Orchestrator

open Collections ViolationFingerprintService

/-- `VerificationBindingMethodSchema`. -/
inductive VerificationBindingMethod where
  | stepPostcondition
  | registeredTestResult
  | executionArtifact
  | taskRecord
  | prPreparationArtifact
  | actionOutcome
  deriving DecidableEq, Repr

/-- The method's name in the source. -/
def VerificationBindingMethod.text : VerificationBindingMethod → String
  | .stepPostcondition => "STEP_POSTCONDITION"
  | .registeredTestResult => "REGISTERED_TEST_RESULT"
  | .executionArtifact => "EXECUTION_ARTIFACT"
  | .taskRecord => "TASK_RECORD"
  | .prPreparationArtifact => "PR_PREPARATION_ARTIFACT"
  | .actionOutcome => "ACTION_OUTCOME"

/-- `RequiredEvidenceClassSchema`. -/
inductive RequiredEvidenceClass where
  | systemObserved
  | systemRecomputed
  | verifiedExecutionRecord
  deriving DecidableEq, Repr

structure AcceptanceCriterionVerificationBinding where
  criterionId : String
  criterionTextHash : String
  verificationMethod : VerificationBindingMethod
  stepIds : List String
  verificationRequirementIds : List String
  postconditionIds : List String
  requiredEvidenceClasses : List RequiredEvidenceClass
  requireAll : Bool
  testProfileId : Option String
  artifactTypes : Option (List String)
  deriving DecidableEq, Repr

structure ProposedAcceptanceCriterionVerificationBinding where
  criterionText : String
  verificationMethod : VerificationBindingMethod
  stepIds : List String
  postconditionTexts : Option (List String)
  verificationCheckTexts : Option (List String)
  requireAll : Bool
  testProfileId : Option String
  artifactTypes : Option (List String)
  deriving DecidableEq, Repr

structure AcceptanceCriterionIdentity where
  criterionId : String
  criterionText : String
  criterionTextHash : String
  index : ℕ
  deriving DecidableEq, Repr

namespace VerificationBindings

/-- `ProposedStep`, the part that the bindings read. -/
structure ProposedStep where
  stepId : String
  actionType : String
  expectedPostconditions : List String
  validationChecks : List String
  deriving DecidableEq, Repr

/-- A `PlanningError`, by its code: `ACCEPTANCE_CRITERION_BINDING_INVALID` or
`ACCEPTANCE_CRITERION_UNBOUND`. -/
inductive BindingFailure where
  | bindingInvalid (message : String)
  | unbound (message : String)
  deriving DecidableEq, Repr

/-! ## The identity of a criterion -/

section Identity

variable (X : External) (toLowerCase : String → String)

def normalizeCriterionText (text : String) : String :=
  String.ofList ((runLexer isBlank).replaceAll (fun _ => [' ']) (toLowerCase (trim text)).toList)

def criterionTextHash (text : String) : String :=
  X.sha256 (normalizeCriterionText toLowerCase text)

/-- `createHash("sha256").update(text, "utf8").digest("hex").slice(0, length)`. -/
def hexDigest (length : ℕ) (text : String) : String :=
  String.ofList ((X.sha256 text).toList.take length)

/-- The digested text of a criterion's id. -/
def criterionKey (objectiveFingerprint : String) (index : ℕ) (criterionText : String) : String :=
  s!"{objectiveFingerprint}:{index}:{normalizeCriterionText toLowerCase criterionText}"

def acceptanceCriterionId (objectiveFingerprint : String) (index : ℕ) (criterionText : String) :
    String :=
  "crit_" ++ hexDigest X 32 (criterionKey toLowerCase objectiveFingerprint index criterionText)

/-- The identity of the criterion at a place of the list. -/
def criterionIdentity (objectiveFingerprint : String) (index : ℕ) (criterionText : String) :
    AcceptanceCriterionIdentity where
  criterionId := acceptanceCriterionId X toLowerCase objectiveFingerprint index criterionText
  criterionText := criterionText
  criterionTextHash := criterionTextHash X toLowerCase criterionText
  index := index

def deriveFromFingerprintContent (content : ObjectiveFingerprintContent) :
    List AcceptanceCriterionIdentity :=
  content.acceptanceCriteria.mapIdx
    (criterionIdentity X toLowerCase (objectiveFingerprint X content))

end Identity

/-! ## Checking a binding against the steps -/

def methodsCompatibleWithAction : String → List VerificationBindingMethod
  | "CREATE_LOCAL_PATCH" => [.stepPostcondition, .executionArtifact, .actionOutcome]
  | "RUN_TESTS" => [.stepPostcondition, .registeredTestResult, .actionOutcome]
  | "CREATE_TASK" => [.stepPostcondition, .taskRecord, .actionOutcome]
  | "PREPARE_PULL_REQUEST" => [.stepPostcondition, .prPreparationArtifact, .actionOutcome]
  | _ => [.stepPostcondition, .actionOutcome]

section Compile

variable (X : External) (toLowerCase : String → String)

def planPostconditionId (stepId : String) (index : ℕ) (expected : String) : String :=
  s!"pc_{stepId}_{index}_{hexDigest X 12 (normalizeCriterionText toLowerCase expected)}"

def planVerificationRequirementId (stepId : String) (index : ℕ) : String :=
  s!"req_{stepId}_{index}"

/-- The place of a text in a list, up to case and blanks. -/
def indexOfText (texts : List String) (text : String) : Option ℕ :=
  texts.findIdx? fun t =>
    normalizeCriterionText toLowerCase t = normalizeCriterionText toLowerCase text

variable (stepById : JsMap String ProposedStep)
  (raw : ProposedAcceptanceCriterionVerificationBinding)

/-- A text of the binding is looked for in its steps, one after another; by then they exist. -/
def resolveText (textsOf : ProposedStep → List String) (id : String → ℕ → String → String)
    (message : String → String) (text : String) : Except BindingFailure String :=
  match raw.stepIds.findSome? fun stepId => (stepById.get stepId).bind fun step =>
      (indexOfText toLowerCase (textsOf step) text).map fun index =>
        id stepId index ((textsOf step)[index]?.getD "") with
  | some id => .ok id
  | none => .error (.bindingInvalid (message text))

def resolvePostconditionIds : Except BindingFailure (List String) :=
  (raw.postconditionTexts.getD []).mapM (resolveText toLowerCase stepById raw
    (·.expectedPostconditions) (planPostconditionId X toLowerCase)
    fun text => s!"Verification binding references nonexistent postcondition: {text}")

def resolveRequirementIds : Except BindingFailure (List String) :=
  (raw.verificationCheckTexts.getD []).mapM (resolveText toLowerCase stepById raw
    (·.validationChecks) (fun stepId index _ => planVerificationRequirementId stepId index)
    fun text => s!"Verification binding references nonexistent verification check: {text}")

/-- The first loop over the steps of a binding. -/
def checkStepExists (stepId : String) : Except BindingFailure Unit :=
  if stepById.has stepId then .ok ()
  else .error (.bindingInvalid s!"Verification binding references nonexistent step {stepId}")

/-- The second loop over the steps of a binding, which all exist. -/
def checkMethod (stepId : String) : Except BindingFailure Unit :=
  match stepById.get stepId with
  | none => .ok ()
  | some step =>
    if raw.verificationMethod ∈ methodsCompatibleWithAction step.actionType then .ok ()
    else .error (.bindingInvalid (s!"Verification method {raw.verificationMethod.text} " ++
      s!"incompatible with action {step.actionType} on {stepId}"))

/-- What a method asks of the other fields. -/
def checkFields (postconditionIds : List String) : Except BindingFailure Unit :=
  if raw.verificationMethod = .registeredTestResult ∧ raw.testProfileId.getD "" = "" then
    .error (.bindingInvalid "REGISTERED_TEST_RESULT binding requires testProfileId")
  else if (raw.verificationMethod = .executionArtifact ∨
      raw.verificationMethod = .prPreparationArtifact) ∧ raw.artifactTypes.getD [] = [] then
    .error (.bindingInvalid s!"{raw.verificationMethod.text} binding requires artifactTypes")
  else if raw.verificationMethod = .stepPostcondition ∧ postconditionIds = [] then
    .error (.bindingInvalid ("STEP_POSTCONDITION binding requires postconditionTexts that exist " ++
      "on bound steps"))
  else .ok ()

/-- The binding that is pushed for a criterion. -/
def compiledBinding (identity : AcceptanceCriterionIdentity)
    (postconditionIds verificationRequirementIds : List String) :
    AcceptanceCriterionVerificationBinding where
  criterionId := identity.criterionId
  criterionTextHash := identity.criterionTextHash
  verificationMethod := raw.verificationMethod
  stepIds := raw.stepIds
  verificationRequirementIds := verificationRequirementIds
  postconditionIds := postconditionIds
  requiredEvidenceClasses := [.systemObserved, .systemRecomputed, .verifiedExecutionRecord]
  requireAll := raw.requireAll
  testProfileId := raw.testProfileId
  artifactTypes := raw.artifactTypes

/-- The binding of a criterion, after its checks. -/
def bindCriterion (identity : AcceptanceCriterionIdentity) :
    Except BindingFailure AcceptanceCriterionVerificationBinding := do
  raw.stepIds.forM (checkStepExists stepById)
  raw.stepIds.forM (checkMethod stepById raw)
  let postconditionIds ← resolvePostconditionIds X toLowerCase stepById raw
  let verificationRequirementIds ← resolveRequirementIds toLowerCase stepById raw
  checkFields raw postconditionIds
  pure (compiledBinding raw identity postconditionIds verificationRequirementIds)

/-! ## Compiling the bindings -/

/-- What the loop over the proposed bindings has so far. -/
structure Compilation where
  compiled : List AcceptanceCriterionVerificationBinding
  seenCriterionIds : List String

/-- One turn of the loop. -/
def compileBinding (byNormalizedText : JsMap String AcceptanceCriterionIdentity)
    (s : Compilation) : Except BindingFailure Compilation :=
  match byNormalizedText.get (normalizeCriterionText toLowerCase raw.criterionText) with
  | none => .error (.bindingInvalid
      s!"Verification binding references unknown acceptance criterion: {raw.criterionText}")
  | some identity =>
    if identity.criterionId ∈ s.seenCriterionIds then
      .error (.bindingInvalid
        s!"Duplicate verification binding for criterion {identity.criterionId}")
    else do
      let binding ← bindCriterion X toLowerCase stepById raw identity
      pure ⟨s.compiled ++ [binding], s.seenCriterionIds ++ [identity.criterionId]⟩

/-- The loop over the criteria. -/
def checkBound (seenCriterionIds : List String) (identity : AcceptanceCriterionIdentity) :
    Except BindingFailure Unit :=
  if identity.criterionId ∈ seenCriterionIds then .ok ()
  else .error (.unbound
    s!"Acceptance criterion lacks explicit verification binding: {identity.criterionText}")

/-- The index of the criterion with an id. -/
def indexOfId (identities : List AcceptanceCriterionIdentity) (criterionId : String) : ℕ :=
  ((identities.find? (·.criterionId = criterionId)).map (·.index)).getD 0

/-- `new Map(identities.map((id) => [normalizeCriterionText(id.criterionText), id]))`: of criteria
with the same text the last one stays. -/
def byNormalizedText (identities : List AcceptanceCriterionIdentity) :
    JsMap String AcceptanceCriterionIdentity :=
  .ofList (identities.map fun identity =>
    (normalizeCriterionText toLowerCase identity.criterionText, identity))

/-- `new Map(input.steps.map((s) => [s.stepId, s]))`. -/
def stepsById (steps : List ProposedStep) : JsMap String ProposedStep :=
  .ofList (steps.map fun step => (step.stepId, step))

/-- `compileAcceptanceCriterionVerificationBindings`. -/
def compileAcceptanceCriterionVerificationBindings (content : ObjectiveFingerprintContent)
    (proposed : List ProposedAcceptanceCriterionVerificationBinding) (steps : List ProposedStep) :
    Except BindingFailure (List AcceptanceCriterionVerificationBinding) := do
  let identities := deriveFromFingerprintContent X toLowerCase content
  let s ← proposed.foldlM (fun s raw => compileBinding X toLowerCase (stepsById steps) raw
    (byNormalizedText toLowerCase identities) s) ⟨[], []⟩
  identities.forM (checkBound s.seenCriterionIds)
  pure (s.compiled.insertionSort fun a b =>
    indexOfId identities a.criterionId ≤ indexOfId identities b.criterionId)

end Compile

/-! ## Well-formed bindings -/

variable {X : External} {toLowerCase : String → String} {stepById : JsMap String ProposedStep}
  {raw : ProposedAcceptanceCriterionVerificationBinding}

/-- Some step of the binding has the text among its `textsOf`, up to case and blanks. -/
def Mentions (toLowerCase : String → String) (stepById : JsMap String ProposedStep)
    (raw : ProposedAcceptanceCriterionVerificationBinding)
    (textsOf : ProposedStep → List String) (text : String) : Prop :=
  ∃ stepId ∈ raw.stepIds, ∃ step ∈ stepById.get stepId, ∃ t ∈ textsOf step,
    normalizeCriterionText toLowerCase t = normalizeCriterionText toLowerCase text

/-- A binding that is sound apart from the criterion it quotes: its steps exist and its method suits
their actions, they have the postconditions and checks it names, and it has the fields that its
method asks for. -/
structure WellFormed (toLowerCase : String → String) (stepById : JsMap String ProposedStep)
    (raw : ProposedAcceptanceCriterionVerificationBinding) : Prop where
  steps : ∀ stepId ∈ raw.stepIds, ∃ step ∈ stepById.get stepId,
    raw.verificationMethod ∈ methodsCompatibleWithAction step.actionType
  postconditions : ∀ text ∈ raw.postconditionTexts.getD [],
    Mentions toLowerCase stepById raw (·.expectedPostconditions) text
  checks : ∀ text ∈ raw.verificationCheckTexts.getD [],
    Mentions toLowerCase stepById raw (·.validationChecks) text
  testProfile : raw.verificationMethod = .registeredTestResult → raw.testProfileId.getD "" ≠ ""
  artifacts : raw.verificationMethod = .executionArtifact ∨
    raw.verificationMethod = .prPreparationArtifact → raw.artifactTypes.getD [] ≠ []
  postcondition : raw.verificationMethod = .stepPostcondition →
    raw.postconditionTexts.getD [] ≠ []

theorem forM_ok {α : Type} {f : α → Except BindingFailure Unit} {as : List α}
    (h : ∀ a ∈ as, f a = .ok ()) : as.forM f = .ok () := by
  induction as with
  | nil => rfl
  | cons a as ih =>
    rw [List.forM_eq_forM, List.forM_cons, h a List.mem_cons_self]
    exact ih fun b hb => h b (List.mem_cons_of_mem a hb)

theorem forall₂_exists {α β : Type} {R : α → β → Prop} {as : List α}
    (h : ∀ a ∈ as, ∃ b, R a b) : ∃ bs, List.Forall₂ R as bs := by
  induction as with
  | nil => exact ⟨[], .nil⟩
  | cons a as ih =>
    obtain ⟨b, hb⟩ := h a List.mem_cons_self
    obtain ⟨bs, hbs⟩ := ih fun a' ha' => h a' (List.mem_cons_of_mem a ha')
    exact ⟨b :: bs, .cons hb hbs⟩

theorem mapM_total {f : String → Except BindingFailure String} {texts : List String}
    (h : ∀ text ∈ texts, ∃ id, f text = .ok id) :
    ∃ ids, texts.mapM f = .ok ids ∧ (texts ≠ [] → ids ≠ []) := by
  obtain ⟨ids, hids⟩ := forall₂_exists h
  refine ⟨ids, mapM_ok.mpr hids, fun hne hnil => hne ?_⟩
  rw [hnil, List.forall₂_nil_right_iff] at hids
  exact hids

/-- A text that a step of the binding has is found. -/
theorem resolveText_ok {textsOf : ProposedStep → List String} (id : String → ℕ → String → String)
    (message : String → String) {text : String}
    (h : Mentions toLowerCase stepById raw textsOf text) :
    ∃ found, resolveText toLowerCase stepById raw textsOf id message text = .ok found := by
  obtain ⟨stepId, hstepId, step, hstep, t, ht, hsame⟩ := h
  have hindex : (indexOfText toLowerCase (textsOf step) text).isSome = true := by
    rw [indexOfText, List.findIdx?_isSome, List.any_eq_true]
    exact ⟨t, ht, decide_eq_true hsame⟩
  unfold resolveText
  split
  · exact ⟨_, rfl⟩
  · next hnone =>
    have hat := List.findSome?_eq_none_iff.mp hnone stepId hstepId
    rw [Option.mem_def.mp hstep, Option.bind_some, Option.map_eq_none_iff] at hat
    rw [hat] at hindex
    cases hindex

theorem checkFields_ok (h : WellFormed toLowerCase stepById raw) {postconditionIds : List String}
    (hids : raw.postconditionTexts.getD [] ≠ [] → postconditionIds ≠ []) :
    checkFields raw postconditionIds = .ok () := by
  unfold checkFields
  split_ifs with htest hartifacts hpostcondition
  · exact absurd htest.2 (h.testProfile htest.1)
  · exact absurd hartifacts.2 (h.artifacts hartifacts.1)
  · exact absurd hpostcondition.2 (hids (h.postcondition hpostcondition.1))
  · rfl

/-- A well-formed binding passes the checks, and is given the id of its criterion. -/
theorem bindCriterion_ok (h : WellFormed toLowerCase stepById raw)
    (identity : AcceptanceCriterionIdentity) :
    ∃ binding, bindCriterion X toLowerCase stepById raw identity = .ok binding ∧
      binding.criterionId = identity.criterionId := by
  have hexists : raw.stepIds.forM (checkStepExists stepById) = .ok () := by
    refine forM_ok fun stepId hstepId => ?_
    obtain ⟨step, hstep, -⟩ := h.steps stepId hstepId
    rw [checkStepExists, JsMap.has, Option.mem_def.mp hstep]
    rfl
  have hmethod : raw.stepIds.forM (checkMethod stepById raw) = .ok () := by
    refine forM_ok fun stepId hstepId => ?_
    obtain ⟨step, hstep, hsuits⟩ := h.steps stepId hstepId
    simp only [checkMethod, Option.mem_def.mp hstep, if_pos hsuits]
  obtain ⟨postconditionIds, hpostconditions, hne⟩ := mapM_total
    fun text htext => resolveText_ok (planPostconditionId X toLowerCase)
      (fun text => s!"Verification binding references nonexistent postcondition: {text}")
      (h.postconditions text htext)
  obtain ⟨requirementIds, hrequirements, -⟩ := mapM_total
    fun text htext => resolveText_ok
      (fun stepId index _ => planVerificationRequirementId stepId index)
      (fun text => s!"Verification binding references nonexistent verification check: {text}")
      (h.checks text htext)
  have hfields := checkFields_ok h hne
  refine ⟨compiledBinding raw identity postconditionIds requirementIds, ?_, rfl⟩
  rw [bindCriterion, hexists, hmethod, resolvePostconditionIds, hpostconditions,
    resolveRequirementIds, hrequirements]
  show (checkFields raw postconditionIds >>= fun _ => _) = _
  rw [hfields]
  rfl

/-! ## The loop over the bindings -/

variable {byText : JsMap String AcceptanceCriterionIdentity} {s s' : Compilation}
  {raws : List ProposedAcceptanceCriterionVerificationBinding}
  {quoted : List AcceptanceCriterionIdentity} {identity : AcceptanceCriterionIdentity}

/-- The binding quotes the criterion that its text is looked up as. -/
def Quotes (toLowerCase : String → String) (byText : JsMap String AcceptanceCriterionIdentity)
    (raw : ProposedAcceptanceCriterionVerificationBinding)
    (identity : AcceptanceCriterionIdentity) : Prop :=
  byText.get (normalizeCriterionText toLowerCase raw.criterionText) = some identity

/-- A turn with a well-formed binding of a criterion that has none yet. -/
theorem compileBinding_ok (hquotes : Quotes toLowerCase byText raw identity)
    (h : WellFormed toLowerCase stepById raw)
    (hnew : identity.criterionId ∉ s.seenCriterionIds) :
    ∃ binding, compileBinding X toLowerCase stepById raw byText s =
        .ok ⟨s.compiled ++ [binding], s.seenCriterionIds ++ [identity.criterionId]⟩ ∧
      binding.criterionId = identity.criterionId := by
  obtain ⟨binding, hbinding, hid⟩ := bindCriterion_ok (X := X) h identity
  refine ⟨binding, ?_, hid⟩
  rw [Quotes] at hquotes
  simp only [compileBinding, hquotes, if_neg hnew, hbinding]
  rfl

/-- A turn that does not throw has a criterion without a binding. -/
theorem compileBinding_new (hquotes : Quotes toLowerCase byText raw identity)
    (h : compileBinding X toLowerCase stepById raw byText s = .ok s') :
    identity.criterionId ∉ s.seenCriterionIds ∧
      s'.seenCriterionIds = s.seenCriterionIds ++ [identity.criterionId] := by
  rw [Quotes] at hquotes
  simp only [compileBinding, hquotes] at h
  split_ifs at h with hseen
  cases hbind : bindCriterion X toLowerCase stepById raw identity with
  | error e =>
    rw [hbind] at h
    cases h
  | ok binding =>
    rw [hbind] at h
    cases h
    exact ⟨hseen, rfl⟩

/-- The loop binds the quoted criteria one after another, if they are all different. -/
theorem compileBindings_ok (hquoted : List.Forall₂ (Quotes toLowerCase byText) raws quoted)
    (h : ∀ raw ∈ raws, WellFormed toLowerCase stepById raw)
    (hnew : (s.seenCriterionIds ++ quoted.map (·.criterionId)).Nodup) :
    ∃ s', raws.foldlM (fun s raw => compileBinding X toLowerCase stepById raw byText s) s = .ok s' ∧
      s'.seenCriterionIds = s.seenCriterionIds ++ quoted.map (·.criterionId) ∧
      s'.compiled.map (·.criterionId) =
        s.compiled.map (·.criterionId) ++ quoted.map (·.criterionId) := by
  induction hquoted generalizing s with
  | nil => exact ⟨s, rfl, (List.append_nil _).symm, (List.append_nil _).symm⟩
  | @cons raw identity raws quoted hquotes _ ih =>
    rw [List.map_cons, List.append_cons] at hnew
    have hseen : identity.criterionId ∉ s.seenCriterionIds := by
      have hprefix := hnew.of_append_left
      rw [List.nodup_append] at hprefix
      exact fun hmem => hprefix.2.2 _ hmem _ List.mem_cons_self rfl
    obtain ⟨binding, hturn, hid⟩ := compileBinding_ok (X := X) hquotes (h raw List.mem_cons_self)
      hseen
    obtain ⟨s', hloop, hseen', hcompiled⟩ := ih
      (s := ⟨s.compiled ++ [binding], s.seenCriterionIds ++ [identity.criterionId]⟩)
      (fun raw hraw => h raw (List.mem_cons_of_mem _ hraw)) hnew
    refine ⟨s', ?_, ?_, ?_⟩
    · rw [List.foldlM_cons, hturn]
      exact hloop
    · exact hseen'.trans (List.append_cons _ _ _).symm
    · rw [hcompiled, List.map_append, List.map_cons, List.map_nil, hid, List.map_cons,
        ← List.append_cons]

/-- A loop that does not throw has met every criterion once. -/
theorem compileBindings_nodup (hquoted : List.Forall₂ (Quotes toLowerCase byText) raws quoted)
    (hloop : raws.foldlM (fun s raw => compileBinding X toLowerCase stepById raw byText s) s =
      .ok s') (hs : s.seenCriterionIds.Nodup) :
    (s.seenCriterionIds ++ quoted.map (·.criterionId)).Nodup := by
  induction hquoted generalizing s with
  | nil =>
    rw [List.map_nil, List.append_nil]
    exact hs
  | @cons raw identity raws quoted hquotes _ ih =>
    rw [List.foldlM_cons] at hloop
    cases hturn : compileBinding X toLowerCase stepById raw byText s with
    | error e =>
      rw [hturn] at hloop
      cases hloop
    | ok s₁ =>
      rw [hturn] at hloop
      obtain ⟨hnew, hseen⟩ := compileBinding_new hquotes hturn
      have hnext := ih hloop (by
        rw [hseen]
        exact List.nodup_append.mpr ⟨hs, List.nodup_singleton _, fun a ha b hb hab =>
          hnew (List.mem_singleton.mp hb ▸ hab ▸ ha)⟩)
      rw [hseen, ← List.append_cons] at hnext
      rw [List.map_cons]
      exact hnext

/-! ## The criteria and their ids -/

section Criteria

variable (X toLowerCase) (content : ObjectiveFingerprintContent)

/-- The texts whose digests are the ids of the criteria. -/
def criterionKeys : List String :=
  content.acceptanceCriteria.mapIdx (criterionKey toLowerCase (objectiveFingerprint X content))

/-- The texts of the criteria, up to case and blanks. -/
def normalizedCriteria : List String :=
  content.acceptanceCriteria.map (normalizeCriterionText toLowerCase)

variable {X toLowerCase content}
  {proposed : List ProposedAcceptanceCriterionVerificationBinding}

theorem criterionKey_inj {fingerprint text text' : String} {index index' : ℕ}
    (h : criterionKey toLowerCase fingerprint index text =
      criterionKey toLowerCase fingerprint index' text') : index = index' := by
  have hrest : ∀ (n : ℕ) (t : String), (criterionKey toLowerCase fingerprint n t).toList =
      fingerprint.toList ++ ':' :: (Nat.toDigits 10 n ++
        ':' :: (normalizeCriterionText toLowerCase t).toList) := by
    intro n t
    simp [criterionKey, toString, Nat.repr]
  have hchars := congrArg String.toList h
  rw [hrest, hrest] at hchars
  have htail := (List.cons.inj (List.append_cancel_left hchars)).2
  exact (toDigits_readable (ends_cons (by decide) _) (ends_cons (by decide) _) htail).1

theorem map_criterionText :
    (deriveFromFingerprintContent X toLowerCase content).map
        (fun identity => normalizeCriterionText toLowerCase identity.criterionText) =
      normalizedCriteria toLowerCase content := by
  refine List.ext_getElem ?_ fun i hi hi' => ?_
  · simp [deriveFromFingerprintContent, normalizedCriteria]
  · simp [deriveFromFingerprintContent, normalizedCriteria, criterionIdentity]

theorem index_deriveFromFingerprintContent (i : ℕ)
    (hi : i < (deriveFromFingerprintContent X toLowerCase content).length) :
    (deriveFromFingerprintContent X toLowerCase content)[i].index = i := by
  simp [deriveFromFingerprintContent, criterionIdentity]

/-- Where the digests of the criteria do not collide, no two criteria have the same id. -/
theorem nodup_criterionIds
    (hdigest : ∀ a ∈ criterionKeys X toLowerCase content,
      ∀ b ∈ criterionKeys X toLowerCase content, hexDigest X 32 a = hexDigest X 32 b → a = b) :
    ((deriveFromFingerprintContent X toLowerCase content).map (·.criterionId)).Nodup := by
  have hkeys : (criterionKeys X toLowerCase content).Nodup := by
    rw [List.Nodup, List.pairwise_iff_getElem]
    intro i j hi hj hij heq
    simp only [criterionKeys, List.getElem_mapIdx] at heq
    exact absurd (criterionKey_inj heq) (Nat.ne_of_lt hij)
  have hids : (deriveFromFingerprintContent X toLowerCase content).map (·.criterionId) =
      (criterionKeys X toLowerCase content).map fun key => "crit_" ++ hexDigest X 32 key := by
    refine List.ext_getElem ?_ fun i hi hi' => ?_
    · simp [deriveFromFingerprintContent, criterionKeys]
    · simp [deriveFromFingerprintContent, criterionKeys, criterionIdentity, acceptanceCriterionId]
  rw [hids]
  refine hkeys.map_on fun a ha b hb heq => hdigest a ha b hb ?_
  have hchars := congrArg String.toList heq
  rw [String.toList_append, String.toList_append] at hchars
  exact String.toList_inj.mp (List.append_cancel_left hchars)

/-! ## The order of the bindings -/

section Order

variable {identities : List AcceptanceCriterionIdentity}

/-- The index of a criterion is its place, where no two criteria have the same id. -/
theorem indexOfId_getElem (hnodup : (identities.map (·.criterionId)).Nodup)
    (hindex : ∀ i (hi : i < identities.length), identities[i].index = i) {i : ℕ}
    (hi : i < identities.length) : indexOfId identities identities[i].criterionId = i := by
  cases hfind : identities.find? (·.criterionId = identities[i].criterionId) with
  | none =>
    have hnot := List.find?_eq_none.mp hfind identities[i] (List.getElem_mem hi)
    exact absurd (decide_eq_true rfl) hnot
  | some found =>
    have hsame : found.criterionId = identities[i].criterionId := by
      simpa using List.find?_some hfind
    have hfound : found = identities[i] :=
      List.inj_on_of_nodup_map hnodup (List.mem_of_find?_eq_some hfind) (List.getElem_mem hi) hsame
    rw [indexOfId, hfind, hfound]
    exact hindex i hi

/-- Sorted by index, the bindings of all criteria come in the order of the criteria. -/
theorem sorted_criterionIds (hnodup : (identities.map (·.criterionId)).Nodup)
    (hindex : ∀ i (hi : i < identities.length), identities[i].index = i)
    {compiled : List AcceptanceCriterionVerificationBinding}
    (hperm : (compiled.map (·.criterionId)).Perm (identities.map (·.criterionId))) :
    (compiled.insertionSort fun a b => indexOfId identities a.criterionId ≤
        indexOfId identities b.criterionId).map (·.criterionId) =
      identities.map (·.criterionId) := by
  have hsorted : ((compiled.insertionSort fun a b => indexOfId identities a.criterionId ≤
      indexOfId identities b.criterionId).map (·.criterionId)).Perm
      (identities.map (·.criterionId)) :=
    ((List.perm_insertionSort _ compiled).map _).trans hperm
  have hplace : ∀ id ∈ identities.map (·.criterionId), ∃ i, ∃ hi : i < identities.length,
      identities[i].criterionId = id ∧ indexOfId identities id = i := by
    intro id hid
    obtain ⟨i, hi, rfl⟩ := List.getElem_of_mem hid
    rw [List.length_map] at hi
    rw [List.getElem_map]
    exact ⟨i, hi, rfl, indexOfId_getElem hnodup hindex hi⟩
  have hindexed : ((compiled.insertionSort fun a b => indexOfId identities a.criterionId ≤
      indexOfId identities b.criterionId).map (·.criterionId)).Pairwise
      fun a b => indexOfId identities a ≤ indexOfId identities b := by
    have : Std.Total fun a b : AcceptanceCriterionVerificationBinding =>
        indexOfId identities a.criterionId ≤ indexOfId identities b.criterionId :=
      ⟨fun a b => le_total _ _⟩
    have : IsTrans AcceptanceCriterionVerificationBinding fun a b =>
        indexOfId identities a.criterionId ≤ indexOfId identities b.criterionId :=
      ⟨fun _ _ _ hab hbc => le_trans hab hbc⟩
    rw [List.pairwise_map]
    exact List.pairwise_insertionSort _ compiled
  have hplaced : (identities.map (·.criterionId)).Pairwise
      fun a b => indexOfId identities a ≤ indexOfId identities b := by
    rw [List.pairwise_map, List.pairwise_iff_getElem]
    intro i j hi hj hij
    rw [indexOfId_getElem hnodup hindex hi, indexOfId_getElem hnodup hindex hj]
    exact hij.le
  refine List.Perm.eq_of_pairwise ?_ hindexed hplaced hsorted
  intro a b ha hb hab hba
  obtain ⟨i, hi, rfl, hia⟩ := hplace a (hsorted.mem_iff.mp ha)
  obtain ⟨j, hj, rfl, hjb⟩ := hplace b hb
  rw [hia, hjb] at hab hba
  obtain rfl := le_antisymm hab hba
  rfl

end Order

/-! ## Bindings for every criterion -/

/-- The criteria that the bindings of a proposal quote. -/
theorem exists_quoted
    (hquotes : (proposed.map fun raw => normalizeCriterionText toLowerCase raw.criterionText).Perm
      (normalizedCriteria toLowerCase content)) :
    ∃ quoted, List.Forall₂ (Quotes toLowerCase (byNormalizedText toLowerCase
        (deriveFromFingerprintContent X toLowerCase content))) proposed quoted := by
  refine forall₂_exists fun raw hraw => ?_
  have hkey : normalizeCriterionText toLowerCase raw.criterionText ∈
      normalizedCriteria toLowerCase content :=
    hquotes.mem_iff.mp (List.mem_map_of_mem hraw)
  rw [← map_criterionText (X := X)] at hkey
  refine Option.isSome_iff_exists.mp ((JsMap.get_ofList_mem _ _).2 ?_)
  rwa [List.map_map]

theorem quotes_mem {identities : List AcceptanceCriterionIdentity}
    {raw : ProposedAcceptanceCriterionVerificationBinding}
    (h : Quotes toLowerCase (byNormalizedText toLowerCase identities) raw identity) :
    identity ∈ identities ∧ normalizeCriterionText toLowerCase identity.criterionText =
      normalizeCriterionText toLowerCase raw.criterionText := by
  have hmem := (JsMap.get_ofList_mem _ _).1 identity h
  obtain ⟨identity', hidentity', heq⟩ := List.mem_map.mp hmem
  obtain ⟨hkey, rfl⟩ := Prod.mk.inj heq
  exact ⟨hidentity', hkey⟩

/-- The ids that the loop meets are those that the texts of the bindings are looked up as. -/
theorem quoted_ids {byText : JsMap String AcceptanceCriterionIdentity}
    (hquoted : List.Forall₂ (Quotes toLowerCase byText) proposed quoted) :
    quoted.map (·.criterionId) =
      (proposed.map fun raw => normalizeCriterionText toLowerCase raw.criterionText).map
        fun text => ((byText.get text).map (·.criterionId)).getD "" := by
  induction hquoted with
  | nil => rfl
  | @cons raw identity _ _ hquotes _ ih =>
    rw [Quotes] at hquotes
    rw [List.map_cons, ih, List.map_cons, List.map_cons, hquotes]
    rfl

/-- Where the criteria are different texts, the bindings quote each of them once. -/
theorem quoted_perm
    (hquotes : (proposed.map fun raw => normalizeCriterionText toLowerCase raw.criterionText).Perm
      (normalizedCriteria toLowerCase content))
    (hnodup : (normalizedCriteria toLowerCase content).Nodup)
    (hquoted : List.Forall₂ (Quotes toLowerCase (byNormalizedText toLowerCase
      (deriveFromFingerprintContent X toLowerCase content))) proposed quoted) :
    quoted.Perm (deriveFromFingerprintContent X toLowerCase content) := by
  have hmem : ∀ identity ∈ quoted,
      identity ∈ deriveFromFingerprintContent X toLowerCase content := by
    clear hquotes
    induction hquoted with
    | nil => exact fun _ h => (List.not_mem_nil h).elim
    | cons hraw _ ih => exact List.forall_mem_cons.mpr ⟨(quotes_mem hraw).1, ih⟩
  have htexts : quoted.map
        (fun identity => normalizeCriterionText toLowerCase identity.criterionText) =
      proposed.map fun raw => normalizeCriterionText toLowerCase raw.criterionText := by
    clear hquotes hmem
    induction hquoted with
    | nil => rfl
    | cons hraw _ ih => rw [List.map_cons, List.map_cons, ih, (quotes_mem hraw).2]
  have hperm := hquotes
  rw [← htexts, ← map_criterionText (X := X)] at hperm
  rw [← map_criterionText (X := X)] at hnodup
  have hnodup' := hperm.nodup_iff.mpr hnodup
  rw [List.perm_ext_iff_of_nodup (List.Nodup.of_map _ hnodup') (List.Nodup.of_map _ hnodup)]
  refine fun identity => ⟨hmem identity, fun hidentity => ?_⟩
  obtain ⟨identity', hidentity', hsame⟩ :=
    List.mem_map.mp (hperm.mem_iff.mpr (List.mem_map_of_mem hidentity))
  rwa [← List.inj_on_of_nodup_map hnodup (hmem identity' hidentity') hidentity hsame]

/-- One binding for each criterion, in the order of the criteria, and no criterion id twice. -/
def BindsEach (X : External) (toLowerCase : String → String) (content : ObjectiveFingerprintContent)
    (bindings : List AcceptanceCriterionVerificationBinding) : Prop :=
  bindings.map (·.criterionId) =
      (deriveFromFingerprintContent X toLowerCase content).map (·.criterionId) ∧
    (bindings.map (·.criterionId)).Nodup

/-- Where the bindings can be compiled, no two criteria are looked up by the same text. -/
theorem nodup_of_compiles {steps : List ProposedStep}
    {bindings : List AcceptanceCriterionVerificationBinding}
    (hquotes : (proposed.map fun raw => normalizeCriterionText toLowerCase raw.criterionText).Perm
      (normalizedCriteria toLowerCase content))
    (h : compileAcceptanceCriterionVerificationBindings X toLowerCase content proposed steps =
      .ok bindings) : (normalizedCriteria toLowerCase content).Nodup := by
  obtain ⟨quoted, hquoted⟩ := exists_quoted (X := X) hquotes
  rw [compileAcceptanceCriterionVerificationBindings] at h
  cases hloop : proposed.foldlM (fun s raw => compileBinding X toLowerCase (stepsById steps) raw
      (byNormalizedText toLowerCase (deriveFromFingerprintContent X toLowerCase content)) s)
      ⟨[], []⟩ with
  | error e =>
    rw [hloop] at h
    cases h
  | ok s =>
    have hids := compileBindings_nodup hquoted hloop List.nodup_nil
    rw [List.nil_append, quoted_ids hquoted] at hids
    exact hquotes.nodup_iff.mp (List.Nodup.of_map _ hids)

/-- An objective can be bound, by bindings that quote each of its criteria once and are well formed
apart from that, if and only if no two of its criteria are the same text up to case and blanks. -/
theorem bindings_complete_iff (X : External) (toLowerCase : String → String)
    (content : ObjectiveFingerprintContent)
    (proposed : List ProposedAcceptanceCriterionVerificationBinding) (steps : List ProposedStep)
    (hdigest : ∀ a ∈ criterionKeys X toLowerCase content,
      ∀ b ∈ criterionKeys X toLowerCase content, hexDigest X 32 a = hexDigest X 32 b → a = b)
    (hquotes : (proposed.map fun raw => normalizeCriterionText toLowerCase raw.criterionText).Perm
      (normalizedCriteria toLowerCase content))
    (hformed : ∀ raw ∈ proposed, WellFormed toLowerCase (stepsById steps) raw) :
    (∃ bindings, compileAcceptanceCriterionVerificationBindings X toLowerCase content proposed
        steps = .ok bindings ∧ BindsEach X toLowerCase content bindings) ↔
      (normalizedCriteria toLowerCase content).Nodup := by
  constructor
  · rintro ⟨bindings, hbindings, -⟩
    exact nodup_of_compiles hquotes hbindings
  · intro hnodup
    obtain ⟨quoted, hquoted⟩ := exists_quoted (X := X) hquotes
    have hperm := (quoted_perm hquotes hnodup hquoted).map (·.criterionId)
    have hids := nodup_criterionIds hdigest
    obtain ⟨s, hloop, hseen, hcompiled⟩ := compileBindings_ok (X := X) (s := ⟨[], []⟩) hquoted
      hformed (hperm.nodup_iff.mpr hids)
    have hbound : (deriveFromFingerprintContent X toLowerCase content).forM
        (checkBound s.seenCriterionIds) = .ok () := by
      refine forM_ok fun identity hidentity => ?_
      rw [checkBound, if_pos]
      rw [hseen, List.nil_append]
      exact hperm.mem_iff.mpr (List.mem_map_of_mem hidentity)
    have hcompiledPerm : (s.compiled.map (·.criterionId)).Perm
        ((deriveFromFingerprintContent X toLowerCase content).map (·.criterionId)) := by
      rw [hcompiled]
      exact hperm
    have hsorted := sorted_criterionIds hids index_deriveFromFingerprintContent hcompiledPerm
    refine ⟨_, ?_, hsorted, by rw [hsorted]; exact hids⟩
    rw [compileAcceptanceCriterionVerificationBindings, hloop]
    show ((deriveFromFingerprintContent X toLowerCase content).forM
      (checkBound s.seenCriterionIds) >>= fun _ => _) = _
    rw [hbound]
    rfl

end Criteria

/-! ## Two criteria -/

private def lowerCase (text : String) : String := String.ofList (text.toList.map Char.toLower)

private def reversing : External :=
  { plainExternal with sha256 := fun text => String.ofList text.toList.reverse }

private def objective (criteria : List String) : ObjectiveFingerprintContent :=
  ⟨"Ship", criteria, [], [], .low, none⟩

private def testStep : ProposedStep := ⟨"step_1", "RUN_TESTS", [], ["npm test"]⟩

private def outcomeBinding (criterionText : String) :
    ProposedAcceptanceCriterionVerificationBinding :=
  ⟨criterionText, .actionOutcome, ["step_1"], none, none, true, none, none⟩

private theorem wellFormed_outcomeBinding (criterionText : String) :
    WellFormed lowerCase (stepsById [testStep]) (outcomeBinding criterionText) where
  steps := by
    intro stepId hstepId
    obtain rfl := List.mem_singleton.mp hstepId
    refine ⟨testStep, rfl, ?_⟩
    show VerificationBindingMethod.actionOutcome ∈ methodsCompatibleWithAction "RUN_TESTS"
    decide
  postconditions := fun _ h => (List.not_mem_nil h).elim
  checks := fun _ h => (List.not_mem_nil h).elim
  testProfile := by rintro ⟨⟩
  artifacts := by rintro (⟨⟨⟩⟩ | ⟨⟨⟩⟩)
  postcondition := by rintro ⟨⟩

/-- These digests begin with the last character of the criterion. -/
private theorem head?_hexDigest {criterionText : String} {c : Char}
    (h : (normalizeCriterionText lowerCase criterionText).toList.getLast? = some c)
    (fingerprint : String) (index : ℕ) :
    (hexDigest reversing 32 (criterionKey lowerCase fingerprint index criterionText)).toList.head? =
      some c := by
  have hlast :
      (toString (normalizeCriterionText lowerCase criterionText)).toList.getLast? = some c := h
  simp [hexDigest, reversing, criterionKey, List.head?_take, hlast]

private theorem digest_inj :
    ∀ a ∈ criterionKeys reversing lowerCase (objective ["Tests pass", "Types check"]),
      ∀ b ∈ criterionKeys reversing lowerCase (objective ["Tests pass", "Types check"]),
        hexDigest reversing 32 a = hexDigest reversing 32 b → a = b := by
  have hpass : (normalizeCriterionText lowerCase "Tests pass").toList.getLast? = some 's' := by
    decide +kernel
  have hcheck : (normalizeCriterionText lowerCase "Types check").toList.getLast? = some 'k' := by
    decide +kernel
  intro a ha b hb hsame
  have hhead := congrArg (·.toList.head?) hsame
  rcases List.mem_pair.mp ha with rfl | rfl <;> rcases List.mem_pair.mp hb with rfl | rfl
  · rfl
  · rw [head?_hexDigest hpass, head?_hexDigest hcheck] at hhead
    cases hhead
  · rw [head?_hexDigest hcheck, head?_hexDigest hpass] at hhead
    cases hhead
  · rfl

theorem bindings_complete_two_criteria :
    ∃ bindings, compileAcceptanceCriterionVerificationBindings reversing lowerCase
        (objective ["Tests pass", "Types check"])
        [outcomeBinding "Types check", outcomeBinding "Tests pass"] [testStep] = .ok bindings ∧
      BindsEach reversing lowerCase (objective ["Tests pass", "Types check"]) bindings :=
  (bindings_complete_iff _ _ _ _ _ digest_inj (by decide +kernel)
    (by
      intro raw hraw
      rcases List.mem_pair.mp hraw with rfl | rfl
      · exact wellFormed_outcomeBinding _
      · exact wellFormed_outcomeBinding _)).mpr (by decide +kernel)

/-- Two criteria that differ in case only: both bindings are looked up as the second criterion, and
the second binding is refused as a duplicate. -/
theorem same_text_unbound :
    (∀ raw ∈ [outcomeBinding "Tests pass", outcomeBinding "tests pass"],
        WellFormed lowerCase (stepsById [testStep]) raw) ∧
      ¬∃ bindings, compileAcceptanceCriterionVerificationBindings reversing lowerCase
          (objective ["Tests pass", "tests pass"])
          [outcomeBinding "Tests pass", outcomeBinding "tests pass"] [testStep] = .ok bindings ∧
        BindsEach reversing lowerCase (objective ["Tests pass", "tests pass"]) bindings := by
  constructor
  · intro raw hraw
    rcases List.mem_pair.mp hraw with rfl | rfl
    · exact wellFormed_outcomeBinding _
    · exact wellFormed_outcomeBinding _
  · rintro ⟨bindings, hbindings, -⟩
    have hnodup := nodup_of_compiles (by decide +kernel) hbindings
    exact absurd hnodup (by decide +kernel)

end VerificationBindings

end Orchestrator
