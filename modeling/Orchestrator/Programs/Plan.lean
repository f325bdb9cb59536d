import Orchestrator.Collections.JsMap
import Orchestrator.Graph.DepthFirst
import Orchestrator.Programs.Records

/-!
# Program plans

What a decomposition proposal is compiled to, and the deterministic checks that a plan must pass.

* `ProgramPlan`, its nodes and edges, and `programPlanHash`;
* `compileProgramPlan`, the plan of a proposal;
* `intersectChildAuthority`, whether what a child asks for lies within the envelope;
* `validateProgramPlan`, every check, with `assertValidProgramPlan`.
-/

namespace Orchestrator

open Collections

/-! ## Nodes and edges -/

inductive ProgramNodeRequirement where
  | required
  | optional
  deriving DecidableEq, Repr

def ProgramNodeRequirement.text : ProgramNodeRequirement → String
  | .required => "REQUIRED"
  | .optional => "OPTIONAL"

inductive ProgramNodeDisposition where
  | new
  | retained
  | superseded
  deriving DecidableEq, Repr

def ProgramNodeDisposition.text : ProgramNodeDisposition → String
  | .new => "NEW"
  | .retained => "RETAINED"
  | .superseded => "SUPERSEDED"

inductive ContributionKind where
  | satisfies
  | partialEvidence
  | prerequisiteOnly
  deriving DecidableEq, Repr

def ContributionKind.text : ContributionKind → String
  | .satisfies => "SATISFIES"
  | .partialEvidence => "PARTIAL_EVIDENCE"
  | .prerequisiteOnly => "PREREQUISITE_ONLY"

inductive EvidenceRequirement where
  | completionRecord
  | completionAndVerification
  deriving DecidableEq, Repr

def EvidenceRequirement.text : EvidenceRequirement → String
  | .completionRecord => "COMPLETION_RECORD"
  | .completionAndVerification => "COMPLETION_AND_VERIFICATION"

/-- A `ProgramCriterionContributionBinding`: how a child's criterion bears on a root criterion. -/
structure ProgramCriterionContributionBinding where
  rootCriterionIndex : ℕ
  childCriterionIndex : ℕ
  contributionKind : ContributionKind
  evidenceRequirement : EvidenceRequirement
  deriving DecidableEq, Repr

def ProgramCriterionContributionBinding.json (b : ProgramCriterionContributionBinding) : Json :=
  .object [
    ("rootCriterionIndex", .number b.rootCriterionIndex),
    ("childCriterionIndex", .number b.childCriterionIndex),
    ("contributionKind", .string b.contributionKind.text),
    ("evidenceRequirement", .string b.evidenceRequirement.text)]

/-- A `ChildProgramNode`. -/
structure ChildProgramNode where
  nodeId : String
  title : String
  requestedOutcome : String
  acceptanceCriteria : List String
  nonGoals : List String
  constraints : List String
  priority : ObjectivePriority
  requirement : ProgramNodeRequirement
  requestedProjectId : String
  requestedEnvironment : String
  requestedCapabilityIds : List String
  requestedRepositoryIdentities : List String
  requestedBudget : BudgetResourceEstimate
  criterionBindings : List ProgramCriterionContributionBinding
  parentNodeId : Option String
  depth : ℕ
  disposition : ProgramNodeDisposition
  deriving DecidableEq

/-- The paths at which `ChildProgramNodeSchema` rejects a node. -/
def ChildProgramNode.issues (n : ChildProgramNode) : List String :=
  minOne "nodeId" n.nodeId ++ minOne "title" n.title ++
  minOne "requestedOutcome" n.requestedOutcome ++
  someTextItems "acceptanceCriteria" n.acceptanceCriteria ++
  minOne "requestedProjectId" n.requestedProjectId ++
  minOne "requestedEnvironment" n.requestedEnvironment ++
  textItems "requestedCapabilityIds" n.requestedCapabilityIds ++
  textItems "requestedRepositoryIdentities" n.requestedRepositoryIdentities ++
  n.requestedBudget.issues "requestedBudget" ++
  (if n.criterionBindings = [] then ["criterionBindings"] else []) ++
  minOneOption "parentNodeId" n.parentNodeId

/-- `DEPENDENCY_MILESTONES`. -/
inductive DependencyMilestone where
  | repositoryVerified
  | planValidated
  | approved
  | completed
  deriving DecidableEq, Repr

def DependencyMilestone.text : DependencyMilestone → String
  | .repositoryVerified => "REPOSITORY_VERIFIED"
  | .planValidated => "PLAN_VALIDATED"
  | .approved => "APPROVED"
  | .completed => "COMPLETED"

/-- A `ProgramPlanEdge`: the target depends on the source. -/
structure ProgramPlanEdge where
  edgeId : String
  fromNodeId : String
  toNodeId : String
  requiredMilestone : DependencyMilestone
  deriving DecidableEq, Repr

def ProgramPlanEdge.issues (e : ProgramPlanEdge) : List String :=
  minOne "edgeId" e.edgeId ++ minOne "fromNodeId" e.fromNodeId ++ minOne "toNodeId" e.toNodeId

def ProgramPlanEdge.json (e : ProgramPlanEdge) : Json :=
  .object [
    ("edgeId", .string e.edgeId),
    ("fromNodeId", .string e.fromNodeId),
    ("toNodeId", .string e.toNodeId),
    ("requiredMilestone", .string e.requiredMilestone.text)]

def INITIAL_PROGRAM_PLAN_VERSION : ℕ := 1

/-- A `ProgramPlan` before it is hashed. -/
structure ProgramPlanBody where
  programId : String
  programPlanVersion : ℕ
  nodes : List ChildProgramNode
  edges : List ProgramPlanEdge
  requiredNodeIds : List String
  optionalNodeIds : List String
  decompositionProposalHash : String
  compilerVersion : String
  modelProviderId : Option String
  inputContextFingerprint : String
  revisionAttempt : ℕ
  createdAt : ℕ
  deriving DecidableEq

/-- A `ProgramPlan`. -/
structure ProgramPlan extends ProgramPlanBody where
  programPlanHash : String
  deriving DecidableEq

/-- The paths at which `ProgramPlanSchema` rejects a plan. -/
def ProgramPlan.issues (p : ProgramPlan) : List String :=
  minOne "programId" p.programId ++ positive "programPlanVersion" p.programPlanVersion ++
  minOne "programPlanHash" p.programPlanHash ++
  (if p.nodes = [] then ["nodes"] else []) ++
  p.nodes.flatMap ChildProgramNode.issues ++ p.edges.flatMap ProgramPlanEdge.issues ++
  textItems "requiredNodeIds" p.requiredNodeIds ++
  textItems "optionalNodeIds" p.optionalNodeIds ++
  minOne "decompositionProposalHash" p.decompositionProposalHash ++
  minOne "compilerVersion" p.compilerVersion ++
  minOneOption "modelProviderId" p.modelProviderId ++
  minOne "inputContextFingerprint" p.inputContextFingerprint

def parseProgramPlan (p : ProgramPlan) : Except ProgramFailure ProgramPlan :=
  parseProgramRecord ProgramPlan.issues p

def programNodeId (X : ProgramExternal) (programId : String) (programPlanVersion : ℕ)
    (title requestedOutcome : String) (parentNodeId : Option String) : String :=
  X.digest 24 (Json.object [
    ("outcome", .string requestedOutcome),
    ("parentNodeId", Json.orNull .string parentNodeId),
    ("planVersion", .number programPlanVersion),
    ("programId", .string programId),
    ("title", .string title)]).stringify

/-- A node in the text that is hashed. -/
def ChildProgramNode.canonical (n : ChildProgramNode) : Json :=
  let bindings := n.criterionBindings.insertionSort fun a b =>
    a.rootCriterionIndex ≤ b.rootCriterionIndex
  .object ([
    ("nodeId", Json.string n.nodeId),
    ("title", .string n.title),
    ("requestedOutcome", .string n.requestedOutcome),
    ("acceptanceCriteria", jsonStrings n.acceptanceCriteria),
    ("nonGoals", jsonStrings n.nonGoals),
    ("constraints", jsonStrings n.constraints),
    ("priority", .string n.priority.text),
    ("requirement", .string n.requirement.text),
    ("requestedProjectId", .string n.requestedProjectId),
    ("requestedEnvironment", .string n.requestedEnvironment),
    ("requestedCapabilityIds", jsonStrings (sortStrings n.requestedCapabilityIds)),
    ("requestedRepositoryIdentities", jsonStrings (sortStrings n.requestedRepositoryIdentities)),
    ("requestedBudget", n.requestedBudget.json),
    ("criterionBindings", .array (bindings.map (·.json)))] ++
    (n.parentNodeId.toList.map fun id => ("parentNodeId", Json.string id)) ++ [
    ("depth", .number n.depth),
    ("disposition", .string n.disposition.text)])

/-- `canonicalizeProgramPlanBody`. -/
def canonicalizeProgramPlanBody (X : ProgramExternal) (p : ProgramPlanBody) : Json :=
  let nodes := p.nodes.insertionSort fun a b => X.localeLe a.nodeId b.nodeId
  let edges := p.edges.insertionSort fun a b => X.localeLe a.edgeId b.edgeId
  .object [
    ("edges", .array (edges.map (·.json))),
    ("nodes", .array (nodes.map (·.canonical))),
    ("programId", .string p.programId),
    ("programPlanVersion", .number p.programPlanVersion)]

def programPlanHash (X : ProgramExternal) (p : ProgramPlanBody) : String :=
  X.hash (canonicalizeProgramPlanBody X p)

def PROGRAM_PLAN_COMPILER_VERSION : String := "program-plan-compiler/1"

/-! ## The compiler -/

/-- A `DecompositionChildProposal`, with the defaults of its schema filled in. -/
structure DecompositionChildProposal where
  title : String
  requestedOutcome : String
  acceptanceCriteria : List String
  nonGoals : List String
  constraints : List String
  priority : ObjectivePriority
  requirement : ProgramNodeRequirement
  requestedProjectId : Option String
  requestedEnvironment : Option String
  requestedCapabilityIds : List String
  requestedRepositoryIdentities : List String
  requestedBudget : BudgetResourceEstimate
  dependsOnTitles : List String
  parentTitle : Option String
  criterionBindings : List ProgramCriterionContributionBinding
  deriving DecidableEq

def DecompositionChildProposal.json (c : DecompositionChildProposal) : Json :=
  .object ([
    ("title", Json.string c.title),
    ("requestedOutcome", .string c.requestedOutcome),
    ("acceptanceCriteria", jsonStrings c.acceptanceCriteria),
    ("nonGoals", jsonStrings c.nonGoals),
    ("constraints", jsonStrings c.constraints),
    ("priority", .string c.priority.text),
    ("requirement", .string c.requirement.text)] ++
    (c.requestedProjectId.toList.map fun id => ("requestedProjectId", Json.string id)) ++
    (c.requestedEnvironment.toList.map fun env => ("requestedEnvironment", Json.string env)) ++ [
    ("requestedCapabilityIds", jsonStrings c.requestedCapabilityIds),
    ("requestedRepositoryIdentities", jsonStrings c.requestedRepositoryIdentities),
    ("requestedBudget", c.requestedBudget.json),
    ("dependsOnTitles", jsonStrings c.dependsOnTitles)] ++
    (c.parentTitle.toList.map fun title => ("parentTitle", Json.string title)) ++ [
    ("criterionBindings", .array (c.criterionBindings.map (·.json)))])

/-- A `DecompositionProposal`. -/
structure DecompositionProposal where
  children : List DecompositionChildProposal
  modelProviderId : String
  notes : Option String
  deriving DecidableEq

def decompositionProposalHash (X : ProgramExternal) (proposal : DecompositionProposal) : String :=
  X.hash (.object ([
    ("children", Json.array (proposal.children.map (·.json))),
    ("modelProviderId", .string proposal.modelProviderId)] ++
    proposal.notes.toList.map fun notes => ("notes", Json.string notes)))

def programInputContextFingerprint (X : ProgramExternal) (program : Program) : String :=
  X.hash (.object [
    ("criteria", jsonStrings program.rootIntent.acceptanceCriteria),
    ("constraints", jsonStrings program.rootIntent.constraints),
    ("envelopeHash", .string program.authorityFreeze.delegationEnvelopeHash),
    ("nonGoals", jsonStrings program.rootIntent.nonGoals),
    ("outcome", .string program.rootIntent.requestedOutcome),
    ("programId", .string program.programId),
    ("programVersion", .number program.programVersion)])

/-- The ids by title, and the nodes, of the children compiled so far. -/
structure CompiledNodes where
  titleToId : JsMap String String
  nodes : List ChildProgramNode

/-- One child of a proposal. A text that is empty counts as missing. -/
def compileChild (X : ProgramExternal) (program : Program) (programPlanVersion : ℕ)
    (compiled : CompiledNodes) (child : DecompositionChildProposal) : CompiledNodes :=
  let parentTitle := child.parentTitle.filter (· ≠ "")
  let depth := match parentTitle with
    | some title =>
      ((compiled.nodes.find? fun n => n.title = title).map (·.depth)).getD 0 + 1
    | none => 0
  let parentNodeId := (parentTitle.bind compiled.titleToId.get).filter (· ≠ "")
  let nodeId :=
    programNodeId X program.programId programPlanVersion child.title child.requestedOutcome
      parentNodeId
  { titleToId := compiled.titleToId.set child.title nodeId
    nodes := compiled.nodes ++ [{
      nodeId := nodeId
      title := child.title
      requestedOutcome := child.requestedOutcome
      acceptanceCriteria := child.acceptanceCriteria
      nonGoals := child.nonGoals
      constraints := child.constraints
      priority := child.priority
      requirement := child.requirement
      requestedProjectId := child.requestedProjectId.getD program.projectId
      requestedEnvironment := child.requestedEnvironment.getD program.requestedEnvironment
      requestedCapabilityIds := child.requestedCapabilityIds
      requestedRepositoryIdentities := child.requestedRepositoryIdentities
      requestedBudget := child.requestedBudget
      criterionBindings := child.criterionBindings
      parentNodeId := parentNodeId
      depth := depth
      disposition := .new }] }

/-- The edges into a child; titles that no child has are passed over. -/
def compileEdges (titleToId : JsMap String String) (child : DecompositionChildProposal) :
    List ProgramPlanEdge :=
  let toId := (titleToId.get child.title).getD ""
  child.dependsOnTitles.filterMap fun depTitle =>
    ((titleToId.get depTitle).filter (· ≠ "")).map fun fromId =>
      { edgeId := s!"edge_{fromId}_{toId}"
        fromNodeId := fromId
        toNodeId := toId
        requiredMilestone := .completed }

def compileProgramPlan (X : ProgramExternal) (program : Program) (proposal : DecompositionProposal)
    (programPlanVersion revisionAttempt createdAt : ℕ) : ProgramPlan :=
  let compiled := proposal.children.foldl (compileChild X program programPlanVersion) ⟨.empty, []⟩
  let edges := proposal.children.flatMap (compileEdges compiled.titleToId)
  let idsOf (requirement : ProgramNodeRequirement) : List String :=
    (compiled.nodes.filter fun n => n.requirement = requirement).map (·.nodeId)
  let body : ProgramPlanBody :=
    { programId := program.programId
      programPlanVersion := programPlanVersion
      nodes := compiled.nodes
      edges := edges
      requiredNodeIds := idsOf .required
      optionalNodeIds := idsOf .optional
      decompositionProposalHash := decompositionProposalHash X proposal
      compilerVersion := PROGRAM_PLAN_COMPILER_VERSION
      modelProviderId := some proposal.modelProviderId
      inputContextFingerprint := programInputContextFingerprint X program
      revisionAttempt := revisionAttempt
      createdAt := createdAt }
  { body with programPlanHash := programPlanHash X body }

/-! ## Authority -/

/-- What `intersectChildAuthority` grants a child. -/
structure ChildAuthority where
  projectId : String
  environment : String
  capabilityIds : List String
  repositoryIdentities : List String
  budget : BudgetResourceEstimate
  deriving DecidableEq

/-- A denial of `intersectChildAuthority`. -/
structure AuthorityDenial where
  reasonCode : String
  message : String
  deriving DecidableEq, Repr

/-- `intersectBudget`: the request, if it is nowhere above the ceiling. -/
def intersectBudget (X : ProgramExternal) (requested ceiling : BudgetResourceEstimate) :
    Except AuthorityDenial BudgetResourceEstimate :=
  match BudgetDimension.all.find? fun d => ceiling d < requested d with
  | some d =>
    let req := X.numberToString (requested d)
    let max := X.numberToString (ceiling d)
    .error ⟨"CHILD_BUDGET_EXCEEDS_CEILING",
      s!"Child budget {d.text}={req} exceeds maximumChildBudget {max}"⟩
  | none => .ok requested

/-- `intersectChildAuthority`: what the child asks for, if the envelope holds all of it. -/
def intersectChildAuthority (X : ProgramExternal) (envelope : DelegationEnvelope)
    (requested : ChildAuthority) : Except AuthorityDenial ChildAuthority :=
  if !envelope.allowedProjectIds.contains requested.projectId then
    .error ⟨"PROJECT_OUTSIDE_ENVELOPE",
      s!"Project {requested.projectId} not in delegation envelope"⟩
  else if some requested.projectId ≠ envelope.allowedProjectIds.head? ∧
      !envelope.crossProjectDelegationAllowed then
    .error ⟨"CROSS_PROJECT_DENIED", "Cross-project delegation is not allowed"⟩
  else if !envelope.allowedEnvironments.contains requested.environment then
    .error ⟨"ENVIRONMENT_OUTSIDE_ENVELOPE",
      s!"Environment {requested.environment} not in envelope"⟩
  else
    let capabilityIds := requested.capabilityIds.filter envelope.allowedCapabilityIds.contains
    if 0 < requested.capabilityIds.length ∧
        capabilityIds.length ≠ requested.capabilityIds.length then
      .error ⟨"CAPABILITY_EXPANSION_REJECTED",
        "Child requested capabilities outside the delegation envelope"⟩
    else
      let repositoryIdentities :=
        requested.repositoryIdentities.filter envelope.allowedRepositoryIdentities.contains
      if 0 < requested.repositoryIdentities.length ∧
          repositoryIdentities.length ≠ requested.repositoryIdentities.length then
        .error ⟨"REPOSITORY_OUTSIDE_ENVELOPE",
          "Child requested repositories outside the delegation envelope"⟩
      else do
        let budget ← intersectBudget X requested.budget envelope.maximumChildBudget
        .ok ⟨requested.projectId, requested.environment, capabilityIds, repositoryIdentities,
          budget⟩

/-- What a node asks for. -/
def ChildProgramNode.authority (n : ChildProgramNode) : ChildAuthority where
  projectId := n.requestedProjectId
  environment := n.requestedEnvironment
  capabilityIds := n.requestedCapabilityIds
  repositoryIdentities := n.requestedRepositoryIdentities
  budget := n.requestedBudget

/-- `s.includes(part)`. -/
def includesText (s part : String) : Bool := decide (part.toList <:+: s.toList)

/-- `childWeakensConstraints`: some deny constraint of the parent is missing. -/
def childWeakensConstraints (X : ProgramExternal) (parentConstraints childConstraints : List String) :
    Bool :=
  let childSet := childConstraints.map fun c => X.toLowerCase (trim c)
  parentConstraints.any fun parent =>
    let normalized := X.toLowerCase (trim parent)
    (includesText normalized "no production" || includesText normalized "no deploy" ||
      normalized.startsWith "deny:") && !childSet.contains normalized

/-! ## Patterns -/

/-- Whether the text starts with the words, at least one blank between two of them: `w₁\s+w₂…`. -/
def startsWithWords : List String → List Char → Bool
  | [], _ => true
  | [w], t => w.toList.isPrefixOf t
  | w :: ws, t =>
    w.toList.isPrefixOf t &&
      match t.drop w.length with
      | c :: rest => isBlank c && startsWithWords ws (rest.dropWhile isBlank)
      | [] => false

/-- Whether a position of the text, after a character with `before` or at the start, has one of
the phrases. Letters are compared without case. -/
def hasPhrase (before : Char → Bool) (phrases : List (List String)) (s : String) : Bool :=
  let rec go (allowed : Bool) : List Char → Bool
    | [] => false
    | c :: t =>
      (allowed && phrases.any fun ws => startsWithWords ws (c :: t)) || go (before c) t
  go true (s.toList.map Char.toLower)

/-- `/no\s+production|no\s+deploy/i`. -/
def deniesProduction (s : String) : Bool :=
  hasPhrase (fun _ => true) [["no", "production"], ["no", "deploy"]] s

/-- `/production\s+deploy|deploy\s+to\s+production/i`. -/
def proposesProduction (s : String) : Bool :=
  hasPhrase (fun _ => true) [["production", "deploy"], ["deploy", "to", "production"]] s

/-- `/(?:^|[^\w])(?:deploy(?:ment)?\s+to\s+production|production\s+deploy)/i`. -/
def requestsProduction (s : String) : Bool :=
  hasPhrase (fun c => !(c.isAlphanum || c = '_'))
    [["deploy", "to", "production"], ["deployment", "to", "production"], ["production", "deploy"]] s

/-! ## The validator -/

/-- The `PROGRAM_VALIDATION_STEPS` that findings name. -/
inductive ProgramValidationStep where
  | schema
  | graph
  | depth
  | fanOut
  | childCount
  | projectScope
  | repositoryScope
  | policy
  | capability
  | environment
  | budget
  | dependency
  | completionBinding
  | security
  deriving DecidableEq, Repr

/-- A `ProgramValidationFinding`; each is a `BLOCK`. -/
structure ProgramValidationFinding where
  step : ProgramValidationStep
  code : String
  message : String
  nodeId : Option String
  deriving DecidableEq, Repr

/-- `hasCycle`: a depth-first search from every node finds a node on its own path. -/
def hasCycle (nodes : List ChildProgramNode) (edges : List ProgramPlanEdge) : Bool :=
  let ids := nodes.map (·.nodeId)
  let succ (id : String) : List String :=
    if id ∈ ids then (edges.filter fun e => e.fromNodeId = id).map (·.toNodeId) else []
  match Graph.dfsAll succ (ids.length + edges.length + 1) [] ids with
  | .ok _ => false
  | .error _ => true

/-- The step at which a denied authority is reported. -/
def denialStep (reasonCode : String) : ProgramValidationStep :=
  if includesText reasonCode "CAPABILITY" then .capability
  else if includesText reasonCode "REPOSITORY" then .repositoryScope
  else if includesText reasonCode "PROJECT" || includesText reasonCode "CROSS_PROJECT" then
    .projectScope
  else if includesText reasonCode "ENVIRONMENT" then .environment
  else .budget

variable (X : ProgramExternal) (program : Program) (plan : ProgramPlan)

/-- The findings about the graph: ids, edges and cycles. -/
def graphFindings : List ProgramValidationFinding :=
  let nodeIds := plan.nodes.map (·.nodeId)
  (if nodeIds.eraseDups.length ≠ plan.nodes.length then
    [⟨.schema, "DUPLICATE_NODE_ID", "Program plan has duplicate nodeIds", none⟩] else []) ++
  (plan.edges.flatMap fun edge =>
    (if !nodeIds.contains edge.fromNodeId || !nodeIds.contains edge.toNodeId then
      [⟨.graph, "MISSING_EDGE_ENDPOINT", s!"Edge {edge.edgeId} references unknown node", none⟩]
      else []) ++
    (if edge.fromNodeId = edge.toNodeId then
      [⟨.graph, "SELF_DEPENDENCY", s!"Edge {edge.edgeId} is a self-dependency",
        some edge.fromNodeId⟩] else [])) ++
  (if hasCycle plan.nodes plan.edges then
    [⟨.graph, "PROGRAM_GRAPH_CYCLE", "Program plan graph contains a cycle", none⟩] else [])

/-- The findings about the size of the plan, and its budget as a whole. -/
def sizeFindings : List ProgramValidationFinding :=
  let envelope := program.delegationEnvelope
  let maxDepth := (plan.nodes.map (·.depth)).foldl max 0
  let childrenByParent := plan.nodes.foldl (fun m node =>
    m.set node.parentNodeId ((m.get node.parentNodeId).getD 0 + 1)) (.empty : JsMap (Option String) ℕ)
  (if envelope.maximumDepth < maxDepth then
    [⟨.depth, "PROGRAM_DEPTH_EXCEEDED",
      s!"Depth {maxDepth} exceeds maximumDepth {envelope.maximumDepth}", none⟩] else []) ++
  (if envelope.maximumChildren < plan.nodes.length then
    [⟨.childCount, "PROGRAM_CHILD_COUNT_EXCEEDED",
      s!"Child count {plan.nodes.length} exceeds maximumChildren {envelope.maximumChildren}",
      none⟩] else []) ++
  (childrenByParent.entries.flatMap fun e =>
    let parent := e.1.getD "root"
    if envelope.maximumFanOut < e.2 then
      [⟨.fanOut, "PROGRAM_FAN_OUT_EXCEEDED",
        s!"Fan-out {e.2} under {parent} exceeds maximumFanOut {envelope.maximumFanOut}",
        e.1.filter (· ≠ "")⟩] else []) ++
  (if exceedsCeiling (sumNodeBudgets (plan.nodes.map (·.requestedBudget)))
      envelope.maximumProgramBudget then
    [⟨.budget, "PROGRAM_BUDGET_MULTIPLICATION", "Sum of child budgets exceeds maximumProgramBudget",
      none⟩] else [])

/-- The findings about what one child may do. -/
def nodeFindings (node : ChildProgramNode) : List ProgramValidationFinding :=
  let parentConstraints := program.rootIntent.constraints
  (match intersectChildAuthority X program.delegationEnvelope node.authority with
    | .ok _ => []
    | .error denial =>
      [⟨denialStep denial.reasonCode, denial.reasonCode, denial.message, some node.nodeId⟩]) ++
  (if childWeakensConstraints X parentConstraints node.constraints then
    [⟨.policy, "POLICY_WEAKENING_REJECTED", "Child constraints weaken parent deny constraints",
      some node.nodeId⟩] else []) ++
  (if parentConstraints.any deniesProduction &&
      (requestsProduction node.requestedOutcome ||
        node.constraints.any fun c => !deniesProduction c && proposesProduction c) then
    [⟨.security, "POLICY_WEAKENING_REJECTED",
      "Child proposes production deployment under parent deny", some node.nodeId⟩] else [])

/-- Whether a child is bound to satisfy the root criterion. -/
def ChildProgramNode.satisfies (n : ChildProgramNode) (rootCriterionIndex : ℕ) : Bool :=
  n.criterionBindings.any fun b =>
    b.rootCriterionIndex = rootCriterionIndex && b.contributionKind = .satisfies

/-- The findings about the bindings to root criteria. -/
def bindingFindings : List ProgramValidationFinding :=
  let criterionCount := program.rootIntent.acceptanceCriteria.length
  (plan.nodes.flatMap fun node => node.criterionBindings.flatMap fun binding =>
    if criterionCount ≤ binding.rootCriterionIndex then
      [⟨.completionBinding, "COMPLETION_BINDING_INCOMPLETE",
        s!"Binding references criterion index {binding.rootCriterionIndex} out of range",
        some node.nodeId⟩] else []) ++
  ((List.range criterionCount).flatMap fun i =>
    if plan.nodes.any (·.satisfies i) then []
    else [⟨.completionBinding, "COMPLETION_BINDING_INCOMPLETE",
      s!"Root criterion {i} has no SATISFIES binding", none⟩]) ++
  (plan.requiredNodeIds.flatMap fun id =>
    if (plan.nodes.map (·.nodeId)).contains id then []
    else [⟨.dependency, "REQUIRED_NODE_UNKNOWN",
      s!"requiredNodeIds references unknown node {id}", none⟩])

/-- The findings of `validateProgramPlan`. -/
def validateProgramPlan : List ProgramValidationFinding :=
  graphFindings plan ++ sizeFindings program plan ++
    plan.nodes.flatMap (nodeFindings X program) ++ bindingFindings program plan

/-- `assertValidProgramPlan`: a plan with findings is thrown out. -/
def assertValidProgramPlan : Except ProgramFailure Unit :=
  if validateProgramPlan X program plan = [] then .ok ()
  else .error (.program .programPlanInvalid "Program plan failed deterministic validation")

end Orchestrator
