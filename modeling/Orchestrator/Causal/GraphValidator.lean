import Orchestrator.Causal.Records
import Orchestrator.Collections.JsMap
import Orchestrator.Graph.DepthFirst
import Orchestrator.Graph.Order

/-!
# The validator of causal graphs

`validateCausalGraph`: the reasons to block a graph, and the search for directed cycles.

* `nodeReasons`, `edgeReasons`, `missingReasons`, `unitReasons`: the reasons, in their order;
* `hasDirectedCycle`: the search;
* `hasDirectedCycle_iff`: it finds a cycle exactly where the edges between nodes have one;
* `validateCausalGraph_pass`: what passes is what is well formed and without cycles.
-/

namespace Orchestrator.Causal

open Collections Graph Relation

/-! ## The nodes -/

def CausalGraph.nodeIds (graph : CausalGraph) : List String := graph.nodes.map (·.variableId)

/-- The nodes of one class. -/
def CausalGraph.ofClass (graph : CausalGraph) (variableClass : CausalVariableClass) :
    List CausalVariable :=
  graph.nodes.filter fun node => node.variableClass = variableClass

/-! ## The reasons -/

/-- The loop over the nodes, with the ids before them. -/
def nodeReasons (seen : List String) : List CausalVariable → List String
  | [] => []
  | node :: nodes =>
    (if node.variableId ∈ seen then [s!"duplicate node {node.variableId}"] else []) ++
      nodeReasons (seen ++ [node.variableId]) nodes

/-- The key of an edge among `edgeKeys`. -/
def CausalEdge.key (edge : CausalEdge) : String :=
  s!"{edge.fromVariableId}->{edge.toVariableId}:{edge.edgeType.name}:{edge.provenance.name}"

/-- The loop over the edges, with the keys before them. -/
def edgeReasons (nodeIds : List String) (edgeKeys : List String) : List CausalEdge → List String
  | [] => []
  | edge :: edges =>
    (if edge.fromVariableId ∉ nodeIds ∨ edge.toVariableId ∉ nodeIds then
      [s!"edge {edge.edgeId} references unknown node"] else []) ++
    (if edge.fromVariableId = edge.toVariableId then
      [s!"illegal self-edge {edge.edgeId}"] else []) ++
    (if edge.key ∈ edgeKeys then [s!"duplicate edge {edge.key}"] else []) ++
      edgeReasons nodeIds (edgeKeys ++ [edge.key]) edges

/-- A class that must have a node. -/
def missingReasons (name : String) (nodes : List CausalVariable) : List String :=
  if nodes.length < 1 then [s!"required {name} node missing"] else []

/-- The nodes of a class have the unit of the question. -/
def unitReasons (name : String) (unit : QuantityUnit) (nodes : List CausalVariable) :
    List String :=
  nodes.flatMap fun node =>
    if node.unit ≠ unit then [s!"{name} unit {node.unit.name} != question {unit.name}"] else []

/-- The reasons, in the order in which they are pushed. -/
def reasons (graph : CausalGraph) (question : CausalQuestion) : List String :=
  nodeReasons [] graph.nodes ++
  edgeReasons graph.nodeIds [] graph.edges ++
  missingReasons "INTERVENTION" (graph.ofClass .intervention) ++
  missingReasons "OUTCOME" (graph.ofClass .outcome) ++
  unitReasons "intervention" question.interventionUnit (graph.ofClass .intervention) ++
  unitReasons "outcome" question.outcomeUnit (graph.ofClass .outcome)

/-! ## The search for cycles -/

/-- `adj.get(edge.fromVariableId)?.push(edge.toVariableId)`. -/
def pushEdge (adj : JsMap String (List String)) (edge : CausalEdge) : JsMap String (List String) :=
  match adj.get edge.fromVariableId with
  | some targets => adj.set edge.fromVariableId (targets ++ [edge.toVariableId])
  | none => adj

/-- The targets of each node. -/
def adjacency (graph : CausalGraph) : JsMap String (List String) :=
  graph.edges.foldl pushEdge
    (graph.nodes.foldl (fun adj node => adj.set node.variableId []) JsMap.empty)

/-- `adj.get(id) ?? []`. -/
def targets (graph : CausalGraph) (id : String) : List String :=
  ((adjacency graph).get id).getD []

/-- `hasDirectedCycle`, with a bound on the depth of its recursion. -/
def hasDirectedCycle (graph : CausalGraph) : Option Bool :=
  match dfsAll (targets graph) (graph.nodes.length + graph.edges.length + 1) []
      (adjacency graph).keys with
  | .ok _ => some false
  | .error (.cycle _) => some true
  | .error .outOfFuel => none

/-! ## The validator -/

inductive GraphOutcome where
  | pass
  | block
  deriving DecidableEq, Repr

structure CausalGraphValidationResult where
  outcome : GraphOutcome
  reasons : List String
  deriving DecidableEq, Repr

/-- The error about cycles. -/
def cycleUnsupported (graph : CausalGraph) : CausalError where
  code := .causalGraphCycleUnsupported
  message := "Cyclic SCMs unsupported; refuse to silently break cycles"
  causalGraphId := some graph.causalGraphId

/-- `validateCausalGraph`, `none` where the search would not end. -/
def validateCausalGraph (graph : CausalGraph) (question : CausalQuestion) :
    Option (Except CausalError CausalGraphValidationResult) :=
  match hasDirectedCycle graph with
  | none => none
  | some true => some (.error (cycleUnsupported graph))
  | some false => some (.ok {
      outcome := if (reasons graph question).length = 0 then .pass else .block
      reasons := reasons graph question })

/-! ## The adjacency -/

/-- An edge that leaves a node of the graph. -/
def Affects (graph : CausalGraph) (cause effect : String) : Prop :=
  cause ∈ graph.nodeIds ∧
    ∃ edge ∈ graph.edges, edge.fromVariableId = cause ∧ edge.toVariableId = effect

theorem get_pushEdge (adj : JsMap String (List String)) (edge : CausalEdge) (id : String) :
    (pushEdge adj edge).get id = (adj.get id).map fun targets =>
      targets ++ if edge.fromVariableId = id then [edge.toVariableId] else [] := by
  unfold pushEdge
  by_cases hid : edge.fromVariableId = id
  · subst hid
    cases hget : adj.get edge.fromVariableId with
    | none =>
      change adj.get edge.fromVariableId = _
      rw [hget, Option.map_none]
    | some ids =>
      change (adj.set edge.fromVariableId (ids ++ [edge.toVariableId])).get _ = _
      rw [JsMap.get_set_self, Option.map_some, if_pos rfl]
  · rw [if_neg hid]
    simp only [List.append_nil, Option.map_id']
    split
    · exact JsMap.get_set_ne adj _ hid
    · rfl

theorem get_foldl_pushEdge (edges : List CausalEdge) (adj : JsMap String (List String))
    (id : String) :
    (edges.foldl pushEdge adj).get id = (adj.get id).map fun targets =>
      targets ++ (edges.filter fun edge => edge.fromVariableId = id).map (·.toVariableId) := by
  induction edges generalizing adj with
  | nil => simp
  | cons edge edges ih =>
    rw [List.foldl_cons, ih, get_pushEdge, Option.map_map, List.filter_cons]
    congr 1
    funext ids
    by_cases hid : edge.fromVariableId = id
    · simp [hid]
    · simp [hid]

theorem get_foldl_nodes (nodes : List CausalVariable) (adj : JsMap String (List String))
    (id : String) :
    (nodes.foldl (fun adj node => adj.set node.variableId []) adj).get id =
      if id ∈ nodes.map (·.variableId) then some [] else adj.get id := by
  induction nodes generalizing adj with
  | nil => simp
  | cons node nodes ih =>
    rw [List.foldl_cons, ih, JsMap.get_set, List.map_cons]
    by_cases hid : node.variableId = id
    · subst hid
      simp
    · have hne : id ≠ node.variableId := fun h => hid h.symm
      simp [hid, hne]

/-- A node leads to the ends of its edges, in their order. -/
theorem get_adjacency (graph : CausalGraph) (id : String) :
    (adjacency graph).get id =
      if id ∈ graph.nodeIds then
        some ((graph.edges.filter fun edge => edge.fromVariableId = id).map (·.toVariableId))
      else none := by
  unfold adjacency
  rw [get_foldl_pushEdge, get_foldl_nodes]
  change Option.map _ (if id ∈ graph.nodeIds then _ else _) = _
  split
  · simp
  · simp

theorem mem_targets {graph : CausalGraph} {cause effect : String} :
    effect ∈ targets graph cause ↔ Affects graph cause effect := by
  unfold targets Affects
  rw [get_adjacency]
  by_cases hnode : cause ∈ graph.nodeIds
  · rw [if_pos hnode, Option.getD_some]
    simp [hnode, and_assoc]
  · rw [if_neg hnode]
    simp [hnode]

theorem mem_keys_adjacency {graph : CausalGraph} {id : String} :
    id ∈ (adjacency graph).keys ↔ id ∈ graph.nodeIds := by
  rw [JsMap.mem_keys, get_adjacency]
  split <;> simp_all

/-! ## The search -/

/-- The search ends by itself. -/
theorem search_ends (graph : CausalGraph) : ∃ found, hasDirectedCycle graph = some found := by
  let univ := graph.nodeIds ++ graph.edges.map (·.toVariableId)
  have hclosed : ∀ v ∈ univ, targets graph v ⊆ univ := by
    intro v _ w hw
    obtain ⟨-, edge, hedge, -, rfl⟩ := mem_targets.mp hw
    exact List.mem_append_right _ (List.mem_map_of_mem (f := CausalEdge.toVariableId) hedge)
  have hkeys : (adjacency graph).keys ⊆ univ :=
    fun v hv => List.mem_append_left _ (mem_keys_adjacency.mp hv)
  have hfuel : univ.length < graph.nodes.length + graph.edges.length + 1 := by
    simp only [univ, CausalGraph.nodeIds, List.length_append, List.length_map]
    omega
  unfold hasDirectedCycle
  split
  · exact ⟨_, rfl⟩
  · exact ⟨_, rfl⟩
  next hout => exact absurd hout (dfsAll_ne_outOfFuel hclosed hkeys hfuel)

theorem cyclic_of_found {graph : CausalGraph} (h : hasDirectedCycle graph = some true) :
    ¬Acyclic (Affects graph) := by
  intro hacyclic
  unfold hasDirectedCycle at h
  split at h
  · simp at h
  next path hsearch =>
    obtain ⟨id, hid⟩ := (dfsAll_cycle hsearch).transGen
    exact hacyclic id (TransGen.mono (fun _ _ hmem => mem_targets.mp hmem) _ _ hid)
  · cases h

theorem acyclic_of_not_found {graph : CausalGraph} (h : hasDirectedCycle graph = some false) :
    Acyclic (Affects graph) := by
  unfold hasDirectedCycle at h
  split at h
  next visited hsearch =>
    intro id hcycle
    -- what lies on a cycle has an edge of its own, so it is a node, and the search set out there
    obtain ⟨next, hnext, -⟩ := TransGen.head'_iff.mp hcycle
    have hacc := dfsAll_acc hsearch id (mem_keys_adjacency.mpr hnext.1)
    have hback : TransGen (Below (targets graph)) id id :=
      transGen_swap.mpr (TransGen.mono (fun _ _ haffects => mem_targets.mpr haffects) _ _ hcycle)
    exact not_transGen_self hacc hback
  · simp at h
  · cases h

/-- The search finds a cycle exactly where the edges that leave nodes have one. -/
theorem hasDirectedCycle_eq (graph : CausalGraph) :
    (hasDirectedCycle graph = some true ∧ ¬Acyclic (Affects graph)) ∨
      (hasDirectedCycle graph = some false ∧ Acyclic (Affects graph)) := by
  obtain ⟨found, hfound⟩ := search_ends graph
  cases found with
  | true => exact .inl ⟨hfound, cyclic_of_found hfound⟩
  | false => exact .inr ⟨hfound, acyclic_of_not_found hfound⟩

/-! ## The reasons -/

/-- What the validator asks of a graph besides that it has no cycle. -/
structure WellFormed (graph : CausalGraph) (question : CausalQuestion) : Prop where
  nodes_distinct : graph.nodeIds.Nodup
  ends_known : ∀ edge ∈ graph.edges,
    edge.fromVariableId ∈ graph.nodeIds ∧ edge.toVariableId ∈ graph.nodeIds
  no_self_edge : ∀ edge ∈ graph.edges, edge.fromVariableId ≠ edge.toVariableId
  edges_distinct : (graph.edges.map CausalEdge.key).Nodup
  has_intervention : graph.ofClass .intervention ≠ []
  has_outcome : graph.ofClass .outcome ≠ []
  intervention_unit : ∀ node ∈ graph.ofClass .intervention, node.unit = question.interventionUnit
  outcome_unit : ∀ node ∈ graph.ofClass .outcome, node.unit = question.outcomeUnit

theorem ite_singleton_eq_nil {α : Type} (p : Prop) [Decidable p] (a : α) :
    (if p then [a] else []) = [] ↔ ¬p := by
  split <;> simp_all

/-- The loop over the nodes finds nothing when no id comes twice. -/
theorem nodeReasons_eq_nil (nodes : List CausalVariable) (seen : List String) :
    nodeReasons seen nodes = [] ↔
      (nodes.map (·.variableId)).Nodup ∧ ∀ node ∈ nodes, node.variableId ∉ seen := by
  induction nodes generalizing seen with
  | nil => simp [nodeReasons]
  | cons node nodes ih =>
    rw [nodeReasons, List.append_eq_nil_iff, ite_singleton_eq_nil, ih, List.map_cons,
      List.nodup_cons, List.forall_mem_cons]
    simp only [List.mem_append, List.mem_singleton, not_or, List.mem_map, not_exists, not_and]
    constructor
    · rintro ⟨hseen, hnodup, hrest⟩
      exact ⟨⟨fun other hother => (hrest other hother).2, hnodup⟩, hseen,
        fun other hother => (hrest other hother).1⟩
    · rintro ⟨⟨hne, hnodup⟩, hseen, hrest⟩
      exact ⟨hseen, hnodup, fun other hother => ⟨hrest other hother, hne other hother⟩⟩

/-- The loop over the edges finds nothing when the edges are sound and no key comes twice. -/
theorem edgeReasons_eq_nil (nodeIds : List String) (edges : List CausalEdge)
    (edgeKeys : List String) :
    edgeReasons nodeIds edgeKeys edges = [] ↔
      (∀ edge ∈ edges, edge.fromVariableId ∈ nodeIds ∧ edge.toVariableId ∈ nodeIds) ∧
      (∀ edge ∈ edges, edge.fromVariableId ≠ edge.toVariableId) ∧
      (edges.map CausalEdge.key).Nodup ∧ ∀ edge ∈ edges, edge.key ∉ edgeKeys := by
  induction edges generalizing edgeKeys with
  | nil => simp [edgeReasons]
  | cons edge edges ih =>
    rw [edgeReasons, List.append_eq_nil_iff, List.append_eq_nil_iff, List.append_eq_nil_iff,
      ite_singleton_eq_nil, ite_singleton_eq_nil, ite_singleton_eq_nil, ih, List.map_cons,
      List.nodup_cons, List.forall_mem_cons, List.forall_mem_cons, List.forall_mem_cons]
    simp only [List.mem_append, List.mem_singleton, not_or, not_not, List.mem_map, not_exists,
      not_and]
    constructor
    · rintro ⟨⟨⟨hends, hself⟩, hkey⟩, hknown, hloops, hnodup, hrest⟩
      exact ⟨⟨hends, hknown⟩, ⟨hself, hloops⟩,
        ⟨fun other hother => (hrest other hother).2, hnodup⟩, hkey,
        fun other hother => (hrest other hother).1⟩
    · rintro ⟨⟨hends, hknown⟩, ⟨hself, hloops⟩, ⟨hne, hnodup⟩, hkey, hrest⟩
      exact ⟨⟨⟨hends, hself⟩, hkey⟩, hknown, hloops, hnodup,
        fun other hother => ⟨hrest other hother, hne other hother⟩⟩

theorem missingReasons_eq_nil (name : String) (nodes : List CausalVariable) :
    missingReasons name nodes = [] ↔ nodes ≠ [] := by
  unfold missingReasons
  rw [ite_singleton_eq_nil, Nat.lt_one_iff, List.length_eq_zero_iff]

theorem unitReasons_eq_nil (name : String) (unit : QuantityUnit) (nodes : List CausalVariable) :
    unitReasons name unit nodes = [] ↔ ∀ node ∈ nodes, node.unit = unit := by
  unfold unitReasons
  simp only [List.flatMap_eq_nil_iff, ite_singleton_eq_nil, not_not, ne_eq]

/-- There is no reason exactly when the graph is well formed. -/
theorem reasons_eq_nil (graph : CausalGraph) (question : CausalQuestion) :
    reasons graph question = [] ↔ WellFormed graph question := by
  unfold reasons
  simp only [List.append_eq_nil_iff, nodeReasons_eq_nil, edgeReasons_eq_nil,
    missingReasons_eq_nil, unitReasons_eq_nil]
  constructor
  · rintro ⟨⟨⟨⟨⟨⟨hnodes, -⟩, hends, hself, hkeys, -⟩, hi⟩, ho⟩, hiu⟩, hou⟩
    exact ⟨hnodes, hends, hself, hkeys, hi, ho, hiu, hou⟩
  · rintro ⟨hnodes, hends, hself, hkeys, hi, ho, hiu, hou⟩
    have hnone : ∀ x : String, x ∉ ([] : List String) := fun _ => List.not_mem_nil
    exact ⟨⟨⟨⟨⟨⟨hnodes, fun _ _ => hnone _⟩, hends, hself, hkeys, fun _ _ => hnone _⟩, hi⟩, ho⟩,
      hiu⟩, hou⟩

/-! ## Exactness -/

/-- The variables can be ordered so that every edge goes forward. -/
def Ordered (graph : CausalGraph) : Prop :=
  ∃ rank : String → ℕ, ∀ edge ∈ graph.edges, rank edge.fromVariableId < rank edge.toVariableId

/-- Where every edge leaves a node, a graph has an order exactly when it has no cycle. -/
theorem ordered_iff {graph : CausalGraph}
    (hends : ∀ edge ∈ graph.edges, edge.fromVariableId ∈ graph.nodeIds) :
    Ordered graph ↔ Acyclic (Affects graph) := by
  constructor
  · rintro ⟨rank, hrank⟩
    have hup : GoesUp (Affects graph) rank := by
      rintro cause effect ⟨-, edge, hedge, rfl, rfl⟩
      exact hrank edge hedge
    exact not_cyclic_of_rank hup
  · intro hacyclic
    have huniv : ∀ cause effect, Affects graph cause effect → cause ∈ graph.nodeIds.toFinset :=
      fun cause effect haffects => List.mem_toFinset.mpr haffects.1
    obtain ⟨rank, hrank⟩ := exists_rank hacyclic graph.nodeIds.toFinset huniv
    refine ⟨rank, fun edge hedge => hrank _ _ ?_⟩
    exact ⟨hends edge hedge, edge, hedge, rfl, rfl⟩

/-- What passes is well formed, and its variables have an order. -/
theorem validateCausalGraph_pass {graph : CausalGraph} {question : CausalQuestion}
    {result : CausalGraphValidationResult}
    (h : validateCausalGraph graph question = some (.ok result)) (hpass : result.outcome = .pass) :
    WellFormed graph question ∧ Ordered graph := by
  unfold validateCausalGraph at h
  rcases hasDirectedCycle_eq graph with ⟨hfound, -⟩ | ⟨hfound, hacyclic⟩
  · rw [hfound] at h
    cases h
  · rw [hfound] at h
    obtain rfl := Except.ok.inj (Option.some.inj h)
    have hnone : reasons graph question = [] := by
      by_contra hsome
      rw [← List.length_eq_zero_iff] at hsome
      simp [hsome] at hpass
    have hwell := (reasons_eq_nil graph question).mp hnone
    exact ⟨hwell, (ordered_iff fun edge hedge => (hwell.ends_known edge hedge).1).mpr hacyclic⟩

end Orchestrator.Causal
