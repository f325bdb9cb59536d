import Orchestrator.Collections.Latest
import Orchestrator.Programs.World

/-!
# Cycles of run dependencies

`detectDependencyCycle`, with the path that it reports.

* `adjacency`: the prerequisites of each dependent run;
* `detectDependencyCycle`: the search;
* `detect_agrees`: it answers as `Orchestrator.detectDependencyCycle` does, which keeps no path;
* `cycle_detected_iff`: it finds a cycle exactly where there is one.
-/

namespace Orchestrator.Scheduling

open Collections Graph Relation

/-- An edge: the dependent run waits for its prerequisite. -/
structure DependencyEdge where
  dependentRunId : String
  prerequisiteRunId : String
  deriving DecidableEq, Repr

inductive CycleDetection where
  | acyclic
  | cyclic (path : List String)
  deriving DecidableEq, Repr

/-- The prerequisites of each dependent run, by age. -/
def adjacency (edges : List DependencyEdge) : JsMap String (List String) :=
  edges.foldl
    (fun m edge => m.set edge.dependentRunId
      ((m.get edge.dependentRunId).getD [] ++ [edge.prerequisiteRunId]))
    JsMap.empty

/-- `adjacency.get(node) ?? []`. -/
def prerequisites (edges : List DependencyEdge) (node : String) : List String :=
  ((adjacency edges).get node).getD []

/-- `detectDependencyCycle`, with a bound on the depth of its recursion. -/
def detectDependencyCycle (edges : List DependencyEdge) : Option CycleDetection :=
  match dfsAll (prerequisites edges) (2 * edges.length + 1) [] (adjacency edges).keys with
  | .ok _ => some .acyclic
  | .error (.cycle path) => some (.cyclic path)
  | .error .outOfFuel => none

/-! ## The adjacency -/

/-- There is an edge from one run to the other. -/
def Waits (edges : List DependencyEdge) (dependent prerequisite : String) : Prop :=
  ⟨dependent, prerequisite⟩ ∈ edges

theorem adjacency_concat (edges : List DependencyEdge) (edge : DependencyEdge) :
    adjacency (edges ++ [edge]) = (adjacency edges).set edge.dependentRunId
      (prerequisites edges edge.dependentRunId ++ [edge.prerequisiteRunId]) := by
  unfold adjacency
  rw [List.foldl_append]
  rfl

theorem prerequisites_eq (edges : List DependencyEdge) (node : String) :
    prerequisites edges node =
      (edges.filter fun e => e.dependentRunId = node).map (·.prerequisiteRunId) := by
  induction edges using List.reverseRecOn with
  | nil => rfl
  | append_singleton edges edge ih =>
    rw [prerequisites, adjacency_concat, JsMap.get_set, List.filter_append, List.map_append]
    by_cases hnode : edge.dependentRunId = node
    · subst hnode
      rw [if_pos rfl, Option.getD_some, ih, List.filter_singleton]
      simp
    · rw [if_neg hnode]
      change prerequisites edges node = _
      rw [ih]
      simp [hnode]

theorem mem_prerequisites {edges : List DependencyEdge} {node next : String} :
    next ∈ prerequisites edges node ↔ Waits edges node next := by
  rw [prerequisites_eq, List.mem_map]
  unfold Waits
  constructor
  · rintro ⟨edge, hedge, rfl⟩
    obtain ⟨hmem, hnode⟩ := List.mem_filter.mp hedge
    obtain rfl := of_decide_eq_true hnode
    exact hmem
  · intro hmem
    exact ⟨⟨node, next⟩, List.mem_filter.mpr ⟨hmem, decide_eq_true rfl⟩, rfl⟩

theorem keys_adjacency (edges : List DependencyEdge) :
    (adjacency edges).keys = (edges.map (·.dependentRunId)).eraseDups := by
  induction edges using List.reverseRecOn with
  | nil => rfl
  | append_singleton edges edge ih =>
    rw [adjacency_concat, JsMap.keys_set, ih, List.map_append, List.map_singleton,
      eraseDups_concat]
    by_cases hmem : edge.dependentRunId ∈ edges.map (·.dependentRunId)
    · rw [if_pos hmem, if_pos (List.mem_eraseDups.mpr hmem)]
    · rw [if_neg hmem, if_neg fun h => hmem (List.mem_eraseDups.mp h)]

/-! ## The search -/

/-- A dependent run is among the keys. -/
theorem mem_keys_of_waits {edges : List DependencyEdge} {node next : String}
    (h : Waits edges node next) : node ∈ (adjacency edges).keys := by
  rw [keys_adjacency, List.mem_eraseDups]
  exact List.mem_map_of_mem (f := DependencyEdge.dependentRunId) h

/-- The search ends by itself. -/
theorem detect_ends (edges : List DependencyEdge) :
    ∃ detection, detectDependencyCycle edges = some detection := by
  let univ := edges.map (·.dependentRunId) ++ edges.map (·.prerequisiteRunId)
  have hclosed : ∀ v ∈ univ, prerequisites edges v ⊆ univ := by
    intro v _ w hw
    have hmem : ⟨v, w⟩ ∈ edges := mem_prerequisites.mp hw
    exact List.mem_append_right _ (List.mem_map_of_mem (f := DependencyEdge.prerequisiteRunId) hmem)
  have hkeys : (adjacency edges).keys ⊆ univ := by
    intro v hv
    rw [keys_adjacency, List.mem_eraseDups] at hv
    exact List.mem_append_left _ hv
  have hfuel : univ.length < 2 * edges.length + 1 := by
    simp only [univ, List.length_append, List.length_map]
    omega
  unfold detectDependencyCycle
  split
  · exact ⟨_, rfl⟩
  · exact ⟨_, rfl⟩
  next hout => exact absurd hout (dfsAll_ne_outOfFuel hclosed hkeys hfuel)

/-- The search answers as the one that keeps no path. -/
theorem detect_agrees (edges : List DependencyEdge) :
    Orchestrator.detectDependencyCycle
        (edges.map fun e => (e.dependentRunId, e.prerequisiteRunId)) =
      decide (detectDependencyCycle edges ≠ some .acyclic) := by
  have hsucc : (fun id => ((edges.map fun e => (e.dependentRunId, e.prerequisiteRunId)).filter
      fun e => e.1 = id).map Prod.snd) = prerequisites edges := by
    funext node
    rw [prerequisites_eq, List.filter_map, List.map_map]
    rfl
  have hkeys : ((edges.map fun e => (e.dependentRunId, e.prerequisiteRunId)).map
      Prod.fst).eraseDups = (adjacency edges).keys := by
    rw [keys_adjacency, List.map_map]
    rfl
  unfold Orchestrator.detectDependencyCycle detectDependencyCycle
  dsimp only
  rw [hsucc, hkeys, List.length_map]
  cases dfsAll (prerequisites edges) (2 * edges.length + 1) [] (adjacency edges).keys with
  | ok visited => rfl
  | error stop => cases stop <;> rfl

/-- What is reported is a cycle of the graph. -/
theorem detect_cycle {edges : List DependencyEdge} {path : List String}
    (h : detectDependencyCycle edges = some (.cyclic path)) :
    path.head? = path.getLast? ∧ 2 ≤ path.length ∧ path.IsChain (Waits edges) := by
  unfold detectDependencyCycle at h
  split at h
  · exact nomatch h
  next path' hsearch =>
    obtain rfl := CycleDetection.cyclic.inj (Option.some.inj h)
    obtain ⟨hclosed, hlength, hchain⟩ := dfsAll_cycle hsearch
    exact ⟨hclosed, hlength, hchain.imp fun _ _ hmem => mem_prerequisites.mp hmem⟩
  · exact nomatch h

/-- Where nothing is reported, there is no cycle. -/
theorem not_cyclic_of_detect {edges : List DependencyEdge}
    (h : detectDependencyCycle edges = some .acyclic) (run : String) :
    ¬TransGen (Waits edges) run run := by
  unfold detectDependencyCycle at h
  split at h
  next visited hsearch =>
    intro hcycle
    -- a run on a cycle is a dependent run, from which the search set out
    obtain ⟨next, hnext⟩ : ∃ next, Waits edges run next := by
      rcases TransGen.head'_iff.mp hcycle with ⟨next, hnext, _⟩
      exact ⟨next, hnext⟩
    have hacc := dfsAll_acc hsearch run (mem_keys_of_waits hnext)
    have hback : TransGen (Below (prerequisites edges)) run run := by
      refine transGen_swap.mpr (TransGen.mono (fun a b hab => ?_) _ _ hcycle)
      exact mem_prerequisites.mpr hab
    exact not_transGen_self hacc hback
  · exact nomatch h
  · exact nomatch h

/-! ## Exactness -/

/-- The search ends, it reports a cycle exactly where the graph has one, and what it reports is a
path along the edges that comes back to where it starts. -/
theorem cycle_detected_iff (edges : List DependencyEdge) :
    (∃ detection, detectDependencyCycle edges = some detection) ∧
    ((∃ path, detectDependencyCycle edges = some (.cyclic path)) ↔
      ∃ run, TransGen (Waits edges) run run) ∧
    ∀ path, detectDependencyCycle edges = some (.cyclic path) →
      path.head? = path.getLast? ∧ 2 ≤ path.length ∧ path.IsChain (Waits edges) := by
  refine ⟨detect_ends edges, ⟨?_, ?_⟩, fun path h => detect_cycle h⟩
  · rintro ⟨path, h⟩
    obtain ⟨hclosed, hlength, hchain⟩ := detect_cycle h
    have hcycle : IsCycle (prerequisites edges) path :=
      ⟨hclosed, hlength, hchain.imp fun _ _ hwaits => mem_prerequisites.mpr hwaits⟩
    obtain ⟨run, hrun⟩ := hcycle.transGen
    exact ⟨run, TransGen.mono (fun _ _ hmem => mem_prerequisites.mp hmem) _ _ hrun⟩
  · rintro ⟨run, hrun⟩
    obtain ⟨detection, h⟩ := detect_ends edges
    cases detection with
    | acyclic => exact absurd hrun (not_cyclic_of_detect h run)
    | cyclic path => exact ⟨path, h⟩

/-- A run that waits for itself over another one. -/
example : detectDependencyCycle [⟨"a", "b"⟩, ⟨"b", "c"⟩, ⟨"b", "a"⟩] =
    some (.cyclic ["a", "b", "a"]) := by decide

end Orchestrator.Scheduling
