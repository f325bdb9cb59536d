import Orchestrator.Collections.Latest
import Orchestrator.Graph.ParentChains
import Orchestrator.Programs.Scenario

/-!
# Plans and the decompositions they are compiled from

Titles are resolved through a map that is filled while the children are compiled.

* `FaithfulPlan`: the plan says what the decomposition says;
* `ResolvedTitles`: the titles of a decomposition name what they should;
* `compiled_spec`, `depths_spec`: what the compiled nodes are, child by child;
* `plan_faithful_iff`: a plan that passes the validator is faithful exactly where the titles are
  resolved.
-/

namespace Orchestrator

open Collections Graph

/-! ## What a faithful plan says -/

/-- The title of the parent; one that is empty counts as missing. -/
def DecompositionChildProposal.namedParent (child : DecompositionChildProposal) : Option String :=
  child.parentTitle.filter (· ≠ "")

/-- The node says what the child says. -/
structure NodeOf (program : Program) (child : DecompositionChildProposal)
    (node : ChildProgramNode) : Prop where
  title : node.title = child.title
  requestedOutcome : node.requestedOutcome = child.requestedOutcome
  acceptanceCriteria : node.acceptanceCriteria = child.acceptanceCriteria
  nonGoals : node.nonGoals = child.nonGoals
  constraints : node.constraints = child.constraints
  priority : node.priority = child.priority
  requirement : node.requirement = child.requirement
  requestedProjectId : node.requestedProjectId = child.requestedProjectId.getD program.projectId
  requestedEnvironment :
    node.requestedEnvironment = child.requestedEnvironment.getD program.requestedEnvironment
  requestedCapabilityIds : node.requestedCapabilityIds = child.requestedCapabilityIds
  requestedRepositoryIdentities :
    node.requestedRepositoryIdentities = child.requestedRepositoryIdentities
  requestedBudget : node.requestedBudget = child.requestedBudget
  criterionBindings : node.criterionBindings = child.criterionBindings

/-- The parent of the node with this id, if there is such a node. -/
def parentOf (nodes : List ChildProgramNode) (nodeId : String) : Option (Option String) :=
  (nodes.find? fun n => n.nodeId = nodeId).map (·.parentNodeId)

/-- The plan says what the decomposition says, within the limits of the envelope. -/
structure FaithfulPlan (program : Program) (children : List DecompositionChildProposal)
    (plan : ProgramPlan) : Prop where
  /-- Each child has a node. -/
  nodes : List.Forall₂ (NodeOf program) children plan.nodes
  /-- No two children have one node. -/
  ownNodes : (plan.nodes.map (·.nodeId)).Nodup
  /-- Each dependency is an edge from a node of that title to the node of the child. -/
  dependencies : ∀ (i : ℕ) child node, children[i]? = some child → plan.nodes[i]? = some node →
    ∀ depTitle ∈ child.dependsOnTitles, ∃ source ∈ plan.nodes, source.title = depTitle ∧
      ∃ edge ∈ plan.edges, edge.fromNodeId = source.nodeId ∧ edge.toNodeId = node.nodeId
  /-- The parent of a node is a node of the title that the child names as its parent. -/
  parents : ∀ (i : ℕ) child node, children[i]? = some child → plan.nodes[i]? = some node →
    (child.namedParent = none → node.parentNodeId = none) ∧
      ∀ title ∈ child.namedParent, ∃ parent ∈ plan.nodes,
        parent.title = title ∧ node.parentNodeId = some parent.nodeId
  /-- No node is too deep. -/
  depths : ∀ node ∈ plan.nodes, ∃ d ≤ program.delegationEnvelope.maximumDepth,
    DepthIs (parentOf plan.nodes) node.nodeId d
  /-- No node has too many children. -/
  fanOuts : ∀ node ∈ plan.nodes,
    (plan.nodes.filter fun n => n.parentNodeId = some node.nodeId).length ≤
      program.delegationEnvelope.maximumFanOut

/-! ## What the titles should name -/

/-- One more child, below the latest child before it with the title of its parent. -/
def chainStep (chain : List (String × ℕ)) (child : DecompositionChildProposal) :
    List (String × ℕ) :=
  let parent := child.namedParent.bind (latest Prod.fst chain)
  chain ++ [(child.title, (parent.map fun p => p.2 + 1).getD 0)]

/-- The children with their depths, each below the latest child before it with the title of its
parent. -/
def chainDepths (children : List DecompositionChildProposal) : List (String × ℕ) :=
  children.foldl chainStep []

/-- The titles of a decomposition name what they should. -/
structure ResolvedTitles (maximumDepth : ℕ) (children : List DecompositionChildProposal) :
    Prop where
  /-- A child that depends on something is the last of its title. -/
  dependents : ∀ (i : ℕ) child, children[i]? = some child → child.dependsOnTitles ≠ [] →
    child.title ∉ (children.drop (i + 1)).map (·.title)
  /-- What a child depends on is the title of a child. -/
  dependencies : ∀ child ∈ children, ∀ depTitle ∈ child.dependsOnTitles,
    depTitle ∈ children.map (·.title)
  /-- The parent that a child names is the title of a child before it. -/
  parents : ∀ (i : ℕ) child, children[i]? = some child → ∀ title ∈ child.namedParent,
    title ∈ (children.take i).map (·.title)
  /-- The latest such children are not too deep. -/
  depths : ∀ entry ∈ chainDepths children, entry.2 ≤ maximumDepth

/-! ## Compiled nodes -/

section Compiled

variable {X : ProgramExternal} {program : Program} {version : ℕ}

/-- The nodes and ids of these children. -/
def compiledNodes (X : ProgramExternal) (program : Program) (version : ℕ)
    (children : List DecompositionChildProposal) : CompiledNodes :=
  children.foldl (compileChild X program version) ⟨.empty, []⟩

theorem compiledNodes_concat (children : List DecompositionChildProposal)
    (child : DecompositionChildProposal) :
    compiledNodes X program version (children ++ [child]) =
      compileChild X program version (compiledNodes X program version children) child := by
  unfold compiledNodes
  rw [List.foldl_append, List.foldl_cons, List.foldl_nil]

/-- A child gets one node, entered under its title. -/
theorem compileChild_spec (hdigest : ∀ text, X.digest 24 text ≠ "") (compiled : CompiledNodes)
    (child : DecompositionChildProposal) :
    ∃ node, (compileChild X program version compiled child).nodes = compiled.nodes ++ [node] ∧
      (compileChild X program version compiled child).titleToId =
        compiled.titleToId.set child.title node.nodeId ∧
      NodeOf program child node ∧ node.nodeId ≠ "" ∧
      node.parentNodeId =
        (child.namedParent.bind compiled.titleToId.get).filter (· ≠ "") := by
  refine ⟨_, rfl, rfl, ?_, hdigest _, rfl⟩
  exact ⟨rfl, rfl, rfl, rfl, rfl, rfl, rfl, rfl, rfl, rfl, rfl, rfl, rfl⟩

/-- The compiled nodes and ids, child by child. -/
structure CompiledChildren (program : Program) (children : List DecompositionChildProposal)
    (compiled : CompiledNodes) : Prop where
  nodes : List.Forall₂ (NodeOf program) children compiled.nodes
  titleToId : ∀ title, compiled.titleToId.get title =
    (latest (·.title) compiled.nodes title).map (·.nodeId)
  nodeIds : ∀ node ∈ compiled.nodes, node.nodeId ≠ ""
  parents : ∀ (i : ℕ) child node, children[i]? = some child → compiled.nodes[i]? = some node →
    node.parentNodeId = child.namedParent.bind fun title =>
      (latest (·.title) (compiled.nodes.take i) title).map (·.nodeId)

theorem CompiledChildren.titles {children : List DecompositionChildProposal}
    {compiled : CompiledNodes} (h : CompiledChildren program children compiled) :
    compiled.nodes.map (·.title) = children.map (·.title) := by
  have hnodes := h.nodes
  clear h
  generalize compiled.nodes = nodes at hnodes
  induction hnodes with
  | nil => rfl
  | cons hnode _ ih => rw [List.map_cons, List.map_cons, hnode.title, ih]

/-- Ids that are found are not empty. -/
theorem CompiledChildren.parentId {children : List DecompositionChildProposal} {compiled : CompiledNodes}
    (h : CompiledChildren program children compiled) (child : DecompositionChildProposal) :
    (child.namedParent.bind compiled.titleToId.get).filter (· ≠ "") =
      child.namedParent.bind fun title =>
        (latest (·.title) compiled.nodes title).map (·.nodeId) := by
  have hget : compiled.titleToId.get = fun title =>
      (latest (·.title) compiled.nodes title).map (·.nodeId) := funext h.titleToId
  rw [hget]
  cases hid : child.namedParent.bind fun title =>
      (latest (·.title) compiled.nodes title).map (·.nodeId) with
  | none => rfl
  | some nodeId =>
    obtain ⟨title, _, hid⟩ := Option.bind_eq_some_iff.mp hid
    obtain ⟨node, hlatest, rfl⟩ := Option.map_eq_some_iff.mp hid
    have hne := h.nodeIds node (latest_mem hlatest).1
    exact Option.filter_eq_some_iff.mpr ⟨rfl, decide_eq_true hne⟩

theorem compiled_spec (hdigest : ∀ text, X.digest 24 text ≠ "")
    (children : List DecompositionChildProposal) :
    CompiledChildren program children (compiledNodes X program version children) := by
  induction children using List.reverseRecOn with
  | nil =>
    refine ⟨.nil, fun _ => rfl, fun _ h => ?_, fun i child node h => ?_⟩
    · exact nomatch h
    · simp at h
  | append_singleton children child ih =>
    rw [compiledNodes_concat]
    obtain ⟨node, hnodes, htitles, hnode, hid, hparent⟩ :=
      @compileChild_spec X program version hdigest (compiledNodes X program version children) child
    rw [ih.parentId] at hparent
    have hlength := ih.nodes.length_eq
    refine ⟨?_, fun title => ?_, fun n hn => ?_, fun i c n hc hn => ?_⟩ <;>
      rw [hnodes] at *
    · exact List.rel_append ih.nodes (.cons hnode .nil)
    · rw [htitles, JsMap.get_set, latest_concat, hnode.title, ih.titleToId]
      split <;> rfl
    · rcases List.mem_append.mp hn with hn | hn
      · exact ih.nodeIds n hn
      · exact List.mem_singleton.mp hn ▸ hid
    · rcases Nat.lt_or_ge i children.length with hlt | hge
      · rw [List.getElem?_append_left hlt] at hc
        rw [List.getElem?_append_left (hlength ▸ hlt)] at hn
        rw [List.take_append_of_le_length (by omega)]
        exact ih.parents i c n hc hn
      · -- the new child, whose parent is looked for among all the others
        have hi : i = children.length := by
          have := (List.getElem?_eq_some_iff.mp hc).1
          rw [List.length_append, List.length_singleton] at this
          omega
        subst hi
        rw [List.getElem?_concat_length] at hc
        rw [hlength, List.getElem?_concat_length] at hn
        obtain rfl := Option.some.inj hc
        obtain rfl := Option.some.inj hn
        rw [List.take_left' hlength.symm]
        exact hparent

/-! ## Depths -/

theorem parentOf_append {nodes : List ChildProgramNode} {node : ChildProgramNode} {id : String}
    {q : Option String} (h : parentOf nodes id = some q) : parentOf (nodes ++ [node]) id = some q := by
  unfold parentOf at h ⊢
  obtain ⟨n, hn, rfl⟩ := Option.map_eq_some_iff.mp h
  rw [List.find?_append, hn]
  rfl

theorem parentOf_last {nodes : List ChildProgramNode} {node : ChildProgramNode}
    (h : node.nodeId ∉ nodes.map (·.nodeId)) :
    parentOf (nodes ++ [node]) node.nodeId = some node.parentNodeId := by
  unfold parentOf
  have hnone : nodes.find? (fun n => n.nodeId = node.nodeId) = none := by
    refine List.find?_eq_none.mpr fun n hn heq => h ?_
    rw [← of_decide_eq_true heq]
    exact List.mem_map_of_mem hn
  rw [List.find?_append, hnone]
  simp

/-- Where no id occurs twice, the depths in the forest of the nodes are those of the titles. -/
theorem depths_spec (hdigest : ∀ text, X.digest 24 text ≠ "")
    (children : List DecompositionChildProposal)
    (hnodup : ((compiledNodes X program version children).nodes.map (·.nodeId)).Nodup) :
    List.Forall₂ (fun node entry => node.title = entry.1 ∧
        DepthIs (parentOf (compiledNodes X program version children).nodes) node.nodeId entry.2)
      (compiledNodes X program version children).nodes (chainDepths children) := by
  induction children using List.reverseRecOn with
  | nil => exact .nil
  | append_singleton children child ih =>
    rw [compiledNodes_concat] at hnodup ⊢
    obtain ⟨node, hnodes, _, hnode, _, hparent⟩ :=
      @compileChild_spec X program version hdigest (compiledNodes X program version children) child
    rw [(compiled_spec hdigest children).parentId] at hparent
    rw [hnodes] at hnodup ⊢
    generalize (compiledNodes X program version children).nodes = nodes at *
    rw [List.map_append, List.map_singleton, List.nodup_append] at hnodup
    obtain ⟨hold, _, hdisjoint⟩ := hnodup
    have hnew : node.nodeId ∉ nodes.map (·.nodeId) := fun hmem =>
      hdisjoint _ hmem _ (List.mem_singleton_self _) rfl
    have hchain : chainDepths (children ++ [child]) = chainStep (chainDepths children) child := by
      unfold chainDepths
      rw [List.foldl_append, List.foldl_cons, List.foldl_nil]
    rw [hchain]
    refine List.rel_append ((ih hold).imp fun n e h => ?_) (.cons ⟨hnode.title, ?_⟩ .nil)
    · exact ⟨h.1, h.2.mono fun _ _ => parentOf_append⟩
    · have hself := parentOf_last hnew
      rw [hparent] at hself
      cases hnamed : child.namedParent with
      | none =>
        rw [hnamed] at hself
        exact .root hself
      | some title =>
        rw [hnamed] at hself
        -- the node and the entry that the title leads to stand at the same place
        have hrel := rel_latest (fun _ _ h => h.1) (ih hold) title
        simp only [Option.bind_some] at hself ⊢
        generalize latest (·.title) nodes title = parent at hrel hself
        generalize latest Prod.fst (chainDepths children) title = entry at hrel
        cases hrel with
        | none => exact .root hself
        | some hrel => exact .child hself (hrel.2.mono fun _ _ => parentOf_append)

/-! ## Compiled edges -/

/-- An edge goes from the last node of the title depended on to the last node of the dependent's
title. -/
theorem exists_edge_iff {children : List DecompositionChildProposal} {compiled : CompiledNodes}
    (h : CompiledChildren program children compiled) {fromId toId : String} :
    (∃ edge ∈ children.flatMap (compileEdges compiled.titleToId),
        edge.fromNodeId = fromId ∧ edge.toNodeId = toId) ↔
      ∃ child ∈ children, ∃ depTitle ∈ child.dependsOnTitles, ∃ source target,
        latest (·.title) compiled.nodes depTitle = some source ∧
          latest (·.title) compiled.nodes child.title = some target ∧
            source.nodeId = fromId ∧ target.nodeId = toId := by
  simp only [List.mem_flatMap, compileEdges, List.mem_filterMap, Option.map_eq_some_iff,
    Option.filter_eq_some_iff, h.titleToId]
  constructor
  · rintro ⟨_, ⟨child, hchild, depTitle, hdep, _, ⟨⟨source, hsource, rfl⟩, _⟩, rfl⟩, rfl, rfl⟩
    obtain ⟨target, htarget⟩ : ∃ target, latest (·.title) compiled.nodes child.title = some target :=
      latest_isSome.mpr (h.titles ▸ List.mem_map_of_mem hchild)
    refine ⟨child, hchild, depTitle, hdep, source, target, hsource, htarget, rfl, ?_⟩
    simp [htarget]
  · rintro ⟨child, hchild, depTitle, hdep, source, target, hsource, htarget, rfl, rfl⟩
    have hne := h.nodeIds source (latest_mem hsource).1
    exact ⟨_, ⟨child, hchild, depTitle, hdep, _, ⟨⟨source, hsource, rfl⟩, decide_eq_true hne⟩, rfl⟩,
      rfl, by simp [htarget]⟩

/-! ## Plans that pass -/

section Valid

variable {plan : ProgramPlan}

/-- The validator lets no id occur twice. -/
theorem nodup_of_graphFindings (h : graphFindings plan = []) :
    (plan.nodes.map (·.nodeId)).Nodup := by
  unfold graphFindings at h
  simp only [List.append_eq_nil_iff] at h
  obtain ⟨⟨hids, _⟩, _⟩ := h
  refine nodup_of_length_eraseDups ?_
  rw [List.length_map]
  by_contra hne
  rw [if_pos hne] at hids
  exact nomatch hids

/-- The validator bounds the children of each node, and the nodes without a parent. -/
theorem fanOut_of_sizeFindings (h : sizeFindings program plan = []) (parent : Option String) :
    (plan.nodes.filter fun n => n.parentNodeId = parent).length ≤
      program.delegationEnvelope.maximumFanOut := by
  unfold sizeFindings at h
  simp only [List.append_eq_nil_iff] at h
  obtain ⟨⟨_, hfanOut⟩, _⟩ := h
  have hcount := get_countBy (·.parentNodeId) plan.nodes .empty parent
  rw [JsMap.get_empty, Option.getD_none, Nat.zero_add] at hcount
  rw [← hcount]
  cases hget : (countBy (·.parentNodeId) plan.nodes JsMap.empty).get parent with
  | none => exact Nat.zero_le _
  | some count =>
    have hentry := List.flatMap_eq_nil_iff.mp hfanOut (parent, count) (JsMap.get_eq_some.mp hget)
    by_contra hlt
    have hgt : program.delegationEnvelope.maximumFanOut < count := Nat.lt_of_not_le hlt
    simp only [hgt, if_true] at hentry
    exact nomatch hentry

end Valid

variable {children : List DecompositionChildProposal} {compiled : CompiledNodes}

/-- A child that depends on something has its edges exactly if it is the last of its title and the
titles it depends on are there. -/
theorem edges_iff (h : CompiledChildren program children compiled)
    (hnodup : (compiled.nodes.map (·.nodeId)).Nodup) :
    (∀ (i : ℕ) child node, children[i]? = some child → compiled.nodes[i]? = some node →
      ∀ depTitle ∈ child.dependsOnTitles, ∃ source ∈ compiled.nodes, source.title = depTitle ∧
        ∃ edge ∈ children.flatMap (compileEdges compiled.titleToId),
          edge.fromNodeId = source.nodeId ∧ edge.toNodeId = node.nodeId) ↔
      (∀ (i : ℕ) child, children[i]? = some child → child.dependsOnTitles ≠ [] →
        child.title ∉ (children.drop (i + 1)).map (·.title)) ∧
      ∀ child ∈ children, ∀ depTitle ∈ child.dependsOnTitles,
        depTitle ∈ children.map (·.title) := by
  have hinj : ∀ n ∈ compiled.nodes, ∀ n' ∈ compiled.nodes, n.nodeId = n'.nodeId → n = n' :=
    fun n hn n' hn' heq => List.inj_on_of_nodup_map hnodup hn hn' heq
  have hdrop (i : ℕ) : (compiled.nodes.drop i).map (·.title) = (children.drop i).map (·.title) := by
    rw [List.map_drop, List.map_drop, h.titles]
  constructor
  · intro hedges
    have hnode (i : ℕ) (child) (hchild : children[i]? = some child) :
        ∃ node, compiled.nodes[i]? = some node ∧ NodeOf program child node := by
      have hrel := rel_getElem? h.nodes i
      rw [hchild] at hrel
      cases hn : compiled.nodes[i]? with
      | none => rw [hn] at hrel; exact nomatch hrel
      | some node => rw [hn, Option.rel_some_some] at hrel; exact ⟨node, rfl, hrel⟩
    refine ⟨fun i child hchild hdeps => ?_, fun child hchild depTitle hdep => ?_⟩
    · obtain ⟨depTitle, hdep⟩ := List.exists_mem_of_ne_nil _ hdeps
      obtain ⟨node, hi, hof⟩ := hnode i child hchild
      obtain ⟨source, _, _, edge, hedge, hfrom, hto⟩ := hedges i child node hchild hi depTitle hdep
      obtain ⟨child', _, _, _, _, target, _, htarget, _, hid⟩ :=
        (exists_edge_iff h).mp ⟨edge, hedge, hfrom, hto⟩
      obtain ⟨htargetMem, htargetTitle⟩ := latest_mem htarget
      -- the edge comes to the last node of its title, and that is the node of this child
      obtain rfl := hinj target htargetMem node (List.mem_of_getElem? hi) hid
      obtain ⟨j, hj, _, hlast⟩ := latest_eq_some.mp htarget
      have hij : j = i := by
        refine (List.getElem?_inj ?_ hnodup).mp ?_
        · have hlt := (List.getElem?_eq_some_iff.mp hj).1
          rwa [List.length_map]
        · rw [List.getElem?_map, List.getElem?_map, hj, hi]
      rw [hij, hdrop, ← htargetTitle, hof.title] at hlast
      exact hlast
    · obtain ⟨i, hi⟩ := List.getElem?_of_mem hchild
      obtain ⟨node, hn, _⟩ := hnode i child hi
      obtain ⟨source, hsource, rfl, _⟩ := hedges i child node hi hn depTitle hdep
      exact h.titles ▸ List.mem_map_of_mem hsource
  · rintro ⟨hlast, hdeps⟩ i child node hchild hnode depTitle hdep
    have hmem := List.mem_of_getElem? hchild
    obtain ⟨source, hsource⟩ := latest_isSome.mpr (h.titles ▸ hdeps child hmem depTitle hdep)
    have hof := rel_getElem? h.nodes i
    rw [hchild, hnode, Option.rel_some_some] at hof
    have htarget : latest (·.title) compiled.nodes child.title = some node := by
      refine latest_eq_some.mpr ⟨i, hnode, hof.title, ?_⟩
      rw [hdrop]
      exact hlast i child hchild (List.ne_nil_of_mem hdep)
    exact ⟨source, (latest_mem hsource).1, (latest_mem hsource).2,
      (exists_edge_iff h).mpr ⟨child, hmem, depTitle, hdep, source, node, hsource, htarget, rfl, rfl⟩⟩

/-- The parents that the children name are represented exactly if each is the title of an earlier
child. -/
theorem parents_iff (h : CompiledChildren program children compiled) :
    (∀ (i : ℕ) child node, children[i]? = some child → compiled.nodes[i]? = some node →
      (child.namedParent = none → node.parentNodeId = none) ∧
        ∀ title ∈ child.namedParent, ∃ parent ∈ compiled.nodes,
          parent.title = title ∧ node.parentNodeId = some parent.nodeId) ↔
      ∀ (i : ℕ) child, children[i]? = some child → ∀ title ∈ child.namedParent,
        title ∈ (children.take i).map (·.title) := by
  have htake (i : ℕ) : (children.take i).map (·.title) = (compiled.nodes.take i).map (·.title) := by
    rw [List.map_take, List.map_take, h.titles]
  constructor
  · intro hparents i child hchild title htitle
    have hrel := rel_getElem? h.nodes i
    rw [hchild] at hrel
    cases hnode : compiled.nodes[i]? with
    | none => rw [hnode] at hrel; exact nomatch hrel
    | some node =>
      obtain ⟨parent, _, _, hid⟩ := (hparents i child node hchild hnode).2 title htitle
      rw [h.parents i child node hchild hnode, htitle, Option.bind_some,
        Option.map_eq_some_iff] at hid
      obtain ⟨found, hfound, _⟩ := hid
      rw [htake]
      exact latest_isSome.mp ⟨found, hfound⟩
  · intro htitles i child node hchild hnode
    have hid := h.parents i child node hchild hnode
    refine ⟨fun hnone => ?_, fun title htitle => ?_⟩
    · rw [hid, hnone, Option.bind_none]
    · obtain ⟨parent, hparent⟩ := latest_isSome.mpr (htake i ▸ htitles i child hchild title htitle)
      obtain ⟨hmem, htitleOf⟩ := latest_mem hparent
      refine ⟨parent, List.mem_of_mem_take hmem, htitleOf, ?_⟩
      rw [hid, htitle, Option.bind_some, hparent, Option.map_some]

/-- The nodes are no deeper than allowed exactly if the chains of titles are. -/
theorem depths_iff (hdigest : ∀ text, X.digest 24 text ≠ "") {maximumDepth : ℕ}
    (hnodup : ((compiledNodes X program version children).nodes.map (·.nodeId)).Nodup) :
    (∀ node ∈ (compiledNodes X program version children).nodes, ∃ d ≤ maximumDepth,
      DepthIs (parentOf (compiledNodes X program version children).nodes) node.nodeId d) ↔
      ∀ entry ∈ chainDepths children, entry.2 ≤ maximumDepth := by
  have hdepths := depths_spec hdigest children hnodup
  generalize chainDepths children = chain at hdepths ⊢
  generalize (compiledNodes X program version children).nodes = nodes at hdepths ⊢
  generalize parentOf nodes = parent at hdepths ⊢
  induction hdepths with
  | nil => simp
  | cons h _ ih =>
    rw [List.forall_mem_cons, List.forall_mem_cons]
    refine and_congr ⟨?_, fun hle => ⟨_, hle, h.2⟩⟩ ih
    rintro ⟨d, hle, hd⟩
    exact h.2.unique hd ▸ hle

end Compiled

/-! ## Faithful plans -/

/-- A plan that passes the validator is faithful to its decomposition exactly if dependents are the
last of their titles, dependencies and parents name a child, a parent one before, and the latest
such parents are not too deep. -/
theorem plan_faithful_iff (X : ProgramExternal) (hdigest : ∀ text, X.digest 24 text ≠ "")
    (program : Program) (proposal : DecompositionProposal)
    (programPlanVersion revisionAttempt createdAt : ℕ)
    (hvalid : validateProgramPlan X program (compileProgramPlan X program proposal
      programPlanVersion revisionAttempt createdAt) = []) :
    FaithfulPlan program proposal.children (compileProgramPlan X program proposal
        programPlanVersion revisionAttempt createdAt) ↔
      ResolvedTitles program.delegationEnvelope.maximumDepth proposal.children := by
  have hcompiled := @compiled_spec X program programPlanVersion hdigest proposal.children
  unfold validateProgramPlan at hvalid
  simp only [List.append_eq_nil_iff] at hvalid
  obtain ⟨⟨⟨hgraph, hsize⟩, _⟩, _⟩ := hvalid
  have hnodup := nodup_of_graphFindings hgraph
  constructor
  · intro h
    obtain ⟨hdependents, hdependencies⟩ := (edges_iff hcompiled hnodup).mp h.dependencies
    exact ⟨hdependents, hdependencies, (parents_iff hcompiled).mp h.parents,
      (depths_iff hdigest hnodup).mp h.depths⟩
  · intro h
    exact ⟨hcompiled.nodes, hnodup,
      (edges_iff hcompiled hnodup).mpr ⟨h.dependents, h.dependencies⟩,
      (parents_iff hcompiled).mpr h.parents, (depths_iff hdigest hnodup).mpr h.depths,
      fun node _ => fanOut_of_sizeFindings hsize (some node.nodeId)⟩

/-! ## Two decompositions -/

open ProgramScenario

/-- Digests of the lengths of texts. -/
def lengths : ProgramExternal :=
  { external with digest := fun _ text => "n" ++ toString text.length }

theorem lengths_digest (text : String) : lengths.digest 24 text ≠ "" := by
  intro h
  have hlist := congrArg String.toList h
  rw [show lengths.digest 24 text = "n" ++ toString text.length from rfl, String.toList_append]
    at hlist
  exact nomatch hlist

/-- A program with one root criterion, that is being decomposed. -/
def oneCriterion : Program where
  programId := "prog_1"
  programVersion := 1
  projectId := "project_1"
  requesterId := "rita"
  requestedEnvironment := "local"
  rootIntent := ⟨"all done", ["it works"], [], [], .medium, none⟩
  status := .decomposing
  delegationEnvelope := envelopeFor ["project_1"]
  authorityFreeze := ⟨"bundle_1", "policy_1", "capabilities", "configuration", "profile_1", "budget",
    "repositories", "envelope", 5⟩
  programPlanVersion := none
  programPlanHash := none
  decompositionRevisionCount := 0
  maximumDecompositionRevisions := 1
  paused := false
  failureReasonCode := none
  createdAt := 5
  updatedAt := 5
  recordRevision := 1
  correlationId := "correlation"
  traceId := "trace"
  idempotencyKey := "key"
  contentFingerprint := "fingerprint"

/-- A child with this title, below this one, that depends on these. -/
def titled (title : String) (parentTitle : Option String) (dependsOnTitles : List String) :
    DecompositionChildProposal :=
  { child with title, parentTitle, dependsOnTitles }

/-- The plan of these children. -/
def planOf (children : List DecompositionChildProposal) : ProgramPlan :=
  compileProgramPlan lengths oneCriterion ⟨children, "model", none⟩ 1 0 10

/-- A design, and a release below it that depends on it. -/
def designAndRelease : List DecompositionChildProposal :=
  [titled "design" none [], titled "release" (some "design") ["design"]]

theorem designAndRelease_resolved : ResolvedTitles 2 designAndRelease := by
  have hcases (i : ℕ) (child : DecompositionChildProposal)
      (h : designAndRelease[i]? = some child) :
      i = 0 ∧ child = titled "design" none [] ∨
        i = 1 ∧ child = titled "release" (some "design") ["design"] := by
    match i, h with
    | 0, h => exact .inl ⟨rfl, (Option.some.inj h).symm⟩
    | 1, h => exact .inr ⟨rfl, (Option.some.inj h).symm⟩
  refine ⟨fun i child h _ => ?_, by decide, fun i child h => ?_, by decide⟩
  · obtain ⟨rfl, rfl⟩ | ⟨rfl, rfl⟩ := hcases i child h <;> decide
  · obtain ⟨rfl, rfl⟩ | ⟨rfl, rfl⟩ := hcases i child h <;> decide

set_option maxRecDepth 10000 in
/-- The plan of a design and a release passes and is faithful. -/
theorem plan_faithful_designAndRelease :
    FaithfulPlan oneCriterion designAndRelease (planOf designAndRelease) :=
  (plan_faithful_iff lengths lengths_digest oneCriterion ⟨designAndRelease, "model", none⟩ 1 0 10
    (by decide +kernel)).mpr designAndRelease_resolved

set_option maxRecDepth 10000 in
/-- A build that depends on a design that no child makes passes without its dependency. -/
theorem plan_drops_dependency :
    validateProgramPlan lengths oneCriterion (planOf [titled "build" none ["design"]]) = [] ∧
      ¬FaithfulPlan oneCriterion [titled "build" none ["design"]]
        (planOf [titled "build" none ["design"]]) := by
  refine ⟨by decide +kernel, fun h => ?_⟩
  obtain ⟨source, hsource, htitle, _⟩ := h.dependencies 0 (titled "build" none ["design"]) _ rfl rfl
    "design" (List.mem_singleton_self _)
  have htitles : ∀ n ∈ (planOf [titled "build" none ["design"]]).nodes, n.title = "build" := by
    decide
  exact absurd ((htitles source hsource).symm.trans htitle) (by decide)

end Orchestrator
