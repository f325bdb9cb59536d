import Orchestrator.Collections.JsMap
import Orchestrator.Domain.Execution
import Orchestrator.Graph.DepthFirst
import Mathlib.Data.List.Sort
import Mathlib.Data.List.Perm.Basic

/-!
# The plan dependency graph

`DependencyGraphService.validate`: it rejects duplicate ids, self-dependencies, dependencies
on missing steps and cycles, and groups the steps by their depth. Execution reads the groups only;
the critical path is in `CriticalPath.lean`.

`validate_perm`: the groups hold each step exactly once.
-/

namespace Orchestrator

open Collections Graph

/-- `ProposedStep`, the part the graph reads. -/
structure ProposedStep where
  stepId : String
  dependsOn : List String
  deriving DecidableEq, Repr

namespace DependencyGraphService

/-- The first loop: each step depends on other steps of the proposal only. -/
def checkReferences (byId : JsMap String ProposedStep) : List ProposedStep → Except JsError Unit
  | [] => .ok ()
  | step :: steps =>
    match step.dependsOn.findSome? fun dep =>
        if dep = step.stepId then some (.error s!"Step {step.stepId} depends on itself")
        else if !byId.has dep then
          some (.error s!"Step {step.stepId} depends on missing step {dep}")
        else none with
    | some e => .error e
    | none => checkReferences byId steps

/-- The steps that the step `id` depends on. -/
def dependencies (byId : JsMap String ProposedStep) (id : String) : List String :=
  ((byId.get id).map (·.dependsOn)).getD []

/-- One more than the greatest depth among the dependencies, or `1` without any. -/
def depthAfter (longest : JsMap String ℕ) (deps : List String) : ℕ :=
  if deps = [] then 1 else 1 + (deps.map fun dep => (longest.get dep).getD 0).foldl max 0

/-- The depth of each step, filled in on the way back from its dependencies. -/
def memo (succ : String → List String) : ℕ → JsMap String ℕ → String → JsMap String ℕ
  | 0, longest, _ => longest
  | fuel + 1, longest, id =>
    if longest.has id then longest
    else
      let longest' := (succ id).foldl (memo succ fuel) longest
      longest'.set id (depthAfter longest' (succ id))

/-- The ids at one depth, in the order in which their depths were found. -/
def group (longest : JsMap String ℕ) (depth : ℕ) : List String :=
  (longest.entries.filter fun e => e.2 = depth).map Prod.fst

/-- The groups by increasing depth, each group in locale order. -/
def parallelGroups (X : External) (longest : JsMap String ℕ) : List (List String) :=
  (longest.values.dedup.insertionSort (· ≤ ·)).map fun depth =>
    (group longest depth).insertionSort fun a b => X.localeLe a b = true

/-- `validate`, its `parallelGroups`. -/
def validate (X : External) (steps : List ProposedStep) : Except JsError (List (List String)) :=
  let byId := JsMap.ofList (steps.map fun step => (step.stepId, step))
  let ids := steps.map (·.stepId)
  if byId.entries.length ≠ steps.length then .error (.error "Duplicate step IDs in proposal")
  else
    match checkReferences byId steps with
    | .error e => .error e
    | .ok () =>
      match dfsAll (dependencies byId) (steps.length + 1) [] ids with
      | .error (.cycle path) =>
        .error (.error ("Dependency cycle detected at " ++ path.getLast?.getD ""))
      | .error .outOfFuel => .error (.error "Maximum call stack size exceeded")
      | .ok _ =>
        .ok (parallelGroups X (ids.foldl (memo (dependencies byId) (steps.length + 1)) .empty))

/-! ## The groups hold each step once -/

variable {X : External} {byId : JsMap String ProposedStep}

/-- A step whose references pass depends on steps of the proposal only. -/
theorem checkReferences_ok {steps : List ProposedStep} (h : checkReferences byId steps = .ok ()) :
    ∀ step ∈ steps, ∀ dep ∈ step.dependsOn, byId.has dep = true := by
  induction steps with
  | nil => simp
  | cons step steps ih =>
    rw [checkReferences] at h
    split at h
    · cases h
    · next hnone =>
      rw [List.findSome?_eq_none_iff] at hnone
      intro s hs dep hdep
      rcases List.mem_cons.mp hs with rfl | hs
      · have hd := hnone dep hdep
        by_contra hhas
        simp only [Bool.not_eq_true] at hhas
        simp only [hhas] at hd
        split_ifs at hd with hself hmissing
        exact hmissing rfl
      · exact ih h s hs dep hdep

/-- Filling in depths keeps the ids within a set closed under dependencies, keeps what is there,
and reaches the id it starts from. -/
theorem memo_keys {succ : String → List String} {univ : List String}
    (hclosed : ∀ v ∈ univ, succ v ⊆ univ) (fuel : ℕ) (longest : JsMap String ℕ) (id : String)
    (hid : id ∈ univ) (hkeys : longest.keys ⊆ univ) :
    (memo succ fuel longest id).keys ⊆ univ ∧ longest.keys ⊆ (memo succ fuel longest id).keys ∧
      (0 < fuel → id ∈ (memo succ fuel longest id).keys) := by
  induction fuel generalizing longest id with
  | zero => exact ⟨hkeys, List.Subset.refl _, fun h => absurd h (Nat.lt_irrefl 0)⟩
  | succ fuel ih =>
    have hfold : ∀ (deps : List String) (m : JsMap String ℕ), deps ⊆ univ → m.keys ⊆ univ →
        (deps.foldl (memo succ fuel) m).keys ⊆ univ ∧
          m.keys ⊆ (deps.foldl (memo succ fuel) m).keys := by
      intro deps
      induction deps with
      | nil => exact fun m _ hm => ⟨hm, List.Subset.refl _⟩
      | cons dep deps ihd =>
        intro m hdeps hm
        obtain ⟨h₁, h₂, -⟩ := ih m dep (hdeps (by simp)) hm
        obtain ⟨h₃, h₄⟩ := ihd _ (fun d hd => hdeps (List.mem_cons_of_mem _ hd)) h₁
        exact ⟨h₃, List.Subset.trans h₂ h₄⟩
    rw [memo]
    split
    · next hhas => exact ⟨hkeys, List.Subset.refl _, fun _ => JsMap.mem_keys.mpr hhas⟩
    · obtain ⟨hsub, hkeep⟩ := hfold (succ id) longest (hclosed id hid) hkeys
      refine ⟨?_, ?_, fun _ => JsMap.mem_keys.mpr (by rw [JsMap.get_set_self]; rfl)⟩
      · intro k hk
        rw [JsMap.keys_set] at hk
        split_ifs at hk
        · exact hsub hk
        · rcases List.mem_append.mp hk with hk | hk
          · exact hsub hk
          · exact List.mem_singleton.mp hk ▸ hid
      · intro k hk
        rw [JsMap.keys_set]
        split_ifs
        · exact hkeep hk
        · exact List.mem_append_left _ (hkeep hk)

/-- Filling in the depths of all ids gives just these ids a depth. -/
theorem foldl_memo_keys {succ : String → List String} {univ : List String}
    (hclosed : ∀ v ∈ univ, succ v ⊆ univ) {fuel : ℕ} (hfuel : 0 < fuel) (ids : List String)
    (longest : JsMap String ℕ) (hids : ids ⊆ univ) (hkeys : longest.keys ⊆ univ) :
    (ids.foldl (memo succ fuel) longest).keys ⊆ univ ∧
      longest.keys ⊆ (ids.foldl (memo succ fuel) longest).keys ∧
      ids ⊆ (ids.foldl (memo succ fuel) longest).keys := by
  induction ids generalizing longest with
  | nil => exact ⟨hkeys, List.Subset.refl _, List.nil_subset _⟩
  | cons id ids ih =>
    obtain ⟨h₁, h₂, h₃⟩ := memo_keys hclosed fuel longest id (hids (by simp)) hkeys
    obtain ⟨h₄, h₅, h₆⟩ := ih _ (fun i hi => hids (List.mem_cons_of_mem _ hi)) h₁
    exact ⟨h₄, List.Subset.trans h₂ h₅, List.cons_subset.mpr ⟨h₅ (h₃ hfuel), h₆⟩⟩

/-- An id is in the group of its depth and in no other. -/
theorem mem_group {longest : JsMap String ℕ} {depth : ℕ} {id : String} :
    id ∈ group longest depth ↔ longest.get id = some depth := by
  simp only [group, List.mem_map, List.mem_filter, decide_eq_true_eq, Prod.exists,
    JsMap.get_eq_some]
  constructor
  · rintro ⟨k, d, ⟨he, rfl⟩, rfl⟩
    exact he
  · exact fun he => ⟨id, depth, ⟨he, rfl⟩, rfl⟩

/-- Grouping by depth neither loses nor repeats an id. -/
theorem parallelGroups_perm (longest : JsMap String ℕ) :
    (parallelGroups X longest).flatten.Perm longest.keys := by
  refine (List.perm_ext_iff_of_nodup ?_ longest.keys_nodup).mpr fun id => ?_
  · rw [List.nodup_flatten]
    constructor
    · intro g hg
      obtain ⟨depth, -, rfl⟩ := List.mem_map.mp hg
      refine (List.perm_insertionSort _ _).nodup_iff.mpr ?_
      exact longest.nodup.sublist (List.Sublist.map _ List.filter_sublist)
    · rw [parallelGroups, List.pairwise_map]
      have hnodup : (longest.values.dedup.insertionSort (· ≤ ·)).Nodup :=
        (List.perm_insertionSort _ _).nodup_iff.mpr (List.nodup_dedup _)
      refine hnodup.imp fun {d d'} hne => ?_
      intro id hd hd'
      rw [(List.perm_insertionSort _ _).mem_iff, mem_group] at hd hd'
      rw [hd] at hd'
      exact hne (Option.some.inj hd')
  · simp only [parallelGroups, List.mem_flatten, List.mem_map]
    constructor
    · rintro ⟨g, ⟨depth, -, rfl⟩, hid⟩
      rw [(List.perm_insertionSort _ _).mem_iff, mem_group] at hid
      rw [JsMap.mem_keys, hid]
      rfl
    · intro hid
      obtain ⟨depth, hdepth⟩ := Option.isSome_iff_exists.mp (JsMap.mem_keys.mp hid)
      refine ⟨_, ⟨depth, ?_, rfl⟩, ?_⟩
      · rw [(List.perm_insertionSort _ _).mem_iff, List.mem_dedup, JsMap.mem_values]
        exact ⟨id, hdepth⟩
      · rw [(List.perm_insertionSort _ _).mem_iff, mem_group]
        exact hdepth

/-! ## The steps by id -/

/-- The steps of a proposal by id. -/
def stepsById (steps : List ProposedStep) : JsMap String ProposedStep :=
  JsMap.ofList (steps.map fun step => (step.stepId, step))

variable {steps : List ProposedStep}

theorem get_stepsById (hnodup : (steps.map (·.stepId)).Nodup) {step : ProposedStep}
    (hstep : step ∈ steps) : (stepsById steps).get step.stepId = some step :=
  JsMap.get_ofList (by rw [List.map_map]; exact hnodup) (List.mem_map.mpr ⟨step, hstep, rfl⟩)

theorem get_stepsById_of_notMem {id : String} (hid : id ∉ steps.map (·.stepId)) :
    (stepsById steps).get id = none := by
  rw [stepsById, JsMap.ofList, JsMap.get_foldl_set _ _ (by simpa using hid)]
  rfl

theorem has_stepsById (hnodup : (steps.map (·.stepId)).Nodup) (id : String) :
    (stepsById steps).has id = true ↔ id ∈ steps.map (·.stepId) := by
  constructor
  · intro hhas
    by_contra hid
    rw [JsMap.has, get_stepsById_of_notMem hid] at hhas
    exact nomatch hhas
  · intro hid
    obtain ⟨step, hstep, rfl⟩ := List.mem_map.mp hid
    rw [JsMap.has, get_stepsById hnodup hstep]
    rfl

/-- The map is as large as the proposal exactly when no id occurs twice. -/
theorem length_stepsById_iff :
    (stepsById steps).entries.length = steps.length ↔ (steps.map (·.stepId)).Nodup := by
  have hids : (steps.map fun step => (step.stepId, step)).map Prod.fst = steps.map (·.stepId) :=
    List.map_map
  constructor
  · intro hsize
    rw [← hids]
    apply JsMap.nodup_of_length_ofList
    rw [List.length_map]
    exact le_of_eq hsize.symm
  · intro hnodup
    have hperm : (stepsById steps).keys.Perm (steps.map (·.stepId)) := by
      refine (List.perm_ext_iff_of_nodup (JsMap.keys_nodup _) hnodup).mpr fun id => ?_
      rw [JsMap.mem_keys]
      exact has_stepsById hnodup id
    have hlength := hperm.length_eq
    rw [JsMap.length_keys, List.length_map] at hlength
    exact hlength

/-- Where the references pass, the dependencies of a step are ids of the proposal. -/
theorem dependencies_subset (hnodup : (steps.map (·.stepId)).Nodup)
    (href : checkReferences (stepsById steps) steps = .ok ()) :
    ∀ id ∈ steps.map (·.stepId), dependencies (stepsById steps) id ⊆ steps.map (·.stepId) := by
  intro id hid dep hdep
  obtain ⟨step, hstep, rfl⟩ := List.mem_map.mp hid
  rw [dependencies, get_stepsById hnodup hstep] at hdep
  exact (has_stepsById hnodup dep).mp (checkReferences_ok href step hstep dep hdep)

/-- The accepted proposal has distinct ids, and its groups hold each of them once. -/
theorem validate_perm {steps : List ProposedStep} {groups : List (List String)}
    (h : validate X steps = .ok groups) :
    (steps.map (·.stepId)).Nodup ∧ groups.flatten.Perm (steps.map (·.stepId)) := by
  rw [validate] at h
  change (if (stepsById steps).entries.length ≠ steps.length then _ else _) = _ at h
  split_ifs at h with hsize
  have hnodup : (steps.map (·.stepId)).Nodup := length_stepsById_iff.mp (not_not.mp hsize)
  refine ⟨hnodup, ?_⟩
  split at h
  · cases h
  · next href =>
    split at h
    · cases h
    · cases h
    · cases h
      obtain ⟨h₁, -, h₃⟩ := foldl_memo_keys (dependencies_subset hnodup href)
        (Nat.succ_pos steps.length) (steps.map (·.stepId)) .empty (List.Subset.refl _)
        (List.nil_subset _)
      refine (parallelGroups_perm _).trans ?_
      exact (List.perm_ext_iff_of_nodup (JsMap.keys_nodup _) hnodup).mpr
        fun id => ⟨fun hid => h₁ hid, fun hid => h₃ hid⟩

end DependencyGraphService

end Orchestrator
