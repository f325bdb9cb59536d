import Orchestrator.Graph.Depth
import Orchestrator.Graph.Reachability
import Orchestrator.Planning.DependencyGraph

/-!
# The critical path of a plan

`DependencyGraphService.validate` with everything it returns: the parallel groups and the critical
path, a walk from a deepest step that always goes on to a deepest dependency. The recursions and
the loop are given fuel, and `none` says that it ran out.

* `Fills`: what filling in depths leaves behind, carried over the recursion of `memo`;
* `memoAll_layered`: over an acyclic graph the depths put each step one level above the deepest of
  its dependencies;
* `walk_spec`: the walk is a chain of dependencies that loses one level at each step;
* `validateWithin_exact`: fuel for every step is enough, the proposal passes exactly when its ids are
  distinct, its references resolve and its dependencies are acyclic, and then the groups and the
  path are what they should be.
-/

namespace Orchestrator

open Collections Graph Relation

/-- What `ProposedStepSchema` asks of the part of a step that the graph reads. -/
def ProposedStepSchema (step : ProposedStep) : Prop := step.stepId ≠ ""

instance (step : ProposedStep) : Decidable (ProposedStepSchema step) :=
  inferInstanceAs (Decidable (step.stepId ≠ ""))

/-- `DependencyGraphResult`. -/
structure DependencyGraphResult where
  criticalPath : List String
  parallelGroups : List (List String)
  deriving DecidableEq, Repr

namespace DependencyGraphService

/-- `memo`: the depth of each step is filled in on the way back from its dependencies. -/
def memoWithin (succ : String → List String) :
    ℕ → JsMap String ℕ → String → Option (JsMap String ℕ)
  | 0, _, _ => none
  | fuel + 1, longest, id =>
    if longest.has id then some longest
    else
      match (succ id).foldlM (memoWithin succ fuel) longest with
      | none => none
      | some longest' => some (longest'.set id (depthAfter longest' (succ id)))

/-- `maxDepth`. -/
def maxDepth (longest : JsMap String ℕ) : ℕ := longest.values.foldl max 0

/-- `criticalEnd`: of the deepest steps, the first in locale order. -/
def criticalEnd (X : External) (longest : JsMap String ℕ) : Option String :=
  ((group longest (maxDepth longest)).insertionSort fun a b => X.localeLe a b = true).head?

/-- The depth that the walk reads, `0` for an id without one. -/
def depthOf (longest : JsMap String ℕ) (id : String) : ℕ := (longest.get id).getD 0

/-- The order in which the walk tries dependencies: the deeper first, then locale order. -/
def Sooner (X : External) (longest : JsMap String ℕ) (a b : String) : Prop :=
  depthOf longest b < depthOf longest a ∨
    depthOf longest b = depthOf longest a ∧ X.localeLe a b = true

instance (X : External) (longest : JsMap String ℕ) (a b : String) :
    Decidable (Sooner X longest a b) :=
  inferInstanceAs (Decidable (_ ∨ _))

/-- The `while` loop: `current` goes to the front of the path, and on to a dependency. -/
def walk (X : External) (succ : String → List String) (longest : JsMap String ℕ) :
    ℕ → Option String → List String → Option (List String)
  | 0, _, _ => none
  | _ + 1, none, criticalPath => some criticalPath
  | fuel + 1, some current, criticalPath =>
    -- the empty id is falsy, so the loop stops at it as it does at `undefined`
    if current = "" then some criticalPath
    else if succ current = [] then some (current :: criticalPath)
    else
      walk X succ longest fuel ((succ current).insertionSort (Sooner X longest)).head?
        (current :: criticalPath)

/-- `validate` with `fuel` for its recursions and its loop, `none` where they take more. -/
def validateWithin (X : External) (fuel : ℕ) (steps : List ProposedStep) :
    Option (Except JsError DependencyGraphResult) :=
  let byId := stepsById steps
  let ids := steps.map (·.stepId)
  if byId.entries.length ≠ steps.length then
    some (.error (.error "Duplicate step IDs in proposal"))
  else
    match checkReferences byId steps with
    | .error e => some (.error e)
    | .ok () =>
      match dfsAll (dependencies byId) fuel [] ids with
      | .error (.cycle path) =>
        some (.error (.error ("Dependency cycle detected at " ++ path.getLast?.getD "")))
      | .error .outOfFuel => none
      | .ok _ =>
        match ids.foldlM (memoWithin (dependencies byId) fuel) .empty with
        | none => none
        | some longest =>
          match walk X (dependencies byId) longest fuel (criticalEnd X longest) [] with
          | none => none
          | some criticalPath => some (.ok ⟨criticalPath, parallelGroups X longest⟩)

/-! ## What filling in depths leaves behind -/

variable {succ : String → List String} {longest longest' : JsMap String ℕ}

theorem depthAfter_eq (longest : JsMap String ℕ) (deps : List String) :
    depthAfter longest deps = 1 + deepest (depthOf longest) deps := by
  unfold depthAfter
  split_ifs with hnil
  · rw [hnil]
    rfl
  · rfl

/-- The dependencies of an id with a depth have theirs, and the depth follows from them. -/
def Filled (succ : String → List String) (longest : JsMap String ℕ) : Prop :=
  ∀ id depth, longest.get id = some depth →
    succ id ⊆ longest.keys ∧ depth = depthAfter longest (succ id)

/-- `longest'` comes from `longest` by filling in what `ids` lead to. -/
structure Fills (succ : String → List String) (ids : List String)
    (longest longest' : JsMap String ℕ) : Prop where
  filled : Filled succ longest'
  kept : ∀ id depth, longest.get id = some depth → longest'.get id = some depth
  reached : ids ⊆ longest'.keys
  grown : ∀ id ∈ longest'.keys, id ∈ longest.keys ∨ ∃ start ∈ ids, Graph.Reaches succ start id

theorem Fills.keys_subset {ids : List String} (h : Fills succ ids longest longest') :
    longest.keys ⊆ longest'.keys := by
  intro id hid
  rw [JsMap.mem_keys] at hid ⊢
  obtain ⟨depth, hdepth⟩ := Option.isSome_iff_exists.mp hid
  rw [h.kept id depth hdepth]
  rfl

/-- Depths read from maps that agree on the dependencies agree. -/
theorem depthAfter_congr {deps : List String}
    (h : ∀ dep ∈ deps, longest'.get dep = longest.get dep) :
    depthAfter longest' deps = depthAfter longest deps := by
  have hmap : (deps.map fun dep => (longest'.get dep).getD 0) =
      deps.map fun dep => (longest.get dep).getD 0 :=
    List.map_congr_left fun dep hdep => by rw [h dep hdep]
  unfold depthAfter
  rw [hmap]

/-- Giving a depth to an id that had none, once its dependencies have theirs. -/
theorem Filled.set {id : String} (h : Filled succ longest) (hnew : id ∉ longest.keys)
    (hdeps : succ id ⊆ longest.keys) :
    Filled succ (longest.set id (depthAfter longest (succ id))) := by
  have hkeys : ∀ k ∈ longest.keys, k ∈ (longest.set id (depthAfter longest (succ id))).keys := by
    intro k hk
    rw [JsMap.keys_set, if_neg hnew]
    exact List.mem_append_left _ hk
  have hsame : ∀ deps ⊆ longest.keys,
      depthAfter (longest.set id (depthAfter longest (succ id))) deps = depthAfter longest deps := by
    intro deps hsub
    apply depthAfter_congr
    intro dep hdep
    exact JsMap.get_set_ne _ _ fun heq => hnew (heq ▸ hsub hdep)
  intro k depth hk
  rw [JsMap.get_set] at hk
  split_ifs at hk with heq
  · subst heq
    refine ⟨fun dep hdep => hkeys dep (hdeps hdep), ?_⟩
    rw [hsame _ hdeps]
    exact (Option.some.inj hk).symm
  · obtain ⟨hsub, hdepth⟩ := h k depth hk
    refine ⟨fun dep hdep => hkeys dep (hsub hdep), ?_⟩
    rw [hsame _ hsub]
    exact hdepth

/-- A fold fills in what its ids lead to, when each of its steps does. -/
theorem foldlM_fills {f : JsMap String ℕ → String → Option (JsMap String ℕ)}
    (hf : ∀ m id m', f m id = some m' → Filled succ m → Fills succ [id] m m')
    {ids : List String} (h : ids.foldlM f longest = some longest') (hfilled : Filled succ longest) :
    Fills succ ids longest longest' := by
  induction ids generalizing longest with
  | nil =>
    rw [List.foldlM_nil] at h
    cases h
    exact ⟨hfilled, fun _ _ hk => hk, List.nil_subset _, fun id hid => .inl hid⟩
  | cons id ids ih =>
    rw [List.foldlM_cons] at h
    obtain ⟨middle, hmiddle, hrest⟩ := Option.bind_eq_some_iff.mp h
    have hone := hf longest id middle hmiddle hfilled
    have hmany := ih hrest hone.filled
    refine ⟨hmany.filled, fun k d hk => hmany.kept k d (hone.kept k d hk), ?_, ?_⟩
    · exact List.cons_subset.mpr ⟨hmany.keys_subset (hone.reached (by simp)), hmany.reached⟩
    · intro k hk
      rcases hmany.grown k hk with hmid | ⟨start, hstart, hreach⟩
      · rcases hone.grown k hmid with hold | ⟨start, hstart, hreach⟩
        · exact .inl hold
        · rw [List.mem_singleton] at hstart
          exact .inr ⟨start, by simp [hstart], hreach⟩
      · exact .inr ⟨start, List.mem_cons_of_mem _ hstart, hreach⟩

/-- `memo` fills in what its id leads to. -/
theorem memoWithin_fills (hacyclic : ∀ id, ¬TransGen (fun v w => w ∈ succ v) id id) (fuel : ℕ)
    (longest : JsMap String ℕ) (id : String)
    (longest' : JsMap String ℕ) (h : memoWithin succ fuel longest id = some longest')
    (hfilled : Filled succ longest) : Fills succ [id] longest longest' := by
  induction fuel generalizing longest id longest' with
  | zero => exact nomatch h
  | succ fuel ih =>
    rw [memoWithin] at h
    split at h
    · next hhas =>
      cases h
      exact ⟨hfilled, fun _ _ hk => hk, by simpa using JsMap.mem_keys.mpr hhas, fun k hk => .inl hk⟩
    · next hhas =>
      split at h
      · cases h
      · next middle hmiddle =>
        cases h
        have hdeps : Fills succ (succ id) longest middle :=
          foldlM_fills (fun m k m' => ih m k m') hmiddle hfilled
        -- no dependency leads back to `id`, so the recursion has not filled it in
        have hnew : id ∉ middle.keys := by
          intro hid
          rcases hdeps.grown id hid with hold | ⟨dep, hdep, hback⟩
          · exact hhas (JsMap.mem_keys.mp hold)
          · exact hacyclic id (TransGen.head' hdep hback)
        have hset := hdeps.filled.set hnew hdeps.reached
        refine ⟨hset, ?_, ?_, ?_⟩
        · intro k depth hk
          have hne : id ≠ k := by
            intro heq
            subst heq
            exact hhas (by rw [JsMap.has, hk]; rfl)
          rw [JsMap.get_set_ne _ _ hne]
          exact hdeps.kept k depth hk
        · rw [JsMap.keys_set, if_neg hnew]
          simp
        · intro k hk
          rw [JsMap.keys_set, if_neg hnew, List.mem_append, List.mem_singleton] at hk
          rcases hk with hk | rfl
          · rcases hdeps.grown k hk with hold | ⟨dep, hdep, hreach⟩
            · exact .inl hold
            · exact .inr ⟨id, by simp, ReflTransGen.head hdep hreach⟩
          · exact .inr ⟨k, by simp, ReflTransGen.refl⟩

/-! ## The fuel of the recursion -/

/-- A fold of fillings does not run out of fuel, when none of the fillings does. -/
theorem foldlM_ne_none {f : JsMap String ℕ → String → Option (JsMap String ℕ)} {ids : List String}
    (hf : ∀ id ∈ ids, ∀ m, f m id ≠ none) (longest : JsMap String ℕ) :
    ids.foldlM f longest ≠ none := by
  induction ids generalizing longest with
  | nil => simp
  | cons id ids ih =>
    rw [List.foldlM_cons]
    obtain ⟨middle, hmiddle⟩ := Option.ne_none_iff_exists'.mp (hf id (by simp) longest)
    rw [hmiddle]
    exact ih (fun w hw => hf w (List.mem_cons_of_mem _ hw)) middle

/-- With all ids in `univ`, fuel for every id off the way to `id` is enough. -/
theorem memoWithin_ne_none {univ : List String}
    (hacyclic : ∀ id, ¬TransGen (fun v w => w ∈ succ v) id id)
    (hclosed : ∀ v ∈ univ, succ v ⊆ univ) (fuel : ℕ) (stack : List String)
    (longest : JsMap String ℕ) (id : String) (hid : id ∈ univ) (hnodup : stack.Nodup)
    (hstack : stack ⊆ univ) (hway : ∀ v ∈ stack, TransGen (fun v w => w ∈ succ v) v id)
    (hfuel : univ.length < fuel + stack.length) : memoWithin succ fuel longest id ≠ none := by
  induction fuel generalizing stack longest id with
  | zero =>
    have hle := (List.subperm_of_subset hnodup hstack).length_le
    omega
  | succ fuel ih =>
    have hfold : (succ id).foldlM (memoWithin succ fuel) longest ≠ none := by
      apply foldlM_ne_none
      intro dep hdep m
      -- the way to `dep` goes through `id`, which is not on the way to itself
      have hnew : id ∉ stack := fun hmem => hacyclic id (hway id hmem)
      refine ih (id :: stack) m dep (hclosed id hid hdep) (hnodup.cons hnew)
        (List.cons_subset.mpr ⟨hid, hstack⟩) ?_ (by simp only [List.length_cons]; omega)
      intro v hv
      rcases List.mem_cons.mp hv with rfl | hv
      · exact TransGen.single hdep
      · exact (hway v hv).tail hdep
    rw [memoWithin]
    split_ifs
    · simp
    · split
      · next hnone => exact absurd hnone hfold
      · simp

/-! ## The depths of an acyclic graph -/

variable {univ : List String}

/-- Filling in the depths of all ids puts each one level above the deepest of its dependencies. -/
theorem memoAll_layered (hacyclic : ∀ id, ¬TransGen (fun v w => w ∈ succ v) id id)
    (hclosed : ∀ v ∈ univ, succ v ⊆ univ) {fuel : ℕ} (hfuel : univ.length < fuel) :
    ∃ longest, univ.foldlM (memoWithin succ fuel) .empty = some longest ∧
      (∀ id, id ∈ longest.keys ↔ id ∈ univ) ∧ Layered succ univ (depthOf longest) := by
  have hsome : univ.foldlM (memoWithin succ fuel) .empty ≠ none := by
    apply foldlM_ne_none
    intro id hid m
    exact memoWithin_ne_none hacyclic hclosed fuel [] m id hid List.nodup_nil
      (List.nil_subset _) (fun v hv => absurd hv List.not_mem_nil) (by simpa using hfuel)
  obtain ⟨longest, hlongest⟩ := Option.ne_none_iff_exists'.mp hsome
  have hfills : Fills succ univ .empty longest := by
    refine foldlM_fills (fun m id m' => memoWithin_fills hacyclic fuel m id m') hlongest ?_
    intro id depth hdepth
    exact nomatch hdepth
  refine ⟨longest, hlongest, fun id => ⟨?_, fun hid => hfills.reached hid⟩, ?_⟩
  · intro hid
    rcases hfills.grown id hid with hold | ⟨start, hstart, hreach⟩
    · exact absurd hold List.not_mem_nil
    · clear hid
      induction hreach with
      | refl => exact hstart
      | tail _ hedge ih => exact hclosed _ ih hedge
  · intro id hid
    obtain ⟨depth, hdepth⟩ := Option.isSome_iff_exists.mp (JsMap.mem_keys.mp (hfills.reached hid))
    rw [← depthAfter_eq, depthOf, hdepth]
    exact (hfills.filled id depth hdepth).2

/-- A fold that never runs out of fuel is the fold without the check. -/
theorem foldl_of_foldlM {f : JsMap String ℕ → String → Option (JsMap String ℕ)}
    {g : JsMap String ℕ → String → JsMap String ℕ}
    (hfg : ∀ m id m', f m id = some m' → g m id = m') {ids : List String}
    (h : ids.foldlM f longest = some longest') : ids.foldl g longest = longest' := by
  induction ids generalizing longest with
  | nil =>
    rw [List.foldlM_nil] at h
    exact Option.some.inj h
  | cons id ids ih =>
    rw [List.foldlM_cons] at h
    obtain ⟨middle, hmiddle, hrest⟩ := Option.bind_eq_some_iff.mp h
    rw [List.foldl_cons, hfg longest id middle hmiddle]
    exact ih hrest

/-- The recursion with fuel to spare gives the depths that `validate` groups by. -/
theorem memo_of_memoWithin (fuel : ℕ) (longest : JsMap String ℕ) (id : String)
    (longest' : JsMap String ℕ) (h : memoWithin succ fuel longest id = some longest') :
    memo succ fuel longest id = longest' := by
  induction fuel generalizing longest id longest' with
  | zero => exact nomatch h
  | succ fuel ih =>
    rw [memoWithin] at h
    rw [memo]
    split at h
    · next hhas =>
      rw [if_pos hhas]
      exact Option.some.inj h
    · next hhas =>
      rw [if_neg hhas]
      split at h
      · cases h
      · next middle hmiddle =>
        have hfold : (succ id).foldl (memo succ fuel) longest = middle := foldl_of_foldlM ih hmiddle
        rw [hfold]
        exact Option.some.inj h

/-! ## The groups -/

theorem depthOf_of_get {id : String} {depth : ℕ} (h : longest.get id = some depth) :
    depthOf longest id = depth := by
  rw [depthOf, h]
  rfl

theorem le_maxDepth {depth : ℕ} (h : depth ∈ longest.values) : depth ≤ maxDepth longest :=
  ((foldl_max_le_iff longest.values 0 (maxDepth longest)).mp (le_refl _)).2 depth h

/-- Where there is a step at all, some step is as deep as the deepest. -/
theorem exists_maxDepth (h : longest.values ≠ []) : maxDepth longest ∈ longest.values := by
  obtain ⟨depth, hmem, hdepth⟩ := @exists_deepest ℕ (fun d => d) longest.values h
  have heq : maxDepth longest = depth := by
    rw [hdepth, maxDepth, deepest, List.map_id']
  rw [heq]
  exact hmem

/-- The depths that occur are those from `1` to the greatest. -/
theorem mem_values_iff (hkeys : ∀ id, id ∈ longest.keys ↔ id ∈ univ)
    (hclosed : ∀ v ∈ univ, succ v ⊆ univ) (hlayered : Layered succ univ (depthOf longest))
    (depth : ℕ) : depth ∈ longest.values ↔ 1 ≤ depth ∧ depth ≤ maxDepth longest := by
  constructor
  · intro hdepth
    refine ⟨?_, le_maxDepth hdepth⟩
    obtain ⟨id, hid⟩ := JsMap.mem_values.mp hdepth
    have huniv : id ∈ univ := (hkeys id).mp (JsMap.mem_keys.mpr (by rw [hid]; rfl))
    have hlevel := hlayered id huniv
    rw [depthOf_of_get hid] at hlevel
    omega
  · rintro ⟨hpos, hle⟩
    have hne : longest.values ≠ [] := by
      intro hnil
      rw [maxDepth, hnil, List.foldl_nil] at hle
      omega
    obtain ⟨id, hid⟩ := JsMap.mem_values.mp (exists_maxDepth hne)
    have huniv : id ∈ univ := (hkeys id).mp (JsMap.mem_keys.mpr (by rw [hid]; rfl))
    obtain ⟨v, hv, hlevel⟩ := hlayered.exists_level hclosed huniv hpos
      (by rw [depthOf_of_get hid]; exact hle)
    obtain ⟨d, hd⟩ := Option.isSome_iff_exists.mp (JsMap.mem_keys.mp ((hkeys v).mpr hv))
    rw [depthOf_of_get hd] at hlevel
    exact JsMap.mem_values.mpr ⟨v, hlevel ▸ hd⟩

/-- There is one group for each depth from `1` to the greatest, in this order. -/
theorem parallelGroups_eq {X : External} (hkeys : ∀ id, id ∈ longest.keys ↔ id ∈ univ)
    (hclosed : ∀ v ∈ univ, succ v ⊆ univ) (hlayered : Layered succ univ (depthOf longest)) :
    parallelGroups X longest = (List.range' 1 (maxDepth longest)).map fun depth =>
      (group longest depth).insertionSort fun a b => X.localeLe a b = true := by
  have hsorted : (longest.values.dedup.insertionSort (· ≤ ·)).Pairwise (· ≤ ·) :=
    List.pairwise_insertionSort _ _
  have hrange : (List.range' 1 (maxDepth longest)).Pairwise (· ≤ ·) :=
    List.pairwise_le_range'
  have hnodup : (longest.values.dedup.insertionSort (· ≤ ·)).Nodup :=
    (List.perm_insertionSort _ _).nodup_iff.mpr (List.nodup_dedup _)
  have hperm : (longest.values.dedup.insertionSort (· ≤ ·)).Perm
      (List.range' 1 (maxDepth longest)) := by
    refine (List.perm_ext_iff_of_nodup hnodup List.nodup_range').mpr fun depth => ?_
    rw [(List.perm_insertionSort _ _).mem_iff, List.mem_dedup,
      mem_values_iff hkeys hclosed hlayered, List.mem_range'_1]
    omega
  unfold parallelGroups
  rw [hperm.eq_of_pairwise (fun a b _ _ hab hba => le_antisymm hab hba) hsorted hrange]

/-- The group at an index holds the ids one level deeper. -/
theorem parallelGroups_getElem {X : External} (hkeys : ∀ id, id ∈ longest.keys ↔ id ∈ univ)
    (hclosed : ∀ v ∈ univ, succ v ⊆ univ) (hlayered : Layered succ univ (depthOf longest))
    {i : ℕ} {ids : List String} (h : (parallelGroups X longest)[i]? = some ids) (id : String) :
    id ∈ ids ↔ longest.get id = some (i + 1) := by
  rw [parallelGroups_eq hkeys hclosed hlayered, List.getElem?_map] at h
  obtain ⟨depth, hdepth, rfl⟩ := Option.map_eq_some_iff.mp h
  obtain ⟨hi, heq⟩ := List.getElem?_eq_some_iff.mp hdepth
  rw [List.getElem_range', Nat.one_mul, Nat.add_comm] at heq
  rw [(List.perm_insertionSort _ _).mem_iff, mem_group, heq]

/-- Each id has its group, at the index one less than its depth. -/
theorem exists_group {X : External} (hkeys : ∀ id, id ∈ longest.keys ↔ id ∈ univ)
    (hclosed : ∀ v ∈ univ, succ v ⊆ univ) (hlayered : Layered succ univ (depthOf longest))
    {id : String} (hid : id ∈ univ) :
    ∃ ids, (parallelGroups X longest)[depthOf longest id - 1]? = some ids ∧ id ∈ ids := by
  have hperm := parallelGroups_perm (X := X) longest
  obtain ⟨ids, hids, hmem⟩ := List.mem_flatten.mp (hperm.mem_iff.mpr ((hkeys id).mpr hid))
  obtain ⟨i, hi⟩ := List.mem_iff_getElem?.mp hids
  have hdepth := (parallelGroups_getElem hkeys hclosed hlayered hi id).mp hmem
  have hindex : depthOf longest id - 1 = i := by
    rw [depthOf_of_get hdepth]
    omega
  exact ⟨ids, by rw [hindex]; exact hi, hmem⟩

/-! ## The walk -/

/-- The dependency that the walk goes on to is one of the deepest. -/
theorem head_sooner {X : External} {deps : List String} (hdeps : deps ≠ []) :
    ∃ next ∈ deps, (deps.insertionSort (Sooner X longest)).head? = some next ∧
      ∀ dep ∈ deps, depthOf longest dep ≤ depthOf longest next := by
  induction deps with
  | nil => exact absurd rfl hdeps
  | cons dep deps ih =>
    rw [List.insertionSort_cons]
    by_cases hnil : deps = []
    · subst hnil
      exact ⟨dep, by simp, rfl, by simp⟩
    · obtain ⟨next, hnext, hhead, hdeep⟩ := ih hnil
      obtain ⟨rest, hrest⟩ := List.head?_eq_some_iff.mp hhead
      rw [hrest, List.orderedInsert_cons]
      split_ifs with hsooner
      · refine ⟨dep, by simp, rfl, ?_⟩
        have hle : depthOf longest next ≤ depthOf longest dep := by
          rcases hsooner with hlt | ⟨heq, -⟩
          · exact Nat.le_of_lt hlt
          · exact Nat.le_of_eq heq
        intro d hd
        rcases List.mem_cons.mp hd with rfl | hd
        · exact le_refl _
        · exact le_trans (hdeep d hd) hle
      · refine ⟨next, List.mem_cons_of_mem _ hnext, rfl, ?_⟩
        intro d hd
        rcases List.mem_cons.mp hd with rfl | hd
        · by_contra hlt
          exact hsooner (.inl (Nat.lt_of_not_le hlt))
        · exact hdeep d hd

/-- The walk from `id` is a chain of dependencies with one step on each level below. -/
theorem walk_spec {X : External} (hclosed : ∀ v ∈ univ, succ v ⊆ univ)
    (hlayered : Layered succ univ (depthOf longest)) (hnonempty : ∀ v ∈ univ, v ≠ "") (fuel : ℕ)
    (id : String) (path : List String) (hid : id ∈ univ) (hfuel : depthOf longest id ≤ fuel)
    (hchain : (id :: path).IsChain fun a b => a ∈ succ b) (hpath : path ⊆ univ) :
    ∃ criticalPath, walk X succ longest fuel (some id) path = some criticalPath ∧
      criticalPath.length = depthOf longest id + path.length ∧
      (criticalPath.IsChain fun a b => a ∈ succ b) ∧ criticalPath ⊆ univ := by
  have hlevel := hlayered id hid
  induction fuel generalizing id path with
  | zero => omega
  | succ fuel ih =>
    have hsub : id :: path ⊆ univ := List.cons_subset.mpr ⟨hid, hpath⟩
    rw [walk, if_neg (hnonempty id hid)]
    split_ifs with hnil
    · refine ⟨id :: path, rfl, ?_, hchain, hsub⟩
      rw [hnil] at hlevel
      rw [hlevel, List.length_cons, Nat.add_comm]
      rfl
    · obtain ⟨next, hnext, hhead, hdeep⟩ := @head_sooner longest X (succ id) hnil
      have hdepth : depthOf longest id = depthOf longest next + 1 :=
        hlayered.eq_succ_of_deepest hid hnext hdeep
      have hin : next ∈ univ := hclosed id hid hnext
      rw [hhead]
      obtain ⟨criticalPath, hwalk, hlength, hrest⟩ := ih next (id :: path) hin (by omega)
        (List.isChain_cons_cons.mpr ⟨hnext, hchain⟩) hsub (hlayered next hin)
      refine ⟨criticalPath, hwalk, ?_, hrest⟩
      rw [hlength, List.length_cons]
      omega

/-- The walk from the critical end is a chain of dependencies over all the levels. -/
theorem walk_criticalEnd {X : External} (hkeys : ∀ id, id ∈ longest.keys ↔ id ∈ univ)
    (hclosed : ∀ v ∈ univ, succ v ⊆ univ) (hlayered : Layered succ univ (depthOf longest))
    (hnonempty : ∀ v ∈ univ, v ≠ "") {fuel : ℕ} (hfuel : univ.length < fuel) :
    ∃ criticalPath, walk X succ longest fuel (criticalEnd X longest) [] = some criticalPath ∧
      criticalPath.length = maxDepth longest ∧
      (criticalPath.IsChain fun a b => a ∈ succ b) ∧ criticalPath ⊆ univ := by
  by_cases hnil : longest.values = []
  · have hmax : maxDepth longest = 0 := by
      rw [maxDepth, hnil]
      rfl
    have hentries : longest.entries = [] := List.map_eq_nil_iff.mp hnil
    have hend : criticalEnd X longest = none := by
      rw [criticalEnd, group, hentries]
      rfl
    obtain ⟨fuel, rfl⟩ : ∃ n, fuel = n + 1 := ⟨fuel - 1, by omega⟩
    rw [hend, hmax]
    exact ⟨[], rfl, rfl, List.isChain_nil, List.nil_subset _⟩
  · obtain ⟨deep, hdeep⟩ := JsMap.mem_values.mp (exists_maxDepth hnil)
    have hne : group longest (maxDepth longest) ≠ [] :=
      List.ne_nil_of_mem (mem_group.mpr hdeep)
    have hsort : ((group longest (maxDepth longest)).insertionSort
        fun a b => X.localeLe a b = true) ≠ [] := by
      intro hempty
      exact hne (List.perm_nil.mp (hempty ▸ (List.perm_insertionSort _ _).symm))
    obtain ⟨id, hend⟩ := Option.ne_none_iff_exists'.mp (mt List.head?_eq_none_iff.mp hsort)
    have hmem : id ∈ group longest (maxDepth longest) :=
      (List.perm_insertionSort _ _).mem_iff.mp (List.mem_of_mem_head? hend)
    rw [mem_group] at hmem
    have hid : id ∈ univ := (hkeys id).mp (JsMap.mem_keys.mpr (by rw [hmem]; rfl))
    have hdepth : depthOf longest id = maxDepth longest := depthOf_of_get hmem
    have hle : depthOf longest id ≤ univ.length := hlayered.depth_le_length hclosed hid
    obtain ⟨criticalPath, hwalk, hlength, hrest⟩ := walk_spec (X := X) hclosed hlayered hnonempty
      fuel id [] hid (by omega) (List.isChain_singleton _) (List.nil_subset _)
    refine ⟨criticalPath, ?_, ?_, hrest⟩
    · rw [criticalEnd, hend]
      exact hwalk
    · rw [hlength, hdepth]
      rfl

/-! ## What validation settles -/

variable {steps : List ProposedStep}

/-- The step `a` names `b` among its dependencies. -/
def DependsOn (steps : List ProposedStep) (a b : String) : Prop :=
  ∃ step ∈ steps, step.stepId = a ∧ b ∈ step.dependsOn

/-- What makes the dependencies of a proposal a graph that can be planned. -/
structure Plannable (steps : List ProposedStep) : Prop where
  unique : (steps.map (·.stepId)).Nodup
  references : ∀ step ∈ steps, ∀ dep ∈ step.dependsOn, dep ∈ steps.map (·.stepId)
  acyclic : ∀ id, ¬TransGen (DependsOn steps) id id

/-- What the groups and the critical path of a proposal are for: the groups hold each step once,
after the groups of its dependencies, and the path is a longest chain of dependencies. -/
structure Describes (steps : List ProposedStep) (result : DependencyGraphResult) : Prop where
  partition : result.parallelGroups.flatten.Perm (steps.map (·.stepId))
  inhabited : ∀ ids ∈ result.parallelGroups, ids ≠ []
  earlier : ∀ step ∈ steps, ∀ dep ∈ step.dependsOn, ∀ (i : ℕ) (ids : List String),
    result.parallelGroups[i]? = some ids → step.stepId ∈ ids →
      ∃ j < i, ∃ ids', result.parallelGroups[j]? = some ids' ∧ dep ∈ ids'
  path : result.criticalPath ⊆ steps.map (·.stepId)
  chain : result.criticalPath.IsChain fun a b => DependsOn steps b a
  length : result.criticalPath.length = result.parallelGroups.length
  longest : ∀ chain ⊆ steps.map (·.stepId), (chain.IsChain fun a b => DependsOn steps b a) →
    chain.length ≤ result.criticalPath.length

theorem dependsOn_iff (hnodup : (steps.map (·.stepId)).Nodup) (a b : String) :
    DependsOn steps a b ↔ b ∈ dependencies (stepsById steps) a := by
  constructor
  · rintro ⟨step, hstep, rfl, hb⟩
    rw [dependencies, get_stepsById hnodup hstep]
    exact hb
  · intro hb
    by_cases ha : a ∈ steps.map (·.stepId)
    · obtain ⟨step, hstep, rfl⟩ := List.mem_map.mp ha
      rw [dependencies, get_stepsById hnodup hstep] at hb
      exact ⟨step, hstep, rfl, hb⟩
    · rw [dependencies, get_stepsById_of_notMem ha] at hb
      exact absurd hb List.not_mem_nil

/-- The references of a proposal that can be planned pass. -/
theorem Plannable.checkReferences_ok (h : Plannable steps) :
    checkReferences (stepsById steps) steps = .ok () := by
  have hall : ∀ part ⊆ steps, checkReferences (stepsById steps) part = .ok () := by
    intro part hpart
    induction part with
    | nil => rfl
    | cons step part ih =>
      obtain ⟨hstep, hrest⟩ := List.cons_subset.mp hpart
      rw [checkReferences]
      split
      · next e he =>
        obtain ⟨dep, hdep, hfound⟩ := List.exists_of_findSome?_eq_some he
        have hself : dep ≠ step.stepId := by
          intro heq
          exact h.acyclic step.stepId (TransGen.single ⟨step, hstep, rfl, heq ▸ hdep⟩)
        have hhas : (stepsById steps).has dep = true :=
          (has_stepsById h.unique dep).mpr (h.references step hstep dep hdep)
        rw [if_neg hself, hhas] at hfound
        cases hfound
      · exact ih hrest
  exact hall steps (List.Subset.refl _)

/-- A search that stops at a cycle has found a step that depends on itself. -/
theorem not_plannable_of_cycle (hnodup : (steps.map (·.stepId)).Nodup) {fuel : ℕ}
    {visited ids path : List String}
    (h : dfsAll (dependencies (stepsById steps)) fuel visited ids = .error (.cycle path)) :
    ¬Plannable steps := by
  intro hplan
  obtain ⟨id, hcycle⟩ := (dfsAll_cycle h).transGen
  refine hplan.acyclic id (TransGen.mono ?_ id id hcycle)
  intro a b hab
  exact (dependsOn_iff hnodup a b).mpr hab

/-- A search that finishes shows the proposal to be plannable. -/
theorem plannable_of_visited (hnodup : (steps.map (·.stepId)).Nodup)
    (href : checkReferences (stepsById steps) steps = .ok ()) {fuel : ℕ} {visited : List String}
    (h : dfsAll (dependencies (stepsById steps)) fuel [] (steps.map (·.stepId)) = .ok visited) :
    Plannable steps where
  unique := hnodup
  references := fun step hstep dep hdep =>
    (has_stepsById hnodup dep).mp (checkReferences_ok href step hstep dep hdep)
  acyclic := by
    intro id hcycle
    have hid : id ∈ steps.map (·.stepId) := by
      obtain ⟨b, ⟨step, hstep, rfl, -⟩, -⟩ := TransGen.head'_iff.mp hcycle
      exact List.mem_map.mpr ⟨step, hstep, rfl⟩
    refine not_transGen_self (dfsAll_acc h id hid) ?_
    rw [← transGen_swap]
    exact TransGen.mono (fun a b hab => (dependsOn_iff hnodup a b).mp hab) id id hcycle

/-- The groups and the path of a proposal that can be planned describe it. -/
theorem describes (X : External) (h : Plannable steps)
    (hsteps : ∀ step ∈ steps, ProposedStepSchema step)
    {fuel : ℕ} (hfuel : steps.length < fuel) :
    ∃ longest criticalPath,
      (steps.map (·.stepId)).foldlM (memoWithin (dependencies (stepsById steps)) fuel) .empty =
        some longest ∧
      walk X (dependencies (stepsById steps)) longest fuel (criticalEnd X longest) [] =
        some criticalPath ∧
      Describes steps ⟨criticalPath, parallelGroups X longest⟩ := by
  have hclosed := dependencies_subset h.unique h.checkReferences_ok
  have hedge := dependsOn_iff h.unique
  have hfuel' : (steps.map (·.stepId)).length < fuel := by rw [List.length_map]; exact hfuel
  have hacyclic : ∀ id,
      ¬TransGen (fun v w => w ∈ dependencies (stepsById steps) v) id id := fun id hcycle =>
    h.acyclic id (TransGen.mono (fun a b hab => (hedge a b).mpr hab) id id hcycle)
  have hnonempty : ∀ id ∈ steps.map (·.stepId), id ≠ "" := by
    intro id hid
    obtain ⟨step, hstep, rfl⟩ := List.mem_map.mp hid
    exact hsteps step hstep
  obtain ⟨longest, hlongest, hkeys, hlayered⟩ := memoAll_layered hacyclic hclosed hfuel'
  obtain ⟨criticalPath, hwalk, hlength, hchain, hpath⟩ :=
    walk_criticalEnd (X := X) hkeys hclosed hlayered hnonempty hfuel'
  have hgroups := parallelGroups_eq (X := X) hkeys hclosed hlayered
  refine ⟨longest, criticalPath, hlongest, hwalk, ?_⟩
  constructor
  case partition =>
    refine (parallelGroups_perm longest).trans ?_
    exact (List.perm_ext_iff_of_nodup (JsMap.keys_nodup _) h.unique).mpr hkeys
  case inhabited =>
    intro ids hids hnil
    obtain ⟨i, hi⟩ := List.mem_iff_getElem?.mp hids
    rw [hgroups, List.getElem?_map] at hi
    obtain ⟨depth, hdepth, hsorted⟩ := Option.map_eq_some_iff.mp hi
    have hlevel := List.mem_range'_1.mp (List.mem_of_getElem? hdepth)
    obtain ⟨id, hid⟩ := JsMap.mem_values.mp
      ((mem_values_iff hkeys hclosed hlayered depth).mpr ⟨hlevel.1, by omega⟩)
    rw [hnil] at hsorted
    have hmem : id ∈ ([] : List String) :=
      hsorted ▸ (List.perm_insertionSort _ _).mem_iff.mpr (mem_group.mpr hid)
    exact absurd hmem List.not_mem_nil
  case earlier =>
    intro step hstep dep hdep i ids hi hid
    have hstepId : step.stepId ∈ steps.map (·.stepId) := List.mem_map.mpr ⟨step, hstep, rfl⟩
    have hdepEdge : dep ∈ dependencies (stepsById steps) step.stepId :=
      (hedge step.stepId dep).mp ⟨step, hstep, rfl, hdep⟩
    have hdepth := depthOf_of_get ((parallelGroups_getElem hkeys hclosed hlayered hi _).mp hid)
    have hlt := hlayered.lt hstepId hdepEdge
    have hpos := hlayered dep (hclosed _ hstepId hdepEdge)
    obtain ⟨ids', hids', hmem⟩ := exists_group (X := X) hkeys hclosed hlayered
      (hclosed _ hstepId hdepEdge)
    exact ⟨depthOf longest dep - 1, by omega, ids', hids', hmem⟩
  case path => exact hpath
  case chain => exact hchain.imp fun a b hab => (hedge b a).mpr hab
  case length =>
    show criticalPath.length = (parallelGroups X longest).length
    rw [hgroups, List.length_map, List.length_range', hlength]
  case longest =>
    intro chain hsub hdown
    show chain.length ≤ criticalPath.length
    rw [hlength, ← List.length_reverse]
    cases hrev : chain.reverse with
    | nil => exact Nat.zero_le _
    | cons id rest =>
      have hid : id ∈ steps.map (·.stepId) :=
        hsub (List.mem_reverse.mp (by rw [hrev]; exact List.mem_cons_self))
      have hchain' : (id :: rest).IsChain fun a b => b ∈ dependencies (stepsById steps) a := by
        rw [← hrev, List.isChain_reverse]
        exact hdown.imp fun a b hab => (hedge b a).mp hab
      have hle := hlayered.length_le hclosed hid hchain'
      obtain ⟨depth, hdepth⟩ := Option.isSome_iff_exists.mp (JsMap.mem_keys.mp ((hkeys id).mpr hid))
      rw [depthOf_of_get hdepth] at hle
      exact le_trans hle (le_maxDepth (JsMap.mem_values.mpr ⟨id, hdepth⟩))

/-- Fuel for every step is enough, a proposal passes exactly when it can be planned, and what is
returned then describes it. -/
theorem validateWithin_exact (X : External) {steps : List ProposedStep}
    (hsteps : ∀ step ∈ steps, ProposedStepSchema step) {fuel : ℕ} (hfuel : steps.length < fuel) :
    ∃ outcome, validateWithin X fuel steps = some outcome ∧
      ((∃ result, outcome = .ok result) ↔ Plannable steps) ∧
      ∀ result, outcome = .ok result → Describes steps result := by
  have hrefused : ∀ e, ¬Plannable steps →
      ((∃ result : DependencyGraphResult, (.error e : Except JsError _) = .ok result) ↔
        Plannable steps) ∧
      ∀ result : DependencyGraphResult, (.error e : Except JsError _) = .ok result →
        Describes steps result := by
    intro e hnot
    refine ⟨⟨?_, fun hplan => absurd hplan hnot⟩, fun result hok => nomatch hok⟩
    rintro ⟨result, hok⟩
    exact nomatch hok
  simp only [validateWithin]
  split
  · next hsize => exact ⟨_, rfl, hrefused _ fun h => hsize (length_stepsById_iff.mpr h.unique)⟩
  · next hsize =>
    have hnodup := length_stepsById_iff.mp (not_not.mp hsize)
    split
    · next e href =>
      refine ⟨_, rfl, hrefused _ fun h => ?_⟩
      rw [h.checkReferences_ok] at href
      exact nomatch href
    · next href =>
      have hclosed := dependencies_subset hnodup href
      split
      · next path hcycle => exact ⟨_, rfl, hrefused _ (not_plannable_of_cycle hnodup hcycle)⟩
      · next hstop =>
        refine absurd hstop (dfsAll_ne_outOfFuel hclosed (List.Subset.refl _) ?_)
        rw [List.length_map]
        exact hfuel
      · next visited hvisited =>
        have hplan := plannable_of_visited hnodup href hvisited
        obtain ⟨longest, criticalPath, hlongest, hwalk, hdescribes⟩ :=
          describes X hplan hsteps hfuel
        simp only [hlongest, hwalk]
        refine ⟨_, rfl, ⟨fun _ => hplan, fun _ => ⟨_, rfl⟩⟩, fun result hok => ?_⟩
        cases hok
        exact hdescribes

/-- Two steps that wait for a third, of which one waits for the other as well. -/
theorem validateWithin_three_steps :
    ∃ outcome, validateWithin plainExternal 4 [⟨"c", ["a", "b"]⟩, ⟨"b", ["a"]⟩, ⟨"a", []⟩] =
        some outcome ∧
      ((∃ result, outcome = .ok result) ↔
        Plannable [⟨"c", ["a", "b"]⟩, ⟨"b", ["a"]⟩, ⟨"a", []⟩]) ∧
      ∀ result, outcome = .ok result →
        Describes [⟨"c", ["a", "b"]⟩, ⟨"b", ["a"]⟩, ⟨"a", []⟩] result :=
  validateWithin_exact plainExternal (by decide) (by decide)

example : validateWithin plainExternal 4 [⟨"c", ["a", "b"]⟩, ⟨"b", ["a"]⟩, ⟨"a", []⟩] =
    some (.ok ⟨["a", "b", "c"], [["a"], ["b"], ["c"]]⟩) := by decide

/-- Execution reads the parallel groups of the same result. -/
theorem validate_of_validateWithin {X : External} {steps : List ProposedStep}
    {outcome : Except JsError DependencyGraphResult}
    (h : validateWithin X (steps.length + 1) steps = some outcome) :
    validate X steps = outcome.map (·.parallelGroups) := by
  have hbyId : JsMap.ofList (steps.map fun step => (step.stepId, step)) = stepsById steps := rfl
  simp only [validateWithin] at h
  simp only [validate, hbyId]
  by_cases hsize : (stepsById steps).entries.length ≠ steps.length
  · rw [if_pos hsize] at h ⊢
    cases h
    rfl
  · rw [if_neg hsize] at h ⊢
    cases href : checkReferences (stepsById steps) steps with
    | error e =>
      rw [href] at h
      cases h
      rfl
    | ok _ =>
      rw [href] at h
      rcases hdfs : dfsAll (dependencies (stepsById steps)) (steps.length + 1) []
        (steps.map (·.stepId)) with (path | _) | visited <;> simp only [hdfs] at h ⊢
      · cases h
        rfl
      · cases h
      · split at h
        · cases h
        · next longest hlongest =>
          split at h
          · cases h
          · cases h
            rw [foldl_of_foldlM (memo_of_memoWithin _) hlongest]
            rfl

end DependencyGraphService

end Orchestrator
