import Mathlib.Logic.Relation
import Mathlib.Order.RelClasses
import Mathlib.Tactic

/-!
# Depth-first search for cycles

`dfs succ fuel stack visited v` explores the graph of `succ` from `v`: it stops at the first
vertex that is on the stack, reporting the stretch of the stack that closes the cycle, and
otherwise adds every vertex it finishes to `visited`.

* `dfs_acc`: where the search finishes, nothing infinite starts at the vertices it visited, so
  no cycle passes through them;
* `dfs_cycle`: where it stops at a vertex on the stack, it reports a cycle;
* `dfs_ne_outOfFuel`: the search ends by itself when the fuel exceeds the number of vertices
  off the stack.
-/

namespace Graph

variable {V : Type} [DecidableEq V]

/-- Why a search stopped early. -/
inductive Stop (V : Type) where
  | cycle (path : List V)
  | outOfFuel
  deriving DecidableEq, Repr

/-- The search from `v`, with `stack` the vertices on the way to it, newest last. -/
def dfs (succ : V → List V) : ℕ → List V → List V → V → Except (Stop V) (List V)
  | 0, _, _, _ => .error .outOfFuel
  | fuel + 1, stack, visited, v =>
    if v ∈ stack then .error (.cycle (stack.dropWhile (· ≠ v) ++ [v]))
    else if v ∈ visited then .ok visited
    else
      match (succ v).foldlM (dfs succ fuel (stack ++ [v])) visited with
      | .error e => .error e
      | .ok visited' => .ok (visited' ++ [v])

/-- The searches from `vs` in turn. -/
def dfsAll (succ : V → List V) (fuel : ℕ) (visited : List V) (vs : List V) :
    Except (Stop V) (List V) :=
  vs.foldlM (dfs succ fuel []) visited

/-- `w` is a successor of `v`, read so that following it goes down. -/
def Below (succ : V → List V) (w v : V) : Prop := w ∈ succ v

variable {succ : V → List V}

/-! ## What a finished search shows -/

/-- The visited vertices are all accessible. -/
def Settled (succ : V → List V) (visited : List V) : Prop := ∀ v ∈ visited, Acc (Below succ) v

omit [DecidableEq V] in
/-- A fold of searches settles what it visits, when each search does. -/
theorem foldlM_settled {f : List V → V → Except (Stop V) (List V)}
    (hf : ∀ visited v visited', f visited v = .ok visited' → Settled succ visited →
      Settled succ visited' ∧ visited ⊆ visited' ∧ v ∈ visited')
    (vs visited visited' : List V) (h : vs.foldlM f visited = .ok visited')
    (hset : Settled succ visited) :
    Settled succ visited' ∧ visited ⊆ visited' ∧ vs ⊆ visited' := by
  induction vs generalizing visited with
  | nil =>
    cases h
    exact ⟨hset, List.Subset.refl _, List.nil_subset _⟩
  | cons v vs ih =>
    rw [List.foldlM_cons] at h
    cases hv : f visited v with
    | error e =>
      rw [hv] at h
      cases h
    | ok visited₁ =>
      rw [hv] at h
      obtain ⟨hset₁, hsub₁, hmem⟩ := hf _ _ _ hv hset
      obtain ⟨hset', hsub', hvs⟩ := ih visited₁ h hset₁
      exact ⟨hset', List.Subset.trans hsub₁ hsub', List.cons_subset.mpr ⟨hsub' hmem, hvs⟩⟩

/-- A search that finishes settles the vertex it started from. -/
theorem dfs_settled (fuel : ℕ) (stack visited : List V) (v : V) (visited' : List V)
    (h : dfs succ fuel stack visited v = .ok visited') (hset : Settled succ visited) :
    Settled succ visited' ∧ visited ⊆ visited' ∧ v ∈ visited' := by
  induction fuel generalizing stack visited v visited' with
  | zero => cases h
  | succ fuel ih =>
    rw [dfs] at h
    split_ifs at h with hstack hvis
    · cases h
      exact ⟨hset, List.Subset.refl _, hvis⟩
    · split at h
      · cases h
      · next visited₁ hfold =>
        cases h
        obtain ⟨hset₁, hsub₁, hsucc⟩ :=
          foldlM_settled (fun vis w vis' => ih _ vis w vis') _ _ _ hfold hset
        refine ⟨fun w hw => ?_, fun w hw => List.mem_append_left _ (hsub₁ hw), by simp⟩
        rcases List.mem_append.mp hw with hw | hw
        · exact hset₁ w hw
        · -- every successor of `v` has been visited, so `v` itself is accessible
          rw [List.mem_singleton] at hw
          subst hw
          exact Acc.intro _ fun u hu => hset₁ u (hsucc hu)

/-- If all the searches finish, nothing infinite starts at any vertex of `vs`. -/
theorem dfsAll_acc {fuel : ℕ} {vs visited : List V}
    (h : dfsAll succ fuel [] vs = .ok visited) : ∀ v ∈ vs, Acc (Below succ) v := by
  have hnil : Settled succ [] := fun v hv => absurd hv List.not_mem_nil
  obtain ⟨hset, -, hvs⟩ :=
    foldlM_settled (fun vis v vis' => dfs_settled fuel [] vis v vis') vs [] visited h hnil
  exact fun v hv => hset v (hvs hv)

omit [DecidableEq V] in
/-- No cycle passes through an accessible vertex. -/
theorem not_transGen_self {r : V → V → Prop} {v : V} (h : Acc r v) : ¬Relation.TransGen r v v := by
  have htrans : Acc (Relation.TransGen r) v := h.transGen
  induction htrans with
  | intro v _ ih => exact fun hv => ih v hv (h.inv_of_transGen hv) hv

/-! ## What a search that stops shows -/

/-- A path along the edges that comes back to where it starts. -/
structure IsCycle (succ : V → List V) (path : List V) : Prop where
  closed : path.head? = path.getLast?
  length : 2 ≤ path.length
  chain : path.IsChain fun v w => w ∈ succ v

omit [DecidableEq V] in
/-- The last vertex of a path can be reached from the first. -/
theorem transGen_of_isChain {r : V → V → Prop} {v w : V} {path : List V}
    (h : (v :: path ++ [w]).IsChain r) : Relation.TransGen r v w := by
  induction path generalizing v with
  | nil => exact .single (List.isChain_cons_cons.mp h).1
  | cons u path ih =>
    obtain ⟨hvu, hrest⟩ := List.isChain_cons_cons.mp h
    exact .head hvu (ih hrest)

omit [DecidableEq V] in
/-- A cycle passes through its vertices again and again. -/
theorem IsCycle.transGen {path : List V} (h : IsCycle succ path) :
    ∃ v, Relation.TransGen (fun v w => w ∈ succ v) v v := by
  obtain ⟨hclosed, hlength, hchain⟩ := h
  obtain ⟨v, rest, rfl⟩ : ∃ v rest, path = v :: rest := List.exists_cons_of_length_pos (by omega)
  have hne : rest ≠ [] := by
    rintro rfl
    simp at hlength
  have hlast : rest.getLast hne = v := by
    rw [List.head?_cons, List.getLast?_cons, List.getLast?_eq_some_getLast hne] at hclosed
    exact (Option.some.inj hclosed).symm
  rw [← List.dropLast_append_getLast hne, hlast] at hchain
  exact ⟨v, transGen_of_isChain hchain⟩

omit [DecidableEq V] in
/-- A fold of searches stops where one of them does. -/
theorem foldlM_error {f : List V → V → Except (Stop V) (List V)} {e : Stop V} {vs visited : List V}
    (h : vs.foldlM f visited = .error e) : ∃ v ∈ vs, ∃ visited', f visited' v = .error e := by
  induction vs generalizing visited with
  | nil => exact nomatch h
  | cons v vs ih =>
    rw [List.foldlM_cons] at h
    cases hv : f visited v with
    | error e' =>
      rw [hv] at h
      obtain rfl := Except.error.inj h
      exact ⟨v, List.mem_cons_self, visited, hv⟩
    | ok visited₁ =>
      rw [hv] at h
      obtain ⟨w, hw, visited', he⟩ := ih h
      exact ⟨w, List.mem_cons_of_mem v hw, visited', he⟩

/-- A search whose stack leads to its vertex reports a cycle, if it reports anything. -/
theorem dfs_cycle {fuel : ℕ} {stack visited : List V} {v : V} {path : List V}
    (hstack : (stack ++ [v]).IsChain fun v w => w ∈ succ v)
    (h : dfs succ fuel stack visited v = .error (.cycle path)) : IsCycle succ path := by
  induction fuel generalizing stack visited v with
  | zero => exact nomatch h
  | succ fuel ih =>
    rw [dfs] at h
    split_ifs at h with hmem hvis
    · obtain rfl := Stop.cycle.inj (Except.error.inj h)
      obtain ⟨before, after, rfl, hbefore⟩ := List.eq_append_cons_of_mem hmem
      have hdrop : (before ++ v :: after).dropWhile (· ≠ v) = v :: after := by
        have hskipped : ∀ u ∈ before, decide (u ≠ v) = true := by
          intro u hu
          rw [decide_eq_true_eq]
          rintro rfl
          exact hbefore hu
        rw [List.dropWhile_append_of_pos hskipped]
        exact List.dropWhile_cons_of_neg (by simp)
      rw [hdrop]
      rw [List.append_assoc] at hstack
      refine ⟨?_, by simp, hstack.right_of_append⟩
      rw [List.getLast?_concat]
      rfl
    · split at h
      next e he =>
        obtain rfl := Except.error.inj h
        obtain ⟨w, hw, visited', herror⟩ := foldlM_error he
        refine ih (List.isChain_append.mpr ⟨hstack, .singleton w, ?_⟩) herror
        intro a ha b hb
        rw [List.getLast?_concat, Option.mem_some_iff] at ha
        rw [List.head?_singleton, Option.mem_some_iff] at hb
        subst ha hb
        exact hw
      · exact nomatch h

/-- The searches report a cycle, if they report anything. -/
theorem dfsAll_cycle {fuel : ℕ} {visited vs path : List V}
    (h : dfsAll succ fuel visited vs = .error (.cycle path)) : IsCycle succ path := by
  obtain ⟨v, _, visited', hv⟩ := foldlM_error h
  exact dfs_cycle (.singleton v) hv

/-! ## The fuel -/

omit [DecidableEq V] in
/-- A fold of searches does not run out of fuel, when none of the searches does. -/
theorem foldlM_ne_outOfFuel {f : List V → V → Except (Stop V) (List V)} (vs visited : List V)
    (hf : ∀ v ∈ vs, ∀ visited, f visited v ≠ .error .outOfFuel) :
    vs.foldlM f visited ≠ .error .outOfFuel := by
  induction vs generalizing visited with
  | nil => simp [pure, Except.pure]
  | cons v vs ih =>
    rw [List.foldlM_cons]
    cases hv : f visited v with
    | error e =>
      have hne := hf v (by simp) visited
      rw [hv] at hne
      simpa [bind, Except.bind] using hne
    | ok visited₁ => exact ih visited₁ fun w hw => hf w (List.mem_cons_of_mem _ hw)

/-- With all vertices in `univ`, fuel for every vertex off the stack is enough. -/
theorem dfs_ne_outOfFuel {univ : List V} (hclosed : ∀ v ∈ univ, succ v ⊆ univ) (fuel : ℕ)
    (stack visited : List V) (v : V) (hv : v ∈ univ) (hnodup : stack.Nodup)
    (hstack : stack ⊆ univ) (hfuel : univ.length < fuel + stack.length) :
    dfs succ fuel stack visited v ≠ .error .outOfFuel := by
  induction fuel generalizing stack visited v with
  | zero =>
    have hle := (List.subperm_of_subset hnodup hstack).length_le
    omega
  | succ fuel ih =>
    rw [dfs]
    split_ifs with hmem hvis
    · simp
    · simp
    · have hnodup' : (stack ++ [v]).Nodup := by
        rw [← List.concat_eq_append]
        exact hnodup.concat hmem
      have hstack' : stack ++ [v] ⊆ univ := by
        intro w hw
        rcases List.mem_append.mp hw with hw | hw
        · exact hstack hw
        · exact List.mem_singleton.mp hw ▸ hv
      have hfold : (succ v).foldlM (dfs succ fuel (stack ++ [v])) visited ≠ .error .outOfFuel :=
        foldlM_ne_outOfFuel _ _ fun w hw visited =>
          ih _ visited w (hclosed v hv hw) hnodup' hstack' (by simp; omega)
      split
      · next e he =>
        rw [he] at hfold
        simpa using hfold
      · simp

theorem dfsAll_ne_outOfFuel {univ : List V} (hclosed : ∀ v ∈ univ, succ v ⊆ univ) {fuel : ℕ}
    {vs visited : List V} (hvs : vs ⊆ univ) (hfuel : univ.length < fuel) :
    dfsAll succ fuel visited vs ≠ .error .outOfFuel :=
  foldlM_ne_outOfFuel _ _ fun v hv visited =>
    dfs_ne_outOfFuel hclosed fuel [] visited v (hvs hv) List.nodup_nil (List.nil_subset _)
      (by simpa using hfuel)

end Graph
