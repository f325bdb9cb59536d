import Mathlib.Data.List.Chain
import Mathlib.Data.List.Perm.Subperm
import Mathlib.Tactic

/-!
# Depths in a finite graph

`Layered succ univ depth` says that each vertex of `univ` lies one level above the deepest of its
successors, so that `depth` counts the vertices on a longest path down from it.

* `Layered.length_le`: a path down from `v` has at most `depth v` vertices;
* `Layered.eq_succ_of_deepest`: a step to a deepest successor loses exactly one level;
* `Layered.exists_level`: every level down to the first is taken.
-/

namespace Graph

variable {V : Type}

/-- The greatest of the depths of `vs`, `0` without any. -/
def deepest (depth : V → ℕ) (vs : List V) : ℕ := (vs.map depth).foldl max 0

/-- Each vertex of `univ` lies one level above the deepest of its successors. -/
def Layered (succ : V → List V) (univ : List V) (depth : V → ℕ) : Prop :=
  ∀ v ∈ univ, depth v = 1 + deepest depth (succ v)

/-! ## The greatest depth -/

/-- A running maximum bounds the values it runs over. -/
theorem foldl_max_le_iff (ns : List ℕ) (start bound : ℕ) :
    ns.foldl max start ≤ bound ↔ start ≤ bound ∧ ∀ n ∈ ns, n ≤ bound := by
  induction ns generalizing start with
  | nil => simp
  | cons n ns ih =>
    rw [List.foldl_cons, ih]
    simp only [max_le_iff, List.forall_mem_cons, and_assoc]

variable {depth : V → ℕ} {vs : List V}

theorem deepest_le_iff {bound : ℕ} : deepest depth vs ≤ bound ↔ ∀ v ∈ vs, depth v ≤ bound := by
  unfold deepest
  rw [foldl_max_le_iff]
  simp

theorem le_deepest {v : V} (hv : v ∈ vs) : depth v ≤ deepest depth vs :=
  deepest_le_iff.mp (le_refl _) v hv

/-- One of the vertices has the greatest depth. -/
theorem exists_deepest (hvs : vs ≠ []) : ∃ v ∈ vs, depth v = deepest depth vs := by
  by_contra hnone
  push Not at hnone
  have hlt : ∀ v ∈ vs, depth v < deepest depth vs := fun v hv =>
    lt_of_le_of_ne (le_deepest hv) (hnone v hv)
  obtain ⟨v, hv⟩ := List.exists_mem_of_ne_nil vs hvs
  have hpos : 0 < deepest depth vs := by have := hlt v hv; omega
  have hle : deepest depth vs ≤ deepest depth vs - 1 := by
    apply deepest_le_iff.mpr
    intro w hw
    have := hlt w hw
    omega
  omega

/-! ## Paths down the levels -/

variable {succ : V → List V} {univ : List V}

/-- A successor lies strictly deeper than its vertex. -/
theorem Layered.lt (h : Layered succ univ depth) {v w : V} (hv : v ∈ univ) (hw : w ∈ succ v) :
    depth w < depth v := by
  have hle : depth w ≤ deepest depth (succ v) := le_deepest hw
  rw [h v hv]
  omega

/-- A deepest successor lies exactly one level below. -/
theorem Layered.eq_succ_of_deepest (h : Layered succ univ depth) {v w : V} (hv : v ∈ univ)
    (hw : w ∈ succ v) (hdeep : ∀ u ∈ succ v, depth u ≤ depth w) : depth v = depth w + 1 := by
  have heq : deepest depth (succ v) = depth w :=
    le_antisymm (deepest_le_iff.mpr hdeep) (le_deepest hw)
  rw [h v hv, heq, Nat.add_comm]

/-- A path down from `v` has at most `depth v` vertices. -/
theorem Layered.length_le (h : Layered succ univ depth) (hclosed : ∀ v ∈ univ, succ v ⊆ univ)
    {v : V} {path : List V} (hv : v ∈ univ) (hpath : (v :: path).IsChain fun a b => b ∈ succ a) :
    (v :: path).length ≤ depth v := by
  induction path generalizing v with
  | nil =>
    have hdepth := h v hv
    simp only [List.length_singleton]
    omega
  | cons w path ih =>
    rw [List.isChain_cons_cons] at hpath
    have hw : w ∈ univ := hclosed v hv hpath.1
    have hlength : (w :: path).length ≤ depth w := ih hw hpath.2
    have hlt : depth w < depth v := h.lt hv hpath.1
    simp only [List.length_cons] at hlength ⊢
    omega

/-- Every level from the first to that of `v` is taken. -/
theorem Layered.exists_level (h : Layered succ univ depth) (hclosed : ∀ v ∈ univ, succ v ⊆ univ)
    {v : V} (hv : v ∈ univ) {level : ℕ} (hlevel : 1 ≤ level) (hle : level ≤ depth v) :
    ∃ w ∈ univ, depth w = level := by
  induction hd : depth v using Nat.strongRecOn generalizing v with
  | ind d ih =>
    subst hd
    rcases Nat.lt_or_eq_of_le hle with hlt | heq
    · -- the level lies below that of `v`, so `v` has successors and a deepest one reaches it
      have hne : succ v ≠ [] := by
        intro hnil
        have hdepth := h v hv
        rw [hnil] at hdepth
        simp only [deepest, List.map_nil, List.foldl_nil] at hdepth
        omega
      obtain ⟨w, hw, hdeep⟩ : ∃ w ∈ succ v, depth w = deepest depth (succ v) := exists_deepest hne
      have hdepth := h v hv
      exact ih (depth w) (h.lt hv hw) (hclosed v hv hw) (by omega) rfl
    · exact ⟨v, hv, heq.symm⟩

/-- There are at least as many vertices as levels. -/
theorem Layered.depth_le_length (h : Layered succ univ depth)
    (hclosed : ∀ v ∈ univ, succ v ⊆ univ) {v : V} (hv : v ∈ univ) : depth v ≤ univ.length := by
  have hsub : List.range' 1 (depth v) ⊆ univ.map depth := by
    intro level hlevel
    rw [List.mem_range'_1] at hlevel
    obtain ⟨w, hw, hdepth⟩ := h.exists_level hclosed hv hlevel.1 (by omega)
    exact List.mem_map.mpr ⟨w, hw, hdepth⟩
  have hle := (List.subperm_of_subset List.nodup_range' hsub).length_le
  rw [List.length_range', List.length_map] at hle
  exact hle

end Graph
