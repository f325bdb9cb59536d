import Mathlib.Data.Finset.Card
import Mathlib.Logic.Relation
import Mathlib.Tactic.Common

/-!
# Orders of acyclic relations

A relation between finitely many vertices has no cycle exactly when the vertices can be numbered
so that it goes up.

* `not_cyclic_of_rank`: a relation that goes up has no cycle;
* `exists_rank`: the number of the vertices before it is such a number of a vertex.
-/

namespace Graph

open Relation

variable {V : Type} {r : V → V → Prop}

/-- The numbers go up along the relation. -/
def GoesUp (r : V → V → Prop) (rank : V → ℕ) : Prop := ∀ v w, r v w → rank v < rank w

/-- No vertex comes before itself. -/
def Acyclic (r : V → V → Prop) : Prop := ∀ v, ¬TransGen r v v

theorem GoesUp.transGen {rank : V → ℕ} (h : GoesUp r rank) {v w : V} (hvw : TransGen r v w) :
    rank v < rank w := by
  induction hvw with
  | single hedge => exact h _ _ hedge
  | tail _ hedge ih => exact lt_trans ih (h _ _ hedge)

theorem not_cyclic_of_rank {rank : V → ℕ} (h : GoesUp r rank) : Acyclic r :=
  fun _ hv => lt_irrefl _ (h.transGen hv)

open Classical in
/-- The vertices of `univ` that come before `v`. -/
noncomputable def before (r : V → V → Prop) (univ : Finset V) (v : V) : Finset V :=
  univ.filter fun u => TransGen r u v

open Classical in
theorem mem_before {univ : Finset V} {u v : V} :
    u ∈ before r univ v ↔ u ∈ univ ∧ TransGen r u v := by
  unfold before
  rw [Finset.mem_filter]

/-- Along an edge from `univ`, more vertices come before. -/
theorem card_before_lt (hacyclic : Acyclic r) {univ : Finset V} {v w : V} (hv : v ∈ univ)
    (hedge : r v w) : (before r univ v).card < (before r univ w).card := by
  apply Finset.card_lt_card
  rw [Finset.ssubset_iff_of_subset]
  · refine ⟨v, mem_before.mpr ⟨hv, .single hedge⟩, ?_⟩
    intro hself
    exact hacyclic v (mem_before.mp hself).2
  · intro u hu
    obtain ⟨huniv, huv⟩ := mem_before.mp hu
    exact mem_before.mpr ⟨huniv, huv.tail hedge⟩

/-- A relation without cycles that leaves only vertices of `univ` goes up along some numbers. -/
theorem exists_rank (hacyclic : Acyclic r) (univ : Finset V) (huniv : ∀ v w, r v w → v ∈ univ) :
    ∃ rank : V → ℕ, GoesUp r rank :=
  ⟨fun v => (before r univ v).card, fun v w hedge =>
    card_before_lt hacyclic (huniv v w hedge) hedge⟩

end Graph
