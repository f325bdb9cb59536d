import Mathlib.Logic.Relation
import Mathlib.Tactic.Common

/-!
# Reachability in a graph

Which vertices have a path to one of some targets, certified by a list of them: it is closed under
predecessors, and from each of its vertices some edge goes on in the list and comes closer to a
target.

* `mem_of_reaches`: a set that is closed under predecessors holds all that reaches it;
* `reaches_of_closer`: following the edges that come closer ends at a target;
* `canReach_iff`: a certified list holds exactly the vertices with a path to a target.
-/

namespace Graph

open Relation

variable {V : Type} {succ : V → List V} {targets sources : List V}

/-- There is a path from `a` to `b`. -/
def Reaches (succ : V → List V) (a b : V) : Prop := ReflTransGen (fun v w => w ∈ succ v) a b

/-- What reaches a set that is closed under predecessors is in it. -/
theorem mem_of_reaches (hback : ∀ v, ∀ w ∈ succ v, w ∈ sources → v ∈ sources) {a b : V}
    (h : Reaches succ a b) (hb : b ∈ sources) : a ∈ sources := by
  induction h using ReflTransGen.head_induction_on with
  | refl => exact hb
  | head hedge _ ih => exact hback _ _ hedge ih

/-- Edges that come closer lead to a target. -/
theorem reaches_of_closer (distance : V → ℕ)
    (hforth : ∀ v ∈ sources,
      v ∈ targets ∨ ∃ w ∈ succ v, w ∈ sources ∧ distance w < distance v)
    {a : V} (ha : a ∈ sources) : ∃ b ∈ targets, Reaches succ a b := by
  induction hdistance : distance a using Nat.strongRecOn generalizing a with
  | ind n ih =>
    rcases hforth a ha with htarget | ⟨w, hedge, hw, hcloser⟩
    · exact ⟨a, htarget, ReflTransGen.refl⟩
    · obtain ⟨b, hb, hpath⟩ := ih (distance w) (hdistance ▸ hcloser) hw rfl
      exact ⟨b, hb, ReflTransGen.head hedge hpath⟩

/-- A certified list holds exactly what has a path to a target. -/
theorem canReach_iff (distance : V → ℕ) (htargets : targets ⊆ sources)
    (hback : ∀ v, ∀ w ∈ succ v, w ∈ sources → v ∈ sources)
    (hforth : ∀ v ∈ sources,
      v ∈ targets ∨ ∃ w ∈ succ v, w ∈ sources ∧ distance w < distance v) (a : V) :
    (∃ b ∈ targets, Reaches succ a b) ↔ a ∈ sources := by
  constructor
  · rintro ⟨b, hb, hpath⟩
    exact mem_of_reaches hback hpath (htargets hb)
  · intro ha
    exact reaches_of_closer distance hforth ha

end Graph
