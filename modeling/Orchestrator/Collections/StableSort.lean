import Mathlib.Data.List.Sort
import Mathlib.Tactic

/-!
# Stable sorting by an order with ties

Insertion sort by a total preorder keeps the order of what the preorder does not tell apart.

* `filter_insertionSort`: sorting leaves each class of ties as it is;
* `insertionSort_eq_iff`: two lists are sorted to the same list exactly when they have the same
  classes of ties, in the same order;
* `insertionSort_eq_of_perm`, `exists_first_ne`: the order of a list does not matter to its sorting
  where there are no ties, and does where there are.
-/

namespace Collections

variable {α : Type} {le : α → α → Prop} [DecidableRel le]

/-- Neither comes before the other. -/
def Tied (le : α → α → Prop) (a b : α) : Prop := le a b ∧ le b a

instance (a : α) : DecidablePred (Tied le a) := fun b =>
  inferInstanceAs (Decidable (le a b ∧ le b a))

theorem filter_orderedInsert (htrans : ∀ a b c, le a b → le b c → le a c) (w a : α)
    (xs : List α) :
    (xs.orderedInsert le a).filter (Tied le w ·) = (a :: xs).filter (Tied le w ·) := by
  induction xs with
  | nil => rfl
  | cons b xs ih =>
    rw [List.orderedInsert_cons]
    split_ifs with hab
    · rfl
    · rw [List.filter_cons, ih]
      by_cases ha : Tied le w a
      · -- an element that `a` goes past is not tied with `a`
        have hb : ¬Tied le w b := fun hb => hab (htrans a w b ha.2 hb.1)
        rw [List.filter_cons_of_pos (by simpa using ha), List.filter_cons_of_pos (by simpa using ha),
          List.filter_cons_of_neg (by simpa using hb), if_neg (by simpa using hb)]
      · rw [List.filter_cons_of_neg (by simpa using ha), List.filter_cons_of_neg (by simpa using ha),
          List.filter_cons]

/-- Sorting leaves each class of ties as it is. -/
theorem filter_insertionSort (htrans : ∀ a b c, le a b → le b c → le a c) (w : α) (xs : List α) :
    (xs.insertionSort le).filter (Tied le w ·) = xs.filter (Tied le w ·) := by
  induction xs with
  | nil => rfl
  | cons a xs ih =>
    rw [List.insertionSort_cons, filter_orderedInsert htrans, List.filter_cons, List.filter_cons, ih]

/-- Sorted lists with the same classes of ties are the same. -/
theorem eq_of_filter_eq (htotal : ∀ a b, le a b ∨ le b a) {xs ys : List α}
    (hxs : xs.Pairwise le) (hys : ys.Pairwise le)
    (h : ∀ w, xs.filter (Tied le w ·) = ys.filter (Tied le w ·)) : xs = ys := by
  have hself : ∀ a, Tied le a a := fun a => ⟨(htotal a a).elim id id, (htotal a a).elim id id⟩
  have hmem : ∀ {zs zs' : List α}, (∀ w, zs.filter (Tied le w ·) = zs'.filter (Tied le w ·)) →
      ∀ a ∈ zs, a ∈ zs' := by
    intro zs zs' hzs a ha
    have hin : a ∈ zs.filter (Tied le a ·) := List.mem_filter.mpr ⟨ha, by simpa using hself a⟩
    rw [hzs a] at hin
    exact (List.mem_filter.mp hin).1
  induction xs generalizing ys with
  | nil =>
    cases ys with
    | nil => rfl
    | cons b ys => exact absurd (hmem (fun w => (h w).symm) b List.mem_cons_self) List.not_mem_nil
  | cons a xs ih =>
    cases ys with
    | nil => exact absurd (hmem h a List.mem_cons_self) List.not_mem_nil
    | cons b ys =>
      rw [List.pairwise_cons] at hxs hys
      have hba : le b a := by
        rcases List.mem_cons.mp (hmem h a List.mem_cons_self) with rfl | ha
        · exact (hself a).1
        · exact hys.1 a ha
      have hab : le a b := by
        rcases List.mem_cons.mp (hmem (fun w => (h w).symm) b List.mem_cons_self) with rfl | hb
        · exact (hself b).1
        · exact hxs.1 b hb
      have htied : Tied le a b := ⟨hab, hba⟩
      have hhead := h a
      rw [List.filter_cons_of_pos (by simpa using hself a),
        List.filter_cons_of_pos (by simpa using htied), List.cons.injEq] at hhead
      obtain ⟨rfl, -⟩ := hhead
      have hrest : ∀ w, xs.filter (Tied le w ·) = ys.filter (Tied le w ·) := by
        intro w
        have hw := h w
        rw [List.filter_cons, List.filter_cons] at hw
        split_ifs at hw
        · exact (List.cons.inj hw).2
        · exact hw
      rw [ih hxs.2 hys.2 hrest]

/-- Two lists are sorted to the same list exactly when they have the same classes of ties. -/
theorem insertionSort_eq_iff (htotal : ∀ a b, le a b ∨ le b a)
    (htrans : ∀ a b c, le a b → le b c → le a c) {xs ys : List α} :
    xs.insertionSort le = ys.insertionSort le ↔
      ∀ w, xs.filter (Tied le w ·) = ys.filter (Tied le w ·) := by
  have hsorted : ∀ zs : List α, (zs.insertionSort le).Pairwise le := by
    have : Std.Total le := ⟨htotal⟩
    have : IsTrans α le := ⟨htrans⟩
    exact List.pairwise_insertionSort le
  constructor
  · intro h w
    rw [← filter_insertionSort htrans w xs, h, filter_insertionSort htrans]
  · intro h
    refine eq_of_filter_eq htotal (hsorted xs) (hsorted ys) fun w => ?_
    rw [filter_insertionSort htrans, filter_insertionSort htrans]
    exact h w

/-- Where nothing is tied with anything else, the order of the list does not matter. -/
theorem insertionSort_eq_of_perm (htotal : ∀ a b, le a b ∨ le b a)
    (htrans : ∀ a b c, le a b → le b c → le a c) {xs ys : List α} (hperm : xs.Perm ys)
    (hties : ∀ a ∈ xs, ∀ b ∈ xs, Tied le a b → a = b) :
    xs.insertionSort le = ys.insertionSort le := by
  have : Std.Total le := ⟨htotal⟩
  have : IsTrans α le := ⟨htrans⟩
  refine List.Perm.eq_of_pairwise ?_ (List.pairwise_insertionSort le xs)
    (List.pairwise_insertionSort le ys)
    ((List.perm_insertionSort le xs).trans (hperm.trans (List.perm_insertionSort le ys).symm))
  intro a b ha hb hab hba
  rw [List.mem_insertionSort] at ha hb
  exact hties a ha b (hperm.mem_iff.mpr hb) ⟨hab, hba⟩

/-- Of two elements that are tied, the sorted list changes when one is brought to the front. -/
theorem exists_first_ne (htotal : ∀ a b, le a b ∨ le b a)
    (htrans : ∀ a b c, le a b → le b c → le a c) {xs : List α} {a b : α} (ha : a ∈ xs)
    (htied : Tied le a b) (hne : a ≠ b) :
    ∃ z, (z = a ∨ z = b) ∧ ∀ ys, (z :: ys).insertionSort le ≠ xs.insertionSort le := by
  have hself : Tied le a a := ⟨(htotal a a).elim id id, (htotal a a).elim id id⟩
  obtain ⟨first, rest, hfirst⟩ : ∃ first rest, xs.filter (Tied le a ·) = first :: rest := by
    refine List.exists_cons_of_ne_nil fun hnil => ?_
    have hmem : a ∈ xs.filter (Tied le a ·) := List.mem_filter.mpr ⟨ha, by simpa using hself⟩
    rw [hnil] at hmem
    exact List.not_mem_nil hmem
  have hfront : ∀ z, Tied le a z → z ≠ first →
      ∀ ys, (z :: ys).insertionSort le ≠ xs.insertionSort le := by
    intro z hz hzne ys heq
    have hfilter := (insertionSort_eq_iff htotal htrans).mp heq a
    rw [List.filter_cons_of_pos (by simpa using hz), hfirst] at hfilter
    exact hzne (List.cons.inj hfilter).1
  by_cases hfirsta : a = first
  · exact ⟨b, .inr rfl, hfront b htied fun hb => hne (hfirsta.trans hb.symm)⟩
  · exact ⟨a, .inl rfl, hfront a hself hfirsta⟩

end Collections
