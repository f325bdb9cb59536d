import Mathlib.Data.List.Induction
import Mathlib.Data.List.Nodup
import Mathlib.Tactic

/-!
# Greedy selection under two bounds

`greedy maxCount maxSize size xs` goes through `xs` and keeps what still fits, by number and by
total size; what it has kept it never gives back.

* `greedy_append`: the selection of a prefix is a prefix of the selection;
* `length_greedy_le`, `totalSize_greedy_le`: the bounds;
* `mem_greedy_iff`: an element is kept exactly when it fits next to what was kept before it;
* `greedy_eq_nil_iff`: nothing is kept only when nothing fits alone.
-/

namespace Collections

variable {α : Type} (maxCount maxSize : ℕ) (size : α → ℕ)

/-- The sizes of `xs` together. -/
def totalSize (xs : List α) : ℕ := (xs.map size).sum

/-- There is room for `x` next to `kept`. -/
def Fits (kept : List α) (x : α) : Prop :=
  kept.length < maxCount ∧ totalSize size kept + size x ≤ maxSize

instance (kept : List α) (x : α) : Decidable (Fits maxCount maxSize size kept x) :=
  inferInstanceAs (Decidable (_ ∧ _))

/-- One turn. -/
def keepIfFits (kept : List α) (x : α) : List α :=
  if Fits maxCount maxSize size kept x then kept ++ [x] else kept

def greedy (xs : List α) : List α := xs.foldl (keepIfFits maxCount maxSize size) []

variable {maxCount maxSize size} {xs ys : List α} {x : α}

@[simp] theorem totalSize_nil : totalSize size [] = 0 := rfl

@[simp] theorem totalSize_concat : totalSize size (xs ++ [x]) = totalSize size xs + size x := by
  simp [totalSize]

theorem totalSize_perm (h : xs.Perm ys) : totalSize size xs = totalSize size ys :=
  (h.map size).sum_eq

@[simp] theorem greedy_nil : greedy maxCount maxSize size [] = [] := rfl

theorem greedy_concat : greedy maxCount maxSize size (xs ++ [x]) =
    keepIfFits maxCount maxSize size (greedy maxCount maxSize size xs) x := by
  unfold greedy
  rw [List.foldl_append]
  rfl

/-- What is kept of a longer list starts with what is kept of its prefix, and goes on with some
of the rest. -/
theorem greedy_append (ys : List α) : ∃ rest, rest.Sublist ys ∧
    greedy maxCount maxSize size (xs ++ ys) = greedy maxCount maxSize size xs ++ rest := by
  induction ys using List.reverseRecOn with
  | nil => exact ⟨[], List.Sublist.refl _, by simp⟩
  | append_singleton ys y ih =>
    obtain ⟨rest, hsub, hrest⟩ := ih
    rw [← List.append_assoc, greedy_concat, hrest]
    unfold keepIfFits
    split
    · exact ⟨rest ++ [y], hsub.append (List.Sublist.refl _), by rw [List.append_assoc]⟩
    · exact ⟨rest, hsub.trans (List.sublist_append_left _ _), rfl⟩

theorem greedy_sublist (xs : List α) : (greedy maxCount maxSize size xs).Sublist xs := by
  obtain ⟨rest, hsub, hrest⟩ : ∃ rest, rest.Sublist xs ∧
      greedy maxCount maxSize size ([] ++ xs) = greedy maxCount maxSize size [] ++ rest :=
    greedy_append xs
  rw [List.nil_append, greedy_nil, List.nil_append] at hrest
  rw [hrest]
  exact hsub

theorem length_greedy_le (xs : List α) :
    (greedy maxCount maxSize size xs).length ≤ maxCount := by
  induction xs using List.reverseRecOn with
  | nil => simp
  | append_singleton xs x ih =>
    rw [greedy_concat]
    unfold keepIfFits
    split
    next hfits =>
      rw [List.length_append, List.length_singleton]
      exact hfits.1
    · exact ih

theorem totalSize_greedy_le (xs : List α) :
    totalSize size (greedy maxCount maxSize size xs) ≤ maxSize := by
  induction xs using List.reverseRecOn with
  | nil => simp
  | append_singleton xs x ih =>
    rw [greedy_concat]
    unfold keepIfFits
    split
    next hfits =>
      rw [totalSize_concat]
      exact hfits.2
    · exact ih

/-- Of a list without repetition, an element is kept exactly when there is room for it next to
what is kept of those before it. -/
theorem mem_greedy_iff {before after : List α} (hnodup : (before ++ x :: after).Nodup) :
    x ∈ greedy maxCount maxSize size (before ++ x :: after) ↔
      Fits maxCount maxSize size (greedy maxCount maxSize size before) x := by
  have hafter : x ∉ after := (List.nodup_cons.mp (List.nodup_append.mp hnodup).2.1).1
  have hbefore : x ∉ before := fun hx =>
    (List.nodup_append.mp hnodup).2.2 x hx x List.mem_cons_self rfl
  obtain ⟨rest, hsub, hrest⟩ : ∃ rest, rest.Sublist after ∧
      greedy maxCount maxSize size (before ++ [x] ++ after) =
        greedy maxCount maxSize size (before ++ [x]) ++ rest := greedy_append after
  rw [List.append_assoc, List.singleton_append] at hrest
  rw [hrest, greedy_concat, List.mem_append]
  -- `x` is neither among those before it nor among those after it, so its own turn decides
  unfold keepIfFits
  split
  next hfits => simp [hfits]
  next hfits =>
    constructor
    · rintro (hx | hx)
      · exact absurd ((greedy_sublist before).subset hx) hbefore
      · exact absurd (hsub.subset hx) hafter
    · exact fun h => absurd h hfits

/-- What is kept of a prefix is what of it is kept in the end. -/
theorem filter_greedy [DecidableEq α] {before after : List α} (hnodup : (before ++ after).Nodup) :
    before.filter (fun y => y ∈ greedy maxCount maxSize size (before ++ after)) =
      greedy maxCount maxSize size before := by
  induction before using List.reverseRecOn generalizing after with
  | nil => rfl
  | append_singleton before x ih =>
    rw [List.append_assoc, List.singleton_append] at hnodup ⊢
    rw [List.filter_append, ih hnodup, greedy_concat, List.filter_singleton]
    unfold keepIfFits
    by_cases hfits : Fits maxCount maxSize size (greedy maxCount maxSize size before) x
    · rw [if_pos hfits]
      simp [(mem_greedy_iff hnodup).mpr hfits]
    · rw [if_neg hfits]
      have hx := mt (mem_greedy_iff hnodup).mp hfits
      simp [hx]

/-- Nothing is kept exactly when nothing may be or nothing fits by itself. -/
theorem greedy_eq_nil_iff (xs : List α) :
    greedy maxCount maxSize size xs = [] ↔ maxCount = 0 ∨ ∀ x ∈ xs, maxSize < size x := by
  induction xs using List.reverseRecOn with
  | nil => simp
  | append_singleton xs x ih =>
    rw [greedy_concat]
    unfold keepIfFits
    by_cases hnil : greedy maxCount maxSize size xs = []
    · have hcases := ih.mp hnil
      rw [hnil]
      unfold Fits
      simp only [List.length_nil, totalSize_nil, Nat.zero_add, List.nil_append, List.mem_append,
        List.mem_singleton, ite_eq_right_iff, List.cons_ne_nil, imp_false, not_and, Nat.not_le]
      constructor
      · intro h
        rcases Nat.eq_zero_or_pos maxCount with hzero | hpos
        · exact .inl hzero
        · refine .inr ?_
          rcases hcases with hzero | hall
          · omega
          rintro y (hy | rfl)
          · exact hall y hy
          · exact h hpos
      · rintro (hzero | hall) hpos
        · omega
        · exact hall x (.inr rfl)
    · have hsome := mt ih.mpr hnil
      constructor
      · intro h
        split at h
        · simp at h
        · exact absurd h hnil
      · rintro (hzero | hall)
        · exact absurd (.inl hzero) hsome
        · exact absurd (.inr fun y hy => hall y (List.mem_append_left _ hy)) hsome

end Collections
