import Orchestrator.Collections.JsMap
import Mathlib.Data.List.Forall2

/-!
# The latest element with a name

* `latest`: the last of the elements of a list that have a name;
* `latest_eq_some`: where it stands;
* `rel_latest`: lists that agree element by element have latest elements that agree;
* `countBy`: how often each key occurs.
-/

namespace Collections

variable {α β κ : Type} [DecidableEq κ] {name : α → κ} {xs : List α} {x : α} {k : κ}

/-- The last element with the name. -/
def latest (name : α → κ) (xs : List α) (k : κ) : Option α := xs.reverse.find? fun x => name x = k

@[simp] theorem latest_nil : latest name [] k = none := rfl

/-- A later element with the name takes over. -/
theorem latest_concat :
    latest name (xs ++ [x]) k = if name x = k then some x else latest name xs k := by
  unfold latest
  rw [List.reverse_append, List.reverse_singleton, List.singleton_append, List.find?_cons]
  by_cases hk : name x = k <;> simp [hk]

/-- The latest element with a name is the one that no element with the name comes after. -/
theorem latest_eq_some :
    latest name xs k = some x ↔
      ∃ i, xs[i]? = some x ∧ name x = k ∧ k ∉ (xs.drop (i + 1)).map name := by
  induction xs using List.reverseRecOn with
  | nil => simp
  | append_singleton xs y ih =>
    rw [latest_concat]
    by_cases hy : name y = k
    · rw [if_pos hy, Option.some.injEq]
      constructor
      · rintro rfl
        exact ⟨xs.length, List.getElem?_concat_length, hy, by simp⟩
      · rintro ⟨i, hi, _, hlast⟩
        rcases Nat.lt_or_ge i xs.length with hlt | hge
        · rw [List.drop_append_of_le_length (by omega)] at hlast
          simp [hy] at hlast
        · rw [List.getElem?_append_right hge] at hi
          have hzero : i - xs.length = 0 := by
            by_contra hne
            rw [List.getElem?_eq_none (by simp; omega)] at hi
            exact nomatch hi
          rw [hzero] at hi
          exact Option.some.inj hi
    · rw [if_neg hy, ih]
      refine exists_congr fun i => ?_
      rcases Nat.lt_or_ge i xs.length with hlt | hge
      · rw [List.getElem?_append_left hlt, List.drop_append_of_le_length (by omega)]
        simp [Ne.symm hy]
      · rw [List.getElem?_eq_none hge, List.getElem?_append_right hge]
        refine iff_of_false (fun h => nomatch h.1) ?_
        rintro ⟨hi, hname, _⟩
        have hmem := List.mem_of_getElem? hi
        rw [List.mem_singleton] at hmem
        exact hy (hmem ▸ hname)

theorem latest_mem (h : latest name xs k = some x) : x ∈ xs ∧ name x = k := by
  obtain ⟨i, hi, hname, _⟩ := latest_eq_some.mp h
  exact ⟨List.mem_of_getElem? hi, hname⟩

/-- There is a latest element with a name as soon as there is one. -/
theorem latest_isSome : (∃ x, latest name xs k = some x) ↔ k ∈ xs.map name := by
  induction xs using List.reverseRecOn with
  | nil => simp
  | append_singleton xs y ih =>
    rw [latest_concat, List.map_append, List.mem_append, ← ih]
    by_cases hy : name y = k
    · simp [hy]
    · simp [hy, Ne.symm hy]

/-- Among distinct names each element is the latest with its name. -/
theorem latest_of_nodup (hnodup : (xs.map name).Nodup) (hx : x ∈ xs) :
    latest name xs (name x) = some x := by
  obtain ⟨y, hy⟩ := latest_isSome.mpr (List.mem_map_of_mem (f := name) hx)
  obtain ⟨hmem, hname⟩ := latest_mem hy
  rw [hy, List.inj_on_of_nodup_map hnodup hmem hx hname]

/-- Elements that go together under one name have latest elements that go together. -/
theorem rel_latest {name' : β → κ} {R : α → β → Prop} {ys : List β}
    (hname : ∀ x y, R x y → name x = name' y) (h : List.Forall₂ R xs ys) (k : κ) :
    Option.Rel R (latest name xs k) (latest name' ys k) := by
  unfold latest
  have hrev := List.forall₂_reverse_iff.mpr h
  generalize xs.reverse = xs' at hrev
  generalize ys.reverse = ys' at hrev
  induction hrev with
  | nil => exact .none
  | @cons x y xs ys hxy _ ih =>
    rw [List.find?_cons, List.find?_cons, hname x y hxy]
    cases decide (name' y = k) with
    | true => exact .some hxy
    | false => exact ih

/-- Elements at one place go together. -/
theorem rel_getElem? {R : α → β → Prop} {ys : List β} (h : List.Forall₂ R xs ys) (i : ℕ) :
    Option.Rel R xs[i]? ys[i]? := by
  induction h generalizing i with
  | nil => exact .none
  | cons hxy _ ih =>
    cases i with
    | zero => exact .some hxy
    | succ i => exact ih i

/-! ## Distinct elements -/

theorem length_eraseDups_le (ks : List κ) : ks.eraseDups.length ≤ ks.length := by
  induction hn : ks.length using Nat.strong_induction_on generalizing ks with
  | _ n ih =>
    cases ks with
    | nil => simp
    | cons k ks =>
      have hle : (ks.filter fun b => !b == k).length ≤ ks.length := List.length_filter_le ..
      rw [List.length_cons] at hn
      rw [List.eraseDups_cons, List.length_cons]
      have := ih _ (by omega) (ks.filter fun b => !b == k) rfl
      omega

/-- What comes last is kept if it is new. -/
theorem eraseDups_concat (ks : List κ) (k : κ) :
    (ks ++ [k]).eraseDups = if k ∈ ks then ks.eraseDups else ks.eraseDups ++ [k] := by
  rw [List.eraseDups_append]
  by_cases hk : k ∈ ks
  · rw [if_pos hk]
    simp [List.removeAll, hk]
  · rw [if_neg hk]
    simp [List.removeAll, hk, List.eraseDups_cons]

theorem nodup_eraseDups (ks : List κ) : ks.eraseDups.Nodup := by
  induction ks using List.reverseRecOn with
  | nil => exact List.nodup_nil
  | append_singleton ks k ih =>
    rw [eraseDups_concat]
    split
    · exact ih
    next hk =>
      rw [← List.concat_eq_append]
      exact ih.concat fun hmem => hk (List.mem_eraseDups.mp hmem)

/-- Distinct elements all stay. -/
theorem eraseDups_of_nodup {ks : List κ} (h : ks.Nodup) : ks.eraseDups = ks := by
  induction ks using List.reverseRecOn with
  | nil => rfl
  | append_singleton ks k ih =>
    rw [← List.concat_eq_append, List.nodup_concat] at h
    rw [eraseDups_concat, if_neg h.1, ih h.2]

/-- In another order the same elements stay. -/
theorem eraseDups_perm {ks ks' : List κ} (h : ks.Perm ks') : ks.eraseDups.Perm ks'.eraseDups := by
  rw [List.perm_ext_iff_of_nodup (nodup_eraseDups ks) (nodup_eraseDups ks')]
  intro k
  rw [List.mem_eraseDups, List.mem_eraseDups, h.mem_iff]

/-- Distinct elements of a list can come first. -/
theorem exists_eraseDups_eq {ks order : List κ} (h : order.Perm ks.eraseDups) :
    ∃ ks' : List κ, ks'.Perm ks ∧ ks'.eraseDups = order := by
  have hnodup : order.Nodup := h.nodup_iff.mpr (nodup_eraseDups ks)
  have hmem : ∀ k, k ∈ order ↔ k ∈ ks := fun k => by rw [h.mem_iff, List.mem_eraseDups]
  obtain ⟨part, hpart, hsub⟩ := List.subperm_of_subset hnodup fun k hk => (hmem k).mp hk
  obtain ⟨rest, hrest⟩ := hsub.exists_perm_append
  have hperm : (order ++ rest).Perm ks := (hpart.symm.append_right rest).trans hrest.symm
  refine ⟨order ++ rest, hperm, ?_⟩
  have hnone : rest.removeAll order = [] := by
    rw [List.removeAll, List.filter_eq_nil_iff]
    intro k hk
    have hin : k ∈ order := (hmem k).mpr (hperm.mem_iff.mp (List.mem_append_right _ hk))
    simpa using hin
  rw [List.eraseDups_append, hnone, List.eraseDups_nil, List.append_nil]
  exact eraseDups_of_nodup hnodup

/-- Where nothing is lost with the repetitions, there are none. -/
theorem nodup_of_length_eraseDups {ks : List κ} (h : ks.eraseDups.length = ks.length) :
    ks.Nodup := by
  induction ks with
  | nil => exact List.nodup_nil
  | cons k ks ih =>
    rw [List.eraseDups_cons, List.length_cons, List.length_cons] at h
    have hle := length_eraseDups_le (ks.filter fun b => !b == k)
    have hfilter : (ks.filter fun b => !b == k).length ≤ ks.length := List.length_filter_le ..
    have hlength : (ks.filter fun b => !b == k).length = ks.length := by omega
    have hall := List.filter_eq_self.mpr (List.length_filter_eq_length_iff.mp hlength)
    rw [hall] at h
    refine List.nodup_cons.mpr ⟨fun hk => ?_, ih (by omega)⟩
    have hne := List.filter_eq_self.mp hall k hk
    simp at hne

/-! ## Counts -/

/-- How often each key occurs. -/
def countBy (key : α → κ) (xs : List α) (m : JsMap κ ℕ) : JsMap κ ℕ :=
  xs.foldl (fun m x => m.set (key x) ((m.get (key x)).getD 0 + 1)) m

theorem get_countBy (key : α → κ) (xs : List α) (m : JsMap κ ℕ) (k : κ) :
    ((countBy key xs m).get k).getD 0 =
      (m.get k).getD 0 + (xs.filter fun x => key x = k).length := by
  unfold countBy
  induction xs generalizing m with
  | nil => simp
  | cons x xs ih =>
    rw [List.foldl_cons, ih, JsMap.get_set, List.filter_cons]
    by_cases hk : key x = k
    · simp [hk]
      omega
    · simp [hk]

end Collections
