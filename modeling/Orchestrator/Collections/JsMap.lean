import Mathlib.Data.List.Nodup
import Mathlib.Tactic

/-!
# Insertion-ordered maps

`JsMap κ α` is a map that remembers the order in which its keys were first set: setting a
key again keeps its place. That no key occurs twice is a field, so `get` finds the only
entry there is.
-/

namespace Collections

variable {κ α β : Type} [DecidableEq κ]

/-- The value at `k` in a list of entries. -/
def lookupEntry (k : κ) : List (κ × α) → Option α
  | [] => none
  | (k', v) :: es => if k' = k then some v else lookupEntry k es

/-- The entries after setting `k`: in place where `k` has one, and at the end otherwise. -/
def setEntry (k : κ) (v : α) : List (κ × α) → List (κ × α)
  | [] => [(k, v)]
  | (k', v') :: es => if k' = k then (k, v) :: es else (k', v') :: setEntry k v es

theorem keys_setEntry (k : κ) (v : α) (es : List (κ × α)) :
    (setEntry k v es).map Prod.fst =
      if k ∈ es.map Prod.fst then es.map Prod.fst else es.map Prod.fst ++ [k] := by
  induction es with
  | nil => simp [setEntry]
  | cons e es ih =>
    obtain ⟨k', v'⟩ := e
    by_cases hk : k' = k
    · simp [setEntry, hk]
    · have hk' : ¬k = k' := fun h => hk h.symm
      simp only [setEntry, if_neg hk, List.map_cons, ih, List.mem_cons, hk', false_or]
      split <;> simp

theorem lookupEntry_setEntry (k k' : κ) (v : α) (es : List (κ × α)) :
    lookupEntry k' (setEntry k v es) = if k = k' then some v else lookupEntry k' es := by
  induction es with
  | nil => rfl
  | cons e es ih =>
    obtain ⟨k'', v''⟩ := e
    by_cases hk : k'' = k
    · subst hk
      by_cases hk' : k'' = k' <;> simp [setEntry, lookupEntry, hk']
    · by_cases hk'' : k'' = k'
      · subst hk''
        simp [setEntry, lookupEntry, hk, Ne.symm hk]
      · simp [setEntry, lookupEntry, hk, hk'', ih]

theorem lookupEntry_eq_some {k : κ} {v : α} {es : List (κ × α)}
    (hes : (es.map Prod.fst).Nodup) : lookupEntry k es = some v ↔ (k, v) ∈ es := by
  induction es with
  | nil => simp [lookupEntry]
  | cons e es ih =>
    obtain ⟨k', v'⟩ := e
    simp only [List.map_cons, List.nodup_cons] at hes
    by_cases hk : k' = k
    · subst hk
      have hnot : (k', v) ∉ es := fun h => hes.1 (List.mem_map_of_mem (f := Prod.fst) h)
      simp [lookupEntry, hnot, eq_comm]
    · simp [lookupEntry, hk, ih hes.2, Ne.symm hk]

/-- A map with its keys in the order in which they were first set. -/
structure JsMap (κ α : Type) where
  entries : List (κ × α)
  nodup : (entries.map Prod.fst).Nodup

namespace JsMap

def empty : JsMap κ α := ⟨[], List.nodup_nil⟩

instance : Inhabited (JsMap κ α) := ⟨⟨[], List.nodup_nil⟩⟩

def get (m : JsMap κ α) (k : κ) : Option α := lookupEntry k m.entries

def has (m : JsMap κ α) (k : κ) : Bool := (m.get k).isSome

def set (m : JsMap κ α) (k : κ) (v : α) : JsMap κ α where
  entries := setEntry k v m.entries
  nodup := by
    rw [keys_setEntry]
    split
    · exact m.nodup
    · next hk =>
      rw [← List.concat_eq_append]
      exact m.nodup.concat hk

/-- `delete`. -/
def delete (m : JsMap κ α) (k : κ) : JsMap κ α where
  entries := m.entries.filter fun e => e.1 ≠ k
  nodup := m.nodup.sublist (List.filter_sublist.map _)

def keys (m : JsMap κ α) : List κ := m.entries.map Prod.fst

def values (m : JsMap κ α) : List α := m.entries.map Prod.snd

/-- The map of a list of pairs, a later pair overwriting an earlier one. -/
def ofList (es : List (κ × α)) : JsMap κ α := es.foldl (fun m e => m.set e.1 e.2) empty

@[simp] theorem get_empty (k : κ) : (empty : JsMap κ α).get k = none := rfl

theorem get_set (m : JsMap κ α) (k k' : κ) (v : α) :
    (m.set k v).get k' = if k = k' then some v else m.get k' :=
  lookupEntry_setEntry k k' v m.entries

@[simp] theorem get_set_self (m : JsMap κ α) (k : κ) (v : α) : (m.set k v).get k = some v := by
  rw [get_set, if_pos rfl]

@[simp] theorem get_set_ne (m : JsMap κ α) {k k' : κ} (v : α) (h : k ≠ k') :
    (m.set k v).get k' = m.get k' := by
  rw [get_set, if_neg h]

theorem get_eq_some {m : JsMap κ α} {k : κ} {v : α} : m.get k = some v ↔ (k, v) ∈ m.entries :=
  lookupEntry_eq_some m.nodup

theorem mem_values {m : JsMap κ α} {v : α} : v ∈ m.values ↔ ∃ k, m.get k = some v := by
  simp only [values, List.mem_map, get_eq_some, Prod.exists, exists_eq_right]

theorem get_delete (m : JsMap κ α) (k k' : κ) :
    (m.delete k).get k' = if k = k' then none else m.get k' := by
  refine Option.ext fun v => ?_
  rw [get_eq_some, delete, List.mem_filter, ← get_eq_some, decide_eq_true_eq]
  split
  · next h => simp [h]
  · next h => simp [Ne.symm h]

@[simp] theorem get_delete_self (m : JsMap κ α) (k : κ) : (m.delete k).get k = none := by
  rw [get_delete, if_pos rfl]

@[simp] theorem get_delete_ne (m : JsMap κ α) {k k' : κ} (h : k ≠ k') :
    (m.delete k).get k' = m.get k' := by
  rw [get_delete, if_neg h]

/-! ## Maps of lists -/

theorem keys_set (m : JsMap κ α) (k : κ) (v : α) :
    (m.set k v).keys = if k ∈ m.keys then m.keys else m.keys ++ [k] :=
  keys_setEntry k v m.entries

omit [DecidableEq κ] in
theorem length_keys (m : JsMap κ α) : m.keys.length = m.entries.length := List.length_map _

theorem length_set (m : JsMap κ α) (k : κ) (v : α) :
    (m.set k v).entries.length = if k ∈ m.keys then m.entries.length else m.entries.length + 1 := by
  rw [← length_keys, keys_set]
  split
  · rw [length_keys]
  · rw [List.length_append, length_keys, List.length_singleton]

theorem mem_keys {m : JsMap κ α} {k : κ} : k ∈ m.keys ↔ (m.get k).isSome = true := by
  rw [keys, List.mem_map, Option.isSome_iff_exists]
  constructor
  · rintro ⟨⟨k', v⟩, he, rfl⟩
    exact ⟨v, get_eq_some.mpr he⟩
  · rintro ⟨v, hv⟩
    exact ⟨(k, v), get_eq_some.mp hv, rfl⟩

omit [DecidableEq κ] in
theorem keys_nodup (m : JsMap κ α) : m.keys.Nodup := m.nodup

/-- A map built from as many entries as it has keys was built from distinct keys. -/
theorem nodup_of_length_foldl_set (es : List (κ × α)) (m : JsMap κ α)
    (h : m.entries.length + es.length ≤
      (es.foldl (fun m e => m.set e.1 e.2) m).entries.length) :
    (m.keys ++ es.map Prod.fst).Nodup := by
  have hle : ∀ (es : List (κ × α)) (m : JsMap κ α),
      (es.foldl (fun m e => m.set e.1 e.2) m).entries.length ≤ m.entries.length + es.length := by
    intro es
    induction es with
    | nil => exact fun m => le_rfl
    | cons e es ih =>
      intro m
      refine (ih _).trans ?_
      rw [length_set, List.length_cons]
      split <;> omega
  induction es generalizing m with
  | nil => simpa using m.keys_nodup
  | cons e es ih =>
    rw [List.foldl_cons, List.length_cons] at h
    have hbound := hle es (m.set e.1 e.2)
    rw [length_set] at hbound
    by_cases hk : e.1 ∈ m.keys
    · rw [if_pos hk] at hbound
      omega
    · rw [if_neg hk] at hbound
      have hnodup := ih (m.set e.1 e.2) (by rw [length_set, if_neg hk]; omega)
      rw [keys_set, if_neg hk, List.append_assoc] at hnodup
      simpa using hnodup

theorem nodup_of_length_ofList (es : List (κ × α)) (h : es.length ≤ (ofList es).entries.length) :
    (es.map Prod.fst).Nodup := by
  have hnodup := nodup_of_length_foldl_set es empty (by simpa [empty, ofList] using h)
  simpa [keys, empty] using hnodup

theorem get_foldl_set (es : List (κ × α)) (m : JsMap κ α) {k : κ} (hk : k ∉ es.map Prod.fst) :
    (es.foldl (fun m e => m.set e.1 e.2) m).get k = m.get k := by
  induction es generalizing m with
  | nil => rfl
  | cons e es ih =>
    simp only [List.map_cons, List.mem_cons, not_or] at hk
    rw [List.foldl_cons, ih _ hk.2, get_set_ne _ _ (Ne.symm hk.1)]

/-- A map built from distinct keys has just the entries it was built from. -/
theorem get_ofList {es : List (κ × α)} (hnodup : (es.map Prod.fst).Nodup) {k : κ} {v : α}
    (he : (k, v) ∈ es) : (ofList es).get k = some v := by
  obtain ⟨es₁, es₂, rfl⟩ := List.append_of_mem he
  rw [ofList, List.foldl_append, List.foldl_cons, get_foldl_set, get_set_self]
  simp only [List.map_append, List.map_cons] at hnodup
  exact (List.nodup_cons.mp hnodup.of_append_right).1

/-- A map built from entries that agree on a key has their value under it. -/
theorem get_ofList_of_forall {es : List (κ × α)} {k : κ} {v : α} (he : (k, v) ∈ es)
    (hall : ∀ v', (k, v') ∈ es → v' = v) : (ofList es).get k = some v := by
  have hfold : ∀ (es : List (κ × α)) (m : JsMap κ α), m.get k = some v ∨ (k, v) ∈ es →
      (∀ v', (k, v') ∈ es → v' = v) →
      (es.foldl (fun m e => m.set e.1 e.2) m).get k = some v := by
    intro es
    induction es with
    | nil => exact fun m h _ => h.resolve_right List.not_mem_nil
    | cons e es ih =>
      obtain ⟨k', v'⟩ := e
      intro m h hall
      refine ih _ ?_ fun v'' hv'' => hall v'' (List.mem_cons_of_mem _ hv'')
      by_cases hk : k' = k
      · subst hk
        exact .inl (by rw [get_set_self, hall v' List.mem_cons_self])
      · refine h.imp (fun h => (get_set_ne m v' hk).trans h) fun h => ?_
        exact (List.mem_cons.mp h).resolve_left fun h => hk (congrArg Prod.fst h).symm
  exact hfold es .empty (.inr he) hall

/-- What a map was built from: a value comes from an entry of its key, and every key has one. -/
theorem get_ofList_mem (es : List (κ × α)) (k : κ) :
    (∀ v, (ofList es).get k = some v → (k, v) ∈ es) ∧
      (k ∈ es.map Prod.fst → ((ofList es).get k).isSome = true) := by
  induction es using List.reverseRecOn with
  | nil => exact ⟨fun _ h => (nomatch h), fun h => (nomatch h)⟩
  | append_singleton es e ih =>
    rw [ofList, List.foldl_append, List.foldl_cons, List.foldl_nil, ← ofList, get_set]
    by_cases hk : e.1 = k
    · rw [if_pos hk]
      refine ⟨fun v hv => ?_, fun _ => rfl⟩
      rw [← hk, ← Option.some.inj hv]
      exact List.mem_append_right _ List.mem_cons_self
    · rw [if_neg hk]
      refine ⟨fun v hv => List.mem_append_left _ (ih.1 v hv), fun hmem => ih.2 ?_⟩
      rw [List.map_append, List.mem_append] at hmem
      refine hmem.resolve_right fun h => hk ?_
      exact (List.mem_singleton.mp h).symm

/-- Keys keep their places when more is set. -/
theorem keys_prefix_foldl_set (es : List (κ × α)) (m : JsMap κ α) :
    m.keys <+: (es.foldl (fun m e => m.set e.1 e.2) m).keys := by
  induction es generalizing m with
  | nil => exact List.prefix_refl _
  | cons e es ih =>
    refine List.IsPrefix.trans ?_ (ih (m.set e.1 e.2))
    rw [keys_set]
    split
    · exact List.prefix_refl _
    · exact List.prefix_append _ _

/-- What holds of every value and of the one set holds of every value afterwards. -/
theorem forall_get_set {m : JsMap κ α} {k : κ} {v : α} {p : κ → α → Prop} (hv : p k v)
    (hm : ∀ k' w, m.get k' = some w → p k' w) :
    ∀ k' w, (m.set k v).get k' = some w → p k' w := by
  intro k' w hw
  rw [get_set] at hw
  split at hw
  · next h =>
    cases hw
    exact h ▸ hv
  · exact hm _ _ hw

/-! ## Selected values -/

theorem setEntry_of_none {k : κ} {es : List (κ × α)} (h : lookupEntry k es = none) (v : α) :
    setEntry k v es = es ++ [(k, v)] := by
  induction es with
  | nil => rfl
  | cons e es ih =>
    obtain ⟨k', v'⟩ := e
    unfold lookupEntry at h
    split at h
    · exact nomatch h
    next hk => rw [setEntry, if_neg hk, ih h, List.cons_append]

/-- A new key comes last. -/
theorem values_set_of_none {m : JsMap κ α} {k : κ} (h : m.get k = none) (v : α) :
    (m.set k v).values = m.values ++ [v] := by
  change (setEntry k v m.entries).map Prod.snd = _
  rw [setEntry_of_none h, List.map_append, List.map_singleton]
  rfl

/-- Values that are not selected come and go unseen. -/
theorem filter_values_set {m : JsMap κ α} {k : κ} {v : α} {p : α → Bool}
    (hold : ∀ w, m.get k = some w → p w = false) (hnew : p v = false) :
    (m.set k v).values.filter p = m.values.filter p := by
  have hentries (es : List (κ × α)) (h : ∀ w, lookupEntry k es = some w → p w = false) :
      ((setEntry k v es).map Prod.snd).filter p = (es.map Prod.snd).filter p := by
    induction es with
    | nil => simp [setEntry, hnew]
    | cons e es ih =>
      obtain ⟨k', w⟩ := e
      by_cases hk : k' = k
      · have hw : p w = false := h w (by rw [lookupEntry, if_pos hk])
        simp [setEntry, hk, hnew, hw]
      · have hrest := ih fun w' hw' => h w' (by rw [lookupEntry, if_neg hk, hw'])
        rw [setEntry, if_neg hk, List.map_cons, List.map_cons, List.filter_cons, List.filter_cons,
          hrest]
  exact hentries m.entries hold

/-! ## Sums over the values -/

theorem sum_setEntry {M : Type} [AddCommMonoid M] (f : α → M) (k : κ) (v : α) (es : List (κ × α)) :
    ((setEntry k v es).map fun e => f e.2).sum + (lookupEntry k es).elim 0 f =
      (es.map fun e => f e.2).sum + f v := by
  induction es with
  | nil => simp [setEntry, lookupEntry]
  | cons e es ih =>
    obtain ⟨k', v'⟩ := e
    by_cases hk : k' = k
    · simp only [setEntry, lookupEntry, if_pos hk, List.map_cons, List.sum_cons, Option.elim_some]
      abel
    · simp only [setEntry, lookupEntry, if_neg hk, List.map_cons, List.sum_cons]
      rw [add_assoc, ih, add_assoc]

/-- Setting a key adds its new value to a sum over the values and takes its old one away. -/
theorem sum_values_set {M : Type} [AddCommMonoid M] (f : α → M) (m : JsMap κ α) (k : κ) (v : α) :
    ((m.set k v).values.map f).sum + (m.get k).elim 0 f = (m.values.map f).sum + f v := by
  have h := sum_setEntry f k v m.entries
  simpa only [values, set, get, List.map_map, Function.comp_def] using h

end JsMap

end Collections
