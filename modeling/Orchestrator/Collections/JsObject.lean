import Orchestrator.Collections.JsValue
import Orchestrator.Collections.Latest

/-!
# Plain objects that are filled by assignment

The properties of a plain object are listed by their array indices first, in ascending order, and
then in the order in which they were added.

* `arrayIndex`, `ownOrder`: that order;
* `putOwn`, `table`: `object[key] = value`, and an object filled from a list;
* `get_table`, `keys_table`: what it holds;
* `table_tree_iff`: when two objects filled from lists are written as the same text.
-/

namespace Collections

/-! ## The order of keys -/

/-- The array index that a key is the numeral of. -/
def arrayIndex (key : String) : Option ℕ :=
  let n := Nat.ofDigitChars 10 key.toList 0
  if key.toList = Nat.toDigits 10 n ∧ n < 2 ^ 32 - 1 then some n else none

/-- The keys of an object, as `Object.keys` lists them. -/
def ownOrder (keys : List String) : List String :=
  (keys.filter fun k => (arrayIndex k).isSome).insertionSort
      (fun k k' => (arrayIndex k).getD 0 ≤ (arrayIndex k').getD 0) ++
    keys.filter fun k => !(arrayIndex k).isSome

theorem ownOrder_perm (keys : List String) : (ownOrder keys).Perm keys :=
  ((List.perm_insertionSort _ _).append_right _).trans
    (List.filter_append_perm (fun k => (arrayIndex k).isSome) keys)

theorem mem_ownOrder {key : String} {keys : List String} : key ∈ ownOrder keys ↔ key ∈ keys :=
  (ownOrder_perm keys).mem_iff

/-! ## Assignment -/

variable {α β : Type}

/-- `object[key] = value`, for a value that is no object: `__proto__` is not an own property. -/
def putOwn (m : JsMap String β) (key : String) (value : β) : JsMap String β :=
  if key = "__proto__" then m else m.set key value

/-- The object that is filled from a list. -/
def table (name : α → String) (f : α → β) (xs : List α) : JsMap String β :=
  xs.foldl (fun m x => putOwn m (name x) (f x)) .empty

/-- The keys of an object to which these were assigned, by age. -/
def ownNames (names : List String) : List String := (names.filter (· ≠ "__proto__")).eraseDups

variable {name : α → String} {f : α → β} {xs ys : List α}

theorem table_concat (x : α) :
    table name f (xs ++ [x]) = putOwn (table name f xs) (name x) (f x) := by
  unfold table
  rw [List.foldl_append, List.foldl_cons, List.foldl_nil]

/-- Only the names and the values count. -/
theorem table_map : table Prod.fst Prod.snd (xs.map fun x => (name x, f x)) = table name f xs := by
  unfold table
  rw [List.foldl_map]

/-- The value under a key is that of the latest element of that name. -/
theorem get_table (key : String) :
    (table name f xs).get key =
      if key = "__proto__" then none else (latest name xs key).map f := by
  induction xs using List.reverseRecOn with
  | nil => simp [table]
  | append_singleton xs x ih =>
    rw [table_concat, latest_concat]
    unfold putOwn
    by_cases hproto : name x = "__proto__"
    · rw [if_pos hproto, ih]
      by_cases hkey : key = "__proto__"
      · rw [if_pos hkey, if_pos hkey]
      · rw [if_neg hkey, if_neg hkey, if_neg (fun h => hkey (h.symm.trans hproto))]
    · rw [if_neg hproto, JsMap.get_set, ih]
      by_cases hname : name x = key
      · rw [if_pos hname, if_pos hname, if_neg (fun h => hproto (hname.trans h)), Option.map_some]
      · rw [if_neg hname, if_neg hname]

theorem ownNames_concat (names : List String) (k : String) :
    ownNames (names ++ [k]) =
      if k = "__proto__" ∨ k ∈ ownNames names then ownNames names else ownNames names ++ [k] := by
  unfold ownNames
  rw [List.filter_append]
  by_cases hproto : k = "__proto__"
  · simp [hproto]
  · have hlast : [k].filter (· ≠ "__proto__") = [k] := by simp [hproto]
    rw [hlast, eraseDups_concat]
    by_cases hmem : k ∈ names <;> simp [hproto, hmem]

theorem keys_table : (table name f xs).keys = ownNames (xs.map name) := by
  induction xs using List.reverseRecOn with
  | nil => rfl
  | append_singleton xs x ih =>
    rw [table_concat, List.map_append, List.map_singleton, ownNames_concat]
    unfold putOwn
    by_cases hproto : name x = "__proto__"
    · rw [if_pos hproto, if_pos (.inl hproto), ih]
    · rw [if_neg hproto, JsMap.keys_set, ih]
      by_cases hmem : name x ∈ ownNames (xs.map name) <;> simp [hproto, hmem]

/-! ## Mapped values -/

/-- The same keys with other values. -/
def JsMap.mapValues {γ : Type} (m : JsMap String β) (g : β → γ) : JsMap String γ where
  entries := m.entries.map fun e => (e.1, g e.2)
  nodup := by
    rw [List.map_map]
    exact m.nodup

theorem mapValues_set {γ : Type} (m : JsMap String β) (g : β → γ) (key : String) (value : β) :
    (m.set key value).mapValues g = (m.mapValues g).set key (g value) := by
  have hentries (es : List (String × β)) :
      (setEntry key value es).map (fun e => (e.1, g e.2)) =
        setEntry key (g value) (es.map fun e => (e.1, g e.2)) := by
    induction es with
    | nil => rfl
    | cons e es ih =>
      rw [setEntry, List.map_cons, setEntry]
      split
      · rfl
      · rw [List.map_cons, ih]
  unfold JsMap.mapValues JsMap.set
  simp only [hentries]

theorem mapValues_table {γ : Type} (g : β → γ) :
    (table name f xs).mapValues g = table name (fun x => g (f x)) xs := by
  induction xs using List.reverseRecOn with
  | nil => rfl
  | append_singleton xs x ih =>
    rw [table_concat, table_concat]
    unfold putOwn
    split
    · exact ih
    · rw [mapValues_set, ih]

/-! ## Text -/

/-- The properties of an object, in the order of its keys. -/
def objectFields (m : JsMap String JsValue) : List (String × JsValue) :=
  (ownOrder m.keys).filterMap fun key => (m.get key).map (key, ·)

/-- Lists of properties whose values are all written are the same where the keys and the values
are. -/
theorem filterMap_fields_inj {keys keys' : List String} {g g' : String → Option JsonTree}
    (hg : ∀ k ∈ keys, (g k).isSome) (hg' : ∀ k ∈ keys', (g' k).isSome) :
    keys.filterMap (fun k => (g k).map (k, ·)) = keys'.filterMap (fun k => (g' k).map (k, ·)) ↔
      keys = keys' ∧ ∀ k ∈ keys, g k = g' k := by
  have hfst {ks : List String} {h : String → Option JsonTree} (hh : ∀ k ∈ ks, (h k).isSome) :
      (ks.filterMap fun k => (h k).map (k, ·)).map Prod.fst = ks := by
    induction ks with
    | nil => rfl
    | cons k ks ih =>
      obtain ⟨j, hj⟩ := Option.isSome_iff_exists.mp (hh k List.mem_cons_self)
      rw [List.filterMap_cons, hj, Option.map_some, List.map_cons,
        ih fun k' hk' => hh k' (List.mem_cons_of_mem k hk')]
  constructor
  · intro heq
    obtain rfl : keys = keys' := by rw [← hfst hg, heq, hfst hg']
    refine ⟨rfl, fun k hk => ?_⟩
    induction keys with
    | nil => exact nomatch hk
    | cons k' ks ih =>
      obtain ⟨j, hj⟩ := Option.isSome_iff_exists.mp (hg k' List.mem_cons_self)
      obtain ⟨j', hj'⟩ := Option.isSome_iff_exists.mp (hg' k' List.mem_cons_self)
      rw [List.filterMap_cons, List.filterMap_cons, hj, hj', Option.map_some, Option.map_some,
        List.cons.injEq, Prod.mk.injEq] at heq
      rcases List.mem_cons.mp hk with rfl | hk
      · rw [hj, hj', heq.1.2]
      · exact ih (fun a ha => hg a (List.mem_cons_of_mem k' ha))
          (fun a ha => hg' a (List.mem_cons_of_mem k' ha)) heq.2 hk
  · rintro ⟨rfl, hsame⟩
    refine List.filterMap_congr fun k hk => ?_
    rw [hsame k hk]

/-- Objects filled from lists are written alike exactly if their keys come in the same order and the
latest elements of each name are. -/
theorem table_tree_iff {f : α → JsValue} (hf : ∀ x, (f x).toTree.isSome) :
    (JsValue.object (objectFields (table name f xs))).toTree =
        (JsValue.object (objectFields (table name f ys))).toTree ↔
      ownOrder (ownNames (xs.map name)) = ownOrder (ownNames (ys.map name)) ∧
        ∀ key ∈ ownNames (xs.map name), (latest name xs key).bind (fun x => (f x).toTree) =
          (latest name ys key).bind fun x => (f x).toTree := by
  have hnames {zs : List α} {key : String} :
      key ∈ ownOrder (ownNames (zs.map name)) ↔ key ≠ "__proto__" ∧ key ∈ zs.map name := by
    rw [mem_ownOrder, ownNames, List.mem_eraseDups, List.mem_filter, decide_eq_true_eq, and_comm]
  have hwritten {zs : List α} : ∀ key ∈ ownOrder (ownNames (zs.map name)),
      ((latest name zs key).bind fun x => (f x).toTree).isSome := by
    intro key hkey
    obtain ⟨x, hx⟩ := latest_isSome.mpr (hnames.mp hkey).2
    rw [hx]
    exact hf x
  have htree (zs : List α) : JsValue.fieldTrees (objectFields (table name f zs)) =
      (ownOrder (ownNames (zs.map name))).filterMap fun key =>
        ((latest name zs key).bind fun x => (f x).toTree).map (key, ·) := by
    rw [JsValue.fieldTrees_eq, objectFields, keys_table, List.filterMap_filterMap]
    refine List.filterMap_congr fun key hkey => ?_
    rw [get_table, if_neg (hnames.mp hkey).1]
    cases latest name zs key <;> rfl
  rw [JsValue.toTree, JsValue.toTree, Option.some_inj, JsonTree.object.injEq, htree, htree,
    filterMap_fields_inj hwritten hwritten]
  simp only [mem_ownOrder]

/-- Objects with the same first key are written alike exactly if its values and the other properties
are. -/
theorem fieldTrees_cons_inj {key : String} {v v' : JsValue} {fs fs' : List (String × JsValue)}
    (hv : v.toTree.isSome) (hv' : v'.toTree.isSome) :
    JsValue.fieldTrees ((key, v) :: fs) = JsValue.fieldTrees ((key, v') :: fs') ↔
      v.toTree = v'.toTree ∧ JsValue.fieldTrees fs = JsValue.fieldTrees fs' := by
  obtain ⟨j, hj⟩ := Option.isSome_iff_exists.mp hv
  obtain ⟨j', hj'⟩ := Option.isSome_iff_exists.mp hv'
  simp [JsValue.fieldTrees, hj, hj']

end Collections
