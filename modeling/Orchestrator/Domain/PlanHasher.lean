import Orchestrator.Collections.JsValue

/-!
# Plan hashes

The hash of a plan is the hash of its canonical text, in which the keys of every object are
sorted.

* `canonicalizeValue`, `canonicalizePlan`, `hash`: the hasher;
* `SameJson`: values that are equal but for the order of their keys;
* `Plain`: values whose text says what they are;
* `canonicalTree_iff`: plain values have the same canonical tree where they are the same.
-/

namespace Orchestrator

open Collections Numbers
open JsValue (property sortKeys toTree)

/-! ## The hasher -/

mutual

/-- `canonicalizeValue`. -/
def canonicalizeValue : JsValue → JsValue
  | .undefined => .undefined
  | .null => .null
  | .bool b => .bool b
  | .number n => .number n
  | .string s => .string s
  | .array items => .array (canonicalizeItems items)
  | .object fields =>
    .object ((sortKeys fields).map fun key => (key, property key (canonicalizeFields fields)))

def canonicalizeItems : List JsValue → List JsValue
  | [] => []
  | v :: vs => canonicalizeValue v :: canonicalizeItems vs

def canonicalizeFields : List (String × JsValue) → List (String × JsValue)
  | [] => []
  | (key, v) :: fs => (key, canonicalizeValue v) :: canonicalizeFields fs

end

/-- The plan less its own hash. -/
def withoutHash (plan : List (String × JsValue)) : List (String × JsValue) :=
  plan.filter fun f => f.1 ≠ "planHash"

/-- `canonicalizePlan`. -/
def canonicalizePlan (plan : List (String × JsValue)) : Option String :=
  (canonicalizeValue (.object (withoutHash plan))).stringify

/-- `Sha256PlanHasher.hash`. -/
def hash (sha256 : String → String) (plan : List (String × JsValue)) : Option String :=
  (canonicalizePlan plan).map sha256

theorem canonicalizeItems_eq (vs : List JsValue) :
    canonicalizeItems vs = vs.map canonicalizeValue := by
  induction vs with
  | nil => rfl
  | cons v vs ih => rw [canonicalizeItems, List.map_cons, ih]

theorem property_canonicalizeFields (key : String) (fields : List (String × JsValue)) :
    property key (canonicalizeFields fields) = canonicalizeValue (property key fields) := by
  induction fields with
  | nil => rfl
  | cons f fs ih =>
    obtain ⟨k, v⟩ := f
    unfold property at ih ⊢
    rw [canonicalizeFields, List.lookup_cons, List.lookup_cons]
    cases key == k with
    | true => rfl
    | false => exact ih

/-! ## Values that are the same -/

/-- The values are equal as JSON, but for the order of the keys of objects. A property that is
undefined counts as missing, and zero has no sign. -/
inductive SameJson : JsValue → JsValue → Prop
  | undefined : SameJson .undefined .undefined
  | null : SameJson .null .null
  | bool (b : Bool) : SameJson (.bool b) (.bool b)
  | number {m n : JsNumber} (h : m.unsignedZero = n.unsignedZero) : SameJson (.number m) (.number n)
  | string (s : String) : SameJson (.string s) (.string s)
  | array {vs ws : List JsValue} (h : List.Forall₂ SameJson vs ws) : SameJson (.array vs) (.array ws)
  | object {fs gs : List (String × JsValue)} (h : ∀ k, SameJson (property k fs) (property k gs)) :
    SameJson (.object fs) (.object gs)

/-- The value has no `null`, no number that is written like one but infinity, and no array with an
undefined item. -/
inductive Plain : JsValue → Prop
  | undefined : Plain .undefined
  | bool (b : Bool) : Plain (.bool b)
  | number {n : JsNumber} (hnan : n ≠ .nan) (hinfinity : n ≠ .infinity true) : Plain (.number n)
  | string (s : String) : Plain (.string s)
  | array {vs : List JsValue} (h : ∀ v ∈ vs, Plain v) (hdefined : ∀ v ∈ vs, v ≠ .undefined) :
    Plain (.array vs)
  | object {fs : List (String × JsValue)} (h : ∀ k, Plain (property k fs)) : Plain (.object fs)

/-! ## Canonical trees -/

/-- The tree of the canonical form of a value. -/
def canonicalTree (v : JsValue) : Option JsonTree := toTree (canonicalizeValue v)

theorem canonicalTree_array (vs : List JsValue) : canonicalTree (.array vs) =
    some (.array (vs.map fun v => (canonicalTree v).getD (.atom .null))) := by
  rw [canonicalTree, canonicalizeValue, toTree, JsValue.itemTrees_eq, canonicalizeItems_eq,
    List.map_map]
  rfl

/-- The entries that a map has for keys, in the order of the keys. -/
def entries {α : Type} (keys : List String) (T : String → Option α) : List (String × α) :=
  keys.filterMap fun k => (T k).map (k, ·)

theorem canonicalTree_object (fs : List (String × JsValue)) : canonicalTree (.object fs) =
    some (.object (entries (sortKeys fs) fun k => canonicalTree (property k fs))) := by
  rw [canonicalTree, canonicalizeValue, toTree, JsValue.fieldTrees_eq, List.filterMap_map]
  simp only [Function.comp_def, property_canonicalizeFields]
  rfl

section

variable {α : Type} {T : String → Option α}

theorem entries_filter (keys : List String) :
    entries keys T = entries (keys.filter fun k => (T k).isSome) T := by
  unfold entries
  rw [List.filterMap_filter]
  congr 1
  funext k
  cases T k <;> rfl

theorem lookup_entries {keys : List String} {k : String} (h : (T k).isSome → k ∈ keys) :
    (entries keys T).lookup k = T k := by
  unfold entries
  induction keys with
  | nil =>
    cases hk : T k with
    | none => rfl
    | some a => exact absurd (h (by rw [hk]; rfl)) (by simp)
  | cons k' keys ih =>
    rw [List.filterMap_cons]
    by_cases heq : k = k'
    · subst heq
      cases hk : T k with
      | none =>
        refine (ih ?_).trans hk
        rw [hk]
        intro hsome
        cases hsome
      | some a => exact List.lookup_cons_self
    · have hmem : (T k).isSome → k ∈ keys := fun hsome => List.mem_of_ne_of_mem heq (h hsome)
      cases T k' with
      | none => exact ih hmem
      | some a =>
        rw [Option.map_some, List.lookup_cons, beq_false_of_ne heq]
        exact ih hmem

end

theorem mem_keys_of_isSome {fs : List (String × JsValue)} {k : String}
    (h : (canonicalTree (property k fs)).isSome = true) : k ∈ fs.map Prod.fst := by
  by_contra hnot
  rw [JsValue.property_eq_undefined hnot] at h
  cases h

/-- Canonical objects are the same where their properties are. -/
theorem canonicalTree_object_iff {fs gs : List (String × JsValue)} :
    canonicalTree (.object fs) = canonicalTree (.object gs) ↔
      ∀ k, canonicalTree (property k fs) = canonicalTree (property k gs) := by
  rw [canonicalTree_object, canonicalTree_object, Option.some.injEq, JsonTree.object.injEq]
  constructor
  · intro h k
    have hlookup := congrArg (List.lookup k) h
    rwa [lookup_entries fun hk => JsValue.mem_sortKeys.mpr (mem_keys_of_isSome hk),
      lookup_entries fun hk => JsValue.mem_sortKeys.mpr (mem_keys_of_isSome hk)] at hlookup
  · intro h
    have hfun : (fun k => canonicalTree (property k fs)) = fun k => canonicalTree (property k gs) :=
      funext h
    rw [hfun, entries_filter (sortKeys fs), entries_filter (sortKeys gs)]
    rw [JsValue.sortKeys_filter (fun k hk => mem_keys_of_isSome ((h k).symm ▸ hk))
      fun k hk => mem_keys_of_isSome hk]

/-- Values that are the same have the same canonical tree. -/
theorem SameJson.canonicalTree_eq {v : JsValue} :
    ∀ {w : JsValue}, SameJson v w → canonicalTree v = canonicalTree w := by
  induction v using JsValue.induct with
  | array vs ih =>
    intro w h
    cases h with
    | array h =>
      rw [canonicalTree_array, canonicalTree_array]
      congr 2
      induction h with
      | nil => rfl
      | cons hv _ ihs =>
        rw [List.map_cons, List.map_cons, ih _ (by simp) hv,
          ihs fun v hv => ih v (List.mem_cons_of_mem _ hv)]
  | object fs ih =>
    intro w h
    cases h with
    | object h => exact canonicalTree_object_iff.mpr fun k => ih k (h k)
  | number n =>
    intro w h
    cases h with
    | number h =>
      exact congrArg (fun a => some (JsonTree.atom a)) (JsValue.numberAtom_congr h)
  | _ =>
    intro w h
    cases h
    rfl

/-! ## Values whose text says what they are -/

theorem numberAtom_inj {m n : JsNumber} (hm : m ≠ .nan ∧ m ≠ .infinity true)
    (hn : n ≠ .nan ∧ n ≠ .infinity true) (h : JsValue.numberAtom m = JsValue.numberAtom n) :
    m.unsignedZero = n.unsignedZero := by
  have hletter : 'n' ∈ AtomText.null.chars := by decide
  match m, n, hm, hn with
  | .nan, _, hm, _ => exact absurd rfl hm.1
  | _, .nan, _, hn => exact absurd rfl hn.1
  | .infinity true, _, hm, _ => exact absurd rfl hm.2
  | _, .infinity true, _, hn => exact absurd rfl hn.2
  | .infinity false, .infinity false, _, _ => rfl
  | .finite _ _, .finite _ _, _, _ => exact JsValue.finiteAtom_inj h
  | .finite _ _, .infinity false, _, _ => exact absurd h (JsValue.finiteAtom_ne hletter (by decide))
  | .infinity false, .finite _ _, _, _ =>
    exact absurd h.symm (JsValue.finiteAtom_ne hletter (by decide))

/-- Only what is undefined is not written. -/
theorem canonicalTree_isSome {v : JsValue} (h : v ≠ .undefined) :
    ∃ j, canonicalTree v = some j := by
  cases v with
  | undefined => exact absurd rfl h
  | array vs => exact ⟨_, canonicalTree_array vs⟩
  | object fs => exact ⟨_, canonicalTree_object fs⟩
  | _ => exact ⟨_, rfl⟩

/-- Items with the same trees are pairwise the same. -/
theorem forall₂_of_trees (vs : List JsValue) (hvs : ∀ v ∈ vs, v ≠ .undefined)
    (ih : ∀ v ∈ vs, ∀ w, Plain w → canonicalTree v = canonicalTree w → SameJson v w) :
    ∀ ws : List JsValue, (∀ w ∈ ws, Plain w) → (∀ w ∈ ws, w ≠ .undefined) →
      (vs.map fun v => (canonicalTree v).getD (.atom .null)) =
        (ws.map fun w => (canonicalTree w).getD (.atom .null)) → List.Forall₂ SameJson vs ws := by
  induction vs with
  | nil =>
    intro ws _ _ h
    rw [List.map_nil, eq_comm, List.map_eq_nil_iff] at h
    rw [h]
    exact List.Forall₂.nil
  | cons v vs ihs =>
    intro ws hplain hws h
    cases ws with
    | nil => cases h
    | cons w ws =>
      rw [List.map_cons, List.map_cons, List.cons.injEq] at h
      obtain ⟨j, hj⟩ := canonicalTree_isSome (hvs v (by simp))
      obtain ⟨j', hj'⟩ := canonicalTree_isSome (hws w (by simp))
      have htree : canonicalTree v = canonicalTree w := by
        rw [hj, hj', Option.getD_some, Option.getD_some] at h
        rw [hj, hj', h.1]
      refine List.Forall₂.cons (ih v (by simp) w (hplain w (by simp)) htree) ?_
      exact ihs (fun v hv => hvs v (by simp [hv])) (fun v hv => ih v (by simp [hv])) ws
        (fun w hw => hplain w (by simp [hw])) (fun w hw => hws w (by simp [hw])) h.2

/-- Plain values with the same canonical tree are the same. -/
theorem Plain.sameJson {v : JsValue} (hv : Plain v) :
    ∀ {w : JsValue}, Plain w → canonicalTree v = canonicalTree w → SameJson v w := by
  induction v using JsValue.induct with
  | undefined =>
    intro w _ h
    by_cases hw : w = .undefined
    · rw [hw]
      exact SameJson.undefined
    · obtain ⟨j, hj⟩ := canonicalTree_isSome hw
      rw [hj] at h
      cases h
  | null => cases hv
  | bool b =>
    intro w hw h
    cases hw with
    | bool b' =>
      have hatom := JsonTree.atom.inj (Option.some.inj h)
      rw [JsValue.boolAtom_inj hatom]
      exact SameJson.bool b'
    | number _ _ =>
      exact absurd (JsonTree.atom.inj (Option.some.inj h)).symm (JsValue.numberAtom_ne_boolAtom _ b)
    | _ => simp [canonicalTree, canonicalizeValue, toTree] at h
  | number n =>
    intro w hw h
    cases hv with
    | number hnan hinfinity =>
      cases hw with
      | bool b' =>
        exact absurd (JsonTree.atom.inj (Option.some.inj h)) (JsValue.numberAtom_ne_boolAtom n b')
      | number hnan' hinfinity' =>
        exact SameJson.number (numberAtom_inj ⟨hnan, hinfinity⟩ ⟨hnan', hinfinity'⟩
          (JsonTree.atom.inj (Option.some.inj h)))
      | _ => simp [canonicalTree, canonicalizeValue, toTree] at h
  | string s =>
    intro w hw h
    cases hw with
    | string s' =>
      rw [JsonTree.string.inj (Option.some.inj h)]
      exact SameJson.string s'
    | _ => simp [canonicalTree, canonicalizeValue, toTree] at h
  | array vs ih =>
    intro w hw h
    cases hv with
    | array hvs hvdefined =>
      cases hw with
      | array hws hwdefined =>
        rw [canonicalTree_array, canonicalTree_array, Option.some.injEq, JsonTree.array.injEq] at h
        exact SameJson.array (forall₂_of_trees vs hvdefined
          (fun v hv w => ih v hv (hvs v hv) (w := w)) _ hws hwdefined h)
      | _ => simp [canonicalTree, canonicalizeValue, toTree] at h
  | object fs ih =>
    intro w hw h
    cases hv with
    | object hfs =>
      cases hw with
      | object hgs =>
        exact SameJson.object fun k => ih k (hfs k) (hgs k) (canonicalTree_object_iff.mp h k)
      | _ => simp [canonicalTree, canonicalizeValue, toTree] at h

/-- Plain values have the same canonical tree where they are the same. -/
theorem canonicalTree_iff {v w : JsValue} (hv : Plain v) (hw : Plain w) :
    canonicalTree v = canonicalTree w ↔ SameJson v w :=
  ⟨hv.sameJson hw, SameJson.canonicalTree_eq⟩

end Orchestrator
