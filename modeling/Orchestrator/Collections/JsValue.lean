import Mathlib.Data.List.Sort
import Mathlib.Data.List.Dedup
import Orchestrator.Collections.JsonTree
import Orchestrator.Numbers.Decimal

/-!
# Values

The values of the language that data is made of, and their JSON text.

* `codeUnits`: the UTF-16 code units of a string, by which `sort` compares;
* `JsValue`, `property`: values, and the value of a property of an object;
* `toTree`, `stringify`: `JSON.stringify`, which leaves out what is undefined;
* `sortKeys`: the keys of an object in the order of `Object.keys(record).sort()`;
* `sortKeys_filter`: sorted keys are determined by what is among them.
-/

namespace Collections

open Numbers

/-! ## Strings as code units -/

/-- The UTF-16 code units of a character. -/
def charCodeUnits (c : Char) : List ℕ :=
  if c.toNat < 0x10000 then [c.toNat]
  else [0xd800 + (c.toNat - 0x10000) / 0x400, 0xdc00 + (c.toNat - 0x10000) % 0x400]

def codeUnits (s : String) : List ℕ := s.toList.flatMap charCodeUnits

/-- Code units that start alike start with the same character. -/
theorem charCodeUnits_readable {c c' : Char} {us us' : List ℕ}
    (h : charCodeUnits c ++ us = charCodeUnits c' ++ us') : c = c' ∧ us = us' := by
  -- no character has the number of a surrogate
  have hvalid : ∀ d : Char, d.toNat < 0xd800 ∨ 0xdfff < d.toNat := by
    intro d
    have hd := d.valid
    unfold Char.toNat
    rcases hd with hd | ⟨hd, -⟩
    · exact Or.inl hd
    · exact Or.inr hd
  have hbound : ∀ d : Char, d.toNat < 0x110000 := by
    intro d
    have hd := d.valid
    unfold Char.toNat
    rcases hd with hd | ⟨-, hd⟩
    · exact lt_trans hd (by norm_num)
    · exact hd
  have hc := hvalid c
  have hc' := hvalid c'
  have hcode : c.toNat = c'.toNat ∧ us = us' := by
    unfold charCodeUnits at h
    split at h <;> split at h <;>
      simp only [List.cons_append, List.nil_append, List.cons.injEq] at h
    · exact h
    · have := hbound c'
      omega
    · have := hbound c
      omega
    · exact ⟨by omega, h.2.2⟩
  exact ⟨Char.toNat_inj.mp hcode.1, hcode.2⟩

theorem charCodeUnits_ne_nil (c : Char) : charCodeUnits c ≠ [] := by
  unfold charCodeUnits
  split <;> simp

theorem flatMap_charCodeUnits_inj (cs : List Char) : ∀ cs',
    cs.flatMap charCodeUnits = cs'.flatMap charCodeUnits → cs = cs' := by
  induction cs with
  | nil =>
    intro cs' h
    cases cs' with
    | nil => rfl
    | cons c' cs' =>
      rw [List.flatMap_nil, List.flatMap_cons] at h
      exact absurd (List.append_eq_nil_iff.mp h.symm).1 (charCodeUnits_ne_nil c')
  | cons c cs ih =>
    intro cs' h
    cases cs' with
    | nil =>
      rw [List.flatMap_nil, List.flatMap_cons] at h
      exact absurd (List.append_eq_nil_iff.mp h).1 (charCodeUnits_ne_nil c)
    | cons c' cs' =>
      rw [List.flatMap_cons, List.flatMap_cons] at h
      obtain ⟨hc, hcs⟩ := charCodeUnits_readable h
      rw [hc, ih cs' hcs]

theorem codeUnits_inj {s s' : String} (h : codeUnits s = codeUnits s') : s = s' :=
  String.toList_inj.mp (flatMap_charCodeUnits_inj _ _ h)

/-- `a <= b` for strings: by their code units. -/
def UpTo (a b : String) : Prop := codeUnits a ≤ codeUnits b

instance : DecidableRel UpTo := fun a b => inferInstanceAs (Decidable (codeUnits a ≤ codeUnits b))

instance : Std.Total UpTo := ⟨fun a b => le_total (codeUnits a) (codeUnits b)⟩

instance : IsTrans String UpTo := ⟨fun _ _ _ hab hbc => le_trans (α := List ℕ) hab hbc⟩

theorem UpTo.antisymm {a b : String} (hab : UpTo a b) (hba : UpTo b a) : a = b :=
  codeUnits_inj (le_antisymm hab hba)

/-! ## Values -/

/-- A value. An object is its properties in their order, of which the first with a key counts. -/
inductive JsValue where
  | undefined
  | null
  | bool (b : Bool)
  | number (n : JsNumber)
  | string (s : String)
  | array (items : List JsValue)
  | object (fields : List (String × JsValue))

namespace JsValue

/-- `record[key]`. -/
def property (key : String) (fields : List (String × JsValue)) : JsValue :=
  (fields.lookup key).getD undefined

/-- Induction on values: the items and the properties come first. -/
theorem induct {P : JsValue → Prop} (undefined : P undefined) (null : P null)
    (bool : ∀ b, P (bool b)) (number : ∀ n, P (number n)) (string : ∀ s, P (string s))
    (array : ∀ vs, (∀ v ∈ vs, P v) → P (array vs))
    (object : ∀ fs, (∀ k, P (property k fs)) → P (object fs)) (v : JsValue) : P v := by
  refine @JsValue.rec P (fun vs => ∀ v ∈ vs, P v) (fun fs => ∀ k, P (property k fs))
    (fun f => P f.2) undefined null bool number string array object ?_ ?_ ?_ ?_
    (fun _ _ h => h) v
  · exact fun _ h => nomatch h
  · intro v vs hv hvs v' hv'
    rcases List.mem_cons.mp hv' with rfl | h
    · exact hv
    · exact hvs _ h
  · exact fun _ => undefined
  · intro f fs hf hfs k
    unfold property
    rw [List.lookup_cons]
    split
    · exact hf
    · exact hfs k

/-! ## Text -/

def boolAtom : Bool → AtomText
  | true => ⟨['t', 'r', 'u', 'e'], by decide, List.all_eq_true.mp (by decide)⟩
  | false => ⟨['f', 'a', 'l', 's', 'e'], by decide, List.all_eq_true.mp (by decide)⟩

theorem text_finite (negative : Bool) (x : Double) :
    (JsNumber.finite negative x).text = if x.value = 0 then ['0'] else
      (if negative then ['-'] else []) ++ numeral (shortest x.value).1 (shortest x.value).2 := rfl

theorem isNumeralChar_text (negative : Bool) (x : Double) :
    ∀ c ∈ (JsNumber.finite negative x).text, isNumeralChar c = true := by
  rw [text_finite]
  split
  · exact List.all_eq_true.mp (by decide)
  · refine List.forall_mem_append.mpr ⟨?_, isNumeralChar_numeral _ _⟩
    cases negative <;> exact List.all_eq_true.mp (by decide)

theorem isPlain_of_isNumeralChar {c : Char} (h : isNumeralChar c = true) : isPlain c = true := by
  unfold isPlain
  rw [decide_eq_true_eq]
  intro hmem
  fin_cases hmem <;> exact absurd h (by decide)

/-- The text of a finite number. -/
def finiteAtom (negative : Bool) (x : Double) : AtomText where
  chars := (JsNumber.finite negative x).text
  nonempty := by
    rw [text_finite]
    split
    · simp
    · obtain ⟨c, cs, hcs, -⟩ := numeral_eq_cons (shortest x.value).1 (shortest x.value).2
      rw [hcs]
      simp
  plain := fun c hc => isPlain_of_isNumeralChar (isNumeralChar_text negative x c hc)

/-- The text of a number; those that are not finite are written as `null`. -/
def numberAtom : JsNumber → AtomText
  | .finite negative x => finiteAtom negative x
  | _ => .null

mutual

/-- What `JSON.stringify` writes a value as, if it writes it. -/
def toTree : JsValue → Option JsonTree
  | undefined => none
  | null => some (.atom .null)
  | bool b => some (.atom (boolAtom b))
  | number n => some (.atom (numberAtom n))
  | string s => some (.string s)
  | array items => some (.array (itemTrees items))
  | object fields => some (.object (fieldTrees fields))

/-- The items of an array; an undefined one is written as `null`. -/
def itemTrees : List JsValue → List JsonTree
  | [] => []
  | v :: vs => (toTree v).getD (.atom .null) :: itemTrees vs

/-- The properties of an object, less those that are undefined. -/
def fieldTrees : List (String × JsValue) → List (String × JsonTree)
  | [] => []
  | (key, v) :: fs => ((toTree v).map (key, ·)).toList ++ fieldTrees fs

end

/-- `JSON.stringify(value)`. -/
def stringify (v : JsValue) : Option String := v.toTree.map fun j => String.ofList j.text

/-- Two values have the same text where they are written as the same tree. -/
theorem stringify_inj {v w : JsValue} : v.stringify = w.stringify ↔ v.toTree = w.toTree := by
  have hinj : Function.Injective fun j : JsonTree => String.ofList j.text :=
    fun _ _ h => JsonTree.text_inj (String.ofList_injective h)
  exact (Option.map_injective hinj).eq_iff

theorem itemTrees_eq (vs : List JsValue) :
    itemTrees vs = vs.map fun v => (toTree v).getD (.atom .null) := by
  induction vs with
  | nil => rfl
  | cons v vs ih => rw [itemTrees, List.map_cons, ih]

theorem fieldTrees_eq (fs : List (String × JsValue)) :
    fieldTrees fs = fs.filterMap fun f => (toTree f.2).map (f.1, ·) := by
  induction fs with
  | nil => rfl
  | cons f fs ih =>
    obtain ⟨key, v⟩ := f
    rw [fieldTrees, List.filterMap_cons, ih]
    cases toTree v <;> rfl

/-! ## Atoms -/

theorem text_unsignedZero (n : JsNumber) : n.unsignedZero.text = n.text := by
  cases n with
  | finite negative x =>
    unfold JsNumber.unsignedZero JsNumber.text
    by_cases hx : x.value = 0
    · simp only [if_pos hx]
    · simp only [if_neg hx]
  | _ => rfl

/-- Numbers that differ in the sign of zero at most have the same text. -/
theorem numberAtom_congr {m n : JsNumber} (h : m.unsignedZero = n.unsignedZero) :
    numberAtom m = numberAtom n := by
  have htext : m.text = n.text := by rw [← text_unsignedZero m, h, text_unsignedZero]
  cases m with
  | finite negative x =>
    cases n with
    | finite negative' x' => exact AtomText.ext_chars htext
    | _ => cases h
  | _ =>
    cases n with
    | finite negative' x' => cases h
    | _ => rfl

theorem finiteAtom_inj {negative negative' : Bool} {x x' : Double}
    (h : finiteAtom negative x = finiteAtom negative' x') :
    (JsNumber.finite negative x).unsignedZero = (JsNumber.finite negative' x').unsignedZero :=
  JsNumber.text_inj (congrArg AtomText.chars h)

/-- The text of a finite number has no letter but `e`. -/
theorem finiteAtom_ne {negative : Bool} {x : Double} {a : AtomText} {c : Char} (hc : c ∈ a.chars)
    (hletter : isNumeralChar c = false) : finiteAtom negative x ≠ a := by
  intro h
  have hmem : c ∈ (finiteAtom negative x).chars := by rw [h]; exact hc
  rw [isNumeralChar_text negative x c hmem] at hletter
  cases hletter

theorem boolAtom_inj {b b' : Bool} (h : boolAtom b = boolAtom b') : b = b' := by
  revert h
  cases b <;> cases b' <;> decide

theorem boolAtom_ne_null (b : Bool) : boolAtom b ≠ .null := by
  cases b <;> decide

theorem numberAtom_ne_boolAtom (n : JsNumber) (b : Bool) : numberAtom n ≠ boolAtom b := by
  cases n with
  | finite negative x =>
    cases b
    · exact finiteAtom_ne (c := 'f') (by decide) (by decide)
    · exact finiteAtom_ne (c := 't') (by decide) (by decide)
  | _ => exact (boolAtom_ne_null b).symm

/-! ## Keys -/

/-- `Object.keys(record).sort()`; no key of a record is the number of an index. -/
def sortKeys (fields : List (String × JsValue)) : List String :=
  (fields.map Prod.fst).dedup.insertionSort UpTo

theorem mem_sortKeys {key : String} {fields : List (String × JsValue)} :
    key ∈ sortKeys fields ↔ key ∈ fields.map Prod.fst := by
  rw [sortKeys, List.mem_insertionSort, List.mem_dedup]

theorem nodup_sortKeys (fields : List (String × JsValue)) : (sortKeys fields).Nodup :=
  (List.perm_insertionSort UpTo _).nodup_iff.mpr (List.nodup_dedup _)

theorem pairwise_sortKeys (fields : List (String × JsValue)) : (sortKeys fields).Pairwise UpTo :=
  List.pairwise_insertionSort UpTo _

/-- What sorted keys leave of a property that only their keys have does not depend on the other
keys. -/
theorem sortKeys_filter {fs gs : List (String × JsValue)} {p : String → Bool}
    (hfs : ∀ k, p k = true → k ∈ fs.map Prod.fst) (hgs : ∀ k, p k = true → k ∈ gs.map Prod.fst) :
    (sortKeys fs).filter p = (sortKeys gs).filter p := by
  refine List.Perm.eq_of_pairwise (fun _ _ _ _ (hab : UpTo _ _) hba => hab.antisymm hba)
    ((pairwise_sortKeys fs).filter p) ((pairwise_sortKeys gs).filter p) ?_
  rw [List.perm_ext_iff_of_nodup ((nodup_sortKeys fs).filter p) ((nodup_sortKeys gs).filter p)]
  intro k
  rw [List.mem_filter, List.mem_filter, mem_sortKeys, mem_sortKeys]
  exact ⟨fun h => ⟨hgs k h.2, h.2⟩, fun h => ⟨hfs k h.2, h.2⟩⟩

theorem property_eq_undefined {key : String} {fields : List (String × JsValue)}
    (h : key ∉ fields.map Prod.fst) : property key fields = undefined := by
  have hlookup : fields.lookup key = none := by
    rw [List.lookup_eq_none_iff]
    intro f hf
    rw [bne_iff_ne]
    rintro rfl
    exact h (List.mem_map_of_mem hf)
  rw [property, hlookup, Option.getD_none]

end JsValue

end Collections
