import Orchestrator.Collections.JsonTree

/-!
# JSON text of records

`Json.text` is the text `JSON.stringify` gives a value built from `null`, natural numbers,
strings, arrays and objects, without spaces. By `Json.text_inj` two values with the same text are
the same, so a hash of the text is a hash of the value.

* `toDigits_readable`: digits are read back, whatever follows them;
* `Json`, `Json.text`: values and their text;
* `Json.tree`: the tree of a value, which its text determines.
-/

namespace Collections

/-! ## Numbers -/

/-- The text does not go on with a digit. -/
def Ends (t : List Char) : Prop := ∀ c ∈ t.head?, c.isDigit = false

theorem ends_cons {c : Char} (h : c.isDigit = false) (t : List Char) : Ends (c :: t) := by
  rintro _ ⟨⟩
  exact h

theorem ends_nil : Ends [] := fun _ h => nomatch h

theorem isDigit_of_mem_toDigits {n : ℕ} : ∀ c ∈ Nat.toDigits 10 n, c.isDigit = true :=
  fun _ hc => Nat.isDigit_of_mem_toDigits (by decide) (by decide) hc

theorem toDigits_inj {n n' : ℕ} (h : Nat.toDigits 10 n = Nat.toDigits 10 n') : n = n' := by
  have hvalue := congrArg (Nat.ofDigitChars 10 · 0) h
  simpa only [Nat.ofDigitChars_ten_toDigits] using hvalue

theorem toDigits_readable {n n' : ℕ} {t t' : List Char} (ht : Ends t) (ht' : Ends t')
    (h : Nat.toDigits 10 n ++ t = Nat.toDigits 10 n' ++ t') : n = n' ∧ t = t' := by
  obtain ⟨hn, rfl⟩ := span_readable _ _ t t' isDigit_of_mem_toDigits isDigit_of_mem_toDigits
    ht ht' h
  exact ⟨toDigits_inj hn, rfl⟩

/-! ## Values -/

inductive Json where
  | null
  | number (n : ℕ)
  | string (s : String)
  | array (items : List Json)
  | object (fields : List (String × Json))

namespace Json

mutual

/-- `JSON.stringify`. -/
def text : Json → List Char
  | null => ['n', 'u', 'l', 'l']
  | number n => Nat.toDigits 10 n
  | string s => quote s
  | array [] => ['[', ']']
  | array (j :: js) => '[' :: (text j ++ moreItems js)
  | object [] => ['\x7b', '\x7d']
  | object ((k, j) :: fs) => '\x7b' :: (quote k ++ ':' :: (text j ++ moreFields fs))

/-- The items after the first one, up to the closing bracket. -/
def moreItems : List Json → List Char
  | [] => [']']
  | j :: js => ',' :: (text j ++ moreItems js)

/-- The fields after the first one, up to the closing brace. -/
def moreFields : List (String × Json) → List Char
  | [] => ['\x7d']
  | (k, j) :: fs => ',' :: (quote k ++ ':' :: (text j ++ moreFields fs))

end

/-- Induction on values: the items and the field values come first. -/
theorem induct {P : Json → Prop} (null : P null) (number : ∀ n, P (number n))
    (string : ∀ s, P (string s)) (array : ∀ js, (∀ j ∈ js, P j) → P (array js))
    (object : ∀ fs, (∀ f ∈ fs, P f.2) → P (object fs)) (j : Json) : P j := by
  refine @Json.rec P (fun js => ∀ j ∈ js, P j) (fun fs => ∀ f ∈ fs, P f.2) (fun f => P f.2)
    null number string array object ?_ ?_ ?_ ?_ (fun _ _ h => h) j
  · exact fun _ h => nomatch h
  · intro j js hj hjs j' hj'
    rcases List.mem_cons.mp hj' with rfl | h
    · exact hj
    · exact hjs _ h
  · exact fun _ h => nomatch h
  · intro f fs hf hfs f' hf'
    rcases List.mem_cons.mp hf' with rfl | h
    · exact hf
    · exact hfs _ h

/-! ## Trees -/

/-- The text of a natural number. -/
def digitsAtom (n : ℕ) : AtomText where
  chars := Nat.toDigits 10 n
  nonempty := Nat.toDigits_ne_nil
  plain := by
    intro c hc
    have hdigit := isDigit_of_mem_toDigits c hc
    unfold isPlain
    rw [decide_eq_true_eq]
    intro hmem
    fin_cases hmem <;> exact absurd hdigit (by decide)

mutual

/-- The tree of a value. -/
def tree : Json → JsonTree
  | null => .atom .null
  | number n => .atom (digitsAtom n)
  | string s => .string s
  | array items => .array (treeItems items)
  | object fields => .object (treeFields fields)

def treeItems : List Json → List JsonTree
  | [] => []
  | j :: js => tree j :: treeItems js

def treeFields : List (String × Json) → List (String × JsonTree)
  | [] => []
  | (k, j) :: fs => (k, tree j) :: treeFields fs

end

mutual

theorem text_tree : (j : Json) → (tree j).text = text j
  | null => rfl
  | number n => rfl
  | string s => rfl
  | array [] => rfl
  | array (j :: js) => by
    rw [tree, treeItems, JsonTree.text, text, text_tree j, moreItems_tree js]
  | object [] => rfl
  | object ((k, j) :: fs) => by
    rw [tree, treeFields, JsonTree.text, text, text_tree j, moreFields_tree fs]

theorem moreItems_tree : (js : List Json) → JsonTree.moreItems (treeItems js) = moreItems js
  | [] => rfl
  | j :: js => by
    rw [treeItems, JsonTree.moreItems, moreItems, text_tree j, moreItems_tree js]

theorem moreFields_tree :
    (fs : List (String × Json)) → JsonTree.moreFields (treeFields fs) = moreFields fs
  | [] => rfl
  | (k, j) :: fs => by
    rw [treeFields, JsonTree.moreFields, moreFields, text_tree j, moreFields_tree fs]

end

theorem treeItems_inj (js : List Json) (ih : ∀ j ∈ js, ∀ j', tree j = tree j' → j = j') :
    ∀ js', treeItems js = treeItems js' → js = js' := by
  induction js with
  | nil =>
    rintro (_ | ⟨j', js'⟩) h
    · rfl
    · cases h
  | cons j js ihs =>
    rintro (_ | ⟨j', js'⟩) h
    · cases h
    · rw [treeItems, treeItems, List.cons.injEq] at h
      rw [ih j (by simp) j' h.1, ihs (fun j hj => ih j (by simp [hj])) js' h.2]

theorem treeFields_inj (fs : List (String × Json))
    (ih : ∀ f ∈ fs, ∀ j', tree f.2 = tree j' → f.2 = j') :
    ∀ fs', treeFields fs = treeFields fs' → fs = fs' := by
  induction fs with
  | nil =>
    rintro (_ | ⟨⟨k', j'⟩, fs'⟩) h
    · rfl
    · cases h
  | cons f fs ihs =>
    obtain ⟨k, j⟩ := f
    rintro (_ | ⟨⟨k', j'⟩, fs'⟩) h
    · cases h
    · rw [treeFields, treeFields, List.cons.injEq, Prod.mk.injEq] at h
      have hj : j = j' := ih (k, j) (by simp) j' h.1.2
      rw [h.1.1, hj, ihs (fun f hf => ih f (by simp [hf])) fs' h.2]

theorem null_ne_digitsAtom (n : ℕ) : AtomText.null ≠ digitsAtom n := by
  intro h
  have hmem : 'n' ∈ (digitsAtom n).chars := by
    rw [← h]
    decide
  exact absurd (isDigit_of_mem_toDigits 'n' hmem) (by decide)

/-- Values with the same tree are the same. -/
theorem tree_inj (j : Json) : ∀ j', tree j = tree j' → j = j' := by
  induction j using induct with
  | null =>
    intro j' h
    cases j' with
    | null => rfl
    | number n' => exact absurd (JsonTree.atom.inj h) (null_ne_digitsAtom n')
    | _ => simp only [tree, reduceCtorEq] at h
  | number n =>
    intro j' h
    cases j' with
    | null => exact absurd (JsonTree.atom.inj h).symm (null_ne_digitsAtom n)
    | number n' => rw [toDigits_inj (congrArg AtomText.chars (JsonTree.atom.inj h))]
    | _ => simp only [tree, reduceCtorEq] at h
  | string s =>
    intro j' h
    cases j' with
    | string s' => rw [JsonTree.string.inj h]
    | _ => simp only [tree, reduceCtorEq] at h
  | array js ih =>
    intro j' h
    cases j' with
    | array js' => rw [treeItems_inj js ih js' (JsonTree.array.inj h)]
    | _ => simp only [tree, reduceCtorEq] at h
  | object fs ih =>
    intro j' h
    cases j' with
    | object fs' => rw [treeFields_inj fs ih fs' (JsonTree.object.inj h)]
    | _ => simp only [tree, reduceCtorEq] at h

/-- Values with the same text are the same. -/
theorem text_inj {j j' : Json} (h : text j = text j') : j = j' :=
  tree_inj j j' (JsonTree.text_inj (by rw [text_tree, text_tree, h]))

/-- `JSON.stringify`, as a string. -/
def stringify (j : Json) : String := String.ofList j.text

theorem stringify_inj {j j' : Json} (h : j.stringify = j'.stringify) : j = j' :=
  text_inj (String.ofList_injective h)

end Json

end Collections
