import Mathlib.Data.List.Basic
import Mathlib.Tactic

/-!
# JSON text

The text of a tree of strings, arrays and objects over atoms that are written out, without
spaces. `JsonTree.text_inj` is its unique readability: two trees with the same text are the same.

* `escape`, `quote`: the text of a string;
* `AtomText`: a text that stands for itself, such as that of a number;
* `JsonTree`, `JsonTree.text`: trees and their text;
* `JsonTree.readable`: a text is a text of one tree only, whatever follows it.
-/

namespace Collections

/-! ## Strings -/

/-- The text of a character inside a JSON string. -/
def escape (c : Char) : List Char :=
  if c = '"' then ['\\', '"']
  else if c = '\\' then ['\\', '\\']
  else if c = '\x08' then ['\\', 'b']
  else if c = '\x0c' then ['\\', 'f']
  else if c = '\n' then ['\\', 'n']
  else if c = '\r' then ['\\', 'r']
  else if c = '\t' then ['\\', 't']
  else if c.toNat < 0x20 then
    ['\\', 'u', '0', '0', Nat.digitChar (c.toNat / 16), Nat.digitChar (c.toNat % 16)]
  else [c]

/-- The text of a JSON string, between its quotes and up to the closing one. -/
def quoteTail : List Char → List Char
  | [] => ['"']
  | c :: cs => escape c ++ quoteTail cs

/-- The text of a JSON string. -/
def quote (s : String) : List Char := '"' :: quoteTail s.toList

/-- The value of a hexadecimal digit. -/
def hexValue (c : Char) : ℕ :=
  if c.isDigit then c.toNat - '0'.toNat else c.toNat - 'a'.toNat + 10

/-- What the text after a backslash stands for, and the rest of the text. -/
def unescapeCode : List Char → Option (Char × List Char)
  | 'u' :: _ :: _ :: a :: b :: t => some (Char.ofNat (16 * hexValue a + hexValue b), t)
  | 'b' :: t => some ('\x08', t)
  | 'f' :: t => some ('\x0c', t)
  | 'n' :: t => some ('\n', t)
  | 'r' :: t => some ('\r', t)
  | 't' :: t => some ('\t', t)
  | c :: t => some (c, t)
  | [] => none

/-- The first character that a text inside a JSON string stands for, and the rest of the text. -/
def unescape : List Char → Option (Char × List Char)
  | [] => none
  | c :: t => if c = '\\' then unescapeCode t else some (c, t)

theorem hexValue_digitChar {n : ℕ} (h : n < 16) : hexValue (Nat.digitChar n) = n := by
  interval_cases n <;> rfl

/-- An escaped character can be read back, whatever follows it. -/
theorem unescape_escape (c : Char) (t : List Char) : unescape (escape c ++ t) = some (c, t) := by
  unfold escape
  split_ifs with h₁ h₂ h₃ h₄ h₅ h₆ h₇ h₈
  · rw [h₁]; rfl
  · rw [h₂]; rfl
  · rw [h₃]; rfl
  · rw [h₄]; rfl
  · rw [h₅]; rfl
  · rw [h₆]; rfl
  · rw [h₇]; rfl
  · have hdiv : hexValue (Nat.digitChar (c.toNat / 16)) = c.toNat / 16 :=
      hexValue_digitChar (by omega)
    have hmod : hexValue (Nat.digitChar (c.toNat % 16)) = c.toNat % 16 :=
      hexValue_digitChar (by omega)
    simp only [List.cons_append, List.nil_append, unescape, if_true, unescapeCode, hdiv, hmod,
      Nat.div_add_mod, Char.ofNat_toNat]
  · simp only [List.cons_append, List.nil_append, unescape, if_neg h₂]

/-- The text of a character never starts with the quote that closes a string. -/
theorem escape_ne_quote (c : Char) (t t' : List Char) : escape c ++ t ≠ '"' :: t' := by
  unfold escape
  split_ifs with h₁ <;> simp [h₁]

theorem quoteTail_readable (cs : List Char) : ∀ cs' t t',
    quoteTail cs ++ t = quoteTail cs' ++ t' → cs = cs' ∧ t = t' := by
  induction cs with
  | nil =>
    rintro (_ | ⟨c', cs'⟩) t t' h
    · exact ⟨rfl, by simpa [quoteTail] using h⟩
    · rw [quoteTail, quoteTail, List.append_assoc] at h
      exact absurd h.symm (escape_ne_quote c' _ _)
  | cons c cs ih =>
    rintro (_ | ⟨c', cs'⟩) t t' h
    · rw [quoteTail, quoteTail, List.append_assoc] at h
      exact absurd h (escape_ne_quote c _ _)
    · rw [quoteTail, quoteTail, List.append_assoc, List.append_assoc] at h
      have hread := congrArg unescape h
      rw [unescape_escape, unescape_escape, Option.some.injEq, Prod.mk.injEq] at hread
      obtain ⟨rfl, rfl⟩ := ih cs' t t' hread.2
      exact ⟨by rw [hread.1], rfl⟩

theorem quote_readable {s s' : String} {t t' : List Char} (h : quote s ++ t = quote s' ++ t') :
    s = s' ∧ t = t' := by
  obtain ⟨hs, ht⟩ := quoteTail_readable _ _ t t' (List.cons.inj h).2
  exact ⟨String.toList_inj.mp hs, ht⟩

/-! ## Atoms -/

/-- No character that has a meaning of its own in an array, an object or a string. -/
def isPlain (c : Char) : Bool := c ∉ [',', ']', '\x7d', '"', '[', '\x7b']

/-- The text of a value that is neither a string nor an array nor an object. -/
structure AtomText where
  chars : List Char
  nonempty : chars ≠ []
  plain : ∀ c ∈ chars, isPlain c = true
  deriving DecidableEq

/-- The text does not go on with an atom. -/
def Closes (t : List Char) : Prop := ∀ c ∈ t.head?, isPlain c = false

theorem closes_cons {c : Char} (h : isPlain c = false) (t : List Char) : Closes (c :: t) := by
  rintro _ ⟨⟩
  exact h

theorem closes_nil : Closes [] := fun _ h => nomatch h

/-- A text of characters of one kind ends where one of another kind follows. -/
theorem span_readable {p : Char → Bool} (cs : List Char) : ∀ cs' t t', (∀ c ∈ cs, p c = true) →
    (∀ c ∈ cs', p c = true) → (∀ c ∈ t.head?, p c = false) → (∀ c ∈ t'.head?, p c = false) →
    cs ++ t = cs' ++ t' → cs = cs' ∧ t = t' := by
  induction cs with
  | nil =>
    rintro (_ | ⟨c', cs'⟩) t t' hcs hcs' ht ht' h
    · exact ⟨rfl, h⟩
    · have hc := ht c' (by rw [List.nil_append] at h; rw [h]; rfl)
      rw [hcs' c' (by simp)] at hc
      exact absurd hc (by simp)
  | cons c cs ih =>
    rintro (_ | ⟨c', cs'⟩) t t' hcs hcs' ht ht' h
    · have hc := ht' c (by rw [List.nil_append] at h; rw [← h]; rfl)
      rw [hcs c (by simp)] at hc
      exact absurd hc (by simp)
    · rw [List.cons_append, List.cons_append, List.cons.injEq] at h
      obtain ⟨rfl, rfl⟩ := ih cs' t t' (fun c hc => hcs c (by simp [hc]))
        (fun c hc => hcs' c (by simp [hc])) ht ht' h.2
      exact ⟨by rw [h.1], rfl⟩

theorem AtomText.ext_chars {a a' : AtomText} (h : a.chars = a'.chars) : a = a' := by
  cases a
  cases a'
  cases h
  rfl

def AtomText.null : AtomText := ⟨['n', 'u', 'l', 'l'], by decide, List.all_eq_true.mp (by decide)⟩

/-! ## Trees -/

inductive JsonTree where
  | atom (a : AtomText)
  | string (s : String)
  | array (items : List JsonTree)
  | object (fields : List (String × JsonTree))

namespace JsonTree

mutual

/-- The text of a tree. -/
@[simp] def text : JsonTree → List Char
  | atom a => a.chars
  | string s => quote s
  | array [] => ['[', ']']
  | array (j :: js) => '[' :: (text j ++ moreItems js)
  | object [] => ['\x7b', '\x7d']
  | object ((k, j) :: fs) => '\x7b' :: (quote k ++ ':' :: (text j ++ moreFields fs))

/-- The items after the first one, up to the closing bracket. -/
@[simp] def moreItems : List JsonTree → List Char
  | [] => [']']
  | j :: js => ',' :: (text j ++ moreItems js)

/-- The fields after the first one, up to the closing brace. -/
@[simp] def moreFields : List (String × JsonTree) → List Char
  | [] => ['\x7d']
  | (k, j) :: fs => ',' :: (quote k ++ ':' :: (text j ++ moreFields fs))

end

theorem closes_moreItems (js : List JsonTree) (t : List Char) : Closes (moreItems js ++ t) := by
  cases js <;> rw [moreItems] <;> exact closes_cons rfl _

theorem closes_moreFields (fs : List (String × JsonTree)) (t : List Char) :
    Closes (moreFields fs ++ t) := by
  rcases fs with _ | ⟨⟨k, j⟩, fs⟩ <;> rw [moreFields] <;> exact closes_cons rfl _

/-- Induction on trees: the items and the field values come first. -/
theorem induct {P : JsonTree → Prop} (atom : ∀ a, P (atom a)) (string : ∀ s, P (string s))
    (array : ∀ js, (∀ j ∈ js, P j) → P (array js))
    (object : ∀ fs, (∀ f ∈ fs, P f.2) → P (object fs)) (j : JsonTree) : P j := by
  refine @JsonTree.rec P (fun js => ∀ j ∈ js, P j) (fun fs => ∀ f ∈ fs, P f.2) (fun f => P f.2)
    atom string array object ?_ ?_ ?_ ?_ (fun _ _ h => h) j
  · exact fun _ h => nomatch h
  · intro j js hj hjs j' hj'
    rcases List.mem_cons.mp hj' with rfl | h
    · exact hj
    · exact hjs _ h
  · exact fun _ h => nomatch h
  · intro f fs hf hfs f' hf'
    rcases List.mem_cons.mp hf' with rfl | h
    · exact hf
    · exact hfs _ h

/-- The kind of a tree. -/
def kind : JsonTree → ℕ
  | atom _ => 0
  | string _ => 1
  | array _ => 2
  | object _ => 3

/-- The kind of the trees whose text starts with a character. -/
def kindOf (c : Char) : ℕ :=
  if c = '"' then 1
  else if c = '[' then 2
  else if c = '\x7b' then 3
  else if isPlain c then 0
  else 4

theorem kindOf_plain {c : Char} (h : isPlain c = true) : kindOf c = 0 := by
  have hne : ∀ d, isPlain d = false → c ≠ d := by
    rintro d hd rfl
    rw [hd] at h
    cases h
  rw [kindOf, if_neg (hne _ (by decide)), if_neg (hne _ (by decide)), if_neg (hne _ (by decide)),
    if_pos h]

theorem text_eq_cons (j : JsonTree) : ∃ c cs, text j = c :: cs ∧ kindOf c = j.kind := by
  cases j with
  | atom a =>
    obtain ⟨c, cs, hcs⟩ := List.exists_cons_of_ne_nil a.nonempty
    exact ⟨c, cs, by rw [text, hcs], kindOf_plain (a.plain c (by rw [hcs]; simp))⟩
  | string s => exact ⟨'"', _, by rw [text, quote], by rw [kind]; decide⟩
  | array js => cases js <;> exact ⟨'[', _, by rw [text], by rw [kind]; decide⟩
  | object fs =>
    rcases fs with _ | ⟨⟨k, j⟩, fs⟩ <;>
      exact ⟨'\x7b', _, by rw [text], by rw [kind]; decide⟩

/-- Texts that start alike are texts of trees of one kind. -/
theorem kind_eq {j j' : JsonTree} {t t' : List Char} (h : text j ++ t = text j' ++ t') :
    j.kind = j'.kind := by
  obtain ⟨c, cs, htext, hkind⟩ := text_eq_cons j
  obtain ⟨c', cs', htext', hkind'⟩ := text_eq_cons j'
  rw [htext, htext', List.cons_append, List.cons_append, List.cons.injEq] at h
  rw [← hkind, ← hkind', h.1]

/-- The text of `j` is a text of `j` only, whatever follows it. -/
def Readable (j : JsonTree) : Prop := ∀ j' t t', Closes t → Closes t' →
  text j ++ t = text j' ++ t' → j = j' ∧ t = t'

theorem moreItems_readable (js : List JsonTree) (hjs : ∀ j ∈ js, Readable j) : ∀ js' t t',
    moreItems js ++ t = moreItems js' ++ t' → js = js' ∧ t = t' := by
  induction js with
  | nil =>
    rintro (_ | ⟨j', js'⟩) t t' h
    · exact ⟨rfl, by simpa [moreItems] using h⟩
    · simp [moreItems] at h
  | cons j js ih =>
    rintro (_ | ⟨j', js'⟩) t t' h
    · simp [moreItems] at h
    · simp only [moreItems, List.cons_append, List.append_assoc, List.cons.injEq, true_and] at h
      obtain ⟨rfl, hmore⟩ :=
        hjs j (by simp) j' _ _ (closes_moreItems js t) (closes_moreItems js' t') h
      obtain ⟨rfl, rfl⟩ := ih (fun j hj => hjs j (by simp [hj])) js' t t' hmore
      exact ⟨rfl, rfl⟩

theorem moreFields_readable (fs : List (String × JsonTree)) (hfs : ∀ f ∈ fs, Readable f.2) :
    ∀ fs' t t', moreFields fs ++ t = moreFields fs' ++ t' → fs = fs' ∧ t = t' := by
  induction fs with
  | nil =>
    rintro (_ | ⟨⟨k', j'⟩, fs'⟩) t t' h
    · exact ⟨rfl, by simpa [moreFields] using h⟩
    · simp [moreFields] at h
  | cons f fs ih =>
    obtain ⟨k, j⟩ := f
    rintro (_ | ⟨⟨k', j'⟩, fs'⟩) t t' h
    · simp [moreFields] at h
    · simp only [moreFields, List.cons_append, List.append_assoc, List.cons.injEq, true_and] at h
      obtain ⟨rfl, hvalue⟩ := quote_readable h
      obtain ⟨rfl, hmore⟩ := hfs (k, j) (by simp) j' _ _ (closes_moreFields fs t)
        (closes_moreFields fs' t') (List.cons.inj hvalue).2
      obtain ⟨rfl, rfl⟩ := ih (fun f hf => hfs f (by simp [hf])) fs' t t' hmore
      exact ⟨rfl, rfl⟩

/-- No text starts with a closing bracket. -/
theorem text_ne_bracket (j : JsonTree) (t t' : List Char) : text j ++ t ≠ ']' :: t' := by
  obtain ⟨c, cs, htext, hkind⟩ := text_eq_cons j
  rw [htext, List.cons_append]
  intro h
  rw [(List.cons.inj h).1] at hkind
  cases j <;> exact absurd hkind (by rw [kind]; decide)

theorem array_readable (js : List JsonTree) (hjs : ∀ j ∈ js, Readable j) :
    Readable (array js) := by
  intro j' t t' _ _ h
  have hkind := kind_eq h
  cases j' with
  | array js' =>
    have hmore : moreItems js ++ t = moreItems js' ++ t' := by
      rcases js with _ | ⟨j, js⟩ <;> rcases js' with _ | ⟨j', js'⟩ <;>
        simp only [text, List.cons_append, List.nil_append, List.append_assoc, List.cons.injEq,
          true_and] at h
      · rw [h]
      · exact absurd h.symm (text_ne_bracket j' _ _)
      · exact absurd h (text_ne_bracket j _ _)
      · simp only [moreItems, List.cons_append, List.append_assoc, h]
    obtain ⟨rfl, ht⟩ := moreItems_readable js hjs js' t t' hmore
    exact ⟨rfl, ht⟩
  | _ => exact absurd hkind (by simp [kind])

theorem object_readable (fs : List (String × JsonTree)) (hfs : ∀ f ∈ fs, Readable f.2) :
    Readable (object fs) := by
  intro j' t t' _ _ h
  have hkind := kind_eq h
  cases j' with
  | object fs' =>
    have hmore : moreFields fs ++ t = moreFields fs' ++ t' := by
      rcases fs with _ | ⟨⟨k, j⟩, fs⟩ <;> rcases fs' with _ | ⟨⟨k', j'⟩, fs'⟩ <;>
        simp only [text, List.cons_append, List.nil_append, List.append_assoc, List.cons.injEq,
          true_and] at h
      · rw [h]
      · rw [quote, List.cons_append] at h
        exact absurd (List.cons.inj h).1 (by decide)
      · rw [quote, List.cons_append] at h
        exact absurd (List.cons.inj h).1 (by decide)
      · simp only [moreFields, List.cons_append, List.append_assoc, h]
    obtain ⟨rfl, ht⟩ := moreFields_readable fs hfs fs' t t' hmore
    exact ⟨rfl, ht⟩
  | _ => exact absurd hkind (by simp [kind])

/-- A text is a text of one tree only. -/
theorem readable (j : JsonTree) : Readable j := by
  induction j using induct with
  | atom a =>
    intro j' t t' ht ht' h
    have hkind := kind_eq h
    cases j' with
    | atom a' =>
      rw [text, text] at h
      obtain ⟨hchars, htail⟩ := span_readable _ _ t t' a.plain a'.plain ht ht' h
      exact ⟨by rw [AtomText.ext_chars hchars], htail⟩
    | _ => exact absurd hkind (by simp [kind])
  | string s =>
    intro j' t t' _ _ h
    have hkind := kind_eq h
    cases j' with
    | string s' =>
      obtain ⟨rfl, htail⟩ := quote_readable (by simpa only [text] using h)
      exact ⟨rfl, htail⟩
    | _ => exact absurd hkind (by simp [kind])
  | array js ih => exact array_readable js ih
  | object fs ih => exact object_readable fs ih

/-- Trees with the same text are the same. -/
theorem text_inj {j j' : JsonTree} (h : text j = text j') : j = j' :=
  (readable j j' [] [] closes_nil closes_nil (by rw [h])).1

end JsonTree

end Collections
