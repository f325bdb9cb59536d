import Mathlib.Data.List.Infix
import Mathlib.Tactic

/-!
# Leftmost tokens

A `Lexer` recognises a token at the front of a list. Reading a list from the left, each stretch that
is a token where the reading comes to it is taken as a whole, as a global regular expression does.

* `Splits`, `pieces`: the tokens of a list and the symbols between them;
* `matchAll`, `replaceAll`: the tokens, and the list with something in their places;
* `doubled_replaceAll`: what is put in does not make a symbol stand next to itself.
-/

namespace Collections

variable {α β : Type}

/-! ## Runs of symbols -/

/-- A run ends where something comes that does not belong to it. -/
theorem takeWhile_append_stop {p : α → Bool} {xs ys : List α} (hxs : ∀ x ∈ xs, p x)
    (hys : ys.head?.any p = false) : (xs ++ ys).takeWhile p = xs := by
  rw [List.takeWhile_append_of_pos hxs]
  cases ys with
  | nil => rw [List.takeWhile_nil, List.append_nil]
  | cons y ys =>
    rw [List.head?_cons, Option.any_some] at hys
    rw [List.takeWhile_cons_of_neg (by rw [hys]; exact Bool.false_ne_true), List.append_nil]

theorem dropWhile_append_stop {p : α → Bool} {xs ys : List α} (hxs : ∀ x ∈ xs, p x)
    (hys : ys.head?.any p = false) : (xs ++ ys).dropWhile p = ys := by
  rw [List.dropWhile_append_of_pos hxs]
  cases ys with
  | nil => rfl
  | cons y ys =>
    rw [List.head?_cons, Option.any_some] at hys
    exact List.dropWhile_cons_of_neg (by rw [hys]; exact Bool.false_ne_true)

/-! ## Tokens -/

/-- What a pattern matches at the front of a list, and what it leaves. A match is not empty. -/
structure Lexer (α β : Type) where
  token : List α → Option (β × List α)
  shorter : ∀ xs b rest, token xs = some (b, rest) → rest.length < xs.length

namespace Lexer

variable (L : Lexer α β)

/-- The tokens of a list and the symbols between them, from the left. -/
inductive Splits : List α → List (α ⊕ β) → Prop where
  | nil : Splits [] []
  | token {xs b rest ps} (h : L.token xs = some (b, rest)) (hrest : Splits rest ps) :
      Splits xs (.inr b :: ps)
  | symbol {x xs ps} (h : L.token (x :: xs) = none) (hxs : Splits xs ps) :
      Splits (x :: xs) (.inl x :: ps)

/-- The pieces of a list that is not longer than the fuel. -/
def piecesWithin : ℕ → List α → List (α ⊕ β)
  | 0, _ => []
  | _, [] => []
  | fuel + 1, x :: xs =>
    match L.token (x :: xs) with
    | some (b, rest) => .inr b :: piecesWithin fuel rest
    | none => .inl x :: piecesWithin fuel xs

def pieces (xs : List α) : List (α ⊕ β) := L.piecesWithin xs.length xs

/-- `[...xs.matchAll(pattern)]`. -/
def matchAll (xs : List α) : List β := (L.pieces xs).filterMap Sum.getRight?

/-- The symbols of the pieces, and what `f` makes of the tokens. -/
def fill (f : β → List α) (ps : List (α ⊕ β)) : List α := ps.flatMap (Sum.elim (fun x => [x]) f)

/-- `xs.replace(pattern, f)`. -/
def replaceAll (f : β → List α) (xs : List α) : List α := fill f (L.pieces xs)

variable {L}

theorem token_nil : L.token [] = none := by
  cases h : L.token [] with
  | none => rfl
  | some r => exact absurd (L.shorter [] r.1 r.2 h) (Nat.not_lt_zero _)

theorem splits_piecesWithin (fuel : ℕ) (xs : List α) (h : xs.length ≤ fuel) :
    L.Splits xs (L.piecesWithin fuel xs) := by
  induction fuel generalizing xs with
  | zero =>
    obtain rfl := List.length_eq_zero_iff.mp (Nat.le_zero.mp h)
    exact .nil
  | succ fuel ih =>
    cases xs with
    | nil => exact .nil
    | cons x xs =>
      rw [List.length_cons] at h
      cases htoken : L.token (x :: xs) with
      | none =>
        simp only [piecesWithin, htoken]
        exact .symbol htoken (ih xs (by omega))
      | some r =>
        obtain ⟨b, rest⟩ := r
        have hshorter := L.shorter _ b rest htoken
        rw [List.length_cons] at hshorter
        simp only [piecesWithin, htoken]
        exact .token htoken (ih rest (by omega))

theorem splits_pieces (xs : List α) : L.Splits xs (L.pieces xs) :=
  splits_piecesWithin xs.length xs le_rfl

/-- There is one way to split a list. -/
theorem Splits.unique {xs : List α} {ps ps' : List (α ⊕ β)} (h : L.Splits xs ps)
    (h' : L.Splits xs ps') : ps = ps' := by
  induction h generalizing ps' with
  | nil =>
    cases h' with
    | nil => rfl
    | token h => exact nomatch token_nil.symm.trans h
  | @token xs b rest ps h _ ih =>
    cases h' with
    | nil => exact nomatch token_nil.symm.trans h
    | token h' hrest' =>
      obtain ⟨rfl, rfl⟩ := Prod.mk.inj (Option.some.inj (h.symm.trans h'))
      rw [ih hrest']
    | symbol h' _ => exact nomatch h.symm.trans h'
  | @symbol x xs ps h _ ih =>
    cases h' with
    | token h' _ => exact nomatch h.symm.trans h'
    | symbol _ hxs' => rw [ih hxs']

theorem splits_iff {xs : List α} {ps : List (α ⊕ β)} : L.Splits xs ps ↔ ps = L.pieces xs := by
  constructor
  · exact fun h => h.unique (splits_pieces xs)
  · rintro rfl
    exact splits_pieces xs

theorem mem_matchAll {b : β} {xs : List α} : b ∈ L.matchAll xs ↔ .inr b ∈ L.pieces xs := by
  simp [matchAll]

/-! ## Doubled symbols -/

variable {f : β → List α} {c : α}

/-- What starts with `c` after filling starts with it between the tokens, if no filling has a `c`. -/
theorem head_fill (hf : ∀ b, c ∉ f b) {ps : List (α ⊕ β)} (h : (fill f ps).head? = some c) :
    (fill (fun _ : β => []) ps).head? = some c := by
  induction ps with
  | nil => exact nomatch h
  | cons p ps ih =>
    cases p with
    | inl x => exact h
    | inr b =>
      simp only [fill, List.flatMap_cons, Sum.elim_inr, List.nil_append] at h ih ⊢
      cases hb : f b with
      | nil =>
        rw [hb, List.nil_append] at h
        exact ih h
      | cons y ys =>
        rw [hb, List.cons_append, List.head?_cons, Option.some_inj] at h
        exact absurd (h ▸ hb ▸ List.mem_cons_self) (hf b)

/-- A doubled symbol is not found across the end of a list that does not have it. -/
theorem doubled_append {xs ys : List α} (hxs : c ∉ xs) (h : [c, c] <:+: xs ++ ys) :
    [c, c] <:+: ys := by
  induction xs with
  | nil => exact h
  | cons x xs ih =>
    rw [List.cons_append, List.infix_cons_iff] at h
    rcases h with hpre | hin
    · have hx : c = x := (List.cons_prefix_cons.mp hpre).1
      exact absurd (hx ▸ List.mem_cons_self) hxs
    · exact ih (fun hc => hxs (List.mem_cons_of_mem x hc)) hin

/-- Filling does not double a symbol that no filling has. -/
theorem doubled_fill (hf : ∀ b, c ∉ f b) {ps : List (α ⊕ β)} (h : [c, c] <:+: fill f ps) :
    [c, c] <:+: fill (fun _ : β => []) ps := by
  induction ps with
  | nil => exact h
  | cons p ps ih =>
    cases p with
    | inl x =>
      simp only [fill, List.flatMap_cons, Sum.elim_inl, List.singleton_append] at h ih ⊢
      rw [List.infix_cons_iff] at h ⊢
      rcases h with hpre | hin
      · left
        obtain ⟨hx, htail⟩ := List.cons_prefix_cons.mp hpre
        have hhead : (fill (fun _ : β => []) ps).head? = some c := by
          refine head_fill hf ?_
          obtain ⟨rest, hrest⟩ := htail
          rw [fill, ← hrest]
          rfl
        obtain ⟨rest, hrest⟩ := List.head?_eq_some_iff.mp hhead
        rw [fill] at hrest
        rw [hrest]
        exact ⟨rest, by rw [hx]; rfl⟩
      · exact .inr (ih hin)
    | inr b =>
      simp only [fill, List.flatMap_cons, Sum.elim_inr, List.nil_append] at h ih ⊢
      exact ih (doubled_append (hf b) h)

/-- A symbol that stands next to itself after the tokens are replaced does so after they are taken
out, if nothing that is put in has it. -/
theorem doubled_replaceAll (hf : ∀ b, c ∉ f b) {xs : List α} (h : [c, c] <:+: L.replaceAll f xs) :
    [c, c] <:+: L.replaceAll (fun _ => []) xs := doubled_fill hf h

end Lexer

end Collections
