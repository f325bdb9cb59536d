import Orchestrator.Collections.Lexer
import Orchestrator.Domain.Objective
import Orchestrator.Recovery.TargetGrammar

/-!
# Recovery templates

The placeholders of a message template: a name between doubled braces, with blanks around it.

* `placeholderAt`, `placeholders`: the pattern of a placeholder;
* `validateTemplatePlaceholders`: the check of a body and its declared variables;
* `renderTemplate`: the body with values in the places of its placeholders;
* `rendered_completely`: what is rendered from a template that passed the check.
-/

namespace Orchestrator

open Collections

/-- `SUPPORTED_RECOVERY_TEMPLATE_VARIABLES`. -/
def supportedRecoveryTemplateVariables : List Text :=
  ["firstName".toList, "lastName".toList, "businessName".toList, "serviceRequested".toList,
    "serviceArea".toList, "bookingLink".toList]

/-! ## Placeholders -/

/-- `[a-zA-Z0-9_]`. -/
def isNameChar (c : Char) : Bool := c.isAlphanum || c = '_'

/-- What `VAR_RE` matches at the front of a text: the name, and the text behind the placeholder. -/
def placeholderAt : Text → Option (Text × Text)
  | '\x7b' :: '\x7b' :: xs =>
    let ys := xs.dropWhile isBlank
    if ys.head?.any Char.isAlpha then
      match (ys.dropWhile isNameChar).dropWhile isBlank with
      | '\x7d' :: '\x7d' :: rest => some (ys.takeWhile isNameChar, rest)
      | _ => none
    else none
  | _ => none

/-- `[a-zA-Z][a-zA-Z0-9_]*`. -/
def IsName (name : Text) : Prop := name.head?.any Char.isAlpha ∧ ∀ c ∈ name, isNameChar c

theorem not_isNameChar_of_isBlank {c : Char} (h : isBlank c) : isNameChar c = false := by
  by_contra hname
  rw [Bool.not_eq_false, isNameChar, Bool.or_eq_true, decide_eq_true_eq] at hname
  have hlow : c.toNat < 128 ∧ 48 ≤ c.toNat := by
    rcases hname with halnum | rfl
    · change ((decide ('A'.val ≤ c.val ∧ c.val ≤ 'Z'.val) ||
        (decide ('a'.val ≤ c.val) && decide (c.val ≤ 'z'.val))) ||
        (decide ('0'.val ≤ c.val) && decide (c.val ≤ '9'.val))) = true at halnum
      simp only [Bool.or_eq_true, Bool.and_eq_true, decide_eq_true_eq,
        UInt32.le_iff_toNat_le] at halnum
      have hval : c.val.toNat = c.toNat := rfl
      simp only [hval] at halnum
      constructor
      · rcases halnum with (⟨_, h⟩ | ⟨_, h⟩) | ⟨_, h⟩ <;> exact lt_of_le_of_lt h (by decide)
      · rcases halnum with (⟨h, _⟩ | ⟨h, _⟩) | ⟨h, _⟩ <;> exact le_trans (by decide) h
    · decide
  rw [isBlank, Bool.or_eq_true, decide_eq_true_eq, Bool.and_eq_true, decide_eq_true_eq,
    decide_eq_true_eq] at h
  rcases h with hmem | hrange
  · have hall : ∀ d ∈ ['\t', '\n', '\x0b', '\x0c', '\r', ' ', '\u00a0', '\u1680', '\u2028', '\u2029',
        '\u202f', '\u205f', '\u3000', '\ufeff'], d.toNat < 48 ∨ 128 ≤ d.toNat := by
      intro d hd
      fin_cases hd <;> decide
    have := hall c hmem
    omega
  · omega

/-- A placeholder is two braces, blanks, a name, blanks and two braces. -/
theorem placeholderAt_eq_some {xs name rest : Text} :
    placeholderAt xs = some (name, rest) ↔ IsName name ∧ ∃ before after : Text,
      (∀ c ∈ before, isBlank c) ∧ (∀ c ∈ after, isBlank c) ∧
      xs = '\x7b' :: '\x7b' :: (before ++ (name ++ (after ++ '\x7d' :: '\x7d' :: rest))) := by
  constructor
  · intro h
    unfold placeholderAt at h
    split at h
    · next xs =>
      dsimp only at h
      split at h
      · next hhead =>
        split at h
        · next hrest =>
          obtain ⟨rfl, rfl⟩ := Prod.mk.inj (Option.some.inj h)
          refine ⟨⟨?_, fun c hc => List.mem_takeWhile_imp hc⟩,
            xs.takeWhile isBlank, ((xs.dropWhile isBlank).dropWhile isNameChar).takeWhile isBlank,
            fun c hc => List.mem_takeWhile_imp hc, fun c hc => List.mem_takeWhile_imp hc, ?_⟩
          · cases hys : xs.dropWhile isBlank with
            | nil => rw [hys] at hhead; exact hhead
            | cons c cs =>
              rw [hys, List.head?_cons, Option.any_some] at hhead
              have hname : isNameChar c = true := by simp [isNameChar, Char.isAlphanum, hhead]
              rw [List.takeWhile_cons, if_pos hname]
              exact hhead
          · rw [← hrest, List.takeWhile_append_dropWhile, List.takeWhile_append_dropWhile,
              List.takeWhile_append_dropWhile]
        · exact nomatch h
      · exact nomatch h
    · exact nomatch h
  · rintro ⟨⟨hhead, hname⟩, before, after, hbefore, hafter, rfl⟩
    have hafterName : (after ++ '\x7d' :: '\x7d' :: rest).head?.any isNameChar = false := by
      cases after with
      | nil => rfl
      | cons b bs => exact not_isNameChar_of_isBlank (hafter b List.mem_cons_self)
    have hnameBlank : (name ++ (after ++ '\x7d' :: '\x7d' :: rest)).head?.any isBlank = false := by
      cases name with
      | nil => exact nomatch hhead
      | cons c cs =>
        by_contra hblank
        rw [Bool.not_eq_false] at hblank
        have hc := hname c List.mem_cons_self
        rw [not_isNameChar_of_isBlank hblank] at hc
        exact nomatch hc
    have hstart : (name ++ (after ++ '\x7d' :: '\x7d' :: rest)).head?.any Char.isAlpha := by
      cases name with
      | nil => exact nomatch hhead
      | cons c cs => exact hhead
    simp only [placeholderAt]
    rw [dropWhile_append_stop hbefore hnameBlank, if_pos hstart,
      dropWhile_append_stop hname hafterName, dropWhile_append_stop hafter (by rfl),
      takeWhile_append_stop hname hafterName]
    rfl

/-- The placeholders of a text, as `VAR_RE` finds them. -/
def placeholders : Lexer Char Text where
  token := placeholderAt
  shorter xs name rest h := by
    obtain ⟨-, before, after, -, -, rfl⟩ := placeholderAt_eq_some.mp h
    simp only [List.length_cons, List.length_append]
    omega

/-! ## The check -/

inductive TemplatePlaceholderReason where
  | bodyEmpty
  | unsupportedVariable
  | duplicateVariable
  | undeclaredPlaceholder
  | malformedPlaceholder
  deriving DecidableEq, Repr

structure TemplatePlaceholderFailure where
  reason : TemplatePlaceholderReason
  names : List Text
  deriving DecidableEq

/-- `text.includes(c + c)`. -/
def includesDoubled (text : Text) (c : Char) : Bool := [c, c] <:+: text

/-- `validateTemplatePlaceholders`. -/
def validateTemplatePlaceholders (body : Text) (allowedVariables : List Text) :
    Except TemplatePlaceholderFailure Unit :=
  if body.all isBlank then .error ⟨.bodyEmpty, []⟩
  else
    let unsupported := allowedVariables.filter (· ∉ supportedRecoveryTemplateVariables)
    let duplicates :=
      (allowedVariables.zipIdx.filter fun v => allowedVariables.idxOf v.1 ≠ v.2).map Prod.fst
    let found := placeholders.matchAll body
    let unsupportedPlaceholders := found.filter (· ∉ supportedRecoveryTemplateVariables)
    let undeclared := found.filter (· ∉ allowedVariables)
    let residue := placeholders.replaceAll (fun _ => []) body
    if unsupported ≠ [] then .error ⟨.unsupportedVariable, unsupported⟩
    else if duplicates ≠ [] then .error ⟨.duplicateVariable, duplicates⟩
    else if unsupportedPlaceholders ≠ [] then
      .error ⟨.unsupportedVariable, unsupportedPlaceholders.eraseDups⟩
    else if undeclared ≠ [] then .error ⟨.undeclaredPlaceholder, undeclared.eraseDups⟩
    else if includesDoubled residue '\x7b' || includesDoubled residue '\x7d' then
      .error ⟨.malformedPlaceholder, []⟩
    else .ok ()

/-- `renderTemplate`. -/
def renderTemplate (body : Text) (allowedVariables : List Text) (values : Text → Option Text) :
    Text :=
  placeholders.replaceAll
    (fun name => if name ∈ allowedVariables then (values name).getD [] else []) body

/-! ## What is rendered -/

variable {body : Text} {allowedVariables : List Text} {values : Text → Option Text}

/-- The placeholders of a body that passed the check are declared and supported, and no braces are
doubled between them. -/
theorem validateTemplatePlaceholders_ok
    (h : validateTemplatePlaceholders body allowedVariables = .ok ()) :
    (∀ name ∈ placeholders.matchAll body,
      name ∈ allowedVariables ∧ name ∈ supportedRecoveryTemplateVariables) ∧
    ∀ c ∈ ['\x7b', '\x7d'], ¬[c, c] <:+: placeholders.replaceAll (fun _ => []) body := by
  unfold validateTemplatePlaceholders at h
  split at h
  · exact nomatch h
  dsimp only at h
  split at h
  · exact nomatch h
  split at h
  · exact nomatch h
  split at h
  · exact nomatch h
  next hsupported =>
  split at h
  · exact nomatch h
  next hdeclared =>
  split at h
  · exact nomatch h
  next hresidue =>
  rw [not_not, List.filter_eq_nil_iff] at hsupported hdeclared
  simp only [decide_eq_true_eq, not_not] at hsupported hdeclared
  simp only [includesDoubled, Bool.or_eq_true, decide_eq_true_eq, not_or] at hresidue
  refine ⟨fun name hname => ⟨hdeclared name hname, hsupported name hname⟩, fun c hc => ?_⟩
  rcases List.mem_pair.mp hc with rfl | rfl
  · exact hresidue.1
  · exact hresidue.2

/-- Values without braces do not double the braces of a body that passed the check. -/
theorem not_doubled_renderTemplate
    (h : validateTemplatePlaceholders body allowedVariables = .ok ()) {c : Char}
    (hc : c ∈ ['\x7b', '\x7d']) (hvalues : ∀ name value, values name = some value → c ∉ value) :
    ¬[c, c] <:+: renderTemplate body allowedVariables values := by
  intro hdoubled
  refine (validateTemplatePlaceholders_ok h).2 c hc (Lexer.doubled_replaceAll ?_ hdoubled)
  intro name
  split
  · cases hvalue : values name with
    | none => exact List.not_mem_nil
    | some value => exact hvalues name value hvalue
  · exact List.not_mem_nil

/-- What is rendered from a template that passed the check, with values that have no braces, has no
doubled braces: it is the body with the value of its variable, or nothing, in the place of each
placeholder, and every placeholder names a declared and supported variable. -/
theorem rendered_completely (body : Text) (allowedVariables : List Text)
    (h : validateTemplatePlaceholders body allowedVariables = .ok ())
    (values : Text → Option Text)
    (hvalues : ∀ name value, values name = some value → '\x7b' ∉ value ∧ '\x7d' ∉ value) :
    ¬['\x7b', '\x7b'] <:+: renderTemplate body allowedVariables values ∧
    ¬['\x7d', '\x7d'] <:+: renderTemplate body allowedVariables values ∧
    ∃ pieces, placeholders.Splits body pieces ∧
      (∀ name, .inr name ∈ pieces →
        name ∈ allowedVariables ∧ name ∈ supportedRecoveryTemplateVariables) ∧
      renderTemplate body allowedVariables values =
        pieces.flatMap (Sum.elim (fun c => [c]) fun name => (values name).getD []) := by
  have hfound := (validateTemplatePlaceholders_ok h).1
  refine ⟨?_, ?_, placeholders.pieces body, Lexer.splits_pieces body, ?_, ?_⟩
  · exact not_doubled_renderTemplate h (by decide) fun name value hv => (hvalues name value hv).1
  · exact not_doubled_renderTemplate h (by decide) fun name value hv => (hvalues name value hv).2
  · exact fun name hname => hfound name (Lexer.mem_matchAll.mpr hname)
  · unfold renderTemplate Lexer.replaceAll Lexer.fill
    refine List.flatMap_congr fun piece hpiece => ?_
    cases piece with
    | inl c => rfl
    | inr name =>
      rw [Sum.elim_inr, Sum.elim_inr, if_pos (hfound name (Lexer.mem_matchAll.mpr hpiece)).1]

/-- A brace on its own stays, next to a placeholder and next to what takes its place. -/
theorem rendered_completely_greeting :
    ¬['\x7b', '\x7b'] <:+: renderTemplate "\x7b\x7b\x7b firstName\x7d\x7d!".toList
        ["firstName".toList] (fun _ => none) ∧
      renderTemplate "\x7b\x7b\x7b firstName\x7d\x7d!".toList ["firstName".toList]
        (fun _ => none) = "\x7b!".toList :=
  ⟨(rendered_completely _ _ (by rfl) _ (by simp)).1, by decide⟩

end Orchestrator
