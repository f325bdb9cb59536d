import Orchestrator.Domain.Objective

/-!
# Search patterns

Regular expressions without choices, as sequences of characters, blanks and word boundaries. A run
of blanks is followed by something that is not one, so that none of them has to be given back.

* `PatternItem`, `matchesAt`: a sequence, and whether a text starts with it;
* `testPattern`: whether it is found anywhere in a text.
-/

namespace Collections

open Orchestrator

inductive PatternItem where
  /-- `\b`. -/
  | boundary
  /-- A character, in any case if so asked. -/
  | char (c : Char) (ignoreCase : Bool)
  /-- `\s*` or `\s+`. -/
  | blanks (required : Bool)
  deriving DecidableEq

/-- The characters of a word, one after the other. -/
def PatternItem.word (text : String) (ignoreCase : Bool) : List PatternItem :=
  text.toList.map (PatternItem.char · ignoreCase)

/-- `\w`. -/
def isWordCharacter (c : Char) : Bool := c.isAlphanum || c = '_'

/-- Whether a text starts with the sequence, `last` being what was read before it. -/
def matchesAt : List PatternItem → Option Char → List Char → Bool
  | [], _, _ => true
  | .boundary :: items, last, cs =>
    (last.any isWordCharacter) != (cs.head?.any isWordCharacter) && matchesAt items last cs
  | .char c ignoreCase :: items, _, d :: cs =>
    (if ignoreCase then c.toLower = d.toLower else c = d) && matchesAt items (some d) cs
  | .char _ _ :: _, _, [] => false
  | .blanks required :: items, last, cs =>
    let run := cs.takeWhile isBlank
    (!required || !run.isEmpty) && matchesAt items (run.getLast?.or last) (cs.dropWhile isBlank)

/-- `pattern.test(text)`. -/
def testPattern (items : List PatternItem) : Option Char → List Char → Bool
  | last, [] => matchesAt items last []
  | last, c :: cs => matchesAt items last (c :: cs) || testPattern items (some c) cs

end Collections
