import Orchestrator.Collections.Json
import Orchestrator.Domain.Execution

/-!
# Schemas and hashed texts

What the records of several services share: the checks of `zod` schemas on lists of strings and on
numbers, and the JSON of optional values and of lists of strings.
-/

namespace Orchestrator

open Collections

/-- The issue of an array of non-empty strings. -/
def textItems (path : String) (xs : List String) : List String :=
  if xs.contains "" then [path] else []

/-- The issue of a non-empty array of non-empty strings. -/
def someTextItems (path : String) (xs : List String) : List String :=
  if xs.isEmpty then [path] else textItems path xs

/-- The issue of a `z.number().int().positive()` field. -/
def positive (path : String) (n : ℕ) : List String := if n = 0 then [path] else []

/-- The issue of an optional `z.number().int().positive()` field. -/
def positiveOption (path : String) (n : Option ℕ) : List String :=
  if n = some 0 then [path] else []

/-- The issue of a `z.number().int().positive().max(bound)` field. -/
def positiveUpTo (path : String) (bound n : ℕ) : List String :=
  if n = 0 ∨ bound < n then [path] else []

/-- The issue of a `z.string().min(1).optional()` field. -/
def minOneOption (path : String) (s : Option String) : List String :=
  if s = some "" then [path] else []

/-- A value that may be missing, as `value ?? null`. -/
def Json.orNull {α : Type} (json : α → Json) : Option α → Json
  | some a => json a
  | none => .null

/-- A field that may be missing: `JSON.stringify` leaves an `undefined` one out. -/
def Json.present {α : Type} (key : String) (json : α → Json) (value : Option α) :
    List (String × Json) :=
  (value.map fun a => (key, json a)).toList

/-- Booleans and fractions are put into a hashed text as strings. -/
def Json.ofText {α : Type} [ToString α] (a : α) : Json := .string (toString a)

def jsonStrings (xs : List String) : Json := .array (xs.map .string)

end Orchestrator
