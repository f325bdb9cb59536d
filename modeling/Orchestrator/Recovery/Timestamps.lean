import Mathlib.Data.Char
import Mathlib.Data.List.Lex
import Mathlib.Tactic

/-!
# Timestamps

A timestamp keeps the spelling it was recorded with: seconds and their fraction are optional,
and the fraction has any number of digits.

* `IsoDateTime`, the strings that `z.string().datetime()` accepts;
* `IsoDateTime.text`, the string itself, by which timestamps are sorted;
* `IsoDateTime.dateParse`, the instant it stands for, in milliseconds.
-/

namespace Orchestrator

def isLeapYear (year : ℕ) : Bool := year % 4 = 0 && (year % 100 ≠ 0 || year % 400 = 0)

def daysInMonth (year month : ℕ) : ℕ :=
  if month = 2 then if isLeapYear year then 29 else 28
  else if month = 4 ∨ month = 6 ∨ month = 9 ∨ month = 11 then 30
  else 31

/-- A timestamp of the form `YYYY-MM-DDTHH:MM[:SS[.f…]]Z`. -/
structure IsoDateTime where
  year : ℕ
  month : ℕ
  day : ℕ
  hour : ℕ
  minute : ℕ
  second : Option (ℕ × List ℕ) := none
  wellFormed : year < 10000 ∧ (1 ≤ month ∧ month ≤ 12) ∧ (1 ≤ day ∧ day ≤ daysInMonth year month) ∧
    hour < 24 ∧ minute < 60 ∧ ∀ s ∈ second, s.1 < 60 ∧ ∀ d ∈ s.2, d < 10 := by decide
  deriving DecidableEq

namespace IsoDateTime

/-- Two decimal digits. -/
def twoDigits (n : ℕ) : List Char := [Nat.digitChar (n / 10), Nat.digitChar (n % 10)]

/-- The seconds and their fraction, as written. -/
def secondText : Option (ℕ × List ℕ) → List Char
  | none => []
  | some (s, []) => ':' :: twoDigits s
  | some (s, fraction) => ':' :: twoDigits s ++ '.' :: fraction.map Nat.digitChar

/-- The timestamp as written. -/
def text (t : IsoDateTime) : List Char :=
  twoDigits (t.year / 100) ++ twoDigits (t.year % 100) ++ '-' :: twoDigits t.month ++
    '-' :: twoDigits t.day ++ 'T' :: twoDigits t.hour ++ ':' :: twoDigits t.minute ++
    secondText t.second ++ ['Z']

/-- The day, from the epoch, on which a year begins. -/
def dayFromYear (year : ℕ) : ℤ :=
  365 * (year - 1970) + (year - 1969) / 4 - (year - 1901) / 100 + (year - 1601) / 400

/-- The days of the year before a month. -/
def daysBeforeMonth (year month : ℕ) : ℕ :=
  ((List.range (month - 1)).map fun m => daysInMonth year (m + 1)).sum

/-- The milliseconds of a fraction of a second; later digits are dropped. -/
def milliseconds (fraction : List ℕ) : ℕ :=
  100 * fraction.getD 0 0 + 10 * fraction.getD 1 0 + fraction.getD 2 0

/-- `Date.parse`. -/
def dateParse (t : IsoDateTime) : ℤ :=
  let day := dayFromYear t.year + daysBeforeMonth t.year t.month + t.day - 1
  let minutes := (day * 24 + t.hour) * 60 + t.minute
  match t.second with
  | none => minutes * 60000
  | some (s, fraction) => minutes * 60000 + s * 1000 + milliseconds fraction

/-- `a.localeCompare(b) <= 0`. Where two timestamps first differ there are two digits, or one
of them goes on with a digit, a colon or a point and the other ends in its `Z`: the collation
orders these characters as their codes do. -/
def localeLe (a b : IsoDateTime) : Prop := a.text ≤ b.text

instance (a b : IsoDateTime) : Decidable (a.localeLe b) :=
  inferInstanceAs (Decidable (a.text ≤ b.text))

example : dateParse ⟨2026, 3, 1, 12, 30, some (15, [2, 5]), by decide⟩ = 1772368215250 := by
  decide

end IsoDateTime

end Orchestrator
