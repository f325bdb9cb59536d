import Orchestrator.Collections.JsValue
import Orchestrator.Collections.Pattern

/-!
# The predicates of decision rules

A bounded language of comparisons of state variables with constants, joined by AND, OR and NOT.

* `PredicateAst`, `evaluatePredicate`: the syntax, and what holds of a state;
* `collectVars`, `canonicalizePredicate`: the variables, and the text, of a predicate;
* `parsePredicateAst`: what is accepted.
-/

namespace Orchestrator.Decisions

open Collections Numbers

/-! ## Values -/

/-- A value of a state variable, and a constant of a predicate. -/
inductive DecisionValue where
  | string (s : String)
  | number (n : JsNumber)
  | bool (b : Bool)
  deriving DecidableEq

namespace DecisionValue

/-- `a === b`. -/
def strictEquals : DecisionValue → DecisionValue → Bool
  | string s, string s' => s = s'
  | number n, number n' => n ≠ .nan && n.unsignedZero = n'.unsignedZero
  | bool b, bool b' => b = b'
  | _, _ => false

def toValue : DecisionValue → JsValue
  | string s => .string s
  | number n => .number n
  | bool b => .bool b

end DecisionValue

/-- The number that a finite number is. -/
def finiteValue : JsNumber → Option ℚ
  | .finite negative x => some (if negative then -x.value else x.value)
  | _ => none

/-- `n < v`, for a finite `n`. -/
def isBelow (n : ℚ) : JsNumber → Bool
  | .finite negative x => n < if negative then -x.value else x.value
  | .infinity negative => !negative
  | .nan => false

/-- `n > v`, for a finite `n`. -/
def isAbove (n : ℚ) : JsNumber → Bool
  | .finite negative x => (if negative then -x.value else x.value) < n
  | .infinity negative => negative
  | .nan => false

/-- `DecisionStateValues`: the values of a state, where they are neither null nor undefined. -/
abbrev DecisionStateValues := String → Option DecisionValue

/-- The finite number that a value is, or is a numeral of. -/
def DecisionValue.toFinite : DecisionValue → Option ℚ
  | .number n => finiteValue n
  | .string s => if s.toList.all isBlank then none else finiteValue (stringToNumber s.toList)
  | .bool _ => none

/-- `readNumber`. -/
def readNumber (values : DecisionStateValues) (variableId : String) : Option ℚ :=
  (values variableId).bind DecisionValue.toFinite

/-! ## Syntax -/

inductive CompareOp where
  | eq
  | neq
  | gt
  | gte
  | lt
  | lte
  deriving DecidableEq, Repr

def CompareOp.text : CompareOp → String
  | eq => "EQ"
  | neq => "NEQ"
  | gt => "GT"
  | gte => "GTE"
  | lt => "LT"
  | lte => "LTE"

inductive PredicateAst where
  | compare (op : CompareOp) (variableId : String) (value : DecisionValue)
  | isIn (variableId : String) (values : List DecisionValue)
  | between (variableId : String) (min max : JsNumber)
  | and (children : List PredicateAst)
  | or (children : List PredicateAst)
  | not (child : PredicateAst)

/-! ## Evaluation -/

/-- A comparison of a number with a constant, which fails where the constant is not a number. -/
def comparesNumber (n : Option ℚ) (value : DecisionValue) (holds : ℚ → JsNumber → Bool) : Bool :=
  match n, value with
  | some n, .number v => holds n v
  | _, _ => false

/-- The comparisons of `evaluatePredicate`. -/
def CompareOp.holds (values : DecisionStateValues) (variableId : String) (value : DecisionValue) :
    CompareOp → Bool
  | eq => (values variableId).any (·.strictEquals value)
  | neq => !(values variableId).any (·.strictEquals value)
  | gt => comparesNumber (readNumber values variableId) value isAbove
  | gte => comparesNumber (readNumber values variableId) value fun n v =>
      isAbove n v || finiteValue v = some n
  | lt => comparesNumber (readNumber values variableId) value isBelow
  | lte => comparesNumber (readNumber values variableId) value fun n v =>
      isBelow n v || finiteValue v = some n

/-- `n !== null && n >= min && n <= max`. -/
def isBetween (n : Option ℚ) (min max : JsNumber) : Bool :=
  comparesNumber n (.number min) (fun n v => isAbove n v || finiteValue v = some n) &&
    comparesNumber n (.number max) fun n v => isBelow n v || finiteValue v = some n

mutual

def evaluatePredicate (values : DecisionStateValues) : PredicateAst → Bool
  | .compare op variableId value => op.holds values variableId value
  | .isIn variableId constants =>
    constants.any fun constant => (values variableId).any (·.strictEquals constant)
  | .between variableId min max => isBetween (readNumber values variableId) min max
  | .and children => everyHolds values children
  | .or children => someHolds values children
  | .not child => !evaluatePredicate values child

/-- `children.every((c) => evaluatePredicate(c, values))`. -/
def everyHolds (values : DecisionStateValues) : List PredicateAst → Bool
  | [] => true
  | child :: children => evaluatePredicate values child && everyHolds values children

/-- `children.some((c) => evaluatePredicate(c, values))`. -/
def someHolds (values : DecisionStateValues) : List PredicateAst → Bool
  | [] => false
  | child :: children => evaluatePredicate values child || someHolds values children

end

/-! ## Variables and texts -/

mutual

/-- `collectVars`: the variables of a predicate as they occur. -/
def collectVars : PredicateAst → List String
  | .compare _ variableId _ => [variableId]
  | .isIn variableId _ => [variableId]
  | .between variableId _ _ => [variableId]
  | .and children => collectAllVars children
  | .or children => collectAllVars children
  | .not child => collectVars child

def collectAllVars : List PredicateAst → List String
  | [] => []
  | child :: children => collectVars child ++ collectAllVars children

end

/-- `collectVariableIds`: the set of the variables. -/
def collectVariableIds (predicate : PredicateAst) : List String := (collectVars predicate).eraseDups

mutual

def canonicalizePredicate : PredicateAst → JsValue
  | .and children => .object [("op", .string "AND"), ("children", .array (canonicalizeAll children))]
  | .or children => .object [("op", .string "OR"), ("children", .array (canonicalizeAll children))]
  | .not child => .object [("op", .string "NOT"), ("child", canonicalizePredicate child)]
  | .isIn variableId constants => .object [("op", .string "IN"), ("variableId", .string variableId),
      ("values", .array (constants.map DecisionValue.toValue))]
  | .between variableId min max => .object [("op", .string "BETWEEN"),
      ("variableId", .string variableId), ("min", .number min), ("max", .number max)]
  | .compare op variableId value => .object [("op", .string op.text),
      ("variableId", .string variableId), ("value", value.toValue)]

def canonicalizeAll : List PredicateAst → List JsValue
  | [] => []
  | child :: children => canonicalizePredicate child :: canonicalizeAll children

end

/-- `predicateKey`. -/
def predicateKey (predicate : PredicateAst) : String :=
  (canonicalizePredicate predicate).stringify.getD ""

/-! ## What is accepted -/

open PatternItem in
/-- `FORBIDDEN_CODE_PATTERNS`. -/
def forbiddenCodePatterns : List (List PatternItem) := [
  boundary :: word "eval" true ++ [boundary],
  boundary :: word "Function" false ++ [boundary],
  boundary :: word "require" false ++ [boundary],
  boundary :: word "import" false ++ blanks false :: word "(" false,
  boundary :: word "process" false ++ [boundary],
  boundary :: word "child_process" false ++ [boundary],
  boundary :: word "shell" true ++ [boundary],
  word "$\x7b" false,
  word ";" true ++ blanks false :: word "DROP" true ++ [boundary],
  word "--" false,
  word "/*" false,
  word "*/" false,
  word "=>" false,
  boundary :: word "new" false ++ blanks true :: word "Function" false ++ [boundary]]

/-- `assertNoArbitraryPredicateCode`, on the text of a predicate. -/
def hasArbitraryCode (serialized : String) : Bool :=
  forbiddenCodePatterns.any fun items => testPattern items none serialized.toList

mutual

/-- `PredicateAstSchema`. -/
def PredicateAst.isValid : PredicateAst → Bool
  | .compare _ variableId value => variableId ≠ "" && value ≠ .number .nan
  | .isIn variableId constants =>
    variableId ≠ "" && !constants.isEmpty && constants.all (· ≠ .number .nan)
  | .between variableId min max =>
    variableId ≠ "" && (finiteValue min).isSome && (finiteValue max).isSome
  | .and children => !children.isEmpty && allValid children
  | .or children => !children.isEmpty && allValid children
  | .not child => child.isValid

def allValid : List PredicateAst → Bool
  | [] => true
  | child :: children => child.isValid && allValid children

end

/-- What `parsePredicateAst` throws, by its message. -/
def parsePredicateAst (predicate : PredicateAst) : Except String PredicateAst :=
  if hasArbitraryCode (predicateKey predicate) then
    .error "Arbitrary code / shell / SQL fragments are not allowed in predicates"
  else if predicate.isValid then .ok predicate
  else .error "Predicate AST failed schema validation"

end Orchestrator.Decisions
