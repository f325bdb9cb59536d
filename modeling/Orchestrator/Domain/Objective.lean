import Orchestrator.Collections.Json
import Orchestrator.Domain.Execution

/-!
# Objectives

The request that submits an objective, the objective it becomes, and the two digests admission
compares: the idempotency key of its identity and the fingerprint of its content.

* `AdmissionRequest`, `Objective`, `parseObjective`;
* `objectiveIdempotencyKey`, with `objectiveIdempotencyKey_inj`;
* `objectiveFingerprint`, with `objectiveFingerprint_inj`: equal fingerprints mean equal
  contents, up to order, duplicates and surrounding blanks of the string lists.
-/

namespace Orchestrator

open Collections

inductive ObjectivePriority where
  | low
  | medium
  | high
  | critical
  deriving DecidableEq, Repr

/-- The priority's name in the source. -/
def ObjectivePriority.text : ObjectivePriority → String
  | .low => "LOW"
  | .medium => "MEDIUM"
  | .high => "HIGH"
  | .critical => "CRITICAL"

theorem ObjectivePriority.text_inj {p q : ObjectivePriority} (h : p.text = q.text) : p = q := by
  revert h
  cases p <;> cases q <;> decide

/-- `ObjectiveIdempotencyIdentity`: the requester is no part of it. -/
structure ObjectiveIdempotencyIdentity where
  projectId : String
  objectiveId : String
  objectiveVersion : ℕ
  requestedEnvironment : String
  deriving DecidableEq, Repr

/-- `ObjectiveFingerprintContent`. -/
structure ObjectiveFingerprintContent where
  requestedOutcome : String
  acceptanceCriteria : List String
  nonGoals : List String
  constraints : List String
  priority : ObjectivePriority
  deadline : Option String
  deriving DecidableEq, Repr

/-- What `AdmissionRequestSchema` accepts: the fields it asks to be non-empty are. -/
structure AdmissionRequest where
  identity : ObjectiveIdempotencyIdentity
  content : ObjectiveFingerprintContent
  requesterId : String
  submittedAt : String
  projectId_ne : identity.projectId ≠ ""
  objectiveId_ne : identity.objectiveId ≠ ""
  objectiveVersion_pos : 0 < identity.objectiveVersion
  requestedOutcome_ne : content.requestedOutcome ≠ ""
  acceptanceCriteria_ne : content.acceptanceCriteria ≠ [] ∧ "" ∉ content.acceptanceCriteria
  requesterId_ne : requesterId ≠ ""
  requestedEnvironment_ne : identity.requestedEnvironment ≠ ""
  deriving DecidableEq

namespace AdmissionRequest

variable (request : AdmissionRequest)

abbrev projectId : String := request.identity.projectId

abbrev objectiveId : String := request.identity.objectiveId

abbrev objectiveVersion : ℕ := request.identity.objectiveVersion

abbrev requestedEnvironment : String := request.identity.requestedEnvironment

end AdmissionRequest

structure Objective where
  objectiveId : String
  objectiveVersion : ℕ
  projectId : String
  requestedOutcome : String
  acceptanceCriteria : List String
  nonGoals : List String
  constraints : List String
  priority : ObjectivePriority
  requesterId : String
  deadline : Option String
  createdAt : String
  deriving DecidableEq, Repr

/-- The objective that admission makes of a request; `parseObjective` accepts it as it is, since
`ObjectiveSchema` asks no more of a field than `AdmissionRequestSchema`. -/
def parseObjective (request : AdmissionRequest) : Objective where
  objectiveId := request.objectiveId
  objectiveVersion := request.objectiveVersion
  projectId := request.projectId
  requestedOutcome := request.content.requestedOutcome
  acceptanceCriteria := request.content.acceptanceCriteria
  nonGoals := request.content.nonGoals
  constraints := request.content.constraints
  priority := request.content.priority
  requesterId := request.requesterId
  deadline := request.content.deadline
  createdAt := request.submittedAt

/-- The content of an objective. -/
def Objective.content (o : Objective) : ObjectiveFingerprintContent where
  requestedOutcome := o.requestedOutcome
  acceptanceCriteria := o.acceptanceCriteria
  nonGoals := o.nonGoals
  constraints := o.constraints
  priority := o.priority
  deadline := o.deadline

@[simp] theorem content_parseObjective (request : AdmissionRequest) :
    (parseObjective request).content = request.content := rfl

/-! ## The idempotency key -/

/-- The payload of `canonicalizeIdentity`. -/
def canonicalizeIdentity (identity : ObjectiveIdempotencyIdentity) : Json :=
  .object [
    ("objectiveId", .string identity.objectiveId),
    ("objectiveVersion", .number identity.objectiveVersion),
    ("projectId", .string identity.projectId),
    ("requestedEnvironment", .string identity.requestedEnvironment)]

def objectiveIdempotencyKey (X : External) (identity : ObjectiveIdempotencyIdentity) : String :=
  X.sha256 (canonicalizeIdentity identity).stringify

/-- Where digests do not collide, identities with the same key are the same. -/
theorem objectiveIdempotencyKey_inj {X : External} (hX : Function.Injective X.sha256)
    {i j : ObjectiveIdempotencyIdentity}
    (h : objectiveIdempotencyKey X i = objectiveIdempotencyKey X j) : i = j := by
  have hjson := Json.stringify_inj (hX h)
  obtain ⟨p, o, v, e⟩ := i
  obtain ⟨p', o', v', e'⟩ := j
  simp only [canonicalizeIdentity, Json.object.injEq, List.cons.injEq, Prod.mk.injEq,
    Json.string.injEq, Json.number.injEq, true_and, and_true] at hjson
  obtain ⟨rfl, rfl, rfl, rfl⟩ := hjson
  rfl

/-! ## The fingerprint -/

/-- The characters `String.prototype.trim` removes. -/
def isBlank (c : Char) : Bool :=
  c ∈ ['\t', '\n', '\x0b', '\x0c', '\r', ' ', '\u00a0', '\u1680', '\u2028', '\u2029', '\u202f',
    '\u205f', '\u3000', '\ufeff'] || (0x2000 ≤ c.toNat && c.toNat ≤ 0x200a)

/-- `String.prototype.trim`. -/
def trim (s : String) : String :=
  String.ofList (((s.toList.dropWhile isBlank).reverse.dropWhile isBlank).reverse)

/-- The UTF-16 code units of a string. -/
def codeUnits (s : String) : List ℕ :=
  s.toList.flatMap fun c =>
    if c.toNat < 0x10000 then [c.toNat]
    else [0xd800 + (c.toNat - 0x10000) / 0x400, 0xdc00 + (c.toNat - 0x10000) % 0x400]

/-- The comparison of strings that sorting uses: `a` does not come after `b`. -/
def SortsBefore (a b : String) : Prop := ¬codeUnits b < codeUnits a

instance : DecidableRel SortsBefore := fun a b =>
  inferInstanceAs (Decidable (¬codeUnits b < codeUnits a))

/-- The trimmed strings without duplicates, sorted. -/
def canonicalizeStringCollection (values : List String) : List String :=
  (values.map trim).eraseDups.insertionSort SortsBefore

/-- The payload of `objectiveFingerprint`. -/
def canonicalizeContent (content : ObjectiveFingerprintContent) : Json :=
  let strings (values : List String) : Json :=
    .array ((canonicalizeStringCollection values).map .string)
  .object [
    ("acceptanceCriteria", strings content.acceptanceCriteria),
    ("constraints", strings content.constraints),
    ("deadline", match content.deadline with
      | some deadline => .string deadline
      | none => .null),
    ("nonGoals", strings content.nonGoals),
    ("priority", .string content.priority.text),
    ("requestedOutcome", .string content.requestedOutcome)]

def objectiveFingerprint (X : External) (content : ObjectiveFingerprintContent) : String :=
  X.sha256 (canonicalizeContent content).stringify

/-- The same strings, up to order, duplicates and surrounding blanks. -/
def SameCollection (xs ys : List String) : Prop :=
  ∀ s, (∃ x ∈ xs, trim x = s) ↔ ∃ y ∈ ys, trim y = s

/-- The same content, up to order, duplicates and surrounding blanks of the string lists. -/
structure SameContent (c d : ObjectiveFingerprintContent) : Prop where
  requestedOutcome : c.requestedOutcome = d.requestedOutcome
  acceptanceCriteria : SameCollection c.acceptanceCriteria d.acceptanceCriteria
  nonGoals : SameCollection c.nonGoals d.nonGoals
  constraints : SameCollection c.constraints d.constraints
  priority : c.priority = d.priority
  deadline : c.deadline = d.deadline

theorem mem_canonicalizeStringCollection {s : String} {values : List String} :
    s ∈ canonicalizeStringCollection values ↔ ∃ v ∈ values, trim v = s := by
  rw [canonicalizeStringCollection, List.mem_insertionSort, List.mem_eraseDups, List.mem_map]

theorem sameCollection_of_eq {xs ys : List String}
    (h : canonicalizeStringCollection xs = canonicalizeStringCollection ys) :
    SameCollection xs ys := by
  intro s
  rw [← mem_canonicalizeStringCollection, h, mem_canonicalizeStringCollection]

/-- Where digests do not collide, contents with the same fingerprint are the same. -/
theorem objectiveFingerprint_inj {X : External} (hX : Function.Injective X.sha256)
    {c d : ObjectiveFingerprintContent}
    (h : objectiveFingerprint X c = objectiveFingerprint X d) : SameContent c d := by
  have hjson := Json.stringify_inj (hX h)
  have hstring : Function.Injective Json.string := fun _ _ h => Json.string.inj h
  simp only [canonicalizeContent, Json.object.injEq, List.cons.injEq, Prod.mk.injEq,
    Json.string.injEq, Json.array.injEq, List.map_inj_right hstring, true_and, and_true] at hjson
  obtain ⟨hcriteria, hconstraints, hdeadline, hgoals, hpriority, houtcome⟩ := hjson
  refine ⟨houtcome, sameCollection_of_eq hcriteria, sameCollection_of_eq hgoals,
    sameCollection_of_eq hconstraints, ObjectivePriority.text_inj hpriority, ?_⟩
  cases hc : c.deadline <;> cases hd : d.deadline <;> simp_all

end Orchestrator
