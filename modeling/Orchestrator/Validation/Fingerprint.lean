import Orchestrator.Collections.JsObject
import Orchestrator.Collections.Lexer
import Orchestrator.Collections.Pattern
import Orchestrator.Collections.StableSort
import Orchestrator.Domain.Validation

/-!
# Fingerprints of violations

`ViolationFingerprintService`: the fingerprint of a violation is a digest of its rule, category,
steps and subject after their volatile parts have been taken out, with the type of the validator
and the rule written in front of it. A violation whose fingerprint comes back after a revision is
reported as repeated.

* `normalizeText`, `normalizeIds`, `normalizeSubject`: what is taken out;
* `canonical_eq_iff`: when two violations have the same digested text;
* `fingerprint_eq_iff`: two spellings of a violation have the same fingerprint exactly if the rule
  is spelled alike, no id is repeated in several spellings more often than in the other violation,
  and the keys of the subjects sort alike;
* `fingerprint_ne_of_case`: the case of a rule makes a difference.
-/

namespace Orchestrator

open Collections

/-- What the fingerprints take from the language and its libraries. -/
structure FingerprintExternal where
  /-- `text.toLowerCase()`. -/
  toLowerCase : String → String
  /-- `a.localeCompare(b) <= 0`. -/
  localeLe : String → String → Bool
  localeLe_total : ∀ a b, localeLe a b ∨ localeLe b a
  localeLe_trans : ∀ a b c, localeLe a b → localeLe b c → localeLe a c
  /-- The hex SHA-256 digest of a UTF-8 string. -/
  sha256 : String → String
  sha256_length : ∀ text, (sha256 text).length = 64

/-- A value of a subject, as far as it is read: `undefined` or `null`, an array by the texts of its
items, and anything else by its text. -/
inductive SubjectValue where
  | absent
  | list (items : List String)
  | text (value : String)
  deriving DecidableEq, Repr

structure ViolationFingerprintInput where
  validatorType : ValidationValidatorType
  ruleId : String
  category : String
  affectedStepIds : Option (List String)
  subject : Option (JsMap String SubjectValue)

/-- The text of a `ValidationValidatorType`. -/
def ValidationValidatorType.text : ValidationValidatorType → String
  | .schema => "SCHEMA"
  | .state => "STATE"
  | .freshness => "FRESHNESS"
  | .policy => "POLICY"
  | .capability => "CAPABILITY"
  | .dependency => "DEPENDENCY"
  | .resource => "RESOURCE"
  | .security => "SECURITY"
  | .verificationBinding => "VERIFICATION_BINDING"
  | .contextual => "CONTEXTUAL"

namespace ViolationFingerprintService

/-- `VIOLATION_FINGERPRINT_VERSION`. -/
def version : String := "1.0.0"

/-! ## Volatile tokens -/

/-- The characters of a text, each with the one before it. -/
def withPrevious : Option Char → List Char → List (Option Char × Char)
  | _, [] => []
  | last, c :: cs => (last, c) :: withPrevious (some c) cs

/-- `/\b…\b/g`, for a pattern whose matches begin and end with word characters; `length` gives the
length of the match at the front of a text, if there is one that a word ends with. -/
def wordLexer (length : List Char → Option ℕ) : Lexer (Option Char × Char) Unit where
  token
    | [] => none
    | (last, c) :: xs =>
      if last.any isWordCharacter then none
      else
        match length (c :: xs.map Prod.snd) with
        | some (n + 1) => some ((), xs.drop n)
        | _ => none
  shorter xs b rest h := by
    cases xs with
    | nil => exact nomatch h
    | cons x xs =>
      simp only at h
      split at h
      · cases h
      · split at h
        · cases h
          rw [List.length_drop, List.length_cons]
          omega
        · cases h

/-- `text.replace(/\b…\b/g, replacement)`. -/
def replaceWords (length : List Char → Option ℕ) (replacement : String) (text : List Char) :
    List Char :=
  ((wordLexer length).pieces (withPrevious none text)).flatMap
    (Sum.elim (fun x => [x.2]) fun _ => replacement.toList)

/-- `[…]+` for a class of characters. -/
def runLexer (p : Char → Bool) : Lexer Char Unit where
  token
    | [] => none
    | c :: cs => if p c then some ((), cs.dropWhile p) else none
  shorter xs b rest h := by
    cases xs with
    | nil => exact nomatch h
    | cons c cs =>
      simp only at h
      split at h
      · cases h
        exact Nat.lt_succ_of_le (List.dropWhile_sublist p).length_le
      · cases h

/-- A word that has been read ends here. -/
def endsWord (rest : List Char) : Bool := !rest.head?.any isWordCharacter

/-- `[0-9a-f]`. -/
def isHexDigit (c : Char) : Bool := c.isDigit || ('a' ≤ c && c ≤ 'f')

/-- `[0-9a-f]{8}-[0-9a-f]{4}-[0-9a-f]{4}-[0-9a-f]{4}-[0-9a-f]{12}`. -/
def uuidLength (text : List Char) : Option ℕ :=
  if (text.take 36).length = 36 ∧ endsWord (text.drop 36) ∧
      (text.take 36).zipIdx.all (fun x =>
        if x.2 ∈ [8, 13, 18, 23] then x.1 = '-' else isHexDigit x.1) then some 36
  else none

/-- `\d{4}-\d{2}-\d{2}t[\d:.]+z`. -/
def timestampLength (text : List Char) : Option ℕ :=
  let time := (text.drop 11).takeWhile fun c => c.isDigit || c = ':' || c = '.'
  if (text.take 11).length = 11 ∧
      (text.take 11).zipIdx.all (fun x =>
        if x.2 ∈ [4, 7] then x.1 = '-' else if x.2 = 10 then x.1 = 't' else x.1.isDigit) ∧
      time ≠ [] ∧ (text.drop (11 + time.length)).head? = some 'z' ∧
      endsWord (text.drop (12 + time.length)) then some (12 + time.length)
  else none

/-- `[0-9a-f]{8,}`. -/
def hashLength (text : List Char) : Option ℕ :=
  let digits := text.takeWhile isHexDigit
  if 8 ≤ digits.length ∧ endsWord (text.drop digits.length) then some digits.length else none

/-- `\d+(?:\.\d+)?`; without its fraction, a number ends at the point. -/
def numberLength (text : List Char) : Option ℕ :=
  let whole := text.takeWhile Char.isDigit
  if whole = [] then none
  else
    match text.drop whole.length with
    | '.' :: rest =>
      let fraction := rest.takeWhile Char.isDigit
      if fraction ≠ [] ∧ endsWord (rest.drop fraction.length) then
        some (whole.length + 1 + fraction.length)
      else some whole.length
    | rest => if endsWord rest then some whole.length else none

/-- Letters, digits and the six signs that a normalized text keeps. -/
def isPlainCharacter (c : Char) : Bool :=
  ('a' ≤ c && c ≤ 'z') || c.isDigit || c ∈ ['<', '>', '_', '.', '/', '-']

variable (X : FingerprintExternal)

/-- `normalizeText`. -/
def normalizeText (text : String) : String :=
  let lower := (X.toLowerCase text).toList
  let named := replaceWords numberLength "<n>" (replaceWords hashLength "<hash>"
    (replaceWords timestampLength "<timestamp>" (replaceWords uuidLength "<uuid>" lower)))
  let spaced := (runLexer fun c => !isPlainCharacter c).replaceAll (fun _ => [' ']) named
  String.ofList ((runLexer isBlank).replaceAll (fun _ => [' '])
    (trim (String.ofList spaced)).toList)

/-! ## Ids and subjects -/

/-- The ids of a list, each spelling once, trimmed and in lower case. -/
def trimmedIds (ids : List String) : List String :=
  (ids.eraseDups.map fun id => X.toLowerCase (trim id)).filter (· ≠ "")

/-- `normalizeIds`. -/
def normalizeIds (ids : Option (List String)) : List String :=
  (trimmedIds X (ids.getD [])).insertionSort fun a b => X.localeLe a b = true

/-- The text of a value of a subject, none for `undefined` and `null`. -/
def normalizeValue : SubjectValue → Option String
  | .absent => none
  | .list items => some (",".intercalate (normalizeIds X (some items)))
  | .text value => some (normalizeText X value)

/-- The assignments that fill the normalized subject, in their order. -/
def subjectEntries (subject : Option (JsMap String SubjectValue)) : List (String × String) :=
  let record := subject.getD .empty
  (record.keys.insertionSort UpTo).filterMap fun key =>
    ((record.get key).bind (normalizeValue X)).map (X.toLowerCase key, ·)

/-- `normalizeSubject`. -/
def normalizeSubject (subject : Option (JsMap String SubjectValue)) : JsMap String String :=
  table Prod.fst Prod.snd (subjectEntries X subject)

/-! ## Fingerprints -/

/-- The value that is written as the digested text. -/
def canonicalValue (input : ViolationFingerprintInput) : JsValue :=
  .object [("version", .string version),
    ("validatorType", .string input.validatorType.text),
    ("ruleId", .string (normalizeText X input.ruleId)),
    ("category", .string (normalizeText X input.category)),
    ("affectedStepIds", .array ((normalizeIds X input.affectedStepIds).map .string)),
    ("subject", .object (objectFields ((normalizeSubject X input.subject).mapValues .string)))]

/-- `canonical`. -/
def canonical (input : ViolationFingerprintInput) : String :=
  ((canonicalValue X input).stringify).getD ""

/-- `createHash("sha256").update(canonical, "utf8").digest("hex").slice(0, 16)`. -/
def digest (text : String) : String := String.ofList ((X.sha256 text).toList.take 16)

/-- `fingerprint`. -/
def fingerprint (input : ViolationFingerprintInput) : String :=
  input.validatorType.text ++ ":" ++ input.ruleId ++ ":" ++ digest X (canonical X input)

/-- `repeated`. -/
def repeated (previous current : List String) : List String :=
  ((current.filter (· ∈ previous)).eraseDups).insertionSort fun a b => X.localeLe a b = true

/-! ## What the digested text tells -/

variable {X} {input input' : ViolationFingerprintInput}

theorem itemTrees_strings_inj {ids ids' : List String} :
    JsValue.itemTrees (ids.map .string) = JsValue.itemTrees (ids'.map .string) ↔ ids = ids' := by
  have htrees : ∀ words : List String,
      JsValue.itemTrees (words.map .string) = words.map JsonTree.string := by
    intro words
    induction words with
    | nil => rfl
    | cons word words ih =>
      rw [List.map_cons, JsValue.itemTrees, ih]
      rfl
  rw [htrees, htrees]
  exact (List.map_injective_iff.mpr fun _ _ => JsonTree.string.inj).eq_iff

/-- Objects of strings are written alike exactly if their keys come in the same order and their
values are the same. -/
theorem subject_tree_iff {entries entries' : List (String × String)}
    (hsame : ∀ key, (table Prod.fst Prod.snd entries).get key =
      (table Prod.fst Prod.snd entries').get key) :
    (JsValue.object (objectFields ((table Prod.fst Prod.snd entries).mapValues .string))).toTree =
        (JsValue.object
          (objectFields ((table Prod.fst Prod.snd entries').mapValues .string))).toTree ↔
      ownOrder (ownNames (entries.map Prod.fst)) = ownOrder (ownNames (entries'.map Prod.fst)) := by
  rw [mapValues_table, mapValues_table,
    table_tree_iff (f := fun e : String × String => .string e.2) fun _ => rfl]
  refine and_iff_left_of_imp fun _ key hkey => ?_
  have hproto : key ≠ "__proto__" := by
    rw [ownNames, List.mem_eraseDups, List.mem_filter, decide_eq_true_eq] at hkey
    exact hkey.2
  have hget := hsame key
  rw [get_table, get_table, if_neg hproto, if_neg hproto] at hget
  have hbind : ∀ o : Option (String × String),
      (o.bind fun e => (JsValue.string e.2).toTree) = (o.map Prod.snd).map JsonTree.string := by
    intro o
    cases o <;> rfl
  rw [hbind, hbind, hget]

/-- What is said about a violation, as far as it is not a matter of spelling. -/
structure SameViolation (X : FingerprintExternal) (input input' : ViolationFingerprintInput) :
    Prop where
  validatorType : input.validatorType = input'.validatorType
  rule : normalizeText X input.ruleId = normalizeText X input'.ruleId
  category : normalizeText X input.category = normalizeText X input'.category
  steps : ∀ id, id ∈ (input.affectedStepIds.getD []).map (fun id => X.toLowerCase (trim id)) ↔
    id ∈ (input'.affectedStepIds.getD []).map fun id => X.toLowerCase (trim id)
  subject : ∀ key,
    (normalizeSubject X input.subject).get key = (normalizeSubject X input'.subject).get key

/-- The keys of a subject that have a value, sorted as they are spelled and then in lower case. -/
def subjectKeys (X : FingerprintExternal) (subject : Option (JsMap String SubjectValue)) :
    List String :=
  let record := subject.getD .empty
  ownOrder (ownNames (((record.keys.insertionSort UpTo).filter fun key =>
    record.get key ≠ some .absent).map X.toLowerCase))

/-- What the fingerprint makes of the spelling of a violation: the rule as it is spelled, the
ids that collate alike as many times as they are spelled differently, and the keys of the subject
in the order of their spellings. -/
structure SpeltAlike (X : FingerprintExternal) (input input' : ViolationFingerprintInput) :
    Prop where
  rule : input.ruleId = input'.ruleId
  steps : ∀ id,
    (trimmedIds X (input.affectedStepIds.getD [])).filter
        (Tied (fun a b => X.localeLe a b = true) id ·) =
      (trimmedIds X (input'.affectedStepIds.getD [])).filter
        (Tied (fun a b => X.localeLe a b = true) id ·)
  keys : subjectKeys X input.subject = subjectKeys X input'.subject

theorem subjectKeys_eq (subject : Option (JsMap String SubjectValue)) :
    subjectKeys X subject = ownOrder (ownNames ((subjectEntries X subject).map Prod.fst)) := by
  simp only [subjectKeys, subjectEntries]
  congr 2
  rw [List.map_filterMap, ← List.filterMap_eq_filter, List.map_filterMap]
  refine List.filterMap_congr fun key hkey => ?_
  rw [List.mem_insertionSort, JsMap.mem_keys] at hkey
  obtain ⟨value, hvalue⟩ := Option.isSome_iff_exists.mp hkey
  cases value <;> simp [normalizeValue, Option.guard, hvalue]

/-- Violations that are the same but for spelling have the same digested text exactly if ids and
keys are spelled alike. -/
theorem canonical_eq_iff (h : SameViolation X input input') :
    canonical X input = canonical X input' ↔
      normalizeIds X input.affectedStepIds = normalizeIds X input'.affectedStepIds ∧
        subjectKeys X input.subject = subjectKeys X input'.subject := by
  have htext : canonical X input = canonical X input' ↔
      (canonicalValue X input).toTree = (canonicalValue X input').toTree := by
    rw [← JsValue.stringify_inj]
    exact ⟨fun heq => congrArg some heq, fun heq => congrArg (Option.getD · "") heq⟩
  have hsubject := @subject_tree_iff (subjectEntries X input.subject)
    (subjectEntries X input'.subject) h.subject
  rw [htext, subjectKeys_eq, subjectKeys_eq, ← hsubject, canonicalValue, canonicalValue,
    h.validatorType, h.rule, h.category, JsValue.toTree, JsValue.toTree, Option.some_inj,
    JsonTree.object.injEq, fieldTrees_cons_inj rfl rfl, fieldTrees_cons_inj rfl rfl,
    fieldTrees_cons_inj rfl rfl, fieldTrees_cons_inj rfl rfl, fieldTrees_cons_inj rfl rfl,
    fieldTrees_cons_inj rfl rfl]
  have harray : ∀ ids ids' : List String,
      (JsValue.array (ids.map .string)).toTree = (JsValue.array (ids'.map .string)).toTree ↔
        ids = ids' := by
    intro ids ids'
    rw [JsValue.toTree, JsValue.toTree, Option.some_inj, JsonTree.array.injEq,
      itemTrees_strings_inj]
  rw [harray]
  simp [normalizeSubject]

theorem normalizeIds_eq_iff {ids ids' : Option (List String)} :
    normalizeIds X ids = normalizeIds X ids' ↔
      ∀ id, (trimmedIds X (ids.getD [])).filter (Tied (fun a b => X.localeLe a b = true) id ·) =
        (trimmedIds X (ids'.getD [])).filter (Tied (fun a b => X.localeLe a b = true) id ·) :=
  insertionSort_eq_iff X.localeLe_total X.localeLe_trans

/-- The type, the rule and the digest can be read off a fingerprint, since digests have one
length. -/
theorem fingerprint_eq (htype : input.validatorType = input'.validatorType) :
    fingerprint X input = fingerprint X input' ↔
      input.ruleId = input'.ruleId ∧
        digest X (canonical X input) = digest X (canonical X input') := by
  have hlength : ∀ text, (digest X text).toList.length = 16 := by
    intro text
    rw [digest, String.toList_ofList, List.length_take, String.length_toList, X.sha256_length]
    rfl
  constructor
  · intro h
    rw [fingerprint, fingerprint, htype] at h
    have hchars := congrArg String.toList h
    simp only [String.toList_append] at hchars
    obtain ⟨hfront, hdigest⟩ := List.append_inj' hchars (by rw [hlength, hlength])
    refine ⟨?_, String.toList_injective hdigest⟩
    have hrule := List.append_cancel_right hfront
    exact String.toList_injective (List.append_cancel_left hrule)
  · rintro ⟨hrule, hdigest⟩
    rw [fingerprint, fingerprint, htype, hrule, hdigest]

theorem mem_repeated {previous current : List String} {text : String} :
    text ∈ repeated X previous current ↔ text ∈ current ∧ text ∈ previous := by
  rw [repeated, List.mem_insertionSort, List.mem_eraseDups, List.mem_filter, decide_eq_true_eq]

/-- Two spellings of a violation have the same fingerprint, and the second is reported as repeating
the first, exactly if they are spelled alike where the fingerprint reads the spelling. -/
theorem fingerprint_eq_iff (h : SameViolation X input input')
    (hdigest : digest X (canonical X input) = digest X (canonical X input') →
      canonical X input = canonical X input') :
    (fingerprint X input = fingerprint X input' ∧
      ∀ previous current, fingerprint X input ∈ previous → fingerprint X input' ∈ current →
        fingerprint X input' ∈ repeated X previous current) ↔ SpeltAlike X input input' := by
  have hequal : fingerprint X input = fingerprint X input' ↔ SpeltAlike X input input' := by
    have hcanonical : digest X (canonical X input) = digest X (canonical X input') ↔
        canonical X input = canonical X input' := ⟨hdigest, fun heq => by rw [heq]⟩
    rw [fingerprint_eq h.validatorType, hcanonical, canonical_eq_iff h, normalizeIds_eq_iff]
    constructor
    · rintro ⟨hrule, hsteps, hkeys⟩
      exact ⟨hrule, hsteps, hkeys⟩
    · rintro ⟨hrule, hsteps, hkeys⟩
      exact ⟨hrule, hsteps, hkeys⟩
  rw [hequal]
  refine and_iff_left_of_imp fun hspelt previous current hprevious hcurrent => ?_
  rw [mem_repeated]
  exact ⟨hcurrent, hequal.mpr hspelt ▸ hprevious⟩

/-! ## Spellings of one violation -/

/-- A simple instance: lower case for the letters `A` to `Z`, code unit order, and the end of a text
for its digest. -/
def plainFingerprints : FingerprintExternal where
  toLowerCase text := String.ofList (text.toList.map Char.toLower)
  localeLe a b := decide (UpTo a b)
  localeLe_total a b := by
    rw [decide_eq_true_eq, decide_eq_true_eq]
    exact le_total (codeUnits a) (codeUnits b)
  localeLe_trans a b c := by
    rw [decide_eq_true_eq, decide_eq_true_eq, decide_eq_true_eq]
    exact le_trans (α := List ℕ)
  sha256 text := String.ofList ((text.toList.reverse ++ List.replicate 64 '0').take 64)
  sha256_length text := by
    rw [String.length_ofList, List.length_take, List.length_append, List.length_replicate]
    omega

/-- A policy violation of two steps. -/
def denied (ruleId : String) (steps : List String) : ViolationFingerprintInput where
  validatorType := .policy
  ruleId := ruleId
  category := "policy"
  affectedStepIds := some steps
  subject := none

/-- The order of the steps makes no difference. -/
theorem fingerprint_eq_of_order :
    (fingerprint plainFingerprints (denied "POLICY_DENY" ["step_b", "Step_A"]) =
        fingerprint plainFingerprints (denied "POLICY_DENY" ["step_a", "step_b"]) ∧
      ∀ previous current,
        fingerprint plainFingerprints (denied "POLICY_DENY" ["step_b", "Step_A"]) ∈ previous →
          fingerprint plainFingerprints (denied "POLICY_DENY" ["step_a", "step_b"]) ∈ current →
            fingerprint plainFingerprints (denied "POLICY_DENY" ["step_a", "step_b"]) ∈
              repeated plainFingerprints previous current) ↔
      SpeltAlike plainFingerprints (denied "POLICY_DENY" ["step_b", "Step_A"])
        (denied "POLICY_DENY" ["step_a", "step_b"]) := by
  refine fingerprint_eq_iff ⟨rfl, rfl, rfl, fun id => List.Perm.mem_iff ?_, fun _ => rfl⟩ fun _ => ?_
  · decide
  · decide +kernel

/-- The case of the rule makes a difference, and the violation goes unnoticed. -/
theorem fingerprint_ne_of_case :
    SameViolation plainFingerprints (denied "POLICY_DENY" ["step_a"])
        (denied "Policy_Deny" ["step_a"]) ∧
      fingerprint plainFingerprints (denied "POLICY_DENY" ["step_a"]) ≠
        fingerprint plainFingerprints (denied "Policy_Deny" ["step_a"]) ∧
      repeated plainFingerprints
        [fingerprint plainFingerprints (denied "POLICY_DENY" ["step_a"])]
        [fingerprint plainFingerprints (denied "Policy_Deny" ["step_a"])] = [] := by
  refine ⟨⟨rfl, ?_, rfl, fun _ => Iff.rfl, fun _ => rfl⟩, ?_, ?_⟩
  · decide +kernel
  · decide
  · decide +kernel

end ViolationFingerprintService

end Orchestrator
