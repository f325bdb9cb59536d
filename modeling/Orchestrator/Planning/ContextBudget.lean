import Orchestrator.Collections.Greedy
import Orchestrator.Collections.JsMap
import Orchestrator.Ingestion.ProjectIndexer

/-!
# The context budget of planning

Which excerpts of the evidence a plan is made from: those of this run, project and commit, ranked
by how much they have to do with the objective, and cut to a budget.

* `eligible`, `scoreEvidence`: the filter and the rank;
* `selectTurn`: one turn of the loop that cuts to the budget;
* `ContextBudgetController.compile`: the selection;
* `selected_by_greedy`: the loop selects greedily;
* `contextSelection_exact`, `contextSelection_orderFree`: what is selected, and that the order of
  the evidence has no part in it.
-/

namespace Orchestrator

open Collections

/-! ## Evidence and budgets -/

inductive TrustLevel where
  | systemAuthority
  | policyAuthority
  | remoteVerified
  | localVerified
  | userProvided
  | historicalPrecedent
  | untrustedExternal
  | unknown
  deriving DecidableEq, Repr

structure EvidenceRecord where
  evidenceId : String
  sourceType : String
  sourcePath : Option String
  sourceIdentifier : Option String
  contentHash : String
  trustLevel : TrustLevel
  summary : String
  runId : Option String
  projectId : Option String
  commitSha : Option String
  deriving DecidableEq, Repr

structure ContextBudgetConfig where
  maxEvidenceCount : ℕ
  maxExcerptChars : ℕ
  maxExcerptCharsPerItem : ℕ
  deriving DecidableEq, Repr

def defaultContextBudget : ContextBudgetConfig where
  maxEvidenceCount := 24
  maxExcerptChars := 24000
  maxExcerptCharsPerItem := 4000

/-- `content` is given by its UTF-16 code units. -/
structure PlanningEvidenceExcerpt where
  evidenceId : String
  sourceIdentifier : String
  trustLevel : TrustLevel
  commitSha : Option String
  contentHash : String
  content : List ℕ
  label : String
  deriving DecidableEq, Repr

/-- What the selection takes from the language. -/
structure ContextExternal where
  /-- `text.toLowerCase()`. -/
  toLowerCase : String → String
  /-- `a.localeCompare(b) <= 0`. -/
  localeLe : String → String → Bool
  localeLe_total : ∀ a b, localeLe a b ∨ localeLe b a
  localeLe_trans : ∀ a b c, localeLe a b → localeLe b c → localeLe a c
  /-- The replacements of `redactSecrets` by regular expressions. -/
  redactSecrets : String → String

/-- The file lists of a project index. -/
structure IndexPaths where
  sourceEntryPoints : List String
  dependencyManifests : List String
  lockfiles : List String
  configurationFiles : List String
  testFiles : List String
  documentationFiles : List String
  relativePaths : List String

/-- What `compile` reads to select evidence. -/
structure ContextBudgetInput where
  runId : String
  projectId : String
  liveCommitSha : String
  requestedOutcome : String
  acceptanceCriteria : List String
  constraints : List String
  index : IndexPaths
  evidence : List EvidenceRecord
  contentByEvidenceId : JsMap String String
  budget : Option ContextBudgetConfig

/-- `input.budget ?? DEFAULT_CONTEXT_BUDGET`. -/
def ContextBudgetInput.config (input : ContextBudgetInput) : ContextBudgetConfig :=
  input.budget.getD defaultContextBudget

namespace ContextBudgetController

open ProjectIndexer (includes endsWith)

variable (X : ContextExternal)

/-! ## Ranking -/

def secretPathHints : List String :=
  [".env", "credentials", "secret", "token", "private-key", "id_rsa"]

/-- A character at which `tokenize` does not split. -/
def isTokenChar (c : Char) : Bool :=
  c.isLower || c.isDigit || c == '_' || c == '.' || c == '/' || c == '-'

/-- The set of terms, in the order in which they come. -/
def tokenize (text : String) : List String :=
  (((X.toLowerCase text).toList.splitOnP fun c => !isTokenChar c).filter
    fun token => 3 ≤ token.length).map String.ofList |>.eraseDups

def scoreEvidence (evidence : EvidenceRecord) (terms indexPaths : List String) : ℕ :=
  let path := evidence.sourcePath.getD ""
  let identifier := evidence.sourceIdentifier.getD ""
  let hay := X.toLowerCase s!"{path} {identifier} {evidence.summary}"
  3 * terms.countP (fun term => includes hay term) +
  (if path ∈ indexPaths then 5 else 0) +
  (if endsWith path "package.json" || includes path "tsconfig" then 4 else 0) +
  (if includes path "src/" || endsWith path ".ts" then 2 else 0) +
  (if includes path ".test." || includes path "/test/" then 1 else 0) +
  (if evidence.sourceType = "REMOTE_SNAPSHOT" then 6 else 0)

def looksSecretPath (path : String) : Bool :=
  secretPathHints.any fun hint => includes (X.toLowerCase path) hint

/-- `value && value !== expected`. -/
def differs (value : Option String) (expected : String) : Bool :=
  match value with
  | some v => v ≠ "" && v ≠ expected
  | none => false

/-- The record is of another commit. -/
def differsInCommit (commitSha : Option String) (liveCommitSha : String) : Bool :=
  match commitSha with
  | some sha => sha ≠ "" && X.toLowerCase sha ≠ X.toLowerCase liveCommitSha
  | none => false

/-- The filter of the evidence. -/
def eligible (input : ContextBudgetInput) (record : EvidenceRecord) : Bool :=
  !differs record.runId input.runId &&
  !differs record.projectId input.projectId &&
  !differsInCommit X record.commitSha input.liveCommitSha &&
  !looksSecretPath X ((record.sourcePath.orElse fun _ => record.sourceIdentifier).getD "")

/-- The terms of the objective. -/
def terms (input : ContextBudgetInput) : List String :=
  tokenize X (" ".intercalate
    (input.requestedOutcome :: (input.acceptanceCriteria ++ input.constraints)))

def indexPaths (index : IndexPaths) : List String :=
  index.sourceEntryPoints ++ index.dependencyManifests ++ index.lockfiles ++
    index.configurationFiles ++ index.testFiles ++ index.documentationFiles ++
    index.relativePaths

def score (input : ContextBudgetInput) (record : EvidenceRecord) : ℕ :=
  scoreEvidence X record (terms X input) (indexPaths input.index)

/-- The comparator of the ranking: the better score first, then the id. -/
def RanksBefore (input : ContextBudgetInput) (a b : EvidenceRecord) : Prop :=
  score X input b < score X input a ∨
    score X input a = score X input b ∧ X.localeLe a.evidenceId b.evidenceId

instance (input : ContextBudgetInput) : DecidableRel (RanksBefore X input) := fun _ _ =>
  inferInstanceAs (Decidable (_ ∨ _))

def ranked (input : ContextBudgetInput) : List EvidenceRecord :=
  (input.evidence.filter (eligible X input)).insertionSort (RanksBefore X input)

/-! ## The cut -/

/-- `redactSecrets(raw).slice(0, budget.maxExcerptCharsPerItem)`. -/
def content (input : ContextBudgetInput) (record : EvidenceRecord) : List ℕ :=
  (Collections.codeUnits (X.redactSecrets
    ((input.contentByEvidenceId.get record.evidenceId).getD record.summary))).take
      input.config.maxExcerptCharsPerItem

def excerpt (input : ContextBudgetInput) (record : EvidenceRecord) : PlanningEvidenceExcerpt where
  evidenceId := record.evidenceId
  sourceIdentifier :=
    (record.sourcePath.orElse fun _ => record.sourceIdentifier).getD record.evidenceId
  trustLevel := record.trustLevel
  commitSha := record.commitSha
  contentHash := record.contentHash
  content := content X input record
  label := "UNTRUSTED_PROJECT_DATA"

/-- The variables of the loop. -/
structure Selection where
  selected : List PlanningEvidenceExcerpt
  selectedIds : List String
  excludedIds : List String
  usedChars : ℕ
  deriving DecidableEq, Repr

/-- One turn of the loop over the ranking. -/
def selectTurn (input : ContextBudgetInput) (s : Selection) (record : EvidenceRecord) :
    Selection :=
  if s.selected.length ≥ input.config.maxEvidenceCount then
    { s with excludedIds := s.excludedIds ++ [record.evidenceId] }
  else if s.usedChars + (content X input record).length > input.config.maxExcerptChars then
    { s with excludedIds := s.excludedIds ++ [record.evidenceId] }
  else
    { selected := s.selected ++ [excerpt X input record]
      selectedIds := s.selectedIds ++ [record.evidenceId]
      excludedIds := s.excludedIds
      usedChars := s.usedChars + (content X input record).length }

def selectAll (input : ContextBudgetInput) (records : List EvidenceRecord) : Selection :=
  records.foldl (selectTurn X input) ⟨[], [], [], 0⟩

/-- One turn of the loop that notes what is in neither list. -/
def noteExcluded (selectedIds excludedIds : List String) (record : EvidenceRecord) :
    List String :=
  if record.evidenceId ∉ selectedIds ∧ record.evidenceId ∉ excludedIds then
    excludedIds ++ [record.evidenceId]
  else excludedIds

def LocaleLe (a b : String) : Prop := X.localeLe a b = true

instance : DecidableRel (LocaleLe X) := fun _ _ => inferInstanceAs (Decidable (_ = true))

/-- The order of two excerpts by their ids. -/
def ExcerptLe (a b : PlanningEvidenceExcerpt) : Prop := LocaleLe X a.evidenceId b.evidenceId

instance : DecidableRel (ExcerptLe X) := fun _ _ => inferInstanceAs (Decidable (_ = true))

/-- What of a compiled context comes from the selection. -/
structure CompiledSelection where
  evidence : List PlanningEvidenceExcerpt
  knownUnknowns : List String
  selectedEvidenceIds : List String
  excludedEvidenceIds : List String
  selectedExcerptChars : ℕ
  selectedEvidenceCount : ℕ
  deriving DecidableEq, Repr

/-- A thrown `PlanningError`. -/
structure PlanningError where
  code : String
  message : String
  deriving DecidableEq, Repr

def contextBudgetExceeded : PlanningError where
  code := "PLANNING_CONTEXT_BUDGET_EXCEEDED"
  message := "Context budget excluded all evidence"

def knownUnknowns (index : IndexPaths) : List String :=
  (if index.sourceEntryPoints.length = 0 then
    ["No deterministic source entry point detected"] else []) ++
  (if index.testFiles.length = 0 then ["No test files detected in verified index"] else [])

/-- The selection of `ContextBudgetController.compile`. -/
def compile (input : ContextBudgetInput) : Except PlanningError CompiledSelection :=
  let loop := selectAll X input (ranked X input)
  let excludedIds := input.evidence.foldl (noteExcluded loop.selectedIds) loop.excludedIds
  if loop.selected.length = 0 ∧ input.evidence.length > 0 ∧ input.config.maxEvidenceCount > 0 then
    .error contextBudgetExceeded
  else .ok {
    evidence := loop.selected.insertionSort (ExcerptLe X)
    knownUnknowns := knownUnknowns input.index
    selectedEvidenceIds := loop.selectedIds.insertionSort (LocaleLe X)
    excludedEvidenceIds := excludedIds.insertionSort (LocaleLe X)
    selectedExcerptChars := loop.usedChars
    selectedEvidenceCount := loop.selected.length }

/-! ## The loop selects greedily -/

variable {X} {input : ContextBudgetInput}

/-- The size of the excerpt of a record. -/
def excerptChars (X : ContextExternal) (input : ContextBudgetInput) (record : EvidenceRecord) :
    ℕ :=
  (content X input record).length

/-- There is room for a record next to those that are selected. -/
def HasRoom (X : ContextExternal) (input : ContextBudgetInput) (selected : List EvidenceRecord)
    (record : EvidenceRecord) : Prop :=
  Fits input.config.maxEvidenceCount input.config.maxExcerptChars (excerptChars X input) selected
    record

/-- The records that are selected of a ranking. -/
def kept (X : ContextExternal) (input : ContextBudgetInput) (records : List EvidenceRecord) :
    List EvidenceRecord :=
  greedy input.config.maxEvidenceCount input.config.maxExcerptChars (excerptChars X input) records

/-- The variables of the loop after some records. -/
structure LoopState (X : ContextExternal) (input : ContextBudgetInput)
    (records : List EvidenceRecord) (s : Selection) : Prop where
  selected : s.selected = (kept X input records).map (excerpt X input)
  selectedIds : s.selectedIds = (kept X input records).map (·.evidenceId)
  usedChars : s.usedChars = totalSize (excerptChars X input) (kept X input records)
  all : (s.selectedIds ++ s.excludedIds).Perm (records.map (·.evidenceId))

/-- A turn that has no room for the record. -/
theorem selectTurn_excluded {s : Selection} {records : List EvidenceRecord}
    {record : EvidenceRecord} (hs : LoopState X input records s)
    (hroom : ¬HasRoom X input (kept X input records) record) :
    selectTurn X input s record =
      { s with excludedIds := s.excludedIds ++ [record.evidenceId] } := by
  unfold selectTurn
  split_ifs with hcount hchars
  · rfl
  · rfl
  · rw [hs.selected, List.length_map] at hcount
    rw [hs.usedChars] at hchars
    exact absurd ⟨not_le.mp hcount, not_lt.mp hchars⟩ hroom

/-- A turn that has room for the record. -/
theorem selectTurn_selected {s : Selection} {records : List EvidenceRecord}
    {record : EvidenceRecord} (hs : LoopState X input records s)
    (hroom : HasRoom X input (kept X input records) record) :
    selectTurn X input s record =
      { selected := s.selected ++ [excerpt X input record]
        selectedIds := s.selectedIds ++ [record.evidenceId]
        excludedIds := s.excludedIds
        usedChars := s.usedChars + excerptChars X input record } := by
  have hcount : ¬s.selected.length ≥ input.config.maxEvidenceCount := by
    rw [hs.selected, List.length_map]
    exact not_le.mpr hroom.1
  have hchars : ¬s.usedChars + (content X input record).length > input.config.maxExcerptChars := by
    rw [hs.usedChars]
    exact not_lt.mpr hroom.2
  unfold selectTurn
  rw [if_neg hcount, if_neg hchars]
  rfl

theorem selected_by_greedy (records : List EvidenceRecord) :
    LoopState X input records (selectAll X input records) := by
  induction records using List.reverseRecOn with
  | nil => exact ⟨rfl, rfl, rfl, List.Perm.refl _⟩
  | append_singleton records record ih =>
    have hturn : selectAll X input (records ++ [record]) =
        selectTurn X input (selectAll X input records) record := by
      unfold selectAll
      rw [List.foldl_append]
      rfl
    have hkept : kept X input (records ++ [record]) = keepIfFits input.config.maxEvidenceCount
        input.config.maxExcerptChars (excerptChars X input) (kept X input records) record :=
      greedy_concat
    rw [hturn]
    by_cases hroom : HasRoom X input (kept X input records) record
    · have hmore : kept X input (records ++ [record]) = kept X input records ++ [record] :=
        hkept.trans (if_pos hroom)
      rw [selectTurn_selected ih hroom]
      refine ⟨?_, ?_, ?_, ?_⟩
      · rw [hmore, List.map_append, ← ih.selected]
        rfl
      · rw [hmore, List.map_append, ← ih.selectedIds]
        rfl
      · rw [hmore, totalSize_concat, ← ih.usedChars]
      · rw [List.map_append, List.map_singleton, List.append_assoc]
        have hswap : ([record.evidenceId] ++ (selectAll X input records).excludedIds).Perm
            ((selectAll X input records).excludedIds ++ [record.evidenceId]) :=
          List.perm_append_comm
        refine (hswap.append_left _).trans ?_
        rw [← List.append_assoc]
        exact ih.all.append_right _
    · have hsame : kept X input (records ++ [record]) = kept X input records :=
        hkept.trans (if_neg hroom)
      rw [selectTurn_excluded ih hroom]
      refine ⟨by rw [hsame]; exact ih.selected, by rw [hsame]; exact ih.selectedIds,
        by rw [hsame]; exact ih.usedChars, ?_⟩
      rw [List.map_append, List.map_singleton, ← List.append_assoc]
      exact ih.all.append_right _

/-! ## What is excluded -/

/-- Each record is noted once. -/
theorem nodup_noteExcluded {selectedIds : List String} (records : List EvidenceRecord)
    {excludedIds : List String} (h : (selectedIds ++ excludedIds).Nodup) :
    (selectedIds ++ records.foldl (noteExcluded selectedIds) excludedIds).Nodup := by
  induction records generalizing excludedIds with
  | nil => exact h
  | cons record records ih =>
    rw [List.foldl_cons]
    refine ih ?_
    unfold noteExcluded
    split
    next hnew =>
      rw [← List.append_assoc, ← List.concat_eq_append]
      refine h.concat ?_
      rw [List.mem_append, not_or]
      exact hnew
    · exact h

theorem mem_noteExcluded {selectedIds : List String} (records : List EvidenceRecord)
    (excludedIds : List String) (id : String) :
    id ∈ selectedIds ++ records.foldl (noteExcluded selectedIds) excludedIds ↔
      id ∈ selectedIds ++ excludedIds ∨ id ∈ records.map (·.evidenceId) := by
  induction records generalizing excludedIds with
  | nil => simp
  | cons record records ih =>
    rw [List.foldl_cons, ih, List.map_cons, List.mem_cons]
    unfold noteExcluded
    split
    next hnew =>
      rw [← List.append_assoc, List.mem_append, List.mem_singleton, or_assoc]
    next hold =>
      constructor
      · rintro (hid | hid)
        · exact .inl hid
        · exact .inr (.inr hid)
      · rintro (hid | rfl | hid)
        · exact .inl hid
        · rw [not_and_or, not_not, not_not] at hold
          exact .inl (List.mem_append.mpr hold)
        · exact .inr hid

/-! ## The ranking -/

theorem ranksBefore_total (a b : EvidenceRecord) :
    RanksBefore X input a b ∨ RanksBefore X input b a := by
  unfold RanksBefore
  rcases lt_trichotomy (score X input a) (score X input b) with hlt | heq | hgt
  · exact .inr (.inl hlt)
  · rcases X.localeLe_total a.evidenceId b.evidenceId with hle | hle
    · exact .inl (.inr ⟨heq, hle⟩)
    · exact .inr (.inr ⟨heq.symm, hle⟩)
  · exact .inl (.inl hgt)

theorem ranksBefore_trans (a b c : EvidenceRecord) (hab : RanksBefore X input a b)
    (hbc : RanksBefore X input b c) : RanksBefore X input a c := by
  unfold RanksBefore at *
  rcases hab with hab | ⟨hab, hle⟩
  · rcases hbc with hbc | ⟨hbc, -⟩
    · exact .inl (lt_trans hbc hab)
    · exact .inl (hbc ▸ hab)
  · rcases hbc with hbc | ⟨hbc, hle'⟩
    · exact .inl (hab ▸ hbc)
    · exact .inr ⟨hab.trans hbc, X.localeLe_trans _ _ _ hle hle'⟩

theorem mem_ranked {record : EvidenceRecord} :
    record ∈ ranked X input ↔ record ∈ input.evidence ∧ eligible X input record = true := by
  unfold ranked
  rw [List.mem_insertionSort, List.mem_filter]

/-- With distinct ids, no id comes twice in the ranking. -/
theorem nodup_ranked_ids (hdistinct : (input.evidence.map (·.evidenceId)).Nodup) :
    ((ranked X input).map (·.evidenceId)).Nodup := by
  have hperm : (ranked X input).Perm (input.evidence.filter (eligible X input)) :=
    List.perm_insertionSort _ _
  refine (hperm.map _).nodup_iff.mpr ?_
  exact hdistinct.sublist (List.filter_sublist.map _)

/-- The ids of the records that are selected are those of the loop. -/
theorem mem_selectedIds (hdistinct : (input.evidence.map (·.evidenceId)).Nodup)
    {record : EvidenceRecord} (hrecord : record ∈ ranked X input) :
    record.evidenceId ∈ (selectAll X input (ranked X input)).selectedIds ↔
      record ∈ kept X input (ranked X input) := by
  rw [(selected_by_greedy _).selectedIds, List.mem_map]
  constructor
  · rintro ⟨other, hother, hid⟩
    have hmem : other ∈ ranked X input := (greedy_sublist _).subset hother
    have heq : other = record :=
      List.inj_on_of_nodup_map (nodup_ranked_ids hdistinct) hmem hrecord hid
    exact heq ▸ hother
  · exact fun hkept => ⟨record, hkept, rfl⟩

/-! ## What is selected -/

/-- What a selection makes of the evidence. -/
structure IsSelection (X : ContextExternal) (input : ContextBudgetInput)
    (result : CompiledSelection) : Prop where
  own : ∀ e ∈ result.evidence, ∃ record ∈ input.evidence,
    eligible X input record = true ∧ e = excerpt X input record
  count : result.evidence.length ≤ input.config.maxEvidenceCount
  perItem : ∀ e ∈ result.evidence, e.content.length ≤ input.config.maxExcerptCharsPerItem
  used : totalSize (fun e : PlanningEvidenceExcerpt => e.content.length) result.evidence =
    result.selectedExcerptChars
  chars : result.selectedExcerptChars ≤ input.config.maxExcerptChars
  ids : result.selectedEvidenceIds.Perm (result.evidence.map (·.evidenceId))
  partition : (result.selectedEvidenceIds ++ result.excludedEvidenceIds).Perm
    (input.evidence.map (·.evidenceId))
  greedy : ∀ before record after, ranked X input = before ++ record :: after →
    (record.evidenceId ∈ result.selectedEvidenceIds ↔
      HasRoom X input (before.filter fun r => r.evidenceId ∈ result.selectedEvidenceIds) record)

/-- The result of a selection that does not throw. -/
def selectionResult (X : ContextExternal) (input : ContextBudgetInput) : CompiledSelection where
  evidence := (selectAll X input (ranked X input)).selected.insertionSort (ExcerptLe X)
  knownUnknowns := knownUnknowns input.index
  selectedEvidenceIds :=
    (selectAll X input (ranked X input)).selectedIds.insertionSort (LocaleLe X)
  excludedEvidenceIds :=
    (input.evidence.foldl (noteExcluded (selectAll X input (ranked X input)).selectedIds)
      (selectAll X input (ranked X input)).excludedIds).insertionSort (LocaleLe X)
  selectedExcerptChars := (selectAll X input (ranked X input)).usedChars
  selectedEvidenceCount := (selectAll X input (ranked X input)).selected.length

theorem compile_eq : compile X input =
    if (selectAll X input (ranked X input)).selected.length = 0 ∧ input.evidence.length > 0 ∧
        input.config.maxEvidenceCount > 0 then .error contextBudgetExceeded
    else .ok (selectionResult X input) := rfl

/-- Each piece of evidence is reported once, as selected or as excluded. -/
theorem partition_of_loop (hdistinct : (input.evidence.map (·.evidenceId)).Nodup) :
    ((selectAll X input (ranked X input)).selectedIds ++
      input.evidence.foldl (noteExcluded (selectAll X input (ranked X input)).selectedIds)
        (selectAll X input (ranked X input)).excludedIds).Perm
      (input.evidence.map (·.evidenceId)) := by
  have hloop : LoopState X input (ranked X input) _ := selected_by_greedy _
  have hall := hloop.all
  have hnodup := hall.nodup_iff.mpr (nodup_ranked_ids hdistinct)
  refine (List.perm_ext_iff_of_nodup (nodup_noteExcluded _ hnodup) hdistinct).mpr fun id => ?_
  rw [mem_noteExcluded]
  constructor
  · rintro (hid | hid)
    · obtain ⟨record, hrecord, rfl⟩ := List.mem_map.mp (hall.mem_iff.mp hid)
      exact List.mem_map_of_mem (mem_ranked.mp hrecord).1
    · exact hid
  · exact .inr

/-- The excerpts of the selected records, sorted. -/
theorem mem_evidence {e : PlanningEvidenceExcerpt} :
    e ∈ (selectionResult X input).evidence ↔
      ∃ record ∈ kept X input (ranked X input), excerpt X input record = e := by
  unfold selectionResult
  rw [List.mem_insertionSort, (selected_by_greedy _).selected, List.mem_map]

theorem isSelection (hdistinct : (input.evidence.map (·.evidenceId)).Nodup) :
    IsSelection X input (selectionResult X input) := by
  have hloop : LoopState X input (ranked X input) _ := selected_by_greedy _
  have hsorted : (selectionResult X input).evidence.Perm
      ((kept X input (ranked X input)).map (excerpt X input)) := by
    rw [← hloop.selected]
    exact List.perm_insertionSort _ _
  have hids : (selectionResult X input).selectedEvidenceIds.Perm
      (selectAll X input (ranked X input)).selectedIds := List.perm_insertionSort _ _
  have hexcluded : (selectionResult X input).excludedEvidenceIds.Perm _ :=
    List.perm_insertionSort _ _
  have hmem : ∀ record ∈ ranked X input,
      (record.evidenceId ∈ (selectionResult X input).selectedEvidenceIds ↔
        record ∈ kept X input (ranked X input)) := by
    intro record hrecord
    rw [hids.mem_iff]
    exact mem_selectedIds hdistinct hrecord
  refine ⟨?_, ?_, ?_, ?_, ?_, ?_, ?_, ?_⟩
  · intro e he
    obtain ⟨record, hkept, rfl⟩ := mem_evidence.mp he
    have hranked := mem_ranked.mp ((greedy_sublist _).subset hkept)
    exact ⟨record, hranked.1, hranked.2, rfl⟩
  · rw [hsorted.length_eq, List.length_map]
    exact length_greedy_le _
  · intro e he
    obtain ⟨record, -, rfl⟩ := mem_evidence.mp he
    exact List.length_take_le _ _
  · rw [totalSize_perm hsorted]
    change _ = (selectAll X input (ranked X input)).usedChars
    rw [hloop.usedChars]
    unfold totalSize
    rw [List.map_map]
    rfl
  · change (selectAll X input (ranked X input)).usedChars ≤ _
    rw [hloop.usedChars]
    exact totalSize_greedy_le _
  · refine hids.trans ?_
    rw [hloop.selectedIds]
    refine List.Perm.trans ?_ (hsorted.map _).symm
    rw [List.map_map]
    exact List.Perm.refl _
  · exact (hids.append hexcluded).trans (partition_of_loop hdistinct)
  · -- what is selected of the better ranked is what the loop had selected when it came to `record`
    intro before record after hranked
    have hnodup : (before ++ record :: after).Nodup := by
      rw [← hranked]
      exact (nodup_ranked_ids hdistinct).of_map _
    have hbefore : before.filter
        (fun r => r.evidenceId ∈ (selectionResult X input).selectedEvidenceIds) =
          kept X input before := by
      refine Eq.trans ?_ (filter_greedy hnodup)
      refine List.filter_congr fun r hr => ?_
      have hr' : r ∈ ranked X input := by
        rw [hranked]
        exact List.mem_append_left _ hr
      rw [decide_eq_decide, hmem r hr', hranked]
      rfl
    have hrecord : record ∈ ranked X input := by
      rw [hranked]
      exact List.mem_append_right _ List.mem_cons_self
    rw [hbefore, hmem record hrecord, hranked]
    exact mem_greedy_iff hnodup

/-- The loop selects nothing exactly when it may not or no excerpt fits by itself. -/
theorem selectAll_nil_iff :
    (selectAll X input (ranked X input)).selected.length = 0 ↔
      input.config.maxEvidenceCount = 0 ∨
      ∀ record ∈ input.evidence, eligible X input record = true →
        input.config.maxExcerptChars < excerptChars X input record := by
  rw [(selected_by_greedy _).selected, List.length_map, List.length_eq_zero_iff]
  unfold kept
  rw [greedy_eq_nil_iff]
  simp only [mem_ranked, and_imp]

/-- A selection throws exactly where there is evidence, the budget allows for some, and no
excerpt that may be used fits by itself. Otherwise it selects excerpts of this run's own evidence
within the budget, it reports each piece of evidence once, as selected or as excluded, and it
excludes a piece that may be used only when there is no room next to what is ranked above it. -/
theorem contextSelection_exact (X : ContextExternal) (input : ContextBudgetInput)
    (hdistinct : (input.evidence.map (·.evidenceId)).Nodup) :
    (compile X input = .error contextBudgetExceeded ↔
      input.evidence ≠ [] ∧ 0 < input.config.maxEvidenceCount ∧
      ∀ record ∈ input.evidence, eligible X input record = true →
        input.config.maxExcerptChars < excerptChars X input record) ∧
    (compile X input ≠ .error contextBudgetExceeded →
      ∃ result, compile X input = .ok result ∧ IsSelection X input result) := by
  rw [compile_eq]
  split
  next hthrows =>
    obtain ⟨hnone, hevidence, hcount⟩ := hthrows
    refine ⟨⟨fun _ => ⟨List.length_pos_iff.mp hevidence, hcount, ?_⟩, fun _ => rfl⟩,
      fun h => absurd rfl h⟩
    rcases selectAll_nil_iff.mp hnone with hzero | hall
    · omega
    · exact hall
  next hreturns =>
    refine ⟨⟨?_, fun h => absurd ?_ hreturns⟩, fun _ => ⟨_, rfl, isSelection hdistinct⟩⟩
    · intro h
      cases h
    · exact ⟨selectAll_nil_iff.mpr (.inr h.2.2), List.length_pos_iff.mpr h.1, h.2.1⟩

/-! ## Two files and room for one -/

private theorem contextLe_total (a b : String) :
    decide (UpTo a b) = true ∨ decide (UpTo b a) = true := by
  simp only [decide_eq_true_eq]
  exact Std.Total.total _ _

private theorem contextLe_trans (a b c : String) :
    decide (UpTo a b) = true → decide (UpTo b c) = true → decide (UpTo a c) = true := by
  simp only [decide_eq_true_eq]
  exact IsTrans.trans _ _ _

/-- Lower-case texts without secrets, in the order of their code units. -/
private def plainContext : ContextExternal where
  toLowerCase := id
  localeLe := fun a b => decide (UpTo a b)
  localeLe_total := contextLe_total
  localeLe_trans := contextLe_trans
  redactSecrets := id

private def evidenceAt (evidenceId path : String) : EvidenceRecord :=
  ⟨evidenceId, "FILE", some path, none, "h", .localVerified, "text", some "run", none, none⟩

private def twoFiles : ContextBudgetInput where
  runId := "run"
  projectId := "p"
  liveCommitSha := "c"
  requestedOutcome := "parser"
  acceptanceCriteria := []
  constraints := []
  index := ⟨[], [], [], [], [], [], []⟩
  evidence := [evidenceAt "e1" "a.md", evidenceAt "e2" "parser.ts"]
  contentByEvidenceId := JsMap.empty
  budget := some ⟨1, 10, 4⟩

theorem contextSelection_exact_two_files :
    ∃ result, compile plainContext twoFiles = .ok result ∧
      IsSelection plainContext twoFiles result := by
  refine (contextSelection_exact plainContext twoFiles (by decide)).2 fun hthrows => ?_
  have hfull := (contextSelection_exact plainContext twoFiles (by decide)).1.mp hthrows
  have hlarge := hfull.2.2 (evidenceAt "e2" "parser.ts") (by decide) (by decide)
  exact absurd hlarge (by decide)

/-! ## The order of the evidence -/

/-- The same input with the evidence in another order. -/
def ContextBudgetInput.reordered (input : ContextBudgetInput) (evidence : List EvidenceRecord) :
    ContextBudgetInput := { input with evidence := evidence }

theorem ranked_perm {evidence : List EvidenceRecord} (hperm : input.evidence.Perm evidence)
    (hties : ∀ a ∈ input.evidence, ∀ b ∈ input.evidence,
      Tied (LocaleLe X) a.evidenceId b.evidenceId → a = b) :
    ranked X (ContextBudgetInput.reordered input evidence) = ranked X input := by
  unfold ranked
  refine (insertionSort_eq_of_perm ranksBefore_total ranksBefore_trans (hperm.filter _) ?_).symm
  rintro a ha b hb ⟨hab, hba⟩
  have hle : LocaleLe X a.evidenceId b.evidenceId ∧ LocaleLe X b.evidenceId a.evidenceId := by
    rcases hab with hlt | ⟨heq, hle⟩
    · rcases hba with hlt' | ⟨heq', -⟩
      · exact absurd hlt (lt_asymm hlt')
      · exact absurd heq' (Nat.ne_of_lt hlt)
    · rcases hba with hlt' | ⟨-, hle'⟩
      · exact absurd heq (Nat.ne_of_lt hlt')
      · exact ⟨hle, hle'⟩
  exact hties a (List.mem_filter.mp ha).1 b (List.mem_filter.mp hb).1 hle

/-- Where the collation tells the ids of the evidence apart, the order of the evidence has no
part in what is selected, in what is excluded, or in whether the selection throws. -/
theorem contextSelection_orderFree (X : ContextExternal) (input : ContextBudgetInput)
    (evidence : List EvidenceRecord) (hperm : input.evidence.Perm evidence)
    (hdistinct : (input.evidence.map (·.evidenceId)).Nodup)
    (hties : ∀ a ∈ input.evidence, ∀ b ∈ input.evidence,
      Tied (LocaleLe X) a.evidenceId b.evidenceId → a = b) :
    compile X (ContextBudgetInput.reordered input evidence) = compile X input := by
  have hranked := ranked_perm hperm hties
  have hdistinct' : ((ContextBudgetInput.reordered input evidence).evidence.map
      (·.evidenceId)).Nodup := (hperm.map _).nodup_iff.mp hdistinct
  have hloop : selectAll X (ContextBudgetInput.reordered input evidence)
      (ranked X (ContextBudgetInput.reordered input evidence)) =
        selectAll X input (ranked X input) := by
    rw [hranked]
    rfl
  have hexcluded :
      (selectionResult X (ContextBudgetInput.reordered input evidence)).excludedEvidenceIds =
        (selectionResult X input).excludedEvidenceIds := by
    -- only the last pass sees the order of the evidence, and what it notes is sorted afterwards
    have hpartition := (partition_of_loop (X := X) hdistinct).trans
      ((hperm.map _).trans (partition_of_loop (X := X) hdistinct').symm)
    rw [hloop] at hpartition
    have hsame := (List.perm_append_left_iff _).mp hpartition
    unfold selectionResult
    rw [hloop]
    refine (insertionSort_eq_of_perm X.localeLe_total X.localeLe_trans hsame ?_).symm
    intro a ha b hb htied
    have hid : ∀ c ∈ input.evidence.foldl
        (noteExcluded (selectAll X input (ranked X input)).selectedIds)
        (selectAll X input (ranked X input)).excludedIds,
        ∃ record ∈ input.evidence, record.evidenceId = c := by
      intro c hc
      exact List.mem_map.mp ((partition_of_loop hdistinct).mem_iff.mp (List.mem_append_right _ hc))
    obtain ⟨record, hrecord, rfl⟩ := hid a ha
    obtain ⟨other, hother, rfl⟩ := hid b hb
    rw [hties record hrecord other hother htied]
  have hresult : selectionResult X (ContextBudgetInput.reordered input evidence) =
      selectionResult X input := by
    unfold selectionResult at hexcluded ⊢
    rw [hloop] at hexcluded ⊢
    simp only at hexcluded
    rw [hexcluded]
    rfl
  have hlength : (ContextBudgetInput.reordered input evidence).evidence.length =
      input.evidence.length := hperm.length_eq.symm
  rw [compile_eq, compile_eq, hresult]
  simp only [hloop, hlength]
  rfl

theorem contextSelection_orderFree_two_files :
    compile plainContext (ContextBudgetInput.reordered twoFiles
      [evidenceAt "e2" "parser.ts", evidenceAt "e1" "a.md"]) = compile plainContext twoFiles := by
  refine contextSelection_orderFree plainContext twoFiles _ (List.Perm.swap _ _ _) (by decide) ?_
  rintro a ha b hb ⟨hab, hba⟩
  have hid : a.evidenceId = b.evidenceId :=
    UpTo.antisymm (of_decide_eq_true hab) (of_decide_eq_true hba)
  exact List.inj_on_of_nodup_map (f := EvidenceRecord.evidenceId) (by decide) ha hb hid

end ContextBudgetController

end Orchestrator
