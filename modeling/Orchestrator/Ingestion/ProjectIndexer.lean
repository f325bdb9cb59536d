import Orchestrator.Collections.Json
import Orchestrator.Collections.JsValue
import Orchestrator.Collections.StableSort

/-!
# The project index

`DeterministicProjectIndexer.index`: the files of a workspace, less those that are generated, become
the entries of a manifest, sorted by path with `localeCompare`, and the manifest has a digest that
goes into the fingerprint of the repository.

* `posixRelative`, `classify`: what is made of a path;
* `entries`, `manifestHash`, `fingerprint`: the manifest and the digests;
* `Faithful`: the manifest is complete, in every order of the files the same, and tells every
  change of a file;
* `manifest_faithful_iff`: it is faithful exactly if no path has two dots next to each other and no
  two paths, once normalized, collate alike.
-/

namespace Orchestrator

open Collections

/-- What the index takes from the language and its libraries. -/
structure IndexExternal where
  /-- `text.toLowerCase()`. -/
  toLowerCase : String → String
  /-- `a.localeCompare(b) <= 0`. -/
  localeLe : String → String → Bool
  localeLe_total : ∀ a b, localeLe a b ∨ localeLe b a
  localeLe_trans : ∀ a b c, localeLe a b → localeLe b c → localeLe a c
  /-- The hex SHA-256 digest of a buffer. -/
  sha256 : ByteArray → String

inductive FileClassification where
  | source
  | test
  | documentation
  | config
  | dependencyManifest
  | lockfile
  | generated
  | binary
  | other
  deriving DecidableEq, Repr

/-- The classification's name in the source. -/
def FileClassification.text : FileClassification → String
  | .source => "SOURCE"
  | .test => "TEST"
  | .documentation => "DOCUMENTATION"
  | .config => "CONFIG"
  | .dependencyManifest => "DEPENDENCY_MANIFEST"
  | .lockfile => "LOCKFILE"
  | .generated => "GENERATED"
  | .binary => "BINARY"
  | .other => "OTHER"

/-- A file that is handed to the indexer. -/
structure WorkspaceFile where
  relativePath : String
  content : ByteArray

instance : DecidableEq WorkspaceFile := fun a b =>
  decidable_of_iff (a.relativePath = b.relativePath ∧ a.content.data = b.content.data) (by
    obtain ⟨path, content⟩ := a
    obtain ⟨path', content'⟩ := b
    rw [WorkspaceFile.mk.injEq, ByteArray.ext_iff])

structure FileManifestEntry where
  relativePath : String
  contentHash : String
  size : ℕ
  classification : FileClassification
  extension : String
  language : Option String
  generated : Bool
  binary : Bool
  deriving DecidableEq

namespace ProjectIndexer

/-! ## Paths -/

/-- `posixRelative`. -/
def posixRelative (path : String) : String :=
  let slashed := path.toList.map fun c => if c = '\\' then '/' else c
  String.ofList (match slashed with
    | '.' :: '/' :: rest => rest.dropWhile (· = '/')
    | _ => slashed)

/-- `text.includes(part)`. -/
def includes (text part : String) : Bool := decide (part.toList <:+: text.toList)

def startsWith (text part : String) : Bool := decide (part.toList <+: text.toList)

def endsWith (text part : String) : Bool := decide (part.toList <:+ text.toList)

/-- `GENERATED_PATH_EXCLUSIONS`, each less its final slash. -/
def generatedDirectories : List String := [".git", "coverage", "dist", "node_modules"]

def isGeneratedPath (path : String) : Bool :=
  generatedDirectories.any fun directory =>
    decide (path = directory) || startsWith path (directory ++ "/")

/-- `path.split("/").pop()`. -/
def baseName (path : String) : List Char := (path.toList.reverse.takeWhile (· ≠ '/')).reverse

variable (X : IndexExternal)

def extensionOf (path : String) : String :=
  match (baseName path).reverse.dropWhile (· ≠ '.') with
  | '.' :: _ :: _ =>
    X.toLowerCase
      (String.ofList ('.' :: ((baseName path).reverse.takeWhile (· ≠ '.')).reverse))
  | _ => ""

def isBinary (content : ByteArray) (extension : String) : Bool :=
  decide (extension ∈ [".png", ".jpg", ".jpeg", ".gif", ".woff", ".zip"]) ||
    (content.data.toList.take 8000).contains 0

/-- `/\.(test|spec)\.[a-z]+$/i.test(path)`. -/
def isTestName (path : String) : Bool :=
  let letters := path.toList.reverse.takeWhile Char.isAlpha
  match path.toList.reverse.dropWhile Char.isAlpha with
  | '.' :: a :: b :: c :: d :: '.' :: _ =>
    letters ≠ [] && ([d, c, b, a].map Char.toLower = ['t', 'e', 's', 't'] ||
      [d, c, b, a].map Char.toLower = ['s', 'p', 'e', 'c'])
  | _ => false

/-- `SOURCE_LANG`. -/
def sourceLanguage : String → Option String
  | ".ts" => some "typescript"
  | ".js" => some "javascript"
  | ".mjs" => some "javascript"
  | ".py" => some "python"
  | ".rs" => some "rust"
  | ".go" => some "go"
  | _ => none

def classify (path : String) (binary generated : Bool) : FileClassification :=
  let base := String.ofList (baseName path)
  if generated then .generated
  else if binary then .binary
  else if base ∈ ["Cargo.lock", "go.sum", "package-lock.json", "pnpm-lock.yaml", "yarn.lock"] then
    .lockfile
  else if base ∈ ["Cargo.toml", "go.mod", "package.json", "pyproject.toml", "requirements.txt"] then
    .dependencyManifest
  else if base ∈ [".gitignore", "eslint.config.js", "tsconfig.json", "vitest.config.ts"] ||
      endsWith path ".config.ts" then .config
  else if includes path "/test/" || includes path "/tests/" || isTestName path then .test
  else if endsWith path ".md" || startsWith path "docs/" then .documentation
  else if endsWith path ".d.ts" || includes path "/api/" then .source
  -- `SOURCE_LANGUAGE_EXTENSIONS` are the keys of `SOURCE_LANG`
  else if (sourceLanguage (extensionOf X path)).isSome then .source
  else .other

/-! ## The manifest -/

/-- The entry of a file that is not generated. -/
def entryOf (file : WorkspaceFile) : FileManifestEntry :=
  let relativePath := posixRelative file.relativePath
  let extension := extensionOf X relativePath
  let binary := isBinary file.content extension
  { relativePath := relativePath
    contentHash := X.sha256 file.content
    size := file.content.size
    classification := classify X relativePath binary false
    extension := extension
    language := sourceLanguage extension
    generated := false
    binary := binary }

/-- The file is not passed over by the first check of the loop. -/
def Included (file : WorkspaceFile) : Prop :=
  posixRelative file.relativePath ≠ "" ∧ includes (posixRelative file.relativePath) ".." = false

/-- The file is under a generated path. -/
def Generated (file : WorkspaceFile) : Prop := isGeneratedPath (posixRelative file.relativePath)

instance : DecidablePred Included := fun file =>
  inferInstanceAs (Decidable (posixRelative file.relativePath ≠ "" ∧
    includes (posixRelative file.relativePath) ".." = false))

instance : DecidablePred Generated := fun file =>
  inferInstanceAs (Decidable (isGeneratedPath (posixRelative file.relativePath) = true))

/-- The files that get an entry. -/
def kept (files : List WorkspaceFile) : List WorkspaceFile :=
  files.filter fun file => Included file ∧ ¬Generated file

def entries (files : List WorkspaceFile) : List FileManifestEntry :=
  ((kept files).map (entryOf X)).insertionSort fun a b =>
    X.localeLe a.relativePath b.relativePath = true

def generatedExclusions (files : List WorkspaceFile) : List String :=
  ((files.filter fun file => Included file ∧ Generated file).map
    fun file => posixRelative file.relativePath).insertionSort fun a b => X.localeLe a b = true

/-- The fields of an entry that are digested, as `canonicalizeValue` orders them. -/
def entryTree (entry : FileManifestEntry) : JsonTree :=
  .object [
    ("classification", .string entry.classification.text),
    ("contentHash", .string entry.contentHash),
    ("relativePath", .string entry.relativePath),
    ("size", .atom (Json.digitsAtom entry.size))]

/-- `hashCanonical`, of a value whose canonical form is the tree. -/
def hashCanonical (value : JsonTree) : String := X.sha256 (String.ofList value.text).toUTF8

def manifestHash (files : List WorkspaceFile) : String :=
  hashCanonical X (.array ((entries X files).map entryTree))

/-! ## The index -/

structure ProjectIndex where
  entries : List FileManifestEntry
  manifestHash : String
  sourceEntryPoints : List String
  dependencyManifests : List String
  lockfiles : List String
  configurationFiles : List String
  testFiles : List String
  documentationFiles : List String
  interfaceDefinitions : List String
  generatedExclusions : List String

/-- `DeterministicProjectIndexer.index`. -/
def index (files : List WorkspaceFile) : ProjectIndex :=
  let pathsWhere (p : FileManifestEntry → Bool) : List String :=
    ((entries X files).filter p).map (·.relativePath)
  let paths (classification : FileClassification) : List String :=
    pathsWhere fun entry => entry.classification = classification
  { entries := entries X files
    manifestHash := manifestHash X files
    sourceEntryPoints := pathsWhere fun entry =>
      entry.relativePath ∈ ["src/index.ts", "src/main.ts", "index.ts"]
    dependencyManifests := paths .dependencyManifest
    lockfiles := paths .lockfile
    configurationFiles := paths .config
    testFiles := paths .test
    documentationFiles := paths .documentation
    interfaceDefinitions := pathsWhere fun entry =>
      endsWith entry.relativePath ".d.ts" || startsWith entry.relativePath "src/api/"
    generatedExclusions := generatedExclusions X files }

/-! ## The fingerprint of the repository -/

/-- An element of `lockfileHashes` or `configHashes`. -/
structure PathHash where
  path : String
  hash : String
  deriving DecidableEq, Repr

structure RepositoryFingerprintInput where
  commitSha : String
  lockfileHashes : List PathHash
  configHashes : List PathHash
  manifestHash : String

/-- Hashes sorted by path, each with its keys in order. -/
def pathHashTree (hashes : List PathHash) : JsonTree :=
  .array ((hashes.insertionSort fun a b => X.localeLe a.path b.path = true).map fun h =>
    .object [("hash", .string h.hash), ("path", .string h.path)])

/-- `DeterministicRepositoryFingerprintService.fingerprint`. -/
def fingerprint (input : RepositoryFingerprintInput) : String :=
  hashCanonical X (.object [
    ("commitSha", .string (X.toLowerCase input.commitSha)),
    ("configHashes", pathHashTree X input.configHashes),
    ("lockfileHashes", pathHashTree X input.lockfileHashes),
    ("manifestHash", .string input.manifestHash)])

/-! ## What the digests tell -/

variable {X} {files files' : List WorkspaceFile} {file file' : WorkspaceFile}

/-- `a.relativePath.localeCompare(b.relativePath) <= 0`, for the paths of two files. -/
def PathUpTo (X : IndexExternal) (file file' : WorkspaceFile) : Prop :=
  X.localeLe (posixRelative file.relativePath) (posixRelative file'.relativePath) = true

instance (X : IndexExternal) : DecidableRel (PathUpTo X) := fun file file' =>
  inferInstanceAs (Decidable (X.localeLe (posixRelative file.relativePath)
    (posixRelative file'.relativePath) = true))

theorem pathUpTo_total (file file' : WorkspaceFile) :
    PathUpTo X file file' ∨ PathUpTo X file' file := X.localeLe_total _ _

theorem pathUpTo_trans (file₁ file₂ file₃ : WorkspaceFile) (h : PathUpTo X file₁ file₂)
    (h' : PathUpTo X file₂ file₃) : PathUpTo X file₁ file₃ := X.localeLe_trans _ _ _ h h'

theorem hashCanonical_inj (hX : Function.Injective X.sha256) {value value' : JsonTree}
    (h : hashCanonical X value = hashCanonical X value') : value = value' :=
  JsonTree.text_inj (String.ofList_injective (String.toByteArray_inj.mp (hX h)))

/-- The entries are the files that get one, sorted by path. -/
theorem entries_eq (files : List WorkspaceFile) :
    entries X files = ((kept files).insertionSort (PathUpTo X)).map (entryOf X) :=
  (List.map_insertionSort (PathUpTo X) _ (entryOf X) (kept files) fun _ _ _ _ => Iff.rfl).symm

/-- Files whose entries are digested alike have the same path and the same content. -/
theorem entryTree_inj (hX : Function.Injective X.sha256)
    (h : entryTree (entryOf X file) = entryTree (entryOf X file')) :
    posixRelative file.relativePath = posixRelative file'.relativePath ∧
      file.content = file'.content := by
  simp only [entryTree, JsonTree.object.injEq, List.cons.injEq, Prod.mk.injEq,
    JsonTree.string.injEq, true_and, and_true] at h
  exact ⟨h.2.2.1, hX h.2.1⟩

/-- Equal digests of two manifests come from the same sorted list of digested entries. -/
theorem manifestHash_eq_iff (hX : Function.Injective X.sha256) :
    manifestHash X files = manifestHash X files' ↔
      ((kept files).insertionSort (PathUpTo X)).map (fun file => entryTree (entryOf X file)) =
        ((kept files').insertionSort (PathUpTo X)).map fun file => entryTree (entryOf X file) := by
  have htrees : ∀ files : List WorkspaceFile, (entries X files).map entryTree =
      ((kept files).insertionSort (PathUpTo X)).map fun file => entryTree (entryOf X file) := by
    intro files
    rw [entries_eq, List.map_map]
    rfl
  rw [manifestHash, manifestHash, htrees, htrees]
  constructor
  · intro h
    exact JsonTree.array.inj (hashCanonical_inj hX h)
  · intro h
    rw [h]

/-! ## When the manifest is faithful -/

/-- The workspace has a file with this path and content that is not generated. -/
def Has (files : List WorkspaceFile) (path : String) (content : ByteArray) : Prop :=
  ∃ file ∈ files, ¬Generated file ∧ posixRelative file.relativePath = path ∧
    file.content = content

/-- Each file that is not generated has one entry under its path, and that is its own. -/
def Complete (X : IndexExternal) (files : List WorkspaceFile) : Prop :=
  ∀ file ∈ files, ¬Generated file →
    (entries X files).filter (·.relativePath = posixRelative file.relativePath) = [entryOf X file]

/-- The digest of the manifest is the same in every order of the files. -/
def OrderFree (X : IndexExternal) (files : List WorkspaceFile) : Prop :=
  ∀ reordered, files.Perm reordered → manifestHash X reordered = manifestHash X files

/-- The manifests of two workspaces are complete and in every order the same, and neither their
digests nor the fingerprints of the repositories are equal unless the files are. -/
structure Faithful (X : IndexExternal) (files files' : List WorkspaceFile) : Prop where
  complete : Complete X files ∧ Complete X files'
  orderFree : OrderFree X files ∧ OrderFree X files'
  sensitive : manifestHash X files = manifestHash X files' →
    ∀ path content, Has files path content ↔ Has files' path content
  fingerprint : ∀ input input' : RepositoryFingerprintInput,
    input.manifestHash = manifestHash X files → input'.manifestHash = manifestHash X files' →
    fingerprint X input = fingerprint X input' →
    ∀ path content, Has files path content ↔ Has files' path content

/-- Every path that is not generated names something and has no two dots next to each other, and no
two of them collate alike. -/
structure Indexable (X : IndexExternal) (files : List WorkspaceFile) : Prop where
  included : ∀ file ∈ files, ¬Generated file → Included file
  apart : ∀ file ∈ files, ∀ file' ∈ files, ¬Generated file → ¬Generated file' →
    PathUpTo X file file' → PathUpTo X file' file → file.relativePath = file'.relativePath

theorem mem_kept : file ∈ kept files ↔ file ∈ files ∧ Included file ∧ ¬Generated file := by
  rw [kept, List.mem_filter, decide_eq_true_eq]

/-- The entries under a path are those of the files with the path. -/
theorem entries_filter_perm (files : List WorkspaceFile) (path : String) :
    ((entries X files).filter (·.relativePath = path)).Perm
      (((kept files).filter fun file => posixRelative file.relativePath = path).map
        (entryOf X)) := by
  have hperm := (List.perm_insertionSort (fun a b : FileManifestEntry =>
    X.localeLe a.relativePath b.relativePath = true) ((kept files).map (entryOf X))).filter
      (·.relativePath = path)
  rw [List.filter_map] at hperm
  exact hperm

theorem tied_of_eq (h : posixRelative file.relativePath = posixRelative file'.relativePath) :
    PathUpTo X file file' ∧ PathUpTo X file' file := by
  have hself : X.localeLe (posixRelative file'.relativePath) (posixRelative file'.relativePath) =
      true := (X.localeLe_total _ _).elim id id
  rw [PathUpTo, PathUpTo, h]
  exact ⟨hself, hself⟩

theorem eq_of_map_eq {α β : Type} {f : α → β} {xs ys : List α} (h : xs.map f = ys.map f)
    (hinj : ∀ x ∈ xs, ∀ y ∈ ys, f x = f y → x = y) : xs = ys := by
  induction xs generalizing ys with
  | nil => exact (List.map_eq_nil_iff.mp h.symm).symm
  | cons x xs ih =>
    cases ys with
    | nil => exact absurd h (List.cons_ne_nil _ _)
    | cons y ys =>
      rw [List.map_cons, List.map_cons, List.cons.injEq] at h
      rw [hinj x (.head _) y (.head _) h.1,
        ih h.2 fun a ha b hb => hinj a (.tail _ ha) b (.tail _ hb)]

section Paths

variable (hpaths : (files.map (·.relativePath)).Nodup)

include hpaths

theorem complete_of_indexable (h : Indexable X files) : Complete X files := by
  intro file hfile hgenerated
  have hperm := entries_filter_perm (X := X) files (posixRelative file.relativePath)
  have hkept : file ∈ kept files :=
    mem_kept.mpr ⟨hfile, h.included file hfile hgenerated, hgenerated⟩
  have hsingle : ((kept files).filter fun file' =>
      posixRelative file'.relativePath = posixRelative file.relativePath).Perm [file] := by
    have hnodup : (kept files).Nodup := (List.Nodup.of_map _ hpaths).filter _
    rw [List.perm_ext_iff_of_nodup (hnodup.filter _) (List.nodup_singleton _)]
    intro file'
    rw [List.mem_filter, decide_eq_true_eq, List.mem_singleton]
    constructor
    · rintro ⟨hfile', hsame⟩
      obtain ⟨hin, -, hgenerated'⟩ := mem_kept.mp hfile'
      obtain ⟨hle, hle'⟩ := tied_of_eq (X := X) hsame
      exact List.inj_on_of_nodup_map hpaths hin hfile
        (h.apart file' hin file hfile hgenerated' hgenerated hle hle')
    · rintro rfl
      exact ⟨hkept, rfl⟩
  exact List.perm_singleton.mp (hperm.trans (hsingle.map _))

omit hpaths in
/-- What a complete manifest says about the paths. -/
theorem complete_included (h : Complete X files) (hfile : file ∈ files)
    (hgenerated : ¬Generated file) : Included file ∧ ∀ file' ∈ kept files,
      posixRelative file'.relativePath = posixRelative file.relativePath → file' = file := by
  have hperm := entries_filter_perm (X := X) files (posixRelative file.relativePath)
  rw [h file hfile hgenerated] at hperm
  have hmap := List.perm_singleton.mp hperm.symm
  obtain ⟨only, honly⟩ := List.length_eq_one_iff.mp ((List.length_map (entryOf X)).symm.trans
    (congrArg List.length hmap))
  have hmem : only ∈ (kept files).filter fun file' =>
      posixRelative file'.relativePath = posixRelative file.relativePath := by
    rw [honly]
    exact List.mem_singleton_self only
  rw [List.mem_filter, decide_eq_true_eq] at hmem
  have hincluded : Included file := by
    have hin := (mem_kept.mp hmem.1).2.1
    rw [Included, hmem.2] at hin
    exact hin
  have hkept : file ∈ kept files := mem_kept.mpr ⟨hfile, hincluded, hgenerated⟩
  have honlyOne : ∀ file' ∈ kept files,
      posixRelative file'.relativePath = posixRelative file.relativePath → file' = only := by
    intro file' hfile' hsame
    have hin : file' ∈ (kept files).filter fun file' =>
        posixRelative file'.relativePath = posixRelative file.relativePath :=
      List.mem_filter.mpr ⟨hfile', decide_eq_true hsame⟩
    rw [honly] at hin
    exact List.mem_singleton.mp hin
  refine ⟨hincluded, fun file' hfile' hsame => ?_⟩
  rw [honlyOne file' hfile' hsame, honlyOne file hkept rfl]

/-- Where no two paths collate alike, the order of the files does not matter. -/
theorem orderFree_of_indexable (h : Indexable X files) : OrderFree X files := by
  intro reordered hperm
  have hsorted : (kept reordered).insertionSort (PathUpTo X) =
      (kept files).insertionSort (PathUpTo X) := by
    refine (insertionSort_eq_of_perm pathUpTo_total pathUpTo_trans (hperm.filter _) ?_).symm
    intro file hfile file' hfile' htied
    obtain ⟨hin, -, hgenerated⟩ := mem_kept.mp hfile
    obtain ⟨hin', -, hgenerated'⟩ := mem_kept.mp hfile'
    exact List.inj_on_of_nodup_map hpaths hin hin'
      (h.apart file hin file' hin' hgenerated hgenerated' htied.1 htied.2)
  rw [manifestHash, manifestHash, entries_eq, entries_eq, hsorted]

omit hpaths in
/-- Two paths that collate alike: some order of the files has another digest. -/
theorem apart_of_orderFree (hX : Function.Injective X.sha256) (hcomplete : Complete X files)
    (horder : OrderFree X files) (hfile : file ∈ files) (hfile' : file' ∈ files)
    (hgenerated : ¬Generated file) (hgenerated' : ¬Generated file')
    (hle : PathUpTo X file file') (hle' : PathUpTo X file' file) : file = file' := by
  by_contra hne
  obtain ⟨hincluded, -⟩ := complete_included hcomplete hfile hgenerated
  obtain ⟨hincluded', honly⟩ := complete_included hcomplete hfile' hgenerated'
  have hkept : file ∈ kept files := mem_kept.mpr ⟨hfile, hincluded, hgenerated⟩
  obtain ⟨first, hfirst, hchanged⟩ := exists_first_ne pathUpTo_total pathUpTo_trans hkept
    ⟨hle, hle'⟩ hne
  have hin : first ∈ files ∧ Included first ∧ ¬Generated first := by
    rcases hfirst with hfirst | hfirst
    · rw [hfirst]
      exact ⟨hfile, hincluded, hgenerated⟩
    · rw [hfirst]
      exact ⟨hfile', hincluded', hgenerated'⟩
  have hperm := List.perm_cons_erase hin.1
  have hkeptFront : kept (first :: files.erase first) = first :: kept (files.erase first) :=
    List.filter_cons_of_pos (decide_eq_true hin.2)
  have hfront := (manifestHash_eq_iff hX).mp (horder _ hperm)
  rw [hkeptFront] at hfront
  refine hchanged (kept (files.erase first)) (eq_of_map_eq hfront fun a ha b hb htree => ?_)
  rw [List.mem_insertionSort, ← hkeptFront] at ha
  rw [List.mem_insertionSort] at hb
  obtain ⟨hbin, -, hbgenerated⟩ := mem_kept.mp hb
  exact (complete_included hcomplete hbin hbgenerated).2 a
    ((hperm.filter _).mem_iff.mpr ha) (entryTree_inj hX htree).1

omit hpaths in
/-- Workspaces with complete manifests of the same digest have the same files. -/
theorem has_of_manifestHash (hX : Function.Injective X.sha256) (hcomplete : Complete X files)
    (h : manifestHash X files = manifestHash X files') {path : String} {content : ByteArray}
    (hhas : Has files path content) : Has files' path content := by
  obtain ⟨file, hfile, hgenerated, rfl, rfl⟩ := hhas
  have hkept : file ∈ kept files :=
    mem_kept.mpr ⟨hfile, (complete_included hcomplete hfile hgenerated).1, hgenerated⟩
  have hmem : entryTree (entryOf X file) ∈ ((kept files).insertionSort (PathUpTo X)).map
      fun file => entryTree (entryOf X file) :=
    List.mem_map_of_mem ((List.mem_insertionSort _).mpr hkept)
  rw [(manifestHash_eq_iff hX).mp h] at hmem
  obtain ⟨file', hfile', htree⟩ := List.mem_map.mp hmem
  obtain ⟨hin, -, hgenerated'⟩ := mem_kept.mp ((List.mem_insertionSort _).mp hfile')
  obtain ⟨hpath, hcontent⟩ := entryTree_inj hX htree
  exact ⟨file', hin, hgenerated', hpath, hcontent⟩

omit hpaths in
/-- Equal fingerprints are those of manifests with equal digests. -/
theorem manifestHash_of_fingerprint (hX : Function.Injective X.sha256)
    {input input' : RepositoryFingerprintInput} (h : fingerprint X input = fingerprint X input') :
    input.manifestHash = input'.manifestHash := by
  have htree := hashCanonical_inj hX h
  simp only [JsonTree.object.injEq, List.cons.injEq, Prod.mk.injEq, JsonTree.string.injEq,
    true_and, and_true] at htree
  exact htree.2.2.2

omit hpaths in
/-- Of two workspaces of files with different paths, the manifests are faithful if and only if the
paths that are not generated name something, have no two dots next to each other, and are, once
normalized, told apart by the collation. -/
theorem manifest_faithful_iff (X : IndexExternal) (files files' : List WorkspaceFile)
    (hX : Function.Injective X.sha256) (hpaths : (files.map (·.relativePath)).Nodup)
    (hpaths' : (files'.map (·.relativePath)).Nodup) :
    Faithful X files files' ↔ Indexable X files ∧ Indexable X files' := by
  have hindexable : ∀ {files}, (files.map (·.relativePath)).Nodup →
      (Complete X files ∧ OrderFree X files ↔ Indexable X files) := by
    intro files hpaths
    constructor
    · rintro ⟨hcomplete, horder⟩
      refine ⟨fun file hfile hgenerated => (complete_included hcomplete hfile hgenerated).1, ?_⟩
      intro file hfile file' hfile' hgenerated hgenerated' hle hle'
      rw [apart_of_orderFree hX hcomplete horder hfile hfile' hgenerated hgenerated' hle hle']
    · intro h
      exact ⟨complete_of_indexable hpaths h, orderFree_of_indexable hpaths h⟩
  constructor
  · intro h
    exact ⟨(hindexable hpaths).mp ⟨h.complete.1, h.orderFree.1⟩,
      (hindexable hpaths').mp ⟨h.complete.2, h.orderFree.2⟩⟩
  · rintro ⟨h, h'⟩
    obtain ⟨hcomplete, horder⟩ := (hindexable hpaths).mpr h
    obtain ⟨hcomplete', horder'⟩ := (hindexable hpaths').mpr h'
    have hsensitive : manifestHash X files = manifestHash X files' →
        ∀ path content, Has files path content ↔ Has files' path content := fun heq _ _ =>
      ⟨has_of_manifestHash hX hcomplete heq, has_of_manifestHash hX hcomplete' heq.symm⟩
    refine ⟨⟨hcomplete, hcomplete'⟩, ⟨horder, horder'⟩, hsensitive, ?_⟩
    intro input input' hinput hinput' heq
    refine hsensitive ?_
    rw [← hinput, ← hinput', manifestHash_of_fingerprint hX heq]

end Paths

/-! ## Paths in a workspace -/

/-- A digest that tells all buffers apart: each byte as the character with its code. -/
private def byteText (content : ByteArray) : String :=
  String.ofList (content.data.toList.map Char.ofUInt8)

private theorem byteText_injective : Function.Injective byteText := by
  intro content content' h
  have hbyte : Function.Injective Char.ofUInt8 := by
    intro byte byte' hchar
    exact UInt8.toUInt32_inj.mp (congrArg Char.val hchar)
  have hlist := List.map_injective_iff.mpr hbyte (String.ofList_injective h)
  exact ByteArray.ext (Array.toList_inj.mp hlist)

private theorem codeUnitsLe_total (a b : String) :
    decide (UpTo a b) = true ∨ decide (UpTo b a) = true := by
  simp only [decide_eq_true_eq]
  exact Std.Total.total _ _

private theorem codeUnitsLe_trans (a b c : String) :
    decide (UpTo a b) = true → decide (UpTo b c) = true → decide (UpTo a c) = true := by
  simp only [decide_eq_true_eq]
  exact IsTrans.trans _ _ _

/-- Paths in the order of their code units, which is that of the collation for these paths. -/
private def plainIndex : IndexExternal where
  toLowerCase := String.toLower
  localeLe := fun a b => decide (UpTo a b)
  localeLe_total := codeUnitsLe_total
  localeLe_trans := codeUnitsLe_trans
  sha256 := byteText

private def fileAt (path : String) : WorkspaceFile := ⟨path, "x".toUTF8⟩

theorem manifest_faithful_two_files :
    Faithful plainIndex [fileAt "src/main.ts", fileAt "dist/main.js"] [fileAt "./README.md"] :=
  (manifest_faithful_iff plainIndex _ _ byteText_injective (by decide) (by decide)).mpr (by
    constructor
    · constructor
      · decide
      · intro file hfile file' hfile' hgenerated hgenerated' hle hle'
        rcases List.mem_pair.mp hfile with rfl | rfl
        · rcases List.mem_pair.mp hfile' with rfl | rfl
          · rfl
          · exact absurd (by decide) hgenerated'
        · exact absurd (by decide) hgenerated
    · constructor
      · decide
      · intro file hfile file' hfile' _ _ _ _
        rw [List.mem_singleton.mp hfile, List.mem_singleton.mp hfile'])

/-- A name with two dots next to each other is no way out of the workspace, but the file is in no
manifest. -/
theorem dotted_name_unfaithful :
    ¬Faithful plainIndex [fileAt "src/foo..bar.ts"] [fileAt "src/foo..bar.ts"] := by
  intro hfaithful
  have hentry := hfaithful.complete.1 _ (List.mem_singleton_self _) (by decide)
  have hnone : kept [fileAt "src/foo..bar.ts"] = [] := by decide
  rw [entries, hnone] at hentry
  exact absurd hentry (List.cons_ne_nil _ _).symm

end ProjectIndexer

end Orchestrator
