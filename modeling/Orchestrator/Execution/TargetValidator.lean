import Orchestrator.Collections.Paths
import Orchestrator.Domain.Errors

/-!
# Protected targets

`ExecutionTargetValidator`: a target of a step is a relative path below the workspace, and some
paths are protected. The checks read the text of the target, of which only two leading `./` have
been dropped, while `path.resolve` drops every empty segment and every `.`.

* `accepts_iff`: a target is accepted exactly when the file it resolves to is not barred for all
  spellings and its own spelling is not refused;
* `spelling_independent_iff`: when two spellings of one file get the same answer, and a protected
  file none;
* `unnoticed_dots`: three leading `./` lead into `credentials/`.
-/

namespace Orchestrator

open Collections

namespace ExecutionTargetValidator

/-- `PROTECTED_PATH_PREFIXES`. -/
def protectedPathPrefixes : List (List Char) :=
  [".git".toList, ".env".toList, "credentials".toList, "secrets".toList]

/-- `PROTECTED_EXACT`. -/
def protectedExact : List (List Char) :=
  [".env".toList, ".gitignore".toList, "policy-authority.json".toList,
    "capability-authority.json".toList, "approval-records.json".toList,
    "authorization-records.json".toList, "run-state.json".toList]

/-- `PROTECTED_SEGMENTS`. -/
def protectedSegments : List (List Char) := [".git".toList, "node_modules".toList]

/-- `raw.replaceAll("\\", "/")`. -/
def slashed (raw : List Char) : List Char := raw.map fun c => if c = '\\' then '/' else c

/-- `.replace(/^\.\//, "")`. -/
def dropDotSlash (path : List Char) : List Char :=
  if ['.', '/'] <+: path then path.drop 2 else path

/-- What `normalizeRelative` refuses. -/
def NotContained (normalized : List Char) : Prop :=
  normalized = [] ∨ '\x00' ∈ normalized ∨ normalized.head? = some '/' ∨
    ['.', '.'] ∈ segments normalized

instance (normalized : List Char) : Decidable (NotContained normalized) :=
  inferInstanceAs (Decidable (_ ∨ _))

/-- `normalizeRelative`. -/
def normalizeRelative (raw : List Char) : Except JsError (List Char) :=
  let normalized := dropDotSlash (slashed raw)
  if NotContained normalized then
    .error (.execution .executionTargetInvalid
      ("Target path is not a contained relative path: " ++ String.ofList raw))
  else .ok normalized

/-- `assertNotProtected`, which normalizes what it is given once more. -/
def assertNotProtected (L : LowerCase) (relativePath : List Char) : Except JsError Unit := do
  let normalized ← normalizeRelative relativePath
  let lower := L.apply normalized
  let base := basename lower
  if base ∈ protectedExact ∨ lower ∈ protectedExact then
    .error (.execution .executionTargetProtected
      ("Target path is protected: " ++ String.ofList relativePath))
  else if ".env.".toList <+: base then
    .error (.execution .executionTargetProtected
      ("Environment credential path is protected: " ++ String.ofList relativePath))
  else if ∃ p ∈ protectedPathPrefixes, lower = p ∨ p ++ ['/'] <+: lower ∨ p ++ ['.'] <+: lower then
    .error (.execution .executionTargetProtected
      ("Target path is protected: " ++ String.ofList relativePath))
  else if ∃ segment ∈ segments lower, segment ∈ protectedSegments then
    .error (.execution .executionTargetProtected
      ("Target path contains a protected segment: " ++ String.ofList relativePath))
  else .ok ()

/-- `resolveContained`, from the working directory `cwd`. -/
def resolveContained (L : LowerCase) (cwd workspaceRoot relativePath : List Char) :
    Except JsError (List Char) := do
  let normalized ← normalizeRelative relativePath
  assertNotProtected L normalized
  let rootResolved := resolve cwd [workspaceRoot]
  let resolved := resolve cwd [rootResolved, normalized]
  if resolved ≠ rootResolved ∧ ¬rootResolved ++ ['/'] <+: resolved then
    .error (.execution .executionTargetInvalid
      ("Path escapes the workspace: " ++ String.ofList relativePath))
  else .ok resolved

/-- `validateTargets`. -/
def validateTargets (L : LowerCase) (cwd workspaceRoot : List Char)
    (targets : List (List Char)) : Except JsError (List (List Char)) :=
  targets.mapM fun target => do
    let _ ← resolveContained L cwd workspaceRoot target
    normalizeRelative target

/-- The validator accepts the target. -/
def Accepts (L : LowerCase) (cwd workspaceRoot target : List Char) : Prop :=
  ∃ normalized, validateTargets L cwd workspaceRoot [target] = .ok normalized

/-! ## The file behind a target -/

/-- The target is no absolute path and does not go up. -/
def Relative (target : List Char) : Prop :=
  (slashed target).head? ≠ some '/' ∧ ['.', '.'] ∉ segments (slashed target)

instance (target : List Char) : Decidable (Relative target) :=
  inferInstanceAs (Decidable (_ ∧ _))

/-- The file that `path.resolve` maps a target to, a backslash separating as a slash does. -/
def resolvedTarget (cwd workspaceRoot target : List Char) : List Char :=
  resolve cwd [resolve cwd [workspaceRoot], slashed target]

/-- The segments of a workspace root. -/
def rootPath (cwd workspaceRoot : List Char) : List (List Char) :=
  normalizeSegments (segments (if workspaceRoot.head? = some '/' then workspaceRoot
    else cwd ++ '/' :: workspaceRoot))

/-- The segments of a target that lead on from the workspace root. -/
def below (target : List Char) : List (List Char) :=
  (segments (slashed target)).filter fun segment => Counts segment

theorem resolve_root (cwd workspaceRoot : List Char) :
    resolve cwd [workspaceRoot] = absolutePath (rootPath cwd workspaceRoot) := rfl

theorem plainPath_rootPath (cwd workspaceRoot : List Char) :
    PlainPath (rootPath cwd workspaceRoot) := plainPath_normalizeSegments _

theorem plainPath_below {target : List Char} (h : Relative target) : PlainPath (below target) := by
  intro segment hmem
  obtain ⟨hin, hcounts⟩ := List.mem_filter.mp hmem
  exact ⟨by simpa using hcounts, fun heq => h.2 (heq ▸ hin), notMem_of_mem_segments hin⟩

theorem resolvedTarget_eq (cwd workspaceRoot : List Char) {target : List Char}
    (h : Relative target) : resolvedTarget cwd workspaceRoot target =
      absolutePath (rootPath cwd workspaceRoot ++ below target) :=
  resolve_relative cwd (plainPath_rootPath cwd workspaceRoot) h.1 h.2

/-- The resolved path tells the segments. -/
theorem below_eq {cwd workspaceRoot target target' : List Char} (h : Relative target)
    (h' : Relative target')
    (hsame : resolvedTarget cwd workspaceRoot target = resolvedTarget cwd workspaceRoot target') :
    below target = below target' := by
  have hroot := plainPath_rootPath cwd workspaceRoot
  have hplain : ∀ {t}, Relative t → PlainPath (rootPath cwd workspaceRoot ++ below t) := by
    intro t ht segment hmem
    rcases List.mem_append.mp hmem with hmem | hmem
    · exact hroot segment hmem
    · exact plainPath_below ht segment hmem
  rw [resolvedTarget_eq _ _ h, resolvedTarget_eq _ _ h'] at hsame
  exact List.append_cancel_left (absolutePath_injective (hplain h) (hplain h') hsame)

/-! ## What the checks read -/

/-- One leading `.` dropped from the segments, unless it is the only one. -/
def dropDot (path : List (List Char)) : List (List Char) :=
  if path.head? = some ['.'] ∧ path.tail ≠ [] then path.tail else path

/-- The segments of a target that the protected paths are looked for in. -/
def remaining (target : List Char) : List (List Char) :=
  dropDot (dropDot (segments (slashed target)))

/-- A first segment that is protected, or continues a protected one after a dot. -/
def ProtectedFirst (L : LowerCase) (segment : List Char) : Prop :=
  ∃ p ∈ protectedPathPrefixes, L.apply segment = p ∨ p ++ ['.'] <+: L.apply segment

/-- A last segment that is protected. -/
def ProtectedLast (L : LowerCase) (segment : List Char) : Prop :=
  L.apply segment ∈ protectedExact ∨ ".env.".toList <+: L.apply segment

/-- A segment that is protected wherever it stands. -/
def ProtectedWithin (L : LowerCase) (segment : List Char) : Prop :=
  L.apply segment ∈ protectedSegments

/-- The checks of `assertNotProtected` find the path protected. -/
def Shown (L : LowerCase) (normalized : List Char) : Prop :=
  (basename (L.apply normalized) ∈ protectedExact ∨ L.apply normalized ∈ protectedExact) ∨
    ".env.".toList <+: basename (L.apply normalized) ∨
    (∃ p ∈ protectedPathPrefixes, L.apply normalized = p ∨ p ++ ['/'] <+: L.apply normalized ∨
      p ++ ['.'] <+: L.apply normalized) ∨
    ∃ segment ∈ segments (L.apply normalized), segment ∈ protectedSegments

variable {L : LowerCase}

theorem segments_dropDotSlash (path : List Char) :
    segments (dropDotSlash path) = dropDot (segments path) := by
  unfold dropDotSlash dropDot
  induction path using segments_induction with
  | single path hpath =>
    have hnot : ¬['.', '/'] <+: path := by
      rintro ⟨rest, rfl⟩
      exact hpath (by simp)
    rw [if_neg hnot, segments_of_notMem hpath, if_neg (by simp)]
  | slash first rest hfirst ih =>
    rw [segments_slash hfirst, List.head?_cons, List.tail_cons]
    by_cases hdot : first = ['.']
    · subst hdot
      rw [if_pos ⟨rest, rfl⟩, if_pos ⟨rfl, segments_ne_nil rest⟩]
      rfl
    · have hnot : ¬['.', '/'] <+: first ++ '/' :: rest := by
        intro hprefix
        have hdot' : '/' ∉ ['.'] := by decide
        have hhead := (eq_or_prefix_iff hdot' (first ++ '/' :: rest)).mp (.inr hprefix)
        rw [segments_slash hfirst, List.head?_cons] at hhead
        exact hdot (Option.some.inj hhead)
      rw [if_neg hnot, if_neg (by simp [hdot]), segments_slash hfirst]

theorem normalizeRelative_ok {raw normalized : List Char} :
    normalizeRelative raw = .ok normalized ↔
      dropDotSlash (slashed raw) = normalized ∧ ¬NotContained normalized := by
  simp only [normalizeRelative]
  split_ifs with h
  · constructor
    · exact fun hok => nomatch hok
    · rintro ⟨rfl, hnot⟩
      exact absurd h hnot
  · constructor
    · intro hok
      cases hok
      exact ⟨rfl, h⟩
    · rintro ⟨rfl, -⟩
      rfl

theorem assertNotProtected_ok {relativePath : List Char} :
    assertNotProtected L relativePath = .ok () ↔
      ∃ normalized, normalizeRelative relativePath = .ok normalized ∧ ¬Shown L normalized := by
  rw [assertNotProtected]
  cases normalizeRelative relativePath with
  | error e => simp [bind, Except.bind]
  | ok normalized =>
    simp only [bind, Except.bind, Shown, Except.ok.injEq, exists_eq_left']
    split_ifs <;> simp_all

/-- What the validator asks of a target: both normalizations pass, nothing protected is shown after
the second, and the file is below the workspace. -/
theorem accepts_ok {cwd workspaceRoot target : List Char} :
    Accepts L cwd workspaceRoot target ↔
      ∃ once twice, normalizeRelative target = .ok once ∧ normalizeRelative once = .ok twice ∧
        ¬Shown L twice ∧
        (resolve cwd [resolve cwd [workspaceRoot], once] = resolve cwd [workspaceRoot] ∨
          resolve cwd [workspaceRoot] ++ ['/'] <+:
            resolve cwd [resolve cwd [workspaceRoot], once]) := by
  rw [Accepts, validateTargets, List.mapM_cons, List.mapM_nil, resolveContained]
  cases htarget : normalizeRelative target with
  | error e => simp [bind, Except.bind]
  | ok once =>
    have hprotected : assertNotProtected L once = .ok () ↔
        ∃ normalized, normalizeRelative once = .ok normalized ∧ ¬Shown L normalized :=
      assertNotProtected_ok
    cases hassert : assertNotProtected L once with
    | error e =>
      rw [hassert] at hprotected
      simp only [bind, Except.bind, hassert]
      constructor
      · rintro ⟨normalized, h⟩
        exact nomatch h
      · rintro ⟨_, twice, hok, htwice, hshown, -⟩
        cases hok
        exact nomatch hprotected.mpr ⟨twice, htwice, hshown⟩
    | ok _ =>
      obtain ⟨twice, htwice, hshown⟩ := hprotected.mp hassert
      simp only [bind, Except.bind, hassert, pure, Except.pure, Except.ok.injEq]
      split_ifs with hescape
      · constructor
        · rintro ⟨normalized, h⟩
          exact nomatch h
        · rintro ⟨_, _, rfl, -, -, hbelow⟩
          rcases hbelow with heq | hprefix
          · exact absurd heq hescape.1
          · exact absurd hprefix hescape.2
      · refine ⟨fun _ => ⟨once, twice, rfl, htwice, hshown, ?_⟩, fun _ => ⟨[once], rfl⟩⟩
        by_contra hneither
        push Not at hneither
        exact hescape hneither

/-! ## From what is read to the file -/

theorem dropDot_of_head {path : List (List Char)} (h : path.head? = some []) :
    dropDot path = path := by
  rw [dropDot, if_neg]
  rintro ⟨hdot, -⟩
  rw [h] at hdot
  exact nomatch hdot

/-- Dropping a dot keeps every selection that leaves dots out. -/
theorem filter_dropDot {p : List Char → Bool} (hp : p ['.'] = false) (path : List (List Char)) :
    (dropDot path).filter p = path.filter p := by
  unfold dropDot
  split_ifs with h
  · obtain ⟨rest, rfl⟩ := List.head?_eq_some_iff.mp h.1
    rw [List.filter_cons_of_neg (by simp [hp])]
    rfl
  · rfl

theorem mem_dropDot {path : List (List Char)} {segment : List Char} (h : segment ≠ ['.']) :
    segment ∈ dropDot path ↔ segment ∈ path := by
  unfold dropDot
  split_ifs with hdot
  · obtain ⟨rest, rfl⟩ := List.head?_eq_some_iff.mp hdot.1
    simp [h]
  · rfl

/-- A property of neither the empty segment nor the dot is one of segments that count. -/
theorem exists_counts {P : List Char → Prop} (hnil : ¬P []) (hdot : ¬P ['.'])
    (path : List (List Char)) :
    (∃ segment ∈ path, P segment) ↔ ∃ segment ∈ path.filter fun s => Counts s, P segment := by
  constructor
  · rintro ⟨segment, hmem, hP⟩
    refine ⟨segment, List.mem_filter.mpr ⟨hmem, ?_⟩, hP⟩
    rw [decide_eq_true_eq]
    exact ⟨fun h => hnil (h ▸ hP), fun h => hdot (h ▸ hP)⟩
  · rintro ⟨segment, hmem, hP⟩
    exact ⟨segment, (List.mem_filter.mp hmem).1, hP⟩

/-- A first segment that counts is the first of those that count. -/
theorem head_counts {P : List Char → Prop} (hdot : ¬P ['.']) {path : List (List Char)}
    (hne : path.head? ≠ some []) :
    (∃ segment, path.head? = some segment ∧ P segment) ↔
      ∃ segment, (path.filter fun s => Counts s).head? = some segment ∧ P segment ∧
        path.head? ≠ some ['.'] := by
  cases path with
  | nil => simp
  | cons first rest =>
    simp only [List.head?_cons, ne_eq, Option.some.injEq] at hne ⊢
    by_cases hfirst : first = ['.']
    · subst hfirst
      simp [hdot]
    · have hcounts : Counts first := ⟨hne, hfirst⟩
      rw [List.filter_cons_of_pos (by simpa using hcounts), List.head?_cons]
      simp [hfirst]

/-- A last segment that counts is the last of those that count. -/
theorem getLast_counts {P : List Char → Prop} (hdot : ¬P ['.']) (path : List (List Char)) :
    (∃ segment, (path.filter (· ≠ [])).getLast? = some segment ∧ P segment) ↔
      ∃ segment, (path.filter fun s => Counts s).getLast? = some segment ∧ P segment ∧
        (path.filter (· ≠ [])).getLast? ≠ some ['.'] := by
  have hfilter : (path.filter fun s => Counts s) =
      (path.filter (· ≠ [])).filter (· ≠ ['.']) := by
    rw [List.filter_filter]
    refine List.filter_congr fun segment _ => ?_
    rw [← Bool.decide_and, decide_eq_decide]
    exact and_comm
  rw [hfilter]
  rcases List.eq_nil_or_concat' (path.filter (· ≠ [])) with hnil | ⟨front, last, hlast⟩
  · rw [hnil]
    simp
  · rw [hlast]
    by_cases heq : last = ['.']
    · subst heq
      simp [hdot]
    · rw [List.filter_append, List.filter_cons_of_pos (by simpa using heq)]
      simp [heq]

/-- The last segment that is not empty, in lower case. -/
theorem basename_apply (normalized : List Char) :
    basename (L.apply normalized) =
      ((((segments normalized).filter (· ≠ [])).getLast?).map L.apply).getD [] := by
  have hfilter : ((segments normalized).map L.apply).filter (· ≠ []) =
      ((segments normalized).filter (· ≠ [])).map L.apply := by
    rw [List.filter_map]
    congr 1
    refine List.filter_congr fun segment _ => ?_
    rw [Function.comp_apply, decide_eq_decide, ne_eq, ne_eq, L.nil_iff]
  rw [basename, L.segments_apply, hfilter, List.getLast?_map]

/-- The checks of the last segment, which the check of the whole path adds nothing to. -/
theorem shown_last_iff (normalized : List Char) :
    ((basename (L.apply normalized) ∈ protectedExact ∨ L.apply normalized ∈ protectedExact) ∨
        ".env.".toList <+: basename (L.apply normalized)) ↔
      ∃ segment, ((segments normalized).filter (· ≠ [])).getLast? = some segment ∧
        ProtectedLast L segment := by
  have hwhole : L.apply normalized ∈ protectedExact →
      basename (L.apply normalized) ∈ protectedExact := by
    intro h
    have hword : '/' ∉ L.apply normalized ∧ L.apply normalized ≠ [] :=
      (by decide : ∀ word ∈ protectedExact, '/' ∉ word ∧ word ≠ []) _ h
    have hbase : basename (L.apply normalized) = L.apply normalized := by
      rw [basename, segments_of_notMem hword.1, List.filter_cons_of_pos (by simpa using hword.2)]
      rfl
    rw [hbase]
    exact h
  have hboth : (basename (L.apply normalized) ∈ protectedExact ∨
      L.apply normalized ∈ protectedExact) ↔ basename (L.apply normalized) ∈ protectedExact :=
    ⟨fun h => h.elim id hwhole, .inl⟩
  rw [hboth, basename_apply]
  cases ((segments normalized).filter (· ≠ [])).getLast? with
  | none =>
    simp only [Option.map_none, Option.getD_none, reduceCtorEq, false_and, exists_const, iff_false]
    decide
  | some segment => simp [ProtectedLast]

/-- The checks of the prefixes read the first segment. -/
theorem shown_first_iff (normalized : List Char) :
    (∃ p ∈ protectedPathPrefixes, L.apply normalized = p ∨ p ++ ['/'] <+: L.apply normalized ∨
        p ++ ['.'] <+: L.apply normalized) ↔
      ∃ segment, (segments normalized).head? = some segment ∧ ProtectedFirst L segment := by
  have hhead : (segments (L.apply normalized)).head? =
      (segments normalized).head?.map L.apply := by
    rw [L.segments_apply, List.head?_map]
  obtain ⟨first, rest, hsegments⟩ := List.exists_cons_of_ne_nil (segments_ne_nil normalized)
  rw [hsegments, List.head?_cons, Option.map_some] at hhead
  have hword : ∀ p ∈ protectedPathPrefixes, '/' ∉ p ∧ '/' ∉ p ++ ['.'] := by decide
  rw [hsegments, List.head?_cons]
  simp only [Option.some.injEq, exists_eq_left', ProtectedFirst]
  refine exists_congr fun p => and_congr_right fun hp => ?_
  rw [← or_assoc, eq_or_prefix_iff (hword p hp).1, prefix_iff (hword p hp).2, hhead]
  simp

/-- What the checks read of a path. -/
theorem shown_iff (normalized : List Char) :
    Shown L normalized ↔
      (∃ segment, (segments normalized).head? = some segment ∧ ProtectedFirst L segment) ∨
      (∃ segment, ((segments normalized).filter (· ≠ [])).getLast? = some segment ∧
        ProtectedLast L segment) ∨
      ∃ segment ∈ segments normalized, ProtectedWithin L segment := by
  have hwithin : (∃ segment ∈ segments (L.apply normalized), segment ∈ protectedSegments) ↔
      ∃ segment ∈ segments normalized, ProtectedWithin L segment := by
    rw [L.segments_apply]
    simp only [List.mem_map, exists_exists_and_eq_and, ProtectedWithin]
  unfold Shown
  rw [← or_assoc, shown_last_iff, shown_first_iff, hwithin]
  exact or_left_comm

/-- The file is refused however it is spelled: its path holds a NUL or a segment that is protected
wherever it stands, or it is below a workspace that is the root of the file system. -/
def Barred (L : LowerCase) (cwd workspaceRoot target : List Char) : Prop :=
  (∃ segment ∈ below target, '\x00' ∈ segment) ∨
    (∃ segment ∈ below target, ProtectedWithin L segment) ∨
    (rootPath cwd workspaceRoot = [] ∧ below target ≠ [])

/-- The spelling is refused: after two leading `./` nothing is left or a slash comes first, or a
protected first segment has no `.` before it, or a protected last one has no `.` after it. -/
def Refused (L : LowerCase) (target : List Char) : Prop :=
  (remaining target).head? = some [] ∨
    (∃ segment, (below target).head? = some segment ∧ ProtectedFirst L segment ∧
      (remaining target).head? ≠ some ['.']) ∨
    ∃ segment, (below target).getLast? = some segment ∧ ProtectedLast L segment ∧
      ((remaining target).filter (· ≠ [])).getLast? ≠ some ['.']

theorem slashed_dropDotSlash (raw : List Char) :
    slashed (dropDotSlash (slashed raw)) = dropDotSlash (slashed raw) := by
  have hnone : ∀ c ∈ slashed raw, c ≠ '\\' := by
    intro c hc
    obtain ⟨d, -, rfl⟩ := List.mem_map.mp hc
    split_ifs with hd
    · decide
    · exact hd
  have hsub : dropDotSlash (slashed raw) ⊆ slashed raw := by
    unfold dropDotSlash
    split_ifs
    · exact List.drop_subset 2 _
    · exact List.Subset.refl _
  have hsame : ∀ c ∈ dropDotSlash (slashed raw), (if c = '\\' then '/' else c) = c :=
    fun c hc => if_neg (hnone c (hsub hc))
  calc slashed (dropDotSlash (slashed raw))
      = (dropDotSlash (slashed raw)).map id := List.map_congr_left hsame
    _ = dropDotSlash (slashed raw) := List.map_id _

/-- A path without `..` is refused for its first segment or for a NUL. -/
theorem notContained_iff {normalized : List Char} (hup : ['.', '.'] ∉ segments normalized) :
    NotContained normalized ↔ (segments normalized).head? = some [] ∨
      ∃ segment ∈ (segments normalized).filter fun s => Counts s, '\x00' ∈ segment := by
  have hnul : '\x00' ∈ normalized ↔
      ∃ segment ∈ (segments normalized).filter fun s => Counts s, '\x00' ∈ segment := by
    rw [mem_iff_mem_segments (by decide)]
    exact exists_counts (by decide) (by decide) _
  rw [NotContained, ← hnul, ← head_eq_slash_or_nil_iff]
  constructor
  · rintro (hnil | hnul | hslash | hmem)
    · exact .inl (.inl hnil)
    · exact .inr hnul
    · exact .inl (.inr hslash)
    · exact absurd hmem hup
  · rintro ((hnil | hslash) | hnul)
    · exact .inl hnil
    · exact .inr (.inr (.inl hslash))
    · exact .inr (.inl hnul)

theorem apply_dot : L.apply ['.'] = ['.'] := (L.dot_iff ['.']).mpr rfl

/-- Neither a dot nor an empty segment is protected. -/
theorem not_protected_dot : ¬ProtectedFirst L ['.'] ∧ ¬ProtectedLast L ['.'] ∧
    ¬ProtectedWithin L ['.'] ∧ ¬ProtectedWithin L [] := by
  rw [ProtectedFirst, ProtectedLast, ProtectedWithin, ProtectedWithin, apply_dot,
    (L.nil_iff []).mpr rfl]
  decide

/-- A target is accepted when neither its file is barred nor its spelling refused. -/
theorem accepts_iff {cwd workspaceRoot target : List Char} (h : Relative target) :
    Accepts L cwd workspaceRoot target ↔
      ¬Barred L cwd workspaceRoot target ∧ ¬Refused L target := by
  set path := segments (slashed target) with hpath
  have honce : segments (dropDotSlash (slashed target)) = dropDot path := segments_dropDotSlash _
  have htwice : segments (dropDotSlash (dropDotSlash (slashed target))) = remaining target := by
    rw [segments_dropDotSlash, honce]
    rfl
  have hbelow : ((dropDot path).filter fun s => Counts s) = below target :=
    filter_dropDot (by decide) path
  have hbelow' : ((remaining target).filter fun s => Counts s) = below target := by
    rw [← hbelow]
    exact filter_dropDot (by decide) (dropDot path)
  have hup : ['.', '.'] ∉ dropDot path := fun hmem => h.2 ((mem_dropDot (by decide)).mp hmem)
  have hup' : ['.', '.'] ∉ remaining target :=
    fun hmem => hup ((mem_dropDot (by decide)).mp hmem)
  have hfile : ∀ once, once = dropDotSlash (slashed target) → ¬NotContained once →
      ((resolve cwd [resolve cwd [workspaceRoot], once] = resolve cwd [workspaceRoot] ∨
        resolve cwd [workspaceRoot] ++ ['/'] <+:
          resolve cwd [resolve cwd [workspaceRoot], once]) ↔
        ¬(rootPath cwd workspaceRoot = [] ∧ below target ≠ [])) := by
    rintro once rfl hcontained
    have hrelative : (dropDotSlash (slashed target)).head? ≠ some '/' :=
      fun hslash => hcontained (.inr (.inr (.inl hslash)))
    rw [resolve_root, resolve_relative cwd (plainPath_rootPath _ _) hrelative (honce ▸ hup), honce,
      hbelow, below_iff (plainPath_below h)]
    tauto
  have hblank : (dropDot path).head? = some [] → (remaining target).head? = some [] := by
    intro hhead
    have hsame : remaining target = dropDot path := dropDot_of_head hhead
    rw [hsame]
    exact hhead
  have hfits := notContained_iff (honce ▸ hup)
  have hfits' := notContained_iff (htwice ▸ hup')
  rw [honce, hbelow] at hfits
  rw [htwice, hbelow'] at hfits'
  rw [accepts_ok]
  simp only [normalizeRelative_ok]
  constructor
  · rintro ⟨once, twice, ⟨rfl, hcontained⟩, ⟨rfl, hcontained'⟩, hshown, hin⟩
    rw [slashed_dropDotSlash] at hcontained' hshown
    rw [hfits', not_or] at hcontained'
    rw [shown_iff, htwice, head_counts not_protected_dot.1 hcontained'.1,
      getLast_counts not_protected_dot.2.1,
      exists_counts not_protected_dot.2.2.2 not_protected_dot.2.2.1, hbelow', not_or, not_or]
      at hshown
    rw [hfile _ rfl hcontained] at hin
    refine ⟨?_, ?_⟩
    · rintro (hnul | hwithin | hroot)
      · exact hcontained'.2 hnul
      · exact hshown.2.2 hwithin
      · exact hin hroot
    · rintro (hhead | hfirst | hlast)
      · exact hcontained'.1 hhead
      · exact hshown.1 hfirst
      · exact hshown.2.1 hlast
  · rintro ⟨hbarred, hrefused⟩
    simp only [Barred, Refused, not_or] at hbarred hrefused
    have hcontained : ¬NotContained (dropDotSlash (slashed target)) := by
      rw [hfits]
      rintro (hhead | hnul)
      · exact hrefused.1 (hblank hhead)
      · exact hbarred.1 hnul
    refine ⟨_, _, ⟨rfl, hcontained⟩, ⟨rfl, ?_⟩, ?_, (hfile _ rfl hcontained).mpr hbarred.2.2⟩
    · rw [slashed_dropDotSlash, hfits']
      rintro (hhead | hnul)
      · exact hrefused.1 hhead
      · exact hbarred.1 hnul
    · rw [slashed_dropDotSlash, shown_iff, htwice,
        head_counts not_protected_dot.1 hrefused.1, getLast_counts not_protected_dot.2.1,
        exists_counts not_protected_dot.2.2.2 not_protected_dot.2.2.1, hbelow']
      rintro (hfirst | hlast | hwithin)
      · exact hrefused.2.1 hfirst
      · exact hrefused.2.2 hlast
      · exact hbarred.2.1 hwithin

/-! ## Spellings of one file -/

/-- The files that the validator is there to protect: inside a `credentials` or `secrets`
directory of the workspace, at or inside a `.git` or a name that begins with `.env`, or an
authority file. -/
def Protected (L : LowerCase) (path : List (List Char)) : Prop :=
  (∃ segment, path.head? = some segment ∧
      (L.apply segment = "credentials".toList ∨ L.apply segment = "secrets".toList)) ∨
    (∃ segment ∈ path, L.apply segment = ".git".toList ∨ ".env".toList <+: L.apply segment) ∨
    ∃ segment, path.getLast? = some segment ∧
      L.apply segment ∈ ["policy-authority.json".toList, "capability-authority.json".toList,
        "approval-records.json".toList, "authorization-records.json".toList,
        "run-state.json".toList]

/-- Two spellings that the checks treat alike, and that hide no protected file. -/
def SpeltAlike (L : LowerCase) (cwd workspaceRoot target target' : List Char) : Prop :=
  Barred L cwd workspaceRoot target ∨
    (Protected L (below target) ∧ Refused L target ∧ Refused L target') ∨
    (¬Protected L (below target) ∧ (Refused L target ↔ Refused L target'))

/-- Spellings of one file get the same answer, and lead to no protected file, exactly when the
checks treat them alike. -/
theorem spelling_independent_iff (L : LowerCase) {cwd workspaceRoot target target' : List Char}
    (h : Relative target) (h' : Relative target')
    (hsame : resolvedTarget cwd workspaceRoot target = resolvedTarget cwd workspaceRoot target') :
    ((Accepts L cwd workspaceRoot target ↔ Accepts L cwd workspaceRoot target') ∧
      (Accepts L cwd workspaceRoot target → ¬Protected L (below target)) ∧
      (Accepts L cwd workspaceRoot target' → ¬Protected L (below target'))) ↔
        SpeltAlike L cwd workspaceRoot target target' := by
  have hbelow : below target = below target' := below_eq h h' hsame
  have hbarred : Barred L cwd workspaceRoot target' ↔ Barred L cwd workspaceRoot target := by
    unfold Barred
    rw [hbelow]
  rw [accepts_iff h, accepts_iff h', hbarred, ← hbelow, SpeltAlike]
  by_cases hbar : Barred L cwd workspaceRoot target
  · simp [hbar]
  · by_cases hprotected : Protected L (below target)
    · simp only [hbar, hprotected, not_false_eq_true, true_and, not_true_eq_false, imp_false,
        not_not, false_and, or_false, false_or]
      exact ⟨fun hall => hall.2, fun hall => ⟨by simp [hall], hall⟩⟩
    · simp only [hbar, hprotected, not_false_eq_true, true_and, implies_true, and_true, false_and,
        false_or]
      exact not_iff_not

/-- Two spellings of one file that are both refused. -/
theorem spelling_independent_two_secrets :
    ((Accepts asciiLowerCase "/".toList "/repo".toList "secrets\\key".toList ↔
        Accepts asciiLowerCase "/".toList "/repo".toList "./secrets//key".toList) ∧
      (Accepts asciiLowerCase "/".toList "/repo".toList "secrets\\key".toList →
        ¬Protected asciiLowerCase (below "secrets\\key".toList)) ∧
      (Accepts asciiLowerCase "/".toList "/repo".toList "./secrets//key".toList →
        ¬Protected asciiLowerCase (below "./secrets//key".toList))) ↔
      SpeltAlike asciiLowerCase "/".toList "/repo".toList "secrets\\key".toList
        "./secrets//key".toList :=
  spelling_independent_iff asciiLowerCase (by decide) (by decide)
    (by decide)

/-- Three leading `./` lead past the checks into a protected directory. -/
theorem unnoticed_dots :
    Relative "./././credentials/key".toList ∧ Relative "credentials/key".toList ∧
      resolvedTarget "/".toList "/repo".toList "./././credentials/key".toList =
        resolvedTarget "/".toList "/repo".toList "credentials/key".toList ∧
      Accepts asciiLowerCase "/".toList "/repo".toList "./././credentials/key".toList ∧
      ¬Accepts asciiLowerCase "/".toList "/repo".toList "credentials/key".toList ∧
      Protected asciiLowerCase (below "./././credentials/key".toList) := by
  refine ⟨by decide, by decide, by decide,
    ⟨["././credentials/key".toList], by decide⟩, ?_,
    .inl ⟨"credentials".toList, by decide, .inl (by decide)⟩⟩
  rintro ⟨normalized, h⟩
  have hrefused : validateTargets asciiLowerCase "/".toList "/repo".toList
      ["credentials/key".toList] =
        .error (.execution .executionTargetProtected "Target path is protected: credentials/key") :=
    by decide
  rw [hrefused] at h
  exact nomatch h

end ExecutionTargetValidator

end Orchestrator
