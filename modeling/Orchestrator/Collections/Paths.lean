import Mathlib.Data.List.Basic
import Mathlib.Tactic

/-!
# Paths between slashes

A path is read as its segments between slashes. `resolve` joins paths from left to right, an
absolute one starting anew, and normalizes what comes out: empty and `.` segments go, and `..`
takes back the segment before it.

* `normalizeSegments_of_plain`: a normalized path is left as it is;
* `resolve_relative`: below a resolved root, a relative path without `..` adds its segments that
  count, in their order;
* `absolutePath_injective`: normalized paths are told apart by their text.
-/

namespace Collections

/-- The segments of a path between its slashes. -/
def segments (path : List Char) : List (List Char) := path.splitOn '/'

/-- Whether a segment names something: the empty one and `.` do not. -/
def Counts (segment : List Char) : Prop := segment ≠ [] ∧ segment ≠ ['.']

instance (segment : List Char) : Decidable (Counts segment) :=
  inferInstanceAs (Decidable (_ ∧ _))

/-- One more segment of an absolute path. -/
def pushSegment (path : List (List Char)) (segment : List Char) : List (List Char) :=
  if segment = ['.', '.'] then path.dropLast
  else if Counts segment then path ++ [segment]
  else path

/-- The segments of an absolute path without `.`, `..` and empty ones. -/
def normalizeSegments (path : List (List Char)) : List (List Char) := path.foldl pushSegment []

/-- The absolute path with these segments. -/
def absolutePath (path : List (List Char)) : List Char := '/' :: List.intercalate ['/'] path

/-- `path.resolve`, from the working directory `cwd`. -/
def resolve (cwd : List Char) (paths : List (List Char)) : List Char :=
  absolutePath (normalizeSegments (segments
    (paths.foldl (fun base path => if path.head? = some '/' then path else base ++ '/' :: path)
      cwd)))

/-- `path.posix.basename`: the last segment that is not empty. -/
def basename (path : List Char) : List Char :=
  ((segments path).filter (· ≠ [])).getLast?.getD []

/-! ## Segments -/

theorem segments_append_slash (a b : List Char) :
    segments (a ++ '/' :: b) = segments a ++ segments b :=
  List.splitOn_append_cons_self a b

theorem segments_of_notMem {path : List Char} (h : '/' ∉ path) : segments path = [path] :=
  List.splitOn_eq_singleton h

theorem intercalate_segments (path : List Char) :
    List.intercalate ['/'] (segments path) = path :=
  List.intercalate_splitOn '/'

/-- A path is one segment, or a segment, a slash and a path. -/
theorem segments_induction {P : List Char → Prop} (single : ∀ path, '/' ∉ path → P path)
    (slash : ∀ first rest, '/' ∉ first → P rest → P (first ++ '/' :: rest)) (path : List Char) :
    P path := by
  induction h : path.length using Nat.strongRecOn generalizing path with
  | ind n ih =>
    by_cases hslash : '/' ∈ path
    · obtain ⟨first, rest, rfl, hfirst⟩ := List.eq_append_cons_of_mem hslash
      apply slash first rest hfirst
      refine ih rest.length ?_ rest rfl
      rw [← h, List.length_append, List.length_cons]
      omega
    · exact single path hslash

theorem segments_slash {first : List Char} (h : '/' ∉ first) (rest : List Char) :
    segments (first ++ '/' :: rest) = first :: segments rest := by
  rw [segments_append_slash, segments_of_notMem h]
  rfl

theorem segments_ne_nil (path : List Char) : segments path ≠ [] := List.splitOn_ne_nil '/' path

theorem notMem_of_mem_segments {path segment : List Char} (h : segment ∈ segments path) :
    '/' ∉ segment := by
  induction path using segments_induction with
  | single path hpath =>
    rw [segments_of_notMem hpath, List.mem_singleton] at h
    exact h ▸ hpath
  | slash first rest hfirst ih =>
    rw [segments_slash hfirst] at h
    rcases List.mem_cons.mp h with rfl | h
    · exact hfirst
    · exact ih h

/-- A character other than the slash is in one of the segments. -/
theorem mem_iff_mem_segments {c : Char} (hc : c ≠ '/') (path : List Char) :
    c ∈ path ↔ ∃ segment ∈ segments path, c ∈ segment := by
  induction path using segments_induction with
  | single path hpath => simp [segments_of_notMem hpath]
  | slash first rest hfirst ih => simp [segments_slash hfirst, ih, hc]

/-- A path starts with a slash exactly when its first segment is empty and not its only one. -/
theorem head_eq_slash_or_nil_iff (path : List Char) :
    path = [] ∨ path.head? = some '/' ↔ (segments path).head? = some [] := by
  induction path using segments_induction with
  | single path hpath =>
    rw [segments_of_notMem hpath, List.head?_cons]
    constructor
    · rintro (rfl | hhead)
      · rfl
      · exact absurd (List.mem_of_mem_head? hhead) hpath
    · intro hnil
      exact .inl (Option.some.inj hnil)
  | slash first rest hfirst ih =>
    rw [segments_slash hfirst, List.head?_cons]
    cases first with
    | nil => simp
    | cons c first =>
      have hc : c ≠ '/' := fun h => hfirst (by simp [h])
      simp [hc]

/-- A word without slashes is the first segment when it is the path or a slash follows it. -/
theorem eq_or_prefix_iff {word : List Char} (hword : '/' ∉ word) (path : List Char) :
    path = word ∨ word ++ ['/'] <+: path ↔ (segments path).head? = some word := by
  constructor
  · rintro (rfl | ⟨rest, rfl⟩)
    · rw [segments_of_notMem hword, List.head?_cons]
    · rw [List.append_assoc, List.singleton_append, segments_slash hword, List.head?_cons]
  · induction path using segments_induction with
    | single path hpath =>
      intro h
      rw [segments_of_notMem hpath, List.head?_cons] at h
      exact .inl (Option.some.inj h)
    | slash first rest hfirst ih =>
      intro h
      rw [segments_slash hfirst, List.head?_cons] at h
      refine .inr ⟨rest, ?_⟩
      rw [Option.some.inj h, List.append_assoc]
      rfl

/-- A word without slashes starts a path when it starts the first segment. -/
theorem prefix_iff {word : List Char} (hword : '/' ∉ word) (path : List Char) :
    word <+: path ↔ ∃ first, (segments path).head? = some first ∧ word <+: first := by
  induction path using segments_induction with
  | single path hpath => simp [segments_of_notMem hpath]
  | slash first rest hfirst ih =>
    rw [segments_slash hfirst, List.head?_cons]
    constructor
    · intro h
      refine ⟨first, rfl, ?_⟩
      rcases List.prefix_or_prefix_of_prefix h (List.prefix_append first ('/' :: rest)) with
        hprefix | ⟨more, rfl⟩
      · exact hprefix
      · rw [List.prefix_append_right_inj] at h
        rcases List.prefix_cons_iff.mp h with rfl | ⟨more, rfl, -⟩
        · rw [List.append_nil]
        · exact absurd (by simp) hword
    · rintro ⟨_, hfirst', hprefix⟩
      rw [← Option.some.inj hfirst'] at hprefix
      exact List.prefix_append_of_prefix hprefix

/-! ## Normalized paths -/

/-- The segments of a normalized path. -/
def PlainPath (path : List (List Char)) : Prop :=
  ∀ segment ∈ path, Counts segment ∧ segment ≠ ['.', '.'] ∧ '/' ∉ segment

theorem PlainPath.push {path : List (List Char)} (h : PlainPath path) {segment : List Char}
    (hslash : '/' ∉ segment) : PlainPath (pushSegment path segment) := by
  intro s hs
  rw [pushSegment] at hs
  split_ifs at hs with hup hcounts
  · exact h s (List.mem_of_mem_dropLast hs)
  · rcases List.mem_append.mp hs with hs | hs
    · exact h s hs
    · rw [List.mem_singleton] at hs
      subst hs
      exact ⟨hcounts, hup, hslash⟩
  · exact h s hs

theorem plainPath_normalizeSegments (path : List Char) :
    PlainPath (normalizeSegments (segments path)) := by
  have hfold : ∀ part ⊆ segments path, ∀ start, PlainPath start →
      PlainPath (part.foldl pushSegment start) := by
    intro part
    induction part with
    | nil => exact fun _ start h => h
    | cons segment part ih =>
      intro hpart start h
      obtain ⟨hsegment, hrest⟩ := List.cons_subset.mp hpart
      exact ih hrest _ (h.push (notMem_of_mem_segments hsegment))
  exact hfold _ (List.Subset.refl _) [] fun segment h => absurd h List.not_mem_nil

/-- Without `..`, the segments that count are added in their order. -/
theorem foldl_pushSegment {part : List (List Char)} (h : ['.', '.'] ∉ part)
    (start : List (List Char)) :
    part.foldl pushSegment start = start ++ part.filter fun segment => Counts segment := by
  induction part generalizing start with
  | nil => simp
  | cons segment part ih =>
    have hup : segment ≠ ['.', '.'] := fun heq => h (by simp [heq])
    rw [List.foldl_cons, ih fun hmem => h (List.mem_cons_of_mem _ hmem), pushSegment, if_neg hup,
      List.filter_cons]
    split_ifs with hcounts hdecide hdecide
    · rw [List.append_assoc]
      rfl
    · exact absurd hcounts (by simpa using hdecide)
    · exact absurd (by simpa using hdecide) hcounts
    · rfl

theorem PlainPath.up_notMem {path : List (List Char)} (h : PlainPath path) : ['.', '.'] ∉ path :=
  fun hmem => (h _ hmem).2.1 rfl

theorem PlainPath.filter_counts {path : List (List Char)} (h : PlainPath path) :
    (path.filter fun segment => Counts segment) = path :=
  List.filter_eq_self.mpr fun segment hmem => by simpa using (h segment hmem).1

/-- A normalized path is left as it is. -/
theorem normalizeSegments_of_plain {path : List (List Char)} (h : PlainPath path) :
    normalizeSegments (segments (absolutePath path)) = path := by
  have hsegments : segments (absolutePath path) =
      [] :: segments (List.intercalate ['/'] path) :=
    @segments_slash [] List.not_mem_nil _
  have hfilter : ((segments (List.intercalate ['/'] path)).filter fun segment => Counts segment) =
      path := by
    by_cases hnil : path = []
    · rw [hnil]
      rfl
    · rw [segments, List.splitOn_intercalate '/' (fun s hs => (h s hs).2.2) hnil, h.filter_counts]
  have hup : ['.', '.'] ∉ segments (absolutePath path) := by
    rw [hsegments]
    intro hmem
    have hin : ['.', '.'] ∈
        (segments (List.intercalate ['/'] path)).filter fun segment => Counts segment := by
      rw [List.mem_filter]
      refine ⟨?_, by decide⟩
      rcases List.mem_cons.mp hmem with heq | hmem
      · exact nomatch heq
      · exact hmem
    rw [hfilter] at hin
    exact h.up_notMem hin
  rw [normalizeSegments, foldl_pushSegment hup, hsegments, List.filter_cons_of_neg (by decide),
    hfilter]
  rfl

/-- Normalized paths are told apart by their text. -/
theorem absolutePath_injective {path path' : List (List Char)} (h : PlainPath path)
    (h' : PlainPath path') (heq : absolutePath path = absolutePath path') : path = path' := by
  rw [← normalizeSegments_of_plain h, heq, normalizeSegments_of_plain h']

theorem intercalate_append {path rest : List (List Char)} (hpath : path ≠ []) (hrest : rest ≠ []) :
    List.intercalate ['/'] (path ++ rest) =
      List.intercalate ['/'] path ++ '/' :: List.intercalate ['/'] rest := by
  induction path with
  | nil => exact absurd rfl hpath
  | cons segment path ih =>
    by_cases hnil : path = []
    · subst hnil
      rw [List.singleton_append, List.intercalate_cons_of_ne_nil hrest, List.intercalate_singleton]
      simp
    · rw [List.cons_append, List.intercalate_cons_of_ne_nil (by simp [hnil]), ih hnil,
        List.intercalate_cons_of_ne_nil hnil]
      simp

/-- A path below a root starts with the root and a slash, unless the root is the slash itself. -/
theorem below_iff {root path : List (List Char)} (hpath : PlainPath path) :
    (absolutePath (root ++ path) = absolutePath root ∨
        absolutePath root ++ ['/'] <+: absolutePath (root ++ path)) ↔
      root ≠ [] ∨ path = [] := by
  by_cases hnil : path = []
  · simp [hnil]
  by_cases hroot : root = []
  · -- below the slash, a path starts with a slash and the first character of its first segment
    obtain ⟨segment, path, rfl⟩ := List.exists_cons_of_ne_nil hnil
    obtain ⟨⟨hne, -⟩, -, hslash⟩ := hpath segment List.mem_cons_self
    obtain ⟨c, segment, rfl⟩ := List.exists_cons_of_ne_nil hne
    have hc : '/' ≠ c := fun h => hslash (List.mem_cons.mpr (.inl h))
    have hhead : ∃ rest, List.intercalate ['/'] ((c :: segment) :: path) = c :: rest := by
      by_cases hpath : path = []
      · exact ⟨segment, by rw [hpath, List.intercalate_singleton]⟩
      · rw [List.intercalate_cons_of_ne_nil hpath]
        exact ⟨_, rfl⟩
    obtain ⟨rest, hrest⟩ := hhead
    subst hroot
    simp [absolutePath, hrest, hc]
  · simp only [hroot, hnil, ne_eq, not_false_eq_true, or_false, iff_true]
    refine .inr ⟨List.intercalate ['/'] path, ?_⟩
    rw [absolutePath, absolutePath, intercalate_append hroot hnil]
    simp

/-! ## Resolution -/

/-- What resolution returns is a normalized path. -/
theorem exists_resolve_eq (cwd : List Char) (paths : List (List Char)) :
    ∃ path, PlainPath path ∧ resolve cwd paths = absolutePath path :=
  ⟨_, plainPath_normalizeSegments _, rfl⟩

/-- A relative path without `..` adds its segments that count. -/
theorem resolve_relative (cwd : List Char) {path : List (List Char)} (hpath : PlainPath path)
    {relative : List Char} (hrelative : relative.head? ≠ some '/')
    (hup : ['.', '.'] ∉ segments relative) :
    resolve cwd [absolutePath path, relative] =
      absolutePath (path ++ (segments relative).filter fun segment => Counts segment) := by
  have hjoined : ([absolutePath path, relative].foldl
      (fun base path => if path.head? = some '/' then path else base ++ '/' :: path) cwd) =
      absolutePath path ++ '/' :: relative := by
    have hhead : (absolutePath path).head? = some '/' := rfl
    rw [List.foldl_cons, List.foldl_cons, List.foldl_nil, if_neg hrelative, if_pos hhead]
  rw [resolve, hjoined, segments_append_slash, normalizeSegments, List.foldl_append,
    foldl_pushSegment hup, ← normalizeSegments, normalizeSegments_of_plain hpath]

/-! ## Lower case -/

/-- A lower-casing of texts that leaves slashes where they are and makes no slash, dot or empty
text of anything else. -/
structure LowerCase where
  apply : List Char → List Char
  slash : ∀ a b, apply (a ++ '/' :: b) = apply a ++ '/' :: apply b
  slash_notMem : ∀ a, '/' ∉ a → '/' ∉ apply a
  nil_iff : ∀ a, apply a = [] ↔ a = []
  dot_iff : ∀ a, apply a = ['.'] ↔ a = ['.']

/-- Lower case and segments commute. -/
theorem LowerCase.segments_apply (L : LowerCase) (path : List Char) :
    segments (L.apply path) = (segments path).map L.apply := by
  induction path using segments_induction with
  | single path hpath =>
    rw [segments_of_notMem hpath, segments_of_notMem (L.slash_notMem path hpath)]
    rfl
  | slash first rest hfirst ih =>
    rw [L.slash, segments_slash (L.slash_notMem first hfirst), ih, segments_slash hfirst]
    rfl

/-- What stands before the letters has no case. -/
theorem toLower_eq_iff {c d : Char} (hd : d.toNat < 65) : c.toLower = d ↔ c = d := by
  unfold Char.toLower
  split
  · next hupper =>
    have hlow : 65 ≤ c.toNat := UInt32.le_iff_toNat_le.mp hupper.1
    have hhigh : c.toNat ≤ 90 := UInt32.le_iff_toNat_le.mp hupper.2
    constructor
    · intro h
      subst h
      have hval : (c.val + ('a'.val - 'A'.val)).toNat = (c.toNat + 32) % 2 ^ 32 := by
        rw [UInt32.toNat_add]
        rfl
      have hnat : (c.toNat + 32) % 2 ^ 32 < 65 := hval ▸ hd
      omega
    · intro h
      subst h
      omega
  · exact Iff.rfl

/-- The lower case of the letters `A` to `Z`. -/
def asciiLowerCase : LowerCase where
  apply := List.map Char.toLower
  slash a b := by
    rw [List.map_append, List.map_cons]
    rfl
  slash_notMem a h := by
    intro hmem
    obtain ⟨c, hc, hlower⟩ := List.mem_map.mp hmem
    exact h ((toLower_eq_iff (by decide)).mp hlower ▸ hc)
  nil_iff a := List.map_eq_nil_iff
  dot_iff a := by
    rw [List.map_eq_singleton_iff]
    constructor
    · rintro ⟨c, rfl, hc⟩
      rw [(toLower_eq_iff (by decide)).mp hc]
    · rintro rfl
      exact ⟨'.', rfl, rfl⟩

end Collections
