import Orchestrator.Collections.Json
import Orchestrator.Collections.JsValue
import Orchestrator.Collections.StableSort
import Orchestrator.Execution.DryRun

/-!
# Fingerprints of capability sets

`capabilitySetFingerprint`: the digest of the authority fields of the capabilities that a plan
needs, each capability's lists sorted and the capabilities sorted by id with `localeCompare`.

* `normalizeAuthority`, `canonicalCapabilities`: the digested text;
* `uniqueCapabilities_perm`: the capabilities that permit an action of the plan, each once;
* `Faithful`: the fingerprint does not depend on the order of anything, and tells every change of
  authority;
* `fingerprint_faithful_iff`: it is faithful exactly if no two of these capabilities have ids that
  collate alike.
-/

namespace Orchestrator

open Collections

namespace CapabilityFingerprint

/-! ## The digested text -/

/-- The fields of a capability with its lists sorted. -/
def normalizeAuthority (cap : Capability) : Capability :=
  { cap with
    allowedActions := cap.allowedActions.insertionSort UpTo
    forbiddenActions := cap.forbiddenActions.insertionSort UpTo
    allowedEnvironments := cap.allowedEnvironments.insertionSort UpTo }

/-- The requirement's name in the source. -/
def requirementText : CapabilityApprovalRequirement → String
  | .none => "NONE"
  | .conditional => "CONDITIONAL"
  | .required => "REQUIRED"

/-- What `canonicalizeValue` makes of the fields of a capability: its keys in order. -/
def authorityTree (cap : Capability) : JsonTree :=
  let strings (texts : List String) : JsonTree := .array (texts.map .string)
  .object [
    ("allowedActions", strings cap.allowedActions),
    ("allowedEnvironments", strings cap.allowedEnvironments),
    ("approvalRequirement", .string (requirementText cap.approvalRequirement)),
    ("capabilityId", .string cap.capabilityId),
    ("enabled", .atom (JsValue.boolAtom cap.enabled)),
    ("forbiddenActions", strings cap.forbiddenActions),
    ("maximumRuntimeSeconds", .atom (Json.digitsAtom cap.maximumRuntimeSeconds)),
    ("version", .string cap.version)]

variable (X : External)

/-- `a.capabilityId.localeCompare(b.capabilityId) <= 0`. -/
def IdUpTo (a b : Capability) : Prop := X.localeLe a.capabilityId b.capabilityId = true

instance : DecidableRel (IdUpTo X) := fun a b =>
  inferInstanceAs (Decidable (X.localeLe a.capabilityId b.capabilityId = true))

/-- `JSON.stringify(canonicalizeValue(normalized))`. -/
def canonicalCapabilities (capabilities : List Capability) : String :=
  String.ofList (JsonTree.array
    (((capabilities.map normalizeAuthority).insertionSort (IdUpTo X)).map authorityTree)).text

/-- The surroundings of the service with this canonical form. -/
def withCanonicalCapabilities : External :=
  { X with canonicalCapabilities := canonicalCapabilities X }

/-- The fingerprint of the capabilities that the actions of a plan need. -/
def planFingerprint (actions : List String) (available : List Capability) : String :=
  capabilitySetFingerprint (withCanonicalCapabilities X)
    (uniqueCapabilitiesForPlanActions actions available)

/-! ## What the digested text tells -/

variable {X}

theorem requirementText_inj {r r' : CapabilityApprovalRequirement}
    (h : requirementText r = requirementText r') : r = r' := by
  revert h
  cases r <;> cases r' <;> decide

theorem authorityTree_inj {cap cap' : Capability} (h : authorityTree cap = authorityTree cap') :
    cap = cap' := by
  have hstrings : Function.Injective fun texts : List String => texts.map JsonTree.string :=
    List.map_injective_iff.mpr fun _ _ => JsonTree.string.inj
  obtain ⟨id, version, actions, forbidden, environments, requirement, runtime, enabled⟩ := cap
  obtain ⟨id', version', actions', forbidden', environments', requirement', runtime', enabled'⟩ :=
    cap'
  simp only [authorityTree, JsonTree.object.injEq, List.cons.injEq, Prod.mk.injEq,
    JsonTree.array.injEq, JsonTree.string.injEq, JsonTree.atom.injEq, true_and, and_true] at h
  obtain ⟨hactions, henvironments, hrequirement, rfl, henabled, hforbidden, hruntime, rfl⟩ := h
  obtain rfl := hstrings hactions
  obtain rfl := hstrings henvironments
  obtain rfl := hstrings hforbidden
  obtain rfl := requirementText_inj hrequirement
  obtain rfl := JsValue.boolAtom_inj henabled
  obtain rfl := toDigits_inj (congrArg AtomText.chars hruntime)
  rfl

/-- Equal fingerprints come from equal lists of sorted capabilities. -/
theorem planFingerprint_eq_iff (hX : Function.Injective X.sha256)
    {actions actions' : List String} {available available' : List Capability} :
    planFingerprint X actions available = planFingerprint X actions' available' ↔
      ((uniqueCapabilitiesForPlanActions actions available).map normalizeAuthority).insertionSort
          (IdUpTo X) =
        ((uniqueCapabilitiesForPlanActions actions' available').map
          normalizeAuthority).insertionSort (IdUpTo X) := by
  constructor
  · intro h
    have htext := JsonTree.text_inj (String.ofList_injective (hX h))
    exact List.map_injective_iff.mpr (fun _ _ => authorityTree_inj) (JsonTree.array.inj htext)
  · intro h
    show X.sha256 (canonicalCapabilities X _) = X.sha256 (canonicalCapabilities X _)
    rw [canonicalCapabilities, canonicalCapabilities, h]

/-! ## The capabilities of a plan -/

section Relevant

variable {actions : List String} {available : List Capability} {cap : Capability}

/-- The capabilities that permit one of the actions. -/
def relevant (actions : List String) (available : List Capability) : List Capability :=
  available.filter fun cap => ∃ action ∈ actions, action ∈ cap.allowedActions

theorem mem_relevant : cap ∈ relevant actions available ↔
    cap ∈ available ∧ ∃ action ∈ actions, action ∈ cap.allowedActions := by
  rw [relevant, List.mem_filter, decide_eq_true_eq]

/-- What the loops over the actions and the capabilities collect. -/
def collected (actions : List String) (available : List Capability) :
    List (String × Capability) :=
  (actions.flatMap fun action => available.filter fun cap => action ∈ cap.allowedActions).map
    fun cap => (cap.capabilityId, cap)

theorem mem_collected {id : String} : (id, cap) ∈ collected actions available ↔
    id = cap.capabilityId ∧ cap ∈ relevant actions available := by
  simp only [collected, List.mem_map, List.mem_flatMap, List.mem_filter, decide_eq_true_eq,
    Prod.mk.injEq, mem_relevant]
  constructor
  · rintro ⟨cap', ⟨action, haction, hcap, hallowed⟩, rfl, rfl⟩
    exact ⟨rfl, hcap, action, haction, hallowed⟩
  · rintro ⟨rfl, hcap, action, haction, hallowed⟩
    exact ⟨cap, ⟨action, haction, hcap, hallowed⟩, rfl, rfl⟩

theorem mem_unique (hids : (available.map (·.capabilityId)).Nodup) :
    cap ∈ uniqueCapabilitiesForPlanActions actions available ↔
      cap ∈ relevant actions available := by
  rw [uniqueCapabilitiesForPlanActions, ← collected, JsMap.mem_values]
  constructor
  · rintro ⟨id, hget⟩
    exact (mem_collected.mp ((JsMap.get_ofList_mem _ id).1 cap hget)).2
  · intro hcap
    have hmem : (cap.capabilityId, cap) ∈ collected actions available :=
      mem_collected.mpr ⟨rfl, hcap⟩
    obtain ⟨cap', hget⟩ := Option.isSome_iff_exists.mp
      ((JsMap.get_ofList_mem _ _).2 (List.mem_map_of_mem (f := Prod.fst) hmem))
    obtain ⟨hid, hcap'⟩ := mem_collected.mp ((JsMap.get_ofList_mem _ _).1 cap' hget)
    rw [List.inj_on_of_nodup_map hids (mem_relevant.mp hcap).1 (mem_relevant.mp hcap').1 hid]
    exact ⟨cap.capabilityId, hget⟩

/-- The map holds its capabilities under their ids. -/
theorem map_id_unique : (uniqueCapabilitiesForPlanActions actions available).map (·.capabilityId) =
    (JsMap.ofList (collected actions available)).keys := by
  rw [uniqueCapabilitiesForPlanActions, ← collected, JsMap.values, JsMap.keys, List.map_map]
  refine List.map_congr_left fun e he => ?_
  have hmem := (JsMap.get_ofList_mem _ e.1).1 e.2 (JsMap.get_eq_some.mpr he)
  exact (mem_collected.mp hmem).1.symm

/-- The capabilities that permit an action of the plan, each once. -/
theorem uniqueCapabilities_perm (hids : (available.map (·.capabilityId)).Nodup) :
    (uniqueCapabilitiesForPlanActions actions available).Perm (relevant actions available) := by
  have hunique : (uniqueCapabilitiesForPlanActions actions available).Nodup := by
    refine List.Nodup.of_map (·.capabilityId) ?_
    rw [map_id_unique]
    exact JsMap.keys_nodup _
  have hrelevant : (relevant actions available).Nodup := (List.Nodup.of_map _ hids).filter _
  rw [List.perm_ext_iff_of_nodup hunique hrelevant]
  exact fun cap => mem_unique hids

/-- A capability that permits the first action and is listed first comes first. -/
theorem unique_eq_cons {action : String} (later : List String)
    (hids : ((cap :: available).map (·.capabilityId)).Nodup)
    (hallowed : action ∈ cap.allowedActions) :
    ∃ rest, uniqueCapabilitiesForPlanActions (action :: later) (cap :: available) =
      cap :: rest := by
  have hcollected : ∃ es, collected (action :: later) (cap :: available) =
      (cap.capabilityId, cap) :: es := by
    rw [collected, List.flatMap_cons, List.filter_cons_of_pos (by simpa using hallowed)]
    exact ⟨_, rfl⟩
  obtain ⟨es, hes⟩ := hcollected
  have hkeys : [cap.capabilityId] <+:
      (JsMap.ofList (collected (action :: later) (cap :: available))).keys := by
    rw [hes]
    exact JsMap.keys_prefix_foldl_set es (JsMap.empty.set cap.capabilityId cap)
  obtain ⟨ids, hkeys⟩ := hkeys
  rw [← map_id_unique] at hkeys
  cases hunique : uniqueCapabilitiesForPlanActions (action :: later) (cap :: available) with
  | nil =>
    rw [hunique] at hkeys
    cases hkeys
  | cons first rest =>
    rw [hunique, List.map_cons] at hkeys
    have hfirst : first ∈ relevant (action :: later) (cap :: available) := by
      rw [← mem_unique hids, hunique]
      exact List.mem_cons_self
    have hsame := List.inj_on_of_nodup_map hids (mem_relevant.mp hfirst).1 List.mem_cons_self
      (List.cons.inj hkeys).1.symm
    exact ⟨rest, by rw [hsame]⟩

end Relevant

/-! ## When the fingerprint is faithful -/

section Faithful

variable {actions : List String} {available : List Capability} {cap cap' : Capability}

/-- The same capability with its lists in another order. -/
structure Rearranged (cap cap' : Capability) : Prop where
  capabilityId : cap.capabilityId = cap'.capabilityId
  version : cap.version = cap'.version
  allowedActions : cap.allowedActions.Perm cap'.allowedActions
  forbiddenActions : cap.forbiddenActions.Perm cap'.forbiddenActions
  allowedEnvironments : cap.allowedEnvironments.Perm cap'.allowedEnvironments
  approvalRequirement : cap.approvalRequirement = cap'.approvalRequirement
  maximumRuntimeSeconds : cap.maximumRuntimeSeconds = cap'.maximumRuntimeSeconds
  enabled : cap.enabled = cap'.enabled

/-- The same capabilities in another order, with their lists in another order. -/
def Reordered (available available' : List Capability) : Prop :=
  ∃ middle, available.Perm middle ∧ List.Forall₂ Rearranged middle available'

/-- The same authority: the lists are compared as sets. -/
structure SameAuthority (cap cap' : Capability) : Prop where
  capabilityId : cap.capabilityId = cap'.capabilityId
  version : cap.version = cap'.version
  allowedActions : ∀ action, action ∈ cap.allowedActions ↔ action ∈ cap'.allowedActions
  forbiddenActions : ∀ action, action ∈ cap.forbiddenActions ↔ action ∈ cap'.forbiddenActions
  allowedEnvironments : ∀ environment,
    environment ∈ cap.allowedEnvironments ↔ environment ∈ cap'.allowedEnvironments
  approvalRequirement : cap.approvalRequirement = cap'.approvalRequirement
  maximumRuntimeSeconds : cap.maximumRuntimeSeconds = cap'.maximumRuntimeSeconds
  enabled : cap.enabled = cap'.enabled

/-- The fingerprint of a plan's capabilities is the same in every order of the actions, of the
capabilities and of their lists, and another one where the capabilities that permit an action of
the plan, or the authority of one of them, are other ones. -/
structure Faithful (X : External) (actions : List String) (available : List Capability) :
    Prop where
  orderFree : ∀ actions' available', actions.Perm actions' → Reordered available available' →
    planFingerprint X actions' available' = planFingerprint X actions available
  sensitive : ∀ actions' available', (available'.map (·.capabilityId)).Nodup →
    planFingerprint X actions' available' = planFingerprint X actions available →
    (∀ cap ∈ relevant actions available, ∃ cap' ∈ relevant actions' available',
        SameAuthority cap cap') ∧
      ∀ cap' ∈ relevant actions' available', ∃ cap ∈ relevant actions available,
        SameAuthority cap cap'

/-- No two capabilities that permit an action of the plan have ids that collate alike. -/
def NoTies (X : External) (actions : List String) (available : List Capability) : Prop :=
  ∀ cap ∈ relevant actions available, ∀ cap' ∈ relevant actions available,
    X.localeLe cap.capabilityId cap'.capabilityId = true →
    X.localeLe cap'.capabilityId cap.capabilityId = true →
    cap.capabilityId = cap'.capabilityId

theorem normalizeAuthority_eq (h : Rearranged cap cap') :
    normalizeAuthority cap = normalizeAuthority cap' := by
  have hsort : ∀ {xs ys : List String}, xs.Perm ys →
      xs.insertionSort UpTo = ys.insertionSort UpTo := fun hperm =>
    insertionSort_eq_of_perm Std.Total.total (fun _ _ _ => IsTrans.trans _ _ _) hperm
      fun _ _ _ _ htied => htied.1.antisymm htied.2
  unfold normalizeAuthority
  rw [hsort h.allowedActions, hsort h.forbiddenActions, hsort h.allowedEnvironments]
  obtain ⟨_, _, _, _, _, _, _, _⟩ := cap
  obtain ⟨_, _, _, _, _, _, _, _⟩ := cap'
  obtain ⟨rfl, rfl, -, -, -, rfl, rfl, rfl⟩ := h
  rfl

theorem sameAuthority_of_normalized (h : normalizeAuthority cap = normalizeAuthority cap') :
    SameAuthority cap cap' := by
  have hsort : ∀ {xs ys : List String}, xs.insertionSort UpTo = ys.insertionSort UpTo →
      ∀ text, text ∈ xs ↔ text ∈ ys := by
    intro xs ys hxs text
    rw [← List.mem_insertionSort UpTo, hxs, List.mem_insertionSort]
  obtain ⟨_, _, _, _, _, _, _, _⟩ := cap
  obtain ⟨_, _, _, _, _, _, _, _⟩ := cap'
  simp only [normalizeAuthority, Capability.mk.injEq] at h
  obtain ⟨hid, hversion, hactions, hforbidden, henvironments, hrequirement, hruntime, henabled⟩ := h
  exact ⟨hid, hversion, hsort hactions, hsort hforbidden, hsort henvironments, hrequirement,
    hruntime, henabled⟩

theorem map_normalized_eq {middle available' : List Capability}
    (h : List.Forall₂ Rearranged middle available') :
    middle.map normalizeAuthority = available'.map normalizeAuthority := by
  induction h with
  | nil => rfl
  | cons hcap _ ih => rw [List.map_cons, List.map_cons, normalizeAuthority_eq hcap, ih]

theorem map_ids_eq {middle available' : List Capability}
    (h : List.Forall₂ Rearranged middle available') :
    middle.map (·.capabilityId) = available'.map (·.capabilityId) := by
  induction h with
  | nil => rfl
  | cons hcap _ ih => rw [List.map_cons, List.map_cons, hcap.capabilityId, ih]

/-- Which capabilities are relevant is a matter of the normalized fields. -/
theorem map_normalized_relevant (actions : List String) (available : List Capability) :
    (relevant actions available).map normalizeAuthority =
      relevant actions (available.map normalizeAuthority) := by
  rw [relevant, relevant, List.filter_map]
  congr 2
  funext cap
  simp [normalizeAuthority, List.mem_insertionSort]

theorem relevant_congr {actions actions' : List String} (h : actions.Perm actions')
    (available : List Capability) : relevant actions available = relevant actions' available := by
  simp only [relevant, h.mem_iff]

/-- Reordered inputs have the same relevant capabilities, normalized, in some order. -/
theorem normalized_perm {actions' : List String} {available' : List Capability}
    (hids : (available.map (·.capabilityId)).Nodup) (hactions : actions.Perm actions')
    (hreordered : Reordered available available') :
    ((uniqueCapabilitiesForPlanActions actions' available').map normalizeAuthority).Perm
      ((uniqueCapabilitiesForPlanActions actions available).map normalizeAuthority) := by
  obtain ⟨middle, hperm, hmiddle⟩ := hreordered
  have hids' : (available'.map (·.capabilityId)).Nodup := by
    rw [← map_ids_eq hmiddle]
    exact (hperm.map _).nodup_iff.mp hids
  calc ((uniqueCapabilitiesForPlanActions actions' available').map normalizeAuthority).Perm _ :=
        (uniqueCapabilities_perm hids').map _
    _ = (relevant actions middle).map normalizeAuthority := by
        rw [map_normalized_relevant, map_normalized_relevant, map_normalized_eq hmiddle,
          relevant_congr hactions]
    List.Perm _ ((relevant actions available).map normalizeAuthority) :=
        ((hperm.symm.filter _).map _)
    List.Perm _ _ := ((uniqueCapabilities_perm hids).map _).symm

/-- Two relevant capabilities that collate alike: some order of the inputs changes the
fingerprint. -/
theorem exists_order_of_tie (hX : Function.Injective X.sha256)
    (htotal : ∀ a b, X.localeLe a b = true ∨ X.localeLe b a = true)
    (htrans : ∀ a b c, X.localeLe a b = true → X.localeLe b c = true → X.localeLe a c = true)
    (hids : (available.map (·.capabilityId)).Nodup)
    (hcap : cap ∈ relevant actions available) (hcap' : cap' ∈ relevant actions available)
    (htied : Tied (IdUpTo X) (normalizeAuthority cap) (normalizeAuthority cap'))
    (hne : cap.capabilityId ≠ cap'.capabilityId) :
    ∃ actions' available', actions.Perm actions' ∧ available.Perm available' ∧
      planFingerprint X actions' available' ≠ planFingerprint X actions available := by
  have hfront : ∀ first ∈ relevant actions available, ∃ actions' available' rest,
      actions.Perm actions' ∧ available.Perm available' ∧
        uniqueCapabilitiesForPlanActions actions' available' = first :: rest := by
    intro first hfirst
    obtain ⟨havailable, action, haction, hallowed⟩ := mem_relevant.mp hfirst
    have hperm := List.perm_cons_erase havailable
    obtain ⟨rest, hrest⟩ := unique_eq_cons (actions.erase action)
      ((hperm.map _).nodup_iff.mp hids) hallowed
    exact ⟨_, _, rest, List.perm_cons_erase haction, hperm, hrest⟩
  have hmem : normalizeAuthority cap ∈
      (uniqueCapabilitiesForPlanActions actions available).map normalizeAuthority :=
    List.mem_map_of_mem ((mem_unique hids).mpr hcap)
  have hnormalized : normalizeAuthority cap ≠ normalizeAuthority cap' := fun h =>
    hne (sameAuthority_of_normalized h).capabilityId
  obtain ⟨z, hz, hchanged⟩ := exists_first_ne (fun a b => htotal a.capabilityId b.capabilityId)
    (fun a b c => htrans a.capabilityId b.capabilityId c.capabilityId) hmem htied hnormalized
  obtain ⟨first, hfirst, rfl⟩ : ∃ first ∈ relevant actions available,
      normalizeAuthority first = z := by
    rcases hz with rfl | rfl
    · exact ⟨cap, hcap, rfl⟩
    · exact ⟨cap', hcap', rfl⟩
  obtain ⟨actions', available', rest, hactions, havailable, hunique⟩ := hfront first hfirst
  refine ⟨actions', available', hactions, havailable, fun heq => ?_⟩
  rw [planFingerprint_eq_iff hX, hunique, List.map_cons] at heq
  exact hchanged _ heq

/-- Equal fingerprints: every relevant capability of the one plan is one of the other's. -/
theorem sameAuthority_of_fingerprint (hX : Function.Injective X.sha256)
    {actions' : List String} {available' : List Capability}
    (hids : (available.map (·.capabilityId)).Nodup)
    (hids' : (available'.map (·.capabilityId)).Nodup)
    (h : planFingerprint X actions available = planFingerprint X actions' available')
    (hcap : cap ∈ relevant actions available) :
    ∃ cap' ∈ relevant actions' available', SameAuthority cap cap' := by
  have hmem : normalizeAuthority cap ∈
      ((uniqueCapabilitiesForPlanActions actions available).map normalizeAuthority).insertionSort
        (IdUpTo X) := by
    rw [List.mem_insertionSort]
    exact List.mem_map_of_mem ((mem_unique hids).mpr hcap)
  rw [(planFingerprint_eq_iff hX).mp h, List.mem_insertionSort] at hmem
  obtain ⟨cap', hcap', hsame⟩ := List.mem_map.mp hmem
  exact ⟨cap', (mem_unique hids').mp hcap', sameAuthority_of_normalized hsame.symm⟩

/-- The fingerprint is faithful if and only if no two capabilities of the plan have ids that
collate alike: of those the sort keeps the order in which they came. -/
theorem fingerprint_faithful_iff (X : External) (actions : List String)
    (available : List Capability) (hX : Function.Injective X.sha256)
    (htotal : ∀ a b, X.localeLe a b = true ∨ X.localeLe b a = true)
    (htrans : ∀ a b c, X.localeLe a b = true → X.localeLe b c = true → X.localeLe a c = true)
    (hids : (available.map (·.capabilityId)).Nodup) :
    Faithful X actions available ↔ NoTies X actions available := by
  constructor
  · intro hfaithful cap hcap cap' hcap' hle hle'
    by_contra hne
    obtain ⟨actions', available', hactions, havailable, hchanged⟩ :=
      exists_order_of_tie hX htotal htrans hids hcap hcap' ⟨hle, hle'⟩ hne
    have hreordered : Reordered available available' :=
      ⟨available', havailable, List.forall₂_same.mpr fun cap _ =>
        ⟨rfl, rfl, .refl _, .refl _, .refl _, rfl, rfl, rfl⟩⟩
    exact hchanged (hfaithful.orderFree actions' available' hactions hreordered)
  · intro hties
    constructor
    · intro actions' available' hactions hreordered
      rw [planFingerprint_eq_iff hX]
      have hperm := normalized_perm hids hactions hreordered
      refine insertionSort_eq_of_perm (fun a b => htotal a.capabilityId b.capabilityId)
        (fun a b c => htrans a.capabilityId b.capabilityId c.capabilityId) hperm ?_
      intro a ha b hb htied
      obtain ⟨cap, hcap, rfl⟩ := List.mem_map.mp (hperm.mem_iff.mp ha)
      obtain ⟨cap', hcap', rfl⟩ := List.mem_map.mp (hperm.mem_iff.mp hb)
      rw [mem_unique hids] at hcap hcap'
      have hsame := hties cap hcap cap' hcap' htied.1 htied.2
      rw [List.inj_on_of_nodup_map hids (mem_relevant.mp hcap).1 (mem_relevant.mp hcap').1 hsame]
    · intro actions' available' hids' heq
      refine ⟨fun cap hcap => sameAuthority_of_fingerprint hX hids hids' heq.symm hcap, ?_⟩
      intro cap' hcap'
      obtain ⟨cap, hcap, hsame⟩ := sameAuthority_of_fingerprint hX hids' hids heq hcap'
      exact ⟨cap, hcap, ⟨hsame.capabilityId.symm, hsame.version.symm,
        fun a => (hsame.allowedActions a).symm, fun a => (hsame.forbiddenActions a).symm,
        fun e => (hsame.allowedEnvironments e).symm, hsame.approvalRequirement.symm,
        hsame.maximumRuntimeSeconds.symm, hsame.enabled.symm⟩⟩

end Faithful

/-! ## Two spellings of one id -/

/-- A letter with an acute accent in one character, for `e` with the accent after it. -/
private def composed : List Char → List Char
  | 'e' :: '\u0301' :: cs => 'é' :: composed cs
  | c :: cs => c :: composed cs
  | [] => []

/-- A collation that does not tell the two spellings apart. -/
private def collating : External :=
  { plainExternal with
    localeLe := fun a b =>
      decide (UpTo (String.ofList (composed a.toList)) (String.ofList (composed b.toList))) }

private def capability (capabilityId : String) (runtime : ℕ) : Capability where
  capabilityId := capabilityId
  version := "1"
  allowedActions := ["RUN_TESTS"]
  forbiddenActions := []
  allowedEnvironments := ["dev"]
  approvalRequirement := .none
  maximumRuntimeSeconds := runtime
  enabled := true

theorem fingerprint_faithful_two_ids :
    Faithful collating ["RUN_TESTS"] [capability "cap_b" 60, capability "cap_a" 60] :=
  (fingerprint_faithful_iff collating _ _ (fun _ _ h => h)
    (fun a b => by
      simp only [collating, decide_eq_true_eq]
      exact Std.Total.total _ _)
    (fun a b c => by
      simp only [collating, decide_eq_true_eq]
      exact IsTrans.trans _ _ _) (by decide)).mpr (by
    intro cap hcap cap' hcap' hle hle'
    simp only [collating, decide_eq_true_eq] at hle hle'
    have hsame := congrArg String.toList (hle.antisymm hle')
    rcases List.mem_pair.mp (mem_relevant.mp hcap).1 with rfl | rfl <;>
      rcases List.mem_pair.mp (mem_relevant.mp hcap').1 with rfl | rfl
    · rfl
    · exact absurd hsame (by decide)
    · exact absurd hsame (by decide)
    · rfl)

/-- Two ids that differ in how an accent is written: the fingerprint is another one when the
capabilities come in the other order. -/
theorem accent_unfaithful :
    ¬Faithful collating ["RUN_TESTS"] [capability "caf\u00e9" 60, capability "cafe\u0301" 90] := by
  intro hfaithful
  have hreordered : Reordered [capability "caf\u00e9" 60, capability "cafe\u0301" 90]
      [capability "cafe\u0301" 90, capability "caf\u00e9" 60] :=
    ⟨_, .swap _ _ _, List.forall₂_same.mpr fun cap _ =>
      ⟨rfl, rfl, .refl _, .refl _, .refl _, rfl, rfl, rfl⟩⟩
  have heq := hfaithful.orderFree ["RUN_TESTS"] _ (.refl _) hreordered
  rw [planFingerprint_eq_iff (X := collating) fun _ _ h => h] at heq
  exact absurd heq (by decide +kernel)

end CapabilityFingerprint

end Orchestrator
