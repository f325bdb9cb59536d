import Orchestrator.Decisions.StateResolution

/-!
# The identity of decision snapshots

* `Resolving.readings`: what a resolution reads, from its sources and its clock;
* `SameSnapshot`: two resolutions record alike, in the same order;
* `snapshotHash_eq_iff`: their snapshots then have the same hash, and not otherwise;
* `snapshot_identified_iff`: when snapshots are identified by their provenance alone.
-/

namespace Orchestrator.Decisions

open Collections Numbers

/-! ## What is read -/

/-- A variable, what its source answers, and the instant that is read if that is missing. -/
structure TimedObservation where
  variable_ : DecisionStateVariable
  observation : Option ResolvedStateObservation
  nowIso : String

/-- The observations with the readings of the clock. -/
def Resolving.timed (R : Resolving) :
    ℕ → List (DecisionStateVariable × Option ResolvedStateObservation) → List TimedObservation
  | _, [] => []
  | clock, (v, observation) :: rest =>
    ⟨v, observation, R.nowIso clock⟩ ::
      R.timed (if (presentValue observation).isNone then clock + 1 else clock) rest

/-- What is recorded of an observation, where nothing is thrown. -/
def TimedObservation.recorded (o : TimedObservation) : AppliedObservation :=
  match presentValue o.observation with
  | some (x, value) => ⟨some value, x.sourceId, x.sourceHash, x.observedAt, x.quality⟩
  | none =>
    match o.variable_.missingValuePolicy with
    | .useDefault =>
      missingRecord o.variable_ o.variable_.defaultValue "missing_default" o.nowIso
    | _ => missingRecord o.variable_ none "missing_null" o.nowIso

/-- The variables with what is recorded of them. -/
def Resolving.readings (R : Resolving) : List Reading :=
  (R.timed 1 R.observations).map fun o => (o.variable_, o.recorded)

/-- The latest reading of a variable. -/
def Resolving.reading (R : Resolving) (variableId : String) : Option Reading :=
  latest (fun r : Reading => r.1.variableId) R.readings variableId

variable {X : DecisionExternal} {R R' : Resolving} {s s' : DecisionStateSnapshot}

theorem applyObservation_ok {v : DecisionStateVariable}
    {observation : Option ResolvedStateObservation} {nowIso : String} {a : AppliedObservation}
    (h : applyObservation X R v observation nowIso = .ok a) :
    a = (TimedObservation.mk v observation nowIso).recorded := by
  unfold applyObservation at h
  unfold TimedObservation.recorded
  dsimp only at h ⊢
  cases hpresent : presentValue observation with
  | none =>
    rw [hpresent] at h
    dsimp only at h ⊢
    unfold applyMissing at h
    cases hpolicy : v.missingValuePolicy with
    | failClosed =>
      rw [hpolicy] at h
      exact nomatch h
    | noAction =>
      rw [hpolicy] at h
      exact (Except.ok.inj h).symm
    | useDefault =>
      rw [hpolicy] at h
      cases hdefault : v.defaultValue with
      | none =>
        rw [hdefault] at h
        exact nomatch h
      | some value =>
        rw [hdefault] at h
        exact (Except.ok.inj h).symm
  | some present =>
    obtain ⟨o, value⟩ := present
    rw [hpresent] at h
    dsimp only at h ⊢
    split_ifs at h
    split at h
    · exact nomatch h
    · exact (Except.ok.inj h).symm

theorem readVariables_ok {clock : ℕ}
    {observations : List (DecisionStateVariable × Option ResolvedStateObservation)}
    {readings : List Reading} (h : readVariables X R clock observations = .ok readings) :
    readings = (R.timed clock observations).map fun o => (o.variable_, o.recorded) := by
  induction observations generalizing clock readings with
  | nil => exact (Except.ok.inj h).symm
  | cons entry rest ih =>
    obtain ⟨v, observation⟩ := entry
    unfold readVariables at h
    cases happlied : applyObservation X R v observation (R.nowIso clock) with
    | error e =>
      rw [happlied] at h
      exact nomatch h
    | ok a =>
      rw [happlied] at h
      cases hrest : readVariables X R
          (if (presentValue observation).isNone then clock + 1 else clock) rest with
      | error e =>
        simp only [bind, Except.bind, hrest] at h
        exact nomatch h
      | ok rs =>
        simp only [bind, Except.bind, hrest, Except.ok.injEq] at h
        rw [← h, Resolving.timed, List.map_cons, ← ih hrest, ← applyObservation_ok happlied]

/-- A snapshot that is returned is that of the readings, and passes its schema. -/
theorem resolve_ok (h : resolve X R = .ok s) : s = snapshotOf X R R.readings ∧ s.issues = [] := by
  unfold resolve at h
  split at h
  · exact nomatch h
  · cases hread : readVariables X R 1 R.observations with
    | error e =>
      rw [hread] at h
      exact nomatch h
    | ok readings =>
      rw [hread] at h
      obtain rfl := readVariables_ok hread
      simp only [bind, Except.bind] at h
      split at h
      next hissues =>
        obtain rfl := Except.ok.inj h
        exact ⟨rfl, hissues⟩
      · exact nomatch h

theorem ids_readings : R.readings.map (fun r => r.1.variableId) =
    R.context.stateVariables.map (·.variableId) := by
  have htimed (clock : ℕ)
      (observations : List (DecisionStateVariable × Option ResolvedStateObservation)) :
      (R.timed clock observations).map (·.variable_) = observations.map Prod.fst := by
    induction observations generalizing clock with
    | nil => rfl
    | cons entry rest ih => rw [Resolving.timed, List.map_cons, List.map_cons, ih]
  have hvariables := htimed 1 R.observations
  rw [Resolving.observations, List.map_map] at hvariables
  have hfst : (Prod.fst ∘ fun v => (v, R.source v R.context.projectIds R.environment)) =
      (id : DecisionStateVariable → DecisionStateVariable) := rfl
  rw [hfst, List.map_id] at hvariables
  rw [Resolving.readings, List.map_map, ← hvariables, List.map_map]
  rfl

/-! ## Values and their text -/

/-- `a === b`, or both are missing. -/
def SameValue : Option DecisionValue → Option DecisionValue → Prop
  | none, none => True
  | some v, some w => v.strictEquals w = true
  | _, _ => False

/-- The value as JSON has it: numbers that are not finite are written as `null`. -/
def written : Option DecisionValue → Option DecisionValue
  | some (.number (.finite negative x)) => some (.number (.finite negative x))
  | some (.number _) => none
  | value => value

theorem finiteAtom_ne_null (negative : Bool) (x : Double) :
    JsValue.finiteAtom negative x ≠ .null :=
  JsValue.finiteAtom_ne (c := 'n') (by decide) (by decide)

/-- Values have the same text exactly if they are written as the same value. -/
theorem valueJson_tree_iff (a b : Option DecisionValue) :
    (valueJson a).toTree = (valueJson b).toTree ↔ SameValue (written a) (written b) := by
  have hnumber {negative negative' : Bool} {x x' : Double} :
      JsValue.finiteAtom negative x = JsValue.finiteAtom negative' x' ↔
        (JsNumber.finite negative x).unsignedZero = (JsNumber.finite negative' x').unsignedZero :=
    ⟨JsValue.finiteAtom_inj, fun h => JsValue.numberAtom_congr h⟩
  have hbool {b : Bool} {negative : Bool} {x : Double} :
      JsValue.finiteAtom negative x ≠ JsValue.boolAtom b :=
    JsValue.numberAtom_ne_boolAtom (.finite negative x) b
  have hbools {b b' : Bool} : JsValue.boolAtom b = JsValue.boolAtom b' ↔ b = b' :=
    ⟨JsValue.boolAtom_inj, fun h => h ▸ rfl⟩
  rcases a with _ | (t | (⟨negative, x⟩ | _ | _) | c) <;>
    rcases b with _ | (t' | (⟨negative', x'⟩ | _ | _) | c') <;>
    simp [valueJson, DecisionValue.toValue, JsValue.toTree, written, SameValue,
      DecisionValue.strictEquals, JsValue.numberAtom, hnumber, hbool, hbool.symm, hbools,
      finiteAtom_ne_null, (finiteAtom_ne_null _ _).symm, JsValue.boolAtom_ne_null,
      (JsValue.boolAtom_ne_null _).symm]

/-- The readings are written alike. -/
structure SameEntry (r r' : Reading) : Prop where
  value : SameValue (written r.2.value) (written r'.2.value)
  unit : r.1.unit = r'.1.unit
  sourceClass : r.1.sourceClass = r'.1.sourceClass
  sourceId : r.2.sourceId = r'.2.sourceId
  sourceHash : r.2.sourceHash = r'.2.sourceHash
  observedAt : r.2.observedAt = r'.2.observedAt
  quality : r.2.quality = r'.2.quality

/-- The variable ids, as a record of the snapshot lists them. -/
def Resolving.variableOrder (R : Resolving) : List String :=
  ownOrder (ownNames (R.context.stateVariables.map (·.variableId)))

/-- The resolutions record alike, in the same order. -/
structure SameSnapshot (R R' : Resolving) : Prop where
  order : R.variableOrder = R'.variableOrder
  entries : ∀ id ∈ R.variableOrder, ∀ r ∈ R.reading id, ∀ r' ∈ R'.reading id, SameEntry r r'

/-- The contexts differ in the order of variables and projects at most. -/
structure Permuted (R R' : Resolving) : Prop where
  decisionContextId : R.context.decisionContextId = R'.context.decisionContextId
  decisionContextVersion :
    R.context.decisionContextVersion = R'.context.decisionContextVersion
  environment : R.environment = R'.environment
  resolverVersion : R.resolverVersion = R'.resolverVersion
  projectIds : R.context.projectIds.Perm R'.context.projectIds
  stateVariables : R.context.stateVariables.Perm R'.context.stateVariables

/-! ## When hashes are equal -/

/-- The hashes of written values are equal exactly if the values are written alike. -/
theorem hash_inj (hX : Function.Injective X.sha256) {v v' : JsValue} (hv : v.toTree.isSome)
    (hv' : v'.toTree.isSome) : X.hash v = X.hash v' ↔ v.toTree = v'.toTree := by
  obtain ⟨j, hj⟩ := Option.isSome_iff_exists.mp hv
  obtain ⟨j', hj'⟩ := Option.isSome_iff_exists.mp hv'
  unfold DecisionExternal.hash
  rw [hX.eq_iff, ← JsValue.stringify_inj]
  unfold JsValue.stringify
  rw [hj, hj', Option.map_some, Option.map_some, Option.getD_some, Option.getD_some,
    Option.some_inj]

theorem sortedTexts_perm {xs ys : List String} (h : xs.Perm ys) :
    sortedTexts xs = sortedTexts ys := by
  have hsorted : xs.insertionSort UpTo = ys.insertionSort UpTo := by
    refine List.Perm.eq_of_pairwise (fun _ _ _ _ (hab : UpTo _ _) hba => hab.antisymm hba)
      (List.pairwise_insertionSort UpTo _) (List.pairwise_insertionSort UpTo _) ?_
    exact (List.perm_insertionSort UpTo xs).trans (h.trans (List.perm_insertionSort UpTo ys).symm)
  rw [sortedTexts, sortedTexts, hsorted]

/-- Records of the readings are written alike exactly if the variables come in the same order, and
what is recorded of each is written alike. -/
theorem jsRecord_iff {β : Type} (f : Reading → β) {json : β → JsValue}
    (hjson : ∀ b, (json b).toTree.isSome) :
    (jsRecord (table (fun r : Reading => r.1.variableId) f R.readings) json).toTree =
        (jsRecord (table (fun r : Reading => r.1.variableId) f R'.readings) json).toTree ↔
      R.variableOrder = R'.variableOrder ∧ ∀ id ∈ R.variableOrder,
        ∀ r ∈ R.reading id, ∀ r' ∈ R'.reading id, (json (f r)).toTree = (json (f r')).toTree := by
  have hnames (R : Resolving) : ownOrder (ownNames (R.readings.map fun r => r.1.variableId)) =
      R.variableOrder := by
    rw [ids_readings]
    rfl
  unfold jsRecord
  rw [mapValues_table, mapValues_table, table_tree_iff fun r => hjson (f r), hnames, hnames]
  refine and_congr_right fun horder => forall_congr' fun id => ?_
  rw [← mem_ownOrder, hnames]
  refine forall_congr' fun hid => ?_
  have hread (R : Resolving) (hid : id ∈ R.variableOrder) : ∃ r, R.reading id = some r := by
    refine latest_isSome.mpr ?_
    rw [← hnames, mem_ownOrder, ownNames, List.mem_eraseDups, List.mem_filter] at hid
    exact hid.1
  obtain ⟨r, hr⟩ := hread R hid
  obtain ⟨r', hr'⟩ := hread R' (horder ▸ hid)
  change (R.reading id).bind _ = (R'.reading id).bind _ ↔ _
  rw [hr, hr']
  simp

theorem SameSnapshot.iff_fields : SameSnapshot R R' ↔ R.variableOrder = R'.variableOrder ∧
    ∀ id ∈ R.variableOrder, ∀ r ∈ R.reading id, ∀ r' ∈ R'.reading id, SameEntry r r' :=
  ⟨fun h => ⟨h.order, h.entries⟩, fun h => ⟨h.1, h.2⟩⟩

theorem QuantityUnit.text_inj {u u' : QuantityUnit} (h : u.text = u'.text) : u = u' := by
  revert h
  cases u <;> cases u' <;> decide

theorem StateSourceClass.text_inj {c c' : StateSourceClass} (h : c.text = c'.text) : c = c' := by
  revert h
  cases c <;> cases c' <;> decide

theorem MeasurementQuality.text_inj {q q' : MeasurementQuality} (h : q.text = q'.text) :
    q = q' := by
  revert h
  cases q <;> cases q' <;> decide

/-- The snapshots of permuted contexts have the same hash exactly if they record alike, in the same
order. -/
theorem snapshotHash_eq_iff (hX : Function.Injective X.sha256) (hperm : Permuted R R')
    (h : resolve X R = .ok s) (h' : resolve X R' = .ok s') :
    s.snapshotHash = s'.snapshotHash ↔ SameSnapshot R R' := by
  obtain ⟨rfl, _⟩ := resolve_ok h
  obtain ⟨rfl, _⟩ := resolve_ok h'
  have hids := hperm.stateVariables.map (·.variableId)
  have hstring {a b : String} : (JsValue.string a).toTree = (JsValue.string b).toTree ↔ a = b := by
    simp [JsValue.toTree]
  have hvalue (a : Option DecisionValue) : (valueJson a).toTree.isSome := by
    rcases a with _ | (_ | _ | _) <;> rfl
  change X.hash (snapshotJson _) = X.hash (snapshotJson _) ↔ _
  rw [hash_inj hX rfl rfl]
  unfold snapshotJson
  dsimp only
  rw [JsValue.toTree, JsValue.toTree, Option.some_inj, JsonTree.object.injEq]
  iterate 14 rw [fieldTrees_cons_inj rfl rfl]
  rw [← hperm.decisionContextId, ← hperm.decisionContextVersion, ← hperm.environment,
    ← hperm.resolverVersion, sortedTexts_perm hperm.projectIds, sortedTexts_perm hids,
    jsRecord_iff _ hvalue, jsRecord_iff _ fun _ => rfl, jsRecord_iff _ fun _ => rfl,
    jsRecord_iff _ fun _ => rfl, jsRecord_iff _ fun _ => rfl, jsRecord_iff _ fun _ => rfl,
    jsRecord_iff _ fun _ => rfl]
  have hconfig : computeResolverConfigHash X R.resolverVersion
      (R.context.stateVariables.map (·.variableId)) = computeResolverConfigHash X R.resolverVersion
      (R'.context.stateVariables.map (·.variableId)) := by
    unfold computeResolverConfigHash
    rw [sortedTexts_perm hids]
  rw [hconfig, SameSnapshot.iff_fields]
  simp only [hstring, valueJson_tree_iff, true_and, and_true]
  constructor
  · rintro ⟨⟨horder, hvalues⟩, ⟨_, hunits⟩, ⟨_, hclasses⟩, ⟨_, hsources⟩, ⟨_, hhashes⟩, ⟨_, hinstants⟩,
      _, hqualities⟩
    exact ⟨horder, fun id hid r hr r' hr' => ⟨hvalues id hid r hr r' hr',
      QuantityUnit.text_inj (hunits id hid r hr r' hr'),
      StateSourceClass.text_inj (hclasses id hid r hr r' hr'), hsources id hid r hr r' hr',
      hhashes id hid r hr r' hr', hinstants id hid r hr r' hr',
      MeasurementQuality.text_inj (hqualities id hid r hr r' hr')⟩⟩
  · rintro ⟨horder, hentries⟩
    exact ⟨⟨horder, fun id hid r hr r' hr' => (hentries id hid r hr r' hr').value⟩,
      ⟨horder, fun id hid r hr r' hr' => by rw [(hentries id hid r hr r' hr').unit]⟩,
      ⟨horder, fun id hid r hr r' hr' => by rw [(hentries id hid r hr r' hr').sourceClass]⟩,
      ⟨horder, fun id hid r hr r' hr' => (hentries id hid r hr r' hr').sourceId⟩,
      ⟨horder, fun id hid r hr r' hr' => (hentries id hid r hr r' hr').sourceHash⟩,
      ⟨horder, fun id hid r hr r' hr' => (hentries id hid r hr r' hr').observedAt⟩,
      horder, fun id hid r hr r' hr' => by rw [(hentries id hid r hr r' hr').quality]⟩

/-! ## Identity by provenance -/

/-- The sources answer alike for every variable. -/
def SameObservations (R R' : Resolving) : Prop :=
  ∀ v ∈ R.context.stateVariables,
    R.source v R.context.projectIds R.environment =
      R'.source v R'.context.projectIds R'.environment

/-- The snapshots have the same values, sources and source hashes. -/
structure SameFacts (s s' : DecisionStateSnapshot) : Prop where
  values : ∀ id, Option.Rel SameValue (s.values.get id) (s'.values.get id)
  sourceIdentities : ∀ id, s.sourceIdentities.get id = s'.sourceIdentities.get id
  sourceHashes : ∀ id, s.sourceHashes.get id = s'.sourceHashes.get id

/-- Snapshots are identified by what was observed: by nothing else, and by all of it; a
recommendation that was made of them is made again. -/
structure IdentifiedByProvenance (X : DecisionExternal) (collation : Collation) (R R' : Resolving)
    (s s' : DecisionStateSnapshot) : Prop where
  same : SameObservations R R' → s.snapshotHash = s'.snapshotHash
  different : ¬SameFacts s s' → s.snapshotHash ≠ s'.snapshotHash
  repeats : R.context = R'.context → SameObservations R R' →
    ∀ policy createdAt createdAt' stored recommendation stored',
      recommend X collation policy R createdAt stored = .ok (recommendation, stored') →
        recommend X collation policy R' createdAt' stored' = .ok (recommendation, stored')

/-- A number that is not finite. -/
def Unbounded (value : Option DecisionValue) : Prop :=
  ∃ negative, value = some (.number (.infinity negative))

/-- Where a variable is an infinite number in one resolution, it is the same in the other. -/
def UnboundedAlike (R R' : Resolving) : Prop :=
  ∀ id ∈ R.variableOrder, ∀ r ∈ R.reading id, ∀ r' ∈ R'.reading id,
    Unbounded r.2.value ∨ Unbounded r'.2.value → SameValue r.2.value r'.2.value

theorem sameValue_of_written {a b : Option DecisionValue} (h : SameValue (written a) (written b))
    (ha : a ≠ some (.number .nan)) (hb : b ≠ some (.number .nan))
    (hbounded : Unbounded a ∨ Unbounded b → SameValue a b) : SameValue a b := by
  rcases a with _ | (_ | (_ | negative | _) | _) <;>
    rcases b with _ | (_ | (_ | negative' | _) | _) <;>
    first
    | exact h
    | exact absurd rfl ha
    | exact absurd rfl hb
    | exact hbounded (.inl ⟨_, rfl⟩)
    | exact hbounded (.inr ⟨_, rfl⟩)

theorem mem_variableOrder {id : String} :
    id ∈ R.variableOrder ↔ id ≠ "__proto__" ∧ ∃ r, R.reading id = some r := by
  unfold Resolving.variableOrder Resolving.reading
  rw [mem_ownOrder, ownNames, List.mem_eraseDups, List.mem_filter, decide_eq_true_eq, and_comm,
    latest_isSome, ids_readings]

/-- A record of the snapshot holds what the latest reading of each variable has. -/
theorem get_record {β : Type} (f : Reading → β) (id : String) :
    (table (fun r : Reading => r.1.variableId) f R.readings).get id =
      if id ∈ R.variableOrder then (R.reading id).map f else none := by
  rw [get_table]
  by_cases hid : id ∈ R.variableOrder
  · rw [if_pos hid, if_neg (mem_variableOrder.mp hid).1]
    rfl
  · rw [if_neg hid]
    by_cases hproto : id = "__proto__"
    · rw [if_pos hproto]
    · rw [if_neg hproto]
      cases hr : R.reading id with
      | none => exact congrArg (Option.map f) hr
      | some r => exact absurd (mem_variableOrder.mpr ⟨hproto, r, hr⟩) hid

/-- No value of a snapshot is NaN. -/
theorem ne_nan (h : resolve X R = .ok s) {id : String} (hid : id ∈ R.variableOrder) {r : Reading}
    (hr : R.reading id = some r) : r.2.value ≠ some (.number .nan) := by
  obtain ⟨rfl, hissues⟩ := resolve_ok h
  intro hnan
  unfold DecisionStateSnapshot.issues at hissues
  simp only [List.append_eq_nil_iff] at hissues
  obtain ⟨⟨⟨⟨⟨⟨⟨_, hvalues⟩, _⟩, _⟩, _⟩, _⟩, _⟩, _⟩ := hissues
  have hget := get_record (R := R) (·.2.value) id
  rw [if_pos hid, hr, Option.map_some, hnan] at hget
  have hmem : some (DecisionValue.number .nan) ∈ (snapshotOf X R R.readings).values.values :=
    JsMap.mem_values.mpr ⟨id, hget⟩
  rw [if_pos (List.contains_iff_mem.mpr hmem)] at hvalues
  exact nomatch hvalues

/-- Snapshots that are written alike have the same facts where infinite numbers are. -/
theorem sameFacts_iff (hsame : SameSnapshot R R') (h : resolve X R = .ok s)
    (h' : resolve X R' = .ok s') : SameFacts s s' ↔ UnboundedAlike R R' := by
  have hnan {id : String} (hid : id ∈ R.variableOrder) {r : Reading} (hr : R.reading id = some r) :=
    ne_nan h hid hr
  have hnan' {id : String} (hid : id ∈ R.variableOrder) {r' : Reading}
      (hr' : R'.reading id = some r') := ne_nan h' (hsame.order ▸ hid) hr'
  obtain ⟨rfl, _⟩ := resolve_ok h
  obtain ⟨rfl, _⟩ := resolve_ok h'
  have hread {id : String} (hid : id ∈ R.variableOrder) : ∃ r r', R.reading id = some r ∧
      R'.reading id = some r' ∧ SameEntry r r' := by
    obtain ⟨_, r, hr⟩ := mem_variableOrder.mp hid
    obtain ⟨_, r', hr'⟩ := mem_variableOrder.mp (hsame.order ▸ hid)
    exact ⟨r, r', hr, hr', hsame.entries id hid r hr r' hr'⟩
  constructor
  · intro hfacts id hid r hr r' hr' _
    have hvalue := hfacts.values id
    change Option.Rel SameValue ((table _ _ R.readings).get id) ((table _ _ R'.readings).get id)
      at hvalue
    rw [get_record, get_record, if_pos hid, if_pos (hsame.order ▸ hid), hr, hr'] at hvalue
    exact Option.rel_some_some.mp hvalue
  · intro halike
    have hsameOf {β : Type} (f : Reading → β) (hf : ∀ r r', SameEntry r r' → f r = f r')
        (id : String) : (table (fun r : Reading => r.1.variableId) f R.readings).get id =
        (table (fun r : Reading => r.1.variableId) f R'.readings).get id := by
      rw [get_record, get_record, ← hsame.order]
      split
      next hid =>
        obtain ⟨r, r', hr, hr', hentry⟩ := hread hid
        rw [hr, hr', Option.map_some, Option.map_some, hf r r' hentry]
      · rfl
    refine ⟨fun id => ?_, hsameOf _ fun _ _ h => h.sourceId, hsameOf _ fun _ _ h => h.sourceHash⟩
    change Option.Rel SameValue ((table _ _ R.readings).get id) ((table _ _ R'.readings).get id)
    rw [get_record, get_record, ← hsame.order]
    split
    next hid =>
      obtain ⟨r, r', hr, hr', hentry⟩ := hread hid
      rw [hr, hr']
      exact .some (sameValue_of_written hentry.value (hnan hid hr) (hnan' hid hr')
        (halike id hid r hr r' hr'))
    · exact .none

/-! ## Recommendations that are made again -/

/-- The value that is recorded does not depend on the clock. -/
theorem recorded_value (v : DecisionStateVariable) (observation : Option ResolvedStateObservation)
    (nowIso nowIso' : String) : (TimedObservation.mk v observation nowIso).recorded.value =
      (TimedObservation.mk v observation nowIso').recorded.value := by
  unfold TimedObservation.recorded
  dsimp only
  cases presentValue observation with
  | some present => rfl
  | none => cases v.missingValuePolicy <;> rfl

theorem values_timed (clock clock' : ℕ)
    (observations : List (DecisionStateVariable × Option ResolvedStateObservation)) :
    (R.timed clock observations).map (fun o => (o.variable_.variableId, o.recorded.value)) =
      (R'.timed clock' observations).map fun o =>
        (o.variable_.variableId, o.recorded.value) := by
  induction observations generalizing clock clock' with
  | nil => rfl
  | cons entry rest ih =>
    rw [Resolving.timed, Resolving.timed, List.map_cons, List.map_cons, ih,
      recorded_value _ _ (R.nowIso clock) (R'.nowIso clock')]

/-- Where the sources answer alike, one context has the same values at every time. -/
theorem values_eq (hcontext : R.context = R'.context) (henvironment : R.environment = R'.environment)
    (hsources : SameObservations R R') :
    (snapshotOf X R R.readings).values = (snapshotOf X R' R'.readings).values := by
  have hobservations : R.observations = R'.observations := by
    unfold Resolving.observations
    rw [← hcontext, ← henvironment]
    refine List.map_congr_left fun v hv => ?_
    rw [hsources v hv, ← hcontext, ← henvironment]
  change table (fun r : Reading => r.1.variableId) (·.2.value) R.readings =
    table (fun r : Reading => r.1.variableId) (·.2.value) R'.readings
  rw [← table_map, ← @table_map _ _ (fun r : Reading => r.1.variableId) (·.2.value) R'.readings]
  unfold Resolving.readings
  rw [List.map_map, List.map_map, ← hobservations]
  exact congrArg _ (values_timed 1 1 R.observations)

/-- In the same state, the recommendation that is stored is made again. -/
theorem recommend_again {collation : Collation} {policy : ActivePolicy}
    {createdAt createdAt' : String} {stored stored' : Recommendations}
    {recommendation : DecisionRecommendation} (hcontext : R.context = R'.context)
    (hhash : s.snapshotHash = s'.snapshotHash) (hvalues : s.values = s'.values)
    (h : resolve X R = .ok s) (h' : resolve X R' = .ok s')
    (hmade : recommend X collation policy R createdAt stored = .ok (recommendation, stored')) :
    recommend X collation policy R' createdAt' stored' = .ok (recommendation, stored') := by
  unfold recommend at hmade ⊢
  rw [h] at hmade
  rw [h']
  simp only [bind, Except.bind] at hmade ⊢
  rw [← hcontext, ← hvalues, ← hhash]
  split at hmade
  · exact nomatch hmade
  next heligible =>
    rw [if_neg heligible]
    split at hmade
    next existing hexisting =>
      obtain ⟨rfl, rfl⟩ := Prod.mk.inj (Except.ok.inj hmade)
      rw [hexisting]
    · obtain ⟨rfl, rfl⟩ := Prod.mk.inj (Except.ok.inj hmade)
      -- what was saved is found under its identity
      have hsaved {r : DecisionRecommendation} :
          (stored.save r).getById r.recommendationHash = some r :=
        Repository.getById_save_self stored r
      rw [hsaved]

/-! ## Distinct variables -/

/-- A variable that is missing in both resolutions reads the same instant. -/
def SameInstants (R R' : Resolving) : Prop :=
  ∀ o ∈ R.timed 1 R.observations, ∀ o' ∈ R'.timed 1 R'.observations, o.variable_ = o'.variable_ →
    o.variable_.variableId ≠ "__proto__" → presentValue o.observation = none → o.nowIso = o'.nowIso

theorem mem_timed {o : TimedObservation} (ho : o ∈ R.timed 1 R.observations) :
    o.variable_ ∈ R.context.stateVariables ∧
      o.observation = R.source o.variable_ R.context.projectIds R.environment := by
  have hmem (clock : ℕ)
      (observations : List (DecisionStateVariable × Option ResolvedStateObservation))
      (ho : o ∈ R.timed clock observations) : (o.variable_, o.observation) ∈ observations := by
    induction observations generalizing clock with
    | nil => exact nomatch ho
    | cons entry rest ih =>
      rcases List.mem_cons.mp ho with rfl | ho
      · exact List.mem_cons_self
      · exact List.mem_cons_of_mem _ (ih _ ho)
  obtain ⟨v, hv, heq⟩ := List.mem_map.mp (hmem 1 _ ho)
  obtain ⟨rfl, hobservation⟩ := Prod.mk.inj heq
  exact ⟨hv, hobservation.symm⟩

theorem reading_of_mem (hnodup : (R.context.stateVariables.map (·.variableId)).Nodup)
    {o : TimedObservation} (ho : o ∈ R.timed 1 R.observations) :
    R.reading o.variable_.variableId = some (o.variable_, o.recorded) := by
  rw [← ids_readings] at hnodup
  have hmem : (o.variable_, o.recorded) ∈ R.readings := List.mem_map.mpr ⟨o, ho, rfl⟩
  exact latest_of_nodup hnodup hmem

theorem mem_of_reading {id : String} {r : Reading} (hr : R.reading id = some r) :
    ∃ o ∈ R.timed 1 R.observations, r = (o.variable_, o.recorded) ∧ o.variable_.variableId = id := by
  obtain ⟨hmem, hid⟩ := latest_mem hr
  obtain ⟨o, ho, rfl⟩ := List.mem_map.mp hmem
  exact ⟨o, ho, rfl, hid⟩

/-- What is missing is recorded at the instant that was read. -/
theorem observedAt_of_missing {o : TimedObservation} (h : presentValue o.observation = none) :
    o.recorded.observedAt = o.nowIso := by
  unfold TimedObservation.recorded
  rw [h]
  dsimp only
  split <;> rfl

/-- Of what is there nothing is recorded but the observation. -/
theorem recorded_of_present {v : DecisionStateVariable}
    {observation : Option ResolvedStateObservation} (h : presentValue observation ≠ none)
    (nowIso nowIso' : String) : (TimedObservation.mk v observation nowIso).recorded =
      (TimedObservation.mk v observation nowIso').recorded := by
  unfold TimedObservation.recorded
  dsimp only
  split
  · rfl
  next hnone => exact absurd hnone h

theorem SameEntry.refl (r : Reading) : SameEntry r r :=
  ⟨valueJson_tree_iff _ _ |>.mp rfl, rfl, rfl, rfl, rfl, rfl, rfl⟩

/-- Distinct variables whose sources answer alike are recorded alike exactly if the missing ones read
the same instants. -/
theorem sameSnapshot_iff (hperm : Permuted R R') (hsources : SameObservations R R')
    (hnodup : (R.context.stateVariables.map (·.variableId)).Nodup) :
    SameSnapshot R R' ↔ R.variableOrder = R'.variableOrder ∧ SameInstants R R' := by
  have hnodup' : (R'.context.stateVariables.map (·.variableId)).Nodup :=
    (hperm.stateVariables.map _).nodup_iff.mp hnodup
  have hobservation {o o' : TimedObservation} (ho : o ∈ R.timed 1 R.observations)
      (ho' : o' ∈ R'.timed 1 R'.observations) (hv : o.variable_ = o'.variable_) :
      o.observation = o'.observation := by
    rw [(mem_timed ho).2, (mem_timed ho').2, hsources _ (mem_timed ho).1, hv]
  constructor
  · intro hsame
    refine ⟨hsame.order, fun o ho o' ho' hv hproto hmissing => ?_⟩
    have hr := reading_of_mem hnodup ho
    have hr' := reading_of_mem hnodup' ho'
    rw [← hv] at hr'
    have hentry := hsame.entries _ (mem_variableOrder.mpr ⟨hproto, _, hr⟩) _ hr _ hr'
    have hmissing' : presentValue o'.observation = none := hobservation ho ho' hv ▸ hmissing
    rw [← observedAt_of_missing hmissing, ← observedAt_of_missing hmissing']
    exact hentry.observedAt
  · rintro ⟨horder, hinstants⟩
    refine ⟨horder, fun id hid r hr r' hr' => ?_⟩
    obtain ⟨⟨v, observation, nowIso⟩, ho, rfl, hid⟩ := mem_of_reading hr
    obtain ⟨⟨v', observation', nowIso'⟩, ho', rfl, hid'⟩ := mem_of_reading hr'
    have hv' : v' ∈ R.context.stateVariables := hperm.stateVariables.mem_iff.mpr (mem_timed ho').1
    obtain rfl : v = v' :=
      List.inj_on_of_nodup_map hnodup (mem_timed ho).1 hv' (hid.trans hid'.symm)
    obtain rfl : observation = observation' := hobservation ho ho' rfl
    by_cases hmissing : presentValue observation = none
    · have hproto : v.variableId ≠ "__proto__" := hid ▸ (mem_variableOrder.mp ‹_›).1
      obtain rfl : nowIso = nowIso' := hinstants _ ho _ ho' rfl hproto hmissing
      exact .refl _
    · rw [recorded_of_present hmissing nowIso nowIso']
      exact .refl _

/-! ## Identity -/

/-- Snapshots are identified by their provenance exactly if what is recorded of the same observations
is written alike, in the same order, and no infinite number is written as another value is. Distinct
variables are recorded alike exactly if they come in the same order and the missing ones read the
same instants. -/
theorem snapshot_identified_iff {collation : Collation} (hX : Function.Injective X.sha256)
    (hperm : Permuted R R') (h : resolve X R = .ok s) (h' : resolve X R' = .ok s') :
    (IdentifiedByProvenance X collation R R' s s' ↔
      (SameObservations R R' → SameSnapshot R R') ∧ (SameSnapshot R R' → UnboundedAlike R R')) ∧
    ((R.context.stateVariables.map (·.variableId)).Nodup → SameObservations R R' →
      (SameSnapshot R R' ↔ R.variableOrder = R'.variableOrder ∧ SameInstants R R')) := by
  have hhash := snapshotHash_eq_iff hX hperm h h'
  refine ⟨⟨fun hid => ⟨fun hsources => hhash.mp (hid.same hsources), fun hsame => ?_⟩, ?_⟩,
    fun hnodup hsources => sameSnapshot_iff hperm hsources hnodup⟩
  · by_contra hunbounded
    exact hid.different (fun hfacts => hunbounded ((sameFacts_iff hsame h h').mp hfacts))
      (hhash.mpr hsame)
  · rintro ⟨hsame, hunbounded⟩
    refine ⟨fun hsources => hhash.mpr (hsame hsources), fun hfacts heq => ?_, ?_⟩
    · have halike := hhash.mp heq
      exact hfacts ((sameFacts_iff halike h h').mpr (hunbounded halike))
    · intro hcontext hsources policy createdAt createdAt' stored recommendation stored' hmade
      have hvalues : s.values = s'.values := by
        rw [(resolve_ok h).1, (resolve_ok h').1]
        exact values_eq hcontext hperm.environment hsources
      exact recommend_again hcontext (hhash.mpr (hsame hsources)) hvalues h h' hmade

/-- A digest under which no two texts collide. -/
def markedExternal : DecisionExternal where
  sha256 text := "h" ++ text
  slice24 digest := digest
  dateParse _ := 0

/-- The users of a context, who are not counted yet, read at an instant. -/
def activeUsersAt (nowIso : String) : Resolving where
  context :=
    { decisionContextId := "ctx"
      contextHash := "hash"
      projectIds := ["web"]
      environmentScope := ["prod"]
      stateVariables := [{ variableId := "active_users", missingValuePolicy := .noAction }]
      eligibleActions := [⟨"hold"⟩] }
  environment := "prod"
  source _ _ _ := none
  nowIso _ := nowIso

theorem markedExternal_injective : Function.Injective markedExternal.sha256 := by
  intro text text' h
  have hlist := congrArg String.toList h
  simp only [markedExternal, String.toList_append, List.append_cancel_left_eq] at hlist
  exact String.toList_inj.mp hlist

theorem readings_activeUsers (nowIso : String) : (activeUsersAt nowIso).readings =
    [({ variableId := "active_users", missingValuePolicy := .noAction },
      ⟨none, "missing:active_users", "missing_null", nowIso, .unknown⟩)] := rfl

theorem resolve_activeUsers (nowIso : String) : resolve markedExternal (activeUsersAt nowIso) =
    .ok (snapshotOf markedExternal (activeUsersAt nowIso) (activeUsersAt nowIso).readings) := by
  have hhash (v : JsValue) : markedExternal.hash v ≠ "" := by
    intro h
    have hlist := congrArg String.toList h
    simp [DecisionExternal.hash, markedExternal] at hlist
  have hissues : (snapshotOf markedExternal (activeUsersAt nowIso)
      (activeUsersAt nowIso).readings).issues = [] := by
    rw [readings_activeUsers]
    simp [DecisionStateSnapshot.issues, snapshotOf, minOne, positive, someTextItems, textItems,
      activeUsersAt, computeAuthoritativeSnapshotHash, computeResolverConfigHash, hhash, table,
      putOwn, JsMap.values, JsMap.set, setEntry, JsMap.empty]
  have hread : readVariables markedExternal (activeUsersAt nowIso) 1
      (activeUsersAt nowIso).observations = .ok (activeUsersAt nowIso).readings := rfl
  unfold resolve
  rw [if_neg (by simp [activeUsersAt]), hread]
  simp only [bind, Except.bind]
  rw [if_pos hissues]

theorem reading_activeUsers (nowIso : String) : (activeUsersAt nowIso).reading "active_users" =
    some ({ variableId := "active_users", missingValuePolicy := .noAction },
      ⟨none, "missing:active_users", "missing_null", nowIso, .unknown⟩) := rfl

theorem permuted_activeUsers (nowIso nowIso' : String) :
    Permuted (activeUsersAt nowIso) (activeUsersAt nowIso') :=
  ⟨rfl, rfl, rfl, rfl, .refl _, .refl _⟩

theorem mem_variableOrder_activeUsers {nowIso id : String} :
    id ∈ (activeUsersAt nowIso).variableOrder ↔ id = "active_users" := by
  unfold Resolving.variableOrder
  rw [mem_ownOrder]
  simp [ownNames, activeUsersAt]

/-- Where the clock shows the same, the missing users are identified by their provenance. -/
theorem snapshot_identified_activeUsers : ∃ s : DecisionStateSnapshot,
    resolve markedExternal (activeUsersAt "2026-01-01T00:00:00.000Z") = .ok s ∧
      IdentifiedByProvenance markedExternal anyOrder (activeUsersAt "2026-01-01T00:00:00.000Z")
        (activeUsersAt "2026-01-01T00:00:00.000Z") s s := by
  have h := resolve_activeUsers "2026-01-01T00:00:00.000Z"
  refine ⟨_, h, ((snapshot_identified_iff markedExternal_injective (permuted_activeUsers _ _) h
    h).1.mpr ⟨fun _ => ⟨rfl, fun id _ r hr r' hr' => ?_⟩, fun _ id hid r hr r' hr' _ => ?_⟩)⟩
  · rw [hr] at hr'
    obtain rfl := Option.some.inj hr'
    exact .refl r
  · obtain rfl := mem_variableOrder_activeUsers.mp hid
    rw [reading_activeUsers] at hr hr'
    obtain rfl := Option.some.inj hr
    obtain rfl := Option.some.inj hr'
    exact trivial

/-- A missing variable is hashed with the instant at which it was found to be missing. -/
theorem snapshot_hashes_clock : ∃ s s' : DecisionStateSnapshot,
    resolve markedExternal (activeUsersAt "2026-01-01T00:00:00.000Z") = .ok s ∧
    resolve markedExternal (activeUsersAt "2026-01-01T00:00:01.000Z") = .ok s' ∧
    Function.Injective markedExternal.sha256 ∧
    Permuted (activeUsersAt "2026-01-01T00:00:00.000Z") (activeUsersAt "2026-01-01T00:00:01.000Z") ∧
    SameObservations (activeUsersAt "2026-01-01T00:00:00.000Z")
      (activeUsersAt "2026-01-01T00:00:01.000Z") ∧
    s.snapshotHash ≠ s'.snapshotHash := by
  refine ⟨_, _, resolve_activeUsers _, resolve_activeUsers _, markedExternal_injective,
    permuted_activeUsers _ _, fun _ _ => rfl, fun heq => ?_⟩
  have hsame := (snapshotHash_eq_iff markedExternal_injective (permuted_activeUsers _ _)
    (resolve_activeUsers _) (resolve_activeUsers _)).mp heq
  have hentry := hsame.entries _ (mem_variableOrder_activeUsers.mpr rfl) _ (reading_activeUsers _) _
    (reading_activeUsers _)
  exact absurd hentry.observedAt (by decide)

end Orchestrator.Decisions
