import Mathlib.Algebra.Order.Floor.Ring
import Mathlib.Data.List.Sort
import Orchestrator.Collections.Latest
import Orchestrator.Collections.Repository

/-!
# Fairness between projects

When work of a project is claimed, every contending project earns credit by its weight, and the
project that is served pays a quantum.

* `nextFairnessRowsAfterService`: the rows after one charge, over the map that the source keeps;
* `persistCas`: storing the rows, each at the revision at which it was read;
* `rows_after_charge`: what one charge does to the stored rows, if nobody else stored any since;
* `fairness_exact`: what every sequence of charges does. The quantum never exceeds the credit that
  the served project has just earned, so no deficit ever falls.
-/

namespace Orchestrator

open Collections

/-! ## Rows -/

structure ProjectFairnessState where
  projectId : String
  deficit : ℕ
  lastServedAt : Option ℕ
  serviceSequence : ℕ
  recordRevision : ℕ
  recordRevision_pos : 0 < recordRevision

abbrev FairnessRows := Repository ProjectFairnessState.projectId

/-- `createFairnessState`. -/
def createFairnessState (rows : List ProjectFairnessState) : JsMap String ℕ :=
  rows.foldl (fun deficits row => deficits.set row.projectId row.deficit) .empty

def projectWeightClamp (weight : ℚ) : ℕ := min 10 (max 1 ⌊weight⌋₊)

/-- The quantum of service. -/
def quantum : ℕ := 10

def applyFairnessCharge (deficits : JsMap String ℕ) (selectedProjectId : String)
    (weights : JsMap String ℚ) : JsMap String ℕ :=
  let credited := weights.entries.foldl (fun deficits w =>
    deficits.set w.1 ((deficits.get w.1).getD 0 + projectWeightClamp w.2 * quantum)) deficits
  credited.set selectedProjectId ((credited.get selectedProjectId).getD 0 - quantum)

/-- The argument of a charge. -/
structure ServiceCharge where
  selectedProjectId : String
  weights : JsMap String ℚ
  servedAt : ℕ

def nextFairnessRowsAfterService (localeLe : String → String → Bool)
    (existing : List ProjectFairnessState) (charge : ServiceCharge) : List ProjectFairnessState :=
  let byId := JsMap.ofList (existing.map fun row => (row.projectId, row))
  let projectIds := (byId.keys ++ charge.weights.keys ++ [charge.selectedProjectId]).eraseDups
  let view := projectIds.foldl (fun deficits projectId =>
    if deficits.has projectId then deficits else deficits.set projectId 0)
    (createFairnessState existing)
  let charged := applyFairnessCharge view charge.selectedProjectId charge.weights
  let next := projectIds.map fun projectId =>
    let prior := byId.get projectId
    { projectId
      deficit := (charged.get projectId).getD 0
      lastServedAt :=
        if projectId = charge.selectedProjectId then some charge.servedAt
        else prior.bind (·.lastServedAt)
      serviceSequence := (prior.map (·.serviceSequence)).getD 0 +
        if projectId = charge.selectedProjectId then 1 else 0
      recordRevision := (prior.map (·.recordRevision)).getD 0 + 1
      recordRevision_pos := Nat.succ_pos _ }
  next.insertionSort fun a b => localeLe a.projectId b.projectId

/-! ## The repository -/

/-- `listAll`. -/
def FairnessRows.listAll (localeLe : String → String → Bool) (rows : FairnessRows) :
    List ProjectFairnessState :=
  rows.list.insertionSort fun a b => localeLe a.projectId b.projectId

inductive FairnessConflict where
  | insertLostRace (projectId : String)
  | staleRevision (projectId : String) (expectedRevision : ℕ) (actualRevision : Option ℕ)
  deriving DecidableEq, Repr

/-- One turn of the loop of `persistCas`. -/
def FairnessRows.persistRow (before : List ProjectFairnessState) (rows : FairnessRows)
    (row : ProjectFairnessState) : Except FairnessConflict FairnessRows :=
  let beforeById := JsMap.ofList (before.map fun row => (row.projectId, row))
  let expected := ((beforeById.get row.projectId).map (·.recordRevision)).getD 0
  match rows.getById row.projectId with
  | none =>
    if expected = 0 then .ok (rows.save row)
    else .error (.staleRevision row.projectId expected none)
  | some current =>
    if expected = 0 then .error (.insertLostRace row.projectId)
    else if current.recordRevision = expected then .ok (rows.save row)
    else .error (.staleRevision row.projectId expected (some current.recordRevision))

/-- The loop of `persistCas`, which does not take back the rows that it stored before it throws. -/
def FairnessRows.persistCas (before : List ProjectFairnessState) :
    List ProjectFairnessState → FairnessRows → Except FairnessConflict Unit × FairnessRows
  | [], rows => (.ok (), rows)
  | row :: after, rows =>
    match rows.persistRow before row with
    | .ok rows => persistCas before after rows
    | .error e => (.error e, rows)

/-! ## One charge -/

/-- `applyCharge`, where nothing comes between the reading of the rows and their storing. -/
def FairnessRows.applyCharge (localeLe : String → String → Bool) (charge : ServiceCharge)
    (rows : FairnessRows) : Except FairnessConflict Unit × FairnessRows :=
  let before := rows.listAll localeLe
  persistCas before (nextFairnessRowsAfterService localeLe before charge) rows

/-- What the charge adds to the deficit of a project. -/
def ServiceCharge.credit (charge : ServiceCharge) (projectId : String) : ℕ :=
  ((charge.weights.get projectId).map fun weight => projectWeightClamp weight * quantum).getD 0

/-- How often the charge serves a project. -/
def ServiceCharge.serves (charge : ServiceCharge) (projectId : String) : ℕ :=
  if projectId = charge.selectedProjectId then 1 else 0

namespace FairnessRows

/-- The deficit of a project, which is 0 where it has no row. -/
def deficit (rows : FairnessRows) (projectId : String) : ℕ :=
  ((rows.getById projectId).map (·.deficit)).getD 0

/-- How often a project was served. -/
def serviceSequence (rows : FairnessRows) (projectId : String) : ℕ :=
  ((rows.getById projectId).map (·.serviceSequence)).getD 0

variable {localeLe : String → String → Bool} {rows : FairnessRows} {charge : ServiceCharge}
  {projectId : String}

theorem mem_listAll {row : ProjectFairnessState} :
    row ∈ rows.listAll localeLe ↔ rows.getById row.projectId = some row := by
  rw [listAll, List.mem_insertionSort, Repository.mem_list]

/-- What the listed rows say of a project. -/
theorem get_ofList_listAll {V : Type} (f : ProjectFairnessState → V) :
    (JsMap.ofList ((rows.listAll localeLe).map fun row => (row.projectId, f row))).get projectId =
      (rows.getById projectId).map f := by
  cases hrow : rows.getById projectId with
  | none =>
    refine Option.eq_none_iff_forall_not_mem.mpr fun v hmem => ?_
    obtain ⟨row, hrow', heq⟩ := List.mem_map.mp ((JsMap.get_ofList_mem _ _).1 v hmem)
    obtain ⟨rfl, -⟩ := Prod.mk.inj heq
    rw [mem_listAll, hrow] at hrow'
    cases hrow'
  | some row =>
    obtain rfl := Repository.id_of_getById hrow
    refine JsMap.get_ofList_of_forall (List.mem_map.mpr ⟨row, mem_listAll.mpr hrow, rfl⟩) ?_
    intro v hmem
    obtain ⟨row', hrow', heq⟩ := List.mem_map.mp hmem
    obtain ⟨hid, rfl⟩ := Prod.mk.inj heq
    rw [mem_listAll, hid, hrow] at hrow'
    rw [Option.some.inj hrow']

theorem getD_createFairnessState :
    ((createFairnessState (rows.listAll localeLe)).get projectId).getD 0 =
      rows.deficit projectId := by
  have hfold : createFairnessState (rows.listAll localeLe) =
      JsMap.ofList ((rows.listAll localeLe).map fun row => (row.projectId, row.deficit)) := by
    rw [createFairnessState, JsMap.ofList, List.foldl_map]
  rw [hfold, get_ofList_listAll, deficit]

/-- Projects without a deficit are given one of 0. -/
theorem getD_foldl_zero (projectIds : List String) (deficits : JsMap String ℕ) :
    ((projectIds.foldl (fun deficits projectId =>
      if deficits.has projectId then deficits else deficits.set projectId 0) deficits).get
        projectId).getD 0 = (deficits.get projectId).getD 0 := by
  induction projectIds generalizing deficits with
  | nil => rfl
  | cons id projectIds ih =>
    rw [List.foldl_cons, ih]
    split
    · rfl
    · next hhas =>
      rw [JsMap.get_set]
      split
      · next heq =>
        rw [← heq, Option.not_isSome_iff_eq_none.mp hhas]
        rfl
      · rfl

/-- Every contender is credited once. -/
theorem getD_foldl_credit (projectId : String) {entries : List (String × ℚ)}
    (hnodup : (entries.map Prod.fst).Nodup) (deficits : JsMap String ℕ) :
    ((entries.foldl (fun deficits w =>
      deficits.set w.1 ((deficits.get w.1).getD 0 + projectWeightClamp w.2 * quantum))
        deficits).get projectId).getD 0 = (deficits.get projectId).getD 0 +
      ((lookupEntry projectId entries).map fun weight =>
        projectWeightClamp weight * quantum).getD 0 := by
  induction entries generalizing deficits with
  | nil => rfl
  | cons w entries ih =>
    obtain ⟨id, weight⟩ := w
    rw [List.map_cons, List.nodup_cons] at hnodup
    rw [List.foldl_cons, ih hnodup.2, JsMap.get_set, lookupEntry]
    by_cases hid : id = projectId
    · subst hid
      have hnone : lookupEntry id entries = none := by
        refine Option.eq_none_iff_forall_not_mem.mpr fun v hv => hnodup.1 ?_
        exact List.mem_map.mpr ⟨(id, v), (lookupEntry_eq_some hnodup.2).mp hv, rfl⟩
      rw [if_pos rfl, if_pos rfl, hnone]
      rfl
    · rw [if_neg hid, if_neg hid]

theorem getD_applyFairnessCharge (deficits : JsMap String ℕ) :
    ((applyFairnessCharge deficits charge.selectedProjectId charge.weights).get projectId).getD 0 =
      (deficits.get projectId).getD 0 + charge.credit projectId -
        charge.serves projectId * quantum := by
  have hcredit := fun id => getD_foldl_credit id charge.weights.nodup deficits
  unfold applyFairnessCharge ServiceCharge.serves
  simp only
  rw [JsMap.get_set]
  by_cases hid : charge.selectedProjectId = projectId
  · rw [if_pos hid, if_pos hid.symm, ← hid, Option.getD_some, hcredit, Nat.one_mul]
    rfl
  · rw [if_neg hid, if_neg (Ne.symm hid), hcredit, Nat.zero_mul, Nat.sub_zero]
    rfl

/-- The projects that have a row after a charge. -/
def chargedProjects (rows : FairnessRows) (charge : ServiceCharge) (projectId : String) : Prop :=
  (rows.getById projectId).isSome = true ∨ (charge.weights.get projectId).isSome = true ∨
    projectId = charge.selectedProjectId

/-- What the row of a project says after a charge. -/
structure RowAfter (rows : FairnessRows) (charge : ServiceCharge) (projectId : String)
    (row : ProjectFairnessState) : Prop where
  project : row.projectId = projectId
  deficit : row.deficit =
    rows.deficit projectId + charge.credit projectId - charge.serves projectId * quantum
  serviceSequence : row.serviceSequence =
    rows.serviceSequence projectId + charge.serves projectId

/-- After a charge there is one row for each project that is known, contends or is served. -/
theorem nextFairnessRows_spec (localeLe : String → String → Bool) (rows : FairnessRows)
    (charge : ServiceCharge) :
    ∃ (projectIds : List String) (row : String → ProjectFairnessState), projectIds.Nodup ∧
      (∀ id, id ∈ projectIds ↔ rows.chargedProjects charge id) ∧
      (∀ id, rows.RowAfter charge id (row id)) ∧
      (nextFairnessRowsAfterService localeLe (rows.listAll localeLe) charge).Perm
        (projectIds.map row) := by
  have hbyId : ∀ id, (JsMap.ofList ((rows.listAll localeLe).map fun row =>
      (row.projectId, row))).get id = rows.getById id := fun id => by
    rw [get_ofList_listAll (fun row => row), Option.map_id']
  refine ⟨_, _, nodup_eraseDups _, fun id => ?_, fun id => ?_, List.perm_insertionSort _ _⟩
  · rw [List.mem_eraseDups, List.mem_append, List.mem_append, JsMap.mem_keys, JsMap.mem_keys,
      List.mem_singleton, hbyId, or_assoc]
    rfl
  · constructor
    · rfl
    · simp only
      rw [getD_applyFairnessCharge, getD_foldl_zero, getD_createFairnessState]
    · simp only
      rw [hbyId]
      rfl

/-! ## Storing the rows -/

/-- A row that is stored as it was listed is replaced. -/
theorem persistRow_listed {stored : FairnessRows} {row : ProjectFairnessState}
    (h : stored.getById row.projectId = rows.getById row.projectId) :
    stored.persistRow (rows.listAll localeLe) row = .ok (stored.save row) := by
  unfold persistRow
  simp only
  rw [get_ofList_listAll (fun row => row), Option.map_id', h]
  cases hrow : rows.getById row.projectId with
  | none => exact if_pos rfl
  | some current =>
    have hne : ((some current).map (·.recordRevision)).getD 0 ≠ 0 :=
      Nat.pos_iff_ne_zero.mp current.recordRevision_pos
    exact (if_neg hne).trans (if_pos rfl)

/-- Rows of different projects that are stored as they were listed are all replaced. -/
theorem persistCas_listed (localeLe : String → String → Bool) (rows : FairnessRows)
    {after : List ProjectFairnessState} (hnodup : (after.map (·.projectId)).Nodup)
    {stored : FairnessRows}
    (h : ∀ row ∈ after, stored.getById row.projectId = rows.getById row.projectId) :
    ∃ stored', persistCas (rows.listAll localeLe) after stored = (.ok (), stored') ∧
      (∀ row ∈ after, stored'.getById row.projectId = some row) ∧
      ∀ id, id ∉ after.map (·.projectId) → stored'.getById id = stored.getById id := by
  induction after generalizing stored with
  | nil => exact ⟨stored, rfl, fun _ h => (nomatch h), fun _ _ => rfl⟩
  | cons row after ih =>
    rw [List.map_cons, List.nodup_cons] at hnodup
    have hother : ∀ row' ∈ after, row.projectId ≠ row'.projectId := fun row' hrow' heq =>
      hnodup.1 (List.mem_map.mpr ⟨row', hrow', heq.symm⟩)
    have hlisted : ∀ row' ∈ after, (stored.save row).getById row'.projectId =
        rows.getById row'.projectId := fun row' hrow' => by
      rw [Repository.getById_save_ne _ (hother row' hrow')]
      exact h row' (List.mem_cons_of_mem _ hrow')
    obtain ⟨stored', hpersist, hafter, hrest⟩ := ih hnodup.2 hlisted
    refine ⟨stored', ?_, fun row' hrow' => ?_, fun id hid => ?_⟩
    · rw [persistCas, persistRow_listed (h row List.mem_cons_self)]
      exact hpersist
    · rcases List.mem_cons.mp hrow' with rfl | hrow'
      · rw [hrest _ hnodup.1, Repository.getById_save_self]
      · exact hafter row' hrow'
    · rw [List.map_cons, List.mem_cons, not_or] at hid
      rw [hrest _ hid.2, Repository.getById_save_ne _ (Ne.symm hid.1)]

/-- What a charge does to the stored rows. -/
structure ChargedRows (charge : ServiceCharge) (rows rows' : FairnessRows) : Prop where
  deficit : ∀ projectId, rows'.deficit projectId = rows.deficit projectId +
    charge.credit projectId - charge.serves projectId * quantum
  serviceSequence : ∀ projectId, rows'.serviceSequence projectId =
    rows.serviceSequence projectId + charge.serves projectId

/-- The rows that are computed from the stored ones are stored. -/
theorem rows_after_charge (localeLe : String → String → Bool) (rows : FairnessRows)
    (charge : ServiceCharge) : ∃ rows',
      rows.applyCharge localeLe charge = (.ok (), rows') ∧ ChargedRows charge rows rows' := by
  obtain ⟨projectIds, row, hnodup, hmem, hrow, hperm⟩ := nextFairnessRows_spec localeLe rows charge
  have hids : (projectIds.map row).map (·.projectId) = projectIds := by
    rw [List.map_map]
    exact (List.map_congr_left fun id _ => (hrow id).project).trans (List.map_id _)
  have hnodup' : ((nextFairnessRowsAfterService localeLe (rows.listAll localeLe) charge).map
      (·.projectId)).Nodup := by
    rw [(hperm.map _).nodup_iff, hids]
    exact hnodup
  obtain ⟨rows', hpersist, hafter, hrest⟩ :=
    persistCas_listed localeLe rows hnodup' fun _ _ => rfl
  have hget : ∀ id, rows.chargedProjects charge id → rows'.getById id = some (row id) := by
    intro id hid
    have hmem' := hperm.mem_iff.mpr (List.mem_map_of_mem (f := row) ((hmem id).mpr hid))
    have hrow' := hafter _ hmem'
    rw [(hrow id).project] at hrow'
    exact hrow'
  have hnone : ∀ id, ¬rows.chargedProjects charge id → rows'.getById id = none ∧
      rows.getById id = none ∧ charge.credit id = 0 ∧ charge.serves id = 0 := by
    intro id hid
    have hnew : rows.getById id = none :=
      Option.not_isSome_iff_eq_none.mp fun h => hid (.inl h)
    have hweight : charge.weights.get id = none :=
      Option.not_isSome_iff_eq_none.mp fun h => hid (.inr (.inl h))
    refine ⟨?_, hnew, ?_, if_neg fun h => hid (.inr (.inr h))⟩
    · rw [hrest id fun h => hid ((hmem id).mp ?_), hnew]
      rwa [(hperm.map _).mem_iff, hids] at h
    · rw [ServiceCharge.credit, hweight]
      rfl
  refine ⟨rows', hpersist, fun id => ?_, fun id => ?_⟩
  · by_cases hid : rows.chargedProjects charge id
    · rw [← (hrow id).deficit, FairnessRows.deficit, hget id hid]
      rfl
    · obtain ⟨hafter, hbefore, hcredit, hserves⟩ := hnone id hid
      rw [hcredit, hserves, FairnessRows.deficit, FairnessRows.deficit, hafter, hbefore]
      rfl
  · by_cases hid : rows.chargedProjects charge id
    · rw [← (hrow id).serviceSequence, FairnessRows.serviceSequence, hget id hid]
      rfl
    · obtain ⟨hafter, hbefore, -, hserves⟩ := hnone id hid
      rw [hserves, FairnessRows.serviceSequence, FairnessRows.serviceSequence, hafter, hbefore]
      rfl

end FairnessRows

/-! ## Every sequence of charges -/

/-- Charges one after the other, up to the first that throws. -/
def FairnessRows.applyCharges (localeLe : String → String → Bool) :
    List ServiceCharge → FairnessRows → Except FairnessConflict Unit × FairnessRows
  | [], rows => (.ok (), rows)
  | charge :: charges, rows =>
    match rows.applyCharge localeLe charge with
    | (.ok (), rows) => applyCharges localeLe charges rows
    | (.error e, rows) => (.error e, rows)

namespace ServiceCharge

/-- How often the charge has a project among its contenders. -/
def contends (charge : ServiceCharge) (projectId : String) : ℕ :=
  if (charge.weights.get projectId).isSome then 1 else 0

/-- Every weight earns at least the quantum. -/
theorem contends_le_credit (charge : ServiceCharge) (projectId : String) :
    charge.contends projectId * quantum ≤ charge.credit projectId := by
  unfold contends credit
  cases charge.weights.get projectId with
  | none => exact Nat.le_refl 0
  | some weight =>
    have hone : 1 ≤ projectWeightClamp weight := le_min (by decide) (le_max_left _ _)
    exact Nat.mul_le_mul_right quantum hone

theorem serves_le_contends {charge : ServiceCharge}
    (h : (charge.weights.get charge.selectedProjectId).isSome = true) (projectId : String) :
    charge.serves projectId ≤ charge.contends projectId := by
  unfold serves contends
  by_cases hid : projectId = charge.selectedProjectId
  · rw [if_pos hid, hid, if_pos h]
  · rw [if_neg hid]
    exact Nat.zero_le _

end ServiceCharge

/-- The rows after the charges: each project has earned its credits and paid for its services. -/
structure FairnessExact (charges : List ServiceCharge) (rows rows' : FairnessRows)
    (projectId : String) : Prop where
  deficit : rows'.deficit projectId + (charges.map (·.serves projectId)).sum * quantum =
    rows.deficit projectId + (charges.map (·.credit projectId)).sum
  serviceSequence : rows'.serviceSequence projectId =
    rows.serviceSequence projectId + (charges.map (·.serves projectId)).sum
  rises : rows.deficit projectId + (charges.map (·.contends projectId)).sum * quantum ≤
    rows'.deficit projectId + (charges.map (·.serves projectId)).sum * quantum
  never_falls : rows.deficit projectId ≤ rows'.deficit projectId

/-- Every sequence of charges that serve contenders is stored, and leaves every project with what it
had, its credits and its services. -/
theorem fairness_exact (localeLe : String → String → Bool) (rows : FairnessRows)
    (charges : List ServiceCharge)
    (hcontend : ∀ charge ∈ charges,
      (charge.weights.get charge.selectedProjectId).isSome = true) :
    ∃ rows', rows.applyCharges localeLe charges = (.ok (), rows') ∧
      ∀ projectId, FairnessExact charges rows rows' projectId := by
  induction charges generalizing rows with
  | nil => exact ⟨rows, rfl, fun _ => ⟨rfl, rfl, le_rfl, le_rfl⟩⟩
  | cons charge charges ih =>
    obtain ⟨rows₁, hcharge, hrows₁⟩ := FairnessRows.rows_after_charge localeLe rows charge
    obtain ⟨rows', hcharges, hexact⟩ := ih rows₁ fun c hc =>
      hcontend c (List.mem_cons_of_mem _ hc)
    refine ⟨rows', by rw [FairnessRows.applyCharges, hcharge]; exact hcharges, fun id => ?_⟩
    have hserves := ServiceCharge.serves_le_contends (hcontend charge List.mem_cons_self) id
    have hcredit := charge.contends_le_credit id
    have hpaid : charge.serves id * quantum ≤ charge.credit id :=
      (Nat.mul_le_mul_right quantum hserves).trans hcredit
    have hdeficit := hrows₁.deficit id
    have hrest := hexact id
    constructor
    · have h := hrest.deficit
      simp only [List.map_cons, List.sum_cons, Nat.add_mul]
      omega
    · rw [hrest.serviceSequence, hrows₁.serviceSequence, List.map_cons, List.sum_cons,
        Nat.add_assoc]
    · have h := hrest.rises
      simp only [List.map_cons, List.sum_cons, Nat.add_mul]
      omega
    · have h := hrest.never_falls
      omega

/-- Two projects that are served in turn. -/
theorem fairness_exact_in_turn :
    let weights := JsMap.ofList [("project_a", (1 : ℚ)), ("project_b", 5 / 2)]
    let charges := [⟨"project_a", weights, 0⟩, ⟨"project_b", weights, 1⟩]
    ∃ rows',
      FairnessRows.applyCharges (fun _ _ => true) charges Repository.empty = (.ok (), rows') ∧
      ∀ projectId, FairnessExact charges Repository.empty rows' projectId :=
  fairness_exact _ _ _ (by decide +kernel)

end Orchestrator
