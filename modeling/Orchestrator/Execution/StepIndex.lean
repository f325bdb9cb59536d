import Orchestrator.Execution.StepRepository

/-!
# The index of the step store

`InMemoryStepExecutionRepository` keeps the keys of each attempt beside the records, and only
`reserve` adds to them.

* `StepCall`, a call that may write, and `afterCall`, the store it leaves;
* `Linked`: the keys kept for an attempt are those of its records, each once;
* `Indexed`: `listByExecutionAttempt` returns the records of the attempt, each once;
* `InPlace`: the result that a call writes replaces a record of the same attempt;
* `indexed_iff_in_place`: in a run the index is exact in every state exactly when every call is
  in place.
-/

namespace Orchestrator

open Collections

namespace StepExecutionRepository

/-- A call that may write a record. -/
inductive StepCall where
  | reserve (input : ReserveInput)
  | markRunning (idempotencyKey : String)
  | complete (idempotencyKey : String) (result : StepExecutionResult)
  | fail (idempotencyKey : String) (result : StepExecutionResult)
  | reconcileSucceeded (idempotencyKey : String) (result : StepExecutionResult)

/-- The store that a call leaves, whether it is accepted or throws. -/
def afterCall (X : External) (s : StepExecutionRepository) : StepCall → StepExecutionRepository
  | .reserve input => (s.reserve X input).2
  | .markRunning k => (s.markRunning X k).2
  | .complete k result => (s.complete X k result).2
  | .fail k result => (s.fail X k result).2
  | .reconcileSucceeded k result => (s.reconcileSucceeded X k result).2

/-- The store that calls leave in turn. -/
def afterCalls (X : External) (s : StepExecutionRepository) (calls : List StepCall) :
    StepExecutionRepository :=
  calls.foldl (afterCall X) s

/-- The keys kept for an attempt. -/
def keysOf (s : StepExecutionRepository) (attemptId : String) : List String :=
  (s.byAttempt.get attemptId).getD []

/-! ## What the index should be -/

/-- The keys kept for each attempt are those of its records, each once. -/
structure Linked (s : StepExecutionRepository) : Prop where
  nodup : ∀ a, (s.keysOf a).Nodup
  mem : ∀ a k, k ∈ s.keysOf a ↔ ∃ r, s.byKey.get k = some r ∧ r.executionAttemptId = a

/-- `listByExecutionAttempt` returns exactly the stored records of the attempt, each once. -/
def Indexed (s : StepExecutionRepository) : Prop :=
  ∀ a, (s.listByExecutionAttempt a).Nodup ∧
    ∀ r, r ∈ s.listByExecutionAttempt a ↔ r ∈ s.byKey.values ∧ r.executionAttemptId = a

/-- The call is accepted, and writes the result `r` that it was given. -/
def Writes (s : StepExecutionRepository) : StepCall → StepExecutionResult → Prop
  | .complete k result, r => r = result ∧ s.status k = some .running ∧ result.issues = [] ∧
      result.idempotencyKey = k ∧ (result.status = .succeeded ∨ result.status = .compensated)
  | .fail k result, r => r = result ∧
      (s.status k = none ∨ s.status k = some .running ∨ s.status k = some .reserved) ∧
      result.issues = [] ∧ result.idempotencyKey = k
  | .reconcileSucceeded k result, r => r = reconciled k result ∧ s.status k = some .running ∧
      (reconciled k result).issues = []
  | _, _ => False

/-- A result that the call writes replaces a record of the same attempt. -/
def InPlace (s : StepExecutionRepository) (call : StepCall) : Prop :=
  ∀ r, s.Writes call r → ∃ existing, s.byKey.get r.idempotencyKey = some existing ∧
    existing.executionAttemptId = r.executionAttemptId

/-- Every call of the run is in place. -/
def AllInPlace (X : External) (s : StepExecutionRepository) : List StepCall → Prop
  | [] => True
  | call :: calls => s.InPlace call ∧ AllInPlace X (s.afterCall X call) calls

variable {X : External} {s : StepExecutionRepository} {k : String}

theorem Writes.unique {call : StepCall} {r r' : StepExecutionResult} (h : s.Writes call r)
    (h' : s.Writes call r') : r = r' := by
  cases call with
  | reserve => exact h.elim
  | markRunning => exact h.elim
  | complete => exact h.1.trans h'.1.symm
  | fail => exact h.1.trans h'.1.symm
  | reconcileSucceeded => exact h.1.trans h'.1.symm

theorem mem_listByExecutionAttempt {a : String} {r : StepExecutionResult} :
    r ∈ s.listByExecutionAttempt a ↔
      r.idempotencyKey ∈ s.keysOf a ∧ s.byKey.get r.idempotencyKey = some r := by
  rw [listByExecutionAttempt, List.mem_filterMap]
  constructor
  · rintro ⟨k, hk, hget⟩
    obtain rfl := s.keyed k r hget
    exact ⟨hk, hget⟩
  · rintro ⟨hk, hget⟩
    exact ⟨_, hk, hget⟩

theorem mem_values_byKey {r : StepExecutionResult} :
    r ∈ s.byKey.values ↔ s.byKey.get r.idempotencyKey = some r := by
  rw [JsMap.mem_values]
  constructor
  · rintro ⟨k, hget⟩
    rw [s.keyed k r hget]
    exact hget
  · exact fun hget => ⟨_, hget⟩

/-- Keys that are linked list the records of their attempt. -/
theorem Linked.indexed (h : s.Linked) : s.Indexed := by
  intro a
  constructor
  · refine (h.nodup a).filterMap fun k k' r hr hr' => ?_
    rw [← s.keyed k r hr, ← s.keyed k' r hr']
  · intro r
    rw [mem_listByExecutionAttempt, mem_values_byKey, h.mem]
    constructor
    · rintro ⟨⟨r', hr', ha⟩, hr⟩
      obtain rfl : r = r' := Option.some.inj (hr.symm.trans hr')
      exact ⟨hr, ha⟩
    · rintro ⟨hr, ha⟩
      exact ⟨⟨r, hr, ha⟩, hr⟩

theorem linked_empty : empty.Linked where
  nodup _ := List.nodup_nil
  mem a k := by
    show k ∈ [] ↔ _
    simp [empty]

/-! ## What a write does to the index -/

@[simp] theorem keysOf_put (r : StepExecutionResult) (h : r.idempotencyKey = k) (a : String) :
    (s.put k r h).keysOf a = s.keysOf a := rfl

/-- A record that replaces one of its attempt leaves the index as it should be. -/
theorem Linked.put (hs : s.Linked) {r existing : StepExecutionResult} (h : r.idempotencyKey = k)
    (hget : s.byKey.get k = some existing)
    (hattempt : existing.executionAttemptId = r.executionAttemptId) : (s.put k r h).Linked where
  nodup := hs.nodup
  mem a k' := by
    rw [keysOf_put, hs.mem, get_put]
    split
    · next hk =>
      subst hk
      simp [hget, hattempt]
    · rfl

/-- After any other write the index misses the record. -/
theorem Linked.not_indexed_put (hs : s.Linked) {r : StepExecutionResult} (h : r.idempotencyKey = k)
    (hother : ¬∃ existing, s.byKey.get k = some existing ∧
      existing.executionAttemptId = r.executionAttemptId) : ¬(s.put k r h).Indexed := by
  intro hindexed
  have hstored : (s.put k r h).byKey.get r.idempotencyKey = some r := by rw [get_put, if_pos h.symm]
  have hlisted := ((hindexed r.executionAttemptId).2 r).mpr ⟨mem_values_byKey.mpr hstored, rfl⟩
  have hkey : r.idempotencyKey ∈ s.keysOf r.executionAttemptId :=
    (mem_listByExecutionAttempt.mp hlisted).1
  rw [hs.mem, h] at hkey
  exact hother hkey

/-- A new reservation comes with its key. -/
theorem Linked.reserve (hs : s.Linked) {input : ReserveInput}
    (hnone : s.byKey.get input.idempotencyKey = none) :
    ((s.put input.idempotencyKey (reservation input) (idempotencyKey_reservation input)).list
      input.executionAttemptId input.idempotencyKey).Linked := by
  have hnew : ∀ a, input.idempotencyKey ∉ s.keysOf a := by
    intro a hmem
    obtain ⟨r, hr, -⟩ := (hs.mem a _).mp hmem
    rw [hnone] at hr
    cases hr
  have hkeys : ∀ a, ((s.put input.idempotencyKey (reservation input)
      (idempotencyKey_reservation input)).list input.executionAttemptId
        input.idempotencyKey).keysOf a =
      if input.executionAttemptId = a then s.keysOf a ++ [input.idempotencyKey]
      else s.keysOf a := by
    intro a
    have hnot : input.idempotencyKey ∉ (s.byAttempt.get input.executionAttemptId).getD [] :=
      hnew input.executionAttemptId
    unfold keysOf list StepExecutionRepository.put
    dsimp only
    rw [if_neg hnot, JsMap.get_set]
    split
    · next ha => rw [← ha, Option.getD_some]
    · rfl
  constructor
  · intro a
    rw [hkeys]
    split
    · exact (List.concat_eq_append ▸ (hs.nodup a).concat (hnew a))
    · exact hs.nodup a
  · intro a k
    rw [hkeys, get_list, get_put]
    by_cases hk : input.idempotencyKey = k
    · subst hk
      by_cases ha : input.executionAttemptId = a
      · simp [ha, reservation]
      · simp [ha, hnew a, reservation]
    · rw [if_neg hk, ← hs.mem]
      split
      · simp [Ne.symm hk]
      · rfl

/-! ## What a call does to the index -/

theorem complete_ok {result : StepExecutionResult} (hrun : s.status k = some .running)
    (hissues : result.issues = []) (hkey : result.idempotencyKey = k)
    (hstatus : result.status = .succeeded ∨ result.status = .compensated) :
    (complete X s k result).1 = .ok result := by
  obtain ⟨existing, hget, hrunning⟩ := Option.map_eq_some_iff.mp hrun
  have hparse : parseStepExecutionResult X result = .ok result := X.parse_ok hissues
  have hfinal : ¬(result.status ≠ .succeeded ∧ result.status ≠ .compensated) :=
    fun h => hstatus.elim h.1 h.2
  rw [complete, hget]
  simp only [hrunning, ne_eq, not_true_eq_false, if_false, hparse, hkey, dite_true]
  rw [if_neg hfinal]

theorem complete_issues {result : StepExecutionResult} {s' : StepExecutionRepository}
    (h : complete X s k result = (.ok result, s')) : result.issues = [] := by
  by_contra hissues
  have hparse : parseStepExecutionResult X result = .error (X.zodError result.issues) :=
    X.parse_error hissues
  rw [complete] at h
  split at h
  · cases h
  · split at h
    · cases h
    · rw [hparse] at h
      cases h

theorem reconcileSucceeded_ok {result : StepExecutionResult} (hrun : s.status k = some .running)
    (hissues : (reconciled k result).issues = []) :
    (reconcileSucceeded X s k result).1 = .ok (reconciled k result) := by
  have hparse : parseStepExecutionResult X (reconciled k result) = .ok (reconciled k result) :=
    X.parse_ok hissues
  rw [reconcileSucceeded, if_neg (not_not.mpr hrun), hparse]

theorem reconcileSucceeded_issues {result : StepExecutionResult} {s' : StepExecutionRepository}
    (h : reconcileSucceeded X s k result = (.ok (reconciled k result), s')) :
    (reconciled k result).issues = [] := by
  by_contra hissues
  have hparse : parseStepExecutionResult X (reconciled k result) =
      .error (X.zodError (reconciled k result).issues) := X.parse_error hissues
  rw [reconcileSucceeded, hparse] at h
  split at h
  · cases h
  · cases h

/-- A call writes the result it was given, moves a reservation, makes one, or leaves the store as
it is. -/
theorem afterCall_cases (X : External) (s : StepExecutionRepository) (call : StepCall) :
    (∃ r, s.Writes call r ∧ s.afterCall X call = s.put r.idempotencyKey r rfl) ∨
    ((∀ r, ¬s.Writes call r) ∧
      (s.afterCall X call = s ∨
        (∃ k r h, s.byKey.get k = some r ∧
          s.afterCall X call = s.put k (r.withStatus .running) h) ∨
        ∃ input, s.byKey.get input.idempotencyKey = none ∧ s.afterCall X call =
          (s.put input.idempotencyKey (reservation input) (idempotencyKey_reservation input)).list
            input.executionAttemptId input.idempotencyKey)) := by
  cases call with
  | reserve input =>
    refine .inr ⟨fun _ h => h, ?_⟩
    rcases reserve_cases X s input with ⟨r, -, -, h⟩ | ⟨r, -, -, h⟩ | ⟨r, -, -, h⟩ |
      ⟨r, -, -, h⟩ | ⟨-, -, h⟩ | ⟨hnone, -, h⟩
    · exact .inl (congrArg Prod.snd h)
    · exact .inl (congrArg Prod.snd h)
    · exact .inl (congrArg Prod.snd h)
    · exact .inl (congrArg Prod.snd h)
    · exact .inl (congrArg Prod.snd h)
    · exact .inr (.inr ⟨input, hnone, congrArg Prod.snd h⟩)
  | markRunning k =>
    refine .inr ⟨fun _ h => h, ?_⟩
    rcases markRunning_cases X s k with ⟨r, -, -, h⟩ | ⟨r, hkey, hget, -, -, h⟩ | ⟨-, e, -, h⟩
    · exact .inl (congrArg Prod.snd h)
    · exact .inr (.inl ⟨k, r, hkey, hget, congrArg Prod.snd h⟩)
    · exact .inl (congrArg Prod.snd h)
  | complete k result =>
    rcases complete_cases X s k result with ⟨rfl, hrun, hstatus, h⟩ | ⟨e, -, h⟩
    · exact .inl ⟨result, ⟨rfl, hrun, complete_issues h, rfl, hstatus⟩, congrArg Prod.snd h⟩
    · refine .inr ⟨fun r hr => ?_, .inl (congrArg Prod.snd h)⟩
      obtain ⟨-, hrun, hissues, hkey, hstatus⟩ := hr
      exact nomatch (congrArg Prod.fst h).symm.trans (complete_ok hrun hissues hkey hstatus)
  | fail k result =>
    rcases fail_cases X s k result with ⟨rfl, hopen, hissues, h⟩ | ⟨hrefused, e, -, h⟩
    · exact .inl ⟨result, ⟨rfl, hopen, hissues, rfl⟩, congrArg Prod.snd h⟩
    · refine .inr ⟨fun r hr => ?_, .inl (congrArg Prod.snd h)⟩
      obtain ⟨-, hopen, hissues, hkey⟩ := hr
      rcases hrefused with hclosed | hinvalid | hother
      · exact hclosed hopen
      · exact hinvalid hissues
      · exact hother hkey
  | reconcileSucceeded k result =>
    by_cases hissues : (reconciled k result).issues = []
    · rcases reconcileSucceeded_cases X s k result with ⟨hrun, h⟩ | ⟨e, h⟩
      · exact .inl ⟨_, ⟨rfl, hrun, hissues⟩, congrArg Prod.snd h⟩
      · refine .inr ⟨fun r hr => ?_, .inl (congrArg Prod.snd h)⟩
        exact nomatch (congrArg Prod.fst h).symm.trans (reconcileSucceeded_ok hr.2.1 hissues)
    · refine .inr ⟨fun r hr => hissues hr.2.2, .inl ?_⟩
      rcases reconcileSucceeded_cases X s k result with ⟨hrun, h⟩ | ⟨e, h⟩
      · exact absurd (reconcileSucceeded_issues h) hissues
      · exact congrArg Prod.snd h

/-- A call in place keeps the keys linked. -/
theorem Linked.afterCall (hs : s.Linked) {call : StepCall} (hplace : s.InPlace call) :
    (s.afterCall X call).Linked := by
  rcases afterCall_cases X s call with ⟨r, hwrites, hafter⟩ | ⟨-, hafter⟩
  · obtain ⟨existing, hget, hattempt⟩ := hplace r hwrites
    rw [hafter]
    exact hs.put rfl hget hattempt
  · rcases hafter with hafter | ⟨k, r, h, hget, hafter⟩ | ⟨input, hnone, hafter⟩
    · rw [hafter]
      exact hs
    · rw [hafter]
      exact hs.put h hget rfl
    · rw [hafter]
      exact hs.reserve hnone

/-- After any other call the index is not exact. -/
theorem Linked.inPlace (hs : s.Linked) {call : StepCall}
    (hindexed : (s.afterCall X call).Indexed) : s.InPlace call := by
  intro r hwrites
  rcases afterCall_cases X s call with ⟨r', hwrites', hafter⟩ | ⟨hnone, -⟩
  · obtain rfl : r = r' := hwrites.unique hwrites'
    by_contra hother
    rw [hafter] at hindexed
    exact hs.not_indexed_put rfl hother hindexed
  · exact absurd hwrites (hnone r)

/-! ## Every run -/

/-- From a store whose keys are linked, a run keeps the index exact exactly when its calls are in
place. -/
theorem Linked.indexed_iff (hs : s.Linked) (calls : List StepCall) :
    (∀ before, before <+: calls → (s.afterCalls X before).Indexed) ↔ s.AllInPlace X calls := by
  induction calls generalizing s with
  | nil =>
    refine ⟨fun _ => trivial, fun _ before hbefore => ?_⟩
    rw [List.prefix_nil.mp hbefore]
    exact hs.indexed
  | cons call calls ih =>
    constructor
    · intro hall
      have hplace : s.InPlace call := hs.inPlace (hall [call] (by simp))
      refine ⟨hplace, (ih (hs.afterCall hplace)).mp fun before hbefore => ?_⟩
      exact hall (call :: before) (List.cons_prefix_cons.mpr ⟨rfl, hbefore⟩)
    · rintro ⟨hplace, hrest⟩ before hbefore
      cases before with
      | nil => exact hs.indexed
      | cons first before =>
        obtain ⟨hfirst, hshort⟩ := List.cons_prefix_cons.mp hbefore
        subst hfirst
        exact (ih (hs.afterCall hplace)).mpr hrest before hshort

/-- In every run from the empty store, `listByExecutionAttempt` is exact in all the states exactly
when every result that is written replaces a record of its own attempt. -/
theorem indexed_iff_in_place (X : External) (calls : List StepCall) :
    (∀ before, before <+: calls → (empty.afterCalls X before).Indexed) ↔
      empty.AllInPlace X calls :=
  linked_empty.indexed_iff calls

/-- The failure of a step that was never reserved. -/
def unreserved : StepExecutionResult where
  stepId := "step_1"
  idempotencyKey := "key_1"
  capabilityId := "capability_1"
  actionType := "CREATE_TASK"
  status := .failed
  startedAt := 0
  completedAt := some 1
  outputArtifactRefs := []
  outputHashes := []
  affectedTargets := []
  verificationMetadata := none
  errorCode := none
  errorMessage := none
  executionAttemptId := "attempt_1"
  runId := "run_1"

/-- `fail` stores it, and its attempt does not list it. -/
theorem unreserved_not_listed :
    ¬∀ calls, (empty.afterCalls plainExternal calls).Indexed := by
  intro h
  have hstored : (empty.afterCalls plainExternal [.fail "key_1" unreserved]).byKey.get "key_1" =
      some unreserved := by decide
  have hlisted := ((h [.fail "key_1" unreserved] "attempt_1").2 unreserved).mpr
    ⟨JsMap.mem_values.mpr ⟨_, hstored⟩, rfl⟩
  cases (mem_listByExecutionAttempt.mp hlisted).1

end StepExecutionRepository

end Orchestrator
