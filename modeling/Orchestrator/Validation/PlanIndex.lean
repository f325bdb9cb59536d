import Orchestrator.Validation.Stores

/-!
# The index of plan versions

`InMemoryPlanRepository` keeps plans by id, and for each run the id of each version. While no id
is given to two plans, the two agree:

* `Indexed`: a version of a run names a stored plan of that run and version, and every stored
  plan is what its run's version names;
* `Has`: a record's plan is stored as that plan, which it stays for good;
* `Indexed.put`, `Indexed.replace` and their like for `Has`: what each write keeps.
-/

namespace Orchestrator

namespace PlanStore

open Collections

/-- The plans by id and the ids by version agree. -/
structure Indexed (s : PlanStore) : Prop where
  held : ∀ runId v id, s.holder runId v = some id →
    ∃ r, s.byId.get id = some r ∧ r.runId = runId ∧ r.planVersion = v
  stored : ∀ id r, s.byId.get id = some r →
    r.planId = id ∧ s.holder r.runId r.planVersion = some id

/-- The plan of the record is stored, for the run and under the version of the record. -/
def Has (s : PlanStore) (record : StoredPlanRecord) : Prop :=
  ∃ r, s.byId.get record.planId = some r ∧ r.runId = record.runId ∧
    r.planVersion = record.planVersion

variable {s : PlanStore} {record r : StoredPlanRecord}

theorem indexed_empty : empty.Indexed :=
  ⟨fun _ _ _ h => (nomatch h), fun _ _ h => (nomatch h)⟩

theorem Has.withStatus (h : s.Has r) (status : StoredPlanStatus) :
    s.Has (r.withStatus status) := h

theorem has_of_byId (h : s.Indexed) {id : String} (hr : s.byId.get id = some r) : s.Has r :=
  ⟨r, (h.stored id r hr).1 ▸ hr, rfl, rfl⟩

theorem has_of_getByRunId (h : s.Indexed) {runId : String} (hr : s.getByRunId runId = some r) :
    s.Has r := by
  obtain ⟨id, -, hr⟩ := Option.bind_eq_some_iff.mp hr
  exact has_of_byId h hr

/-- The version that is asked for is the version that is found. -/
theorem has_of_getVersion (h : s.Indexed) {runId : String} {v : ℕ}
    (hr : s.getVersion runId v = some r) : s.Has r ∧ r.runId = runId ∧ r.planVersion = v := by
  obtain ⟨id, hid, hr⟩ := Option.bind_eq_some_iff.mp hr
  obtain ⟨r', hr', hrun, hversion⟩ := h.held runId v id hid
  cases hr.symm.trans hr'
  exact ⟨has_of_byId h hr, hrun, hversion⟩

theorem Has.holder (h : s.Indexed) (hr : s.Has r) :
    s.holder r.runId r.planVersion = some r.planId := by
  obtain ⟨r', hr', hrun, hversion⟩ := hr
  rw [← hrun, ← hversion]
  exact (h.stored _ r' hr').2

/-- Nothing but a plan of the run and version of `record` has its id. -/
def Owns (s : PlanStore) (record : StoredPlanRecord) : Prop :=
  ∀ r, s.byId.get record.planId = some r →
    r.runId = record.runId ∧ r.planVersion = record.planVersion

theorem Has.owns (h : s.Has record) : s.Owns record := by
  obtain ⟨r, hr, hsame⟩ := h
  intro r' hr'
  cases hr.symm.trans hr'
  exact hsame

theorem owns_of_none (h : s.byId.get record.planId = none) : s.Owns record := by
  intro r hr
  rw [h] at hr
  cases hr

theorem Has.put (howns : s.Owns record) (h : s.Has r) : (s.put record).Has r := by
  obtain ⟨r', hr', hsame⟩ := h
  rw [Has, PlanStore.put]
  simp only [JsMap.get_set]
  split
  · next hid =>
    rw [← hid] at hr'
    obtain ⟨hrun, hversion⟩ := howns r' hr'
    exact ⟨record, rfl, hrun ▸ hsame.1, hversion ▸ hsame.2⟩
  · exact ⟨r', hr', hsame⟩

theorem has_put_self : (s.put record).Has record :=
  ⟨record, JsMap.get_set_self _ _ _, rfl, rfl⟩

/-- The record of a plan that is new, or that is stored as the same plan, is saved. -/
theorem Indexed.put (h : s.Indexed) (howns : s.Owns record)
    (hholder : ∀ id, s.holder record.runId record.planVersion = some id → id = record.planId) :
    (s.put record).Indexed := by
  refine ⟨fun runId v id hid => ?_, fun id r hr => ?_⟩
  · rw [holder_put] at hid
    split at hid
    · next hsame =>
      cases hid
      exact ⟨record, JsMap.get_set_self _ _ _, hsame.1, hsame.2⟩
    · next hne =>
      obtain ⟨r, hr, hrun, hversion⟩ := h.held runId v id hid
      have hidne : record.planId ≠ id := by
        rintro rfl
        obtain ⟨hrun', hversion'⟩ := howns r hr
        exact hne ⟨hrun'.symm.trans hrun, hversion'.symm.trans hversion⟩
      exact ⟨r, (JsMap.get_set_ne _ _ hidne).trans hr, hrun, hversion⟩
  · rw [PlanStore.put, JsMap.get_set] at hr
    rw [holder_put]
    split at hr
    · next hid =>
      cases hr
      exact ⟨hid, by rw [if_pos ⟨rfl, rfl⟩, hid]⟩
    · next hid =>
      obtain ⟨hplan, hheld⟩ := h.stored id r hr
      refine ⟨hplan, ?_⟩
      rw [if_neg, hheld]
      rintro ⟨hrun, hversion⟩
      rw [← hrun, ← hversion] at hheld
      exact hid (hholder id hheld).symm

@[simp] theorem holder_replace (runId : String) (v : ℕ) :
    (s.replace record).holder runId v = s.holder runId v := rfl

theorem Has.replace (howns : s.Owns record) (h : s.Has r) : (s.replace record).Has r :=
  Has.put howns h

theorem Indexed.replace (h : s.Indexed) (hhas : s.Has record) : (s.replace record).Indexed := by
  refine ⟨fun runId v id hid => ?_, fun id r hr => ?_⟩
  · obtain ⟨r, hr, hrun, hversion⟩ := h.held runId v id hid
    by_cases hid' : record.planId = id
    · subst hid'
      obtain ⟨hrun', hversion'⟩ := hhas.owns r hr
      exact ⟨record, JsMap.get_set_self _ _ _, hrun' ▸ hrun, hversion' ▸ hversion⟩
    · exact ⟨r, (JsMap.get_set_ne _ _ hid').trans hr, hrun, hversion⟩
  · rw [PlanStore.replace, JsMap.get_set] at hr
    split at hr
    · next hid =>
      cases hr
      have hheld := hhas.holder h
      exact ⟨hid, hid ▸ hheld⟩
    · exact h.stored id r hr

/-- What `markSuperseded` writes, if it writes. -/
theorem markSuperseded_cases (planId : String) :
    (s.markSuperseded planId).2 = s ∨ ∃ r, s.byId.get planId = some r ∧
      (s.markSuperseded planId).2 = s.replace (r.withStatus .superseded) := by
  rw [markSuperseded]
  cases hr : s.byId.get planId with
  | none => exact .inl rfl
  | some r => exact .inr ⟨r, rfl, rfl⟩

end PlanStore

end Orchestrator
