import Orchestrator.Collections.JsMap
import Orchestrator.Domain.Run

/-!
# The run store

`InMemoryRunRepository`, keyed by run id, with its one mutation that execution uses: a
compare-and-set of a run's state.
-/

namespace Orchestrator

open Collections

/-- `InMemoryRunRepository`. -/
structure RunRepository where
  runs : JsMap String RunRecord
  keyed : ∀ k r, runs.get k = some r → r.runId = k

namespace RunRepository

def empty : RunRepository where
  runs := .empty
  keyed := by simp

def getById (s : RunRepository) (runId : String) : Option RunRecord := s.runs.get runId

/-- The store with `r` at its id. -/
def save (s : RunRepository) (r : RunRecord) : RunRepository where
  runs := s.runs.set r.runId r
  keyed := JsMap.forall_get_set rfl s.keyed

/-- The message of a failed compare-and-set. -/
def casMessage (runId : String) (expected : RunState) (expectedRecordRevision : ℕ)
    (current : Option RunRecord) : String :=
  let state := (current.map (·.state.text)).getD "undefined"
  let revision := (current.map fun r => toString r.recordRevision).getD "undefined"
  s!"Run CAS failed for {runId}: expected {expected.text}@{expectedRecordRevision}, was {state}@{revision}"

/-- The record after a transition. -/
def moved (r : RunRecord) (next : RunState) (updatedAt : ℕ) : RunRecord :=
  { r with state := next, updatedAt := updatedAt, recordRevision := r.recordRevision + 1 }

def transition (s : RunRepository) (runId : String) (expected : RunState)
    (expectedRecordRevision : ℕ) (next : RunState) (updatedAt : ℕ) :
    Except JsError RunRecord × RunRepository :=
  match s.runs.get runId with
  | none => (.error (.error (casMessage runId expected expectedRecordRevision none)), s)
  | some current =>
    if current.state = expected ∧ current.recordRevision = expectedRecordRevision then
      (.ok (moved current next updatedAt), s.save (moved current next updatedAt))
    else (.error (.error (casMessage runId expected expectedRecordRevision (some current))), s)

variable {s : RunRepository} {runId : String}

/-- A transition that finds the state and the revision it expects stores the moved record; any
other throws and leaves the store as it is. -/
theorem transition_cases (s : RunRepository) (runId : String) (expected : RunState) (revision : ℕ)
    (next : RunState) (t : ℕ) :
    (∃ r, s.getById runId = some r ∧ r.state = expected ∧ r.recordRevision = revision ∧
      s.transition runId expected revision next t = (.ok (moved r next t), s.save (moved r next t))) ∨
    ((∀ r, s.getById runId = some r → ¬(r.state = expected ∧ r.recordRevision = revision)) ∧
      ∃ e, s.transition runId expected revision next t = (.error e, s)) := by
  rw [transition, getById]
  cases hget : s.runs.get runId with
  | none => exact .inr ⟨(fun _ h => nomatch h), _, rfl⟩
  | some r =>
    by_cases hcas : r.state = expected ∧ r.recordRevision = revision
    · exact .inl ⟨r, rfl, hcas.1, hcas.2, if_pos hcas⟩
    · refine .inr ⟨?_, _, if_neg hcas⟩
      rintro _ ⟨⟩
      exact hcas

/-- A transition changes at most the run it names, to the state it names. -/
theorem getById_transition (s : RunRepository) (runId k : String) (expected : RunState)
    (revision : ℕ) (next : RunState) (t : ℕ) :
    (s.transition runId expected revision next t).2.getById k = s.getById k ∨
      ∃ r, s.getById k = some r ∧
        (s.transition runId expected revision next t).2.getById k = some (moved r next t) := by
  rcases transition_cases s runId expected revision next t with ⟨r, hget, -, -, h⟩ | ⟨-, e, h⟩
  · rw [h]
    by_cases hk : r.runId = k
    · have hrun : runId = k := (s.keyed runId r hget).symm.trans hk
      subst hrun
      exact .inr ⟨r, hget, by rw [← hk]; exact JsMap.get_set_self _ _ _⟩
    · exact .inl (JsMap.get_set_ne _ _ hk)
  · exact .inl (congrArg (fun o => o.2.getById k) h)

end RunRepository

end Orchestrator
