import Orchestrator.Atomic.Exec
import Orchestrator.Memory.Learning

/-!
# Which calls the memory makes

For any class of calls that has all those that write nothing, what else must be in it for a function
of the memory to make no other calls.

* `MemoryOp.Reads`: the calls that write nothing;
* `only_learn`, `only_reviewCandidate`: the two services;
* `keeps_exec`: what the calls of a class keep, a function that makes no others keeps.
-/

namespace Orchestrator.Memory

open Atomic Collections

/-- The call leaves the world as it is. -/
def MemoryOp.Reads : MemoryOp → Prop
  | .getCandidate _ | .getHistoricalRun _ | .findHistoricalRun _ | .getOutcome _ | .hasEvidence _ |
    .listOpenContradictions | .getContradiction _ | .getDecision _ | .listPrecedents _ |
    .listActivePrecedents _ | .getPrecedent _ => True
  | _ => False

theorem MemoryOp.Reads.state {o : MemoryOp} (h : o.Reads) (w : MemoryWorld) :
    (memoryHandler o w).2 = w := by
  cases o <;> first | rfl | exact h.elim

section

variable {C : MemoryOp → Prop} (X : MemoryExternal) (policy : PrecedentPromotionPolicy)

theorem only_forEach {α : Type} {f : α → MemoryProg Unit} {as : List α}
    (hf : ∀ a ∈ as, (f a).Only C) : (Async.forEach f as).Only C := by
  induction as with
  | nil => exact Async.only_pure _
  | cons a as ih =>
    exact (hf a List.mem_cons_self).bind fun _ => ih fun b hb => hf b (List.mem_cons_of_mem a hb)

variable (hreads : ∀ o : MemoryOp, o.Reads → C o)

include hreads

theorem only_loadVerification (run : Option HistoricalRunRecord) :
    (loadVerification run).Only C := by
  unfold loadVerification
  split
  · exact Async.only_pure _
  · exact Async.only_await (hreads _ (by trivial))

theorem only_loadEvidence (refs : List String) : (loadEvidence refs).Only C := by
  induction refs with
  | nil => exact Async.only_pure _
  | cons ref refs ih =>
    exact (Async.only_await (hreads _ (by trivial))).bind fun _ => ih.bind fun _ => Async.only_pure _

theorem only_assessCandidate (candidate : LearningCandidate) (run : Option HistoricalRunRecord)
    (verification : Option OutcomeVerificationRecord) :
    (assessCandidate X policy candidate run verification).Only C :=
  (Async.only_await (hreads _ (by trivial))).bind fun _ =>
    (only_loadEvidence hreads _).bind fun _ => Async.only_pure _

theorem only_checkDecision (candidate : LearningCandidate) (id : Option String) :
    (checkDecision candidate id).Only C := by
  unfold checkDecision
  split
  · exact Async.only_pure _
  · refine (Async.only_await (hreads _ (by trivial))).bind fun bound => ?_
    split
    · exact Async.only_pure _
    · exact Async.only_throw _

/-- A promotion draws an id, appends the precedent and marks the candidate. -/
theorem only_promoteWithinTransaction {candidate : LearningCandidate} {options : PromotionOptions}
    (hid : C .nextPrecedentId)
    (happend : ∀ id, C (.appendPrecedent (precedentOf X candidate options id)))
    (hstatus : C (.updateCandidateStatus candidate.learningCandidateId .promoted)) :
    (promoteWithinTransaction X candidate options).Only C := by
  unfold promoteWithinTransaction
  refine Async.Only.ite (Async.only_throw _) ?_
  refine (Async.only_await (hreads _ (by trivial))).bind fun run => ?_
  refine (only_loadVerification hreads run).bind fun verification => ?_
  refine (Async.only_ofExcept _).bind fun _ => ?_
  refine (only_checkDecision hreads candidate _).bind fun _ => ?_
  refine (Async.only_await (hreads _ (by trivial))).bind fun records => ?_
  split
  · exact Async.only_pure _
  · refine (Async.only_await hid).bind fun id => ?_
    refine (Async.only_await (happend id)).bind fun _ => ?_
    exact (Async.only_await hstatus).bind fun _ => Async.only_pure _

theorem only_tryAutoPromote {candidate : LearningCandidate} (hid : C .nextPrecedentId)
    (happend : ∀ options id, C (.appendPrecedent (precedentOf X candidate options id)))
    (hstatus : C (.updateCandidateStatus candidate.learningCandidateId .promoted)) :
    (tryAutoPromote X policy candidate).Only C := by
  unfold tryAutoPromote
  refine (Async.only_await (hreads _ (by trivial))).bind fun run => ?_
  refine (only_loadVerification hreads run).bind fun verification => ?_
  refine (only_assessCandidate X policy hreads candidate _ _).bind fun readiness => ?_
  refine Async.Only.ite ?_ (Async.only_pure _)
  exact (only_promoteWithinTransaction X hreads hid (happend _) hstatus).bind fun _ =>
    Async.only_pure _

theorem only_reviewCandidate (input : ReviewInput) (hid : C .nextPrecedentId)
    (hdecisionId : C .nextPromotionDecisionId) (hdecision : ∀ d, C (.appendDecision d))
    (happend : ∀ candidate options id,
      C (.appendPrecedent (precedentOf X candidate options id)))
    (hstatus : ∀ id status, C (.updateCandidateStatus id status)) :
    (reviewCandidate X policy input).Only C := by
  unfold reviewCandidate applyHumanDecision
  refine (Async.only_await (hreads _ (by trivial))).bind fun stored => ?_
  split
  · exact Async.only_throw _
  · next candidate =>
    refine (Async.only_await (hreads _ (by trivial))).bind fun run => ?_
    refine (only_loadVerification hreads run).bind fun verification => ?_
    refine (only_assessCandidate X policy hreads candidate _ _).bind fun readiness => ?_
    refine (Async.only_ofExcept _).bind fun _ => ?_
    refine (Async.only_await hdecisionId).bind fun id => ?_
    refine (Async.only_await (hdecision _)).bind fun _ => ?_
    split
    · exact Async.only_await (hstatus _ _)
    · exact Async.only_pure _
    · exact (only_promoteWithinTransaction X hreads hid (happend candidate _) (hstatus _ _)).bind
        fun _ => Async.only_pure _

omit hreads in
theorem only_persistCandidates {candidates : List LearningCandidate}
    (happend : ∀ c ∈ candidates, C (.appendCandidate c)) :
    ∀ persisted, (persistCandidates candidates persisted).Only C := by
  induction candidates with
  | nil => exact fun _ => Async.only_pure _
  | cons candidate candidates ih =>
    exact fun _ => (Async.only_await (happend candidate List.mem_cons_self)).bind fun _ =>
      ih (fun c hc => happend c (List.mem_cons_of_mem candidate hc)) _

theorem only_detectForCandidate (candidate : LearningCandidate)
    (precedents : List PromotedPrecedent) (happend : ∀ r, C (.appendContradiction r)) :
    (detectForCandidate X candidate precedents).Only C := by
  unfold detectForCandidate
  refine Async.Only.ite (Async.only_pure _) (only_forEach fun p _ => ?_)
  unfold detectForPrecedent
  refine Async.Only.ite (Async.only_pure _) ?_
  refine (Async.only_await (hreads _ (by trivial))).bind fun found => ?_
  split
  · exact Async.only_pure _
  · exact Async.only_await (happend _)

theorem only_learnCandidate {candidate : LearningCandidate} (precedents : List PromotedPrecedent)
    (hcontradiction : ∀ r, C (.appendContradiction r)) (hid : C .nextPrecedentId)
    (happend : ∀ options id, C (.appendPrecedent (precedentOf X candidate options id)))
    (hstatus : C (.updateCandidateStatus candidate.learningCandidateId .promoted)) :
    (learnCandidate X policy precedents candidate).Only C := by
  unfold learnCandidate
  refine Async.Only.ite (Async.only_pure _) ?_
  exact (only_detectForCandidate X hreads candidate precedents hcontradiction).bind fun _ =>
    only_tryAutoPromote X policy hreads hid happend hstatus

theorem only_ensureHistoricalRunRecord {record : HistoricalRunRecord}
    (happend : C (.appendHistoricalRun record)) : (ensureHistoricalRunRecord record).Only C := by
  refine (Async.only_await (hreads _ (by trivial))).bind fun found => ?_
  split
  · exact Async.only_pure _
  · exact Async.only_await happend

theorem only_learn {record : HistoricalRunRecord} {drafts : List LearningCandidate}
    (hrecord : C (.appendHistoricalRun record))
    (hdrafts : ∀ d ∈ drafts, C (.appendCandidate (extracted d)))
    (hcontradiction : ∀ r, C (.appendContradiction r)) (hid : C .nextPrecedentId)
    (happend : ∀ candidate options id,
      C (.appendPrecedent (precedentOf X candidate options id)))
    (hstatus : ∀ id, C (.updateCandidateStatus id .promoted)) :
    (learn X policy record drafts).Only C := by
  refine (only_ensureHistoricalRunRecord hreads hrecord).bind fun historical => ?_
  refine (only_persistCandidates (fun c hc => ?_) _).bind fun persisted => ?_
  · obtain ⟨d, hd, rfl⟩ := List.mem_map.mp hc
    exact hdrafts d hd
  · refine (Async.only_await (hreads _ (by trivial))).bind fun active => only_forEach fun c _ => ?_
    exact only_learnCandidate X policy hreads active hcontradiction hid (happend c) (hstatus _)

end

/-- What the calls of a class keep, a function that makes no others keeps. -/
theorem keeps_exec {α : Type} {C : MemoryOp → Prop} {I : MemoryWorld → Prop} {p : MemoryProg α}
    (hp : p.Only C) (hcall : ∀ o w, C o → I w → I (memoryHandler o w).2) {w : MemoryWorld}
    (hw : I w) : I (p.exec memoryHandler w).2 := by
  have hkeeps : Keeps (Env.alone memoryHandler) anyCall C fun _ w => I w := by
    refine ⟨fun _ _ _ hrely h => hrely ▸ h, fun _ w o r w' ho h hstep => ⟨trivial, ?_⟩⟩
    have hstate : w' = (memoryHandler o w).2 := congrArg Prod.snd hstep
    rw [hstate]
    exact hcall o w ho h
  have hsat : p.Sat (Env.alone memoryHandler) anyCall (fun _ w _ => I w) [] w :=
    Async.Only.sat (I := fun _ (w : MemoryWorld) => I w) hp hkeeps hw
  exact Async.sat_alone.mp hsat

end Orchestrator.Memory
