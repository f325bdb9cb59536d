import Orchestrator.Validation.Revisions
import Orchestrator.Validation.Scenario

/-!
# No decision overrides a blocker

What each part of `validate` does within the protocol of `Revisions`, and what follows for every
run of any number of calls.

* `Adjudicable`: what the loop knows of the plan it is at;
* `round_follows`: a round saves decisions that override nothing, and goes on to the next version;
* `validate_follows`: the rounds suffice, since versions are bounded;
* `validation_overrides_nothing`: the bounds in every state of every run.
-/

namespace Orchestrator

open Atomic Collections

namespace ValidationService

variable {ι : Type} [DecidableEq ι] {s₀ : PlanStore} {d₀ : DecisionStore} {X : ValidationExternal}
  {i : ι} {a b c : ValidationWorld × (ι → Drafts)} {log : Log ValidationSig} {α β : Type}

/-! ## Rules -/

/-- The condition after a function that may throw: `K` where it returned. -/
def Returns (K : ValidationWorld × (ι → Drafts) → α → Prop) :
    Log ValidationSig → ValidationWorld × (ι → Drafts) → Except ValidationFailure α → Prop :=
  fun _ b r => ∀ v, r = .ok v → K b v

omit [DecidableEq ι] in
theorem returns_error (log : Log ValidationSig) {K : ValidationWorld × (ι → Drafts) → α → Prop} {e : ValidationFailure} :
    Returns K log b (.error e) := fun _ h => nomatch h

omit [DecidableEq ι] in
theorem returns_ok (log : Log ValidationSig) {K : ValidationWorld × (ι → Drafts) → α → Prop} {v : α} (h : K b v) :
    Returns K log b (.ok v) := by
  intro v' hv
  cases hv
  exact h

theorem follows_pure {K : ValidationWorld × (ι → Drafts) → α → Prop} {v : α} (h : K a v) :
    Follows s₀ d₀ X i (pure v) (Returns K) log a := returns_ok log h

theorem follows_throw {K : ValidationWorld × (ι → Drafts) → α → Prop} {e : ValidationFailure} :
    Follows s₀ d₀ X i (throw e : Call α) (Returns K) log a := returns_error log

/-- Sequencing; what was stored is stored between the parts. -/
theorem follows_bind {p : Call α} {f : α → Call β} {K : ValidationWorld × (ι → Drafts) → α → Prop}
    {K' : ValidationWorld × (ι → Drafts) → β → Prop}
    (hp : Follows s₀ d₀ X i p (Returns K) log a)
    (hf : ∀ log b v, K b v → KeepsPlans a.1 b.1 → Follows s₀ d₀ X i (f v) (Returns K') log b) :
    Follows s₀ d₀ X i (p >>= f) (Returns K') log a :=
  Async.Sat.bind (Protocol.sat_moves hp) (fun log b v hv => hf log b v (hv.1 v rfl) hv.2)
    fun log _ _ _ => returns_error log

/-- A `try` block, with its `catch` block. -/
theorem follows_tryCatch {p : Call α} {f : ValidationFailure → Call α}
    {K : ValidationWorld × (ι → Drafts) → α → Prop}
    (hp : Follows s₀ d₀ X i p (Returns K) log a)
    (hf : ∀ log b e, KeepsPlans a.1 b.1 → Follows s₀ d₀ X i (f e) (Returns K) log b) :
    Follows s₀ d₀ X i (tryCatch p f) (Returns K) log a := by
  refine (Async.sat_tryCatch _ _).mpr
    (Async.Sat.mono (Protocol.sat_moves hp) fun log b r hr => ?_)
  cases r with
  | ok v => exact hr.1
  | error e => exact hf log b e hr.2

theorem follows_orThrow {p : Call α} {K : ValidationWorld × (ι → Drafts) → α → Prop}
    {code : ValidationErrorCode} {message : String}
    (hp : Follows s₀ d₀ X i p (Returns K) log a) :
    Follows s₀ d₀ X i (orThrow p code message) (Returns K) log a :=
  follows_tryCatch hp fun _ _ _ _ => follows_throw

theorem follows_mono {p : Call α} {K K' : ValidationWorld × (ι → Drafts) → α → Prop}
    (hp : Follows s₀ d₀ X i p (Returns K) log a) (hK : ∀ b v, K b v → K' b v) :
    Follows s₀ d₀ X i p (Returns K') log a :=
  Async.Sat.mono hp fun _ b _ hr v hv => hK b v (hr v hv)

/-- A program of quiet calls leaves what call `i` holds. -/
theorem quiet_follows {p : Call α} (hp : p.Only Quiet) :
    Follows s₀ d₀ X i p (Returns fun b _ => b.2 i = a.2 i) log a :=
  Async.Sat.mono (follows_quiet hp) fun _ _ _ hb _ _ => hb.1

/-- A quiet call, with its answer. -/
theorem quiet_call {o : ValidationOp} (ho : Quiet o)
    {K : ValidationWorld × (ι → Drafts) → o.Res → Prop}
    (hK : ∀ (b c : ValidationWorld × (ι → Drafts)) v, Bounded s₀ d₀ b.1 b.2 →
      KeepsPlans b.1 c.1 → (validation X o b.1).1 = .ok v → K c v) :
    Follows s₀ d₀ X i (call o) (Returns K) log a := by
  refine follows_call fun b hb _ _ => ?_
  obtain ⟨hkeeping, -⟩ := keeping_of_quiet (X := X) (i := i) ho hb
  exact ⟨hkeeping, fun v hv => hK b _ v hb hkeeping.2 hv⟩

/-- What a lookup found is in the store. -/
theorem validation_getPlan {w : ValidationWorld} {runId : String} {record : StoredPlanRecord}
    (h : (validation X (.getPlan runId) w).1 = .ok (some record)) :
    w.plans.getByRunId runId = some record := by
  rw [validation] at h
  cases hfails : w.surroundings.fails (.getPlan runId) with
  | some e =>
    rw [hfails] at h
    cases h
  | none =>
    rw [hfails] at h
    exact Except.ok.inj h

theorem validation_getPlanVersion {w : ValidationWorld} {runId : String} {v : ℕ}
    {record : StoredPlanRecord}
    (h : (validation X (.getPlanVersion runId v) w).1 = .ok (some record)) :
    w.plans.getVersion runId v = some record := by
  rw [validation] at h
  cases hfails : w.surroundings.fails (.getPlanVersion runId v) with
  | some e =>
    rw [hfails] at h
    cases h
  | none =>
    rw [hfails] at h
    exact Except.ok.inj h

/-! ## Parts that make nothing -/

theorem only_call {C : ValidationOp → Prop} {o : ValidationOp} (h : C o) : (call o).Only C :=
  Async.only_await h

theorem only_replay (runId : String) (record : StoredPlanRecord) (decision : ValidationDecision) :
    (replay runId record decision).Only Quiet :=
  Async.Only.bind (only_call trivial) fun _ => Async.only_pure _

theorem only_settledResult (runId : String) : (settledResult runId).Only Quiet := by
  refine Async.Only.bind (only_call trivial) fun record => ?_
  cases record with
  | none => exact Async.only_pure _
  | some record =>
    refine Async.Only.bind (only_call trivial) fun fence => ?_
    split
    · exact Async.only_pure _
    · refine Async.Only.bind (only_call trivial) fun decision => ?_
      cases decision with
      | none => exact Async.only_pure _
      | some decision =>
        exact Async.Only.ite (Async.only_pure _)
          (Async.Only.bind (only_replay _ _ _) fun _ => Async.only_pure _)

theorem only_loadRunContext (runId : String) : (loadRunContext runId).Only Quiet := by
  refine Async.Only.bind (only_call trivial) fun run => ?_
  cases run with
  | none => exact Async.only_throw _
  | some run =>
    refine Async.Only.bind (only_call trivial) fun objective => ?_
    cases objective with
    | none => exact Async.only_throw _
    | some objective =>
      exact Async.Only.bind (only_call trivial) fun _ => Async.Only.bind (only_call trivial)
        fun _ => Async.Only.bind (only_call trivial) fun _ => Async.only_pure _

theorem only_compileContext (runId : String) (runContext : ValidationRunContext) :
    (compileContext runId runContext).Only Quiet := by
  refine Async.Only.bind (only_call trivial) fun run =>
    Async.Only.bind (only_call trivial) fun objective => ?_
  cases run with
  | none => exact Async.only_throw _
  | some run =>
    cases objective with
    | none => exact Async.only_throw _
    | some objective => exact Async.Only.ite (Async.only_throw _) (only_call trivial)

theorem only_assessContextually (runId : String) (runContext : ValidationRunContext)
    (findings : List ValidationFinding) (plan : ExecutionPlan) :
    (assessContextually X runId runContext findings plan).Only Quiet :=
  Async.Only.bind (only_compileContext _ _) fun _ => Async.Only.bind (only_call trivial) fun _ =>
    Async.Only.bind (Async.only_ofExcept _) fun _ => Async.only_pure _

theorem only_examine (runId : String) (runContext : ValidationRunContext)
    (record : StoredPlanRecord) : (examine X runId runContext record).Only Quiet := by
  refine Async.Only.bind (only_call trivial) fun result => ?_
  split
  · exact only_assessContextually _ _ _ _
  · exact Async.only_pure _

theorem only_decisionOf (fence : ValidationFence) : (decisionOf fence).Only Quiet := by
  rw [decisionOf]
  split
  · exact only_call trivial
  · exact Async.only_pure _

theorem only_assertRunStaysValidating (runId : String) :
    (assertRunStaysValidating runId).Only Quiet := by
  refine Async.Only.bind (only_call trivial) fun run => ?_
  cases run with
  | none => exact Async.only_throw _
  | some run => exact Async.Only.ite (Async.only_throw _) (Async.only_pure _)

theorem only_raiseException (runId : String) (verdict : FinalVerdict)
    (record : StoredPlanRecord) : (raiseException runId verdict record).Only Quiet := by
  rw [raiseException]
  split
  · exact Async.only_pure _
  · exact Async.Only.bind (only_call trivial) fun _ => Async.Only.bind (only_call trivial)
      fun _ => Async.only_pure _

/-! ## Decisions -/

/-- A decision that overrides no finding is persisted. -/
theorem persistDecision_follows {runId : String} {record : StoredPlanRecord}
    {runContext : ValidationRunContext} {findings : List ValidationFinding}
    {decision : ValidationDecisionClass} {requiresHumanAction : Bool} {attempt : ℕ}
    (hsound : Overridable decision findings) :
    Follows s₀ d₀ X i (persistDecision runId record runContext findings decision
      requiresHumanAction attempt) (Returns fun _ _ => True) log a := by
  refine follows_bind (quiet_follows (only_call trivial)) fun log b id hb _ => ?_
  refine follows_bind (quiet_follows (only_call trivial)) fun log c now hc _ => ?_
  refine follows_orThrow (follows_call fun d hd _ _ => ?_)
  exact ⟨(keeping_saveDecision hd (by exact hsound)).1, fun _ _ => trivial⟩

/-- A stored plan gets the status of validation. -/
theorem restatus_follows {record : StoredPlanRecord} (hstatus : record.status ≠ .readyForValidation)
    (hhas : a.1.plans.Has record) :
    Follows s₀ d₀ X i (call (.savePlan record)) (Returns fun _ r => r = record) log a := by
  refine follows_call fun b hb _ hplans => ?_
  obtain ⟨hkeeping, -, hr⟩ := keeping_restatus (X := X) (i := i) hb hstatus (hplans record hhas)
  exact ⟨hkeeping, hr⟩

/-- A verdict on a stored plan that overrides none of its findings. -/
def Lawful (w : ValidationWorld) (verdict : FinalVerdict) : Prop :=
  w.plans.Has verdict.record ∧ Overridable verdict.decision verdict.findings

theorem finalize_follows {runId : String} {runContext : ValidationRunContext}
    {key : ValidationFenceKey} {ownerToken : String} {verdict : FinalVerdict}
    (hverdict : Lawful a.1 verdict) :
    Follows s₀ d₀ X i (finalize runId runContext key ownerToken verdict)
      (Returns fun _ _ => True) log a := by
  have hstatus : planStatusFor verdict.decision ≠ .readyForValidation := by
    cases verdict.decision <;> exact fun h => nomatch h
  refine follows_bind (persistDecision_follows hverdict.2) fun log b decision _ hb => ?_
  refine follows_bind (quiet_follows (only_call trivial)) fun log c now _ hc => ?_
  refine follows_bind (quiet_follows (only_call trivial)) fun log d _ _ hd => ?_
  have hhas := hd _ (hc _ (hb _ (hverdict.1.withStatus (planStatusFor verdict.decision))))
  refine follows_bind (restatus_follows hstatus hhas) fun log e record _ _ => ?_
  refine follows_bind (quiet_follows (only_assertRunStaysValidating runId)) fun log f _ _ _ => ?_
  exact follows_bind (quiet_follows (only_raiseException runId verdict record)) fun _ _ _ _ _ =>
    follows_pure trivial

/-! ## Revisions -/

section Loop

variable {B : ℕ} {runId : String} {record : StoredPlanRecord}

/-- The plan is one of the run, stored, and of a version up to `B`. -/
structure Adjudicable (B : ℕ) (runId : String) (w : ValidationWorld) (record : StoredPlanRecord) :
    Prop where
  has : w.plans.Has record
  runId_eq : record.runId = runId
  version_le : record.planVersion ≤ B

theorem Adjudicable.keeps {w w' : ValidationWorld} (h : Adjudicable B runId w record)
    (hkeeps : KeepsPlans w w') : Adjudicable B runId w' record :=
  ⟨hkeeps _ h.has, h.runId_eq, h.version_le⟩

omit [DecidableEq ι] in
/-- No stored plan has a version beyond the ones that were there and the ones that may be
made. -/
theorem Bounded.version_le {w : ValidationWorld} {g : ι → Drafts} (h : Bounded s₀ d₀ w g)
    (hmax : maxRevisedPlanVersion ≤ B) (hB : ∀ runId v id, s₀.holder runId v = some id → v ≤ B)
    (hhas : w.plans.Has record) : record.planVersion ≤ B := by
  rcases h.versions _ _ _ (hhas.holder h.indexed) with hle | hold
  · exact hle.trans hmax
  · exact hB _ _ _ hold

/-- A compiled proposal is the draft of the call. -/
theorem compileProposal_follows {proposal : PlanProposal} {context : PlanningContext} {v : ℕ} :
    Follows s₀ d₀ X i (compileProposal proposal context v)
      (Returns fun b revised => (b.2 i).drafted = some revised.planId) log a := by
  refine follows_tryCatch (follows_call fun b hb _ _ => ?_) fun _ _ _ _ => follows_throw
  exact keeping_compile hb proposal context v

/-- The revised plan is compiled under a new id, and saved as the next version. -/
theorem revise_follows (hmax : maxRevisedPlanVersion ≤ B) {deps : ValidationDeps}
    {plan : ExecutionPlan} {context : PlanningContext} {runContext : ValidationRunContext}
    {findings : List ValidationFinding} {prior : List String} :
    Follows s₀ d₀ X i (revise deps runId record plan context runContext findings prior)
      (Returns fun b r => Adjudicable B runId b.1 r ∧ r.planVersion = record.planVersion + 1)
      log a := by
  refine (Async.sat_ite _ _ _).mpr ⟨fun _ => follows_throw, fun hlimit => ?_⟩
  have hversion : record.planVersion + 1 ≤ maxRevisedPlanVersion := not_lt.mp hlimit
  refine follows_bind (quiet_follows (Async.only_ofExcept _)) fun log b envelope _ _ => ?_
  refine follows_bind (quiet_follows (only_call trivial)) fun log c proposal _ _ => ?_
  refine follows_bind compileProposal_follows fun log d revised hdrafted _ => ?_
  refine follows_bind (quiet_follows (only_call trivial)) fun log e now he _ => ?_
  refine follows_orThrow (follows_call fun f hf hholding _ => ?_)
  obtain ⟨hkeeping, hsaved⟩ := keeping_revision (X := X) (i := i) hf
    (revisedRecord deps runId record context revised now) rfl
    (by rw [hholding, he]; exact hdrafted) (Nat.lt_add_of_pos_left record.planVersion_pos) hversion
  refine ⟨hkeeping, fun r hr => ?_⟩
  obtain ⟨rfl, hhas⟩ := hsaved r hr
  exact ⟨⟨hhas, rfl, hversion.trans hmax⟩, rfl⟩

/-- A revision, if it did not fail, is the next version. -/
theorem tryRevise_follows (hmax : maxRevisedPlanVersion ≤ B) {deps : ValidationDeps}
    {plan : ExecutionPlan} {context : PlanningContext} {runContext : ValidationRunContext}
    {findings : List ValidationFinding} {prior : List String} :
    Follows s₀ d₀ X i (tryRevise deps runId record plan context runContext findings prior)
      (Returns fun b r => ∀ revised, r = .ok revised →
        Adjudicable B runId b.1 revised ∧ revised.planVersion = record.planVersion + 1) log a := by
  refine follows_tryCatch (follows_bind (revise_follows hmax) fun log b revised hb _ => ?_)
    fun log b e _ => ?_
  · refine follows_pure fun revised' h => ?_
    cases h
    exact hb
  · cases e with
    | validation code message => exact follows_pure fun _ h => nomatch h
    | other message => exact follows_throw

/-- The loop state stands at the next version. -/
def AtNext (B : ℕ) (runId : String) (v : ℕ) (w : ValidationWorld) (st : LoopState) : Prop :=
  Adjudicable B runId w st.record ∧ st.record.planVersion = v + 1

theorem supersede_follows {v : ℕ} {runContext : ValidationRunContext} {key : ValidationFenceKey}
    {ownerToken : String} {st : LoopState} {revised : StoredPlanRecord}
    {findings : List ValidationFinding} (hrevised : Adjudicable B runId a.1 revised)
    (hversion : revised.planVersion = v + 1) :
    Follows s₀ d₀ X i (supersede runId runContext key ownerToken st record revised findings)
      (Returns fun b st' => AtNext B runId v b.1 st') log a := by
  refine follows_bind (persistDecision_follows fun h => nomatch h) fun log b decision _ hb => ?_
  refine follows_bind (quiet_follows (only_call trivial)) fun log c now _ hc => ?_
  refine follows_bind (quiet_follows (only_call trivial)) fun log d _ _ hd => ?_
  refine follows_bind (quiet_follows (only_call trivial)) fun log e _ _ he => ?_
  exact follows_pure ⟨(((hrevised.keeps hb).keeps hc).keeps hd).keeps he, hversion⟩

/-- How an adjudication may go on from version `v`. -/
def Goes (B : ℕ) (runId : String) (v : ℕ) (w : ValidationWorld) : Adjudication → Prop
  | .next st => AtNext B runId v w st
  | .final verdict => Lawful w verdict

theorem adjudicateRevision_follows (hmax : maxRevisedPlanVersion ≤ B) {deps : ValidationDeps}
    {runContext : ValidationRunContext} {key : ValidationFenceKey} {ownerToken : String}
    {st : LoopState} {examination : Examination} {plan : ExecutionPlan}
    {context : PlanningContext} (hhas : a.1.plans.Has record) :
    Follows s₀ d₀ X i (adjudicateRevision X deps runId runContext key ownerToken st record
      examination plan context) (Returns fun b => Goes B runId record.planVersion b.1) log a := by
  refine follows_bind (tryRevise_follows hmax) fun log b revision hrevision hb => ?_
  cases revision with
  | ok revised =>
    obtain ⟨hrevised, hversion⟩ := hrevision revised rfl
    exact follows_bind (supersede_follows hrevised hversion) fun log c st' hc _ => follows_pure hc
  | error failure =>
    refine follows_bind (quiet_follows (Async.only_ofExcept _)) fun log c finding _ hc => ?_
    exact follows_pure ⟨hc _ (hb _ hhas), overridable_escalation _ _ _⟩

/-! ## Rounds -/

theorem markUnderValidation_follows (hhas : a.1.plans.Has record) :
    Follows s₀ d₀ X i (markUnderValidation record)
      (Returns fun b r => b.1.plans.Has r ∧ r.planVersion = record.planVersion) log a := by
  refine (Async.sat_ite _ _ _).mpr ⟨fun _ => follows_pure ⟨hhas, rfl⟩, fun _ => ?_⟩
  refine Async.Sat.mono (Protocol.sat_moves (restatus_follows (fun h => nomatch h)
    (hhas.withStatus .underValidation))) fun _ b _ hr r hret => ?_
  rw [hr.1 r hret]
  exact ⟨hr.2 _ (hhas.withStatus _), rfl⟩

/-- An adjudication goes on to the next version, or to a verdict that overrides nothing. -/
theorem adjudicate_follows (hmax : maxRevisedPlanVersion ≤ B) {deps : ValidationDeps}
    {runContext : ValidationRunContext} {key : ValidationFenceKey} {ownerToken : String}
    {st : LoopState} (hst : a.1.plans.Has st.record) :
    Follows s₀ d₀ X i (adjudicate X deps runId runContext key ownerToken st)
      (Returns fun b => Goes B runId st.record.planVersion b.1) log a := by
  refine follows_bind (markUnderValidation_follows hst) fun log b record hrecord _ => ?_
  refine follows_bind (quiet_follows (only_examine runId runContext record))
    fun log c examination _ hc => ?_
  have hhas : c.1.plans.Has record := hc _ hrecord.1
  rw [← hrecord.2]
  have hdecide := overridable_decide
    { findings := examination.findings
      repeatedFingerprints :=
        repeated st.seenFingerprints (blockingFingerprints examination.findings)
      remainingRevisionAttempts := remainingRevisionAttempts deps record }
  dsimp only
  split
  · exact adjudicateRevision_follows hmax hhas
  · exact follows_pure ⟨hhas, overridable_escalation _ _ _⟩
  · exact follows_pure ⟨hhas, hdecide⟩

/-- How a round may end at version `v`. -/
def Ends (B : ℕ) (runId : String) (v : ℕ) (w : ValidationWorld) : RoundEnd → Prop
  | .next st => AtNext B runId v w st
  | .done _ => True

theorem startedRound_follows (hmax : maxRevisedPlanVersion ≤ B) {deps : ValidationDeps}
    {runContext : ValidationRunContext} {key : ValidationFenceKey} {ownerToken : String}
    {st : LoopState} (hst : a.1.plans.Has st.record) :
    Follows s₀ d₀ X i (startedRound X deps runId runContext key ownerToken st)
      (Returns fun b => Ends B runId st.record.planVersion b.1) log a := by
  refine follows_tryCatch (follows_bind (adjudicate_follows hmax hst)
    fun log b adjudication hgoes _ => ?_) fun log b e _ => ?_
  · cases adjudication with
    | next st' => exact follows_pure hgoes
    | final verdict =>
      exact follows_bind (finalize_follows hgoes) fun _ _ _ _ _ => follows_pure trivial
  · refine follows_bind (quiet_follows (only_call trivial)) fun log c now _ _ => ?_
    refine follows_bind (K := fun _ _ => True) ?_ fun log d _ _ _ => follows_throw
    exact follows_mono (quiet_follows (Async.Only.tryCatch (only_call trivial) fun _ =>
      Async.only_pure _)) fun _ _ _ => trivial

theorem decidedRound_follows (hmax : maxRevisedPlanVersion ≤ B)
    (hB : ∀ runId v id, s₀.holder runId v = some id → v ≤ B) {st : LoopState}
    {key : ValidationFenceKey} {fence : ValidationFence}
    (hkey : key.planVersion = st.record.planVersion) :
    Follows s₀ d₀ X i (decidedRound runId st key fence)
      (Returns fun b => Ends B runId st.record.planVersion b.1) log a := by
  refine follows_bind (quiet_follows (only_decisionOf fence)) fun log b decided _ _ => ?_
  cases decided with
  | none => exact follows_throw
  | some decided =>
    refine (Async.sat_ite _ _ _).mpr ⟨fun _ => follows_pure trivial, fun _ => ?_⟩
    refine follows_bind (K := fun c next => ∀ record, next = some record →
      AtNext B runId st.record.planVersion c.1 { st with record := record })
      (quiet_call (o := .getPlanVersion runId (key.planVersion + 1)) trivial
        fun c d next hc hkeeps hnext record hrecord => ?_)
      fun log c next hnext _ => ?_
    · subst hrecord
      obtain ⟨hhas, hrun, hversion⟩ := PlanStore.has_of_getVersion hc.indexed
        (validation_getPlanVersion hnext)
      rw [hkey] at hversion
      exact ⟨⟨hkeeps _ hhas, hrun, hc.version_le hmax hB hhas⟩, hversion⟩
    · cases next with
      | none => exact follows_throw
      | some record => exact follows_pure (hnext record rfl)

/-- A round goes on to the next version, or ends the loop. -/
theorem round_follows (hmax : maxRevisedPlanVersion ≤ B)
    (hB : ∀ runId v id, s₀.holder runId v = some id → v ≤ B) {deps : ValidationDeps}
    {runContext : ValidationRunContext} {st : LoopState} (hst : a.1.plans.Has st.record) :
    Follows s₀ d₀ X i (round X deps runId runContext st)
      (Returns fun b => Ends B runId st.record.planVersion b.1) log a := by
  refine follows_bind (quiet_follows (only_call trivial)) fun log b now _ hb => ?_
  refine follows_bind (quiet_follows (only_call trivial)) fun log c begun _ hc => ?_
  cases begun with
  | alreadyDecided fence => exact decidedRound_follows hmax hB rfl
  | started fence ownerToken => exact startedRound_follows hmax (hc _ (hb _ hst))

/-- The loop comes to an end within as many rounds as there are versions left. -/
theorem loop_follows (hmax : maxRevisedPlanVersion ≤ B)
    (hB : ∀ runId v id, s₀.holder runId v = some id → v ≤ B) {deps : ValidationDeps}
    {runContext : ValidationRunContext} {rounds : ℕ} {st : LoopState}
    (hst : Adjudicable B runId a.1 st.record) (hrounds : B < st.record.planVersion + rounds) :
    Follows s₀ d₀ X i (loop X deps runId runContext rounds st)
      (Returns fun _ result => result ≠ none) log a := by
  induction rounds generalizing st log a with
  | zero => exact absurd hst.version_le (by omega)
  | succ rounds ih =>
    refine follows_bind (round_follows hmax hB hst.has) fun log b roundEnd hend _ => ?_
    cases roundEnd with
    | done result => exact follows_pure fun h => nomatch h
    | next st' =>
      obtain ⟨hst', hversion⟩ := hend
      exact ih hst' (by omega)

/-! ## The whole call -/

/-- A plan that the objective's part finds ready is the one it was given. -/
theorem assessObjective_follows {run : StoredRun} {plan : StoredPlanRecord} :
    Follows s₀ d₀ X i (assessObjective runId run plan)
      (Returns fun _ r => ∀ plan', r = .ok plan' → plan' = plan) log a := by
  refine follows_bind (quiet_follows (only_call trivial)) fun log b objective _ _ => ?_
  cases objective with
  | none => exact follows_pure fun _ h => nomatch h
  | some objective =>
    refine (Async.sat_ite _ _ _).mpr ⟨fun _ => follows_pure fun _ h => (nomatch h), fun _ => ?_⟩
    refine follows_tryCatch (follows_bind (quiet_follows (only_call trivial)) fun _ _ _ _ _ => ?_)
      fun _ _ _ _ => follows_pure fun _ h => nomatch h
    exact follows_pure fun plan' h => (Except.ok.inj h).symm

/-- A plan that is ready is stored, for the run. -/
theorem assessPlan_follows (hmax : maxRevisedPlanVersion ≤ B)
    (hB : ∀ runId v id, s₀.holder runId v = some id → v ≤ B) {run : StoredRun} :
    Follows s₀ d₀ X i (assessPlan runId run)
      (Returns fun b r => ∀ plan, r = .ok plan → Adjudicable B runId b.1 plan) log a := by
  refine follows_bind (K := fun c plan => ∀ record, plan = some record →
    c.1.plans.Has record ∧ record.planVersion ≤ B)
    (quiet_call (o := .getPlan runId) trivial fun c d plan hc hkeeps hplan record hrecord => ?_) fun log b plan hplan _ => ?_
  · subst hrecord
    have hhas := PlanStore.has_of_getByRunId hc.indexed (validation_getPlan hplan)
    exact ⟨hkeeps _ hhas, hc.version_le hmax hB hhas⟩
  cases plan with
  | none => exact follows_pure fun _ h => nomatch h
  | some plan =>
    obtain ⟨hhas, hversion⟩ := hplan plan rfl
    refine (Async.sat_ite _ _ _).mpr ⟨fun _ => follows_pure fun _ h => (nomatch h), fun hrun => ?_⟩
    refine (Async.sat_ite _ _ _).mpr ⟨fun _ => follows_pure fun _ h => (nomatch h), fun _ => ?_⟩
    refine Async.Sat.mono (Protocol.sat_moves assessObjective_follows) fun _ c _ hr r hret plan' h => ?_
    rw [hr.1 r hret plan' h]
    exact ⟨hr.2 _ hhas, not_not.mp hrun, hversion⟩

/-- A plan that is ready is stored, for the run. -/
theorem assertReady_follows (hmax : maxRevisedPlanVersion ≤ B)
    (hB : ∀ runId v id, s₀.holder runId v = some id → v ≤ B) :
    Follows s₀ d₀ X i (assertReady runId)
      (Returns fun b record => Adjudicable B runId b.1 record) log a := by
  refine follows_bind (K := fun b r => ∀ plan, r = .ok plan → Adjudicable B runId b.1 plan)
    (follows_bind (quiet_follows (only_call trivial)) fun log b run _ _ => ?_)
    fun log b readiness hready _ => ?_
  · cases run with
    | none => exact follows_pure fun _ h => nomatch h
    | some run =>
      exact (Async.sat_ite _ _ _).mpr ⟨fun _ => follows_pure fun _ h => (nomatch h),
        fun _ => assessPlan_follows hmax hB⟩
  · cases readiness with
    | ok plan => exact follows_pure (hready plan rfl)
    | error refusal => exact follows_throw

/-- Each call saves decisions that override nothing, and its rounds suffice. -/
theorem validate_follows (hmax : maxRevisedPlanVersion ≤ B)
    (hB : ∀ runId v id, s₀.holder runId v = some id → v ≤ B) {deps : ValidationDeps} {rounds : ℕ}
    (hrounds : B ≤ rounds) :
    Follows s₀ d₀ X i (validate X deps rounds runId)
      (Returns fun _ result => result ≠ none) log a := by
  refine follows_bind (quiet_follows (only_settledResult runId)) fun log b settled _ _ => ?_
  cases settled with
  | some result => exact follows_pure fun h => nomatch h
  | none =>
    refine follows_bind (assertReady_follows hmax hB) fun log c record hrecord _ => ?_
    refine follows_bind (quiet_follows (only_loadRunContext runId)) fun log d runContext _ hd => ?_
    refine follows_bind (quiet_follows (only_call trivial)) fun log e decisions _ he => ?_
    have hpos := record.planVersion_pos
    exact loop_follows hmax hB ((hrecord.keeps hd).keeps he) (by dsimp only; omega)

end Loop

/-! ## Every run -/

section Runs

/-- The version of a run that a revision made, by the call that made it. -/
def revisionTag (e : ι × Event ValidationSig) : Option (ι × String × ℕ) :=
  (revision e.2).map fun record => (e.1, record.runId, record.planVersion)

theorem note_revised (h : Drafts) (e : Event ValidationSig) :
    (h.note e).revised =
      ((revision e).map fun record => (record.runId, record.planVersion)).toList ++ h.revised := by
  obtain ⟨o, r⟩ := e
  cases o with
  | savePlan record =>
    cases r with
    | ok _ =>
      by_cases hstatus : record.status = .readyForValidation <;>
        simp [Drafts.note, revision, hstatus]
    | error _ => rfl
  | compileRevision _ _ _ => cases r <;> rfl
  | _ => rfl

/-- What the calls hold is what the history says they revised. -/
theorem holdings_revised (history : List (ι × Event ValidationSig)) (i : ι) :
    (history.foldr (fun e (g : ι → Drafts) => Function.update g e.1 ((g e.1).note e.2))
        (fun _ => .nothing) i).revised =
      ((history.filterMap revisionTag).filter fun t => t.1 = i).map Prod.snd := by
  induction history with
  | nil => rfl
  | cons e history ih =>
    rw [List.foldr_cons, List.filterMap_cons]
    by_cases hi : i = e.1
    · subst hi
      rw [Function.update_self, note_revised, ih, revisionTag]
      cases revision e.2 <;> simp
    · rw [Function.update_of_ne hi, ih, revisionTag]
      cases revision e.2 <;> simp [Ne.symm hi]

/-- Where no value occurs twice under one tag, nor under two, none occurs twice. -/
theorem nodup_of_tags {β : Type} {l : List (ι × β)}
    (hnodup : ∀ i, ((l.filter fun t => t.1 = i).map Prod.snd).Nodup)
    (hapart : ∀ i j p, (i, p) ∈ l → (j, p) ∈ l → i = j) : (l.map Prod.snd).Nodup := by
  induction l with
  | nil => exact List.nodup_nil
  | cons t l ih =>
    obtain ⟨i, p⟩ := t
    rw [List.map_cons, List.nodup_cons]
    refine ⟨fun hp => ?_, ih (fun j => (hnodup j).sublist ?_) fun j k q hj hk =>
      hapart j k q (List.mem_cons_of_mem _ hj) (List.mem_cons_of_mem _ hk)⟩
    · obtain ⟨⟨j, q⟩, hj, rfl⟩ := List.mem_map.mp hp
      obtain rfl := hapart i j q List.mem_cons_self (List.mem_cons_of_mem _ hj)
      have hi := hnodup i
      rw [List.filter_cons_of_pos (by simp), List.map_cons, List.nodup_cons] at hi
      exact hi.1 (List.mem_map.mpr ⟨(i, q), List.mem_filter.mpr ⟨hj, by simp⟩, rfl⟩)
    · exact ((List.sublist_cons_self _ _).filter _).map _

/-- The revisions of a run that were saved. -/
def revisionsOf {α : Type} (pool : Pool ValidationSig ι ValidationWorld α) (runId : String) :
    List StoredPlanRecord :=
  (pool.history.filterMap fun e => revision e.2).filter fun record => record.runId = runId

/-- The calls before any of them was made. -/
def validationPool (X : ValidationExternal) (deps : ValidationDeps) (w : ValidationWorld)
    (rounds : ℕ) (runIds : ι → String) :
    Pool ValidationSig ι ValidationWorld (Except ValidationFailure (Option ValidationResult)) :=
  Pool.init w fun i => (validate X deps rounds (runIds i)).prog

/-- The plans are stored under their versions, and the ids that are still to be given out are
all different, and new. -/
structure Orderly (w : ValidationWorld) : Prop where
  indexed : w.plans.Indexed
  injective : Function.Injective w.identities.plan
  unused : ∀ n, w.given.plans ≤ n → w.plans.byId.get (w.identities.plan n) = none

variable {w : ValidationWorld}

omit [DecidableEq ι] in
theorem bounded_initial (hw : Orderly w) :
    Bounded w.plans w.decisions w fun _ : ι => Drafts.nothing where
  indexed := hw.indexed
  versions _ _ _ h := .inr h
  sound _ _ h := .inl h
  injective := hw.injective
  unused := hw.unused
  drafted _ _ h := nomatch h
  distinct _ _ _ h := nomatch h
  revised _ _ h := nomatch h
  nodup _ := List.nodup_nil
  apart _ _ _ h := nomatch h

/-- No run has more revisions than there are versions to revise to. -/
theorem length_revisionsOf_le {α : Type} {pool : Pool ValidationSig ι ValidationWorld α}
    (h : Bounded s₀ d₀ pool.state
      ((validations s₀ d₀ X).holdings (fun _ => Drafts.nothing) pool)) (runId : String) :
    (revisionsOf pool runId).length ≤ maxSemanticRevisionAttempts := by
  set tags := pool.history.filterMap revisionTag with htags
  have hheld (i : ι) : ((validations s₀ d₀ X).holdings (fun _ => Drafts.nothing) pool i).revised =
      (tags.filter fun t => t.1 = i).map Prod.snd := holdings_revised pool.history i
  have hmem {i : ι} {p : String × ℕ} (hp : (i, p) ∈ tags) :
      p ∈ ((validations s₀ d₀ X).holdings (fun _ => Drafts.nothing) pool i).revised := by
    rw [hheld]
    exact List.mem_map.mpr ⟨(i, p), List.mem_filter.mpr ⟨hp, by simp⟩, rfl⟩
  have hnodup : (tags.map Prod.snd).Nodup :=
    nodup_of_tags (fun i => hheld i ▸ h.nodup i) fun i j p hi hj =>
      h.apart i j p (hmem hi) (hmem hj)
  have hkeys : (revisionsOf pool runId).map (fun r => (r.runId, r.planVersion)) =
      (tags.map Prod.snd).filter fun p => p.1 = runId := by
    have hsnd : tags.map Prod.snd =
        (pool.history.filterMap fun e => revision e.2).map fun r => (r.runId, r.planVersion) := by
      rw [htags, List.map_filterMap, List.map_filterMap]
      refine List.filterMap_congr fun e _ => ?_
      rw [revisionTag, Option.map_map]
      rfl
    rw [hsnd, List.filter_map]
    rfl
  have hsub : ((revisionsOf pool runId).map fun r => (r.runId, r.planVersion)).toFinset ⊆
      (Finset.Icc 2 maxRevisedPlanVersion).image fun v => (runId, v) := by
    intro p hp
    rw [List.mem_toFinset, hkeys, List.mem_filter] at hp
    obtain ⟨⟨⟨i, q⟩, hi, rfl⟩, hrun⟩ := And.imp_left List.mem_map.mp hp
    obtain ⟨hlow, hhigh, -⟩ := h.revised i q (hmem hi)
    exact Finset.mem_image.mpr ⟨q.2, Finset.mem_Icc.mpr ⟨hlow, hhigh⟩,
      Prod.ext (of_decide_eq_true hrun).symm rfl⟩
  calc (revisionsOf pool runId).length
      = ((revisionsOf pool runId).map fun r => (r.runId, r.planVersion)).length :=
        (List.length_map _).symm
    _ = ((revisionsOf pool runId).map fun r => (r.runId, r.planVersion)).toFinset.card :=
        (List.toFinset_card_of_nodup (hkeys ▸ hnodup.filter _)).symm
    _ ≤ ((Finset.Icc 2 maxRevisedPlanVersion).image fun v => (runId, v)).card :=
        Finset.card_le_card hsub
    _ ≤ (Finset.Icc 2 maxRevisedPlanVersion).card := Finset.card_image_le
    _ = maxSemanticRevisionAttempts := rfl

/-- Over every run of any number of validations: a decision that lets a plan go on carries no
finding that no approver may override, unless it was there before; a run is revised at most
`MAX_SEMANTIC_REVISION_ATTEMPTS` times; every plan with a version above
`MAX_REVISED_PLAN_VERSION` was there before; and the loop of a call never runs out of as many
rounds as there are versions. -/
theorem validation_overrides_nothing {deps : ValidationDeps} {rounds B : ℕ} {runIds : ι → String}
    (hw : Orderly w) (hmax : maxRevisedPlanVersion ≤ B)
    (hB : ∀ runId v id, w.plans.holder runId v = some id → v ≤ B) (hrounds : B ≤ rounds)
    (acts : List (Action ι ValidationMove)) :
    let pool := (validationPool X deps w rounds runIds).exec (validationSystem X) acts
    (∀ id d, pool.state.decisions.get id = some d →
      d.decision = .pass ∨ d.decision = .humanApprovalRequired →
      w.decisions.get id = some d ∨
        ¬∃ f ∈ d.findings, f.blocking = true ∧ f.approvalEligible = false) ∧
    (∀ runId, (revisionsOf pool runId).length ≤ maxSemanticRevisionAttempts) ∧
    (∀ runId v id, pool.state.plans.holder runId v = some id → maxRevisedPlanVersion < v →
      w.plans.holder runId v = some id) ∧
    ∀ i, pool.prog i ≠ some (.pure (.ok none)) := by
  intro pool
  have hpool : (validations w.plans w.decisions X).Holds (fun _ => Drafts.nothing)
      (fun _ => Returns fun _ result => result ≠ none) pool :=
    (Protocol.Holds.exec (Protocol.Holds.init (bounded_initial hw) fun _ =>
      validate_follows hmax hB hrounds) acts).1
  refine ⟨fun id d hd hclass => ?_, length_revisionsOf_le hpool.inv, fun runId v id hid hv => ?_,
    fun i hi => ?_⟩
  · refine (hpool.inv.sound id d hd).imp_right ?_
    rintro hsound ⟨f, hf, hblocking, heligible⟩
    have hgoes : d.decision.letsGoOn = true := by
      rcases hclass with hclass | hclass <;> rw [hclass] <;> rfl
    have hnot := hsound hgoes f hf
    rw [isNonApprovalEligibleBlockingFinding, hblocking, heligible] at hnot
    cases hnot
  · exact (hpool.inv.versions runId v id hid).resolve_left (not_le.mpr hv)
  · obtain ⟨b, -, hreturns⟩ := hpool.returned hi
    exact hreturns none rfl rfl

/-- The world of a first plan is orderly. -/
theorem orderly_world (findings : ℕ → List ValidationFinding) :
    Orderly (ValidationScenario.world findings) where
  indexed := PlanStore.indexed_empty.put (PlanStore.owns_of_none rfl) fun _ h => nomatch h
  injective := ValidationScenario.numbered_injective "plan_"
  unused n hn := by
    have hne : ValidationScenario.firstPlan.planId ≠ ValidationScenario.numbered "plan_" n := by
      intro h
      have hzero : 0 = n := ValidationScenario.numbered_injective "plan_" h
      have hpos : 1 ≤ n := hn
      omega
    exact JsMap.get_set_ne _ _ hne

/-- The first plan is revised once, for a finding that no approver may override, and then
passes. -/
def revisedOnce :
    Pool ValidationSig Unit ValidationWorld (Except ValidationFailure (Option ValidationResult)) :=
  (validationPool ValidationScenario.plainDigests ValidationScenario.deps
    (ValidationScenario.world fun v =>
      if v = 1 then [ValidationScenario.repairable "rule_1" false] else []) 3
    fun _ => "run_1").exec (validationSystem ValidationScenario.plainDigests)
      (List.replicate 50 (.run ()))

theorem validation_overrides_nothing_revised :
    (revisionsOf revisedOnce "run_1").length ≤ maxSemanticRevisionAttempts ∧
      (revisionsOf revisedOnce "run_1").length = 1 ∧
      (revisedOnce.state.decisions.values.map fun d => d.decision) = [.revise, .pass] :=
  ⟨(validation_overrides_nothing (B := 3) (orderly_world _) (by decide) (fun runId v id h => by
      change (PlanStore.empty.put ValidationScenario.firstPlan).holder runId v = some id at h
      rw [PlanStore.holder_put] at h
      split at h
      · next hsame => exact hsame.2 ▸ by decide
      · cases h) (by decide) _).2.1 "run_1",
    by decide, by decide⟩

end Runs

end ValidationService

end Orchestrator
