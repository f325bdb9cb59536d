import Orchestrator.Atomic.Pool
import Orchestrator.Programs.Scenario

/-!
# Decisions on a materialization

An approval is routed, decided and acted on by calls that run in any order.

* `ApprovalCall`, `approvalSystem`: the calls, beside moves of everything but the approvals;
* `SavesOverOpen`, that a save finds no decided approval under its id, which nothing checks;
* `DecisionsFinal`: decided approvals stay as they are, after a rejection no child is admitted, and
  one decision at most succeeds;
* `materialization_decision_final`: so it is in every run whose saves find no decided approval.
-/

namespace Orchestrator

open Atomic Collections ProgramService

/-! ## Names -/

theorem append_underscore_inj {a a' d d' : List Char} (hd : '_' ∉ d) (hd' : '_' ∉ d')
    (h : a ++ '_' :: d = a' ++ '_' :: d') : a = a' ∧ d = d' := by
  rcases List.append_eq_append_iff.mp h with ⟨t, rfl, ht⟩ | ⟨t, rfl, ht⟩
  · rcases List.cons_eq_append_iff.mp ht with ⟨rfl, hcons⟩ | ⟨t', rfl, rfl⟩
    · exact ⟨(List.append_nil _).symm, (List.cons.inj hcons).2.symm⟩
    · exact absurd (by simp) hd
  · rcases List.cons_eq_append_iff.mp ht with ⟨rfl, hcons⟩ | ⟨t', rfl, rfl⟩
    · exact ⟨List.append_nil _, (List.cons.inj hcons).2⟩
    · exact absurd (by simp) hd'

theorem toList_approvalIdFor (programId : String) (v : ℕ) :
    (approvalIdFor programId v).toList =
      ("pma_".toList ++ programId.toList) ++ '_' :: Nat.toDigits 10 v := by
  unfold approvalIdFor
  simp [toString, Nat.repr]

/-- The id of an approval names its program and its plan. -/
theorem approvalIdFor_inj {p p' : String} {v v' : ℕ}
    (h : approvalIdFor p v = approvalIdFor p' v') : p = p' ∧ v = v' := by
  have hdigits : ∀ n : ℕ, '_' ∉ Nat.toDigits 10 n := fun n hmem =>
    absurd (Nat.isDigit_of_mem_toDigits (by decide) (by decide) hmem) (by decide)
  have hlists := congrArg String.toList h
  rw [toList_approvalIdFor, toList_approvalIdFor] at hlists
  obtain ⟨hid, hv⟩ := append_underscore_inj (hdigits v) (hdigits v') hlists
  exact ⟨String.toList_inj.mp (List.append_cancel_left hid), (toDigits_readable ends_nil ends_nil (congrArg (· ++ []) hv)).1⟩

/-! ## Runs -/

/-- A call on the approval of a plan. -/
inductive ApprovalCall where
  | route (programId : String)
  | decide (input : DecideInput)
  | materialize (programId : String)

/-- What such a call returns. -/
inductive ApprovalReturn where
  | routed (routed : RoutedApproval)
  | decided (approval : ProgramMaterializationApproval)
  | materialized (result : MaterializeResult)

/-- The call. -/
def ApprovalCall.run (X : ProgramExternal) (deps : ProgramDeps) : ApprovalCall → Call ApprovalReturn
  | route programId => .routed <$> routeMaterializationApproval X deps programId
  | decide input => .decided <$> decideMaterialization X deps input
  | materialize programId => .materialized <$> materializeNext X deps programId

/-- The calls, beside moves that replace everything but the approvals. -/
def approvalSystem (X : ProgramExternal) : System ProgramSig ProgramWorld ProgramWorld where
  handler := orchestration X
  env e w := { e with stores := { e.stores with approvals := w.stores.approvals } }

/-- The calls, before any is made. -/
def approvalPool {ι : Type} (X : ProgramExternal) (deps : ProgramDeps) (w₀ : ProgramWorld)
    (calls : ι → ApprovalCall) :
    Pool ProgramSig ι ProgramWorld (Except ProgramFailure ApprovalReturn) :=
  .init w₀ fun i => ((calls i).run X deps).prog

/-- No approval that is saved replaces one that was decided. -/
def SavesOverOpen (w : ProgramWorld) : ProgramOp → Prop
  | .saveApproval a => ∀ b ∈ w.stores.approvals.getById a.approvalId, b.status = .pending
  | _ => True

instance (w : ProgramWorld) (o : ProgramOp) : Decidable (SavesOverOpen w o) := by
  cases o <;> unfold SavesOverOpen <;> infer_instance

/-- The approvals that are decided in `w` are the same in `w'`. -/
def DecisionsKept (w w' : ProgramWorld) : Prop :=
  ∀ id a, w.stores.approvals.getById id = some a → a.status ≠ .pending →
    w'.stores.approvals.getById id = some a

/-- A run whose decisions are final: a decided approval stays as it is, a rejection that was accepted
means that no child of the plan is admitted, and of the decisions on one approval one succeeds. -/
structure DecisionsFinal {ι : Type} [DecidableEq ι] (X : ProgramExternal) (calls : ι → ApprovalCall)
    (pool : Pool ProgramSig ι ProgramWorld (Except ProgramFailure ApprovalReturn))
    (acts : List (Action ι ProgramWorld)) : Prop where
  kept : ∀ before rest, acts = before ++ rest →
    DecisionsKept (pool.exec (approvalSystem X) before).state
      (pool.exec (approvalSystem X) acts).state
  rejected : ∀ i input a, calls i = .decide input →
    (pool.exec (approvalSystem X) acts).returned i = some (.ok (.decided a)) →
    a.status = .rejected → ∀ j request r, calls j = .materialize a.programId →
      request.objectiveVersion = a.programPlanVersion →
      (j, (⟨.admitObjective request, r⟩ : Event ProgramSig)) ∉
        (pool.exec (approvalSystem X) acts).history
  unique : ∀ i j input input' r r', calls i = .decide input → calls j = .decide input' →
    input.approvalId = input'.approvalId →
    (pool.exec (approvalSystem X) acts).returned i = some (.ok r) →
    (pool.exec (approvalSystem X) acts).returned j = some (.ok r') → i = j

/-! ## What calls keep -/

theorem DecisionsKept.refl (w : ProgramWorld) : DecisionsKept w w := fun _ _ h _ => h

theorem DecisionsKept.trans {w w' w'' : ProgramWorld} (h : DecisionsKept w w')
    (h' : DecisionsKept w' w'') : DecisionsKept w w'' :=
  fun id a ha hdecided => h' id a (h id a ha hdecided) hdecided

/-- The approval under an id is approved. -/
def ApprovedIn (w : ProgramWorld) (id : String) : Prop :=
  ∃ a, w.stores.approvals.getById id = some a ∧ a.status = .approved

theorem ApprovedIn.mono {w w' : ProgramWorld} {id : String} (h : ApprovedIn w id)
    (hkept : DecisionsKept w w') : ApprovedIn w' id := by
  obtain ⟨a, ha, hstatus⟩ := h
  exact ⟨a, hkept id a ha (by rw [hstatus]; decide), hstatus⟩

/-- An approval is named after its program and its plan. -/
def WellNamed (a : ProgramMaterializationApproval) : Prop :=
  a.approvalId = approvalIdFor a.programId a.programPlanVersion

/-- Every stored approval is. -/
def ApprovalsNamed (w : ProgramWorld) : Prop :=
  ∀ id a, w.stores.approvals.getById id = some a → WellNamed a

theorem approvalsNamed_iff {w : ProgramWorld} :
    ApprovalsNamed w ↔ ∀ a ∈ w.stores.approvals.list, WellNamed a :=
  ⟨fun h a ha => h _ a (Repository.mem_list.mp ha),
    fun h _ a ha => h a (Repository.mem_list_of_getById ha)⟩

instance (a : ProgramMaterializationApproval) : Decidable (WellNamed a) :=
  inferInstanceAs (Decidable (_ = _))

instance (w : ProgramWorld) : Decidable (ApprovalsNamed w) :=
  decidable_of_iff _ approvalsNamed_iff.symm

/-- The calls that save no approval. -/
def ProgramOp.Undeciding : ProgramOp → Prop
  | .saveApproval _ => False
  | _ => True

variable {X : ProgramExternal} {deps : ProgramDeps} {w : ProgramWorld}

theorem ProgramOp.Reads.undeciding {o : ProgramOp} (h : o.Reads) : o.Undeciding := by
  cases o with
  | saveApproval approval => exact h.elim
  | _ => trivial

/-- The other calls leave the approvals. -/
theorem orchestration_approvals {o : ProgramOp} (h : o.Undeciding) (w : ProgramWorld) :
    (orchestration X o w).2.stores.approvals = w.stores.approvals := by
  cases o with
  | saveApproval approval => exact h.elim
  | createProgram program => simp only [orchestration, onStore, ProgramWorld.setPrograms]
  | saveProgram program revision => simp only [orchestration, onStore, ProgramWorld.setPrograms]
  | transitionProgram programId expected revision next updatedAt extras =>
    simp only [orchestration, onStore, ProgramWorld.setPrograms]
  | savePlan plan => simp only [orchestration, onStore, ProgramWorld.setPlans]
  | budget o => simp only [orchestration, onStore, ProgramWorld.setBudgets]
  | registerDependency input =>
    unfold orchestration
    dsimp only
    split <;> rfl
  | saveLineage record =>
    unfold orchestration
    dsimp only
    split <;> rfl
  | saveCompletion record =>
    unfold orchestration
    dsimp only
    split
    · rfl
    · split <;> rfl
  | _ => rfl

/-- An approval is saved as it is, or not at all. -/
theorem orchestration_saveApproval (a : ProgramMaterializationApproval) (w : ProgramWorld) :
    (∃ e, orchestration X (.saveApproval a) w = (.error e, w)) ∨
    orchestration X (.saveApproval a) w = (.ok a,
      { w with stores := { w.stores with approvals := w.stores.approvals.save a } }) := by
  unfold orchestration
  dsimp only
  cases h : parseProgramRecord ProgramMaterializationApproval.issues a with
  | error e => exact .inl ⟨e, rfl⟩
  | ok b =>
    obtain ⟨rfl, -⟩ := parseProgramRecord_ok h
    exact .inr rfl

/-- A call that saves over no decided approval keeps the decided ones. -/
theorem orchestration_keeps {o : ProgramOp} (h : SavesOverOpen w o) :
    DecisionsKept w (orchestration X o w).2 := by
  by_cases ho : o.Undeciding
  · intro id a ha _
    rw [orchestration_approvals ho]
    exact ha
  · cases o with
    | saveApproval saved =>
      rcases orchestration_saveApproval (X := X) saved w with ⟨e, hsave⟩ | hsave
      · rw [hsave]
        exact .refl w
      · rw [hsave]
        intro id a ha hdecided
        refine (Repository.getById_save_ne _ fun hid => hdecided (h a ?_)).trans ha
        subst hid
        exact ha
    | _ => exact absurd trivial ho

/-- A call that saves no badly named approval keeps the stored ones well named. -/
theorem orchestration_named {o : ProgramOp} (ho : ∀ a, o = .saveApproval a → WellNamed a)
    (h : ApprovalsNamed w) : ApprovalsNamed (orchestration X o w).2 := by
  by_cases hquiet : o.Undeciding
  · intro id a ha
    exact h id a (orchestration_approvals (X := X) hquiet w ▸ ha)
  · cases o with
    | saveApproval saved =>
      rcases orchestration_saveApproval (X := X) saved w with ⟨e, hsave⟩ | hsave
      · rw [hsave]
        exact h
      · rw [hsave]
        intro id a ha
        replace ha : (w.stores.approvals.save saved).getById id = some a := ha
        rw [Repository.getById_save] at ha
        split_ifs at ha
        · cases ha
          exact ho _ rfl
        · exact h id a ha
    | _ => exact absurd trivial hquiet

/-! ## What the calls rely on -/

/-- The calls that save only well-named approvals, and admit nothing. -/
def ProgramOp.Plain (o : ProgramOp) : Prop :=
  (∀ a, o = .saveApproval a → WellNamed a) ∧ ∀ request, o ≠ .admitObjective request

/-- What a call may do: save a well-named approval, and admit children of an approved plan. -/
def Proper (c : ApprovalCall) (w : ProgramWorld) (o : ProgramOp) : Prop :=
  (∀ a, o = .saveApproval a → WellNamed a) ∧
    ∀ request p, o = .admitObjective request → c = .materialize p →
      ApprovedIn w (approvalIdFor p request.objectiveVersion)

theorem ProgramOp.Reads.plain {o : ProgramOp} (h : o.Reads) : o.Plain := by
  refine ⟨fun a ha => ?_, fun request ho => ?_⟩
  · subst ha
    exact h.elim
  · subst ho
    exact h.elim

theorem ProgramOp.Plain.proper {o : ProgramOp} (h : o.Plain) (c : ApprovalCall)
    (w : ProgramWorld) : Proper c w o :=
  ⟨h.1, fun request _ ho _ => absurd ho (h.2 request)⟩

/-- The calls rely on the decisions that were made, and on the names of approvals. -/
def decisionContract {ι : Type} [DecidableEq ι] (X : ProgramExternal) (calls : ι → ApprovalCall) :
    Contract (approvalSystem X) ι where
  env _ :=
    { rely := DecisionsKept
      step := fun _ w o r w' => ApprovalsNamed w ∧ SavesOverOpen w o ∧ (r, w') = orchestration X o w }
  spec i _ w o _ _ := Proper (calls i) w o
  inv := ApprovalsNamed
  cond _ := SavesOverOpen
  envCond _ _ := True
  rely_refl _ := .refl
  rely_trans _ _ _ _ h h' := h.trans h'
  answers _ _ _ _ hinv hcond := ⟨hinv, hcond, rfl⟩
  keeps _ _ _ _ hinv _ hspec := orchestration_named hspec.1 hinv
  guards _ _ _ _ _ _ _ hcond _ := orchestration_keeps hcond
  env_keeps _ _ hinv _ := hinv
  env_guards _ _ _ _ _ _ _ ha _ := ha

section Sat

variable {ι : Type} [DecidableEq ι] {calls : ι → ApprovalCall} {i : ι} {log : Log ProgramSig}

/-- Plain calls are proper. -/
theorem plain_keeps : Keeps ((decisionContract X calls).env i) ((decisionContract X calls).spec i)
    ProgramOp.Plain fun _ _ => True :=
  ⟨fun _ _ _ _ h => h, fun _ m _ _ _ ho _ _ => ⟨ho.proper _ m, trivial⟩⟩

theorem plain_sat {α : Type} {p : Call α} (hp : p.Only ProgramOp.Plain) :
    p.Sat ((decisionContract X calls).env i) ((decisionContract X calls).spec i) (fun _ _ _ => True) log w :=
  hp.sat plain_keeps trivial

/-- What has happened stays in the log. -/
theorem plain_mem {α : Type} {p : Call α} (hp : p.Only ProgramOp.Plain) {e : Event ProgramSig}
    (he : e ∈ log) :
    p.Sat ((decisionContract X calls).env i) ((decisionContract X calls).spec i) (fun log _ _ => e ∈ log) log w :=
  (hp.sat (plain_keeps.mem e) ⟨trivial, he⟩).mono fun _ _ _ h => h.2

/-- An approval that calls may rely on stays approved. -/
theorem approved_sat {α : Type} {p : Call α} {C : ProgramOp → Prop} {id : String}
    (hp : p.Only C) (hC : ∀ o w, C o → ApprovedIn w id → Proper (calls i) w o)
    (h : ApprovedIn w id) :
    p.Sat ((decisionContract X calls).env i) ((decisionContract X calls).spec i)
      (fun _ w _ => ApprovedIn w id) log w := by
  refine hp.sat ⟨fun _ _ _ hrely h => h.mono hrely, fun _ m o r m' ho h hstep => ?_⟩ h
  obtain ⟨-, hopen, heq⟩ := hstep
  obtain rfl : m' = (orchestration X o m).2 := congrArg Prod.snd heq
  exact ⟨hC o m ho h, h.mono (orchestration_keeps hopen)⟩

/-- A part that is plain comes first. -/
theorem Sat.after_plain {α β : Type} {p : Call α} {f : α → Call β}
    {Q : Log ProgramSig → ProgramWorld → Except ProgramFailure β → Prop}
    (hp : p.Only ProgramOp.Plain)
    (hf : ∀ log w a, (f a).Sat ((decisionContract X calls).env i) ((decisionContract X calls).spec i) Q log w)
    (herr : ∀ log w e, Q log w (.error e)) :
    (p.bind f).Sat ((decisionContract X calls).env i) ((decisionContract X calls).spec i) Q log w :=
  Async.Sat.bind (plain_sat hp) (fun log w a _ => hf log w a) fun log w e _ => herr log w e

/-! ## Routing and deciding -/

theorem route_plain (programId : String) :
    (routeMaterializationApproval X deps programId).Only ProgramOp.Plain := by
  have hreads : ∀ o : ProgramOp, o.Reads → o.Plain := fun _ h => h.plain
  have hnonce : ∀ o : ProgramOp, (∃ id, o = .takeNonce id) ∨ (∃ id s, o = .putNonce id s) →
      o.Plain := by
    rintro o (⟨id, rfl⟩ | ⟨id, t, rfl⟩)
    · exact ⟨fun _ h => (nomatch h), fun _ h => (nomatch h)⟩
    · exact ⟨fun _ h => (nomatch h), fun _ h => (nomatch h)⟩
  unfold routeMaterializationApproval
  refine Async.Only.bind (requireProgram_only hreads _) fun program => .ite (Async.only_throw _) ?_
  refine Async.Only.bind (requireLatestPlan_only hreads _) fun plan => ?_
  refine Async.Only.bind (only_call (hreads _ (by trivial))) fun existing => ?_
  refine Async.Only.bind ?_ fun routed => ?_
  · unfold pendingWithNonce
    cases existing with
    | none => exact Async.only_pure _
    | some existing =>
      refine .ite (Async.only_pure _) ?_
      refine Async.Only.bind (only_call (hnonce _ (.inl ⟨_, rfl⟩))) fun stored => ?_
      split
      · exact Async.only_pure _
      · exact Async.Only.bind (only_call (hnonce _ (.inr ⟨_, _, rfl⟩))) fun _ => Async.only_pure _
  · cases routed with
    | some routed => exact Async.only_pure _
    | none =>
      refine Async.Only.bind (only_call (hreads _ (by trivial))) fun now => ?_
      refine Async.Only.bind (only_call (hreads _ (by trivial))) fun plaintext => ?_
      refine Async.Only.bind (only_call ⟨?_, fun _ h => (nomatch h)⟩) fun saved => ?_
      · -- a new approval is named after its program and its plan
        rintro a ⟨⟩
        rfl
      · refine .ite ?_ (Async.only_pure _)
        exact Async.Only.bind (only_call (hnonce _ (.inr ⟨_, _, rfl⟩))) fun _ => Async.only_pure _

/-- What a decision that succeeded did: it saved the approval, decided. -/
def SavedDecision (log : Log ProgramSig) (approvalId : String)
    (r : Except ProgramFailure ProgramMaterializationApproval) : Prop :=
  ∀ a, r = .ok a → (⟨.saveApproval a, .ok a⟩ : Event ProgramSig) ∈ log ∧ a.status ≠ .pending ∧
    a.approvalId = approvalId

theorem savedDecision_error (log : Log ProgramSig) (approvalId : String) (e : ProgramFailure) :
    SavedDecision log approvalId (.error e) := fun _ h => nomatch h

theorem decidedApproval_status (a : ProgramMaterializationApproval) (input : DecideInput) :
    (decidedApproval a input).status ≠ .pending := by
  unfold decidedApproval
  dsimp only
  split <;> decide

/-- An approval that was read, decided on. -/
theorem decidePending_sat {input : DecideInput} {a : ProgramMaterializationApproval}
    (hnamed : WellNamed a) :
    (decidePending X deps input a).Sat ((decisionContract X calls).env i) ((decisionContract X calls).spec i)
      (fun log _ r => SavedDecision log a.approvalId r) log w := by
  have hreads : ∀ o : ProgramOp, o.Reads → o.Plain := fun _ h => h.plain
  have hmove : ∀ id s revision next now extras,
      (ProgramOp.transitionProgram id s revision next now extras).Plain :=
    fun _ _ _ _ _ _ => ⟨fun _ h => (nomatch h), fun _ h => (nomatch h)⟩
  unfold decidePending
  refine (Async.sat_ite _ _ _).mpr ⟨fun _ => savedDecision_error _ _ _, fun _ => ?_⟩
  refine Sat.after_plain (requireProgram_only hreads _) (fun log w program => ?_)
    fun _ _ _ => savedDecision_error _ _ _
  refine (Async.sat_ite _ _ _).mpr ⟨fun _ => savedDecision_error _ _ _, fun _ => ?_⟩
  refine Sat.after_plain (only_call (hreads _ (by trivial))) (fun log w allowed => ?_)
    fun _ _ _ => savedDecision_error _ _ _
  refine (Async.sat_ite _ _ _).mpr ⟨fun _ => savedDecision_error _ _ _, fun _ => ?_⟩
  refine Sat.after_plain (recheckAuthorityFreeze_only hreads _ _) (fun log w _ => ?_)
    fun _ _ _ => savedDecision_error _ _ _
  -- the decision is saved; what follows leaves it in the log
  refine Async.Sat.bind (R := fun log _ r => ∀ d, r = .ok d → d = decidedApproval a input ∧
    (⟨.saveApproval d, .ok d⟩ : Event ProgramSig) ∈ log) ?_ (fun log w d hd => ?_)
    fun _ _ _ _ => savedDecision_error _ _ _
  · intro m r m' _ hstep
    obtain ⟨-, -, heq⟩ := hstep
    refine ⟨⟨?_, fun _ _ h => (nomatch h)⟩, ?_⟩
    · rintro _ ⟨⟩
      exact hnamed
    · rintro d rfl
      rcases orchestration_saveApproval (X := X) (decidedApproval a input) m with ⟨e, hsave⟩ | hsave
      · cases heq.trans hsave
      · cases heq.trans hsave
        exact ⟨rfl, List.mem_cons_self⟩
  · obtain ⟨rfl, hmem⟩ := hd d rfl
    have hdone : ∀ {log}, (⟨.saveApproval (decidedApproval a input),
        .ok (decidedApproval a input)⟩ : Event ProgramSig) ∈ log →
        SavedDecision log a.approvalId (.ok (decidedApproval a input)) := by
      rintro log hmem _ ⟨⟩
      exact ⟨hmem, decidedApproval_status a input, rfl⟩
    refine (Async.sat_ite _ _ _).mpr ⟨fun _ => ?_, fun _ => hdone hmem⟩
    refine Async.Sat.bind (plain_mem (transition_only hreads fun _ => hmove _ _ _ _ _ _) hmem)
      (fun log w _ hmem => ?_) fun _ _ _ _ => savedDecision_error _ _ _
    exact hdone hmem

/-- A decision that succeeds saves the approval it was asked for, decided. -/
theorem decide_sat (input : DecideInput) :
    (decideMaterialization X deps input).Sat ((decisionContract X calls).env i)
      ((decisionContract X calls).spec i) (fun log _ r => SavedDecision log input.approvalId r) log w := by
  unfold decideMaterialization
  refine Async.Sat.bind (R := fun _ _ r => ∃ found, r = .ok found ∧
    ∀ a ∈ (found : Option ProgramMaterializationApproval), WellNamed a ∧
      a.approvalId = input.approvalId) ?_ (fun log w found hfound => ?_)
    fun _ _ _ _ => savedDecision_error _ _ _
  · intro m r m' _ hstep
    obtain ⟨hnamed, -, heq⟩ := hstep
    refine ⟨⟨fun _ h => (nomatch h), fun _ _ h => (nomatch h)⟩, _, congrArg Prod.fst heq, ?_⟩
    exact fun a ha => ⟨hnamed _ a ha, Repository.id_of_getById ha⟩
  · obtain ⟨_, ⟨⟩, hfound⟩ := hfound
    cases hpending : (found : Option ProgramMaterializationApproval).filter (·.status = .pending) with
    | none => exact savedDecision_error _ _ _
    | some a =>
      obtain ⟨hnamed, hid⟩ := hfound a (Option.filter_eq_some_iff.mp hpending).1
      refine (Async.sat_ite _ _ _).mpr ⟨fun _ => ?_, fun _ => hid ▸ decidePending_sat hnamed⟩
      refine Sat.after_plain (only_call ⟨?_, fun _ h => (nomatch h)⟩)
        (fun _ _ _ => savedDecision_error _ _ _) fun _ _ _ => savedDecision_error _ _ _
      rintro _ ⟨⟩
      exact hnamed

/-! ## Materialization -/

/-- The program that is required is the one that was asked for. -/
theorem requireProgram_id (programId : String) :
    (requireProgram programId).Sat ((decisionContract X calls).env i) ((decisionContract X calls).spec i)
      (fun _ _ r => ∀ program, r = .ok program → program.programId = programId) log w := by
  unfold requireProgram
  refine Async.Sat.bind (R := fun _ _ r => ∀ found, r = .ok found →
    ∀ program ∈ (found : Option Program), program.programId = programId) ?_
    (fun log w found hfound => ?_) fun _ _ _ _ => fun _ h => (nomatch h)
  · intro m r m' _ hstep
    obtain ⟨-, -, heq⟩ := hstep
    obtain rfl : r = .ok (m.stores.programs.byId.getById programId) := congrArg Prod.fst heq
    refine ⟨(ProgramOp.Reads.plain (by trivial)).proper _ _, ?_⟩
    rintro _ ⟨⟩ program hprogram
    exact Repository.id_of_getById hprogram
  · cases found with
    | none => exact fun _ h => nomatch h
    | some program =>
      rintro _ ⟨⟩
      exact hfound _ rfl program rfl

/-- The approval that is found is the program's, and it is approved. -/
theorem findApproved_sat (program : Program) :
    (findApprovedMaterialization program).Sat ((decisionContract X calls).env i)
      ((decisionContract X calls).spec i) (fun _ w r => ∀ a, r = .ok (some a) →
        ApprovedIn w (approvalIdFor program.programId a.programPlanVersion)) log w := by
  have hreads : ∀ o : ProgramOp, o.Reads → o.Plain := fun _ h => h.plain
  unfold findApprovedMaterialization
  refine Sat.after_plain (only_call (hreads _ (by trivial))) (fun log w found => ?_)
    fun _ _ _ _ h => (nomatch h)
  cases (found : Option ProgramPlan) with
  | none => exact fun _ h => nomatch h
  | some plan =>
    refine Async.Sat.bind (R := fun _ w r => ∀ found, r = .ok found →
      ∀ a ∈ (found : Option ProgramMaterializationApproval), a.status = .approved →
        ApprovedIn w (approvalIdFor program.programId a.programPlanVersion)) ?_
      (fun log w found hfound => ?_) fun _ _ _ _ => fun _ h => (nomatch h)
    · intro m r m' _ hstep
      obtain ⟨hnamed, -, heq⟩ := hstep
      obtain rfl : m' = m := congrArg Prod.snd heq
      obtain rfl : r = .ok (m'.stores.approvals.getById
        (approvalIdFor program.programId plan.programPlanVersion)) := congrArg Prod.fst heq
      refine ⟨(hreads _ (by trivial)).proper _ _, ?_⟩
      rintro _ ⟨⟩ a ha hstatus
      -- its name says which plan it is for
      have hversion : a.programPlanVersion = plan.programPlanVersion :=
        (approvalIdFor_inj ((hnamed _ a ha).symm.trans (Repository.id_of_getById ha))).2
      rw [hversion]
      exact ⟨a, ha, hstatus⟩
    · rintro a ha
      obtain ⟨hfiltered, hstatus⟩ := Option.filter_eq_some_iff.mp (Except.ok.inj ha)
      exact hfound _ rfl a hfiltered (of_decide_eq_true hstatus)

/-- The calls that save no approval, and admit children of one plan only. -/
def ProgramOp.ForPlan (programPlanVersion : ℕ) (o : ProgramOp) : Prop :=
  o.Undeciding ∧ ∀ request, o = .admitObjective request →
    request.objectiveVersion = programPlanVersion

theorem ProgramOp.Plain.forPlan {o : ProgramOp} (h : o.Plain) (ho : o.Undeciding) (v : ℕ) :
    o.ForPlan v := ⟨ho, fun request hsubmit => absurd hsubmit (h.2 request)⟩

/-- A materialization admits children of an approved plan. -/
theorem materialize_sat {programId : String} (hcall : calls i = .materialize programId) :
    (materializeNext X deps programId).Sat ((decisionContract X calls).env i)
      ((decisionContract X calls).spec i) (fun _ _ _ => True) log w := by
  have hreads : ∀ o : ProgramOp, o.Reads → o.Plain := fun _ h => h.plain
  unfold materializeNext
  refine Async.Sat.bind (requireProgram_id programId) (fun log w program hid => ?_)
    fun _ _ _ _ => trivial
  replace hid := hid program rfl
  refine (Async.sat_ite _ _ _).mpr ⟨fun _ => trivial, fun _ => ?_⟩
  refine (Async.sat_ite _ _ _).mpr ⟨fun _ => trivial, fun _ => ?_⟩
  refine (Async.sat_ite _ _ _).mpr ⟨fun _ => trivial, fun _ => ?_⟩
  refine Sat.after_plain (only_call (hreads _ (by trivial))) (fun log w _ => ?_)
    fun _ _ _ => trivial
  refine Async.Sat.bind (findApproved_sat program) (fun log w approved happroved => ?_)
    fun _ _ _ _ => trivial
  cases (approved : Option ProgramMaterializationApproval) with
  | none => exact trivial
  | some approved =>
    refine Async.Sat.bind (approved_sat (C := ProgramOp.Plain) (requireLatestPlan_only hreads _)
      (fun _ _ ho _ => ho.proper _ _) (happroved approved rfl)) (fun log w plan happroved => ?_)
      fun _ _ _ _ => trivial
    refine (Async.sat_ite _ _ _).mpr ⟨fun _ => trivial, fun hplan => ?_⟩
    have hversion : plan.programPlanVersion = approved.programPlanVersion := by
      by_contra hne
      exact hplan (.inr hne)
    have hquiet : ∀ o : ProgramOp, o.Reads → o.ForPlan plan.programPlanVersion :=
      fun o h => (hreads o h).forPlan h.undeciding _
    refine (approved_sat (C := ProgramOp.ForPlan plan.programPlanVersion)
      (materializePlan_only hquiet (fun _ => ⟨trivial, fun _ h => (nomatch h)⟩)
        (fun _ => ⟨trivial, fun _ h => (nomatch h)⟩) (fun _ => ⟨trivial, fun _ h => (nomatch h)⟩)
        (fun _ _ _ _ _ _ => ⟨trivial, fun _ h => (nomatch h)⟩) programId program plan
        fun node _ now => ⟨trivial, ?_⟩) (fun o m ho happroved => ?_) happroved).mono
      fun _ _ _ _ => trivial
    · rintro request ⟨⟩
      rfl
    · refine ⟨?_, fun request p hsubmit hp => ?_⟩
      · rintro a rfl
        exact ho.1.elim
      · rw [hcall] at hp
        cases hp
        rw [ho.2 request hsubmit, hversion, ← hid]
        exact happroved

/-! ## Whole runs -/

/-- A `decide` that reports a decision saved it. -/
def Reported (c : ApprovalCall) (log : Log ProgramSig) (r : Except ProgramFailure ApprovalReturn) :
    Prop :=
  ∀ input, c = .decide input → ∀ v, r = .ok v → ∃ a, v = .decided a ∧
    SavedDecision log input.approvalId (.ok a)

/-- Each call is judged. -/
theorem run_sat : ((calls i).run X deps).Sat ((decisionContract X calls).env i) ((decisionContract X calls).spec i)
    (fun log _ r => Reported (calls i) log r) log w := by
  cases hcall : calls i with
  | route programId =>
    refine (plain_sat (Async.Only.map _ (route_plain programId))).mono fun _ _ _ _ => ?_
    rintro input ⟨⟩
  | decide input =>
    refine Async.Sat.bind (decide_sat input) (fun log w a ha => ?_) fun log w e _ => ?_
    · rintro input' ⟨⟩ v ⟨⟩
      exact ⟨a, rfl, ha⟩
    · rintro input' ⟨⟩ v ⟨⟩
  | materialize programId =>
    refine Async.Sat.bind (materialize_sat hcall) (fun log w a _ => ?_) fun log w e _ => ?_
    · rintro input ⟨⟩
    · rintro input ⟨⟩

end Sat

/-- An approval was saved, decided, and that was reported. -/
def SavesDecided (e : Event ProgramSig) (a : ProgramMaterializationApproval) : Prop :=
  e = ⟨.saveApproval a, .ok a⟩ ∧ a.status ≠ .pending

variable {ι : Type} [DecidableEq ι] {calls : ι → ApprovalCall} {o : ProgramOp}

/-- What the calls of a pool have done so far: the decisions that were saved are stored, no two of
them are on one approval, and children were admitted of approved plans only. -/
structure Decided (calls : ι → ApprovalCall)
    (pool : Pool ProgramSig ι ProgramWorld (Except ProgramFailure ApprovalReturn)) : Prop where
  stored : ∀ i e a, (i, e) ∈ pool.history → SavesDecided e a →
    pool.state.stores.approvals.getById a.approvalId = some a
  once : ∀ i j e e' a a', (i, e) ∈ pool.history → (j, e') ∈ pool.history → SavesDecided e a →
    SavesDecided e' a' → a.approvalId = a'.approvalId → i = j
  admitted : ∀ j request r p, (j, (⟨.admitObjective request, r⟩ : Event ProgramSig)) ∈ pool.history →
    calls j = .materialize p → ApprovedIn pool.state (approvalIdFor p request.objectiveVersion)

omit [DecidableEq ι] in
/-- The state moves, and no decided approval is replaced. -/
theorem Decided.moved {pool : Pool ProgramSig ι ProgramWorld (Except ProgramFailure ApprovalReturn)}
    {w : ProgramWorld} {prog : ι → Option (Prog ProgramSig (Except ProgramFailure ApprovalReturn))}
    (h : Decided calls pool) (hkept : DecisionsKept pool.state w) :
    Decided calls ⟨w, prog, pool.history⟩ where
  stored i e a he ha := hkept _ _ (h.stored i e a he ha) ha.2
  once := h.once
  admitted j request r p hr hp := (h.admitted j request r p hr hp).mono hkept

omit [DecidableEq ι] in
/-- A call that saves over no decided approval, and is proper, keeps it so. -/
theorem Decided.call {pool : Pool ProgramSig ι ProgramWorld (Except ProgramFailure ApprovalReturn)}
    {w : ProgramWorld} {r : ProgramSig.Ret o}
    {prog : ι → Option (Prog ProgramSig (Except ProgramFailure ApprovalReturn))} {i : ι}
    (h : Decided calls pool) (hopen : SavesOverOpen pool.state o)
    (hproper : Proper (calls i) pool.state o) (heq : (r, w) = orchestration X o pool.state) :
    Decided calls ⟨w, prog, (i, ⟨o, r⟩) :: pool.history⟩ := by
  obtain rfl : w = (orchestration X o pool.state).2 := congrArg Prod.snd heq
  have hkept := orchestration_keeps (X := X) hopen
  -- a decision that is saved now finds no decision that was saved before
  have hfresh : ∀ a, SavesDecided ⟨o, r⟩ a → (∀ j e a', (j, e) ∈ pool.history →
      SavesDecided e a' → a.approvalId ≠ a'.approvalId) ∧
      (orchestration X o pool.state).2.stores.approvals.getById a.approvalId = some a := by
    rintro a ⟨hsave, -⟩
    cases hsave
    refine ⟨fun j e a' he ha' hid => ?_, ?_⟩
    · have hstored := h.stored j e a' he ha'
      rw [← hid] at hstored
      exact ha'.2 (hopen a' hstored)
    · rcases orchestration_saveApproval (X := X) a pool.state with ⟨e, hsave⟩ | hsave
      · cases heq.trans hsave
      · rw [hsave]
        exact Repository.getById_save_self _ a
  refine ⟨fun j e a he ha => ?_, fun j k e e' a a' he he' ha ha' hid => ?_,
    fun j request r' p hr hp => ?_⟩
  · rcases List.mem_cons.mp he with hnew | hold
    · cases hnew
      exact (hfresh a ha).2
    · exact hkept _ _ (h.stored j e a hold ha) ha.2
  · rcases List.mem_cons.mp he with hnew | hold <;> rcases List.mem_cons.mp he' with hnew' | hold'
    · exact (congrArg Prod.fst hnew).trans (congrArg Prod.fst hnew').symm
    · cases hnew
      exact absurd hid ((hfresh a ha).1 k e' a' hold' ha')
    · cases hnew'
      exact absurd hid.symm ((hfresh a' ha').1 j e a hold ha)
    · exact h.once j k e e' a a' hold hold' ha ha' hid
  · rcases List.mem_cons.mp hr with hnew | hold
    · cases hnew
      exact (hproper.2 request p rfl hp).mono hkept
    · exact (h.admitted j request r' p hold hp).mono hkept

/-- Every action keeps the decisions. -/
theorem keeps_step {w : ProgramWorld}
    (pool : Pool ProgramSig ι ProgramWorld (Except ProgramFailure ApprovalReturn))
    (a : Action ι ProgramWorld) (hmeets : pool.Meets (fun _ => SavesOverOpen) (fun _ _ => True) a)
    (h : DecisionsKept w pool.state) : DecisionsKept w (pool.act (approvalSystem X) a).state := by
  rcases pool.act_cases (approvalSystem X) a with ⟨i, o, k, rfl, hp, hcall, hact⟩ |
    ⟨i, rfl, hact⟩ | ⟨e, rfl, hact⟩ | hact
  · rw [hact]
    exact h.trans (orchestration_keeps (hmeets.call hcall))
  · rw [hact]
    exact h
  · rw [hact]
    exact h.trans fun _ _ ha _ => ha
  · rw [hact]
    exact h

theorem decided_step {Q : ι → Log ProgramSig → ProgramWorld → Except ProgramFailure ApprovalReturn →
      Prop} (pool : Pool ProgramSig ι ProgramWorld (Except ProgramFailure ApprovalReturn))
    (a : Action ι ProgramWorld) (hpool : (decisionContract X calls).Holds Q pool)
    (hmeets : pool.Meets (decisionContract X calls).cond (decisionContract X calls).envCond a)
    (h : Decided calls pool) : Decided calls (pool.act (approvalSystem X) a) := by
  rcases pool.act_cases (approvalSystem X) a with ⟨i, o, k, rfl, hp, hcall, hact⟩ |
    ⟨i, rfl, hact⟩ | ⟨e, rfl, hact⟩ | hact
  · have hopen := hmeets.call hcall
    rw [hact]
    exact h.call (X := X) hopen (hpool.call hp hopen).1 rfl
  · rw [hact]
    exact h.moved (.refl _)
  · rw [hact]
    exact h.moved fun _ _ ha _ => ha
  · rw [hact]
    exact h

/-- Whatever the calls and their order: while no approval that is saved replaces a decided one, the
decisions are final. -/
theorem materialization_decision_final (X : ProgramExternal) (deps : ProgramDeps)
    (w₀ : ProgramWorld) (calls : ι → ApprovalCall) (h₀ : ApprovalsNamed w₀)
    (acts : List (Action ι ProgramWorld))
    (hopen : (approvalPool X deps w₀ calls).Along (approvalSystem X) (fun _ => SavesOverOpen)
      (fun _ _ => True) acts) :
    DecisionsFinal X calls (approvalPool X deps w₀ calls) acts := by
  have hinit : (decisionContract X calls).Holds (fun i log _ r => Reported (calls i) log r)
      (approvalPool X deps w₀ calls) := .init h₀ fun i => run_sat
  have hnone : Decided calls (approvalPool X deps w₀ calls) :=
    ⟨fun _ _ _ h => (nomatch h), fun _ _ _ _ _ _ h => (nomatch h), fun _ _ _ _ h => (nomatch h)⟩
  obtain ⟨hpool, hdecided⟩ := hinit.exec_keeps decided_step acts hopen hnone
  refine ⟨?_, ?_, ?_⟩
  · rintro before rest rfl
    rw [Pool.exec_append]
    exact Pool.exec_keeps (approvalSystem X) (I := fun pool => DecisionsKept
      ((approvalPool X deps w₀ calls).exec (approvalSystem X) before).state pool.state)
      keeps_step rest _ (Pool.along_append.mp hopen).2 (.refl _)
  · intro i input a hcall hreturned hrejected j request r hj hversion hadmitted
    obtain ⟨_, -, hreported⟩ := hpool.returned hreturned
    obtain ⟨_, ⟨⟩, hsaved⟩ := hreported input hcall _ rfl
    obtain ⟨hmem, hstatus, -⟩ := hsaved a rfl
    have hstored := hdecided.stored i _ a (Pool.mem_log.mp hmem) ⟨rfl, hstatus⟩
    -- what is stored under the plan's name is approved, and it is the rejection
    obtain ⟨b, hb, happroved⟩ := hdecided.admitted j request r a.programId hadmitted hj
    rw [hversion, ← hpool.inv _ a hstored, hstored] at hb
    cases hb
    rw [hrejected] at happroved
    cases happroved
  · intro i j input input' v v' hi hj hid hreturned hreturned'
    obtain ⟨_, -, hreported⟩ := hpool.returned hreturned
    obtain ⟨_, -, hreported'⟩ := hpool.returned hreturned'
    obtain ⟨a, -, hsaved⟩ := hreported input hi v rfl
    obtain ⟨a', -, hsaved'⟩ := hreported' input' hj v' rfl
    obtain ⟨hmem, hstatus, hname⟩ := hsaved a rfl
    obtain ⟨hmem', hstatus', hname'⟩ := hsaved' a' rfl
    exact hdecided.once i j _ _ a a' (Pool.mem_log.mp hmem) (Pool.mem_log.mp hmem') ⟨rfl, hstatus⟩
      ⟨rfl, hstatus'⟩ (by rw [hname, hname', hid])

/-! ## A plan that is rejected -/

namespace ProgramScenario

/-- A program of one child whose plan awaits its approval. -/
def undecided : ProgramWorld := awaiting ["project_1"] [child]

/-- The calls in turn, each with so many actions. -/
def inTurns {n : ℕ} {ω : Type} (turns : List (Fin n × ℕ)) : List (Action (Fin n) ω) :=
  turns.flatMap fun turn => List.replicate turn.2 (.run turn.1)

/-- Rita rejects the plan, and Sam approves it. -/
def verdicts : Fin 5 → ApprovalCall :=
  ![.route "prog_1", .decide (decision "rita" .reject), .route "prog_1",
    .decide (decision "sam" .approve), .materialize "prog_1"]

end ProgramScenario

open ProgramScenario

set_option maxRecDepth 10000 in
/-- Rita rejects the plan, after which Sam's decision is refused: the theorem on that run. -/
theorem materialization_decision_final_rejected :
    DecisionsFinal external verdicts (approvalPool external .full undecided verdicts)
      (inTurns [(0, 7), (1, 5), (3, 1), (4, 1)]) :=
  materialization_decision_final external .full undecided verdicts (by decide +kernel) _
    (by decide +kernel)

/-- A call returned, without an error. -/
def succeeded {α : Type} : Option (Except ProgramFailure α) → Bool
  | some (.ok _) => true
  | _ => false

theorem exists_of_succeeded {α : Type} {r : Option (Except ProgramFailure α)}
    (h : succeeded r = true) : ∃ v, r = some (.ok v) := by
  unfold succeeded at h
  split at h
  · exact ⟨_, rfl⟩
  · cases h

set_option maxRecDepth 10000 in
/-- The plan is routed again after its rejection, and approved: both decisions succeed. -/
theorem rejection_taken_back :
    ¬∀ (w₀ : ProgramWorld) (calls : Fin 5 → ApprovalCall), ApprovalsNamed w₀ →
      ∀ acts, DecisionsFinal external calls (approvalPool external .full w₀ calls) acts := by
  intro h
  have hunique := (h undecided verdicts (by decide +kernel)
    (inTurns [(0, 7), (1, 5), (2, 7), (3, 7)])).unique 1 3
  have hboth : succeeded (((approvalPool external .full undecided verdicts).exec
        (approvalSystem external) (inTurns [(0, 7), (1, 5), (2, 7), (3, 7)])).returned 1) ∧
      succeeded (((approvalPool external .full undecided verdicts).exec
        (approvalSystem external) (inTurns [(0, 7), (1, 5), (2, 7), (3, 7)])).returned 3) := by
    decide +kernel
  obtain ⟨r, hr⟩ := exists_of_succeeded hboth.1
  obtain ⟨r', hr'⟩ := exists_of_succeeded hboth.2
  exact absurd (hunique _ _ r r' rfl rfl rfl hr hr') (by decide)

end Orchestrator
