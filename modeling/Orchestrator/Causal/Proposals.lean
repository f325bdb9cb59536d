import Orchestrator.Atomic.Triple
import Orchestrator.Causal.GraphValidator
import Orchestrator.Collections.Repository

/-!
# Proposals of causal graphs

`proposeGraph` asks a model for a graph, validates what it gets, stores it and moves the question
on. Any number of calls run together, while other services admit questions and move them.

* `CausalWorld`, `causalSystem`: the repositories and their calls;
* `reserveCausalUsage`, `proposeGraph`: the service;
* `CausalInvariant`: what is stored was validated, and a question that has moved on has a graph;
* `proposals_validated`: so it is in every run.
-/

namespace Orchestrator.Causal

open Atomic Collections

/-! ## The repositories -/

structure CausalProposalEdge where
  fromVariableId : String
  toVariableId : String
  edgeType : CausalEdgeType
  provenance : CausalEdgeProvenance
  note : Option String
  deriving DecidableEq, Repr

structure CausalGraphProposal where
  nodes : List CausalVariable
  edges : List CausalProposalEdge
  deriving DecidableEq, Repr

/-- The repositories of the causal service, and how the model answers next. -/
structure CausalWorld where
  questions : Repository CausalQuestion.causalQuestionId
  graphs : List CausalGraph
  usage : JsMap String CausalUsageSnapshot
  proposal : CausalQuestion → Except CausalError CausalGraphProposal

inductive CausalOp where
  | getById (causalQuestionId : String)
  | getLatestByQuestion (causalQuestionId : String)
  | getUsage (causalQuestionId : String)
  | saveUsage (causalQuestionId : String) (snapshot : CausalUsageSnapshot)
      (expectedRevision : Option ℕ)
  | propose (question : CausalQuestion)
  | saveGraph (graph : CausalGraph)
  | transition (causalQuestionId : String) (fromStatus : CausalQuestionState)
      (expectedRevision : ℕ) (toStatus : CausalQuestionState)

abbrev CausalOp.Res : CausalOp → Type
  | .getById _ => Option CausalQuestion
  | .getLatestByQuestion _ => Option CausalGraph
  | .getUsage _ => Option CausalUsageSnapshot
  | .saveUsage _ _ _ => CausalUsageSnapshot
  | .propose _ => CausalGraphProposal
  | .saveGraph _ => CausalGraph
  | .transition _ _ _ _ => CausalQuestion

abbrev CausalSig : Sig := Sig.throwing CausalOp CausalOp.Res CausalError

/-- The question in another state. -/
def CausalQuestion.moved (question : CausalQuestion) (status : CausalQuestionState) :
    CausalQuestion :=
  { question with status, recordRevision := question.recordRevision + 1 }

namespace CausalWorld

/-- The graph of the question with the highest version, the oldest of these. -/
def getLatestByQuestion (w : CausalWorld) (causalQuestionId : String) : Option CausalGraph :=
  ((w.graphs.filter fun g => g.causalQuestionId = causalQuestionId).insertionSort
    fun a b => b.causalGraphVersion ≤ a.causalGraphVersion).head?

/-- `save` of the usage ledger; without an expected revision it stores in any case. -/
def saveUsage (w : CausalWorld) (causalQuestionId : String) (snapshot : CausalUsageSnapshot)
    (expectedRevision : Option ℕ) : Except CausalError CausalUsageSnapshot × CausalWorld :=
  let existing := w.usage.get causalQuestionId
  if expectedRevision.isSome ∧ existing.map (·.recordRevision) ≠ expectedRevision then
    (.error ⟨.causalCasConflict, s!"Usage ledger CAS conflict for {causalQuestionId}", none⟩, w)
  else
    let next := { snapshot with
      recordRevision := (existing.map (·.recordRevision)).getD 0 + 1 }
    (.ok next, { w with usage := w.usage.set causalQuestionId next })

/-- Why `transition` refuses a question. -/
def transitionRefusal (question : CausalQuestion) (fromStatus : CausalQuestionState)
    (expectedRevision : ℕ) (toStatus : CausalQuestionState) : Option CausalError :=
  if question.status ≠ fromStatus ∨ question.recordRevision ≠ expectedRevision then
    some ⟨.causalStateConflict,
      s!"Causal question {question.causalQuestionId} state/revision mismatch", none⟩
  else if canTransitionCausalQuestion fromStatus toStatus = false then
    some ⟨.invalidCausalTransition,
      s!"Illegal transition {fromStatus.name} → {toStatus.name}", none⟩
  else none

def transition (w : CausalWorld) (causalQuestionId : String) (fromStatus : CausalQuestionState)
    (expectedRevision : ℕ) (toStatus : CausalQuestionState) :
    Except CausalError CausalQuestion × CausalWorld :=
  match w.questions.getById causalQuestionId with
  | none =>
    (.error ⟨.causalQuestionNotFound, s!"Causal question {causalQuestionId} missing", none⟩, w)
  | some existing =>
    match transitionRefusal existing fromStatus expectedRevision toStatus with
    | some e => (.error e, w)
    | none => (.ok (existing.moved toStatus),
        { w with questions := w.questions.save (existing.moved toStatus) })

def call (o : CausalOp) (w : CausalWorld) : Except CausalError o.Res × CausalWorld :=
  match o with
  | .getById causalQuestionId => (.ok (w.questions.getById causalQuestionId), w)
  | .getLatestByQuestion causalQuestionId => (.ok (w.getLatestByQuestion causalQuestionId), w)
  | .getUsage causalQuestionId => (.ok (w.usage.get causalQuestionId), w)
  | .saveUsage causalQuestionId snapshot expectedRevision =>
    w.saveUsage causalQuestionId snapshot expectedRevision
  | .propose question => (w.proposal question, w)
  | .saveGraph graph => (.ok graph, { w with graphs := w.graphs ++ [graph] })
  | .transition causalQuestionId fromStatus expectedRevision toStatus =>
    w.transition causalQuestionId fromStatus expectedRevision toStatus

end CausalWorld

/-- What goes on beside the calls: the model changes its mind, a question is admitted, another
service moves a question without proposing a graph for it, or reserves usage. -/
inductive CausalStep where
  | model (proposal : CausalQuestion → Except CausalError CausalGraphProposal)
  | admitQuestion (question : CausalQuestion)
  | move (causalQuestionId : String) (toStatus : CausalQuestionState)
  | reserve (causalQuestionId : String) (snapshot : CausalUsageSnapshot)

/-- The states in which a graph is proposed. -/
def CausalQuestionState.acceptsGraph : CausalQuestionState → Bool
  | admitted => true
  | stale => true
  | _ => false

namespace CausalWorld

def step (w : CausalWorld) : CausalStep → CausalWorld
  | .model proposal => { w with proposal }
  | .admitQuestion question =>
    if w.questions.getById question.causalQuestionId = none ∧ question.status = .admitted then
      { w with questions := w.questions.save question }
    else w
  | .move causalQuestionId toStatus =>
    match w.questions.getById causalQuestionId with
    | none => w
    | some question =>
      if canTransitionCausalQuestion question.status toStatus = true ∧
          ¬(question.status.acceptsGraph = true ∧ toStatus = .graphProposed) then
        { w with questions := w.questions.save (question.moved toStatus) }
      else w
  | .reserve causalQuestionId snapshot =>
    { w with usage := w.usage.set causalQuestionId snapshot }

end CausalWorld

def causalSystem : System CausalSig CausalWorld CausalStep where
  handler := CausalWorld.call
  env e w := w.step e

/-! ## The service -/

/-- A call of a repository or of the model. -/
def CausalOp.await (o : CausalOp) : Async CausalSig CausalError o.Res := Async.await o

structure CausalUsageDelta where
  graphModelCalls : ℕ := 0
  modelTokens : ℕ := 0
  estimators : ℕ := 0
  synthesisOperations : ℕ := 0

/-- `existing ?? emptyCausalUsage(nowIso)`. -/
def currentUsage (existing : Option CausalUsageSnapshot) : CausalUsageSnapshot :=
  existing.getD ⟨0, 0, 0, 0, 1⟩

def nextUsage (current : CausalUsageSnapshot) (delta : CausalUsageDelta) : CausalUsageSnapshot where
  graphModelCalls := current.graphModelCalls + delta.graphModelCalls
  modelTokens := current.modelTokens + delta.modelTokens
  estimators := current.estimators + delta.estimators
  synthesisOperations := current.synthesisOperations + delta.synthesisOperations
  recordRevision := current.recordRevision

/-- The checks of `reserveCausalUsage`. -/
def assertCausalBudget (next : CausalUsageSnapshot) (budget : CausalAnalysisBudget) :
    Except CausalError Unit :=
  if next.graphModelCalls > budget.maximumGraphModelCalls then
    .error ⟨.causalBudgetExceeded, "Graph model call budget exceeded", none⟩
  else if next.modelTokens > budget.maximumModelTokens then
    .error ⟨.causalBudgetExceeded, "Model token budget exceeded", none⟩
  else if next.estimators > budget.maximumEstimators then
    .error ⟨.causalBudgetExceeded, "Estimator budget exceeded", none⟩
  else if next.synthesisOperations > budget.maximumSynthesisOperations then
    .error ⟨.causalBudgetExceeded, "Synthesis operation budget exceeded", none⟩
  else .ok ()

def reserveCausalUsage (causalQuestionId : String) (budget : CausalAnalysisBudget)
    (delta : CausalUsageDelta) : Async CausalSig CausalError CausalUsageSnapshot := do
  let existing ← (CausalOp.getUsage causalQuestionId).await
  let next := nextUsage (currentUsage existing) delta
  Async.ofExcept (assertCausalBudget next budget)
  (CausalOp.saveUsage causalQuestionId next (existing.map (·.recordRevision))).await

def requireQuestion (id : String) : Async CausalSig CausalError CausalQuestion := do
  match ← (CausalOp.getById id).await with
  | none => Async.throw ⟨.causalQuestionNotFound, s!"Unknown causal question {id}", none⟩
  | some question => Async.pure question

variable (mintEdgeId : CausalProposalEdge → String)

/-- The graph made of a proposal. -/
def proposedGraph (question : CausalQuestion) (proposal : CausalGraphProposal) : CausalGraph where
  causalGraphId := s!"cg_{question.causalQuestionId}_v1"
  causalGraphVersion := 1
  causalQuestionId := question.causalQuestionId
  nodes := proposal.nodes
  edges := proposal.edges.map fun e =>
    ⟨mintEdgeId e, e.fromVariableId, e.toVariableId, e.edgeType, e.provenance⟩

/-- The graph, when it passes. -/
def validatedGraph (graph : CausalGraph) (question : CausalQuestion) :
    Except CausalError CausalGraph :=
  match validateCausalGraph graph question with
  | some (.ok result) =>
    if result.outcome = .block then
      .error ⟨.causalGraphInvalid, "; ".intercalate result.reasons, none⟩
    else .ok graph
  | some (.error e) => .error e
  -- the search always ends
  | none => .error (cycleUnsupported graph)

/-- The conflict of a question that is not open to a proposal. -/
def notOpen (question : CausalQuestion) : CausalError :=
  ⟨.causalStateConflict, s!"proposeGraph requires ADMITTED (got {question.status.name})", none⟩

/-- The graph of a question that has one. -/
def existingGraph (question : CausalQuestion) :
    Async CausalSig CausalError (CausalQuestion × CausalGraph) := do
  match ← (CausalOp.getLatestByQuestion question.causalQuestionId).await with
  | some existing => Async.pure (question, existing)
  | none => Async.throw (notOpen question)

def assertCausalQuestionTransition (a b : CausalQuestionState) : Except CausalError Unit :=
  if canTransitionCausalQuestion a b = true then .ok ()
  else .error ⟨.invalidCausalTransition,
    s!"Illegal causal question transition {a.name} → {b.name}", none⟩

/-- The service's `transition`. -/
def transitionQuestion (question : CausalQuestion) (next : CausalQuestionState) :
    Async CausalSig CausalError CausalQuestion := do
  Async.ofExcept (assertCausalQuestionTransition question.status next)
  (CausalOp.transition question.causalQuestionId question.status question.recordRevision
    next).await

/-- A new graph for a question that is open. -/
def newGraph (question : CausalQuestion) :
    Async CausalSig CausalError (CausalQuestion × CausalGraph) := do
  let _ ← reserveCausalUsage question.causalQuestionId question.budgetEnvelope
    { graphModelCalls := 1, modelTokens := 100 }
  let proposal ← (CausalOp.propose question).await
  let graph ← Async.ofExcept (validatedGraph (proposedGraph mintEdgeId question proposal) question)
  let _ ← (CausalOp.saveGraph graph).await
  let next ← transitionQuestion question .graphProposed
  Async.pure (next, graph)

def proposeGraph (causalQuestionId : String) :
    Async CausalSig CausalError (CausalQuestion × CausalGraph) := do
  let question ← requireQuestion causalQuestionId
  if question.status.acceptsGraph = true then newGraph mintEdgeId question
  else if question.status = .graphProposed then existingGraph question
  else Async.throw (notOpen question)

/-! ## What is known of questions -/

/-- The units of a question never change. -/
def SameUnits (q q' : CausalQuestion) : Prop :=
  q'.interventionUnit = q.interventionUnit ∧ q'.outcomeUnit = q.outcomeUnit

theorem SameUnits.refl (q : CausalQuestion) : SameUnits q q := ⟨rfl, rfl⟩

theorem SameUnits.trans {q q' q'' : CausalQuestion} (h : SameUnits q q') (h' : SameUnits q' q'') :
    SameUnits q q'' :=
  ⟨h'.1.trans h.1, h'.2.trans h.2⟩

/-- Whether a graph is well formed depends only on the units of its question. -/
theorem WellFormed.of_sameUnits {graph : CausalGraph} {q q' : CausalQuestion}
    (h : WellFormed graph q) (hsame : SameUnits q q') : WellFormed graph q' :=
  { h with
    intervention_unit := fun node hnode => (h.intervention_unit node hnode).trans hsame.1.symm
    outcome_unit := fun node hnode => (h.outcome_unit node hnode).trans hsame.2.symm }

/-- The states of a question that was admitted and not given up, after its graph was proposed. -/
def CausalQuestionState.HasGraph (status : CausalQuestionState) : Prop :=
  status ∉ [.draft, .admitted, .stale, .cancelled]

instance (status : CausalQuestionState) : Decidable status.HasGraph :=
  inferInstanceAs (Decidable (_ ∉ _))

/-- A question gets among the states with a graph only by a proposal. -/
theorem hasGraph_of_transition {a b : CausalQuestionState}
    (h : canTransitionCausalQuestion a b = true) (hb : b.HasGraph) :
    a.HasGraph ∨ a.acceptsGraph = true ∧ b = .graphProposed := by
  have hmem : b ∈ a.transitions := of_decide_eq_true h
  cases a with
  | draft =>
    exfalso
    simp only [CausalQuestionState.transitions, List.mem_cons, List.not_mem_nil, or_false] at hmem
    rcases hmem with rfl | rfl <;> exact hb (by decide)
  | admitted =>
    simp only [CausalQuestionState.transitions, List.mem_cons, List.not_mem_nil, or_false] at hmem
    rcases hmem with rfl | rfl | rfl
    · exact .inr ⟨rfl, rfl⟩
    · exact absurd (by decide) hb
    · exact absurd (by decide) hb
  | stale =>
    simp only [CausalQuestionState.transitions, List.mem_cons, List.not_mem_nil, or_false] at hmem
    rcases hmem with rfl | rfl
    · exact .inr ⟨rfl, rfl⟩
    · exact absurd (by decide) hb
  | cancelled => cases hmem
  | _ => exact .inl (by decide)

/-! ## The invariant -/

/-- The graph passed the validator for its question. -/
def Validated (w : CausalWorld) (graph : CausalGraph) : Prop :=
  ∃ question, w.questions.getById graph.causalQuestionId = some question ∧
    WellFormed graph question ∧ Ordered graph

/-- The question has a graph that was validated. -/
def Proposed (w : CausalWorld) (causalQuestionId : String) : Prop :=
  ∃ graph ∈ w.graphs, graph.causalQuestionId = causalQuestionId ∧ Validated w graph

/-- Beyond what there was at the start: every graph was validated, and every question in a state
with a graph has one. -/
structure CausalInvariant (start w : CausalWorld) : Prop where
  validated : ∀ graph ∈ w.graphs, graph ∈ start.graphs ∨ Validated w graph
  proposed : ∀ id question, w.questions.getById id = some question → question.status.HasGraph →
    (∃ before, start.questions.getById id = some before ∧ before.status.HasGraph) ∨ Proposed w id

theorem CausalInvariant.refl (w : CausalWorld) : CausalInvariant w w :=
  ⟨fun _ h => .inl h, fun _ question h hhas => .inl ⟨question, h, hhas⟩⟩

/-- Questions keep their units, and graphs are only added. -/
structure CausalMoves (w w' : CausalWorld) : Prop where
  questions : ∀ id question, w.questions.getById id = some question →
    ∃ question', w'.questions.getById id = some question' ∧ SameUnits question question'
  graphs : w.graphs ⊆ w'.graphs

theorem CausalMoves.of_eq {w w' : CausalWorld} (hquestions : w'.questions = w.questions)
    (hgraphs : w.graphs ⊆ w'.graphs) : CausalMoves w w' :=
  ⟨fun id question h => ⟨question, by rw [hquestions]; exact h, SameUnits.refl _⟩, hgraphs⟩

theorem CausalMoves.refl (w : CausalWorld) : CausalMoves w w :=
  .of_eq rfl (List.Subset.refl _)

theorem CausalMoves.trans {w w' w'' : CausalWorld} (h : CausalMoves w w')
    (h' : CausalMoves w' w'') : CausalMoves w w'' where
  questions id question hquestion := by
    obtain ⟨question', hquestion', hsame⟩ := h.questions id question hquestion
    obtain ⟨question'', hquestion'', hsame'⟩ := h'.questions id question' hquestion'
    exact ⟨question'', hquestion'', hsame.trans hsame'⟩
  graphs := List.Subset.trans h.graphs h'.graphs

variable {start w w' : CausalWorld}

theorem Validated.moves {graph : CausalGraph} (h : Validated w graph) (hmoves : CausalMoves w w') :
    Validated w' graph := by
  obtain ⟨question, hquestion, hwell, hordered⟩ := h
  obtain ⟨question', hquestion', hsame⟩ := hmoves.questions _ _ hquestion
  exact ⟨question', hquestion', hwell.of_sameUnits hsame, hordered⟩

theorem Proposed.moves {id : String} (h : Proposed w id) (hmoves : CausalMoves w w') :
    Proposed w' id := by
  obtain ⟨graph, hgraph, hid, hvalidated⟩ := h
  exact ⟨graph, hmoves.graphs hgraph, hid, hvalidated.moves hmoves⟩

/-- What a call adds has to be justified; what there was stays so. -/
theorem CausalInvariant.next (h : CausalInvariant start w) (hmoves : CausalMoves w w')
    (hgraphs : ∀ graph ∈ w'.graphs, graph ∈ w.graphs ∨ Validated w' graph)
    (hquestions : ∀ id question, w'.questions.getById id = some question →
      question.status.HasGraph →
        (∃ before, w.questions.getById id = some before ∧ before.status.HasGraph) ∨
          Proposed w' id) :
    CausalInvariant start w' where
  validated graph hgraph := by
    rcases hgraphs graph hgraph with hbefore | hnew
    · exact (h.validated graph hbefore).imp_right fun hv => hv.moves hmoves
    · exact .inr hnew
  proposed id question hquestion hstatus := by
    rcases hquestions id question hquestion hstatus with ⟨before, hbefore, hhas⟩ | hnew
    · exact (h.proposed id before hbefore hhas).imp_right fun hp => hp.moves hmoves
    · exact .inr hnew

/-- Moving a question keeps the units. -/
theorem causalMoves_saveQuestion {question : CausalQuestion} {status : CausalQuestionState}
    (hquestion : w.questions.getById question.causalQuestionId = some question) :
    CausalMoves w { w with questions := w.questions.save (question.moved status) } where
  questions id other hother := by
    by_cases hid : question.causalQuestionId = id
    · subst hid
      obtain rfl := Option.some.inj (hquestion.symm.trans hother)
      exact ⟨_, Repository.getById_save_self _ (question.moved status), rfl, rfl⟩
    · have hne : (question.moved status).causalQuestionId ≠ id := hid
      exact ⟨other, (Repository.getById_save_ne _ hne).trans hother, SameUnits.refl _⟩
  graphs := List.Subset.refl _

/-- A question that is moved along its life cycle has a graph where it needs one. -/
theorem CausalInvariant.moveQuestion (h : CausalInvariant start w) {question : CausalQuestion}
    {status : CausalQuestionState}
    (hquestion : w.questions.getById question.causalQuestionId = some question)
    (hgraph : status.HasGraph → question.status.HasGraph ∨
      Proposed w question.causalQuestionId) :
    CausalInvariant start { w with questions := w.questions.save (question.moved status) } := by
  have hmoves : CausalMoves w { w with questions := w.questions.save (question.moved status) } :=
    causalMoves_saveQuestion hquestion
  refine h.next hmoves (fun graph hgraph => .inl hgraph) fun id other hother hstatus => ?_
  by_cases hid : question.causalQuestionId = id
  · subst hid
    have hmoved : question.moved status = other :=
      Option.some.inj ((Repository.getById_save_self _ (question.moved status)).symm.trans hother)
    subst hmoved
    rcases hgraph hstatus with hhas | hproposed
    · exact .inl ⟨question, hquestion, hhas⟩
    · exact .inr (hproposed.moves hmoves)
  · have hne : (question.moved status).causalQuestionId ≠ id := hid
    exact .inl ⟨other, (Repository.getById_save_ne _ hne).symm.trans hother, hstatus⟩

/-! ## Steps -/

theorem step_keeps (e : CausalStep) (h : CausalInvariant start w) :
    CausalInvariant start (w.step e) ∧ CausalMoves w (w.step e) := by
  have hsame : ∀ v : CausalWorld, v.questions = w.questions → v.graphs = w.graphs →
      CausalInvariant start v ∧ CausalMoves w v := by
    intro v hquestions hgraphs
    have hmoves : CausalMoves w v := .of_eq hquestions (by rw [hgraphs]; exact List.Subset.refl _)
    refine ⟨h.next hmoves (fun graph hgraph => .inl (hgraphs ▸ hgraph)) ?_, hmoves⟩
    intro id question hquestion hstatus
    exact .inl ⟨question, hquestions ▸ hquestion, hstatus⟩
  cases e with
  | model proposal => exact hsame _ rfl rfl
  | reserve id snapshot => exact hsame _ rfl rfl
  | admitQuestion question =>
    simp only [CausalWorld.step]
    split
    · next hnew =>
      have hmoves : CausalMoves w { w with questions := w.questions.save question } := by
        refine ⟨fun id other hother => ?_, List.Subset.refl _⟩
        have hne : question.causalQuestionId ≠ id := by
          rintro rfl
          rw [hnew.1] at hother
          cases hother
        exact ⟨other, (Repository.getById_save_ne _ hne).trans hother, SameUnits.refl _⟩
      refine ⟨h.next hmoves (fun graph hgraph => .inl hgraph) fun id other hother hstatus => ?_,
        hmoves⟩
      by_cases hid : question.causalQuestionId = id
      · subst hid
        obtain rfl := Option.some.inj ((Repository.getById_save_self _ question).symm.trans hother)
        rw [hnew.2] at hstatus
        exact absurd (by decide) hstatus
      · exact .inl ⟨other, (Repository.getById_save_ne _ hid).symm.trans hother, hstatus⟩
    · exact hsame _ rfl rfl
  | move id toStatus =>
    simp only [CausalWorld.step]
    split
    · exact hsame _ rfl rfl
    · next question hquestion =>
      split
      · next hmove =>
        have hid := Repository.id_of_getById hquestion
        rw [← hid] at hquestion
        refine ⟨h.moveQuestion hquestion fun hstatus => ?_, causalMoves_saveQuestion hquestion⟩
        exact (hasGraph_of_transition hmove.1 hstatus).imp_right fun hopen => absurd hopen hmove.2
      · exact hsame _ rfl rfl

/-! ## The protocol -/

section Protocol

variable {ι : Type} [DecidableEq ι]

/-- The calls hold nothing. -/
def causalProtocol (ι : Type) (start : CausalWorld) : Guarded causalSystem ι Unit where
  note _ _ := ()
  inv a := CausalInvariant start a.1
  moves := CausalMoves
  moves_refl := CausalMoves.refl
  moves_trans _ _ _ := CausalMoves.trans
  env_inv e _ hinv := (step_keeps e hinv).1
  env_moves e w := (step_keeps e (CausalInvariant.refl w)).2
  guard _ _ _ _ := True

variable {i : ι}

/-- From `A`, the function returns with `B`, and keeps to the protocol. -/
def Keeps (start : CausalWorld) (i : ι) (A : CausalWorld → Prop) {α : Type}
    (p : Async CausalSig CausalError α) (B : α → CausalWorld → Prop) : Prop :=
  (causalProtocol ι start).Triple i (fun _ w => A w) p (fun v _ w => B v w) fun _ _ _ => True

/-- What the moves of the repositories keep. -/
def Lasting (A : CausalWorld → Prop) : Prop := ∀ w w', CausalMoves w w' → A w → A w'

/-- A call that keeps the invariant. -/
theorem keeps_call {o : CausalOp} {A : CausalWorld → Prop} {B : o.Res → CausalWorld → Prop}
    (hA : Lasting A) (hcall : ∀ w : CausalWorld, CausalInvariant start w → A w →
      CausalInvariant start (w.call o).2 ∧ CausalMoves w (w.call o).2 ∧
      ∀ v, (w.call o).1 = .ok v → B v (w.call o).2) :
    Keeps start i A o.await B := by
  refine Guarded.triple_call (fun _ w w' hmoves ha => hA w w' hmoves ha)
    fun log w g hinv _ ha => ?_
  obtain ⟨hinv', hmoves, hB⟩ := hcall w hinv ha
  exact ⟨hinv', hmoves, hB, fun _ _ => trivial⟩

/-- A call that leaves questions and graphs alone. -/
theorem keeps_quiet {o : CausalOp} {A : CausalWorld → Prop} {B : o.Res → CausalWorld → Prop}
    (hA : Lasting A)
    (hquiet : ∀ w : CausalWorld,
      (w.call o).2.questions = w.questions ∧ (w.call o).2.graphs = w.graphs)
    (hB : ∀ (w : CausalWorld) v, A w → A (w.call o).2 → (w.call o).1 = .ok v → B v (w.call o).2) :
    Keeps start i A o.await B := by
  refine keeps_call hA fun w hinv ha => ?_
  obtain ⟨hquestions, hgraphs⟩ := hquiet w
  have hmoves : CausalMoves w (w.call o).2 :=
    .of_eq hquestions (by rw [hgraphs]; exact List.Subset.refl _)
  refine ⟨hinv.next hmoves (fun graph hgraph => .inl (hgraphs ▸ hgraph)) ?_, hmoves,
    fun v hv => hB w v ha (hA _ _ hmoves ha) hv⟩
  intro id question hquestion hstatus
  exact .inl ⟨question, hquestions ▸ hquestion, hstatus⟩

theorem keeps_ofExcept {α : Type} {r : Except CausalError α} {A : CausalWorld → Prop}
    {B : α → CausalWorld → Prop} (h : ∀ v, r = .ok v → ∀ w, A w → B v w) :
    Keeps start i A (Async.ofExcept r) B :=
  Guarded.triple_ofExcept (fun v hv _ w ha => h v hv w ha) fun _ _ _ _ _ => trivial

theorem Keeps.bind {α β : Type} {A : CausalWorld → Prop} {B : α → CausalWorld → Prop}
    {C : β → CausalWorld → Prop} {p : Async CausalSig CausalError α}
    {f : α → Async CausalSig CausalError β} (hp : Keeps start i A p B)
    (hf : ∀ v, Keeps start i (B v) (f v) C) : Keeps start i A (p.bind f) C :=
  Guarded.Triple.bind hp hf

theorem keeps_throw {α : Type} {A : CausalWorld → Prop} {B : α → CausalWorld → Prop}
    (e : CausalError) : Keeps start i A (Async.throw e) B :=
  Guarded.triple_throw fun _ _ _ => trivial

theorem keeps_pure {α : Type} {v : α} {A : CausalWorld → Prop} {B : α → CausalWorld → Prop}
    (h : ∀ w, A w → B v w) : Keeps start i A (Async.pure v) B :=
  Guarded.triple_pure fun _ w ha => h w ha

/-! ## Each function of the service -/

/-- The question that was read is still there, with its units. -/
def Known (question : CausalQuestion) (w : CausalWorld) : Prop :=
  ∃ now, w.questions.getById question.causalQuestionId = some now ∧ SameUnits question now

theorem lasting_known (question : CausalQuestion) : Lasting (Known question) := by
  rintro w w' hmoves ⟨now, hnow, hsame⟩
  obtain ⟨later, hlater, hsame'⟩ := hmoves.questions _ _ hnow
  exact ⟨later, hlater, hsame.trans hsame'⟩

theorem requireQuestion_keeps (id : String) :
    Keeps start i (fun _ => True) (requireQuestion id)
      fun question w => question.causalQuestionId = id ∧ Known question w := by
  refine Keeps.bind (keeps_quiet (B := fun found w =>
    ∀ question, found = some question → question.causalQuestionId = id ∧ Known question w)
    (fun _ _ _ _ => trivial) (fun w => ⟨rfl, rfl⟩) ?_) fun found => ?_
  · intro w v _ _ hv question hquestion
    have hread : w.questions.getById id = some question :=
      (Except.ok.inj hv).trans hquestion
    have hid := Repository.id_of_getById hread
    exact ⟨hid, question, by rw [hid]; exact hread, SameUnits.refl _⟩
  · cases found with
    | none => exact keeps_throw _
    | some question => exact keeps_pure fun w h => h question rfl

theorem saveUsage_quiet (w : CausalWorld) (id : String) (snapshot : CausalUsageSnapshot)
    (expectedRevision : Option ℕ) :
    (w.saveUsage id snapshot expectedRevision).2.questions = w.questions ∧
      (w.saveUsage id snapshot expectedRevision).2.graphs = w.graphs := by
  simp only [CausalWorld.saveUsage]
  split <;> exact ⟨rfl, rfl⟩

theorem reserveCausalUsage_keeps {A : CausalWorld → Prop} (hA : Lasting A) (id : String)
    (budget : CausalAnalysisBudget) (delta : CausalUsageDelta) :
    Keeps start i A (reserveCausalUsage id budget delta) fun _ w => A w := by
  refine Keeps.bind (keeps_quiet hA (fun w => ⟨rfl, rfl⟩) fun _ _ _ ha _ => ha) fun existing => ?_
  refine Keeps.bind (keeps_ofExcept fun _ _ _ ha => ha) fun _ => ?_
  exact keeps_quiet hA (fun w => saveUsage_quiet w _ _ _) fun _ _ _ ha _ => ha

/-- What passes the validator is well formed and has an order. -/
theorem validatedGraph_ok {graph graph' : CausalGraph} {question : CausalQuestion}
    (h : validatedGraph graph question = .ok graph') :
    graph' = graph ∧ WellFormed graph question ∧ Ordered graph := by
  unfold validatedGraph at h
  split at h
  · next result hresult =>
    split at h
    · cases h
    · next hpass =>
      refine ⟨(Except.ok.inj h).symm, validateCausalGraph_pass hresult ?_⟩
      cases houtcome : result.outcome with
      | pass => rfl
      | block => exact absurd houtcome hpass
  · cases h
  · cases h

/-- A graph of the question was stored and passed the validator. -/
def Stored (question : CausalQuestion) (graph : CausalGraph) (w : CausalWorld) : Prop :=
  graph.causalQuestionId = question.causalQuestionId ∧ graph ∈ w.graphs ∧
    WellFormed graph question ∧ Ordered graph ∧ Known question w

theorem lasting_stored (question : CausalQuestion) (graph : CausalGraph) :
    Lasting (Stored question graph) := by
  rintro w w' hmoves ⟨hid, hgraph, hwell, hordered, hknown⟩
  exact ⟨hid, hmoves.graphs hgraph, hwell, hordered, lasting_known _ w w' hmoves hknown⟩

theorem Stored.proposed {question : CausalQuestion} {graph : CausalGraph}
    (h : Stored question graph w) : Proposed w question.causalQuestionId := by
  obtain ⟨hid, hgraph, hwell, hordered, now, hnow, hsame⟩ := h
  exact ⟨graph, hgraph, hid, now, by rw [hid]; exact hnow, hwell.of_sameUnits hsame, hordered⟩

/-- What `transition` does. -/
theorem transition_cases (w : CausalWorld) (id : String) (fromStatus : CausalQuestionState)
    (expectedRevision : ℕ) (toStatus : CausalQuestionState) :
    (∃ existing, w.questions.getById id = some existing ∧
      w.transition id fromStatus expectedRevision toStatus = (.ok (existing.moved toStatus),
        { w with questions := w.questions.save (existing.moved toStatus) })) ∨
    ∃ e, w.transition id fromStatus expectedRevision toStatus = (.error e, w) := by
  unfold CausalWorld.transition
  cases hexisting : w.questions.getById id with
  | none => exact .inr ⟨_, rfl⟩
  | some existing =>
    cases hrefusal :
      CausalWorld.transitionRefusal existing fromStatus expectedRevision toStatus with
    | some e =>
      refine .inr ⟨e, ?_⟩
      simp only [hrefusal]
    | none =>
      refine .inl ⟨existing, rfl, ?_⟩
      simp only [hrefusal]

/-- A question with a stored graph may move on. -/
theorem transitionQuestion_keeps (question : CausalQuestion) (graph : CausalGraph)
    (status : CausalQuestionState) :
    Keeps start i (Stored question graph) (transitionQuestion question status)
      fun _ w => Stored question graph w := by
  refine Keeps.bind (keeps_ofExcept fun _ _ _ ha => ha) fun _ => ?_
  refine keeps_call (lasting_stored question graph) fun w hinv hstored => ?_
  change CausalInvariant start (w.transition _ _ _ _).2 ∧ CausalMoves w (w.transition _ _ _ _).2 ∧
    ∀ v, (w.transition _ _ _ _).1 = .ok v → Stored question graph (w.transition _ _ _ _).2
  -- another call may have moved the question meanwhile; its graph is stored in any case
  rcases transition_cases w question.causalQuestionId question.status question.recordRevision
    status with ⟨existing, hexisting, hmoved⟩ | ⟨e, hsame⟩
  · have hid := Repository.id_of_getById hexisting
    rw [← hid] at hexisting
    have hmoves : CausalMoves w
        { w with questions := w.questions.save (existing.moved status) } :=
      causalMoves_saveQuestion hexisting
    rw [hmoved]
    refine ⟨hinv.moveQuestion hexisting fun _ => .inr ?_, hmoves,
      fun _ _ => lasting_stored _ _ _ _ hmoves hstored⟩
    rw [hid]
    exact hstored.proposed
  · rw [hsame]
    exact ⟨hinv, CausalMoves.refl w, fun _ _ => hstored⟩

/-- A graph that passed is stored. -/
theorem saveGraph_keeps {question : CausalQuestion} {graph : CausalGraph}
    (hid : graph.causalQuestionId = question.causalQuestionId) (hwell : WellFormed graph question)
    (hordered : Ordered graph) :
    Keeps start i (Known question) (CausalOp.saveGraph graph).await
      fun _ w => Stored question graph w := by
  refine keeps_call (lasting_known question) fun w hinv hknown => ?_
  have hmoves : CausalMoves w { w with graphs := w.graphs ++ [graph] } :=
    .of_eq rfl (List.subset_append_left _ _)
  have hstored : Stored question graph { w with graphs := w.graphs ++ [graph] } :=
    ⟨hid, List.mem_append_right _ (List.mem_singleton_self _), hwell, hordered,
      lasting_known _ _ _ hmoves hknown⟩
  refine ⟨hinv.next hmoves (fun other hother => ?_) ?_, hmoves, fun _ _ => hstored⟩
  · rcases List.mem_append.mp hother with hbefore | hnew
    · exact .inl hbefore
    · rw [List.mem_singleton] at hnew
      obtain ⟨now, hnow, hsame⟩ := hstored.2.2.2.2
      exact .inr ⟨now, by rw [hnew, hid]; exact hnow, by rw [hnew]; exact hwell.of_sameUnits hsame,
        by rw [hnew]; exact hordered⟩
  · intro id other hother hstatus
    exact .inl ⟨other, hother, hstatus⟩

/-- What a call is told: a graph of its question that is stored. -/
def Told (id : String) (answer : CausalQuestion × CausalGraph) (w : CausalWorld) : Prop :=
  answer.2.causalQuestionId = id ∧ answer.2 ∈ w.graphs

variable (mintEdgeId : CausalProposalEdge → String)

theorem newGraph_keeps (question : CausalQuestion) :
    Keeps start i (Known question) (newGraph mintEdgeId question)
      (Told question.causalQuestionId) := by
  refine Keeps.bind (reserveCausalUsage_keeps (lasting_known question) _ _ _) fun _ => ?_
  refine Keeps.bind (B := fun _ w => Known question w)
    (keeps_quiet (lasting_known question) (fun _ => ⟨rfl, rfl⟩) fun _ _ _ ha _ => ha)
    fun proposal => ?_
  refine Keeps.bind (B := fun graph w => validatedGraph (proposedGraph mintEdgeId question proposal)
    question = .ok graph ∧ Known question w) (keeps_ofExcept fun _ hok _ ha => ⟨hok, ha⟩)
    fun graph => ?_
  refine Guarded.Triple.of_pure fun hok => ?_
  obtain ⟨rfl, hwell, hordered⟩ := validatedGraph_ok hok
  refine Keeps.bind (saveGraph_keeps rfl hwell hordered) fun _ => ?_
  refine Keeps.bind (transitionQuestion_keeps question _ _) fun next => ?_
  exact keeps_pure fun w h => ⟨h.1, h.2.1⟩

theorem mem_of_getLatestByQuestion {w : CausalWorld} {id : String} {graph : CausalGraph}
    (h : w.getLatestByQuestion id = some graph) :
    graph.causalQuestionId = id ∧ graph ∈ w.graphs := by
  have hmem := List.mem_of_mem_head? h
  rw [List.mem_insertionSort, List.mem_filter] at hmem
  exact ⟨of_decide_eq_true hmem.2, hmem.1⟩

theorem existingGraph_keeps (question : CausalQuestion) :
    Keeps start i (Known question) (existingGraph question) (Told question.causalQuestionId) := by
  refine Keeps.bind (B := fun found w => ∀ graph, found = some graph →
      graph.causalQuestionId = question.causalQuestionId ∧ graph ∈ w.graphs)
    (keeps_quiet (lasting_known question) (fun _ => ⟨rfl, rfl⟩) ?_) fun found => ?_
  · intro w v _ _ hv graph hgraph
    exact mem_of_getLatestByQuestion ((Except.ok.inj hv).trans hgraph)
  · cases found with
    | none => exact keeps_throw _
    | some graph => exact keeps_pure fun w h => h graph rfl

theorem proposeGraph_keeps (id : String) :
    Keeps start i (fun _ => True) (proposeGraph mintEdgeId id) (Told id) := by
  refine Keeps.bind (requireQuestion_keeps id) fun question => ?_
  refine Guarded.Triple.of_pure fun hid => ?_
  subst hid
  refine Guarded.Triple.ite (fun _ => newGraph_keeps mintEdgeId question) fun _ => ?_
  exact Guarded.Triple.ite (fun _ => existingGraph_keeps question) fun _ => keeps_throw _

/-! ## Runs -/

/-- A run of calls of `proposeGraph`, one for each question id of `calls`. -/
def proposalRun (w : CausalWorld) (calls : ι → String) (acts : List (Action ι CausalStep)) :
    Pool CausalSig ι CausalWorld (Except CausalError (CausalQuestion × CausalGraph)) :=
  (Pool.init w fun i => (proposeGraph mintEdgeId (calls i)).prog).exec causalSystem acts

/-- What holds after any number of calls. -/
structure ProposalsValidated (w : CausalWorld) (calls : ι → String)
    (pool : Pool CausalSig ι CausalWorld (Except CausalError (CausalQuestion × CausalGraph))) :
    Prop where
  validated : ∀ graph ∈ pool.state.graphs, graph ∈ w.graphs ∨
    ∃ question, pool.state.questions.getById graph.causalQuestionId = some question ∧
      WellFormed graph question ∧ Ordered graph
  kept : w.graphs ⊆ pool.state.graphs
  proposed : ∀ id question, pool.state.questions.getById id = some question →
    question.status.HasGraph →
      (∃ before, w.questions.getById id = some before ∧ before.status.HasGraph) ∨
        ∃ graph ∈ pool.state.graphs, graph.causalQuestionId = id ∧ WellFormed graph question ∧
          Ordered graph
  told : ∀ i answer, pool.prog i = some (.pure (.ok answer)) →
    answer.2.causalQuestionId = calls i ∧ answer.2 ∈ pool.state.graphs

/-- In every run of any number of calls: every graph that was stored is well formed for its
question and can be ordered so that every edge goes forward; no question comes to a state with a
graph without such a graph; no graph is lost; and what a call is told is a stored graph of the
question that it asked for. -/
theorem proposals_validated (w : CausalWorld) (calls : ι → String)
    (acts : List (Action ι CausalStep)) :
    ProposalsValidated w calls (proposalRun mintEdgeId w calls acts) := by
  have hinit : (causalProtocol ι w).Holds (fun _ => ())
      (fun i => ends (fun _ b v => Told (calls i) v b.1) fun _ _ _ => True)
      (Pool.init w fun i => (proposeGraph mintEdgeId (calls i)).prog) := by
    exact Guarded.Holds.init (CausalInvariant.refl w)
      fun i => proposeGraph_keeps mintEdgeId (calls i) [] (w, _) trivial
  have hallowed := Guarded.allAllowed_of_forall (causalProtocol ι w) (fun _ _ _ _ => trivial) acts
    (Pool.init w fun i => (proposeGraph mintEdgeId (calls i)).prog)
  have hholds := hinit.exec acts hallowed
  have hmoves := hinit.exec_moves acts hallowed
  refine ⟨hholds.inv.validated, hmoves.graphs, ?_, ?_⟩
  · intro id question hquestion hstatus
    refine (hholds.inv.proposed id question hquestion hstatus).imp_right ?_
    rintro ⟨graph, hgraph, hid, now, hnow, hwell, hordered⟩
    rw [hid] at hnow
    obtain rfl := Option.some.inj (hquestion.symm.trans hnow)
    exact ⟨graph, hgraph, hid, hwell, hordered⟩
  · intro i answer hanswer
    obtain ⟨b, hrely, htold⟩ := hholds.returned hanswer
    exact ⟨htold.1, hrely.2.graphs htold.2⟩

end Protocol

/-! ## Two calls for one question -/

private def smallQuestion : CausalQuestion :=
  ⟨"q", .count, .usd, ⟨2, 200, 0, 0⟩, .admitted, 1⟩

private def smallWorld : CausalWorld where
  questions := Repository.empty.save smallQuestion
  graphs := []
  usage := JsMap.empty
  proposal := fun _ => .ok ⟨[⟨"x", .count, .intervention⟩, ⟨"y", .usd, .outcome⟩],
    [⟨"x", "y", .causes, .modelProposed, none⟩]⟩

/-- The two calls take turns. -/
private def smallPool :
    Pool CausalSig Bool CausalWorld (Except CausalError (CausalQuestion × CausalGraph)) :=
  proposalRun (fun _ => "edge") smallWorld (fun _ => "q")
    ((List.replicate 6 [Action.run true, Action.run false]).flatten)

/-- Both store a graph and one of them moves the question. Neither found a ledger, so the second
reservation replaces the first, and one of two calls of the model is charged. -/
example : smallPool.state.graphs.map (·.causalGraphId) = ["cg_q_v1", "cg_q_v1"] ∧
    (smallPool.state.questions.getById "q").map (·.status) = some .graphProposed ∧
    (smallPool.state.usage.get "q").map (·.graphModelCalls) = some 1 := by decide

end Orchestrator.Causal
