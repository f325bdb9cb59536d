import Orchestrator.Atomic.Pool
import Orchestrator.Atomic.Steps
import Orchestrator.Governance.CaseCalls

/-!
# What decides a case

* `CaseStep`, `caseStep`: attestations of a case one after the other, while the clock and the
  authority stores move;
* `Decides`: the case becomes `SATISFIED`, or its proof is minted;
* `CaseOp.Harmless`, the calls that do neither;
* `attest_sat`: an attestation that decides the case reaches the quorum of the case.
-/

namespace Orchestrator

open Atomic Collections GovernanceService

/-! ## Runs -/

/-- A step: an attestation of the case, or a move of the clock or of the stores that authority
rests on. -/
inductive CaseStep where
  | attest (input : AttestInput)
  | clock (now : ℕ)
  | authority (s : AuthorityStores)

variable (X : GovernanceExternal) (nonceHash : String → String)

/-- An attestation of the case under `id`. -/
def attestCase (id : String) (input : AttestInput) : Call AttestResult :=
  attest X nonceHash { input with governanceCaseId := id }

/-- One step of a case. -/
def caseStep (id : String) (w : CaseWorld) : CaseStep → CaseWorld
  | .attest input => ((attestCase X nonceHash id input).exec (governance X) w).2
  | .clock now => { w with clock := now }
  | .authority s => { w with stores := w.stores.setAuthority s }

/-- The stores and the clock, beside concurrent votes; the clock and the stores that authority rests
on move as they like. -/
def votingSystem : System CaseSig CaseWorld (ℕ × AuthorityStores) where
  handler := governance X
  env e w := { w with stores := w.stores.setAuthority e.2, clock := e.1 }

/-- What the attestations of a run are answered. -/
def answers (id : String) : CaseWorld → List CaseStep → List (Except GovernanceFailure AttestResult)
  | _, [] => []
  | w, .attest input :: steps =>
    ((attestCase X nonceHash id input).exec (governance X) w).1 ::
      answers id (caseStep X nonceHash id w (.attest input)) steps
  | w, step :: steps => answers id (caseStep X nonceHash id w step) steps

/-- The status of the case. -/
def statusOf (w : GovernanceWorld) (id : String) : Option GovernanceCaseState :=
  (w.cases.getById id).map (·.status)

/-- Between `w` and `w'` the case becomes `SATISFIED`, or its proof is minted. -/
def Decides (id : String) (w w' : GovernanceWorld) : Prop :=
  (statusOf w id ≠ some .satisfied ∧ statusOf w' id = some .satisfied) ∨
    (w.proofs.getByCase id = none ∧ w'.proofs.getByCase id ≠ none)

instance (id : String) (w w' : GovernanceWorld) : Decidable (Decides id w w') :=
  inferInstanceAs (Decidable (_ ∨ _))

/-- The quorum of `req` is reached by the attestations of the case that count. -/
def Reaches (c : GovernanceCase) (req : GovernanceQuorumRequirement) (w : CaseWorld) : Prop :=
  (evaluateGovernanceQuorum req (validContributions X w.stores.authority c w.clock
    (w.stores.attestations.listByCase c.governanceCaseId))).outcome = .satisfied

instance (c : GovernanceCase) (req : GovernanceQuorumRequirement) (w : CaseWorld) :
    Decidable (Reaches X c req w) :=
  inferInstanceAs (Decidable (_ = _))

/-! ## What decides a case -/

/-- The calls that neither satisfy a case nor mint a proof. -/
def CaseOp.Harmless : CaseOp → Prop
  | .transitionCase _ _ _ toStatus _ => toStatus ≠ .satisfied
  | .saveProof _ => False
  | _ => True

theorem CaseOp.Reads.harmless {o : CaseOp} (h : o.Reads) : o.Harmless := by
  cases o <;> trivial

/-- Later in a call that began in `w`: what authority rests on has not moved, the case is still
there, and it was not decided in between. -/
structure Undecided (c₀ : GovernanceCase) (w s : CaseWorld) : Prop where
  authority : s.stores.authority = w.stores.authority
  clock : s.clock = w.clock
  stored : ∃ c, s.stores.cases.getById c₀.governanceCaseId = some c ∧ SameCase c₀ c
  undecided : ¬Decides c₀.governanceCaseId w.stores s.stores

variable {X} {nonceHash} {w s : CaseWorld} {c₀ c : GovernanceCase}

/-- A harmless call leaves a case unsatisfied, and without a proof. -/
theorem not_decides_of_harmless {id : String} {v : GovernanceWorld} {o : CaseOp} (ho : o.Harmless)
    (h : ¬Decides id v s.stores) : ¬Decides id v (governance X o s).2.stores := by
  cases o with
  | saveProof p => exact ho.elim
  | transitionCase id' fromStatus revision toStatus proofId =>
    simp only [governance]
    rcases s.stores.transitionCase_cases id' fromStatus revision toStatus proofId with
      ⟨c, hc, -, -, hmove⟩ | ⟨⟨e, hmove⟩, -⟩
    · rw [hmove]
      rintro (⟨hbefore, hafter⟩ | hproof)
      · refine h (.inl ⟨hbefore, ?_⟩)
        unfold statusOf at hafter ⊢
        rw [Repository.getById_save] at hafter
        split_ifs at hafter with hid
        · exact absurd (Option.some.inj hafter) ho
        · exact hafter
      · exact h (.inr hproof)
    · rw [hmove]
      exact h
  | _ => exact h

theorem Undecided.step {o : CaseOp} (ho : o.Harmless) (h : Undecided c₀ w s) :
    Undecided c₀ w (governance X o s).2 := by
  obtain ⟨c, hc, hsame⟩ := h.stored
  obtain ⟨c', hc', hsame'⟩ := governance_case (X := X) o hc
  exact ⟨(governance_authority o s).trans h.authority, (governance_clock o s).trans h.clock,
    ⟨c', hc', hsame.trans hsame'⟩, not_decides_of_harmless ho h.undecided⟩

theorem keeps_undecided : Keeps (Env.alone (governance X)) anyCall CaseOp.Harmless
    fun _ s => Undecided c₀ w s := by
  refine ⟨fun _ _ _ hrely h => hrely ▸ h, fun _ m o r s' ho h hstep => ⟨trivial, ?_⟩⟩
  have hs : s' = (governance X o m).2 := congrArg Prod.snd hstep
  rw [hs]
  exact h.step ho

/-- What an attestation that began in `w` leaves: if the case was decided, its quorum is reached. -/
def Deserved (X : GovernanceExternal) (c₀ : GovernanceCase) (w s : CaseWorld) : Prop :=
  Decides c₀.governanceCaseId w.stores s.stores → Reaches X c₀ c₀.quorumRequirement s

theorem Undecided.deserved (h : Undecided c₀ w s) : Deserved X c₀ w s :=
  fun hdecides => absurd hdecides h.undecided

/-- Once the quorum is reached, only another vote could undo it. -/
theorem keeps_reached (req : GovernanceQuorumRequirement) :
    Keeps (Env.alone (governance X)) anyCall CaseOp.Silent fun _ s => Reaches X c₀ req s := by
  refine ⟨fun _ _ _ hrely h => hrely ▸ h, fun _ m o r s' ho h hstep => ⟨trivial, ?_⟩⟩
  have hs : s' = (governance X o m).2 := congrArg Prod.snd hstep
  have hattestations : (governance X o m).2.stores.attestations = m.stores.attestations := by
    cases o with
    | saveAttestation a => exact ho.elim
    | _ => rfl
  unfold Reaches at h ⊢
  rw [hs, governance_authority, governance_clock, hattestations]
  exact h

/-- Unless the quorum is reached, the case is not decided. -/
theorem settle_harmless {attestations : List GovernanceAttestation} {now : ℕ}
    {outcome : QuorumOutcome} (h : outcome ≠ .satisfied) :
    (settle X c attestations now outcome).Only CaseOp.Harmless := by
  cases outcome with
  | pending => exact Async.only_pure _
  | blocked =>
    refine (transition_only ?_).bind fun _ => Async.only_pure _
    exact fun hstatus => nomatch hstatus
  | satisfied => exact absurd rfl h

section Sat

variable {log : Log CaseSig}

/-- A part that makes harmless calls only. -/
theorem undecided_sat {α : Type} {p : Call α} (hp : p.Only CaseOp.Harmless)
    (h : Undecided c₀ w s) :
    p.Sat (Env.alone (governance X)) anyCall (fun _ s _ => Undecided c₀ w s) log s :=
  hp.sat keeps_undecided h

theorem evaluateCase_sat (h : Undecided c₀ w s) (hc : SameCase c₀ c)
    (saved : GovernanceAttestation) :
    (evaluateCase X c₀.governanceCaseId saved c w.clock).Sat (Env.alone (governance X)) anyCall
      (fun _ s _ => Deserved X c₀ w s) log s := by
  unfold evaluateCase
  refine Async.Sat.bind (R := fun _ s' r => s = s' ∧
    r = .ok (s.stores.attestations.listByCase c₀.governanceCaseId))
    (Async.sat_await_alone ⟨rfl, rfl⟩) ?_ (fun _ _ _ hr => nomatch hr.2)
  rintro log _ _ ⟨rfl, hlist⟩
  cases hlist
  refine Async.Sat.bind (R := fun _ s' r => s = s' ∧
    r = .ok (validContributions X s.stores.authority c w.clock
      (s.stores.attestations.listByCase c₀.governanceCaseId))) (Async.sat_alone.mpr ?_) ?_
    (fun _ _ _ hr => nomatch hr.2)
  · rw [exec_collectValidContributions]
    exact ⟨rfl, rfl⟩
  rintro log _ _ ⟨rfl, hcontributions⟩
  cases hcontributions
  by_cases hreached : Reaches X c₀ c₀.quorumRequirement s
  · -- whatever happens next, the quorum stays reached
    refine Async.Sat.bind (R := fun _ s' _ => Reaches X c₀ c₀.quorumRequirement s')
      (((settle_only _ _ _).mono fun _ ho => ho.silent).sat (keeps_reached _) hreached) ?_ ?_
    · exact fun _ _ _ hr _ => hr
    · exact fun _ _ _ hr _ => hr
  · refine Async.Sat.bind (R := fun _ s' _ => Undecided c₀ w s')
      (undecided_sat (settle_harmless fun houtcome => hreached ?_) h) ?_ ?_
    · unfold Reaches
      rw [← hc.quorumRequirement, ← hc.validContributions, h.clock]
      exact houtcome
    · exact fun _ _ _ hr => hr.deserved
    · exact fun _ _ _ hr => hr.deserved

/-- A harmless part comes first. -/
theorem harmless_bind {α β : Type} {p : Call α} {f : α → Call β} (hp : p.Only CaseOp.Harmless)
    (h : Undecided c₀ w s)
    (hf : ∀ log s a, Undecided c₀ w s → (f a).Sat (Env.alone (governance X)) anyCall
      (fun _ s _ => Deserved X c₀ w s) log s) :
    (p.bind f).Sat (Env.alone (governance X)) anyCall (fun _ s _ => Deserved X c₀ w s) log s :=
  Async.Sat.bind (undecided_sat hp h) hf fun _ _ _ hs => hs.deserved

/-- The case goes on collecting, or the call throws. -/
theorem beginCollecting_sat (h : Undecided c₀ w s) (hc : SameCase c₀ c) :
    (beginCollecting c).Sat (Env.alone (governance X)) anyCall
      (fun _ s r => Undecided c₀ w s ∧ ∀ c', r = .ok c' → SameCase c₀ c') log s := by
  unfold beginCollecting
  refine (Async.sat_ite _ _ _).mpr ⟨fun _ => ?_, fun _ => ⟨h, fun c' hc' => ?_⟩⟩
  · have hmove : CaseOp.Harmless (.transitionCase c.governanceCaseId c.status c.recordRevision
        .collecting none) := fun hstatus => nomatch hstatus
    refine Async.sat_await_alone ⟨h.step hmove, fun c' hc' => ?_⟩
    obtain ⟨c₁, hc₁, hsame⟩ := h.stored
    simp only [governance, hc.governanceCaseId] at hc'
    rcases s.stores.transitionCase_cases c₀.governanceCaseId c.status c.recordRevision .collecting
      none with ⟨c₂, hc₂, -, -, hmove⟩ | ⟨⟨e, hmove⟩, -⟩
    · rw [hmove] at hc'
      cases hc'
      obtain rfl := Option.some.inj (hc₁.symm.trans hc₂)
      exact hsame.trans (sameCase_moved _ _ _)
    · rw [hmove] at hc'
      cases hc'
  · cases hc'
    exact hc

theorem attestNew_sat (h : Undecided c₀ w s) (hc : SameCase c₀ c) {input : AttestInput}
    (hid : input.governanceCaseId = c₀.governanceCaseId) (resolution : AuthorityResolution) :
    (attestNew X nonceHash input c resolution w.clock).Sat (Env.alone (governance X)) anyCall
      (fun _ s _ => Deserved X c₀ w s) log s := by
  unfold attestNew
  refine harmless_bind (createAuthoritySnapshot_only trivial) h fun log s snapshot h => ?_
  refine harmless_bind (only_call trivial) h fun log s prior h => ?_
  refine harmless_bind (Async.only_ofExcept _) h fun log s _ h => ?_
  refine harmless_bind (only_call trivial) h fun log s saved h => ?_
  refine Async.Sat.bind (beginCollecting_sat h hc) (fun log s c' hs => ?_)
    fun _ _ _ hs => hs.1.deserved
  rw [hid]
  exact evaluateCase_sat hs.1 (hs.2 c' rfl) _

/-- An attestation that satisfies a case, or mints its proof, reaches the quorum of the case. -/
theorem attest_sat (hw : w.stores.cases.getById c₀.governanceCaseId = some c₀)
    {input : AttestInput} (hid : input.governanceCaseId = c₀.governanceCaseId) :
    (attest X nonceHash input).Sat (Env.alone (governance X)) anyCall
      (fun _ s _ => Deserved X c₀ w s) log w := by
  have hreads {α : Type} {p : Call α} (hp : p.Only CaseOp.Reads) : p.Only CaseOp.Harmless :=
    hp.mono fun _ ho => ho.harmless
  have h : Undecided c₀ w w := by
    refine ⟨rfl, rfl, ⟨c₀, hw, .refl c₀⟩, ?_⟩
    rintro (⟨hbefore, hafter⟩ | ⟨hbefore, hafter⟩)
    · exact hbefore hafter
    · exact hafter hbefore
  unfold attest
  refine Async.Sat.bind (R := fun _ s r => w = s ∧ r = .ok w.clock) (Async.sat_await_alone ⟨rfl, rfl⟩)
    ?_ (fun _ _ _ hr => nomatch hr.2)
  rintro log _ _ ⟨rfl, hnow⟩
  cases hnow
  -- the case is read as it is
  refine Async.Sat.bind (R := fun _ s r => w = s ∧ r = .ok c₀) ?_ ?_ (fun _ _ _ hr => nomatch hr.2)
  · unfold requireCase
    refine Async.Sat.bind (R := fun _ s r => w = s ∧ r = .ok (some c₀))
      (Async.sat_await_alone ⟨rfl, ?_⟩) ?_ (fun _ _ _ hr => nomatch hr.2)
    · simp only [governance, hid, hw]
    · rintro log _ _ ⟨rfl, hfound⟩
      cases hfound
      exact ⟨rfl, rfl⟩
  rintro log _ _ ⟨rfl, hfound⟩
  cases hfound
  refine harmless_bind (Async.only_ofExcept _) h fun log s _ h => ?_
  refine harmless_bind (Async.only_ofExcept _) h fun log s _ h => ?_
  refine harmless_bind (hreads (assertNoActiveHold_reads _ _ _)) h fun log s _ h => ?_
  refine harmless_bind (hreads (requireAuthority_reads _ _ _)) h fun log s resolution h => ?_
  refine harmless_bind (only_call trivial) h fun log s existing h => ?_
  cases (existing : Option GovernanceAttestation) with
  | some existing =>
    exact (undecided_sat (hreads (attestExisting_reads _ _)) h).mono fun _ _ _ hs => hs.deserved
  | none => exact attestNew_sat h (.refl c₀) hid resolution

end Sat

/-! ## Whole runs -/

/-- Some version of the case is stored. -/
def Stored (c₀ : GovernanceCase) (s : CaseWorld) : Prop :=
  ∃ c, s.stores.cases.getById c₀.governanceCaseId = some c ∧ SameCase c₀ c

theorem Stored.step {step : CaseStep} {id : String} (h : Stored c₀ s) :
    Stored c₀ (caseStep X nonceHash id s step) := by
  cases step with
  | attest input =>
    have hkeeps : Keeps (Env.alone (governance X)) anyCall (fun _ => True)
        fun _ s => Stored c₀ s := by
      refine ⟨fun _ _ _ hrely h => hrely ▸ h, fun _ m o r s' _ h hstep => ⟨trivial, ?_⟩⟩
      have hs : s' = (governance X o m).2 := congrArg Prod.snd hstep
      obtain ⟨c, hc, hsame⟩ := h
      obtain ⟨c', hc', hsame'⟩ := governance_case (X := X) o hc
      exact ⟨c', hs ▸ hc', hsame.trans hsame'⟩
    have hsat : (attestCase X nonceHash id input).Sat (Env.alone (governance X)) anyCall
        (fun _ s _ => Stored c₀ s) [] s := (Prog.only_true _).sat hkeeps h
    exact Async.sat_alone.mp hsat
  | clock now => exact h
  | authority a => exact h

theorem Stored.after {id : String} (h : Stored c₀ s) (steps : List CaseStep) :
    Stored c₀ (after (caseStep X nonceHash id) s steps) := by
  induction steps generalizing s with
  | nil => exact h
  | cons step steps ih => exact ih h.step

/-- A step that decides a case reaches the quorum of the case. -/
theorem step_decides (h : Stored c₀ s) (step : CaseStep)
    (hdecides : Decides c₀.governanceCaseId s.stores
      (caseStep X nonceHash c₀.governanceCaseId s step).stores) :
    Reaches X c₀ c₀.quorumRequirement (caseStep X nonceHash c₀.governanceCaseId s step) := by
  obtain ⟨c, hc, hsame⟩ := h
  have hnot : ¬Decides c₀.governanceCaseId s.stores s.stores := by
    rintro (⟨hbefore, hafter⟩ | ⟨hbefore, hafter⟩)
    · exact hbefore hafter
    · exact hafter hbefore
  cases step with
  | attest input =>
    rw [← hsame.governanceCaseId] at hc hdecides ⊢
    have hsat : (attestCase X nonceHash c.governanceCaseId input).Sat (Env.alone (governance X))
        anyCall (fun _ s' _ => Deserved X c s s') [] s := attest_sat hc rfl
    have hdeserved := Async.sat_alone.mp hsat hdecides
    unfold Reaches at hdeserved ⊢
    rw [← hsame.quorumRequirement, ← hsame.governanceCaseId, ← hsame.validContributions]
    exact hdeserved
  | clock now => exact absurd hdecides hnot
  | authority a => exact absurd hdecides hnot

end Orchestrator
