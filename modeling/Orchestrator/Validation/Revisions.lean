import Orchestrator.Atomic.Protocol
import Orchestrator.Validation.PlanIndex
import Orchestrator.Validation.Service

/-!
# Bounded adjudication

Any number of `validate` calls run against the same stores, in any order of their calls, each free
to crash. The validators, the models and the compiler answer as they like, any call may throw,
and fences may be recovered behind the back of the calls.

* `validations`: the protocol that the calls follow, with the revisions each of them made;
* `validate_sat`: each call follows it, and its rounds suffice;
* `validation_overrides_nothing`: over every run, no decision that lets a plan go on overrides a
  finding that no approver may override, no run is revised more often than it may be, no plan
  version is made beyond the last one, and the loop ends.
-/

namespace Orchestrator

open Atomic Collections

namespace ValidationService

variable {ι : Type} [DecidableEq ι]

/-! ## The protocol -/

/-- How the environment moves the world: other answers, or other fences. -/
inductive ValidationMove where
  | surround (surroundings : ValidationSurroundings)
  | fences (fences : FenceStore)

/-- The validation stores; the environment moves what surrounds them, and the fences. -/
def validationSystem (X : ValidationExternal) :
    System ValidationSig ValidationWorld ValidationMove where
  handler := validation X
  env move w :=
    match move with
    | .surround surroundings => { w with surroundings := surroundings }
    | .fences fences => { w with fences := fences }

/-- What a call holds: the id of the plan it compiled and has not saved, and the versions it
saved for runs. -/
structure Drafts where
  drafted : Option String
  revised : List (String × ℕ)

/-- What a call holds at its start. -/
def Drafts.nothing : Drafts := ⟨none, []⟩

/-- A save of a plan that is ready for validation: the end of a revision. -/
def revision : Event ValidationSig → Option StoredPlanRecord
  | ⟨.savePlan record, .ok _⟩ => if record.status = .readyForValidation then some record else none
  | _ => none

/-- What a call holds after one of its calls. -/
def Drafts.note (h : Drafts) (e : Event ValidationSig) : Drafts :=
  match e with
  | ⟨.compileRevision _ _ _, .ok revised⟩ => { h with drafted := some revised.planId }
  | e =>
    match revision e with
    | some record => ⟨none, (record.runId, record.planVersion) :: h.revised⟩
    | none => h

section Protocol

variable (s₀ : PlanStore) (d₀ : DecisionStore)

/-- What the stores look like beside what the calls hold; `s₀` and `d₀` are the stores before
any call. -/
structure Bounded (w : ValidationWorld) (g : ι → Drafts) : Prop where
  indexed : w.plans.Indexed
  versions : ∀ runId v id, w.plans.holder runId v = some id →
    v ≤ maxRevisedPlanVersion ∨ s₀.holder runId v = some id
  sound : ∀ id d, w.decisions.get id = some d →
    d₀.get id = some d ∨ Overridable d.decision d.findings
  injective : Function.Injective w.identities.plan
  unused : ∀ n, w.given.plans ≤ n → w.plans.byId.get (w.identities.plan n) = none
  drafted : ∀ i id, (g i).drafted = some id →
    (∃ n < w.given.plans, w.identities.plan n = id) ∧ w.plans.byId.get id = none
  distinct : ∀ i j id, (g i).drafted = some id → (g j).drafted = some id → i = j
  revised : ∀ i p, p ∈ (g i).revised → 1 < p.2 ∧ p.2 ≤ maxRevisedPlanVersion ∧
    (w.plans.holder p.1 p.2).isSome = true
  nodup : ∀ i, (g i).revised.Nodup
  apart : ∀ i j p, p ∈ (g i).revised → p ∈ (g j).revised → i = j

/-- Plans that are stored stay stored. -/
def KeepsPlans (w w' : ValidationWorld) : Prop := ∀ record, w.plans.Has record → w'.plans.Has record

/-- The protocol of validations. -/
def validations (X : ValidationExternal) : Protocol (validationSystem X) ι Drafts where
  note := Drafts.note
  inv a := Bounded s₀ d₀ a.1 a.2
  moves := KeepsPlans
  moves_refl _ _ h := h
  moves_trans _ _ _ h h' record hr := h' record (h record hr)
  env_inv move _ h := by
    cases move <;> exact ⟨h.indexed, h.versions, h.sound, h.injective, h.unused, h.drafted,
      h.distinct, h.revised, h.nodup, h.apart⟩
  env_moves move _ _ h := by
    cases move <;> exact h

end Protocol

variable {s₀ : PlanStore} {d₀ : DecisionStore} {X : ValidationExternal} {i : ι}
  {w : ValidationWorld} {g : ι → Drafts} {a b : ValidationWorld × (ι → Drafts)} {log : Log ValidationSig}

/-- The states after call `i` makes the call `o`. -/
abbrev afterOp (X : ValidationExternal) (i : ι) (a : ValidationWorld × (ι → Drafts))
    (o : ValidationOp) : ValidationWorld × (ι → Drafts) :=
  ((validation X o a.1).2, Function.update a.2 i ((a.2 i).note ⟨o, (validation X o a.1).1⟩))

/-- The call keeps the bounds, and the plans that are stored. -/
def Keeping (s₀ : PlanStore) (d₀ : DecisionStore) (X : ValidationExternal) (i : ι)
    (a : ValidationWorld × (ι → Drafts)) (o : ValidationOp) : Prop :=
  Bounded s₀ d₀ (afterOp X i a o).1 (afterOp X i a o).2 ∧ KeepsPlans a.1 (validation X o a.1).2

/-- The judgement of call `i`. -/
abbrev Follows {α : Type} (s₀ : PlanStore) (d₀ : DecisionStore) (X : ValidationExternal) (i : ι)
    (p : Call α) (Q : Log ValidationSig → ValidationWorld × (ι → Drafts) →
      Except ValidationFailure α → Prop) (log : Log ValidationSig)
    (a : ValidationWorld × (ι → Drafts)) : Prop :=
  p.Sat ((validations s₀ d₀ X).env i) (validations s₀ d₀ X).Safe Q log a

/-- A call is made within the bounds, and must stay within them. -/
theorem follows_call {o : ValidationOp} {Q : Log ValidationSig →
      ValidationWorld × (ι → Drafts) → Except ValidationFailure o.Res → Prop}
    (hcall : ∀ b, Bounded s₀ d₀ b.1 b.2 → b.2 i = a.2 i → KeepsPlans a.1 b.1 →
      Keeping s₀ d₀ X i b o ∧
        Q (⟨o, (validation X o b.1).1⟩ :: log) (afterOp X i b o) (validation X o b.1).1) :
    Follows s₀ d₀ X i (call o) Q log a := by
  refine (Async.sat_await o).mpr fun b r b' hrely hstep => ?_
  obtain ⟨hb, hmoves⟩ := hrely
  obtain ⟨hinv, rfl, rfl⟩ := hstep
  exact hcall b hinv hb hmoves

/-! ## Calls that make nothing -/

/-- The calls that make no plan, no version and no decision. -/
def Quiet : ValidationOp → Prop
  | .savePlan _ => False
  | .saveDecision _ => False
  | .compileRevision .. => False
  | _ => True

/-- What a call holds is changed by a compiled and by a saved revision only. -/
theorem note_of_quiet {o : ValidationOp} (ho : Quiet o) (h : Drafts)
    (r : Except ValidationFailure o.Res) : h.note ⟨o, r⟩ = h := by
  cases o <;> first | exact ho.elim | rfl

omit [DecidableEq ι] in
/-- A call that writes plans as they are stored, and neither ids nor decisions. -/
theorem Bounded.of_plans (h : Bounded s₀ d₀ w g) {w' : ValidationWorld}
    (hindexed : w'.plans.Indexed)
    (hholder : ∀ runId v, w'.plans.holder runId v = w.plans.holder runId v)
    (hbyId : ∀ id, w.plans.byId.get id = none → w'.plans.byId.get id = none)
    (hdecisions : w'.decisions = w.decisions) (hids : w'.identities = w.identities)
    (hgiven : w'.given.plans = w.given.plans) : Bounded s₀ d₀ w' g where
  indexed := hindexed
  versions runId v id hid := h.versions runId v id ((hholder runId v).symm.trans hid)
  sound id d hd := h.sound id d (hdecisions ▸ hd)
  injective := hids ▸ h.injective
  unused n hn := by
    rw [hids]
    exact hbyId _ (h.unused n (hgiven ▸ hn))
  drafted j id hid := by
    obtain ⟨⟨n, hn, hplan⟩, hnone⟩ := h.drafted j id hid
    exact ⟨⟨n, hgiven.symm ▸ hn, hids ▸ hplan⟩, hbyId id hnone⟩
  distinct := h.distinct
  revised j p hp := by
    rw [hholder]
    exact h.revised j p hp
  nodup := h.nodup
  apart := h.apart

/-- What a quiet call does to the world: nothing to what is bounded, or a plan is superseded. -/
theorem quiet_world {o : ValidationOp} (ho : Quiet o) (w : ValidationWorld) :
    (validation X o w).2.decisions = w.decisions ∧
      (validation X o w).2.identities = w.identities ∧
      (validation X o w).2.given.plans = w.given.plans ∧
      ((validation X o w).2.plans = w.plans ∨ ∃ id r, w.plans.byId.get id = some r ∧
        (validation X o w).2.plans = w.plans.replace (r.withStatus .superseded)) := by
  rw [validation]
  cases w.surroundings.fails o with
  | some e => exact ⟨rfl, rfl, rfl, .inl rfl⟩
  | none =>
    cases o with
    | markSuperseded planId =>
      refine ⟨rfl, rfl, rfl, ?_⟩
      rcases w.plans.markSuperseded_cases planId with hsame | ⟨r, hr, hset⟩
      · exact .inl hsame
      · exact .inr ⟨planId, r, hr, hset⟩
    | savePlan _ => exact ho.elim
    | saveDecision _ => exact ho.elim
    | compileRevision _ _ _ => exact ho.elim
    | _ => exact ⟨rfl, rfl, rfl, .inl rfl⟩

/-- A quiet call keeps the bounds, and what the call holds. -/
theorem keeping_of_quiet {o : ValidationOp} (ho : Quiet o) (hb : Bounded s₀ d₀ b.1 b.2) :
    Keeping s₀ d₀ X i b o ∧ (afterOp X i b o).2 = b.2 := by
  have hstate : afterOp X i b o = ((validation X o b.1).2, b.2) := by
    rw [afterOp, note_of_quiet ho, Function.update_eq_self]
  obtain ⟨hdecisions, hids, hgiven, hplans⟩ := quiet_world (X := X) ho b.1
  refine ⟨?_, by rw [hstate]⟩
  rw [Keeping, hstate]
  rcases hplans with hplans | ⟨id, r, hr, hplans⟩
  · refine ⟨hb.of_plans (hplans ▸ hb.indexed) (by simp [hplans]) (by simp [hplans]) hdecisions hids
      hgiven, fun record hrecord => ?_⟩
    rw [hplans]
    exact hrecord
  · have hhas : b.1.plans.Has (r.withStatus .superseded) :=
      (PlanStore.has_of_byId hb.indexed hr).withStatus _
    refine ⟨hb.of_plans (hplans ▸ hb.indexed.replace hhas) (by simp [hplans]) (fun id' hid' => ?_)
      hdecisions hids hgiven, fun record hrecord => ?_⟩
    · rw [hplans, PlanStore.replace, JsMap.get_set, if_neg, hid']
      rintro rfl
      obtain ⟨r', hr', -⟩ := hhas
      exact absurd (hid'.symm.trans hr') (by simp)
    · rw [hplans]
      exact PlanStore.Has.replace hhas.owns hrecord

/-- Quiet calls keep what call `i` holds, and the plans that are stored. -/
theorem keeps_quiet (s₀ : PlanStore) (d₀ : DecisionStore) (X : ValidationExternal) (i : ι)
    (a : ValidationWorld × (ι → Drafts)) :
    Keeps ((validations s₀ d₀ X).env i) (validations s₀ d₀ X).Safe Quiet
      fun _ b => b.2 i = a.2 i ∧ KeepsPlans a.1 b.1 := by
  refine ⟨fun _ b c hc hb => ⟨hc.1.trans hb.1, fun r hr => hc.2 r (hb.2 r hr)⟩,
    fun _ b o r b' ho hb hstep => ?_⟩
  obtain ⟨hinv, rfl, rfl⟩ := hstep
  obtain ⟨hkept, hnote⟩ := keeping_of_quiet (X := X) (i := i) ho hinv
  refine ⟨hkept, (congrFun hnote i).trans hb.1, fun r hr => hkept.2 r (hb.2 r hr)⟩

/-- A program of quiet calls keeps what call `i` holds, and the plans that are stored. -/
theorem follows_quiet {α : Type} {p : Call α} (hp : p.Only Quiet) :
    Follows s₀ d₀ X i p (fun _ b _ => b.2 i = a.2 i ∧ KeepsPlans a.1 b.1) log a :=
  hp.sat (keeps_quiet s₀ d₀ X i a) ⟨rfl, fun _ h => h⟩

/-! ## Calls that make plans, versions and decisions -/

section Drafts

/-- The call that drafted a plan has a draft no more. -/
theorem Bounded.undraft (h : Bounded s₀ d₀ w g) (i : ι) :
    Bounded s₀ d₀ w (Function.update g i { g i with drafted := none }) := by
  have hrevised (j : ι) : (Function.update g i { g i with drafted := none } j).revised =
      (g j).revised := proj_update Drafts.revised (by rfl) j
  have hdrafted {j : ι} {id : String}
      (hj : (Function.update g i { g i with drafted := none } j).drafted = some id) :
      (g j).drafted = some id := by
    by_cases hji : j = i
    · subst hji
      rw [Function.update_self] at hj
      cases hj
    · rwa [Function.update_of_ne hji] at hj
  refine ⟨h.indexed, h.versions, h.sound, h.injective, h.unused,
    fun j id hid => h.drafted j id (hdrafted hid),
    fun j k id hj hk => h.distinct j k id (hdrafted hj) (hdrafted hk),
    fun j p hp => h.revised j p (hrevised j ▸ hp), fun j => hrevised j ▸ h.nodup j,
    fun j k p hj hk => h.apart j k p (hrevised j ▸ hj) (hrevised k ▸ hk)⟩

/-- A call drafts a plan under the next id. -/
theorem Bounded.draft (h : Bounded s₀ d₀ w g) (i : ι) :
    Bounded s₀ d₀ (w.setGiven { w.given with plans := w.given.plans + 1 })
      (Function.update g i { g i with drafted := some (w.identities.plan w.given.plans) }) := by
  set g' := Function.update g i { g i with drafted := some (w.identities.plan w.given.plans) }
    with hg'
  have hrevised (j : ι) : (g' j).revised = (g j).revised :=
    proj_update Drafts.revised (by rfl) j
  -- the next id was not given out yet
  have hnext {j : ι} (hj : (g j).drafted = some (w.identities.plan w.given.plans)) : False := by
    obtain ⟨⟨n, hn, hplan⟩, -⟩ := h.drafted j _ hj
    exact absurd (h.injective hplan) (by omega)
  have hdrafted {j : ι} {id : String} (hj : (g' j).drafted = some id) :
      (j = i ∧ id = w.identities.plan w.given.plans) ∨ (j ≠ i ∧ (g j).drafted = some id) := by
    by_cases hji : j = i
    · subst hji
      rw [hg', Function.update_self] at hj
      exact .inl ⟨rfl, (Option.some.inj hj).symm⟩
    · rw [hg', Function.update_of_ne hji] at hj
      exact .inr ⟨hji, hj⟩
  refine ⟨h.indexed, h.versions, h.sound, h.injective,
    fun n hn => h.unused n (Nat.le_of_succ_le hn), fun j id hid => ?_,
    fun j k id hj hk => ?_, fun j p hp => h.revised j p (hrevised j ▸ hp),
    fun j => hrevised j ▸ h.nodup j,
    fun j k p hj hk => h.apart j k p (hrevised j ▸ hj) (hrevised k ▸ hk)⟩
  · rcases hdrafted hid with ⟨-, rfl⟩ | ⟨-, hid⟩
    · exact ⟨⟨w.given.plans, Nat.lt_succ_self _, rfl⟩, h.unused _ le_rfl⟩
    · obtain ⟨⟨n, hn, hplan⟩, hnone⟩ := h.drafted j id hid
      exact ⟨⟨n, Nat.lt_succ_of_lt hn, hplan⟩, hnone⟩
  · rcases hdrafted hj with ⟨hji, hid⟩ | ⟨-, hj'⟩ <;>
      rcases hdrafted hk with ⟨hki, hid'⟩ | ⟨-, hk'⟩
    · rw [hji, hki]
    · exact (hnext (hid ▸ hk')).elim
    · exact (hnext (hid' ▸ hj')).elim
    · exact h.distinct j k id hj' hk'

omit [DecidableEq ι] in
/-- An id is given out, and not used. -/
theorem Bounded.skip (h : Bounded s₀ d₀ w g) :
    Bounded s₀ d₀ (w.setGiven { w.given with plans := w.given.plans + 1 }) g := by
  refine ⟨h.indexed, h.versions, h.sound, h.injective,
    fun n hn => h.unused n (Nat.le_of_succ_le hn), fun j id hid => ?_, h.distinct, h.revised,
    h.nodup, h.apart⟩
  obtain ⟨⟨n, hn, hplan⟩, hnone⟩ := h.drafted j id hid
  exact ⟨⟨n, Nat.lt_succ_of_lt hn, hplan⟩, hnone⟩

/-- A call made a version of a run that no call had made. -/
theorem Bounded.revise (h : Bounded s₀ d₀ w g) (i : ι) {p : String × ℕ} (hlow : 1 < p.2)
    (hhigh : p.2 ≤ maxRevisedPlanVersion) (hheld : (w.plans.holder p.1 p.2).isSome = true)
    (hfresh : ∀ j, p ∉ (g j).revised) :
    Bounded s₀ d₀ w (Function.update g i { g i with revised := p :: (g i).revised }) := by
  set g' := Function.update g i { g i with revised := p :: (g i).revised } with hg'
  have hdrafted (j : ι) : (g' j).drafted = (g j).drafted := proj_update Drafts.drafted (by rfl) j
  have hrevised {j : ι} {q : String × ℕ} (hq : q ∈ (g' j).revised) :
      (j = i ∧ q = p) ∨ q ∈ (g j).revised := by
    by_cases hji : j = i
    · subst hji
      rw [hg', Function.update_self] at hq
      exact (List.mem_cons.mp hq).imp (fun h => ⟨rfl, h⟩) id
    · rw [hg', Function.update_of_ne hji] at hq
      exact .inr hq
  refine ⟨h.indexed, h.versions, h.sound, h.injective, h.unused,
    fun j id hid => h.drafted j id (hdrafted j ▸ hid),
    fun j k id hj hk => h.distinct j k id (hdrafted j ▸ hj) (hdrafted k ▸ hk),
    fun j q hq => ?_, fun j => ?_, fun j k q hj hk => ?_⟩
  · rcases hrevised hq with ⟨-, rfl⟩ | hq
    · exact ⟨hlow, hhigh, hheld⟩
    · exact h.revised j q hq
  · by_cases hji : j = i
    · subst hji
      rw [hg', Function.update_self]
      exact List.nodup_cons.mpr ⟨hfresh j, h.nodup j⟩
    · rw [hg', Function.update_of_ne hji]
      exact h.nodup j
  · rcases hrevised hj with ⟨hji, hqj⟩ | hj' <;> rcases hrevised hk with ⟨hki, hqk⟩ | hk'
    · rw [hji, hki]
    · exact absurd (hqj ▸ hk') (hfresh k)
    · exact absurd (hqk ▸ hj') (hfresh j)
    · exact h.apart j k q hj' hk'

omit [DecidableEq ι] in
/-- A save under an id that is taken by the same plan, or that nothing else is to have. -/
theorem Bounded.put (h : Bounded s₀ d₀ w g) {record : StoredPlanRecord}
    (howns : w.plans.Owns record)
    (hholder : ∀ id, w.plans.holder record.runId record.planVersion = some id →
      id = record.planId)
    (hversion : record.planVersion ≤ maxRevisedPlanVersion ∨
      s₀.holder record.runId record.planVersion = some record.planId)
    (hunused : ∀ n, w.given.plans ≤ n → w.identities.plan n ≠ record.planId)
    (hdrafted : ∀ j, (g j).drafted ≠ some record.planId) :
    Bounded s₀ d₀ (w.setPlans (w.plans.put record)) g where
  indexed := h.indexed.put howns hholder
  versions runId v id hid := by
    have hid' : (w.plans.put record).holder runId v = some id := hid
    rw [PlanStore.holder_put] at hid'
    split at hid'
    · next hsame =>
      cases hid'
      obtain ⟨rfl, rfl⟩ := hsame
      exact hversion
    · exact h.versions runId v id hid'
  sound := h.sound
  injective := h.injective
  unused n hn := (JsMap.get_set_ne _ _ (hunused n hn).symm).trans (h.unused n hn)
  drafted j id hid := by
    have hne : record.planId ≠ id := by
      rintro rfl
      exact hdrafted j hid
    exact ⟨(h.drafted j id hid).1, (JsMap.get_set_ne _ _ hne).trans (h.drafted j id hid).2⟩
  distinct := h.distinct
  revised j p hp := by
    obtain ⟨hlow, hhigh, hsome⟩ := h.revised j p hp
    refine ⟨hlow, hhigh, ?_⟩
    change ((w.plans.put record).holder p.1 p.2).isSome = true
    rw [PlanStore.holder_put]
    split
    · rfl
    · exact hsome
  nodup := h.nodup
  apart := h.apart

end Drafts

/-- A save throws and changes nothing, or puts the record into the store. -/
theorem savePlan_cases (record : StoredPlanRecord) (w : ValidationWorld) :
    (∃ e, validation X (.savePlan record) w = (.error e, w)) ∨
      validation X (.savePlan record) w = (.ok record, w.setPlans (w.plans.put record)) ∧
        ∀ id, w.plans.holder record.runId record.planVersion = some id → id = record.planId := by
  rw [validation]
  cases w.surroundings.fails (.savePlan record) with
  | some e => exact .inl ⟨e, rfl⟩
  | none =>
    simp only [ValidationWorld.answer]
    cases hsave : (w.plans.save record).1 with
    | ok record' =>
      obtain ⟨rfl, hput, hholder⟩ := PlanStore.save_ok hsave
      exact .inr ⟨by rw [hput], hholder⟩
    | error e => exact .inl ⟨e, by rw [PlanStore.save_error hsave]; rfl⟩

/-- A call that throws and changes nothing. -/
theorem keeping_of_error (hb : Bounded s₀ d₀ b.1 b.2) {o : ValidationOp} {e : ValidationFailure}
    (ho : validation X o b.1 = (.error e, b.1)) :
    Keeping s₀ d₀ X i b o ∧ (afterOp X i b o).2 = b.2 := by
  have hnote : (b.2 i).note ⟨o, .error e⟩ = b.2 i := by cases o <;> rfl
  have hstate : afterOp X i b o = b := by
    rw [afterOp, ho, hnote, Function.update_eq_self]
  refine ⟨?_, congrArg Prod.snd hstate⟩
  rw [Keeping, hstate, ho]
  exact ⟨hb, fun _ h => h⟩

/-- A stored plan gets another status. -/
theorem keeping_restatus (hb : Bounded s₀ d₀ b.1 b.2) {record : StoredPlanRecord}
    (hstatus : record.status ≠ .readyForValidation) (hhas : b.1.plans.Has record) :
    Keeping s₀ d₀ X i b (.savePlan record) ∧ (afterOp X i b (.savePlan record)).2 = b.2 ∧
      ∀ r, (validation X (.savePlan record) b.1).1 = .ok r → r = record := by
  rcases savePlan_cases (X := X) record b.1 with ⟨e, hsave⟩ | ⟨hsave, hholder⟩
  · obtain ⟨hkeeping, hsame⟩ := keeping_of_error (i := i) hb hsave
    refine ⟨hkeeping, hsame, fun r hr => ?_⟩
    rw [hsave] at hr
    cases hr
  have hstate : afterOp X i b (.savePlan record) =
      (b.1.setPlans (b.1.plans.put record), b.2) := by
    simp only [afterOp, hsave, Drafts.note, revision, if_neg hstatus, Function.update_eq_self]
  have hversion := hb.versions _ _ _ (hhas.holder hb.indexed)
  obtain ⟨r, hr, -⟩ := id hhas
  refine ⟨?_, by rw [hstate], fun r hr => ?_⟩
  · rw [Keeping, hstate, hsave]
    refine ⟨hb.put hhas.owns hholder hversion (fun n hn hid => ?_) (fun j hj => ?_),
      fun record' h' => h'.put hhas.owns⟩
    · have hnone := hb.unused n hn
      rw [hid, hr] at hnone
      cases hnone
    · have hnone := (hb.drafted j _ hj).2
      rw [hr] at hnone
      cases hnone
  · rw [hsave] at hr
    exact (Except.ok.inj hr).symm

/-- The plan of a revision is saved under its new id, as a version the run did not have. -/
theorem keeping_revision (hb : Bounded s₀ d₀ b.1 b.2) (record : StoredPlanRecord)
    (hstatus : record.status = .readyForValidation)
    (hdrafted : (b.2 i).drafted = some record.planId) (hlow : 1 < record.planVersion)
    (hhigh : record.planVersion ≤ maxRevisedPlanVersion) :
    Keeping s₀ d₀ X i b (.savePlan record) ∧
      ∀ r, (validation X (.savePlan record) b.1).1 = .ok r → r = record ∧
        (validation X (.savePlan record) b.1).2.plans.Has record := by
  rcases savePlan_cases (X := X) record b.1 with ⟨e, hsave⟩ | ⟨hsave, hholder⟩
  · refine ⟨(keeping_of_error hb hsave).1, fun r hr => ?_⟩
    rw [hsave] at hr
    cases hr
  obtain ⟨⟨n₀, hn₀, hplan₀⟩, hnone⟩ := hb.drafted i _ hdrafted
  have howns : b.1.plans.Owns record := PlanStore.owns_of_none hnone
  -- a version that the run has names a stored plan, and this one is not stored yet
  have hnew : b.1.plans.holder record.runId record.planVersion = none := by
    cases hheld : b.1.plans.holder record.runId record.planVersion with
    | none => rfl
    | some id =>
      obtain ⟨r, hr, -⟩ := hb.indexed.held _ _ id hheld
      rw [hholder id hheld, hnone] at hr
      cases hr
  have hput := (hb.undraft i).put howns hholder (.inl hhigh) (fun n hn hid => ?_) fun j hj => ?_
  · have hheld : ((b.1.plans.put record).holder record.runId record.planVersion).isSome = true := by
      rw [PlanStore.holder_put, if_pos ⟨rfl, rfl⟩]
      rfl
    have hfresh (j : ι) : (record.runId, record.planVersion) ∉
        (Function.update b.2 i { b.2 i with drafted := none } j).revised := by
      rw [proj_update Drafts.revised (by rfl) j]
      intro hp
      have hsome := (hb.revised j _ hp).2.2
      rw [hnew] at hsome
      cases hsome
    have hrevise := hput.revise i (p := (record.runId, record.planVersion)) hlow hhigh hheld hfresh
    have hstate : afterOp X i b (.savePlan record) = (b.1.setPlans (b.1.plans.put record),
        Function.update b.2 i ⟨none, (record.runId, record.planVersion) :: (b.2 i).revised⟩) := by
      simp only [afterOp, hsave, Drafts.note, revision, if_pos hstatus]
    rw [Function.update_self, Function.update_idem] at hrevise
    refine ⟨?_, fun r hr => ?_⟩
    · rw [Keeping, hstate, hsave]
      exact ⟨hrevise, fun record' h' => h'.put howns⟩
    · rw [hsave] at hr ⊢
      exact ⟨(Except.ok.inj hr).symm, PlanStore.has_put_self⟩
  · rw [← hplan₀] at hid
    exact absurd (hb.injective hid) (by omega)
  · by_cases hji : j = i
    · subst hji
      rw [Function.update_self] at hj
      cases hj
    · rw [Function.update_of_ne hji] at hj
      exact hji (hb.distinct j i _ hj hdrafted)

/-- A proposal is compiled under the next id. -/
theorem keeping_compile (hb : Bounded s₀ d₀ b.1 b.2) (proposal : PlanProposal)
    (context : PlanningContext) (v : ℕ) :
    Keeping s₀ d₀ X i b (.compileRevision proposal context v) ∧
      ∀ revised, (validation X (.compileRevision proposal context v) b.1).1 = .ok revised →
        ((afterOp X i b (.compileRevision proposal context v)).2 i).drafted =
          some revised.planId := by
  cases hfails : b.1.surroundings.fails (.compileRevision proposal context v) with
  | some e =>
    have hop : validation X (.compileRevision proposal context v) b.1 = (.error e, b.1) := by
      rw [validation, hfails]
    refine ⟨(keeping_of_error hb hop).1, fun revised hr => ?_⟩
    rw [hop] at hr
    cases hr
  | none =>
    cases hplan : b.1.surroundings.compileRevision proposal context v with
    | error e =>
      have hstate : afterOp X i b (.compileRevision proposal context v) =
          (b.1.setGiven { b.1.given with plans := b.1.given.plans + 1 }, b.2) := by
        simp only [afterOp, validation, hfails, ValidationWorld.answer, hplan, Except.map,
          Drafts.note, revision, Function.update_eq_self]
      refine ⟨?_, fun revised hr => ?_⟩
      · rw [Keeping, hstate]
        refine ⟨hb.skip, ?_⟩
        rw [validation, hfails]
        exact fun _ h => h
      · simp only [validation, hfails, ValidationWorld.answer, hplan, Except.map] at hr
        cases hr
    | ok plan =>
      have hstate : afterOp X i b (.compileRevision proposal context v) =
          (b.1.setGiven { b.1.given with plans := b.1.given.plans + 1 },
            Function.update b.2 i
              { b.2 i with drafted := some (b.1.identities.plan b.1.given.plans) }) := by
        simp only [afterOp, validation, hfails, ValidationWorld.answer, hplan, Except.map,
          Drafts.note]
      refine ⟨?_, fun revised hr => ?_⟩
      · rw [Keeping, hstate]
        refine ⟨hb.draft i, ?_⟩
        rw [validation, hfails]
        exact fun _ h => h
      · simp only [validation, hfails, ValidationWorld.answer, hplan, Except.map] at hr
        cases hr
        rw [hstate]
        simp only [Function.update_self]

/-- A decision is saved that overrides no finding. -/
theorem keeping_saveDecision (hb : Bounded s₀ d₀ b.1 b.2) {d : ValidationDecision}
    (hd : Overridable d.decision d.findings) :
    Keeping s₀ d₀ X i b (.saveDecision d) ∧ (afterOp X i b (.saveDecision d)).2 = b.2 := by
  have hnote (r : Except ValidationFailure ValidationDecision) :
      (b.2 i).note ⟨.saveDecision d, r⟩ = b.2 i := rfl
  have hstate : afterOp X i b (.saveDecision d) = ((validation X (.saveDecision d) b.1).2, b.2) := by
    rw [afterOp, hnote, Function.update_eq_self]
  refine ⟨?_, by rw [hstate]⟩
  rw [Keeping, hstate, validation]
  cases b.1.surroundings.fails (.saveDecision d) with
  | some e => exact ⟨hb, fun _ h => h⟩
  | none =>
    refine ⟨⟨hb.indexed, hb.versions, fun id d' hd' => ?_, hb.injective, hb.unused, hb.drafted,
      hb.distinct, hb.revised, hb.nodup, hb.apart⟩, fun _ h => h⟩
    change JsMap.get (DecisionStore.save b.1.decisions d).2 id = some d' at hd'
    rw [DecisionStore.save] at hd'
    split at hd'
    · exact hb.sound id d' hd'
    · rw [JsMap.get_set] at hd'
      split at hd'
      · cases hd'
        exact .inr hd
      · exact hb.sound id d' hd'

end ValidationService

end Orchestrator
